import OAuth2Monitoring.Console.Api

/-!
# Noticing a new version

`useVersionCheck` keeps the version that was live when the tab was opened, as the version store read
it, and compares it with what later polls read.

## Main definitions

* `VersionCheck.check`: one poll.
* `expected`: the polls that read another version than the last one that was read.

## Main results

* `toasted_eq_expected_iff`: a toast is added for exactly these polls unless a change follows an
  initial fetch that failed, or a version that is the empty string.
-/

namespace Console

open JsStd

/-- How a request for the version ends: it is rejected, or there is a response, whose body gives a
version or is not JSON. -/
inductive VersionReply
  | rejected
  | response (status : ℕ) (body : Option Text)

/-- The version that is read, where the request succeeds. -/
def VersionReply.version : VersionReply → Option Text
  | .rejected => none
  | .response status body => if okStatus status then body else none

/-! ## The store -/

/-- `useVersionStore`: what the issuer runs, as far as it was read. -/
structure VersionStore where
  backend : Option Text
  fetchError : Bool

/-- `fetchBackend`, whose request ends with this reply. -/
def VersionStore.fetchBackend (store : VersionStore) (reply : VersionReply) : VersionStore :=
  match reply.version with
  | some v => { store with backend := some v }
  | none => { store with fetchError := true }

/-- A reply that is no version leaves the one that is known. -/
theorem VersionStore.backend_fetchBackend (store : VersionStore) (reply : VersionReply) :
    (store.fetchBackend reply).backend = reply.version.or store.backend := by
  unfold fetchBackend
  cases reply.version <;> rfl

/-! ## The polls -/

/-- A toast; a life of `0` is sticky. -/
structure Toast where
  severity : Text
  summary : Text
  detail : Text
  life : ℕ
  deriving DecidableEq

/-- What `notifyUpdateAvailable` adds. -/
def updateAvailable : Toast where
  severity := text "info"
  summary := text "Update Available"
  detail := text "A new version has been deployed. Refresh the page to get the latest."
  life := 0

/-- An instance of `useVersionCheck`, and the toasts it added. -/
structure VersionCheck where
  snapshot : Option Text
  toasts : List Toast

namespace VersionCheck

/-- The instance once its fetch has ended: the snapshot is what the store holds then. -/
def start (store : VersionStore) (initial : VersionReply) : VersionCheck where
  snapshot := (store.fetchBackend initial).backend
  toasts := []

/-- `check`, whose request ends with this reply. -/
def check (s : VersionCheck) (reply : VersionReply) : VersionCheck :=
  match reply.version with
  | none => s
  | some version =>
    match s.snapshot with
    | none | some [] => s
    | some snapshot =>
      if version ≠ snapshot then
        { snapshot := some version, toasts := s.toasts ++ [updateAvailable] }
      else s

/-- Which polls add a toast. -/
def toasted (s : VersionCheck) : List VersionReply → List Bool
  | [] => []
  | reply :: replies =>
    ((s.check reply).toasts = s.toasts ++ [updateAvailable]) :: (s.check reply).toasted replies

end VersionCheck

/-! ## What is expected -/

/-- The reply differs from the version that was seen last. -/
def VersionReply.changes (reply : VersionReply) (seen : Option Text) : Option (Text × Text) :=
  match seen, reply.version with
  | some old, some new => if new ≠ old then some (old, new) else none
  | _, _ => none

/-- Which polls read another version than the successful one before them. -/
def expected (seen : Option Text) : List VersionReply → List Bool
  | [] => []
  | reply :: replies =>
    (reply.changes seen).isSome :: expected (reply.version.or seen) replies

/-- The changes between successive versions that are read. -/
def changes (seen : Option Text) : List VersionReply → List (Text × Text)
  | [] => []
  | reply :: replies =>
    (reply.changes seen).toList ++ changes (reply.version.or seen) replies

section

variable {s : VersionCheck} {reply : VersionReply} {replies : List VersionReply} {seen : Text}

theorem toasts_ne (l : List Toast) : l ≠ l ++ [updateAvailable] := by simp

/-- Without a snapshot nothing is noticed. -/
theorem check_of_none (h : s.snapshot = none) (reply : VersionReply) : s.check reply = s := by
  unfold VersionCheck.check
  cases reply.version with
  | none => rfl
  | some version => rw [h]

theorem toasted_of_none (h : s.snapshot = none) (replies : List VersionReply) :
    s.toasted replies = replies.map fun _ => false := by
  induction replies with
  | nil => rfl
  | cons reply replies ih =>
    rw [VersionCheck.toasted, check_of_none h, ih, decide_eq_false (toasts_ne _)]
    rfl

/-- Nothing is expected exactly when nothing changes. -/
theorem expected_eq_false_iff (seen : Option Text) (replies : List VersionReply) :
    (replies.map fun _ => false) = expected seen replies ↔ changes seen replies = [] := by
  induction replies generalizing seen with
  | nil => exact iff_of_true rfl rfl
  | cons reply replies ih =>
    rw [List.map_cons, expected, changes, List.cons.injEq, ih, List.append_eq_nil_iff]
    cases reply.changes seen <;> simp

/-- From a snapshot of the version that was seen last, the expected toasts are added as long as no
change follows an empty version: that one stops the comparison for good. -/
theorem toasted_eq_expected_of_snapshot (h : s.snapshot = some seen)
    (replies : List VersionReply) :
    s.toasted replies = expected (some seen) replies ↔
      ∀ c ∈ changes (some seen) replies, c.1 ≠ [] := by
  induction replies generalizing s seen with
  | nil => exact iff_of_true rfl nofun
  | cons reply replies ih =>
    rw [VersionCheck.toasted, expected, changes, List.cons.injEq]
    cases hversion : reply.version with
    | none =>
      -- a failure changes nothing
      have hcheck : s.check reply = s := by simp only [VersionCheck.check, hversion]
      have hnone : reply.changes (some seen) = none := by
        simp only [VersionReply.changes, hversion]
      rw [hcheck, hnone, decide_eq_false (toasts_ne _)]
      simpa using ih h
    | some version =>
      by_cases hsame : version = seen
      · -- the version that was seen already
        subst hsame
        have hcheck : s.check reply = s := by
          unfold VersionCheck.check
          rw [hversion, h]
          cases version <;> simp
        have hnone : reply.changes (some version) = none := by
          simp [VersionReply.changes, hversion]
        rw [hcheck, hnone, decide_eq_false (toasts_ne _)]
        simpa using ih h
      · have hchange : reply.changes (some seen) = some (seen, version) := by
          simp [VersionReply.changes, hversion, hsame]
        rw [hchange]
        by_cases hempty : seen = []
        · -- an empty snapshot is compared with nothing
          have hcheck : s.check reply = s := by
            unfold VersionCheck.check
            rw [hversion, h, hempty]
          rw [hcheck, decide_eq_false (toasts_ne _)]
          refine iff_of_false (fun heq => Bool.false_ne_true heq.1) fun hall => ?_
          exact hall (seen, version) (List.mem_append_left _ List.mem_cons_self) hempty
        · -- a toast, and the new version is the snapshot from now on
          have hcheck : s.check reply =
              { snapshot := some version, toasts := s.toasts ++ [updateAvailable] } := by
            unfold VersionCheck.check
            rw [hversion, h]
            cases seen with
            | nil => exact absurd rfl hempty
            | cons c rest => exact if_pos hsame
          rw [hcheck, decide_eq_true rfl, Option.some_or, ih rfl]
          simp [hempty]

end

/-- For every initial fetch and every sequence of polls: a toast is added for exactly those polls
whose version differs from the last one that was read, unless a change follows an initial fetch
that gave no version, or an empty version. -/
theorem toasted_eq_expected_iff (store : VersionStore) (initial : VersionReply)
    (polls : List VersionReply) :
    (VersionCheck.start store initial).toasted polls =
        expected (initial.version.or store.backend) polls ↔
      ∀ c ∈ changes (initial.version.or store.backend) polls,
        (initial.version.or store.backend).isSome = true ∧ c.1 ≠ [] := by
  have hsnapshot : (VersionCheck.start store initial).snapshot =
      initial.version.or store.backend := store.backend_fetchBackend initial
  cases hseen : initial.version.or store.backend with
  | none =>
    -- no snapshot is ever taken, so any change is missed
    rw [hseen] at hsnapshot
    rw [toasted_of_none hsnapshot, expected_eq_false_iff, List.eq_nil_iff_forall_not_mem]
    exact forall_congr' fun c => ⟨fun h hc => absurd hc h, fun h hc => by simpa using (h hc).1⟩
  | some seen =>
    rw [hseen] at hsnapshot
    rw [toasted_eq_expected_of_snapshot hsnapshot]
    simp

/-- The initial fetch fails, and later polls read one version and then another. -/
theorem change_missed :
    let polls := [.response 200 (some (text "1.12.0")), .response 200 (some (text "1.13.0"))]
    (VersionCheck.start ⟨none, false⟩ .rejected).toasted polls = [false, false] ∧
      expected none polls = [false, true] ∧
      (VersionCheck.start ⟨none, false⟩ .rejected).toasted polls ≠ expected none polls := by
  decide

end Console

import OAuth2Monitoring.Bff.RateLimit
import OAuth2Monitoring.ToMathlib.Interleaving.Pool
import Mathlib.Data.Fintype.EquivFin

/-!
# The state behind the handlers

The atomic operations a request handler performs, and what each does to the state the BFF keeps:
the budgets, the session store, the pending logins, the clock and the random source.
`Answers` says which answers an operation can get and what state it leaves; `Env` is what happens
between the operations of the requests: the clock advances and the sweeper runs.

Statements of the session store may fail at any time. A failed `Get` answers "no session", a
failed `Put`, `Delete` or `Sweep` does nothing, and each is counted in `sessionErrors`.
-/

namespace Bff

open GoStd Interleaving

/-! ## Operations -/

/-- The per-IP budgets. -/
inductive Budget
  | login
  | elevate
  deriving DecidableEq

/-- The budget's calls per window. -/
def Config.rate (cfg : Config) : Budget → ℤ
  | .login => cfg.loginRate
  | .elevate => cfg.elevateRate

/-- The servers behind the BFF. -/
inductive Upstream
  | admin
  | issuer
  deriving DecidableEq

/-- A POST the BFF makes itself. -/
structure Call where
  endpoint : Bytes
  header : Header
  body : Bytes

/-- A statement of the session store: its answer, unless it fails. -/
inductive Stmt (α : Type)
  | done (a : α)
  | failed

/-- What the caller of a statement is told. -/
def Stmt.answer {α : Type} (default : α) : Stmt α → α
  | done a => a
  | failed => default

/-- The atomic operations of a handler. -/
inductive Op (d : Deps)
  /-- `rateLimiter.allow`. -/
  | allow (budget : Budget) (key : Bytes)
  /-- `time.Now`. -/
  | now
  /-- `bff.RandomToken`. -/
  | randomToken (n : ℕ)
  | pendingPut (state : Bytes) (login : PendingLogin)
  | pendingTake (state : Bytes)
  | sessionGet (id : Bytes)
  | sessionPut (sess : d.Session)
  | sessionDelete (id : Bytes)
  | sessionSweep
  /-- `sessionErrors.Load`. -/
  | sessionErrors
  /-- `http.Client.Do`. -/
  | post (upstream : Upstream) (call : Call)
  /-- The round trip of a reverse proxy. -/
  | proxy (upstream : Upstream) (out : OutRequest)

/-- The answers of the operations. `allow` answers as `RateLimiter.allow` does, `pendingPut`
whether the login was stored, `pendingTake` the login if there is one, and a call to an upstream
may get no answer. -/
abbrev Res {d : Deps} : Op d → Type
  | .allow _ _ => Option ℤ
  | .now => ℤ
  | .randomToken _ => Bytes
  | .pendingPut _ _ => Bool
  | .pendingTake _ => Option PendingLogin
  | .sessionGet _ => Stmt (Option d.Session)
  | .sessionPut _ => Stmt Unit
  | .sessionDelete _ => Stmt Unit
  | .sessionSweep => Stmt Unit
  | .sessionErrors => UInt64
  | .post _ _ => Option Answer
  | .proxy _ _ => Option Answer

/-! ## The session store -/

/-- A row of the session store. A deleted session is remembered for a while. -/
inductive Row (d : Deps)
  | absent
  | live (sess : d.Session)
  | tombstone (since : ℤ)

/-- The rows of the session store, each under its session's id. -/
structure SessionStore (d : Deps) where
  row : Bytes → Row d
  keyed : ∀ id sess, row id = .live sess → d.id sess = id

namespace SessionStore

variable {d : Deps}

/-- The store without sessions. -/
def empty : SessionStore d where
  row _ := .absent
  keyed _ _ h := by cases h

/-- The session a row holds. -/
def find (st : SessionStore d) (id : Bytes) : Option d.Session :=
  match st.row id with
  | .live sess => some sess
  | _ => none

/-- Replace one row. -/
def update (st : SessionStore d) (id : Bytes) (row : Row d)
    (h : ∀ sess, row = .live sess → d.id sess = id) : SessionStore d where
  row := Function.update st.row id row
  keyed k sess hk := by
    by_cases hkid : k = id
    · subst hkid
      rw [Function.update_self] at hk
      exact h sess hk
    · rw [Function.update_of_ne hkid] at hk
      exact st.keyed k sess hk

/-- Replace the whole row; a deleted session is never revived. -/
def put (st : SessionStore d) (sess : d.Session) : SessionStore d :=
  match st.row (d.id sess) with
  | .tombstone _ => st
  | _ => st.update (d.id sess) (.live sess) fun _ h => by cases h; rfl

/-- Leave a tombstone. -/
def delete (st : SessionStore d) (id : Bytes) (now : ℤ) : SessionStore d :=
  st.update id (.tombstone now) fun _ h => by cases h

/-- Drop the expired sessions and the tombstones older than `ttl`. -/
def sweep (st : SessionStore d) (expired : d.Session → Bool) (ttl now : ℤ) : SessionStore d where
  row id :=
    match st.row id with
    | .absent => .absent
    | .live sess => if expired sess then .absent else .live sess
    | .tombstone since => if since + ttl ≤ now then .absent else .tombstone since
  keyed id sess h := by
    split at h
    · cases h
    · rename_i sess' hrow
      split at h
      · cases h
      · cases h
        exact st.keyed id sess hrow
    · split at h <;> cases h

theorem id_of_find {st : SessionStore d} {id : Bytes} {sess : d.Session}
    (h : st.find id = some sess) : d.id sess = id := by
  unfold find at h
  split at h
  · rename_i sess' hrow
    cases h
    exact st.keyed id sess hrow
  · cases h

/-- A `Put` on a row that is found replaces it. -/
theorem find_put_self {st : SessionStore d} {sess old : d.Session}
    (h : st.find (d.id sess) = some old) : (st.put sess).find (d.id sess) = some sess := by
  unfold find at h
  split at h
  · rename_i sess' hrow
    simp [put, hrow, find, update]
  · cases h

theorem row_put_of_ne {st : SessionStore d} {sess : d.Session} {id : Bytes} (h : id ≠ d.id sess) :
    (st.put sess).row id = st.row id := by
  unfold put
  cases st.row (d.id sess) with
  | tombstone since => rfl
  | absent => exact Function.update_of_ne h ..
  | live old => exact Function.update_of_ne h ..

/-- A deleted session is not revived. -/
theorem put_of_tombstone {st : SessionStore d} {sess : d.Session} {since : ℤ}
    (h : st.row (d.id sess) = .tombstone since) : st.put sess = st := by
  unfold put
  rw [h]

/-- A `Put` on a row without tombstone is stored. -/
theorem row_put_self {st : SessionStore d} {sess : d.Session}
    (h : ∀ since, st.row (d.id sess) ≠ .tombstone since) :
    (st.put sess).row (d.id sess) = .live sess := by
  unfold put
  cases hrow : st.row (d.id sess) with
  | tombstone since => exact absurd hrow (h since)
  | absent => exact Function.update_self ..
  | live old => exact Function.update_self ..

theorem find_put_of_ne {st : SessionStore d} {sess : d.Session} {id : Bytes}
    (h : id ≠ d.id sess) : (st.put sess).find id = st.find id := by
  rw [find, row_put_of_ne h, find]

/-- A deleted session is not found. -/
@[simp]
theorem find_delete_self (st : SessionStore d) (id : Bytes) (now : ℤ) :
    (st.delete id now).find id = none := by
  simp [delete, update, find]

end SessionStore

/-- The access and the refresh token of a session. -/
def tokensOf {d : Deps} (sess : d.Session) : Bytes × Bytes :=
  (d.accessToken sess, d.refreshToken sess)

/-! ## The state -/

/-- The state the handlers share. `issued` are the random tokens drawn so far. -/
structure World (d : Deps) where
  clock : ℤ
  loginLimiter : RateLimiter
  elevateLimiter : RateLimiter
  sessions : SessionStore d
  sessionErrors : UInt64
  pending : Bytes → Option PendingLogin
  issued : List Bytes

namespace World

variable {d : Deps}

/-- The limiter of a budget. -/
def limiter (w : World d) : Budget → RateLimiter
  | .login => w.loginLimiter
  | .elevate => w.elevateLimiter

/-- Replace the limiter of a budget. -/
def setLimiter (w : World d) (rl : RateLimiter) : Budget → World d
  | .login => { w with loginLimiter := rl }
  | .elevate => { w with elevateLimiter := rl }

/-- A statement failed: the error handler counts it. -/
def countError (w : World d) : World d := { w with sessionErrors := w.sessionErrors + 1 }

/-- Set or remove a pending login. -/
def setPending (w : World d) (state : Bytes) (login : Option PendingLogin) : World d :=
  { w with pending := Function.update w.pending state login }

@[simp]
theorem setPending_self (w : World d) (state : Bytes) (login : Option PendingLogin) :
    (w.setPending state login).pending state = login := Function.update_self ..

theorem setPending_of_ne (w : World d) {state s : Bytes} (login : Option PendingLogin)
    (h : s ≠ state) : (w.setPending state login).pending s = w.pending s :=
  Function.update_of_ne h ..

/-- A random token is drawn. -/
def issue (w : World d) (v : Bytes) : World d := { w with issued := v :: w.issued }

/-- The session `Get` answers with. -/
def get (cfg : Config) (w : World d) (id : Bytes) : Option d.Session :=
  (w.sessions.find id).filter fun sess =>
    !d.expired cfg.sessionIdle cfg.sessionAbsolute sess w.clock

/-- `SessionStore.Sweep`: expired sessions and old tombstones go. -/
def sweepSessions (cfg : Config) (w : World d) : World d :=
  let expired := fun sess => d.expired cfg.sessionIdle cfg.sessionAbsolute sess w.clock
  { w with sessions := w.sessions.sweep expired d.tombstoneTTL w.clock }

end World

/-- The operation can be answered so, and leaves the state `w'` then. A pending login is taken at
most once; that there is none to take is always a possible answer, the store being free to lose
or to refuse one, and so is that it could not be stored. -/
def Answers {d : Deps} (cfg : Config) (w : World d) : (op : Op d) → Res op → World d → Prop
  | .allow b key, res, w' =>
    let out := (w.limiter b).allow w.clock key
    res = out.1 ∧ w' = w.setLimiter out.2 b
  | .now, res, w' => res = w.clock ∧ w' = w
  | .randomToken _, res, w' => res ∉ w.issued ∧ w' = w.issue res
  | .pendingPut state login, true, w' => w' = w.setPending state (some login)
  | .pendingPut _ _, false, w' => w' = w
  | .pendingTake state, some login, w' =>
    w.pending state = some login ∧ w' = w.setPending state none
  | .pendingTake _, none, w' => w' = w
  | .sessionGet id, .done res, w' => res = w.get cfg id ∧ w' = w
  | .sessionPut sess, .done _, w' => w' = { w with sessions := w.sessions.put sess }
  | .sessionDelete id, .done _, w' =>
    w' = { w with sessions := w.sessions.delete id w.clock }
  | .sessionSweep, .done _, w' => w' = w.sweepSessions cfg
  | .sessionGet _, .failed, w' => w' = w.countError
  | .sessionPut _, .failed, w' => w' = w.countError
  | .sessionDelete _, .failed, w' => w' = w.countError
  | .sessionSweep, .failed, w' => w' = w.countError
  | .sessionErrors, res, w' => res = w.sessionErrors ∧ w' = w
  | .post _ _, _, w' => w' = w
  | .proxy _ _, _, w' => w' = w

/-- Every operation can be answered. -/
theorem exists_answers {d : Deps} (cfg : Config) (w : World d) (op : Op d) :
    ∃ res w', Answers cfg w op res w' := by
  cases op with
  | allow b key => exact ⟨_, _, rfl, rfl⟩
  | now => exact ⟨_, _, rfl, rfl⟩
  | randomToken n =>
    -- finitely many tokens have been issued, so there is a fresh one
    obtain ⟨v, hv⟩ := Infinite.exists_notMem_finset w.issued.toFinset
    exact ⟨v, _, by simpa using hv, rfl⟩
  | pendingPut state login => exact ⟨true, _, rfl⟩
  | pendingTake state => exact ⟨none, _, rfl⟩
  | sessionGet id => exact ⟨.failed, _, rfl⟩
  | sessionPut sess => exact ⟨.failed, _, rfl⟩
  | sessionDelete id => exact ⟨.failed, _, rfl⟩
  | sessionSweep => exact ⟨.failed, _, rfl⟩
  | sessionErrors => exact ⟨_, _, rfl, rfl⟩
  | post up c => exact ⟨none, _, rfl⟩
  | proxy up out => exact ⟨none, _, rfl⟩

/-! ## Between the operations -/

namespace World

variable {d : Deps}

/-- `PendingLoginStore.Sweep`: expired pending logins go. -/
def sweepPending (w : World d) : World d :=
  { w with pending := fun state =>
      (w.pending state).filter fun login => w.clock < login.created + d.pendingLoginTTL }

end World

/-- What happens by itself: time passes, and what `sweepOnce` does in memory. -/
inductive Ambient {d : Deps} : World d → World d → Prop
  | tick (w : World d) {t : ℤ} (h : w.clock ≤ t) : Ambient w { w with clock := t }
  | sweepPending (w : World d) : Ambient w w.sweepPending
  | sweepLimiter (w : World d) (b : Budget) :
      Ambient w (w.setLimiter ((w.limiter b).sweep w.clock) b)

/-- What happens between the operations of the requests: the sweeper's statement on the session
store, which may fail like any other, besides what happens by itself. -/
inductive Env {d : Deps} (cfg : Config) : World d → World d → Prop
  | ambient {w w' : World d} (h : Ambient w w') : Env cfg w w'
  | sweepSessions {w w' : World d} (res : Stmt Unit) (h : Answers cfg w .sessionSweep res w') :
      Env cfg w w'

/-- The state the BFF starts in, at time `t`. The sessions of a durable store survive a restart. -/
def World.start {d : Deps} (cfg : Config) (t : ℤ) (st : SessionStore d) : World d where
  clock := t
  loginLimiter := RateLimiter.new cfg.loginRate rateWindow
  elevateLimiter := RateLimiter.new cfg.elevateRate rateWindow
  sessions := st
  sessionErrors := 0
  pending := fun _ => none
  issued := []

/-! ## What an operation leaves alone -/

/-- What stays the same when `op` is performed. -/
structure Kept {d : Deps} (op : Op d) (w w' : World d) : Prop where
  clock : w'.clock = w.clock
  issued : (∀ n, op ≠ .randomToken n) → w'.issued = w.issued
  pending : (∀ state login, op ≠ .pendingPut state login) → (∀ state, op ≠ .pendingTake state) →
    w'.pending = w.pending
  sessions : (∀ sess, op ≠ .sessionPut sess) → (∀ id, op ≠ .sessionDelete id) →
    op ≠ .sessionSweep → w'.sessions = w.sessions
  limiter : ∀ b, (∀ key, op ≠ .allow b key) → w'.limiter b = w.limiter b

section Frame

variable {d : Deps} {cfg : Config} {w w' : World d}

/-- A session that a `Get` answers with is in its row. -/
theorem World.find_of_get {id : Bytes} {sess : d.Session} (h : w.get cfg id = some sess) :
    w.sessions.find id = some sess := by
  rw [World.get, Option.filter_eq_some_iff] at h
  exact h.1

theorem Kept.refl (op : Op d) (w : World d) : Kept op w w :=
  ⟨rfl, fun _ => rfl, fun _ _ => rfl, fun _ _ _ => rfl, fun _ _ => rfl⟩

/-- A failed statement changes nothing but the count of failures. -/
theorem Kept.countError (op : Op d) (w : World d) : Kept op w w.countError :=
  ⟨rfl, fun _ => rfl, fun _ _ => rfl, fun _ _ _ => rfl, fun b _ => by cases b <;> rfl⟩

theorem World.setLimiter_of_ne {b b' : Budget} (h : b' ≠ b) (rl : RateLimiter) :
    (w.setLimiter rl b).limiter b' = w.limiter b' := by
  cases b <;> cases b' <;> first | rfl | exact absurd rfl h

@[simp]
theorem World.setLimiter_self (b : Budget) (rl : RateLimiter) :
    (w.setLimiter rl b).limiter b = rl := by
  cases b <;> rfl

/-- Each operation changes only the part of the state it is about. -/
theorem Answers.kept {op : Op d} {res : Res op} (h : Answers cfg w op res w') : Kept op w w' := by
  cases op with
  | allow b key =>
    -- the other budget has a limiter of its own
    obtain ⟨-, rfl⟩ := h
    refine ⟨by cases b <;> rfl, fun _ => by cases b <;> rfl, fun _ _ => by cases b <;> rfl,
      fun _ _ _ => by cases b <;> rfl, fun b' hb => World.setLimiter_of_ne ?_ _⟩
    rintro rfl
    exact hb key rfl
  | now =>
    obtain ⟨-, rfl⟩ := h
    exact .refl _ _
  | randomToken n =>
    obtain ⟨-, rfl⟩ := h
    exact ⟨rfl, fun h => absurd rfl (h n), fun _ _ => rfl, fun _ _ _ => rfl,
      fun b _ => by cases b <;> rfl⟩
  | pendingPut state login =>
    -- a `Put` that fails stores nothing
    cases res with
    | true =>
      obtain rfl : w' = _ := h
      exact ⟨rfl, fun _ => rfl, fun h _ => absurd rfl (h state login), fun _ _ _ => rfl,
        fun b _ => by cases b <;> rfl⟩
    | false =>
      obtain rfl : w' = w := h
      exact .refl _ _
  | pendingTake state =>
    cases res with
    | none =>
      obtain rfl : w' = w := h
      exact .refl _ _
    | some login =>
      obtain ⟨-, rfl⟩ := h
      exact ⟨rfl, fun _ => rfl, fun _ h => absurd rfl (h state), fun _ _ _ => rfl,
        fun b _ => by cases b <;> rfl⟩
  | sessionGet id =>
    cases res with
    | done a =>
      obtain ⟨-, rfl⟩ := h
      exact .refl _ _
    | failed =>
      obtain rfl : w' = w.countError := h
      exact .countError _ _
  | sessionPut sess =>
    cases res with
    | done a =>
      obtain rfl : w' = _ := h
      exact ⟨rfl, fun _ => rfl, fun _ _ => rfl, fun h _ _ => absurd rfl (h sess),
        fun b _ => by cases b <;> rfl⟩
    | failed =>
      obtain rfl : w' = w.countError := h
      exact .countError _ _
  | sessionDelete id =>
    cases res with
    | done a =>
      obtain rfl : w' = _ := h
      exact ⟨rfl, fun _ => rfl, fun _ _ => rfl, fun _ h _ => absurd rfl (h id),
        fun b _ => by cases b <;> rfl⟩
    | failed =>
      obtain rfl : w' = w.countError := h
      exact .countError _ _
  | sessionSweep =>
    cases res with
    | done a =>
      obtain rfl : w' = _ := h
      exact ⟨rfl, fun _ => rfl, fun _ _ => rfl, fun _ _ h => absurd rfl h,
        fun b _ => by cases b <;> rfl⟩
    | failed =>
      obtain rfl : w' = w.countError := h
      exact .countError _ _
  | sessionErrors =>
    obtain ⟨-, rfl⟩ := h
    exact .refl _ _
  | post up c =>
    obtain rfl : w' = w := h
    exact .refl _ _
  | proxy up out =>
    obtain rfl : w' = w := h
    exact .refl _ _

/-- Between the operations no pending login appears and no token is issued. -/
theorem Env.pending_of_some (h : Env cfg w w') {state : Bytes} {login : PendingLogin}
    (hp : w'.pending state = some login) : w.pending state = some login := by
  cases h with
  | ambient h =>
    cases h with
    | tick ht => exact hp
    | sweepPending => exact (Option.filter_eq_some_iff.mp hp).1
    | sweepLimiter b => cases b <;> exact hp
  | sweepSessions res h => exact h.kept.pending (by simp) (by simp) ▸ hp

/-- Nothing is drawn between the operations. -/
theorem Env.issued_eq (h : Env cfg w w') : w'.issued = w.issued := by
  cases h with
  | ambient h =>
    cases h with
    | tick ht => rfl
    | sweepPending => rfl
    | sweepLimiter b => cases b <;> rfl
  | sweepSessions res h => exact h.kept.issued (by simp)

end Frame

end Bff

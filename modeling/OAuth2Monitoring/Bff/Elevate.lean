import OAuth2Monitoring.Bff.Reference

/-!
# What a step-up leaves behind

A step-up makes its checks first: the budget, the session, the CSRF token, and the freshness of the
access token. What it does then depends on their outcome alone, and on the answer of the admin API.
Each exit leaves the session, the cookie and the body of the answer in agreement.

## Main definitions

* `Checked`, `elevateChecks`, `elevateEnd`: the two halves of the handler.
* `ElevateContract`: what an exit leaves.

## Main results

* `handleElevate_eq`: the handler is its checks, and then its end.
* `elevate_contract`: every run of the handler keeps the contract.
-/

namespace Bff

open GoStd Interleaving Interleaving.Prog

/-- What the checks of a step-up come to. -/
inductive Checked (d : Deps)
  | limited (retry : ℤ)
  | signedOut
  | forged
  /-- `EnsureFresh` has answered, for this session. -/
  | freshened (sess : d.Session) (f : Freshness d)

namespace Server

variable {d : Deps} (srv : Server d) (ctx : Attribution) (r : Request)

/-! ## The two halves -/

/-- The checks, up to `EnsureFresh`. -/
def elevateChecks : Prog (@Res d) (Checked d) := do
  match ← allow .elevate (clientIP d r) with
  | some retry => pure (.limited retry)
  | none => do
    match ← currentSession r with
    | none => pure .signedOut
    | some sess =>
      if d.matchCSRF sess (csrfHeader r) = false then pure .forged
      else do
        pure (.freshened sess
          (← srv.gateway.ensureFresh (tokenRefresherAdapter srv.cfg ctx) sess))

/-- What a step-up does after its checks. -/
def elevateEnd : Checked d → Handler d
  | .limited retry => pure (tooManyRequests retry)
  | .signedOut => pure (writeError "unauthenticated" 401)
  | .forged => pure (writeError "invalid_csrf" 403)
  | .freshened _ (.fresh sess) => elevateUpstream srv ctx r sess
  | .freshened sess .fatal => do
    let _ ← storeDelete (d.id sess)
    pure (((writeError "session expired" 401).withHeader "Cache-Control" "no-store").withCookie
      .clearSession)
  | .freshened _ .transient =>
    pure ((writeError "token_refresh_unavailable" 502).withHeader "Cache-Control" "no-store")

/-- The handler is its checks, and then its end. -/
theorem handleElevate_eq :
    srv.handleElevate ctx r = srv.elevateChecks ctx r >>= srv.elevateEnd ctx r := by
  unfold handleElevate elevateChecks rateLimited
  simp only [call_bind, ret_bind]
  -- both ask the same operation first, and go on in the same way after each of its answers
  congr 1
  funext limited
  cases limited with
  | some retry => rfl
  | none =>
    simp only [pure_eq, ret_bind, bind_assoc]
    congr 1
    funext found
    cases found with
    | none => rfl
    | some sess =>
      simp only
      split
      · rfl
      · simp only [bind_assoc]
        congr 1
        funext f
        cases f <;> rfl

end Server

variable {d : Deps} {cfg : Config} {srv : Server d} {ctx : Attribution} {r : Request}
  {w w' w₁ : World d} {pre rest l : List (Event (@Res d))} {resp : Response}

/-! ## Runs of the checks -/

/-- All runs of the checks: which of them refused, or what `EnsureFresh` answered when none did. -/
inductive ChecksRun (srv : Server d) (ctx : Attribution) (r : Request) (w : World d) :
    List (Event (@Res d)) → Checked d → World d → Prop
  | limited {retry : ℤ} {w₁ : World d} (hkept : w₁.sessions = w.sessions) :
    ChecksRun srv ctx r w [⟨.allow .elevate (clientIP d r), some retry⟩] (.limited retry) w₁
  | signedOut {w₂ w₁ : World d} {lookup : List (Event (@Res d))}
    (hkept : w₂.sessions = w.sessions)
    (hlookup : Exec (Answers srv.cfg) w₂ (Server.currentSession r) lookup (.ret none) w₁) :
    ChecksRun srv ctx r w (⟨.allow .elevate (clientIP d r), none⟩ :: lookup) .signedOut w₁
  | forged {w₂ w₁ : World d} {lookup : List (Event (@Res d))} {sess : d.Session}
    (hkept : w₂.sessions = w.sessions)
    (hlookup : Exec (Answers srv.cfg) w₂ (Server.currentSession r) lookup (.ret (some sess)) w₁)
    (hcsrf : d.matchCSRF sess (Server.csrfHeader r) = false) :
    ChecksRun srv ctx r w (⟨.allow .elevate (clientIP d r), none⟩ :: lookup) .forged w₁
  | freshened {w₂ w₃ w₁ : World d} {lookup refresh : List (Event (@Res d))} {sess : d.Session}
    {f : Freshness d} (hkept : w₂.sessions = w.sessions)
    (hlookup : Exec (Answers srv.cfg) w₂ (Server.currentSession r) lookup (.ret (some sess)) w₃)
    (hcsrf : d.matchCSRF sess (Server.csrfHeader r) = true)
    (hrefresh : Exec (Answers srv.cfg) w₃
      (srv.gateway.ensureFresh (tokenRefresherAdapter srv.cfg ctx) sess) refresh (.ret f) w₁) :
    ChecksRun srv ctx r w (⟨.allow .elevate (clientIP d r), none⟩ :: (lookup ++ refresh))
      (.freshened sess f) w₁

/-- An undisturbed run of the checks is one of these. -/
theorem elevateChecks_exec {out : Checked d}
    (hrun : Exec (Answers srv.cfg) w (srv.elevateChecks ctx r) pre (.ret out) w₁) :
    ChecksRun srv ctx r w pre out w₁ := by
  obtain ⟨res, l, w₂, rfl, hallow, hrun⟩ := exec_call_iff.mp hrun
  have hkept : w₂.sessions = w.sessions :=
    hallow.kept.sessions (by rintro _ ⟨⟩) (by rintro _ ⟨⟩) (by rintro ⟨⟩)
  -- the checks in their order: budget, session, CSRF token, refresh
  cases res with
  | some retry =>
    obtain ⟨rfl, hout, rfl⟩ := exec_ret_iff.mp hrun
    cases hout
    exact .limited hkept
  | none =>
    dsimp only [Prog.bind] at hrun
    obtain ⟨found, lookup, l', w₃, rfl, hlookup, hrun⟩ := exec_bind_iff.mp hrun
    cases found with
    | none =>
      obtain ⟨rfl, hout, rfl⟩ := exec_ret_iff.mp hrun
      cases hout
      rw [List.append_nil]
      exact .signedOut hkept hlookup
    | some sess =>
      by_cases hcsrf : d.matchCSRF sess (Server.csrfHeader r) = false
      · simp only [hcsrf, if_true] at hrun
        obtain ⟨rfl, hout, rfl⟩ := exec_ret_iff.mp hrun
        cases hout
        rw [List.append_nil]
        exact .forged hkept hlookup hcsrf
      · simp only [hcsrf] at hrun
        obtain ⟨f, refresh, l'', w₄, rfl, hrefresh, hrun⟩ := exec_bind_iff.mp hrun
        obtain ⟨rfl, hout, rfl⟩ := exec_ret_iff.mp hrun
        cases hout
        rw [List.append_nil]
        exact .freshened hkept hlookup (by simpa using hcsrf) hrefresh

/-- All four checks passed: the budget admitted the caller, the cookie's session was found, the
request carries its CSRF token, and `EnsureFresh` made it `fresh`. -/
structure AllPassed (srv : Server d) (ctx : Attribution) (r : Request) (pre : List (Event (@Res d)))
    (sess fresh : d.Session) : Prop where
  performed : ∃ lookup refresh,
    pre = ⟨.allow .elevate (clientIP d r), none⟩ :: (lookup ++ refresh) ∧
    (Server.currentSession r).Yields lookup (some sess) ∧
    (srv.gateway.ensureFresh (tokenRefresherAdapter srv.cfg ctx) sess).Yields refresh (.fresh fresh)
  csrf : d.matchCSRF sess (Server.csrfHeader r) = true

/-- A run of the checks that ends with a fresh session has passed them all. -/
theorem ChecksRun.allPassed {sess fresh : d.Session}
    (h : ChecksRun srv ctx r w pre (.freshened sess (.fresh fresh)) w₁) :
    AllPassed srv ctx r pre sess fresh := by
  cases h with
  | freshened _ hlookup hcsrf hrefresh =>
    exact ⟨⟨_, _, rfl, hlookup.yields, hrefresh.yields⟩, hcsrf⟩

/-- The checks do not call the admin API. -/
theorem ChecksRun.not_post (hgw : srv.gateway.Lawful) {out : Checked d}
    (h : ChecksRun srv ctx r w pre out w₁) (c : Call) (a : Option Answer) :
    ⟨.post .admin c, a⟩ ∉ pre := by
  have hlookup : (Server.currentSession (d := d) r).Uses fun op => ∀ c, op ≠ .post .admin c :=
    Server.currentSession_uses fun op hop c hc => by rw [hc] at hop; exact hop
  have hrefresh : ∀ sess, (srv.gateway.ensureFresh (tokenRefresherAdapter srv.cfg ctx) sess).Uses
      fun op => ∀ c, op ≠ .post .admin c := fun sess =>
    hgw.ensureFresh_uses _ sess _ (fun op hop c hc => by rw [hc] at hop; exact hop)
      fun token => tokenRefresherAdapter_uses (fun _ _ h => by cases h) token
  -- what comes before the lookup and the refresh is the question to the budget
  intro hmem
  cases h with
  | limited _ => simp at hmem
  | signedOut _ hrun =>
    rcases List.mem_cons.mp hmem with hev | hmem
    · cases hev
    · exact hrun.of_uses hlookup _ hmem c rfl
  | forged _ hrun _ =>
    rcases List.mem_cons.mp hmem with hev | hmem
    · cases hev
    · exact hrun.of_uses hlookup _ hmem c rfl
  | freshened _ hrun _ hrun' =>
    rcases List.mem_cons.mp hmem with hev | hmem
    · cases hev
    · rcases List.mem_append.mp hmem with hmem | hmem
      · exact hrun.of_uses hlookup _ hmem c rfl
      · exact hrun'.of_uses (hrefresh _) _ hmem c rfl

/-- The session lookup puts the session it finds, its idle window slid, or nothing. -/
theorem currentSession_sessions {found : Option d.Session}
    (hrun : Exec (Answers cfg) w (Server.currentSession r) l (.ret found) w') :
    w'.sessions = w.sessions ∨ ∃ id sess, w.get cfg id = some sess ∧
      w'.sessions = w.sessions.put (d.touch sess w.clock) := by
  cases lookupRun_of_exec hrun with
  | noCookie => exact .inl rfl
  | unread => exact .inl rfl
  | noRow => exact .inl rfl
  -- the touched session is put back; a put that fails leaves the row as it was
  | @slid id sess put _ _ hget hput =>
    cases put with
    | done u =>
      obtain rfl : w' = _ := hput
      exact .inr ⟨id, sess, hget, rfl⟩
    | failed =>
      obtain rfl : w' = w.countError := hput
      exact .inl rfl

/-- The session lookup leaves every session its tokens. -/
theorem currentSession_tokens (hd : d.Lawful) {found : Option d.Session}
    (hrun : Exec (Answers cfg) w (Server.currentSession r) l (.ret found) w') (id : Bytes) :
    (w'.sessions.find id).map tokensOf = (w.sessions.find id).map tokensOf := by
  rcases currentSession_sessions hrun with hkept | ⟨id', sess, hget, hput⟩
  · rw [hkept]
  · rw [hput]
    have hfind : w.sessions.find id' = some sess := World.find_of_get hget
    have hid : d.id (d.touch sess w.clock) = id' :=
      (hd.id_touch _ _).trans (SessionStore.id_of_find hfind)
    -- touching a session moves its expiry, not its tokens
    by_cases h : id = d.id (d.touch sess w.clock)
    · subst h
      rw [SessionStore.find_put_self (hid ▸ hfind), hid, hfind]
      simp [tokensOf, hd.accessToken_touch, hd.refreshToken_touch]
    · rw [SessionStore.find_put_of_ne h]

/-- The checks before `EnsureFresh` leave every session its tokens. -/
theorem ChecksRun.tokens (hd : d.Lawful) {out : Checked d}
    (h : ChecksRun srv ctx r w pre out w₁) (hout : ∀ sess f, out ≠ .freshened sess f)
    (id : Bytes) : (w₁.sessions.find id).map tokensOf = (w.sessions.find id).map tokensOf := by
  cases h with
  | limited hkept => rw [hkept]
  | signedOut hkept hlookup => rw [currentSession_tokens hd hlookup, hkept]
  | forged hkept hlookup hcsrf => rw [currentSession_tokens hd hlookup, hkept]
  | freshened hkept hlookup hcsrf hrefresh => exact absurd rfl (hout _ _)

/-! ## Runs of the end -/

/-- The answer that passes a challenge of the admin API on. -/
def challenge (a : Answer) : Response :=
  (Response.withHeader
    { status := a.status, body := .upstream { a with body := a.body.take readLimit } }
    "Content-Type" "application/json").withHeader "Cache-Control" "no-store"

/-- All runs of the call of the admin API, from the state `w`: it fails, the answer is a challenge,
or the reply's tokens are put. -/
inductive UpstreamRun (cfg : Config) (sess : d.Session) (w : World d) :
    List (Event (@Res d)) → Response → World d → Prop
  | failed {status : ℕ} (hstatus : 500 ≤ status) {rest : List (Event (@Res d))}
    (hrest : ∀ ev ∈ rest, ∃ c a, ev = ⟨.post .admin c, a⟩)
    (hanswer : ∀ c a, ⟨.post .admin c, some a⟩ ∈ rest → ¬(400 ≤ a.status ∧ a.status < 500)) :
    UpstreamRun cfg sess w rest (Server.elevationFailed status) w
  | challenged (c : Call) (a : Answer) (h4xx : 400 ≤ a.status ∧ a.status < 500) :
    UpstreamRun cfg sess w [⟨.post .admin c, some a⟩] (challenge a) w
  | stored (c : Call) (a : Answer) (lr : ElevateReply) (put : Stmt Unit) {w' : World d}
    (h200 : a.status = 200) (hreply : d.unmarshalElevate (a.body.take readLimit) = some lr)
    (htoken : lr.accessToken ≠ []) (hexpires : 0 < lr.expiresIn)
    (hput : Answers cfg w
      (.sessionPut (d.setTokens sess (Reference.tokensOfReply lr) w.clock)) put w') :
    UpstreamRun cfg sess w [⟨.post .admin c, some a⟩, ⟨.now, w.clock⟩,
      ⟨.sessionPut (d.setTokens sess (Reference.tokensOfReply lr) w.clock), put⟩]
      Reference.elevated w'

theorem elevateReply_exec {sess : d.Session} {c : Call} {answer : Option Answer}
    (hrun : Exec (Answers cfg) w (Server.elevateReply sess answer) rest (.ret resp) w') :
    UpstreamRun cfg sess w (⟨.post .admin c, answer⟩ :: rest) resp w' := by
  -- what fails has performed the call only
  have hfailed : (∀ a, answer = some a → ¬(400 ≤ a.status ∧ a.status < 500)) →
      UpstreamRun cfg sess w [⟨.post .admin c, answer⟩] (Server.elevationFailed 502) w := by
    intro hanswer
    refine .failed (by decide) (fun ev hev => ⟨c, answer, List.mem_singleton.mp hev⟩) ?_
    intro c' a hmem
    obtain ⟨-, hanswer'⟩ : Op.post (d := d) .admin c' = .post .admin c ∧ some a = answer := by
      simpa using hmem
    exact hanswer a hanswer'.symm
  unfold Server.elevateReply at hrun
  cases answer with
  | none =>
    obtain ⟨rfl, hresp, rfl⟩ := exec_ret_iff.mp hrun
    cases hresp
    exact hfailed (by simp)
  | some a =>
    dsimp only at hrun
    by_cases h200 : a.status = 200
    · have hother : ∀ a', some a = some a' → ¬(400 ≤ a'.status ∧ a'.status < 500) := by
        rintro a' ⟨⟩
        omega
      rw [if_neg (by simpa using h200)] at hrun
      cases hreply : d.unmarshalElevate (a.body.take readLimit) with
      | none =>
        rw [hreply] at hrun
        obtain ⟨rfl, hresp, rfl⟩ := exec_ret_iff.mp hrun
        cases hresp
        exact hfailed hother
      | some lr =>
        rw [hreply] at hrun
        dsimp only at hrun
        split at hrun
        · obtain ⟨rfl, hresp, rfl⟩ := exec_ret_iff.mp hrun
          cases hresp
          exact hfailed hother
        · rename_i htoken
          obtain ⟨htoken, hexpires⟩ := not_or.mp htoken
          obtain ⟨now, l₁, w₁, rfl, hnow, hrun₁⟩ := exec_call_iff.mp hrun
          obtain ⟨rfl, rfl⟩ : now = w.clock ∧ w₁ = w := hnow
          obtain ⟨put, l₂, w₂, rfl, hput, hrun₂⟩ := exec_call_iff.mp hrun₁
          obtain ⟨rfl, hresp, rfl⟩ := exec_ret_iff.mp hrun₂
          cases hresp
          exact .stored c a lr put h200 hreply htoken (by omega) hput
    · rw [if_pos h200] at hrun
      split at hrun
      · rename_i h4xx
        obtain ⟨rfl, hresp, rfl⟩ := exec_ret_iff.mp hrun
        cases hresp
        exact .challenged c a h4xx
      · rename_i hother
        obtain ⟨rfl, hresp, rfl⟩ := exec_ret_iff.mp hrun
        cases hresp
        refine hfailed ?_
        rintro a' ⟨⟩
        exact hother

theorem elevateUpstream_exec {sess : d.Session}
    (hrun : Exec (Answers cfg) w (srv.elevateUpstream ctx r sess) rest (.ret resp) w') :
    UpstreamRun cfg sess w rest resp w' := by
  unfold Server.elevateUpstream at hrun
  dsimp only at hrun
  split at hrun
  · obtain ⟨answer, l₁, w₁, rfl, hpost, hrun₁⟩ := exec_call_iff.mp hrun
    obtain rfl : w₁ = w := hpost
    exact elevateReply_exec hrun₁
  · obtain ⟨rfl, hresp, rfl⟩ := exec_ret_iff.mp hrun
    cases hresp
    exact .failed (by decide) (by simp) (by simp)

namespace UpstreamRun

variable {sess : d.Session}

/-- Nothing is deleted. -/
theorem not_delete (h : UpstreamRun cfg sess w rest resp w') (id : Bytes)
    (res : @Res d (.sessionDelete id)) : (⟨.sessionDelete id, res⟩ : Event (@Res d)) ∉ rest := by
  intro hmem
  cases h with
  | failed _ hrest _ =>
    obtain ⟨c, a, hev⟩ := hrest _ hmem
    cases hev
  | challenged c a _ => simp at hmem
  | stored c a lr put _ _ _ _ _ => simp at hmem

/-- A step-up sets no cookie after its checks. -/
theorem cookies_eq_nil (h : UpstreamRun cfg sess w rest resp w') : resp.cookies = [] := by
  cases h <;> rfl

/-- A 204 is the answer when the tokens of the reply were put. -/
theorem status_eq_iff (h : UpstreamRun cfg sess w rest resp w') :
    resp.status = 204 ↔ ∃ c a lr put,
      rest = [⟨.post .admin c, some a⟩, ⟨.now, w.clock⟩,
        ⟨.sessionPut (d.setTokens sess (Reference.tokensOfReply lr) w.clock), put⟩] ∧
      a.status = 200 ∧ d.unmarshalElevate (a.body.take readLimit) = some lr ∧
      lr.accessToken ≠ [] ∧ 0 < lr.expiresIn := by
  constructor
  · intro hstatus
    cases h with
    | @failed status hfailed _ _ _ =>
      have hstatus : status = 204 := hstatus
      omega
    | challenged c a h4xx =>
      have hstatus : a.status = 204 := hstatus
      omega
    | stored c a lr put h200 hreply htoken hexpires _ =>
      exact ⟨c, a, lr, put, rfl, h200, hreply, htoken, hexpires⟩
  · rintro ⟨c, a, lr, put, hrest', -⟩
    cases h with
    | failed _ hrest _ =>
      -- a failure has called the admin API only, and has not read the clock
      obtain ⟨c', a', hev⟩ := hrest ⟨.now, _⟩ (by
        rw [hrest']
        exact List.mem_cons_of_mem _ List.mem_cons_self)
      cases hev
    | challenged c a _ => simp at hrest'
    | stored c a lr put _ _ _ _ _ => rfl

/-- The answer has a body of the admin API when that is a challenge. -/
theorem copied_iff (h : UpstreamRun cfg sess w rest resp w') {b : Answer} :
    resp.body.copied = some b ↔ ∃ c a, ⟨.post .admin c, some a⟩ ∈ rest ∧
      400 ≤ a.status ∧ a.status < 500 ∧ b = { a with body := a.body.take readLimit } := by
  cases h with
  | failed _ _ hanswer =>
    refine iff_of_false (fun h => by cases h) ?_
    rintro ⟨c, a, hmem, h400, h500, -⟩
    exact hanswer c a hmem ⟨h400, h500⟩
  | challenged c a h4xx =>
    constructor
    · intro h
      exact ⟨c, a, List.mem_singleton_self _, h4xx.1, h4xx.2, (Option.some.inj h).symm⟩
    -- there is one call in the run, so it is the one that was answered
    · rintro ⟨c', a', hmem, -, -, rfl⟩
      obtain ⟨-, rfl⟩ : c' = c ∧ a' = a := by simpa using hmem
      rfl
  | stored c a lr put h200 _ _ _ _ =>
    refine iff_of_false (fun h => by cases h) ?_
    rintro ⟨c', a', hmem, h400, h500, -⟩
    obtain ⟨-, rfl⟩ : c' = c ∧ a' = a := by simpa using hmem
    omega

/-- A put that does not fail is what happens to the sessions. -/
theorem sessions_of_put (h : UpstreamRun cfg sess w rest resp w') {s : d.Session}
    (hmem : ⟨.sessionPut s, .done ()⟩ ∈ rest) : w'.sessions = w.sessions.put s := by
  cases h with
  | failed _ hrest _ =>
    obtain ⟨c, a, hev⟩ := hrest _ hmem
    cases hev
  | challenged c a _ => simp at hmem
  | stored c a lr put _ _ _ _ hput =>
    obtain ⟨rfl, hres⟩ : s = _ ∧ HEq (Stmt.done ()) put := by simpa using hmem
    obtain rfl := eq_of_heq hres
    obtain rfl : w' = _ := hput
    rfl

/-- Unless it answers 204 it leaves the store. -/
theorem sessions_eq (h : UpstreamRun cfg sess w rest resp w') (hstatus : resp.status ≠ 204) :
    w'.sessions = w.sessions := by
  cases h with
  | failed _ _ _ => rfl
  | challenged _ _ _ => rfl
  | stored _ _ _ _ _ _ _ _ _ => exact absurd rfl hstatus

end UpstreamRun

/-! ## The contract -/

/-- What a step-up leaves that made its checks, with the outcome `out`, in the events `pre`, and
went on from the state `w₁` with the events `rest`. -/
structure ElevateContract (srv : Server d) (ctx : Attribution) (r : Request) (w : World d)
    (pre : List (Event (@Res d))) (out : Checked d) (w₁ : World d) (rest : List (Event (@Res d)))
    (resp : Response) (w' : World d) : Prop where
  checks : Exec (Answers srv.cfg) w (srv.elevateChecks ctx r) pre (.ret out) w₁
  /-- The admin API is called after all checks only. -/
  called : ∀ c a, ⟨.post .admin c, a⟩ ∈ pre ++ rest →
    ∃ sess fresh, out = .freshened sess (.fresh fresh) ∧ AllPassed srv ctx r pre sess fresh
  /-- A 204 means that the session was put with the tokens of the reply. -/
  replaced : resp.status = 204 ↔ ∃ sess fresh c a lr put,
    out = .freshened sess (.fresh fresh) ∧
    rest = [⟨.post .admin c, some a⟩, ⟨.now, w₁.clock⟩,
      ⟨.sessionPut (d.setTokens fresh (Reference.tokensOfReply lr) w₁.clock), put⟩] ∧
    a.status = 200 ∧ d.unmarshalElevate (a.body.take readLimit) = some lr ∧
    lr.accessToken ≠ [] ∧ 0 < lr.expiresIn ∧
    d.accessToken (d.setTokens fresh (Reference.tokensOfReply lr) w₁.clock) = lr.accessToken
  /-- The body of the admin API's answer is copied when it is a 4xx. -/
  copied : ∀ b, resp.body.copied = some b ↔ ∃ c a, ⟨.post .admin c, some a⟩ ∈ pre ++ rest ∧
    400 ≤ a.status ∧ a.status < 500 ∧ b = { a with body := a.body.take readLimit }
  /-- The session is deleted, and the cookie cleared, when its refresh was rejected. -/
  deleted : ∀ id, (∃ res, ⟨.sessionDelete id, res⟩ ∈ rest) ↔
    ∃ sess, out = .freshened sess .fatal ∧ id = d.id sess
  cleared : SetCookie.clearSession ∈ resp.cookies ↔ ∃ sess, out = .freshened sess .fatal
  /-- What the store does with a put and with a delete that do not fail. -/
  stored : ∀ sess, ⟨.sessionPut sess, .done ()⟩ ∈ rest → w'.sessions = w₁.sessions.put sess
  gone : ∀ id, ⟨.sessionDelete id, .done ()⟩ ∈ rest → w'.sessions.find id = none
  /-- In every other case the sessions are as `EnsureFresh` left them. -/
  kept : resp.status ≠ 204 → (∀ sess, out ≠ .freshened sess .fatal) → w'.sessions = w₁.sessions
  /-- The checks before `EnsureFresh` leave every session its tokens. -/
  before : (∀ sess f, out ≠ .freshened sess f) → ∀ id,
    (w₁.sessions.find id).map tokensOf = (w.sessions.find id).map tokensOf

/-- An end that performs nothing, after checks that were no success and no rejected refresh. -/
theorem elevateContract_of_refused (hd : d.Lawful) (hgw : srv.gateway.Lawful) {out : Checked d}
    (hchecks : Exec (Answers srv.cfg) w (srv.elevateChecks ctx r) pre (.ret out) w₁)
    (hfresh : ∀ sess fresh, out ≠ .freshened sess (.fresh fresh))
    (hfatal : ∀ sess, out ≠ .freshened sess .fatal) (hstatus : resp.status ≠ 204)
    (hbody : resp.body.copied = none) (hcookies : resp.cookies = []) :
    ElevateContract srv ctx r w pre out w₁ [] resp w₁ where
  checks := hchecks
  called c a hmem := by
    rw [List.append_nil] at hmem
    exact absurd hmem ((elevateChecks_exec hchecks).not_post hgw c a)
  -- each of the other exits needs an outcome of the checks that is excluded
  replaced := by
    refine iff_of_false hstatus ?_
    rintro ⟨sess, fresh, c, a, lr, put, hout, -⟩
    exact hfresh sess fresh hout
  copied b := by
    refine iff_of_false (by simp [hbody]) ?_
    rintro ⟨c, a, hmem, -⟩
    rw [List.append_nil] at hmem
    exact (elevateChecks_exec hchecks).not_post hgw c _ hmem
  deleted id := by
    refine iff_of_false (by simp) ?_
    rintro ⟨sess, hout, -⟩
    exact hfatal sess hout
  cleared := by
    refine iff_of_false (by simp [hcookies]) ?_
    rintro ⟨sess, hout⟩
    exact hfatal sess hout
  stored sess hmem := by cases hmem
  gone id hmem := by cases hmem
  kept _ _ := rfl
  before hout := (elevateChecks_exec hchecks).tokens hd hout

/-- A rejected refresh deletes the session. -/
theorem elevateContract_of_fatal (hd : d.Lawful) (hgw : srv.gateway.Lawful) {sess : d.Session}
    (hchecks : Exec (Answers srv.cfg) w (srv.elevateChecks ctx r) pre
      (.ret (.freshened sess .fatal)) w₁)
    (hend : Exec (Answers srv.cfg) w₁ (srv.elevateEnd ctx r (.freshened sess .fatal)) rest
      (.ret resp) w') :
    ElevateContract srv ctx r w pre (.freshened sess .fatal) w₁ rest resp w' := by
  have hpost := (elevateChecks_exec hchecks).not_post hgw
  obtain ⟨res, l₁, w₂, rfl, hdelete, hend₁⟩ := exec_call_iff.mp hend
  obtain ⟨rfl, hresp, rfl⟩ := exec_ret_iff.mp hend₁
  cases hresp
  exact {
    checks := hchecks
    called := fun c a hmem => absurd hmem (by simp [hpost c a])
    replaced := iff_of_false (by decide) (by simp)
    copied := fun b => iff_of_false (by exact fun h => by cases h) (by
      rintro ⟨c, a, hmem, -⟩
      simp [hpost c] at hmem)
    -- the delete is the one operation of this end
    deleted := fun id => by
      constructor
      · rintro ⟨res', hmem⟩
        obtain ⟨hid, -⟩ : id = d.id sess ∧ HEq res' res := by simpa using hmem
        exact ⟨sess, rfl, hid⟩
      · rintro ⟨sess', hout, rfl⟩
        cases hout
        exact ⟨res, List.mem_cons_self⟩
    cleared := iff_of_true (List.mem_append_right _ List.mem_cons_self) ⟨sess, rfl⟩
    stored := fun s hmem => by simp at hmem
    gone := fun id hmem => by
      obtain ⟨rfl, hres⟩ : id = d.id sess ∧ HEq (Stmt.done ()) res := by simpa using hmem
      obtain rfl := eq_of_heq hres
      obtain rfl : w' = _ := hdelete
      exact SessionStore.find_delete_self ..
    kept := fun _ hout => absurd rfl (hout sess)
    before := (elevateChecks_exec hchecks).tokens hd }

/-- The call of the admin API, after checks that all passed. -/
theorem elevateContract_of_upstream (hd : d.Lawful) (hgw : srv.gateway.Lawful)
    {sess fresh : d.Session}
    (hchecks : Exec (Answers srv.cfg) w (srv.elevateChecks ctx r) pre
      (.ret (.freshened sess (.fresh fresh))) w₁)
    (hend : UpstreamRun srv.cfg fresh w₁ rest resp w') :
    ElevateContract srv ctx r w pre (.freshened sess (.fresh fresh)) w₁ rest resp w' where
  checks := hchecks
  called _ _ _ := ⟨sess, fresh, rfl, (elevateChecks_exec hchecks).allPassed⟩
  replaced := by
    refine hend.status_eq_iff.trans ⟨?_, ?_⟩
    · rintro ⟨c, a, lr, put, hrest, h200, hreply, htoken, hexpires⟩
      exact ⟨sess, fresh, c, a, lr, put, rfl, hrest, h200, hreply, htoken, hexpires,
        hd.accessToken_setTokens _ _ _⟩
    · rintro ⟨_, _, c, a, lr, put, ⟨⟩, hrest, h200, hreply, htoken, hexpires, -⟩
      exact ⟨c, a, lr, put, hrest, h200, hreply, htoken, hexpires⟩
  copied b := by
    -- the checks have not called the admin API
    refine hend.copied_iff.trans (exists_congr fun c => exists_congr fun a => and_congr_left' ?_)
    rw [List.mem_append, or_iff_right ((elevateChecks_exec hchecks).not_post hgw c (some a))]
  deleted id := by
    refine iff_of_false ?_ (by simp)
    rintro ⟨res, hmem⟩
    exact hend.not_delete id res hmem
  cleared := iff_of_false (by simp [hend.cookies_eq_nil]) (by simp)
  stored _ hmem := hend.sessions_of_put hmem
  gone id hmem := absurd hmem (hend.not_delete id _)
  kept hstatus _ := hend.sessions_eq hstatus
  before hout := absurd rfl (hout _ _)

/-- Every run of a step-up keeps the contract. -/
theorem elevate_contract (hd : d.Lawful) (hgw : srv.gateway.Lawful)
    (hr : dispatch srv.cfg r = .handler .elevate)
    (hrun : Exec (Answers srv.cfg) w (srv.handler r) l (.ret resp) w') :
    ∃ pre out w₁ rest, l = pre ++ rest ∧
      ElevateContract srv (Server.attribution d r) r w pre out w₁ rest resp w' := by
  rw [Server.handler_of_dispatch hr] at hrun
  have hrun : Exec (Answers srv.cfg) w (srv.handleElevate (Server.attribution d r) r) l (.ret resp)
    w' := hrun
  rw [Server.handleElevate_eq] at hrun
  obtain ⟨out, pre, rest, w₁, rfl, hchecks, hend⟩ := exec_bind_iff.mp hrun
  refine ⟨pre, out, w₁, rest, rfl, ?_⟩
  -- one case for each way the checks end, the call upstream coming after the last of them only
  match out, hchecks, hend with
  | .freshened sess (.fresh fresh), hchecks, hend =>
    exact elevateContract_of_upstream hd hgw hchecks (elevateUpstream_exec hend)
  | .freshened sess .fatal, hchecks, hend => exact elevateContract_of_fatal hd hgw hchecks hend
  | .freshened sess .transient, hchecks, hend =>
    obtain ⟨rfl, hresp, rfl⟩ := exec_ret_iff.mp hend
    cases hresp
    exact elevateContract_of_refused hd hgw hchecks (by simp) (by simp) (by decide) rfl rfl
  | .limited retry, hchecks, hend =>
    obtain ⟨rfl, hresp, rfl⟩ := exec_ret_iff.mp hend
    cases hresp
    have hstatus : (Server.tooManyRequests retry).status = 429 := rfl
    exact elevateContract_of_refused hd hgw hchecks (by simp) (by simp) (by simp [hstatus]) rfl rfl
  | .signedOut, hchecks, hend =>
    obtain ⟨rfl, hresp, rfl⟩ := exec_ret_iff.mp hend
    cases hresp
    exact elevateContract_of_refused hd hgw hchecks (by simp) (by simp) (by decide) rfl rfl
  | .forged, hchecks, hend =>
    obtain ⟨rfl, hresp, rfl⟩ := exec_ret_iff.mp hend
    cases hresp
    exact elevateContract_of_refused hd hgw hchecks (by simp) (by simp) (by decide) rfl rfl

namespace Reference

/-- A step-up that succeeds. -/
theorem elevate_contract_kept : ∃ l w',
    Exec (Answers server.cfg) world (server.handler elevateRequest) l (.ret elevated) w' ∧
    ∃ pre out w₁ rest, l = pre ++ rest ∧ ElevateContract server
      (Server.attribution deps elevateRequest) elevateRequest world pre out w₁ rest elevated
      w' := by
  obtain ⟨rl, hrun⟩ := elevateRequest_run
  exact ⟨_, _, hrun, elevate_contract lawful gateway_lawful dispatch_elevateRequest hrun⟩

end Reference

end Bff

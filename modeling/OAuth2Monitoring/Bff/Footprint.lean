import OAuth2Monitoring.Bff.Server

/-!
# What each endpoint touches

The operations an endpoint's handler may perform, whatever it is answered. The budgets are charged
to the caller's own address, only the step-up handler posts to the admin API, and only the proxies
proxy. The runs of the session lookup are listed in `LookupRun`.
-/

namespace Bff

open GoStd Interleaving Interleaving.Prog

/-- The operations of the session lookup, and of the gateway with its refresher. -/
def LookupOp {d : Deps} : Op d → Prop
  | .sessionGet _ | .sessionPut _ | .now => True
  | _ => False

/-- The operations of the gateway with its refresher. -/
def RefreshingOp {d : Deps} (op : Op d) : Prop := GatewayOp op ∨ ∃ c, op = .post .issuer c

/-- The operations of an endpoint's handler on the request `r`. -/
def Endpoint.Footprint (d : Deps) (r : Request) : Endpoint → Op d → Prop
  | .health => fun _ => False
  | .proxyWithSession => fun op => RefreshingOp op ∨ ∃ out, op = .proxy .admin out
  | .proxy => fun op => ∃ out, op = .proxy .admin out
  | .login => fun
    | .allow b key => b = .login ∧ key = clientIP d r
    | .randomToken _ | .now | .pendingPut _ _ => True
    | _ => False
  | .callback => fun
    | .pendingTake state => state = (parseQuery r.url.rawQuery).get (ascii "state")
    | .post up _ => up = .issuer
    | .now | .randomToken _ | .sessionPut _ => True
    | _ => False
  | .session => LookupOp
  | .logout => fun
    | .post up _ => up = .issuer
    | .sessionErrors | .sessionDelete _ => True
    | op => LookupOp op
  | .elevate => fun
    | .allow b key => b = .elevate ∧ key = clientIP d r
    | .post _ _ => True
    | op => GatewayOp op
  | .version => fun op => ∃ out, op = .proxy .issuer out

section

variable {d : Deps} {srv : Server d} {ctx : Attribution} {r : Request} {A : Op d → Prop}

/-- Only the login handler stores pending logins. -/
theorem Endpoint.eq_login_of_pendingPut {e : Endpoint} {state : Bytes} {login : PendingLogin}
    (h : e.Footprint d r (.pendingPut state login)) : e = .login := by
  cases e <;> first | rfl | simp [Footprint, LookupOp, RefreshingOp, GatewayOp] at h

/-- Only the callback handler takes them. -/
theorem Endpoint.eq_callback_of_pendingTake {e : Endpoint} {state : Bytes}
    (h : e.Footprint d r (.pendingTake state)) : e = .callback := by
  cases e <;> first | rfl | simp [Footprint, LookupOp, RefreshingOp, GatewayOp] at h

/-- A proxy forwards the request, or does nothing. -/
theorem serveProxy_uses {up : Upstream} {p : ReverseProxy} (hA : ∀ out, A (.proxy up out)) :
    (serveProxy up p r).Uses A := by
  unfold serveProxy
  split
  · trivial
  · exact ⟨hA _, fun a => by cases a <;> trivial⟩

namespace Server

/-- The lookup makes a `Get`, asks for the time and puts. -/
theorem currentSession_uses (hA : ∀ op, LookupOp op → A op) :
    (currentSession r).Uses A := by
  refine Uses.bind ?_ fun sess => ?_
  · unfold sessionFromRequest
    split
    · trivial
    · exact ⟨hA _ trivial, fun _ => trivial⟩
  · cases sess with
    | none => trivial
    | some sess => exact ⟨hA _ trivial, fun _ => ⟨hA _ trivial, fun _ => trivial⟩⟩

/-- The limiter is asked once, and its answer decides. -/
theorem rateLimited_sat {b : Budget} {past : List (Event (@Res d))}
    {Φ : List (Event (@Res d)) → Op d → Prop} (hΦ : Φ past (.allow b (clientIP d r))) :
    (rateLimited d b r).Sat Φ
      (fun past' limited => ∃ a, past' = ⟨.allow b (clientIP d r), a⟩ :: past ∧
        limited = Option.map tooManyRequests a) past := by
  refine ⟨hΦ, fun a => ?_⟩
  cases a with
  | none => exact ⟨none, rfl, rfl⟩
  | some retry => exact ⟨some retry, rfl, rfl⟩

/-- The budget is asked once. -/
theorem rateLimited_uses {b : Budget} (hA : A (.allow b (clientIP d r))) :
    (rateLimited d b r).Uses A :=
  ⟨hA, fun a => by cases a <;> trivial⟩

theorem handleLogin_uses : (srv.handleLogin r).Uses (Endpoint.login.Footprint d r) := by
  refine (rateLimited_uses ⟨rfl, rfl⟩).bind fun limited => ?_
  cases limited with
  | some resp => trivial
  | none => exact ⟨trivial, fun _ => ⟨trivial, fun _ => ⟨trivial, fun _ => ⟨trivial, fun _ =>
      ⟨trivial, fun _ => trivial⟩⟩⟩⟩⟩

theorem openSession_uses {ls : PendingLogin} {tr : TokenResponse} :
    (srv.openSession r ls tr).Uses (Endpoint.callback.Footprint d r) :=
  ⟨trivial, fun _ => ⟨trivial, fun _ => ⟨trivial, fun _ => ⟨trivial, fun _ => trivial⟩⟩⟩⟩

theorem handleCallback_uses :
    (srv.handleCallback ctx r).Uses (Endpoint.callback.Footprint d r) := by
  unfold handleCallback
  dsimp only
  split
  · trivial
  -- the first operation takes the pending login, and the others follow if there was one
  · refine ⟨rfl, fun taken => ?_⟩
    cases taken with
    | none => trivial
    | some ls =>
      dsimp only [Prog.bind]
      split
      · trivial
      · split
        · trivial
        · refine (token_uses (fun _ => rfl) _).bind fun tr => ?_
          cases tr with
          | error e => trivial
          | ok tr => exact openSession_uses

theorem handleSession_uses :
    (handleSession r).Uses (Endpoint.session.Footprint d r) := by
  refine ((currentSession_uses fun _ h => h).bind fun sess => ?_).bind fun _ => trivial
  cases sess <;> trivial

/-- The tokens are revoked at the issuer. -/
theorem revokeSessionTokens_uses {sess : d.Session} (hA : ∀ c, A (.post .issuer c)) :
    (srv.revokeSessionTokens ctx sess).Uses A :=
  (revoke_uses hA _ _).bind fun _ => (revoke_uses hA _ _).bind fun _ => trivial

theorem handleLogout_uses :
    (srv.handleLogout ctx r).Uses (Endpoint.logout.Footprint d r) := by
  refine (currentSession_uses fun op h => ?_).bind fun sess => ?_
  · cases op <;> first | exact h | exact h.elim
  · cases sess with
    | none => trivial
    | some sess =>
      dsimp only
      split
      · trivial
      -- the tokens are revoked, then the session is deleted, whatever came of it
      · refine (revokeSessionTokens_uses fun _ => rfl).bind fun _ => ?_
        have hdelete : (deleteSession (d.id sess)).Uses
            (Endpoint.logout.Footprint d r) :=
          ⟨trivial, fun _ => ⟨trivial, fun _ => ⟨trivial, fun _ => trivial⟩⟩⟩
        refine hdelete.bind fun done => ?_
        cases done <;> trivial

/-- The end of a step-up asks for the time and puts. -/
theorem elevateReply_uses {sess : d.Session} {a : Option Answer} (hnow : A .now)
    (hput : ∀ s, A (.sessionPut s)) : (elevateReply sess a).Uses A := by
  cases a with
  | none => trivial
  | some resp =>
    unfold elevateReply
    dsimp only
    split
    -- the session is put on the one path where the reply has a token
    · split <;> trivial
    · split
      · trivial
      · split
        · trivial
        · exact ⟨hnow, fun _ => ⟨hput _, fun _ => trivial⟩⟩

/-- Before it the admin API is called. -/
theorem elevateUpstream_uses {sess : d.Session}
    (hpost : A (.post .admin (srv.elevateCall ctx r sess)))
    (hnow : A .now) (hput : ∀ s, A (.sessionPut s)) :
    (srv.elevateUpstream ctx r sess).Uses A := by
  unfold elevateUpstream
  dsimp only
  split
  · exact ⟨hpost, fun a => elevateReply_uses hnow hput⟩
  · trivial

theorem handleElevate_uses (hgw : srv.gateway.Lawful) :
    (srv.handleElevate ctx r).Uses (Endpoint.elevate.Footprint d r) := by
  have hgateway : ∀ op : Op d, GatewayOp op → Endpoint.elevate.Footprint d r op := by
    intro op h
    cases op <;> first | exact h | exact h.elim
  refine (rateLimited_uses ⟨rfl, rfl⟩).bind fun limited => ?_
  -- each check that refuses ends the handler without another operation
  cases limited with
  | some resp => trivial
  | none =>
    refine (currentSession_uses fun op h => ?_).bind fun sess => ?_
    · cases op <;> first | exact h | exact h.elim
    · cases sess with
      | none => trivial
      | some sess =>
        dsimp only
        split
        · trivial
        · refine (hgw.ensureFresh_uses _ _ _ hgateway
            (tokenRefresherAdapter_uses fun _ => trivial)).bind fun fresh => ?_
          cases fresh with
          | fresh sess => exact elevateUpstream_uses trivial trivial fun _ => trivial
          | fatal => exact ⟨trivial, fun _ => trivial⟩
          | transient => trivial

/-- The gateway looks up and refreshes. -/
theorem authorize_uses (hgw : srv.gateway.Lawful) (hA : ∀ op, RefreshingOp op → A op) :
    (srv.gateway.authorize srv.cfg.allowPassthrough (tokenRefresherAdapter srv.cfg ctx) r).Uses A :=
  hgw.authorize_uses _ _ _ _ (fun op h => hA op (.inl h))
    (tokenRefresherAdapter_uses fun c => hA _ (.inr ⟨c, rfl⟩))

theorem proxyWithSession_uses (hgw : srv.gateway.Lawful) :
    (srv.proxyWithSession ctx r).Uses (Endpoint.proxyWithSession.Footprint d r) := by
  refine (authorize_uses hgw fun _ h => .inl h).bind fun verdict => ?_
  cases verdict with
  | refuse resp => trivial
  | forward r' => exact serveProxy_uses fun out => .inr ⟨out, rfl⟩

/-- A handler performs the operations of its endpoint only. -/
theorem serve_uses (hgw : srv.gateway.Lawful) (e : Endpoint) :
    (srv.serve ctx r e).Uses (e.Footprint d r) := by
  cases e with
  | health => trivial
  | proxyWithSession => exact proxyWithSession_uses hgw
  | proxy => exact serveProxy_uses fun out => ⟨out, rfl⟩
  | login => exact handleLogin_uses
  | callback => exact handleCallback_uses
  | session => exact handleSession_uses
  | logout => exact handleLogout_uses
  | elevate => exact handleElevate_uses hgw
  | version =>
    simp only [serve]
    cases srv.cfg.oauthURL with
    | none => trivial
    | some base => exact serveProxy_uses fun out => ⟨out, rfl⟩

end Server

end

/-! ## Runs of the session lookup -/

section Lookup

variable {d : Deps} {cfg : Config} {r : Request} {w w' : World d} {l : List (Event (@Res d))}

/-- All runs of the session lookup: there is no cookie, or the `Get` fails, or it finds no row, or
the row's idle window is slid and the `Put` of it works or not. -/
inductive LookupRun (cfg : Config) (r : Request) (w : World d) :
    List (Event (@Res d)) → Option d.Session → World d → Prop
  | noCookie (hcookie : d.sessionCookie r = none) : LookupRun cfg r w [] none w
  | unread {id : Bytes} (hcookie : d.sessionCookie r = some id) :
    LookupRun cfg r w [⟨.sessionGet id, .failed⟩] none w.countError
  | noRow {id : Bytes} (hcookie : d.sessionCookie r = some id) (hget : w.get cfg id = none) :
    LookupRun cfg r w [⟨.sessionGet id, .done none⟩] none w
  | slid {id : Bytes} {sess : d.Session} {put : Stmt Unit} {w' : World d}
    (hcookie : d.sessionCookie r = some id) (hget : w.get cfg id = some sess)
    (hput : Answers cfg w (.sessionPut (d.touch sess w.clock)) put w') :
    LookupRun cfg r w
      [⟨.sessionGet id, .done (some sess)⟩, ⟨.now, w.clock⟩,
        ⟨.sessionPut (d.touch sess w.clock), put⟩]
      (some (d.touch sess w.clock)) w'

/-- An undisturbed lookup runs in one of these ways. -/
theorem lookupRun_of_exec {found : Option d.Session}
    (hrun : Exec (Answers cfg) w (Server.currentSession r) l (.ret found) w') :
    LookupRun cfg r w l found w' := by
  unfold Server.currentSession Server.sessionFromRequest at hrun
  cases hcookie : d.sessionCookie r with
  | none =>
    rw [hcookie] at hrun
    obtain ⟨rfl, hfound, rfl⟩ := exec_ret_iff.mp hrun
    cases hfound
    exact .noCookie hcookie
  | some id =>
    rw [hcookie] at hrun
    obtain ⟨st, l₁, w₁, rfl, hget, hrun₁⟩ := exec_call_iff.mp hrun
    rcases st with (_ | sess) | _
    · obtain ⟨rfl, hfound, rfl⟩ := exec_ret_iff.mp hrun₁
      cases hfound
      obtain ⟨hres, rfl⟩ := hget
      exact .noRow hcookie hres.symm
    · obtain ⟨hres, rfl⟩ := hget
      -- the lookup goes on from the state it has read
      obtain ⟨now, l₂, w₂, rfl, hnow, hrun₂⟩ := exec_call_iff.mp hrun₁
      obtain ⟨rfl, rfl⟩ : now = w₁.clock ∧ w₂ = w₁ := hnow
      obtain ⟨put, l₃, w₃, rfl, hput, hrun₃⟩ := exec_call_iff.mp hrun₂
      obtain ⟨rfl, hfound, rfl⟩ := exec_ret_iff.mp hrun₃
      cases hfound
      exact .slid hcookie hres.symm hput
    · obtain ⟨rfl, hfound, rfl⟩ := exec_ret_iff.mp hrun₁
      cases hfound
      obtain rfl : w' = w.countError := hget
      exact .unread hcookie

end Lookup

end Bff

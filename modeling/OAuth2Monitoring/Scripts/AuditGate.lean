import OAuth2Monitoring.Scripts.Jq
import Mathlib.Data.List.Range

/-!
# The dependency-advisory gate

`npm-audit-gate.sh` asks the advisory service a few times, takes the first usable report and decides
from the counts in it. It means to fail when it has no data, and does where no report comes. But the
counts themselves are not looked at: what `[` cannot read as an integer counts as no advisory.

## Main definitions

* `npmAuditGate`: the script.
* `Substantiated`: the report counts every severity, and there is nothing to count.
* `Decisive`: the report is substantiated, or counts at least one advisory.

## Main results

* `status_npmAuditGate`: what the exit status is, from the first usable report.
* `npmAuditGate_iff`: a pass is always substantiated exactly when the first usable report is
  decisive.
-/

namespace Scripts

open GoStd

/-! ## The script -/

/-- The severities that fail the build, for the level. -/
def severities (level : Bytes) : Option (List String) :=
  if level = ascii "critical" then some ["critical"]
  else if level = ascii "high" then some ["critical", "high"]
  else if level = ascii "moderate" then some ["critical", "high", "moderate"]
  else if level = ascii "low" then some ["critical", "high", "moderate", "low"]
  else none

/-- The way to the counts of a report. -/
def countsPath : List String := ["metadata", "vulnerabilities"]

section Report

variable (jq : Jq) (names : List String) (report : Bytes)

/-- What the report has as its counts: one value, in a report of one. -/
def countsOf : List Json := (jq.read report).1.filterMap (Json.pick countsPath)

/-- `$counts`. -/
def counts : Bytes := Jq.output jq.print (countsOf jq report)

/-- Did jq accept the report? -/
def accepted : Bool :=
  jq.succeeds ((jq.read report).1.map (Json.pick countsPath)) (jq.read report).2

/-- Does the loop go on to decide from this report? -/
def usable : Bool :=
  accepted jq report && counts jq report ≠ [] && counts jq report ≠ ascii "null"

/-- `$failing`. -/
def failing : Bytes :=
  Jq.output jq.pretty ((jq.read (counts jq report)).1.filterMap (jq.sumOf names))

/-- What a run comes to: the exit status, and the reports that were asked for. -/
structure Outcome where
  status : ℕ
  reports : List Bytes

/-- The loop over the attempts; `npmAudit n` is the report that attempt `n` gets. -/
def auditLoop (npmAudit : ℕ → Bytes) : List ℕ → Outcome
  | [] => { status := 1, reports := [] }
  | attempt :: attempts =>
    let report := npmAudit attempt
    if usable jq report then
      { status := if testPositive (failing jq names report) = 0 then 1 else 0, reports := [report] }
    else
      let rest := auditLoop npmAudit attempts
      { rest with reports := report :: rest.reports }

end Report

/-- `seq 1 n`. -/
def seq (n : ℕ) : List ℕ := List.range' 1 n

/-- `npm-audit-gate.sh`, where `jq` may be missing. -/
def npmAuditGate (jq : Option Jq) (auditLevel : Option Bytes) (auditAttempts : Option ℕ)
    (npmAudit : ℕ → Bytes) : Outcome :=
  match jq, severities (orWord auditLevel (ascii "high")) with
  | some jq, some names => auditLoop jq names npmAudit (seq (auditAttempts.getD 4))
  | _, _ => { status := 1, reports := [] }

/-! ## What a pass should mean -/

section Meaning

variable (jq : Jq) (names : List String) (report : Bytes)

/-- The counts are numbers, which jq adds up to 0. -/
def SumsToZero (v : Json) : Prop :=
  ∃ n ns, names.mapM (fun name => (v.index name).bind Json.number?) = some (n :: ns) ∧
    (ns.foldl jq.add n).isZero = true

/-- The report is a JSON value in which every severity is counted, and the counts sum to 0. -/
def Substantiated : Prop :=
  ∃ v w, jq.read report = ([v], true) ∧ v.pick countsPath = some w ∧ SumsToZero jq names w

/-- The counts of the report add up to a positive integer, and to nothing else. -/
def CountsSome : Prop :=
  ∃ n z, (countsOf jq report).filterMap (jq.sumOf names) = [.num n] ∧
    integer n.printed = some z ∧ 0 < z

/-- The report says whether there are advisories. -/
def Decisive : Prop := Substantiated jq names report ∨ CountsSome jq names report

/-- A pass of the gate is substantiated by one of the reports it asked for. -/
def PassSubstantiated (auditLevel : Option Bytes) (auditAttempts : Option ℕ)
    (npmAudit : ℕ → Bytes) : Prop :=
  (npmAuditGate (some jq) auditLevel auditAttempts npmAudit).status = 0 →
    ∃ names, severities (orWord auditLevel (ascii "high")) = some names ∧
      ∃ report ∈ (npmAuditGate (some jq) auditLevel auditAttempts npmAudit).reports,
        Substantiated jq names report

end Meaning

/-! ## One report -/

section Lemmas

variable {jq : Jq} {names : List String} {report : Bytes}

/-- The test succeeds where the report counts at least one advisory. -/
theorem testPositive_failing (hjq : jq.Lawful) :
    testPositive (failing jq names report) = 0 ↔ CountsSome jq names report := by
  rw [failing, counts, countsOf, hjq.read_output, hjq.testPositive_output]
  rfl

/-- A value that has a number under some name is an object. -/
theorem SumsToZero.eq_obj {v : Json} (h : SumsToZero jq names v) : ∃ fields, v = .obj fields := by
  obtain ⟨n, ns, hnumbers, -⟩ := h
  cases names with
  | nil => cases hnumbers
  | cons name names =>
    cases v with
    | obj fields => exact ⟨fields, rfl⟩
    | _ => cases hnumbers

/-- What is substantiated is usable. -/
theorem Substantiated.usable (hjq : jq.Lawful) (h : Substantiated jq names report) :
    usable jq report = true := by
  obtain ⟨v, w, hread, hpick, hzero⟩ := h
  obtain ⟨fields, rfl⟩ := hzero.eq_obj
  obtain ⟨rest, hprint⟩ := hjq.print_obj fields
  have hcounts : counts jq report = 123 :: rest := by
    simp [counts, countsOf, hread, hpick, Jq.output, captured, hprint]
  have haccepted : accepted jq report = true := by
    simp [accepted, hread, hpick, hjq.succeeds_of_single]
  -- what starts with a brace is neither empty nor `null`
  have hnull : (123 : UInt8) :: rest ≠ ascii "null" := fun h =>
    absurd (List.cons.inj h).1 (by decide)
  simp [Scripts.usable, haccepted, hcounts, hnull]

/-- In a report that is one value, what is counted is some numbers, which sum to a positive integer.
Some counts may be missing, but what is there must be numbers. -/
theorem countsSome_iff (hjq : jq.Lawful) {v w : Json} (hread : jq.read report = ([v], true))
    (hpick : v.pick countsPath = some w) :
    CountsSome jq names report ↔
      ∃ n z, (w.countsAt names).bind jq.total = some n ∧ integer n.printed = some z ∧ 0 < z := by
  have hcounts : countsOf jq report = [w] := by simp [countsOf, hread, hpick]
  unfold CountsSome
  rw [hcounts]
  refine exists_congr fun n => exists_congr fun z => and_congr_left fun _ => ?_
  rw [← hjq.sumOf_eq_num_iff]
  cases hsum : jq.sumOf names w <;> simp [hsum]

/-- Numbers that sum to 0 are not counted as advisories. -/
theorem Substantiated.not_countsSome (hjq : jq.Lawful) (h : Substantiated jq names report) :
    ¬CountsSome jq names report := by
  obtain ⟨v, w, hread, hpick, n, ns, hnumbers, hzero⟩ := h
  rw [countsSome_iff hjq hread hpick, Json.countsAt_of_numbers hnumbers]
  rintro ⟨m, z, ⟨⟩, hz, hpos⟩
  -- what is 0 is no positive integer
  have hz0 := Number.eq_zero_of_integer hz hzero
  omega

/-! ## The loop -/

/-- The loop decides from the first usable report, and fails where there is none. -/
theorem status_auditLoop (hjq : jq.Lawful) (npmAudit : ℕ → Bytes) (attempts : List ℕ) :
    (auditLoop jq names npmAudit attempts).status = 0 ↔
      ∃ report, (attempts.map npmAudit).find? (usable jq) = some report ∧
        ¬CountsSome jq names report := by
  induction attempts with
  | nil => simp [auditLoop]
  | cons attempt attempts ih =>
    rw [auditLoop, List.map_cons, List.find?_cons]
    dsimp only
    -- the loop ends at a usable report and goes on otherwise
    cases husable : usable jq (npmAudit attempt) with
    | true =>
      rw [if_pos rfl]
      simp [testPositive_failing hjq]
    | false =>
      rw [if_neg Bool.false_ne_true]
      exact ih

/-- A usable report is the last one that is asked for. -/
theorem usable_reports (npmAudit : ℕ → Bytes) (attempts : List ℕ) :
    (auditLoop jq names npmAudit attempts).reports.filter (usable jq) =
      ((attempts.map npmAudit).find? (usable jq)).toList := by
  induction attempts with
  | nil => rfl
  | cons attempt attempts ih =>
    rw [auditLoop, List.map_cons, List.find?_cons]
    dsimp only
    cases husable : usable jq (npmAudit attempt) with
    | true =>
      rw [if_pos rfl]
      simp [husable]
    | false =>
      -- a report that is not usable was asked for, but does not count
      rw [if_neg Bool.false_ne_true, List.filter_cons_of_neg (by simp [husable])]
      exact ih

/-! ## The gate -/

/-- With a known level the gate is the loop over its attempts. -/
theorem npmAuditGate_eq {auditLevel : Option Bytes} {names : List String}
    (hnames : severities (orWord auditLevel (ascii "high")) = some names)
    (auditAttempts : Option ℕ) (npmAudit : ℕ → Bytes) :
    npmAuditGate (some jq) auditLevel auditAttempts npmAudit =
      auditLoop jq names npmAudit (seq (auditAttempts.getD 4)) := by
  simp [npmAuditGate, hnames]

/-- What the exit status is: 0 where the first usable report counts no advisory, for whatever
reason. -/
theorem status_npmAuditGate (hjq : jq.Lawful) (auditLevel : Option Bytes)
    (auditAttempts : Option ℕ) (npmAudit : ℕ → Bytes) :
    (npmAuditGate (some jq) auditLevel auditAttempts npmAudit).status = 0 ↔
      ∃ names, severities (orWord auditLevel (ascii "high")) = some names ∧
        ∃ report, ((seq (auditAttempts.getD 4)).map npmAudit).find? (usable jq) = some report ∧
          ¬CountsSome jq names report := by
  unfold npmAuditGate
  cases severities (orWord auditLevel (ascii "high")) with
  | some names => simp [status_auditLoop hjq]
  | none => simp

/-- A pass is substantiated exactly when the first usable report, if there is one, is decisive. -/
theorem npmAuditGate_iff (hjq : jq.Lawful) (auditLevel : Option Bytes) (auditAttempts : Option ℕ)
    (npmAudit : ℕ → Bytes) :
    PassSubstantiated jq auditLevel auditAttempts npmAudit ↔
      ∀ names, severities (orWord auditLevel (ascii "high")) = some names →
        ∀ report, ((seq (auditAttempts.getD 4)).map npmAudit).find? (usable jq) = some report →
          Decisive jq names report := by
  unfold PassSubstantiated
  constructor
  · intro hpass names hnames report hfirst
    by_cases hsome : CountsSome jq names report
    · exact .inr hsome
    · -- the gate passes, and the report that substantiates it can only be this one
      obtain ⟨names', hnames', r, hr, hsub⟩ := hpass
        ((status_npmAuditGate hjq _ _ _).mpr ⟨names, hnames, report, hfirst, hsome⟩)
      obtain rfl : names = names' := Option.some.inj (hnames.symm.trans hnames')
      have hmem := List.mem_filter.mpr ⟨hr, hsub.usable hjq⟩
      rw [npmAuditGate_eq hnames, usable_reports, hfirst, Option.toList_some,
        List.mem_singleton] at hmem
      exact .inl (hmem ▸ hsub)
  · intro hcond hstatus
    obtain ⟨names, hnames, report, hfirst, hnot⟩ := (status_npmAuditGate hjq _ _ _).mp hstatus
    refine ⟨names, hnames, report, ?_, (hcond names hnames report hfirst).resolve_right hnot⟩
    -- the report the gate decides from is one it asked for
    rw [npmAuditGate_eq hnames]
    have hmem : report ∈ (auditLoop jq names npmAudit (seq (auditAttempts.getD 4))).reports.filter
        (usable jq) := by
      rw [usable_reports, hfirst]
      exact List.mem_singleton_self report
    exact List.mem_of_mem_filter hmem

/-- From a decisive report the gate draws the right conclusion. -/
theorem status_eq_zero_iff_of_decisive (hjq : jq.Lawful) {auditLevel : Option Bytes}
    {auditAttempts : Option ℕ} {npmAudit : ℕ → Bytes}
    (hnames : severities (orWord auditLevel (ascii "high")) = some names)
    (hfirst : ((seq (auditAttempts.getD 4)).map npmAudit).find? (usable jq) = some report)
    (hdecisive : Decisive jq names report) :
    (npmAuditGate (some jq) auditLevel auditAttempts npmAudit).status = 0 ↔
      Substantiated jq names report := by
  rw [status_npmAuditGate hjq, hnames, hfirst]
  constructor
  · rintro ⟨_, ⟨⟩, _, ⟨⟩, hnot⟩
    exact hdecisive.resolve_right hnot
  · intro hsub
    exact ⟨names, rfl, report, rfl, hsub.not_countsSome hjq⟩

end Lemmas

/-! ## Two reports -/

section Examples

/-- The number zero. -/
def zero : Number := { printed := ascii "0", ne_nil := by decide, plain := by decide }

/-- A report with these counts. -/
def reportOf (counts : Json) : Json :=
  .obj [(ascii "metadata", .obj [(ascii "vulnerabilities", counts)])]

/-- Counts without any severity, and those of a tree without advisories. -/
def noCounts : Json := .obj []

/-- Counts that are zero. -/
def quietCounts : Json := .obj [(ascii "critical", .num zero), (ascii "high", .num zero)]

/-- A jq that has been shown these two reports. -/
def sampleJq : Jq :=
  .knowing [.null, .num zero, noCounts, quietCounts,
    .obj [(ascii "vulnerabilities", noCounts)], .obj [(ascii "vulnerabilities", quietCounts)],
    reportOf noCounts, reportOf quietCounts]

theorem sampleJq_lawful : sampleJq.Lawful := by
  refine Jq.knowing_lawful List.mem_cons_self (fun v hv => ?_) fun v hv => ?_
  · simp only [List.mem_cons, List.not_mem_nil, or_false] at hv
    rcases hv with rfl | rfl | rfl | rfl | rfl | rfl | rfl | rfl <;>
      simp [Json.parts, noCounts, quietCounts, reportOf]
  · simp only [List.mem_cons, List.not_mem_nil, or_false] at hv
    rcases hv with rfl | rfl | rfl | rfl | rfl | rfl | rfl | rfl <;> rfl

/-- A report without any count passes the gate. -/
theorem not_passSubstantiated_noCounts :
    ¬PassSubstantiated sampleJq none none fun _ => (reportOf noCounts).compact := by
  intro hpass
  obtain ⟨names, hnames, report, hreport, v, w, hread, hpick, n, ns, hnumbers, -⟩ := hpass rfl
  -- there is one report, and no number in it
  obtain rfl : report = (reportOf noCounts).compact := List.mem_singleton.mp hreport
  cases hnames
  cases hread
  cases hpick
  cases hnumbers

/-- A report that counts no advisory passes, and is the reason for it. -/
theorem passSubstantiated_quietCounts :
    (npmAuditGate (some sampleJq) none none fun _ => (reportOf quietCounts).compact).status = 0 ∧
      PassSubstantiated sampleJq none none fun _ => (reportOf quietCounts).compact := by
  refine ⟨rfl, (npmAuditGate_iff sampleJq_lawful none none _).mpr ?_⟩
  intro names hnames report hfirst
  cases hnames
  cases hfirst
  exact .inl ⟨reportOf quietCounts, quietCounts, rfl, rfl, zero, [zero], rfl, rfl⟩

end Examples

end Scripts

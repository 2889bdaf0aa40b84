import OAuth2Monitoring.Console.Api

/-!
# The threat level

The console classifies the threat metrics twice: the getter of the monitor store, which the
dashboard's badge names, and the banner of the threats view.

## Main results

* `threatLevelBadge_label`: the badge names the level of the store.
* `sameLevel_iff`: the view names the level of the store unless the metrics hold neither critical
  nor error events but more than ten warnings.
-/

namespace Console

open JsStd

/-- The counts of `ThreatMetrics.summary` that a level is made of. -/
structure ThreatSummary where
  criticalEvents : ℕ
  errorEvents : ℕ
  warningEvents : ℕ

/-- `ThreatMetrics`, as far as a level depends on it. -/
structure ThreatMetrics where
  summary : ThreatSummary

/-- The values of `threatLevel`. -/
inductive ThreatLevel
  | unknown
  | low
  | medium
  | high
  | critical
  deriving DecidableEq

/-- The literal of a level. -/
def ThreatLevel.name : ThreatLevel → Text
  | unknown => text "unknown"
  | low => text "low"
  | medium => text "medium"
  | high => text "high"
  | critical => text "critical"

/-- `threatLevel` of the monitor store. -/
def threatLevel (threatMetrics : Option ThreatMetrics) : ThreatLevel :=
  match threatMetrics with
  | none => .unknown
  | some { summary } =>
    if summary.criticalEvents > 0 then .critical
    else if summary.errorEvents > 5 then .high
    else if summary.errorEvents > 0 then .medium
    else .low

/-! ## The dashboard -/

/-- A badge: its style and its text. -/
structure Badge where
  style : Text
  label : Text
  deriving DecidableEq

/-- `threatLevelBadge` of the dashboard. -/
def threatLevelBadge : ThreatLevel → Badge
  | .critical => ⟨text "status-critical", text "CRITICAL"⟩
  | .high => ⟨text "status-danger", text "HIGH"⟩
  | .medium => ⟨text "status-warning", text "MEDIUM"⟩
  | .low => ⟨text "status-secure", text "LOW"⟩
  | .unknown => ⟨text "status-info", text "UNKNOWN"⟩

/-- The badge names the level it is given. -/
theorem threatLevelBadge_label (level : ThreatLevel) :
    (threatLevelBadge level).label = upperCase level.name := by
  cases level <;> decide

/-! ## The threats view -/

/-- What the banner shows. -/
structure ThreatLevelInfo where
  level : Text
  color : Text
  description : Text

/-- `threatLevelInfo` of the threats view; `printed` is what a template literal makes of a count. -/
def threatLevelInfo (printed : ℕ → Text) (threatMetrics : Option ThreatMetrics) :
    ThreatLevelInfo :=
  match threatMetrics with
  | none => ⟨text "unknown", text "secondary", text "Loading..."⟩
  | some { summary } =>
    if summary.criticalEvents > 0 then
      ⟨text "CRITICAL", text "danger",
        printed summary.criticalEvents ++ text " critical event(s) detected"⟩
    else if summary.errorEvents > 5 then
      ⟨text "HIGH", text "warning",
        printed summary.errorEvents ++ text " error events in the period"⟩
    else if summary.errorEvents > 0 ∨ summary.warningEvents > 10 then
      ⟨text "MEDIUM", text "info", text "Elevated activity detected"⟩
    else ⟨text "LOW", text "success", text "No significant threats"⟩

/-- The view names the level of the store, in whatever case. -/
def SameLevel (printed : ℕ → Text) (threatMetrics : Option ThreatMetrics) : Prop :=
  upperCase (threatLevelInfo printed threatMetrics).level =
    upperCase (threatLevel threatMetrics).name

instance (printed : ℕ → Text) (m : Option ThreatMetrics) : Decidable (SameLevel printed m) := by
  unfold SameLevel
  infer_instance

/-- The metrics hold warnings that the view counts and the store does not. -/
def ThreatSummary.OnlyWarnings (s : ThreatSummary) : Prop :=
  s.criticalEvents = 0 ∧ s.errorEvents = 0 ∧ 10 < s.warningEvents

section

variable {printed : ℕ → Text} {s : ThreatSummary}

/-- On warnings alone the two drift apart. -/
theorem level_of_onlyWarnings (h : s.OnlyWarnings) :
    threatLevel (some ⟨s⟩) = .low ∧
      (threatLevelInfo printed (some ⟨s⟩)).level = text "MEDIUM" := by
  obtain ⟨hcritical, herror, hwarning⟩ := h
  simp [threatLevel, threatLevelInfo, hcritical, herror, hwarning]

/-- On any other metrics the view shows what the dashboard's badge shows. -/
theorem level_of_not_onlyWarnings (h : ¬ s.OnlyWarnings) :
    (threatLevelInfo printed (some ⟨s⟩)).level =
      (threatLevelBadge (threatLevel (some ⟨s⟩))).label := by
  unfold threatLevel threatLevelInfo
  by_cases hcritical : s.criticalEvents > 0
  · simp only [if_pos hcritical, threatLevelBadge]
  by_cases hhigh : s.errorEvents > 5
  · simp only [if_neg hcritical, if_pos hhigh, threatLevelBadge]
  by_cases herror : s.errorEvents > 0
  · simp only [if_neg hcritical, if_neg hhigh, if_pos herror, if_pos (Or.inl herror),
      threatLevelBadge]
  · -- neither critical nor error events: only the view looks at the warnings
    have hwarning : ¬ (s.errorEvents > 0 ∨ s.warningEvents > 10) := fun hor =>
      hor.elim herror fun hw => h ⟨by omega, by omega, hw⟩
    simp only [if_neg hcritical, if_neg hhigh, if_neg herror, if_neg hwarning, threatLevelBadge]

end

/-- The two levels name the same thing unless the metrics hold more than ten warnings and nothing
worse. -/
theorem sameLevel_iff (printed : ℕ → Text) (m : Option ThreatMetrics) :
    SameLevel printed m ↔ ∀ s, m = some ⟨s⟩ → ¬ s.OnlyWarnings := by
  cases m with
  | none => exact iff_of_true rfl (by simp)
  | some metrics =>
    obtain ⟨s⟩ := metrics
    simp only [Option.some.injEq, ThreatMetrics.mk.injEq, forall_eq']
    refine ⟨fun hsame hwarn => ?_, fun hwarn => ?_⟩
    -- warnings alone are low in one place and medium in the other
    · obtain ⟨hlow, hmedium⟩ := level_of_onlyWarnings hwarn
      rw [SameLevel, hlow, hmedium] at hsame
      exact absurd hsame (by decide)
    · rw [SameLevel, level_of_not_onlyWarnings hwarn, threatLevelBadge_label]
      cases threatLevel (some ⟨s⟩) <;> decide

/-- Eleven warnings, and nothing worse: the dashboard says LOW, the threats view MEDIUM. -/
theorem warnings_drift : ¬ SameLevel (fun _ => text "11") (some ⟨⟨0, 0, 11⟩⟩) := by
  decide

end Console

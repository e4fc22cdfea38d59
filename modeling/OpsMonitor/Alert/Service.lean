import OpsMonitor.Alert.Records

/-! The alert rules as their administrators create and change them
(`services/alert_service.py`). -/

namespace OpsMonitor.Alert
open Library

structure RuleCreate where
  ruleName : String
  metricType : String
  severity : String := "WARNING"
  operator : String := "GT"
  threshold : Option (Decimal 12 4) := none
  durationSeconds : ℕ := 0
  recoveryThreshold : Option (Decimal 12 4) := none
  enabled : ℕ := 1
  durationSeconds_unsigned : durationSeconds < 2 ^ 32

/-- A field that the request does not name is `none`, one that it names as `null` is `some none`. -/
structure RuleUpdate where
  ruleName : Option (Option String) := none
  metricType : Option (Option String) := none
  severity : Option (Option String) := none
  operator : Option (Option String) := none
  threshold : Option (Option (Decimal 12 4)) := none
  durationSeconds : Option (Option (Fin (2 ^ 32))) := none
  recoveryThreshold : Option (Option (Decimal 12 4)) := none
  enabled : Option (Option ℕ) := none

def getByName (rules : Table AlertRule) (ruleName : String) : Option AlertRule :=
  (rules.select fun r => r.ruleName = ruleName).head?

def getRule (rules : Table AlertRule) (ruleId : ℕ) : Except Failure AlertRule :=
  match rules.get? ruleId with
  | none => .error (.app ⟨.ruleNotFound, "告警规则不存在", 404⟩)
  | some rule => .ok rule

def createRule (rules : Table AlertRule) (data : RuleCreate) : Except Failure (Table AlertRule) :=
  if (getByName rules data.ruleName).isSome then
    .error (.app ⟨.ruleNameExists, "规则名称已存在", 409⟩)
  else
    .ok (rules.insert
      { id := 0
        ruleName := data.ruleName
        metricType := data.metricType.toUpper
        targetType := "SERVER"
        severity := data.severity.toUpper
        operator := data.operator.toUpper
        threshold := data.threshold
        durationSeconds := data.durationSeconds
        recoveryThreshold := data.recoveryThreshold
        enabled := data.enabled
        durationSeconds_unsigned := data.durationSeconds_unsigned })

/-- A column that is not nullable keeps its value when the request does not name the field. -/
def column {α : Type} (name : String) (value : α) : Option (Option α) → Except Failure α
  | none => .ok value
  | some none => .error (.integrity name)
  | some (some value) => .ok value

/-- The new name is taken by another rule. An empty name is not looked up. -/
def nameTaken (rules : Table AlertRule) (rule : AlertRule) : Option (Option String) → Bool
  | some (some ruleName) => ruleName ≠ "" && ruleName ≠ rule.ruleName &&
      ((getByName rules ruleName).any fun existing => existing.id ≠ rule.id)
  | _ => false

def updateRule (rules : Table AlertRule) (ruleId : ℕ) (data : RuleUpdate) :
    Except Failure (Table AlertRule) := do
  let rule ← getRule rules ruleId
  if nameTaken rules rule data.ruleName then
    .error (.app ⟨.ruleNameExists, "规则名称已存在", 409⟩)
  else
    let ruleName ← column "rule_name" rule.ruleName data.ruleName
    let metricType ← column "metric_type" rule.metricType (data.metricType.map (·.map String.toUpper))
    let severity ← column "severity" rule.severity (data.severity.map (·.map String.toUpper))
    let operator ← column "operator" rule.operator (data.operator.map (·.map String.toUpper))
    let durationSeconds ← column "duration_seconds"
      (⟨rule.durationSeconds, rule.durationSeconds_unsigned⟩ : Fin (2 ^ 32)) data.durationSeconds
    let enabled ← column "enabled" rule.enabled data.enabled
    pure (rules.modify rule.id fun r => { r with
      ruleName := ruleName
      metricType := metricType
      severity := severity
      operator := operator
      threshold := data.threshold.getD rule.threshold
      durationSeconds := durationSeconds
      recoveryThreshold := data.recoveryThreshold.getD rule.recoveryThreshold
      enabled := enabled
      durationSeconds_unsigned := durationSeconds.isLt })

end OpsMonitor.Alert

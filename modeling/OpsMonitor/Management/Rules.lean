import OpsMonitor.Alert.Service
import OpsMonitor.Management.Users

/-! The alert rules as the management interface writes them, with every value that the request
schemas let through (`services/alert_service.py`, `schemas/alert.py`). -/

namespace OpsMonitor.Management
open Library OpsMonitor.Alert

/-- A Python float: a number, as the driver writes it in decimal, or one of the texts that the
driver refuses to write. -/
inductive Number
  | finite (x : ℚ)
  | inf (negative : Bool)
  | nan
  deriving DecidableEq

/-- `description` is checked against its column, and read by no operation modelled here. -/
structure RuleCreate where
  ruleName : String
  metricType : String
  severity : String
  operator : String
  threshold : Option Number
  durationSeconds : ℕ
  recoveryThreshold : Option Number
  enabled : ℕ
  description : Option String
  ruleName_length : 1 ≤ ruleName.length ∧ ruleName.length ≤ 128
  enabled_range : enabled ≤ 1
  description_length : ∀ s ∈ description, s.length ≤ 500

/-- A field that the request does not name is `none`, one that it names as `null` is `some none`. -/
structure RuleUpdate where
  ruleName : Option (Option String)
  metricType : Option (Option String)
  severity : Option (Option String)
  operator : Option (Option String)
  threshold : Option (Option Number)
  durationSeconds : Option (Option ℕ)
  recoveryThreshold : Option (Option Number)
  enabled : Option (Option ℕ)
  description : Option (Option String)
  ruleName_length : ∀ s ∈ ruleName.join, 1 ≤ s.length ∧ s.length ≤ 128
  enabled_range : ∀ n ∈ enabled.join, n ≤ 1

/-! ## Columns -/

/-- The driver's literal of a float. -/
def literal : Number → Except Failure ℚ
  | .finite x => .ok x
  | .inf _ | .nan => .error (.uncaught "ProgrammingError")

/-- `VARCHAR(n)` in strict mode: blanks beyond the length are cut off, other characters refused. -/
def varchar (name : String) (n : ℕ) (value : String) : Except Failure String :=
  if (value.toList.drop n).all (· = ' ') then .ok (.ofList (value.toList.take n))
  else .error (.dataError name)

def decimal (name : String) (x : ℚ) : Except Failure (Decimal 12 4) :=
  match Decimal.ofRat? 12 4 x with
  | some value => .ok value
  | none => .error (.dataError name)

/-- `INT UNSIGNED`. -/
def unsigned (name : String) (n : ℕ) : Except Failure (Fin (2 ^ 32)) :=
  if h : n < 2 ^ 32 then .ok ⟨n, h⟩ else .error (.dataError name)

/-- A column that may be `NULL`. -/
def nullable {α β : Type} (write : α → Except Failure β) : Option α → Except Failure (Option β)
  | none => .ok none
  | some value => some <$> write value

/-- A column that a request may leave as it is. -/
def updated {α β : Type} (value : β) (write : α → Except Failure β) :
    Option α → Except Failure β
  | none => .ok value
  | some new => write new

/-- A value for a column that is `NOT NULL`. -/
def required {α β : Type} (name : String) (write : α → Except Failure β) :
    Option α → Except Failure β
  | none => .error (.integrity name)
  | some value => write value

/-! ## Operations -/

variable (upper : String → String)

/-- The statement's parameters come first, then its columns in the table's order. -/
theorem unsigned_lt (n : Fin (2 ^ 32)) : n.val < 2 ^ 32 := n.isLt

def insertRule (users : Table SysUser) (rules : Table AlertRule) (data : RuleCreate)
    (createdBy : Option ℕ) : Except Failure (Table AlertRule) := do
  let threshold ← nullable literal data.threshold
  let recoveryThreshold ← nullable literal data.recoveryThreshold
  let ruleName ← varchar "rule_name" 128 data.ruleName
  let metricType ← varchar "metric_type" 64 (upper data.metricType)
  let severity ← varchar "severity" 16 (upper data.severity)
  let operator ← varchar "operator" 8 (upper data.operator)
  let threshold ← nullable (decimal "threshold") threshold
  let durationSeconds ← unsigned "duration_seconds" data.durationSeconds
  let recoveryThreshold ← nullable (decimal "recovery_threshold") recoveryThreshold
  let _ ← nullable (varchar "description" 500) data.description
  if ∃ id ∈ createdBy, ¬∃ user ∈ users, user.id = id then
    .error (.integrity "fk_alert_rule_created_by")
  else
    pure (rules.insert
      { id := 0
        ruleName := ruleName
        metricType := metricType
        targetType := "SERVER"
        severity := severity
        operator := operator
        threshold := threshold
        durationSeconds := durationSeconds
        recoveryThreshold := recoveryThreshold
        enabled := data.enabled
        durationSeconds_unsigned := unsigned_lt durationSeconds })

def createRule (users : Table SysUser) (rules : Table AlertRule) (data : RuleCreate)
    (createdBy : Option ℕ) : Except Failure (Table AlertRule) :=
  if (getByName rules data.ruleName).isSome then
    .error (.app ⟨.ruleNameExists, "规则名称已存在", 409⟩)
  else insertRule upper users rules data createdBy

/-- `values[key].upper()`, of a text that is not empty. -/
def upperOf (value : String) : String := if value = "" then value else upper value

/-- What `update_rule` writes after its check. -/
def writeRule (rules : Table AlertRule) (rule : AlertRule) (data : RuleUpdate) :
    Except Failure (Table AlertRule) := do
  let threshold ← nullable (nullable literal) data.threshold
  let recoveryThreshold ← nullable (nullable literal) data.recoveryThreshold
  let ruleName ← updated rule.ruleName (required "rule_name" (varchar "rule_name" 128)) data.ruleName
  let metricType ← updated rule.metricType (required "metric_type" fun s =>
    varchar "metric_type" 64 (upperOf upper s)) data.metricType
  let severity ← updated rule.severity (required "severity" fun s =>
    varchar "severity" 16 (upperOf upper s)) data.severity
  let operator ← updated rule.operator (required "operator" fun s =>
    varchar "operator" 8 (upperOf upper s)) data.operator
  let threshold ← updated rule.threshold (nullable (decimal "threshold")) threshold
  let durationSeconds ← updated ⟨rule.durationSeconds, rule.durationSeconds_unsigned⟩
    (required "duration_seconds" (unsigned "duration_seconds")) data.durationSeconds
  let recoveryThreshold ← updated rule.recoveryThreshold
    (nullable (decimal "recovery_threshold")) recoveryThreshold
  let enabled ← updated rule.enabled (required "enabled" .ok) data.enabled
  let _ ← nullable (nullable (varchar "description" 500)) data.description
  pure (rules.modify rule.id fun r => { r with
    ruleName := ruleName
    metricType := metricType
    severity := severity
    operator := operator
    threshold := threshold
    durationSeconds := durationSeconds
    recoveryThreshold := recoveryThreshold
    enabled := enabled
    durationSeconds_unsigned := unsigned_lt durationSeconds })

def updateRule (rules : Table AlertRule) (ruleId : ℕ) (data : RuleUpdate) :
    Except Failure (Table AlertRule) := do
  let rule ← getRule rules ruleId
  if nameTaken rules rule data.ruleName then
    .error (.app ⟨.ruleNameExists, "规则名称已存在", 409⟩)
  else writeRule upper rules rule data

/-- The rule's events are unlinked before the rule is deleted, and `rule_id` takes no `NULL`. -/
def deleteRule (rules : Table AlertRule) (events : Table AlertEvent) (ruleId : ℕ) :
    Except Failure (Table AlertRule) := do
  let rule ← getRule rules ruleId
  if ∃ event ∈ events, event.ruleId = rule.id then .error (.integrity "rule_id")
  else pure (rules.remove fun r => r.id = rule.id)

/-! ## What the columns take -/

section Columns
universe u
variable {α β : Type} {γ δ : Type u}

/-- The application itself does not refuse. -/
def Silent (x : Except Failure γ) : Prop := ∀ e, x ≠ .error (.app e)

theorem Silent.bind {x : Except Failure γ} {f : γ → Except Failure δ} (hx : Silent x)
    (hf : ∀ a, Silent (f a)) : Silent (x >>= f) := by
  intro e h
  rcases bind_eq_error.mp h with h | ⟨a, -, h⟩
  · exact hx e h
  · exact hf a e h

theorem Silent.answered {x : Except Failure γ} (h : Silent x) : Answered x ↔ ∃ a, x = .ok a :=
  or_iff_left fun ⟨e, he⟩ => h e he

@[simp] theorem silent_ok (a : γ) : Silent (.ok a : Except Failure γ) := nofun

@[simp] theorem silent_pure (a : γ) : Silent (pure a : Except Failure γ) := nofun

@[simp] theorem silent_literal (x : Number) : Silent (literal x) := by cases x <;> nofun

@[simp] theorem silent_varchar (name : String) (n : ℕ) (value : String) :
    Silent (varchar name n value) := by
  unfold varchar
  split_ifs <;> nofun

@[simp] theorem silent_decimal (name : String) (x : ℚ) : Silent (decimal name x) := by
  unfold decimal
  split <;> nofun

@[simp] theorem silent_unsigned (name : String) (n : ℕ) : Silent (unsigned name n) := by
  unfold unsigned
  split_ifs <;> nofun

variable {write : α → Except Failure β}

theorem Silent.nullable (h : ∀ a, Silent (write a)) (value : Option α) :
    Silent (nullable write value) := by
  cases value with
  | none => nofun
  | some a => exact (h a).bind fun _ => silent_pure _

theorem Silent.updated (h : ∀ a, Silent (write a)) (old : β) (value : Option α) :
    Silent (updated old write value) := by
  cases value with
  | none => nofun
  | some a => exact h a

theorem Silent.required (h : ∀ a, Silent (write a)) (name : String) (value : Option α) :
    Silent (required name write value) := by
  cases value with
  | none => nofun
  | some a => exact h a

theorem nullable_some_eq_ok {a : α} {r : Option β} :
    nullable write (some a) = .ok r ↔ ∃ b, write a = .ok b ∧ some b = r := by
  change some <$> write a = .ok r ↔ _
  cases write a <;> simp [Functor.map, Except.map]

theorem nullable_isOk {value : Option α} :
    (∃ r, nullable write value = .ok r) ↔ ∀ a ∈ value, ∃ r, write a = .ok r := by
  cases value with
  | none => simp [nullable]
  | some a => cases h : write a <;> simp [nullable, h, Functor.map, Except.map]

theorem updated_isOk {old : β} {value : Option α} :
    (∃ r, updated old write value = .ok r) ↔ ∀ a ∈ value, ∃ r, write a = .ok r := by
  cases value <;> simp [updated]

theorem required_isOk {name : String} {value : Option α} :
    (∃ r, required name write value = .ok r) ↔ ∃ a, value = some a ∧ ∃ r, write a = .ok r := by
  cases value <;> simp [required]

/-- Nothing but blanks stands beyond the length of the column. -/
def Fits (n : ℕ) (value : String) : Prop := ∀ c ∈ value.toList.drop n, c = ' '

theorem Fits.of_length {n : ℕ} {value : String} (h : value.length ≤ n) : Fits n value := by
  intro c hc
  rw [List.drop_eq_nil_of_le h] at hc
  cases hc

theorem varchar_isOk {name : String} {n : ℕ} {value : String} :
    (∃ r, varchar name n value = .ok r) ↔ Fits n value := by
  unfold varchar Fits
  simp only [List.all_eq_true, decide_eq_true_eq]
  split_ifs with h
  · exact iff_of_true ⟨_, rfl⟩ h
  · exact iff_of_false (by simp) h

theorem unsigned_isOk {name : String} {n : ℕ} :
    (∃ r, unsigned name n = .ok r) ↔ n < 2 ^ 32 := by
  unfold unsigned
  split_ifs with h
  · exact iff_of_true ⟨_, rfl⟩ h
  · exact iff_of_false (by simp) h

/-- A finite number that has at most twelve digits at the scale of the column. -/
def InRange (x : Number) : Prop :=
  ∃ q, x = .finite q ∧ (roundHalfUp (q * 10 ^ 4)).natAbs < 10 ^ 12

theorem decimal_isOk {name : String} {q : ℚ} :
    (∃ r, decimal name q = .ok r) ↔ (roundHalfUp (q * 10 ^ 4)).natAbs < 10 ^ 12 := by
  unfold decimal Decimal.ofRat?
  split_ifs with h
  · exact iff_of_true ⟨_, rfl⟩ h
  · exact iff_of_false (by simp) h

/-- The literal of a float and then its column, as two steps of one statement. -/
theorem threshold_isOk {name : String} {value : Option Number} :
    (∃ t, nullable literal value = .ok t ∧ ∃ r, nullable (decimal name) t = .ok r) ↔
      ∀ x ∈ value, InRange x := by
  cases value with
  | none => simp [nullable]
  | some x =>
    cases x with
    | finite q =>
      have hcolumn : (∃ r, nullable (decimal name) (some q) = .ok r) ↔
          (roundHalfUp (q * 10 ^ 4)).natAbs < 10 ^ 12 := by
        rw [nullable_isOk]
        simp [decimal_isOk]
      simpa [nullable, literal, Functor.map, Except.map, InRange] using hcolumn
    | inf negative => simp [nullable, literal, Functor.map, Except.map, InRange]
    | nan => simp [nullable, literal, Functor.map, Except.map, InRange]

end Columns

/-! ## Creating a rule -/

section Create
variable {users : Table SysUser} {rules rules' : Table AlertRule} {upper : String → String}
  {createdBy : Option ℕ}

/-- The values fit the columns, and the creator is a user. -/
structure RuleCreate.Storable (users : Table SysUser) (upper : String → String)
    (createdBy : Option ℕ) (data : RuleCreate) : Prop where
  metricType : Fits 64 (upper data.metricType)
  severity : Fits 16 (upper data.severity)
  operator : Fits 8 (upper data.operator)
  threshold : ∀ x ∈ data.threshold, InRange x
  durationSeconds : data.durationSeconds < 2 ^ 32
  recoveryThreshold : ∀ x ∈ data.recoveryThreshold, InRange x
  createdBy : ∀ id ∈ createdBy, ∃ user ∈ users, user.id = id

def RuleCreate.Clean (users : Table SysUser) (rules : Table AlertRule) (upper : String → String)
    (createdBy : Option ℕ) (data : RuleCreate) : Prop :=
  (getByName rules data.ruleName).isSome ∨ data.Storable users upper createdBy

theorem silent_insertRule (data : RuleCreate) :
    Silent (insertRule upper users rules data createdBy) := by
  unfold insertRule
  refine (Silent.nullable silent_literal _).bind fun _ => ?_
  refine (Silent.nullable silent_literal _).bind fun _ => ?_
  refine (silent_varchar _ _ _).bind fun _ => ?_
  refine (silent_varchar _ _ _).bind fun _ => ?_
  refine (silent_varchar _ _ _).bind fun _ => ?_
  refine (silent_varchar _ _ _).bind fun _ => ?_
  refine (Silent.nullable (silent_decimal _) _).bind fun _ => ?_
  refine (silent_unsigned _ _).bind fun _ => ?_
  refine (Silent.nullable (silent_decimal _) _).bind fun _ => ?_
  refine (Silent.nullable (silent_varchar _ _) _).bind fun _ => ?_
  split_ifs
  · nofun
  · exact silent_pure _

theorem insertRule_isOk {data : RuleCreate} :
    (∃ rules', insertRule upper users rules data createdBy = .ok rules') ↔
      data.Storable users upper createdBy := by
  unfold insertRule
  simp only [bind_eq_ok]
  constructor
  · rintro ⟨rules', t, ht, rt, hrt, name, -, metricType, hmetric, severity, hseverity, operator,
      hoperator, threshold, hthreshold, duration, hduration, recovery, hrecovery, -, -, hcreated⟩
    split_ifs at hcreated with hcreator
    push Not at hcreator
    exact
      { metricType := varchar_isOk.mp ⟨_, hmetric⟩
        severity := varchar_isOk.mp ⟨_, hseverity⟩
        operator := varchar_isOk.mp ⟨_, hoperator⟩
        threshold := threshold_isOk.mp ⟨t, ht, _, hthreshold⟩
        durationSeconds := unsigned_isOk.mp ⟨_, hduration⟩
        recoveryThreshold := threshold_isOk.mp ⟨rt, hrt, _, hrecovery⟩
        createdBy := hcreator }
  · intro h
    obtain ⟨t, ht, threshold, hthreshold⟩ := threshold_isOk.mpr h.threshold
    obtain ⟨rt, hrt, recovery, hrecovery⟩ := threshold_isOk.mpr h.recoveryThreshold
    obtain ⟨name, hname⟩ := varchar_isOk.mpr (Fits.of_length data.ruleName_length.2)
    obtain ⟨metricType, hmetric⟩ := varchar_isOk.mpr h.metricType
    obtain ⟨severity, hseverity⟩ := varchar_isOk.mpr h.severity
    obtain ⟨operator, hoperator⟩ := varchar_isOk.mpr h.operator
    obtain ⟨duration, hduration⟩ := unsigned_isOk.mpr h.durationSeconds
    obtain ⟨description, hdescription⟩ := nullable_isOk.mpr fun s hs =>
      varchar_isOk.mpr (Fits.of_length (data.description_length s hs))
    have hcreator : ¬∃ id ∈ createdBy, ¬∃ user ∈ users, user.id = id := by
      push Not
      exact h.createdBy
    exact ⟨_, t, ht, rt, hrt, name, hname, metricType, hmetric, severity, hseverity, operator,
      hoperator, threshold, hthreshold, duration, hduration, recovery, hrecovery, description,
      hdescription, if_neg hcreator⟩

theorem createRule_answered_iff {data : RuleCreate} :
    Answered (createRule upper users rules data createdBy) ↔
      data.Clean users rules upper createdBy := by
  unfold createRule RuleCreate.Clean
  split_ifs with hname
  · simp [hname]
  · rw [(silent_insertRule data).answered, insertRule_isOk, or_iff_right hname]

end Create

/-! ## Updating and deleting a rule -/

section Update
variable {rules : Table AlertRule} {events : Table AlertEvent} {rule : AlertRule}
  {upper : String → String} {data : RuleUpdate}

/-- No column that is `NOT NULL` is set to `NULL`, and the values fit the columns. -/
structure RuleUpdate.Storable (upper : String → String) (data : RuleUpdate) : Prop where
  ruleName : data.ruleName ≠ some none
  metricType : ∀ v ∈ data.metricType, ∃ s, v = some s ∧ Fits 64 (upperOf upper s)
  severity : ∀ v ∈ data.severity, ∃ s, v = some s ∧ Fits 16 (upperOf upper s)
  operator : ∀ v ∈ data.operator, ∃ s, v = some s ∧ Fits 8 (upperOf upper s)
  threshold : ∀ x ∈ data.threshold.join, InRange x
  durationSeconds : ∀ v ∈ data.durationSeconds, ∃ n, v = some n ∧ n < 2 ^ 32
  recoveryThreshold : ∀ x ∈ data.recoveryThreshold.join, InRange x
  enabled : data.enabled ≠ some none
  description : ∀ s ∈ data.description.join, Fits 500 s

def RuleUpdate.Clean (rules : Table AlertRule) (upper : String → String) (ruleId : ℕ)
    (data : RuleUpdate) : Prop :=
  ∀ rule, getRule rules ruleId = .ok rule →
    nameTaken rules rule data.ruleName ∨ data.Storable upper

theorem silent_writeRule : Silent (writeRule upper rules rule data) := by
  unfold writeRule
  refine (Silent.nullable (fun v => Silent.nullable silent_literal v) _).bind fun _ => ?_
  refine (Silent.nullable (fun v => Silent.nullable silent_literal v) _).bind fun _ => ?_
  refine (Silent.updated (fun v => Silent.required (silent_varchar _ _) _ v) _ _).bind fun _ => ?_
  refine (Silent.updated (fun v => Silent.required (fun _ => silent_varchar _ _ _) _ v) _ _).bind
    fun _ => ?_
  refine (Silent.updated (fun v => Silent.required (fun _ => silent_varchar _ _ _) _ v) _ _).bind
    fun _ => ?_
  refine (Silent.updated (fun v => Silent.required (fun _ => silent_varchar _ _ _) _ v) _ _).bind
    fun _ => ?_
  refine (Silent.updated (fun v => Silent.nullable (silent_decimal _) v) _ _).bind fun _ => ?_
  refine (Silent.updated (fun v => Silent.required (silent_unsigned _) _ v) _ _).bind fun _ => ?_
  refine (Silent.updated (fun v => Silent.nullable (silent_decimal _) v) _ _).bind fun _ => ?_
  refine (Silent.updated (fun v => Silent.required silent_ok _ v) _ _).bind fun _ => ?_
  refine (Silent.nullable (fun v => Silent.nullable (silent_varchar _ _) v) _).bind fun _ => ?_
  exact silent_pure _

/-- The literal of a threshold and then its column, when the request names the field or not. -/
theorem newThreshold_isOk {name : String} {old : Option (Decimal 12 4)}
    {value : Option (Option Number)} :
    (∃ t, nullable (nullable literal) value = .ok t ∧
      ∃ r, updated old (nullable (decimal name)) t = .ok r) ↔ ∀ x ∈ value.join, InRange x := by
  cases value with
  | none => simp [nullable, updated]
  | some value =>
    rw [Option.join_some, ← @threshold_isOk name]
    constructor
    · rintro ⟨t, ht, r, hr⟩
      obtain ⟨t', ht', rfl⟩ := nullable_some_eq_ok.mp ht
      exact ⟨t', ht', r, hr⟩
    · rintro ⟨t, ht, r, hr⟩
      exact ⟨some t, nullable_some_eq_ok.mpr ⟨t, ht, rfl⟩, r, hr⟩

theorem writeRule_isOk :
    (∃ rules', writeRule upper rules rule data = .ok rules') ↔ data.Storable upper := by
  unfold writeRule
  simp only [bind_eq_ok]
  constructor
  · rintro ⟨rules', t, ht, rt, hrt, name, hname, metricType, hmetric, severity, hseverity, operator,
      hoperator, threshold, hthreshold, duration, hduration, recovery, hrecovery, enabled, henabled,
      description, hdescription, -⟩
    have hvarchar : ∀ {n : ℕ} {column : String} {old new : String} {value : Option (Option String)},
        updated old (required column fun s => varchar column n (upperOf upper s)) value = .ok new →
          ∀ v ∈ value, ∃ s, v = some s ∧ Fits n (upperOf upper s) := by
      intro n column old new value h v hv
      obtain ⟨s, hs, hok⟩ := required_isOk.mp (updated_isOk.mp ⟨new, h⟩ v hv)
      exact ⟨s, hs, varchar_isOk.mp hok⟩
    refine ⟨?_, hvarchar hmetric, hvarchar hseverity, hvarchar hoperator,
      newThreshold_isOk.mp ⟨t, ht, _, hthreshold⟩, ?_, newThreshold_isOk.mp ⟨rt, hrt, _, hrecovery⟩,
      ?_, ?_⟩
    · intro hnull
      obtain ⟨s, hs, -⟩ := required_isOk.mp (updated_isOk.mp ⟨name, hname⟩ none hnull)
      cases hs
    · intro v hv
      obtain ⟨n, hn, hok⟩ := required_isOk.mp (updated_isOk.mp ⟨duration, hduration⟩ v hv)
      exact ⟨n, hn, unsigned_isOk.mp hok⟩
    · intro hnull
      obtain ⟨n, hn, -⟩ := required_isOk.mp (updated_isOk.mp ⟨enabled, henabled⟩ none hnull)
      cases hn
    · intro s hs
      have hsome := nullable_isOk.mp ⟨description, hdescription⟩ (some s) (Option.join_eq_some_iff.mp hs)
      exact varchar_isOk.mp (nullable_isOk.mp hsome s rfl)
  · intro h
    have hvarchar : ∀ {n : ℕ} {column : String} (old : String) {value : Option (Option String)},
        (∀ v ∈ value, ∃ s, v = some s ∧ Fits n (upperOf upper s)) → ∃ new,
          updated old (required column fun s => varchar column n (upperOf upper s)) value = .ok new := by
      intro n column old value hfits
      refine updated_isOk.mpr fun v hv => required_isOk.mpr ?_
      obtain ⟨s, hs, hfit⟩ := hfits v hv
      exact ⟨s, hs, varchar_isOk.mpr hfit⟩
    obtain ⟨t, ht, threshold, hthreshold⟩ := newThreshold_isOk.mpr h.threshold
    obtain ⟨rt, hrt, recovery, hrecovery⟩ := newThreshold_isOk.mpr h.recoveryThreshold
    obtain ⟨name, hname⟩ : ∃ name, updated rule.ruleName
        (required "rule_name" (varchar "rule_name" 128)) data.ruleName = .ok name := by
      refine updated_isOk.mpr fun v hv => required_isOk.mpr ?_
      cases v with
      | none => exact absurd hv h.ruleName
      | some s =>
        have hlength := (data.ruleName_length s (Option.join_eq_some_iff.mpr hv)).2
        exact ⟨s, rfl, varchar_isOk.mpr (Fits.of_length hlength)⟩
    obtain ⟨metricType, hmetric⟩ := hvarchar rule.metricType h.metricType
    obtain ⟨severity, hseverity⟩ := hvarchar rule.severity h.severity
    obtain ⟨operator, hoperator⟩ := hvarchar rule.operator h.operator
    obtain ⟨duration, hduration⟩ : ∃ duration, updated
        ⟨rule.durationSeconds, rule.durationSeconds_unsigned⟩
        (required "duration_seconds" (unsigned "duration_seconds")) data.durationSeconds =
          .ok duration := by
      refine updated_isOk.mpr fun v hv => required_isOk.mpr ?_
      obtain ⟨n, hn, hlt⟩ := h.durationSeconds v hv
      exact ⟨n, hn, unsigned_isOk.mpr hlt⟩
    obtain ⟨enabled, henabled⟩ : ∃ enabled, updated rule.enabled
        (required "enabled" .ok) data.enabled = .ok enabled := by
      refine updated_isOk.mpr fun v hv => required_isOk.mpr ?_
      cases v with
      | none => exact absurd hv h.enabled
      | some n => exact ⟨n, rfl, n, rfl⟩
    obtain ⟨description, hdescription⟩ : ∃ description,
        nullable (nullable (varchar "description" 500)) data.description = .ok description := by
      refine nullable_isOk.mpr fun v hv => nullable_isOk.mpr fun s hs => varchar_isOk.mpr ?_
      exact h.description s (Option.join_eq_some_iff.mpr (by rwa [← Option.mem_def.mp hs]))
    exact ⟨_, t, ht, rt, hrt, name, hname, metricType, hmetric, severity, hseverity, operator,
      hoperator, threshold, hthreshold, duration, hduration, recovery, hrecovery, enabled, henabled,
      description, hdescription, rfl⟩

theorem getRule_answered (ruleId : ℕ) : Answered (getRule rules ruleId) := by
  unfold getRule
  cases rules.get? ruleId <;> simp

theorem updateRule_answered_iff {ruleId : ℕ} :
    Answered (updateRule upper rules ruleId data) ↔ data.Clean rules upper ruleId := by
  unfold updateRule RuleUpdate.Clean
  rcases @getRule_answered rules ruleId with ⟨rule, hget⟩ | ⟨e, hget⟩
  · rw [hget]
    change Answered (if nameTaken rules rule data.ruleName then _ else _) ↔ _
    simp only [Except.ok.injEq, forall_eq']
    split_ifs with hname
    · exact iff_of_true (answered_app _) (.inl hname)
    · rw [silent_writeRule.answered, writeRule_isOk, or_iff_right hname]
  · simp [answered_bind, hget]

theorem deleteRule_answered_iff {ruleId : ℕ} : Answered (deleteRule rules events ruleId) ↔
    ((∃ rule ∈ rules, rule.id = ruleId) → ∀ event ∈ events, event.ruleId ≠ ruleId) := by
  unfold deleteRule getRule
  cases hget : rules.get? ruleId with
  | none =>
    have hno := Table.get?_eq_none.mp hget
    exact iff_of_true (by simp [answered_bind]) fun ⟨rule, hrule, hid⟩ => absurd hid (hno rule hrule)
  | some rule =>
    obtain ⟨hrule, hid⟩ := Table.get?_eq_some.mp hget
    have hid : rule.id = ruleId := hid
    have hfound : ∃ rule ∈ rules, rule.id = ruleId := ⟨rule, hrule, hid⟩
    simp only [answered_bind, reduceCtorEq, exists_false, false_or, Except.ok.injEq, exists_eq_left',
      hid, hfound, true_implies]
    split_ifs with hevents
    · simpa using hevents
    · simpa using hevents

end Update

end OpsMonitor.Management

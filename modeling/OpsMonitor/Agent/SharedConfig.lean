import OpsMonitor.Agent.Config
import OpsMonitor.Library.Loops

/-! When the two agents make the same of one configuration file. -/

namespace OpsMonitor.Agent.Config
open Library

variable {doc : Document} {cwd : Directory} {dir : Path}

/-- The same values, and the same key file. -/
def SameConfig (cwd : Directory) (c d : AgentConfig) : Prop :=
  c.toSettings = d.toSettings ∧ c.signingKeyFile.locate cwd = d.signingKeyFile.locate cwd

/-- Both agents reject the document, or both accept it with the same effective values. -/
def LoadAlike (cwd : Directory) (dir : Path) (doc : Document) : Prop :=
  match loadConfig cwd dir doc, load dir doc with
  | .ok c, .ok d => SameConfig cwd c d
  | .error _, .error _ => True
  | _, _ => False

/-- The keys with a lower bound that zero does not meet. -/
def Document.bounded (doc : Document) : List (Option ℤ × ℤ) :=
  [(doc.collect.heartbeatInterval, 5), (doc.collect.metricsInterval, 2),
    (doc.collect.assetsInterval, 10), (doc.collect.taskPollInterval, 2),
    (doc.collect.retryMaxSeconds, 1)]

def Document.timeouts (doc : Document) : List (Option ℚ) :=
  [doc.collect.connectTimeout, doc.collect.requestTimeout]

def Document.required (doc : Document) : List (Option String) :=
  [doc.server.url, doc.server.token, doc.server.serverCode]

/-- What both agents reject: a required key is missing, a token or code empty, a number other than
zero below its bound. -/
def Refused (doc : Document) : Prop :=
  none ∈ doc.required ∨ doc.server.token = some "" ∨ doc.server.serverCode = some "" ∨
    (∃ p ∈ doc.bounded, ∃ n ∈ p.1, n < p.2 ∧ n ≠ 0) ∨ (∃ n ∈ doc.collect.retryMaxCount, n < 0) ∨
      ∃ o ∈ doc.timeouts, ∃ q ∈ o, q < 0

/-- A zero where the Python agent rejects it, and the Go agent takes the default. -/
def ZeroGiven (doc : Document) : Prop :=
  (∃ p ∈ doc.bounded, p.1 = some 0) ∨ some 0 ∈ doc.timeouts

/-- What only the Go agent rejects: a required text of spaces, an integer over 64 bits. -/
def Unreadable (doc : Document) : Prop :=
  (∃ o ∈ doc.required, ∃ s ∈ o, ¬ Written s) ∨
    ∃ o ∈ doc.collect.retryMaxCount :: doc.bounded.map Prod.fst, ∃ n ∈ o, 2 ^ 63 ≤ n

/-- A zero or empty value that only the Go agent replaces by the default. -/
def Replaced (doc : Document) : Prop :=
  doc.collect.retryMaxCount = some 0 ∨ doc.collect.services = some [] ∨
    doc.log.level = some "" ∨ doc.server.signingKeyFile = some ""

/-! ## The Python agent -/

theorem checkText_eq_nil {loc : String} {minLength : ℕ} {o : Option String} :
    checkText loc minLength o = [] ↔ ∃ s ∈ o, minLength ≤ s.length := by
  cases o <;> simp [checkText]

theorem checkAtLeast_eq_nil {loc : String} {bound : ℤ} {o : Option ℤ} :
    checkAtLeast loc bound o = [] ↔ ∀ n ∈ o, bound ≤ n := by
  cases o <;> simp [checkAtLeast]

theorem checkPositive_eq_nil {loc : String} {o : Option ℚ} :
    checkPositive loc o = [] ↔ ∀ q ∈ o, 0 < q := by
  cases o <;> simp [checkPositive]

/-- A bound that zero does not meet, with zero set apart. -/
theorem le_iff_of_pos {bound : ℤ} (hbound : 0 < bound) (o : Option ℤ) :
    (∀ n ∈ o, bound ≤ n) ↔ ¬ (∃ n ∈ o, n < bound ∧ n ≠ 0) ∧ o ≠ some 0 := by
  cases o with
  | none => simp
  | some n =>
    simp only [Option.mem_some_iff, forall_eq', exists_eq_left', ne_eq, Option.some.injEq]
    omega

theorem pos_iff (o : Option ℚ) : (∀ q ∈ o, 0 < q) ↔ ¬ (∃ q ∈ o, q < 0) ∧ o ≠ some 0 := by
  cases o with
  | none => simp
  | some q =>
    simp only [Option.mem_some_iff, forall_eq', exists_eq_left', not_lt, ne_eq, Option.some.injEq]
    rw [lt_iff_le_and_ne, ne_comm]

theorem given_iff (o : Option String) :
    (∃ s ∈ o, 1 ≤ s.length) ↔ o ≠ none ∧ o ≠ some "" := by
  cases o with
  | none => simp
  | some s => simp [Nat.one_le_iff_ne_zero]

theorem validationErrors_eq_nil : validationErrors doc = [] ↔ ¬ Refused doc ∧ ¬ ZeroGiven doc := by
  have hurl : (∃ s ∈ doc.server.url, 0 ≤ s.length) ↔ doc.server.url ≠ none := by
    cases doc.server.url <;> simp
  have hcount : (∀ n ∈ doc.collect.retryMaxCount, 0 ≤ n) ↔
      ¬ ∃ n ∈ doc.collect.retryMaxCount, n < 0 := by simp
  simp only [validationErrors, List.append_eq_nil_iff, checkText_eq_nil, checkAtLeast_eq_nil,
    checkPositive_eq_nil, given_iff, pos_iff, hurl, hcount, le_iff_of_pos (by decide : (0 : ℤ) < 5),
    le_iff_of_pos (by decide : (0 : ℤ) < 2), le_iff_of_pos (by decide : (0 : ℤ) < 10),
    le_iff_of_pos (by decide : (0 : ℤ) < 1)]
  simp only [Refused, ZeroGiven, Document.required, Document.bounded, Document.timeouts,
    List.mem_cons, List.not_mem_nil, or_false, exists_eq_or_imp, exists_eq_left, not_or,
    eq_comm (a := (none : Option String)), eq_comm (a := some (0 : ℚ))]
  tauto

/-! ## The Go agent -/

theorem require_eq_ok {ok : Prop} [Decidable ok] {message : String} {u : Unit} :
    require ok message = .ok u ↔ ok := by
  unfold require
  split_ifs with h <;> simp [h]

theorem validate_eq_ok {c : Settings} : validate c = .ok () ↔
    Written c.url ∧ Written c.token ∧ Written c.serverCode ∧
      5 ≤ c.heartbeatInterval ∧ 2 ≤ c.metricsInterval ∧ 10 ≤ c.assetsInterval ∧
      2 ≤ c.taskPollInterval ∧ 1 ≤ c.retryMaxSeconds ∧ 1 ≤ c.retryMaxCount ∧
      0 < c.connectTimeout ∧ 0 < c.requestTimeout := by
  simp only [validate, bind_eq_ok, require_eq_ok, exists_const]

theorem decodeInt_eq_ok {default n : ℤ} {o : Option ℤ} : decodeInt default o = .ok n ↔
    n = o.getD default ∧ ∀ m ∈ o, -2 ^ 63 ≤ m ∧ m < 2 ^ 63 := by
  cases o with
  | none => simp [decodeInt, eq_comm]
  | some m =>
    simp only [decodeInt, Option.getD_some, Option.mem_some_iff, forall_eq']
    split_ifs with h
    · simpa [eq_comm] using fun _ => h
    · simpa using fun _ => by simpa using h

/-- The integers of the document fit into 64 bits. -/
def InRange (doc : Document) : Prop :=
  ∀ o ∈ doc.collect.retryMaxCount :: doc.bounded.map Prod.fst, ∀ n ∈ o, -2 ^ 63 ≤ n ∧ n < 2 ^ 63

theorem unmarshal_eq_ok {c : RawConfig} :
    unmarshal doc defaults = .ok c ↔ InRange doc ∧ c = fields doc := by
  simp only [unmarshal, bind_eq_ok, decodeInt_eq_ok, pure_eq_ok]
  constructor
  · rintro ⟨_, ⟨rfl, hheartbeat⟩, _, ⟨rfl, hmetrics⟩, _, ⟨rfl, hassets⟩, _, ⟨rfl, hpoll⟩,
      _, ⟨rfl, hseconds⟩, _, ⟨rfl, hcount⟩, rfl⟩
    refine ⟨?_, rfl⟩
    simpa only [InRange, Document.bounded, List.map_cons, List.map_nil, List.mem_cons,
      List.not_mem_nil, or_false, forall_eq_or_imp, forall_eq] using
      ⟨hcount, hheartbeat, hmetrics, hassets, hpoll, hseconds⟩
  · rintro ⟨hrange, rfl⟩
    simp only [InRange, Document.bounded, List.map_cons, List.map_nil, List.mem_cons,
      List.not_mem_nil, or_false, forall_eq_or_imp, forall_eq] at hrange
    obtain ⟨hcount, hheartbeat, hmetrics, hassets, hpoll, hseconds⟩ := hrange
    exact ⟨_, ⟨rfl, hheartbeat⟩, _, ⟨rfl, hmetrics⟩, _, ⟨rfl, hassets⟩, _, ⟨rfl, hpoll⟩,
      _, ⟨rfl, hseconds⟩, _, ⟨rfl, hcount⟩, rfl⟩

theorem load_eq_ok {d : AgentConfig} : load dir doc = .ok d ↔
    InRange doc ∧ validate (applyDefaults (fields doc)).toSettings = .ok () ∧
      d = { applyDefaults (fields doc) with
        signingKeyFile :=
          if (Path.ofString (applyDefaults (fields doc)).signingKeyFile).absolute then
            Path.ofString (applyDefaults (fields doc)).signingKeyFile
          else dir.clean.join (Path.ofString (applyDefaults (fields doc)).signingKeyFile) } := by
  simp only [load, bind_eq_ok, unmarshal_eq_ok, pure_eq_ok]
  constructor
  · rintro ⟨_, ⟨hrange, rfl⟩, _, hvalid, rfl⟩
    exact ⟨hrange, hvalid, rfl⟩
  · rintro ⟨hrange, hvalid, rfl⟩
    exact ⟨_, ⟨hrange, rfl⟩, (), hvalid, rfl⟩

/-- An integer that the Go agent reads and accepts, where zero stands for the default. -/
theorem accepted_iff {bound default : ℤ} (hbound : 0 < bound) (hdefault : bound ≤ default)
    (o : Option ℤ) :
    (∀ n ∈ o, -2 ^ 63 ≤ n ∧ n < 2 ^ 63) ∧ bound ≤ orDefault 0 default (o.getD default) ↔
      ¬ (∃ n ∈ o, n < bound ∧ n ≠ 0) ∧ ¬ ∃ n ∈ o, 2 ^ 63 ≤ n := by
  cases o with
  | none =>
    have hne : default ≠ 0 := by omega
    simpa [orDefault, hne] using hdefault
  | some n =>
    simp only [Option.mem_some_iff, forall_eq', exists_eq_left', Option.getD_some, orDefault]
    split_ifs with hzero <;> omega

theorem timeout_accepted_iff {default : ℚ} (hdefault : 0 < default) (o : Option ℚ) :
    0 < orDefault 0 default (o.getD default) ↔ ¬ ∃ q ∈ o, q < 0 := by
  cases o with
  | none => simpa [orDefault, hdefault.ne'] using hdefault
  | some q =>
    simp only [Option.mem_some_iff, exists_eq_left', Option.getD_some, orDefault, not_lt]
    split_ifs with hzero
    · simp [hzero, hdefault]
    · rw [lt_iff_le_and_ne, and_iff_left (Ne.symm hzero)]

theorem not_written_empty : ¬ Written "" := by
  unfold Written
  decide +kernel

theorem written_iff (o : Option String) :
    Written (o.getD "") ↔ o ≠ none ∧ ¬ ∃ s ∈ o, ¬ Written s := by
  cases o with
  | none => simp [not_written_empty]
  | some s => simp

theorem not_refused_iff : ¬ Refused doc ↔
    none ∉ doc.required ∧ doc.server.token ≠ some "" ∧ doc.server.serverCode ≠ some "" ∧
      (∀ p ∈ doc.bounded, ¬ ∃ n ∈ p.1, n < p.2 ∧ n ≠ 0) ∧
      (¬ ∃ n ∈ doc.collect.retryMaxCount, n < 0) ∧ ∀ o ∈ doc.timeouts, ¬ ∃ q ∈ o, q < 0 := by
  simp only [Refused, not_or, not_exists, not_and, ne_eq]

theorem not_unreadable_iff : ¬ Unreadable doc ↔
    (∀ o ∈ doc.required, ¬ ∃ s ∈ o, ¬ Written s) ∧
      ∀ o ∈ doc.collect.retryMaxCount :: doc.bounded.map Prod.fst, ¬ ∃ n ∈ o, 2 ^ 63 ≤ n := by
  simp only [Unreadable, not_or, not_exists, not_and]

/-- The five integers with a bound. -/
theorem bounded_accepted_iff :
    (∀ o ∈ doc.bounded.map Prod.fst, ∀ n ∈ o, -2 ^ 63 ≤ n ∧ n < 2 ^ 63) ∧
      (5 ≤ (applyDefaults (fields doc)).heartbeatInterval ∧
        2 ≤ (applyDefaults (fields doc)).metricsInterval ∧
        10 ≤ (applyDefaults (fields doc)).assetsInterval ∧
        2 ≤ (applyDefaults (fields doc)).taskPollInterval ∧
        1 ≤ (applyDefaults (fields doc)).retryMaxSeconds) ↔
    (∀ p ∈ doc.bounded, ¬ ∃ n ∈ p.1, n < p.2 ∧ n ≠ 0) ∧
      ∀ o ∈ doc.bounded.map Prod.fst, ¬ ∃ n ∈ o, 2 ^ 63 ≤ n := by
  have hheartbeat := accepted_iff (by decide : (0 : ℤ) < 5) (by decide : (5 : ℤ) ≤ 30)
    doc.collect.heartbeatInterval
  have hmetrics := accepted_iff (by decide : (0 : ℤ) < 2) (by decide : (2 : ℤ) ≤ 10)
    doc.collect.metricsInterval
  have hassets := accepted_iff (by decide : (0 : ℤ) < 10) (by decide : (10 : ℤ) ≤ 60)
    doc.collect.assetsInterval
  have hpoll := accepted_iff (by decide : (0 : ℤ) < 2) (by decide : (2 : ℤ) ≤ 5)
    doc.collect.taskPollInterval
  have hseconds := accepted_iff (by decide : (0 : ℤ) < 1) (by decide : (1 : ℤ) ≤ 60)
    doc.collect.retryMaxSeconds
  simp only [applyDefaults, fields, defaults, Document.bounded, List.map_cons, List.map_nil,
    List.mem_cons, List.not_mem_nil, or_false, forall_eq_or_imp, forall_eq]
  constructor
  · rintro ⟨⟨r₁, r₂, r₃, r₄, r₅⟩, b₁, b₂, b₃, b₄, b₅⟩
    have h₁ := hheartbeat.mp ⟨r₁, b₁⟩
    have h₂ := hmetrics.mp ⟨r₂, b₂⟩
    have h₃ := hassets.mp ⟨r₃, b₃⟩
    have h₄ := hpoll.mp ⟨r₄, b₄⟩
    have h₅ := hseconds.mp ⟨r₅, b₅⟩
    exact ⟨⟨h₁.1, h₂.1, h₃.1, h₄.1, h₅.1⟩, h₁.2, h₂.2, h₃.2, h₄.2, h₅.2⟩
  · rintro ⟨⟨l₁, l₂, l₃, l₄, l₅⟩, u₁, u₂, u₃, u₄, u₅⟩
    have h₁ := hheartbeat.mpr ⟨l₁, u₁⟩
    have h₂ := hmetrics.mpr ⟨l₂, u₂⟩
    have h₃ := hassets.mpr ⟨l₃, u₃⟩
    have h₄ := hpoll.mpr ⟨l₄, u₄⟩
    have h₅ := hseconds.mpr ⟨l₅, u₅⟩
    exact ⟨⟨h₁.1, h₂.1, h₃.1, h₄.1, h₅.1⟩, h₁.2, h₂.2, h₃.2, h₄.2, h₅.2⟩

theorem count_accepted_iff :
    (∀ n ∈ doc.collect.retryMaxCount, -2 ^ 63 ≤ n ∧ n < 2 ^ 63) ∧
      1 ≤ (applyDefaults (fields doc)).retryMaxCount ↔
    (¬ ∃ n ∈ doc.collect.retryMaxCount, n < 0) ∧
      ¬ ∃ n ∈ doc.collect.retryMaxCount, 2 ^ 63 ≤ n := by
  have hbelow : (∃ n ∈ doc.collect.retryMaxCount, n < 1 ∧ n ≠ 0) ↔
      ∃ n ∈ doc.collect.retryMaxCount, n < 0 := by
    refine exists_congr fun n => and_congr_right fun _ => ?_
    omega
  rw [← hbelow]
  exact accepted_iff (by decide : (0 : ℤ) < 1) (by decide : (1 : ℤ) ≤ 2)
    doc.collect.retryMaxCount

theorem required_accepted_iff :
    (Written (applyDefaults (fields doc)).url ∧ Written (applyDefaults (fields doc)).token ∧
      Written (applyDefaults (fields doc)).serverCode) ↔
    (none ∉ doc.required ∧ doc.server.token ≠ some "" ∧ doc.server.serverCode ≠ some "") ∧
      ∀ o ∈ doc.required, ¬ ∃ s ∈ o, ¬ Written s := by
  simp only [applyDefaults, fields, written_iff, Document.required, List.mem_cons,
    List.not_mem_nil, or_false, forall_eq_or_imp, forall_eq, not_or, ne_eq,
    eq_comm (a := (none : Option String))]
  have hempty : ∀ o : Option String, (¬ ∃ s ∈ o, ¬ Written s) → o ≠ some "" := by
    rintro o hall rfl
    exact hall ⟨"", rfl, not_written_empty⟩
  have htoken := hempty doc.server.token
  have hcode := hempty doc.server.serverCode
  tauto

theorem load_accepts_iff : (∃ d, load dir doc = .ok d) ↔ ¬ Refused doc ∧ ¬ Unreadable doc := by
  have hok : (∃ d, load dir doc = .ok d) ↔
      InRange doc ∧ validate (applyDefaults (fields doc)).toSettings = .ok () := by
    simp only [load_eq_ok]
    exact ⟨fun ⟨_, hrange, hvalid, _⟩ => ⟨hrange, hvalid⟩,
      fun ⟨hrange, hvalid⟩ => ⟨_, hrange, hvalid, rfl⟩⟩
  have hconnect : 0 < (applyDefaults (fields doc)).connectTimeout ↔ _ :=
    timeout_accepted_iff (by norm_num) doc.collect.connectTimeout
  have hrequest : 0 < (applyDefaults (fields doc)).requestTimeout ↔ _ :=
    timeout_accepted_iff (by norm_num) doc.collect.requestTimeout
  have hrequired := @required_accepted_iff doc
  have hbounded := @bounded_accepted_iff doc
  have hcount := @count_accepted_iff doc
  have htimeouts : (∀ o ∈ doc.timeouts, ¬ ∃ q ∈ o, q < 0) ↔
      0 < (applyDefaults (fields doc)).connectTimeout ∧
        0 < (applyDefaults (fields doc)).requestTimeout := by
    simp only [Document.timeouts, List.mem_cons, List.not_mem_nil, or_false, forall_eq_or_imp,
      forall_eq, hconnect, hrequest]
  rw [hok, validate_eq_ok, not_refused_iff, not_unreadable_iff, htimeouts, InRange,
    List.forall_mem_cons, List.forall_mem_cons]
  constructor
  · rintro ⟨⟨hcountRange, hrange⟩, hurl, htoken, hcode, h₁, h₂, h₃, h₄, h₅, hcountBound, htime⟩
    obtain ⟨hgiven, hwritten⟩ := hrequired.mp ⟨hurl, htoken, hcode⟩
    obtain ⟨hlower, hupper⟩ := hbounded.mp ⟨hrange, h₁, h₂, h₃, h₄, h₅⟩
    obtain ⟨hcountLower, hcountUpper⟩ := hcount.mp ⟨hcountRange, hcountBound⟩
    exact ⟨⟨hgiven.1, hgiven.2.1, hgiven.2.2, hlower, hcountLower, htime⟩, hwritten,
      hcountUpper, hupper⟩
  · rintro ⟨⟨hnone, htoken, hcode, hlower, hcountLower, htime⟩, hwritten, hcountUpper, hupper⟩
    obtain ⟨hurl, htokenWritten, hcodeWritten⟩ := hrequired.mpr ⟨⟨hnone, htoken, hcode⟩, hwritten⟩
    obtain ⟨hrange, h₁, h₂, h₃, h₄, h₅⟩ := hbounded.mpr ⟨hlower, hupper⟩
    obtain ⟨hcountRange, hcountBound⟩ := hcount.mpr ⟨hcountLower, hcountUpper⟩
    exact ⟨⟨hcountRange, hrange⟩, hurl, htokenWritten, hcodeWritten, h₁, h₂, h₃, h₄, h₅,
      hcountBound, htime⟩

/-! ## Both agents on one document -/

theorem orDefault_eq_iff {α : Type} [DecidableEq α] {zero default : α} (hne : default ≠ zero)
    (o : Option α) : orDefault zero default (o.getD default) = o.getD default ↔ o ≠ some zero := by
  cases o with
  | none => simp [orDefault, hne]
  | some a =>
    simp only [orDefault, Option.getD_some, ne_eq, Option.some.injEq]
    split_ifs with h
    · simp [h, hne]
    · simp [h]

/-- Without the zeros that only the Python agent rejects, three keys are left to differ. -/
theorem settings_eq_iff (h : ¬ ZeroGiven doc) :
    (applyDefaults (fields doc)).toSettings = (fields doc).toSettings ↔
      doc.collect.retryMaxCount ≠ some 0 ∧ doc.collect.services ≠ some [] ∧
        doc.log.level ≠ some "" := by
  simp only [ZeroGiven, Document.bounded, Document.timeouts, List.mem_cons, List.not_mem_nil,
    or_false, exists_eq_or_imp, exists_eq_left, not_or, eq_comm (a := some (0 : ℚ))] at h
  obtain ⟨⟨hheartbeat, hmetrics, hassets, hpoll, hseconds⟩, hconnect, hrequest⟩ := h
  simp only [applyDefaults, fields, defaults, Settings.mk.injEq, true_and, and_true]
  rw [orDefault_eq_iff (by decide), orDefault_eq_iff (by decide), orDefault_eq_iff (by decide),
    orDefault_eq_iff (by decide), orDefault_eq_iff (by decide), orDefault_eq_iff (by decide),
    orDefault_eq_iff (by norm_num), orDefault_eq_iff (by norm_num), orDefault_eq_iff (by decide),
    orDefault_eq_iff (by decide)]
  simp [hheartbeat, hmetrics, hassets, hpoll, hseconds, hconnect, hrequest]

/-- Where the Python agent looks for the key file. -/
def keyPath (cwd : Directory) (dir : Path) (file : String) : Path :=
  if (Path.ofString file).absolute then Path.ofString file
  else ⟨true, dir.locate cwd ++ (Path.ofString file).parts⟩

/-- Where the Go agent looks for it. -/
def goKeyPath (dir : Path) (file : String) : Path :=
  if (Path.ofString file).absolute then Path.ofString file
  else dir.clean.join (Path.ofString file)

theorem locate_keyPath (file : String) : (keyPath cwd dir file).locate cwd =
    if (Path.ofString file).absolute then (Path.ofString file).locate cwd
    else Path.walk (dir.locate cwd) (Path.ofString file).parts := by
  unfold keyPath
  split_ifs with habs
  · rfl
  · show Path.walk [] (dir.locate cwd ++ _) = _
    rw [Path.walk_append, Path.walk_names (Path.locate_downward cwd dir)]

/-- A key file leads both agents to the same place. -/
theorem locate_goKeyPath (file : String) :
    (goKeyPath dir file).locate cwd = (keyPath cwd dir file).locate cwd := by
  rw [locate_keyPath]
  unfold goKeyPath
  split_ifs with habs
  · rfl
  · rw [Path.locate_join, Path.locate_clean]

theorem keyPath_empty_ne : (keyPath cwd dir "").locate cwd ≠
    (goKeyPath dir "agent_ed25519.key").locate cwd := by
  have hempty : Path.ofString "" = ⟨false, []⟩ := by decide +kernel
  have hdefault : Path.ofString "agent_ed25519.key" = ⟨false, ["agent_ed25519.key"]⟩ := by
    decide +kernel
  rw [locate_goKeyPath, locate_keyPath, locate_keyPath, hempty, hdefault]
  intro heq
  have hlength := congrArg List.length heq
  simp [Path.walk, Path.enter] at hlength

/-- On a document that both agents accept, the values are the same unless the Go agent replaces
one. -/
theorem same_iff (h : ¬ ZeroGiven doc) :
    ((fields doc).toSettings = (applyDefaults (fields doc)).toSettings ∧
      (keyPath cwd dir (fields doc).signingKeyFile).locate cwd =
        (goKeyPath dir (applyDefaults (fields doc)).signingKeyFile).locate cwd) ↔
      ¬ Replaced doc := by
  have hkey : (keyPath cwd dir (fields doc).signingKeyFile).locate cwd =
      (goKeyPath dir (applyDefaults (fields doc)).signingKeyFile).locate cwd ↔
        doc.server.signingKeyFile ≠ some "" := by
    have hdefault : (applyDefaults (fields doc)).signingKeyFile = (fields doc).signingKeyFile ↔
        doc.server.signingKeyFile ≠ some "" := orDefault_eq_iff (by decide) _
    constructor
    · intro hsame hempty
      have hfile : (fields doc).signingKeyFile = "" := by simp [fields, hempty]
      have hgo : (applyDefaults (fields doc)).signingKeyFile = "agent_ed25519.key" := by
        simp [applyDefaults, hfile, orDefault, defaults]
      rw [hfile, hgo] at hsame
      exact keyPath_empty_ne hsame
    · intro hne
      rw [hdefault.mpr hne, locate_goKeyPath]
  rw [eq_comm, settings_eq_iff h, hkey]
  simp only [Replaced, not_or, ne_eq]
  tauto

theorem loadConfig_eq_ok (h : ¬ Refused doc ∧ ¬ ZeroGiven doc) :
    loadConfig cwd dir doc = .ok { fields doc with
      signingKeyFile := keyPath cwd dir (fields doc).signingKeyFile } := by
  unfold loadConfig
  rw [if_pos (validationErrors_eq_nil.mpr h)]
  rfl

theorem loadConfig_eq_error (h : ¬ (¬ Refused doc ∧ ¬ ZeroGiven doc)) :
    loadConfig cwd dir doc = .error (validationErrors doc) := by
  unfold loadConfig
  rw [if_neg (fun hnil => h (validationErrors_eq_nil.mp hnil))]

theorem loadAlike_of_accepted (hpy : ¬ Refused doc ∧ ¬ ZeroGiven doc) (hgo : ¬ Unreadable doc) :
    LoadAlike cwd dir doc ↔ ¬ Replaced doc := by
  obtain ⟨d, hd⟩ := (@load_accepts_iff doc dir).mpr ⟨hpy.1, hgo⟩
  obtain ⟨-, -, rfl⟩ := load_eq_ok.mp hd
  unfold LoadAlike
  rw [loadConfig_eq_ok hpy, hd]
  exact same_iff hpy.2

theorem LoadAlike.settings_eq (h : LoadAlike cwd dir doc) :
    (loadConfig cwd dir doc).toOption.map AgentConfig.toSettings =
      (load dir doc).toOption.map AgentConfig.toSettings := by
  unfold LoadAlike at h
  split at h
  · rename_i c d hc hd
    rw [hc, hd]
    exact congrArg some h.1
  · rename_i e e' hc hd
    rw [hc, hd]
    rfl
  · exact h.elim

namespace Sample

/-- A document that empties the list of services. -/
def noServices : Document where
  server := ⟨some "http://127.0.0.1:8000", some "t", some "web-01", none⟩
  collect := ⟨none, none, none, none, none, none, none, none, some []⟩
  log := ⟨none, none⟩

end Sample

end OpsMonitor.Agent.Config

import OpsMonitor.Alert.Recovery

/-! An event that moves to `FIRING` stands for a violation that has lasted for the duration of
the rule, as long as every round that finds it pending can tell a violation from a recovery. -/

namespace OpsMonitor.Alert
open Library OpsMonitor.Metric

/-- The rounds of the run come at increasing times. -/
def Chronological (es : List Event) : Prop :=
  es.Pairwise fun a b => a.call = .evaluateAll → b.call = .evaluateAll → a.now < b.now

/-- No enabled rule has the number of `rule`. -/
def NotCreated (rule : AlertRule) (pre : List Event) (ev : Event) : Prop :=
  ev.call = .evaluateAll → ∀ r ∈ (after pre).getEnabled, r.id ≠ rule.id

/-- From the round on that first finds the rule, it stays enabled and as it is. -/
def Kept (rule : AlertRule) (pre : List Event) (ev : Event) : Prop :=
  ev.call = .evaluateAll →
    rule ∈ (after pre).getEnabled ∨ Along (NotCreated rule) (pre ++ [ev])

/-- A round at `now` evaluates a value for the rule and the server, and it violates. -/
def ViolatingRound (rule : AlertRule) (sid : ℕ) (db : Db) (now : Time) : Prop :=
  ∃ server ∈ db.listActive, server.id = sid ∧
    ∃ value, db.valueOf rule server now = some value ∧ Violates rule server value

/-- A round at `now` evaluates a value for the rule and the server, and it is recovered. -/
def RecoveredRound (rule : AlertRule) (sid : ℕ) (db : Db) (now : Time) : Prop :=
  ∃ server ∈ db.listActive, server.id = sid ∧
    ∃ value, db.valueOf rule server now = some value ∧ ¬ Violates rule server value ∧
      isRecovered rule value = true

/-- A round that finds the event pending reads a violation or a recovery: neither no value nor
one in between. -/
def Decisive (rule : AlertRule) (sid : ℕ) (pre : List Event) (ev : Event) : Prop :=
  ev.call = .evaluateAll →
    (∃ e ∈ (after pre).events, e.alertKey = keyOf rule sid ∧ e.status = .pending) →
      ViolatingRound rule sid (after pre) ev.now ∨ RecoveredRound rule sid (after pre) ev.now

/-- The round `ev` moves the event of the rule and the server to `FIRING`. -/
def Fires (rule : AlertRule) (sid : ℕ) (db : Db) (ev : Event) : Prop :=
  ev.call = .evaluateAll ∧
    (∀ e ∈ db.events, e.alertKey = keyOf rule sid → e.status ≠ .firing) ∧
      ∃ e ∈ (step db ev).events, e.alertKey = keyOf rule sid ∧ e.status = .firing

variable {db : Db} {rule : AlertRule} {sid : ℕ} {now : Time}

/-! ## Rounds as readings -/

theorem violatingRound_iff : ViolatingRound rule sid db now ↔ db.reading rule sid now = .violating := by
  constructor
  · rintro ⟨server, hserver, rfl, value, hvalue, hviolates⟩
    rw [Violates] at hviolates
    rw [reading_eq hserver hvalue, if_pos hviolates]
  · intro hreading
    cases hfind : db.listActive.find? (·.id = sid) with
    | none =>
      rw [Db.reading, hfind] at hreading
      cases hreading
    | some server =>
      obtain rfl : server.id = sid := by simpa using List.find?_some hfind
      have hserver := List.mem_of_find?_eq_some hfind
      cases hvalue : db.valueOf rule server now with
      | none =>
        rw [Db.valueOf] at hvalue
        simp only [Db.reading, hfind, readingOf, hvalue] at hreading
        cases hreading
      | some value =>
        refine ⟨server, hserver, rfl, value, hvalue, ?_⟩
        by_contra hcalm
        rw [Violates] at hcalm
        rw [reading_eq hserver hvalue, if_neg hcalm] at hreading
        cases hreading

theorem RecoveredRound.reading (h : RecoveredRound rule sid db now) :
    db.reading rule sid now = .normal true := by
  obtain ⟨server, hserver, rfl, value, hvalue, hcalm, hrecovered⟩ := h
  rw [Violates] at hcalm
  rw [reading_eq hserver hvalue, if_neg hcalm, hrecovered]

theorem exists_of_alarm {stage : Alarm.Stage} {since : Time}
    (h : db.alarm (keyOf rule sid) = some (stage, since)) :
    ∃ e ∈ db.events, e.alertKey = keyOf rule sid ∧ stageOf e.status = stage := by
  obtain ⟨e, hget, heq⟩ := Option.map_eq_some_iff.mp h
  obtain ⟨he, hkey, -⟩ := mem_of_getActive hget
  exact ⟨e, he, hkey, congrArg Prod.fst heq⟩

theorem stageOf_eq_pending {status : AlertStatus} : stageOf status = .pending ↔ status = .pending := by
  cases status <;> simp [stageOf]

theorem stageOf_eq_firing {status : AlertStatus} : stageOf status = .firing ↔ status = .firing := by
  cases status <;> simp [stageOf]

/-- A round without the rule leaves its events alone. -/
theorem UniqueActive.alarm_evaluateAll_of_notCreated (h : UniqueActive db)
    (hrule : ∀ r ∈ db.getEnabled, r.id ≠ rule.id) :
    (Alert.evaluateAll db now).1.alarm (keyOf rule sid) = db.alarm (keyOf rule sid) := by
  rw [evaluateAll_eq]
  refine (foldl_evaluatePair h).2 _ ?_
  rintro ⟨r, s⟩ hp hkey
  exact hrule r (List.mem_product.mp hp).1 (keyOf_inj (hkey : keyOf r s.id = keyOf rule sid)).1

/-! ## Runs -/

/-- What the rounds of a run read for the rule and the server. -/
def seen (rule : AlertRule) (sid : ℕ) (es : List Event) : Set (Time × Alarm.Reading) :=
  { o | Happened (fun pre ev =>
      ev.call = .evaluateAll ∧ o = (ev.now, (after pre).reading rule sid ev.now)) es }

theorem seen_concat_round {es : List Event} {ev : Event} (hcall : ev.call = .evaluateAll) :
    seen rule sid (es ++ [ev]) =
      insert (ev.now, (after es).reading rule sid ev.now) (seen rule sid es) := by
  ext o
  simp only [seen, Set.mem_ofPred_eq, happened_concat, Set.mem_insert_iff, hcall, true_and]
  exact or_comm

theorem seen_concat_of_ne {es : List Event} {ev : Event} (hcall : ev.call ≠ .evaluateAll) :
    seen rule sid (es ++ [ev]) = seen rule sid es := by
  ext o
  simp only [seen, Set.mem_ofPred_eq, happened_concat, hcall, false_and, or_false]

theorem lt_of_mem_seen {es : List Event} {ev : Event} (horder : Chronological (es ++ [ev]))
    (hcall : ev.call = .evaluateAll) : ∀ o ∈ seen rule sid es, o.1 < ev.now := by
  rintro o ⟨pre, e, post, rfl, he, rfl⟩
  exact (List.pairwise_append.mp horder).2.2 e (by simp) ev (List.mem_singleton.mpr rfl) he hcall

theorem step_evaluateAll {ev : Event} (hcall : ev.call = .evaluateAll) :
    step db ev = (evaluateAll db ev.now).1 := by
  rw [step, hcall]

/-- Before the rule is created it has no active event. -/
theorem alarm_of_notCreated {es : List Event} (h : Along (NotCreated rule) es) :
    (after es).alarm (keyOf rule sid) = none := by
  induction es using List.reverseRecOn with
  | nil => exact alarm_eq_none fun e he => absurd he (Table.notMem_empty e)
  | append_singleton es ev ih =>
    have hbefore := ih h.front
    have hunique := uniqueActive_after es
    rw [after_concat]
    by_cases hcall : ev.call = .evaluateAll
    · rw [step_evaluateAll hcall, hunique.alarm_evaluateAll_of_notCreated (h.last hcall), hbefore]
    · rcases (hunique.alarm_step hcall).2 (keyOf rule sid) with hstep | hstep | hstep
      · rw [hstep, hbefore]
      · rw [hstep, hbefore]
        rfl
      · exact hstep

theorem held_after {es : List Event} (horder : Chronological es) (hkept : Along (Kept rule) es)
    (hdecisive : Along (Decisive rule sid) es) :
    Alarm.Held (seen rule sid es) ((after es).alarm (keyOf rule sid)) := by
  induction es using List.reverseRecOn with
  | nil =>
    rw [alarm_of_notCreated along_nil]
    exact Alarm.held_none _
  | append_singleton es ev ih =>
    have hbefore := ih (List.pairwise_append.mp horder).1 hkept.front hdecisive.front
    have hunique := uniqueActive_after es
    by_cases hcall : ev.call = .evaluateAll
    · rcases hkept.last hcall with hrule | hnot
      · rw [after_concat, step_evaluateAll hcall, hunique.alarm_evaluateAll hrule,
          seen_concat_round hcall]
        refine hbefore.observe (lt_of_mem_seen horder hcall) fun since hpending => ?_
        obtain ⟨e, he, hkey, hstage⟩ := exists_of_alarm hpending
        rcases hdecisive.last hcall ⟨e, he, hkey, stageOf_eq_pending.mp hstage⟩ with
          hviolates | hrecovered
        · exact .inl (violatingRound_iff.mp hviolates)
        · exact .inr hrecovered.reading
      · rw [alarm_of_notCreated hnot]
        exact Alarm.held_none _
    · rw [after_concat, seen_concat_of_ne hcall]
      rcases (hunique.alarm_step hcall).2 (keyOf rule sid) with hstep | hstep | hstep
      · rw [hstep]
        exact hbefore
      · rw [hstep]
        exact Alarm.Held.acknowledge _ _
      · rw [hstep]
        exact Alarm.held_none _

/-- When the event of a rule and a server moves to `FIRING`, every round within the duration
before evaluated a value for them that violated. -/
theorem firing_sustained (rule : AlertRule) (sid : ℕ) {es : List Event} {ev : Event}
    (horder : Chronological (es ++ [ev])) (hkept : Along (Kept rule) (es ++ [ev]))
    (hdecisive : Along (Decisive rule sid) (es ++ [ev])) (hfires : Fires rule sid (after es) ev) :
    ∀ pre e post, es ++ [ev] = pre ++ e :: post → e.call = .evaluateAll →
      ev.now - Clock.seconds rule.durationSeconds ≤ e.now →
        ViolatingRound rule sid (after pre) e.now := by
  obtain ⟨hcall, hnot, fired, hfired, hkey, hstatus⟩ := hfires
  have hunique := uniqueActive_after es
  have hactive : fired.status.isActive = true := by
    rw [hstatus]
    rfl
  have halarm : (after (es ++ [ev])).alarm (keyOf rule sid) = some (.firing, fired.firstFiredAt) := by
    rw [(uniqueActive_after _).alarm_eq (after_concat es ev ▸ hfired) hkey hactive, hstatus]
    rfl
  rcases hkept.last hcall with hrule | hcreated
  · have hheld := held_after (List.pairwise_append.mp horder).1 hkept.front hdecisive.front
    rw [after_concat, step_evaluateAll hcall, hunique.alarm_evaluateAll hrule] at halarm
    rcases Alarm.pending_of_firing halarm with ⟨since, hfiring⟩ | ⟨since, hpending⟩
    · obtain ⟨e, he, hekey, hstage⟩ := exists_of_alarm hfiring
      exact absurd (stageOf_eq_firing.mp hstage) (hnot e he hekey)
    · intro pre e post heq he hwithin
      have hseen : (e.now, (after pre).reading rule sid e.now) ∈ seen rule sid (es ++ [ev]) :=
        ⟨pre, e, post, heq, he, rfl⟩
      rw [seen_concat_round hcall] at hseen
      exact violatingRound_iff.mpr (hheld.of_fires hpending halarm _ hseen hwithin)
  · rw [alarm_of_notCreated hcreated] at halarm
    cases halarm

/-! ## A load between the two thresholds -/

/-- The rule for the load with a hold time of a minute, which ends at a load of two. -/
def holdRule : AlertRule where
  __ := loadRule
  durationSeconds := 60
  recoveryThreshold := some ⟨20000, by decide⟩
  durationSeconds_unsigned := by decide

def loadFiveAgain : MonitorServerMetric := loadSample 60000 ⟨500, five_digits⟩

/-- A load of five that lasts for a minute. -/
theorem firing_sustained_minute :
    ViolatingRound { holdRule with id := 1 } 1 (after [⟨0, withLoads holdRule [loadFive]⟩]) 1000 := by
  have hfirst : ViolatingRound { holdRule with id := 1 } 1
      (after [⟨0, withLoads holdRule [loadFive]⟩]) 1000 := violatingRound_iff.mpr (by decide +kernel)
  have hsecond : ViolatingRound { holdRule with id := 1 } 1
      (after [⟨0, withLoads holdRule [loadFive]⟩, ⟨1000, .evaluateAll⟩]) 61000 :=
    violatingRound_iff.mpr (by decide +kernel)
  refine firing_sustained { holdRule with id := 1 } 1
    (by simp [Chronological, withLoads] : Chronological ([⟨0, withLoads holdRule [loadFive]⟩,
      ⟨1000, .evaluateAll⟩] ++ [⟨61000, .evaluateAll⟩])) ?_ ?_
    ⟨rfl, by decide +kernel, by decide +kernel⟩ _ ⟨1000, .evaluateAll⟩ _ rfl rfl (by decide)
  · simp only [List.cons_append, List.nil_append, along_cons, along_nil, and_true]
    exact ⟨by rintro ⟨⟩, fun _ => .inl (by decide +kernel), fun _ => .inl (by decide +kernel)⟩
  · simp only [List.cons_append, List.nil_append, along_cons, along_nil, and_true]
    exact ⟨by rintro ⟨⟩, fun _ _ => .inl hfirst, fun _ _ => .inl hsecond⟩

/-- A load of three halfway, under the threshold of the server, does not stop the minute. -/
theorem firing_after_normal_load :
    ¬ ∀ (rule : AlertRule) (sid : ℕ) (es : List Event) (ev : Event), Chronological (es ++ [ev]) →
      Along (Kept rule) (es ++ [ev]) → Fires rule sid (after es) ev →
        ∀ pre e post, es ++ [ev] = pre ++ e :: post → e.call = .evaluateAll →
          ev.now - Clock.seconds rule.durationSeconds ≤ e.now →
            ViolatingRound rule sid (after pre) e.now := by
  intro h
  have hall := h { holdRule with id := 1 } 1 [⟨0, withLoads holdRule [loadFive]⟩,
    ⟨1000, .evaluateAll⟩, ⟨30000, withLoads holdRule [loadFive, loadThree]⟩, ⟨31000, .evaluateAll⟩,
    ⟨60000, withLoads holdRule [loadFive, loadThree, loadFiveAgain]⟩] ⟨61000, .evaluateAll⟩
    (by simp [Chronological, withLoads]) ?_ ⟨rfl, by decide +kernel, by decide +kernel⟩
    [⟨0, withLoads holdRule [loadFive]⟩, ⟨1000, .evaluateAll⟩,
      ⟨30000, withLoads holdRule [loadFive, loadThree]⟩] ⟨31000, .evaluateAll⟩ _ rfl rfl (by decide)
  · rw [violatingRound_iff] at hall
    revert hall
    decide +kernel
  · simp only [List.cons_append, List.nil_append, along_cons, along_nil, and_true]
    exact ⟨by rintro ⟨⟩, fun _ => .inl (by decide +kernel), by rintro ⟨⟩,
      fun _ => .inl (by decide +kernel), by rintro ⟨⟩, fun _ => .inl (by decide +kernel)⟩

end OpsMonitor.Alert

import OpsMonitor.Alert.Engine
import OpsMonitor.Library.Alarm
import OpsMonitor.Library.Loops
import OpsMonitor.Library.Text

/-! The active event of a key is an alarm: what the engine and the users do to the events is, for
each key, a step of the alarm. -/

namespace OpsMonitor.Alert
open Library OpsMonitor.Metric

def stageOf : AlertStatus → Alarm.Stage
  | .pending => .pending
  | .firing => .firing
  | .acknowledged | .resolved => .acknowledged

/-- The alarm behind a key. -/
def Db.alarm (db : Db) (key : String) : Alarm.State Time :=
  (db.getActiveByAlertKey key).map fun e => (stageOf e.status, e.firstFiredAt)

/-- The unique key `uk_alert_event_active_key`. -/
def UniqueActive (db : Db) : Prop :=
  ∀ e ∈ db.events, ∀ f ∈ db.events, e.alertKey = f.alertKey → e.status.isActive = true →
    f.status.isActive = true → e = f

variable {db : Db} {now : Time} {key : String} {e : AlertEvent}

/-! ## Reading the active event -/

theorem mem_of_getActive (h : db.getActiveByAlertKey key = some e) :
    e ∈ db.events ∧ e.alertKey = key ∧ e.status.isActive = true := by
  obtain ⟨he, hp⟩ := Table.mem_select.mp (List.mem_of_mem_head? h)
  obtain ⟨hkey, hactive⟩ := of_decide_eq_true hp
  exact ⟨he, hkey, hactive⟩

theorem getActive_eq_none : db.getActiveByAlertKey key = none ↔
    ∀ e ∈ db.events, e.alertKey = key → ¬ e.status.isActive = true := by
  rw [Db.getActiveByAlertKey, List.head?_eq_none_iff, List.eq_nil_iff_forall_not_mem]
  constructor
  · exact fun h e he hkey hactive =>
      h e (Table.mem_select.mpr ⟨he, decide_eq_true ⟨hkey, hactive⟩⟩)
  · intro h e he
    obtain ⟨he, hp⟩ := Table.mem_select.mp he
    obtain ⟨hkey, hactive⟩ := of_decide_eq_true hp
    exact h e he hkey hactive

theorem UniqueActive.getActive (h : UniqueActive db) (he : e ∈ db.events) (hkey : e.alertKey = key)
    (hactive : e.status.isActive = true) : db.getActiveByAlertKey key = some e := by
  cases hget : db.getActiveByAlertKey key with
  | none => exact absurd hactive (getActive_eq_none.mp hget e he hkey)
  | some f =>
    obtain ⟨hf, hfkey, hfactive⟩ := mem_of_getActive hget
    rw [h f hf e he (hfkey.trans hkey.symm) hfactive hactive]

theorem UniqueActive.alarm_eq (h : UniqueActive db) (he : e ∈ db.events) (hkey : e.alertKey = key)
    (hactive : e.status.isActive = true) : db.alarm key = some (stageOf e.status, e.firstFiredAt) := by
  rw [Db.alarm, h.getActive he hkey hactive]
  rfl

theorem alarm_eq_none (h : ∀ e ∈ db.events, e.alertKey = key → ¬ e.status.isActive = true) :
    db.alarm key = none := by
  rw [Db.alarm, getActive_eq_none.mpr h]
  rfl

/-- The alarm of a key looks at the events with that key only. -/
theorem alarm_congr {db' : Db} (hu : UniqueActive db) (hu' : UniqueActive db')
    (h : ∀ e, e.alertKey = key → (e ∈ db'.events ↔ e ∈ db.events)) :
    db'.alarm key = db.alarm key := by
  cases hget : db.getActiveByAlertKey key with
  | none =>
    have hnone := getActive_eq_none.mp hget
    rw [alarm_eq_none hnone, alarm_eq_none fun e he hkey => hnone e ((h e hkey).mp he) hkey]
  | some e =>
    obtain ⟨he, hkey, hactive⟩ := mem_of_getActive hget
    rw [hu.alarm_eq he hkey hactive, hu'.alarm_eq ((h e hkey).mpr he) hkey hactive]

/-! ## Writing -/

/-- The state `db'` differs from `db` in the alarm of one key only. -/
structure SetsAlarm (db : Db) (key : String) (s : Alarm.State Time) (db' : Db) : Prop where
  unique : UniqueActive db'
  alarm : db'.alarm key = s
  other : ∀ k ≠ key, db'.alarm k = db.alarm k

theorem SetsAlarm.rfl' (h : UniqueActive db) (key : String) :
    SetsAlarm db key (db.alarm key) db := ⟨h, rfl, fun _ _ => rfl⟩

theorem SetsAlarm.trans {d db' : Db} {s s' : Alarm.State Time} (h : SetsAlarm db key s d)
    (h' : SetsAlarm d key s' db') : SetsAlarm db key s' db' :=
  ⟨h'.unique, h'.alarm, fun k hk => (h'.other k hk).trans (h.other k hk)⟩

theorem setsAlarm_withEvent (h : UniqueActive db) (he : e ∈ db.events)
    (hactive : e.status.isActive = true) {f : AlertEvent → AlertEvent}
    {hf : ∀ x, Keyed.key (f x) = Keyed.key x} (hkey : ∀ x, (f x).alertKey = x.alertKey) :
    SetsAlarm db e.alertKey
      (if (f e).status.isActive = true then some (stageOf (f e).status, (f e).firstFiredAt) else none)
      (db.withEvent e.id f hf) := by
  have hmem : ∀ x, x ∈ (db.withEvent e.id f hf).events ↔ x = f e ∨ x ∈ db.events ∧ x.id ≠ e.id :=
    fun x => @Table.mem_modify_of_mem _ _ db.events e.id f hf e x he rfl
  -- the events with the key of `e` other than `e` are not active
  have hrest : ∀ x ∈ db.events, x.id ≠ e.id → x.alertKey = e.alertKey →
      ¬ x.status.isActive = true := by
    intro x hx hne hxkey hxactive
    exact hne (congrArg _ (h x hx e he hxkey hxactive hactive))
  have hunique : UniqueActive (db.withEvent e.id f hf) := by
    intro x hx y hy hxy hxactive hyactive
    rcases (hmem x).mp hx with rfl | ⟨hx, hxid⟩
    · rcases (hmem y).mp hy with rfl | ⟨hy, hyid⟩
      · rfl
      · exact absurd hyactive (hrest y hy hyid (hxy.symm.trans (hkey e)))
    · rcases (hmem y).mp hy with rfl | ⟨hy, hyid⟩
      · exact absurd hxactive (hrest x hx hxid (hxy.trans (hkey e)))
      · exact h x hx y hy hxy hxactive hyactive
  refine ⟨hunique, ?_, fun k hk => alarm_congr h hunique fun x hx => ?_⟩
  · split_ifs with hstays
    · exact hunique.alarm_eq ((hmem _).mpr (.inl rfl)) (hkey e) hstays
    · refine alarm_eq_none fun x hx hxkey => ?_
      rcases (hmem x).mp hx with rfl | ⟨hx, hxid⟩
      · exact hstays
      · exact hrest x hx hxid hxkey
  · rw [hmem]
    constructor
    · rintro (rfl | ⟨hx, -⟩)
      · exact absurd (hx.symm.trans (hkey e)) hk
      · exact hx
    · intro hmem
      refine .inr ⟨hmem, fun hid => hk ?_⟩
      rw [← hx, Table.eq_of_key_eq hmem he hid]

theorem setsAlarm_record {d : Db} {s : Alarm.State Time} (h : SetsAlarm db key s d) (eventId : ℕ)
    (oldStatus : Option AlertStatus) (newStatus : AlertStatus) (value : ℚ) (message : String)
    (operatorId : Option ℕ) :
    SetsAlarm db key s (d.record eventId oldStatus newStatus value message operatorId) :=
  ⟨h.unique, h.alarm, h.other⟩

theorem setsAlarm_createEvent (h : UniqueActive db) {rule : AlertRule} {server : OpsServer}
    (hnone : db.getActiveByAlertKey (alertKey rule server) = none) (value : ℚ)
    (threshold : Option ℚ) :
    SetsAlarm db (alertKey rule server) (some (.pending, now))
      (createEvent db rule server value threshold now) := by
  have hfree := getActive_eq_none.mp hnone
  obtain ⟨event, hevent, hkey, hstatus, hsince⟩ : ∃ event : AlertEvent,
      (∀ x, x ∈ (createEvent db rule server value threshold now).events ↔ x ∈ db.events ∨ x = event) ∧
        event.alertKey = alertKey rule server ∧ event.status = .pending ∧ event.firstFiredAt = now :=
    ⟨_, fun x => Table.mem_insert, rfl, rfl, rfl⟩
  have hactive : event.status.isActive = true := by
    rw [hstatus]
    rfl
  have hunique : UniqueActive (createEvent db rule server value threshold now) := by
    intro x hx y hy hxy hxactive hyactive
    rcases (hevent x).mp hx with hx | rfl
    · rcases (hevent y).mp hy with hy | rfl
      · exact h x hx y hy hxy hxactive hyactive
      · exact absurd hxactive (hfree x hx (hxy.trans hkey))
    · rcases (hevent y).mp hy with hy | rfl
      · exact absurd hyactive (hfree y hy (hxy.symm.trans hkey))
      · rfl
  refine ⟨hunique, ?_, fun k hk => alarm_congr h hunique fun x hx => ?_⟩
  · rw [hunique.alarm_eq ((hevent event).mpr (.inr rfl)) hkey hactive, hstatus, hsince]
    rfl
  · rw [hevent]
    refine or_iff_left fun heq => hk ?_
    rw [← hx, heq, hkey]

/-! ## The branches of a round -/

/-- Whole seconds are compared exactly: a float of milliseconds rounds by less than one. -/
theorem le_totalSeconds {d : ℕ} (hd : d < 2 ^ 32) (t : Time) :
    (d : ℚ) ≤ totalSeconds t ↔ Clock.seconds d ≤ t := by
  have hround := abs_le.mp (Double.abs_ofRat_sub_le ((t : ℚ) / 1000))
  have hd' : (d : ℚ) < 2 ^ 32 := by exact_mod_cast hd
  unfold totalSeconds Clock.seconds
  constructor
  · intro hle
    by_contra hlt
    have hlt' : t + 1 ≤ 1000 * (d : ℤ) := not_le.mp hlt
    have hshort : (t : ℚ) / 1000 ≤ d - 1 / 1000 := by
      have hcast : (t : ℚ) + 1 ≤ 1000 * d := by exact_mod_cast hlt'
      linarith
    rcases abs_cases ((t : ℚ) / 1000) with ⟨habs, -⟩ | ⟨habs, -⟩
    · rw [habs] at hround
      linarith [hround.2]
    · rw [habs] at hround
      have hnonneg : (0 : ℚ) ≤ d := d.cast_nonneg
      linarith [hround.2]
  · intro hle
    rcases hle.eq_or_lt with rfl | hlt
    · have hexact : ((1000 * (d : ℤ) : ℤ) : ℚ) / 1000 = d := by
        push_cast
        ring
      rw [hexact, Double.ofRat_natCast (hd.trans (by norm_num))]
    · have hlate : (d : ℚ) + 1 / 1000 ≤ (t : ℚ) / 1000 := by
        have hcast : 1000 * (d : ℚ) + 1 ≤ t := by exact_mod_cast hlt
        linarith
      have hnonneg : (0 : ℚ) ≤ d := d.cast_nonneg
      rw [abs_of_nonneg (by linarith)] at hround
      linarith [hround.1]

/-- An edit of the active event that leaves its status and its start alone. -/
theorem setsAlarm_touch (h : UniqueActive db) (he : e ∈ db.events)
    (hactive : e.status.isActive = true) {f : AlertEvent → AlertEvent}
    {hf : ∀ x, Keyed.key (f x) = Keyed.key x} (hkey : ∀ x, (f x).alertKey = x.alertKey)
    (hstatus : (f e).status = e.status) (hsince : (f e).firstFiredAt = e.firstFiredAt) :
    SetsAlarm db e.alertKey (db.alarm e.alertKey) (db.withEvent e.id f hf) := by
  have hset := @setsAlarm_withEvent db e h he hactive f hf hkey
  rwa [hstatus, hsince, if_pos hactive, ← h.alarm_eq he rfl hactive] at hset

theorem mem_withEvent (he : e ∈ db.events) (f : AlertEvent → AlertEvent)
    (hf : ∀ x, Keyed.key (f x) = Keyed.key x) : f e ∈ (db.withEvent e.id f hf).events :=
  (@Table.mem_modify_of_mem _ _ db.events e.id f hf e (f e) he rfl).mpr (.inl rfl)

theorem setsAlarm_transition {e' : AlertEvent} (h : UniqueActive db) (he : e' ∈ db.events)
    (hid : e'.id = e.id) (hactive : e'.status.isActive = true) (newStatus : AlertStatus) (value : ℚ)
    (message : String) :
    SetsAlarm db e'.alertKey
      (if newStatus.isActive = true then some (stageOf newStatus, e'.firstFiredAt) else none)
      (transition db e newStatus value message) := by
  let f : AlertEvent → AlertEvent := fun e => { e with status := newStatus, currentValue := value }
  have hset := @setsAlarm_withEvent db e' h he hactive f (fun _ => rfl) fun _ => rfl
  rw [hid] at hset
  exact setsAlarm_record hset _ _ _ _ _ _

theorem setsAlarm_handleViolation (h : UniqueActive db) (rule : AlertRule) (server : OpsServer)
    (value : ℚ) (threshold : Option ℚ) :
    SetsAlarm db (alertKey rule server)
      (Alarm.observe (Clock.seconds rule.durationSeconds) now (db.alarm (alertKey rule server))
        .violating)
      (handleViolation db rule server value threshold now).1 := by
  unfold handleViolation
  cases hget : db.getActiveByAlertKey (alertKey rule server) with
  | none =>
    rw [alarm_eq_none (getActive_eq_none.mp hget)]
    exact setsAlarm_createEvent h hget value threshold
  | some e =>
    obtain ⟨he, hkey, hactive⟩ := mem_of_getActive hget
    let f : AlertEvent → AlertEvent := fun e => { e with lastFiredAt := now, currentValue := value }
    have htouch := @setsAlarm_touch db e h he hactive f (fun _ => rfl) (fun _ => rfl) rfl rfl
    have hmem := mem_withEvent he f fun _ => rfl
    have hfire := setsAlarm_transition htouch.unique hmem (rfl : (f e).id = e.id) hactive .firing
      value "达到持续异常时长，触发告警"
    have halarm := h.alarm_eq he rfl hactive
    rw [halarm] at htouch
    rw [← hkey, halarm]
    have hdue : totalSeconds (now - e.firstFiredAt) ≥ rule.durationSeconds ↔
        e.firstFiredAt + Clock.seconds rule.durationSeconds ≤ now := by
      rw [ge_iff_le, le_totalSeconds rule.durationSeconds_unsigned, le_sub_iff_add_le']
    cases hstatus : e.status with
    | pending =>
      rw [hstatus] at htouch
      dsimp only
      by_cases hlate : e.firstFiredAt + Clock.seconds rule.durationSeconds ≤ now
      · have hobserve : Alarm.observe (Clock.seconds rule.durationSeconds) now
            (some (stageOf .pending, e.firstFiredAt)) .violating = some (.firing, e.firstFiredAt) := by
          simp [Alarm.observe, stageOf, hlate]
        rw [if_pos ⟨hstatus, hdue.mpr hlate⟩, hobserve]
        exact htouch.trans hfire
      · have hobserve : Alarm.observe (Clock.seconds rule.durationSeconds) now
            (some (stageOf .pending, e.firstFiredAt)) .violating =
              some (stageOf .pending, e.firstFiredAt) := by
          simp [Alarm.observe, stageOf, hlate]
        rw [if_neg fun hboth => hlate (hdue.mp hboth.2), hobserve]
        exact htouch
    | firing | acknowledged =>
      rw [hstatus] at htouch
      have hne : e.status ≠ .pending := by simp [hstatus]
      dsimp only
      rw [if_neg fun hboth => hne hboth.1]
      exact htouch
    | resolved =>
      rw [hstatus] at hactive
      cases hactive

theorem setsAlarm_handleRecovery (h : UniqueActive db) (rule : AlertRule) (server : OpsServer)
    (value : ℚ) :
    SetsAlarm db (alertKey rule server)
      (Alarm.observe (Clock.seconds rule.durationSeconds) now (db.alarm (alertKey rule server))
        (.normal (isRecovered rule value)))
      (handleRecovery db rule server value now) := by
  unfold handleRecovery
  cases hget : db.getActiveByAlertKey (alertKey rule server) with
  | none =>
    have hoff : db.alarm (alertKey rule server) = none := alarm_eq_none (getActive_eq_none.mp hget)
    have hkeep := SetsAlarm.rfl' h (alertKey rule server)
    rw [hoff] at hkeep ⊢
    simpa [Alarm.observe] using hkeep
  | some e =>
    obtain ⟨he, hkey, hactive⟩ := mem_of_getActive hget
    dsimp only
    cases hrecovered : isRecovered rule value with
    | false => exact SetsAlarm.rfl' h _
    | true =>
      let f : AlertEvent → AlertEvent := fun e => { e with resolvedAt := some now }
      have htouch := @setsAlarm_touch db e h he hactive f (fun _ => rfl) (fun _ => rfl) rfl rfl
      have hmem := mem_withEvent he f fun _ => rfl
      rw [← hkey]
      exact htouch.trans (setsAlarm_transition htouch.unique hmem rfl hactive .resolved value _)

/-! ## A round -/

/-- What a round reads for a rule and a server. -/
def readingOf (rule : AlertRule) (server : OpsServer) (metric : Option MonitorServerMetric)
    (now : Time) : Alarm.Reading :=
  match getValue rule server metric now with
  | none => .missing
  | some value =>
    if compare value rule.operator (effectiveThreshold rule server) then .violating
    else .normal (isRecovered rule value)

theorem setsAlarm_evaluatePair {latest : ℕ → Option MonitorServerMetric} {acc : Db × ℕ}
    (h : UniqueActive acc.1) (rule : AlertRule) (server : OpsServer) :
    SetsAlarm acc.1 (alertKey rule server)
      (Alarm.observe (Clock.seconds rule.durationSeconds) now (acc.1.alarm (alertKey rule server))
        (readingOf rule server (latest server.id) now))
      (evaluatePair now latest acc rule server).1 := by
  unfold evaluatePair readingOf
  cases hvalue : getValue rule server (latest server.id) now with
  | none => exact SetsAlarm.rfl' h _
  | some value =>
    dsimp only
    by_cases hviolates : compare value rule.operator (effectiveThreshold rule server) = true
    · rw [if_pos hviolates, if_pos hviolates]
      exact setsAlarm_handleViolation h rule server value _
    · rw [if_neg hviolates, if_neg hviolates]
      exact setsAlarm_handleRecovery h rule server value

/-- The key of a rule and a server number. -/
def keyOf (rule : AlertRule) (sid : ℕ) : String :=
  toString rule.id ++ ":" ++ toString sid ++ ":" ++ rule.metricType

theorem keyOf_inj {rule rule' : AlertRule} {sid sid' : ℕ} (h : keyOf rule sid = keyOf rule' sid') :
    rule.id = rule'.id ∧ sid = sid' ∧ rule.metricType = rule'.metricType := by
  have hassoc : ∀ r : AlertRule, ∀ n : ℕ, keyOf r n = toString r.id ++ String.singleton ':' ++
      (toString n ++ String.singleton ':' ++ r.metricType) := by
    intro r n
    simp only [keyOf, String.append_assoc]
    rfl
  rw [hassoc, hassoc] at h
  have hcolon := notMem_toString (by decide : ':'.isDigit = false)
  obtain ⟨hid, hrest⟩ := separated_inj (hcolon _) (hcolon _) h
  obtain ⟨hsid, hmetric⟩ := separated_inj (hcolon _) (hcolon _) hrest
  exact ⟨Nat.repr_injective hid, Nat.repr_injective hsid, hmetric⟩

/-- What a round in the state `db` reads for a rule and a server number. -/
def Db.reading (db : Db) (rule : AlertRule) (sid : ℕ) (now : Time) : Alarm.Reading :=
  match db.listActive.find? (·.id = sid) with
  | none => .missing
  | some server => readingOf rule server (getLatestMap db.metrics (db.listActive.map (·.id)) sid) now

theorem evaluateAll_eq (db : Db) (now : Time) :
    evaluateAll db now = (db.getEnabled ×ˢ db.listActive).foldl (fun acc p =>
      evaluatePair now (getLatestMap db.metrics (db.listActive.map (·.id))) acc p.1 p.2) (db, 0) := by
  have hloop : ∀ (rules : List AlertRule) (servers : List OpsServer)
      (f : Db × ℕ → AlertRule → OpsServer → Db × ℕ) (acc : Db × ℕ),
      rules.foldl (fun acc rule => servers.foldl (fun acc server => f acc rule server) acc) acc =
        (rules ×ˢ servers).foldl (fun acc p => f acc p.1 p.2) acc := by
    intro rules servers f acc
    change _ = (rules.flatMap fun rule => servers.map (Prod.mk rule)).foldl _ acc
    rw [List.foldl_flatMap]
    simp only [List.foldl_map]
  unfold evaluateAll
  dsimp only
  split_ifs with hempty
  · rcases hempty with hempty | hempty
    · rw [hempty, List.nil_product]
      rfl
    · rw [hempty, List.product_nil]
      rfl
  · exact hloop _ _ _ _

theorem foldl_evaluatePair {latest : ℕ → Option MonitorServerMetric}
    {l : List (AlertRule × OpsServer)} {acc : Db × ℕ} (h : UniqueActive acc.1) :
    UniqueActive (l.foldl (fun acc p => evaluatePair now latest acc p.1 p.2) acc).1 ∧
      ∀ k, (∀ p ∈ l, alertKey p.1 p.2 ≠ k) →
        (l.foldl (fun acc p => evaluatePair now latest acc p.1 p.2) acc).1.alarm k = acc.1.alarm k := by
  induction l generalizing acc with
  | nil => exact ⟨h, fun _ _ => rfl⟩
  | cons p l ih =>
    have hset := @setsAlarm_evaluatePair now latest acc h p.1 p.2
    obtain ⟨hunique, hother⟩ := ih hset.unique
    refine ⟨hunique, fun k hk => ?_⟩
    rw [List.foldl_cons, hother k fun q hq => hk q (List.mem_cons_of_mem _ hq)]
    exact hset.other k (hk p List.mem_cons_self).symm

theorem UniqueActive.evaluateAll (h : UniqueActive db) : UniqueActive (evaluateAll db now).1 := by
  rw [evaluateAll_eq]
  exact (foldl_evaluatePair h).1

/-- A round is, for each enabled rule and each server, one observation of the alarm. -/
theorem UniqueActive.alarm_evaluateAll (h : UniqueActive db) {rule : AlertRule}
    (hrule : rule ∈ db.getEnabled) (sid : ℕ) :
    (Alert.evaluateAll db now).1.alarm (keyOf rule sid) =
      Alarm.observe (Clock.seconds rule.durationSeconds) now (db.alarm (keyOf rule sid))
        (db.reading rule sid now) := by
  rw [evaluateAll_eq]
  have hpair : ∀ p ∈ db.getEnabled ×ˢ db.listActive, alertKey p.1 p.2 = keyOf rule sid →
      p.1 = rule ∧ p.2 ∈ db.listActive ∧ p.2.id = sid := by
    rintro ⟨r, s⟩ hp hkey
    obtain ⟨hr, hs⟩ := List.mem_product.mp hp
    obtain ⟨hid, hsid, -⟩ := keyOf_inj (hkey : keyOf r s.id = keyOf rule sid)
    exact ⟨Table.eq_of_key_eq (Table.mem_select.mp hr).1 (Table.mem_select.mp hrule).1 hid, hs, hsid⟩
  unfold Db.reading
  cases hfind : db.listActive.find? (·.id = sid) with
  | none =>
    have hnone := List.find?_eq_none.mp hfind
    refine (foldl_evaluatePair h).2 _ fun p hp hkey => ?_
    obtain ⟨-, hs, hsid⟩ := hpair p hp hkey
    exact hnone p.2 hs (decide_eq_true hsid)
  | some server =>
    obtain rfl : server.id = sid := by simpa using List.find?_some hfind
    have hserver := List.mem_of_find?_eq_some hfind
    have hnodup : (db.getEnabled ×ˢ db.listActive).Nodup :=
      (db.rules.nodup_select _).product (db.servers.nodup_select _)
    obtain ⟨before, rest, hsplit⟩ := List.append_of_mem (List.mem_product.mpr ⟨hrule, hserver⟩)
    -- no other pair of the round has the key
    have hother : ∀ p, p ∈ before ∨ p ∈ rest → alertKey p.1 p.2 ≠ keyOf rule server.id := by
      intro p hp hkey
      have hmem : p ∈ db.getEnabled ×ˢ db.listActive := by
        rw [hsplit]
        rcases hp with hp | hp
        · exact List.mem_append_left _ hp
        · exact List.mem_append_right _ (List.mem_cons_of_mem _ hp)
      obtain ⟨hr, hs, hsid⟩ := hpair p hmem hkey
      have heq : p = (rule, server) := Prod.ext hr
        (Table.eq_of_key_eq (Table.mem_select.mp hs).1 (Table.mem_select.mp hserver).1 hsid)
      rw [hsplit, List.nodup_append, List.nodup_cons] at hnodup
      rcases hp with hp | hp
      · exact hnodup.2.2 _ hp _ List.mem_cons_self heq
      · exact hnodup.2.1.1 (heq ▸ hp)
    rw [hsplit, List.foldl_append, List.foldl_cons]
    have hfirst := @foldl_evaluatePair now (getLatestMap db.metrics (db.listActive.map (·.id)))
      before (db, 0) h
    have hset := @setsAlarm_evaluatePair now
      (getLatestMap db.metrics (db.listActive.map (·.id))) _ hfirst.1 rule server
    rw [(foldl_evaluatePair hset.unique).2 _ fun p hp => hother p (.inr hp)]
    have halarm := hset.alarm
    rw [hfirst.2 (alertKey rule server) fun p hp => hother p (.inl hp)] at halarm
    exact halarm

/-! ## Runs -/

/-- An operation of a user raises, or it writes an event that is not resolved. -/
theorem operation_cases (db : Db) (eventId : ℕ) (refusal : AppException) (write : AlertEvent → Db) :
    (∃ x, (getEventOr404 db eventId >>= fun event =>
        if event.status = .resolved then .error (.app refusal) else pure (write event)) =
          .error (.app x) ∧ ∀ event ∈ db.events, event.id = eventId → event.status = .resolved) ∨
      ∃ event ∈ db.events, event.id = eventId ∧ event.status ≠ .resolved ∧
        (getEventOr404 db eventId >>= fun event =>
          if event.status = .resolved then .error (.app refusal) else pure (write event)) =
            .ok (write event) := by
  unfold getEventOr404
  cases hget : db.events.get? eventId with
  | none => exact .inl ⟨_, rfl, fun event he hid => absurd hid (Table.get?_eq_none.mp hget event he)⟩
  | some event =>
    obtain ⟨hmem, hid⟩ := Table.get?_eq_some.mp hget
    by_cases hresolved : event.status = .resolved
    · refine .inl ⟨refusal, if_pos hresolved, fun e he heid => ?_⟩
      rwa [Table.eq_of_key_eq he hmem (heid.trans hid.symm)]
    · exact .inr ⟨event, hmem, hid, hresolved, if_neg hresolved⟩

theorem isActive_of_ne {status : AlertStatus} (h : status ≠ .resolved) : status.isActive = true := by
  cases status with
  | resolved => exact absurd rfl h
  | pending | firing | acknowledged => rfl

/-- What the other calls can do to the alarm of a key. -/
theorem UniqueActive.alarm_step (h : UniqueActive db) {ev : Event} (hcall : ev.call ≠ .evaluateAll) :
    UniqueActive (step db ev) ∧ ∀ k, (step db ev).alarm k = db.alarm k ∨
      (step db ev).alarm k = Alarm.acknowledge (db.alarm k) ∨ (step db ev).alarm k = none := by
  have hsame : UniqueActive db ∧ ∀ k, db.alarm k = db.alarm k ∨
      db.alarm k = Alarm.acknowledge (db.alarm k) ∨ db.alarm k = none := ⟨h, fun _ => .inl rfl⟩
  have hset : ∀ {e : AlertEvent} {s : Alarm.State Time} {d : Db}, SetsAlarm db e.alertKey s d →
      s = Alarm.acknowledge (db.alarm e.alertKey) ∨ s = none →
        UniqueActive d ∧ ∀ k, d.alarm k = db.alarm k ∨
          d.alarm k = Alarm.acknowledge (db.alarm k) ∨ d.alarm k = none := by
    intro e s d hset hs
    refine ⟨hset.unique, fun k => ?_⟩
    by_cases hk : k = e.alertKey
    · rw [hk, hset.alarm]
      exact .inr hs
    · exact .inl (hset.other k hk)
  unfold step
  cases hev : ev.call with
  | evaluateAll => exact absurd hev hcall
  | other servers rules metrics => exact hsame
  | acknowledge eventId operatorId =>
    dsimp only
    unfold acknowledge
    rcases operation_cases db eventId _ _ with ⟨x, herr, -⟩ | ⟨e, he, -, hopen, hok⟩
    · rw [herr]
      exact hsame
    · have hactive := isActive_of_ne hopen
      let f : AlertEvent → AlertEvent := fun e => { e with
        status := .acknowledged
        acknowledgedBy := operatorId
        acknowledgedAt := some ev.now }
      have hwrite := @setsAlarm_withEvent db e h he hactive f (fun _ => rfl) fun _ => rfl
      rw [hok]
      refine hset (setsAlarm_record hwrite _ _ _ _ _ _) (.inl ?_)
      rw [h.alarm_eq he rfl hactive]
      rfl
  | resolve eventId operatorId =>
    dsimp only
    unfold resolve
    rcases operation_cases db eventId _ _ with ⟨x, herr, -⟩ | ⟨e, he, -, hopen, hok⟩
    · rw [herr]
      exact hsame
    · let f : AlertEvent → AlertEvent := fun e => { e with
        status := .resolved
        resolvedAt := some ev.now }
      have hwrite := @setsAlarm_withEvent db e h he (isActive_of_ne hopen) f (fun _ => rfl)
        fun _ => rfl
      rw [hok]
      exact hset (setsAlarm_record hwrite _ _ _ _ _ _) (.inr rfl)

theorem uniqueActive_after (es : List Event) : UniqueActive (after es) := by
  induction es using List.reverseRecOn with
  | nil => exact fun e he => absurd he (Table.notMem_empty e)
  | append_singleton es ev ih =>
    rw [after_concat]
    by_cases hcall : ev.call = .evaluateAll
    · have hstep : step (after es) ev = (evaluateAll (after es) ev.now).1 := by
        rw [step, hcall]
      rw [hstep]
      exact ih.evaluateAll
    · exact (ih.alarm_step hcall).1

end OpsMonitor.Alert

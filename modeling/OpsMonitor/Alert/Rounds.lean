import OpsMonitor.Alert.Recovery

/-! What a round makes of the events, row by row: the active event of a visited rule and server
is evaluated once, new events are inserted for violations without one, and no other row is
written. -/

namespace OpsMonitor.Alert
open Library OpsMonitor.Metric

namespace AlertEvent

def violated (rule : AlertRule) (value : ℚ) (now : Time) (e : AlertEvent) : AlertEvent :=
  { e with
    lastFiredAt := now
    currentValue := value
    status :=
      if e.status = .pending ∧ totalSeconds (now - e.firstFiredAt) ≥ rule.durationSeconds then .firing
      else e.status }

def recovered (value : ℚ) (now : Time) (e : AlertEvent) : AlertEvent :=
  { e with resolvedAt := some now, status := .resolved, currentValue := value }

/-- What the evaluation of a rule and a server makes of their active event. -/
def evaluated (rule : AlertRule) (server : OpsServer) (metric : Option MonitorServerMetric)
    (now : Time) (e : AlertEvent) : AlertEvent :=
  match getValue rule server metric now with
  | none => e
  | some value =>
    if compare value rule.operator (effectiveThreshold rule server) then e.violated rule value now
    else if isRecovered rule value then e.recovered value now
    else e

end AlertEvent

/-- What a list of evaluations makes of an event: only the one with its key counts. -/
def visited (now : Time) (latest : ℕ → Option MonitorServerMetric)
    (l : List (AlertRule × OpsServer)) (e : AlertEvent) : AlertEvent :=
  if e.status.isActive then
    match l.find? fun p => alertKey p.1 p.2 = e.alertKey with
    | some p => e.evaluated p.1 p.2 (latest p.2.id) now
    | none => e
  else e

/-- An event that a round inserts for a rule and a server. -/
structure Inserted (now : Time) (latest : ℕ → Option MonitorServerMetric) (db : Db)
    (rule : AlertRule) (server : OpsServer) (x : AlertEvent) : Prop where
  vacant : db.getActiveByAlertKey (alertKey rule server) = none
  violates : ∃ value, getValue rule server (latest server.id) now = some value ∧
    Violates rule server value
  fresh : db.events.next ≤ x.id
  ruleId : x.ruleId = rule.id
  serverId : x.serverId = server.id
  alertKey : x.alertKey = alertKey rule server
  metricType : x.metricType = rule.metricType
  status : x.status = .pending
  resolvedAt : x.resolvedAt = none

variable {now : Time} {latest : ℕ → Option MonitorServerMetric} {db : Db} {acc : Db × ℕ}
  {rule : AlertRule} {server : OpsServer} {e x : AlertEvent}

/-! ## The columns of an evaluated event -/

/-- The columns that an evaluation leaves alone. -/
structure SameEvent (e x : AlertEvent) : Prop where
  id : x.id = e.id
  ruleId : x.ruleId = e.ruleId
  serverId : x.serverId = e.serverId
  alertKey : x.alertKey = e.alertKey
  metricType : x.metricType = e.metricType

theorem sameEvent_evaluated (rule : AlertRule) (server : OpsServer)
    (metric : Option MonitorServerMetric) (now : Time) (e : AlertEvent) :
    SameEvent e (e.evaluated rule server metric now) := by
  unfold AlertEvent.evaluated
  split
  · exact ⟨rfl, rfl, rfl, rfl, rfl⟩
  · split_ifs <;> exact ⟨rfl, rfl, rfl, rfl, rfl⟩

theorem sameEvent_visited (l : List (AlertRule × OpsServer)) (e : AlertEvent) :
    SameEvent e (visited now latest l e) := by
  unfold visited
  split_ifs
  · split
    · exact sameEvent_evaluated _ _ _ _ e
    · exact ⟨rfl, rfl, rfl, rfl, rfl⟩
  · exact ⟨rfl, rfl, rfl, rfl, rfl⟩

theorem visited_of_ne {l : List (AlertRule × OpsServer)}
    (h : ∀ p ∈ l, alertKey p.1 p.2 ≠ e.alertKey) : visited now latest l e = e := by
  have hnone : (l.find? fun p => alertKey p.1 p.2 = e.alertKey) = none :=
    List.find?_eq_none.mpr fun p hp => by simpa using h p hp
  unfold visited
  rw [hnone]
  split_ifs <;> rfl

theorem visited_of_inactive {l : List (AlertRule × OpsServer)} (h : ¬ e.status.isActive = true) :
    visited now latest l e = e := if_neg h

theorem isActive_of_visited {l : List (AlertRule × OpsServer)}
    (h : (visited now latest l e).status.isActive = true) : e.status.isActive = true := by
  by_contra hactive
  rw [visited_of_inactive hactive] at h
  exact hactive h

theorem visited_cons_of_eq {p : AlertRule × OpsServer} {l : List (AlertRule × OpsServer)}
    (h : alertKey p.1 p.2 = e.alertKey) (hactive : e.status.isActive = true) :
    visited now latest (p :: l) e = e.evaluated p.1 p.2 (latest p.2.id) now := by
  unfold visited
  rw [if_pos hactive, List.find?_cons_of_pos (by simpa using h)]

theorem visited_cons_of_ne {p : AlertRule × OpsServer} {l : List (AlertRule × OpsServer)}
    (h : alertKey p.1 p.2 ≠ e.alertKey) :
    visited now latest (p :: l) e = visited now latest l e := by
  unfold visited
  rw [List.find?_cons_of_neg (by simpa using h)]

/-! ## One rule and one server -/

theorem events_of_active (hget : acc.1.getActiveByAlertKey (alertKey rule server) = some e) :
    (evaluatePair now latest acc rule server).1.events =
      acc.1.events.modify e.id (·.evaluated rule server (latest server.id) now)
        (fun x => (sameEvent_evaluated rule server _ now x).id) := by
  have he := (mem_of_getActive hget).1
  unfold evaluatePair
  cases hvalue : getValue rule server (latest server.id) now with
  | none =>
    refine (Table.modify_eq_self he rfl ?_).symm
    simp [AlertEvent.evaluated, hvalue]
  | some value =>
    dsimp only
    by_cases hviolates : compare value rule.operator (effectiveThreshold rule server) = true
    · rw [if_pos hviolates, handleViolation, hget]
      dsimp only
      let touch : AlertEvent → AlertEvent := fun e => { e with lastFiredAt := now, currentValue := value }
      split_ifs with hdue
      · let fire : AlertEvent → AlertEvent := fun e => { e with status := .firing, currentValue := value }
        have hboth := @Table.modify_modify _ _ acc.1.events e.id touch (fun _ => rfl) fire fun _ => rfl
        refine hboth.trans (Table.modify_congr he rfl ?_)
        simp [touch, fire, AlertEvent.evaluated, hvalue, hviolates, AlertEvent.violated, hdue]
      · refine @Table.modify_congr _ _ acc.1.events e.id touch (fun _ => rfl) _ _ e he rfl ?_
        simp [touch, AlertEvent.evaluated, hvalue, hviolates, AlertEvent.violated, hdue]
    · rw [if_neg hviolates, handleRecovery, hget]
      dsimp only
      split_ifs with hrecovered
      · let stamp : AlertEvent → AlertEvent := fun e => { e with resolvedAt := some now }
        let close : AlertEvent → AlertEvent := fun e => { e with status := .resolved, currentValue := value }
        have hboth := @Table.modify_modify _ _ acc.1.events e.id stamp (fun _ => rfl) close fun _ => rfl
        refine hboth.trans (Table.modify_congr he rfl ?_)
        simp [stamp, close, AlertEvent.evaluated, hvalue, hviolates, AlertEvent.recovered, hrecovered]
      · refine (Table.modify_eq_self he rfl ?_).symm
        simp [AlertEvent.evaluated, hvalue, hviolates, hrecovered]

theorem events_of_vacant (hget : acc.1.getActiveByAlertKey (alertKey rule server) = none) :
    (evaluatePair now latest acc rule server).1.events = acc.1.events ∨
      ∃ event, (evaluatePair now latest acc rule server).1.events = acc.1.events.insert event ∧
        Inserted now latest acc.1 rule server { event with id := acc.1.events.next } := by
  unfold evaluatePair
  cases hvalue : getValue rule server (latest server.id) now with
  | none => exact .inl rfl
  | some value =>
    dsimp only
    by_cases hviolates : compare value rule.operator (effectiveThreshold rule server) = true
    · rw [if_pos hviolates, handleViolation, hget]
      exact .inr ⟨_, rfl, hget, ⟨value, hvalue, hviolates⟩, le_rfl, rfl, rfl, rfl, rfl, rfl, rfl⟩
    · rw [if_neg hviolates, handleRecovery, hget]
      exact .inl rfl

theorem visited_of_vacant (hget : acc.1.getActiveByAlertKey (alertKey rule server) = none)
    (he : e ∈ acc.1.events) : visited now latest [(rule, server)] e = e := by
  by_cases hkey : alertKey rule server = e.alertKey
  · exact visited_of_inactive (getActive_eq_none.mp hget e he hkey.symm)
  · refine visited_of_ne fun p hp => ?_
    rw [List.mem_singleton.mp hp]
    exact hkey

theorem visited_of_active (h : UniqueActive acc.1)
    (hget : acc.1.getActiveByAlertKey (alertKey rule server) = some x) (he : e ∈ acc.1.events) :
    visited now latest [(rule, server)] e =
      if e.id = x.id then e.evaluated rule server (latest server.id) now else e := by
  obtain ⟨hx, hxkey, hxactive⟩ := mem_of_getActive hget
  by_cases hid : e.id = x.id
  · obtain rfl := Table.eq_of_key_eq he hx hid
    rw [if_pos hid]
    exact visited_cons_of_eq hxkey.symm hxactive
  · rw [if_neg hid]
    by_cases hkey : alertKey rule server = e.alertKey
    · refine visited_of_inactive fun hactive => hid ?_
      rw [h e he x hx (hkey.symm.trans hxkey.symm) hactive hxactive]
    · refine visited_of_ne fun p hp => ?_
      rw [List.mem_singleton.mp hp]
      exact hkey

/-- The events after one rule and one server. -/
theorem mem_evaluatePair (h : UniqueActive acc.1) :
    (∀ e ∈ acc.1.events, visited now latest [(rule, server)] e ∈
        (evaluatePair now latest acc rule server).1.events) ∧
      ∀ x ∈ (evaluatePair now latest acc rule server).1.events,
        (∃ e ∈ acc.1.events, x = visited now latest [(rule, server)] e) ∨
          Inserted now latest acc.1 rule server x := by
  cases hget : acc.1.getActiveByAlertKey (alertKey rule server) with
  | none =>
    have hold : ∀ e ∈ acc.1.events, e = visited now latest [(rule, server)] e :=
      fun e he => (visited_of_vacant hget he).symm
    rcases @events_of_vacant now latest acc rule server hget with heq | ⟨event, heq, hnew⟩
    · rw [heq]
      refine ⟨fun e he => ?_, fun x hx => .inl ⟨x, hx, hold x hx⟩⟩
      rwa [← hold e he]
    · rw [heq]
      refine ⟨fun e he => ?_, fun x hx => ?_⟩
      · rw [← hold e he]
        exact Table.mem_insert.mpr (.inl he)
      · rcases Table.mem_insert.mp hx with hx | hx
        · exact .inl ⟨x, hx, hold x hx⟩
        · rw [hx]
          exact .inr hnew
  | some e₀ =>
    have heval : ∀ e ∈ acc.1.events, (if e.id = e₀.id then
        e.evaluated rule server (latest server.id) now else e) =
          visited now latest [(rule, server)] e :=
      fun e he => (visited_of_active h hget he).symm
    rw [events_of_active hget]
    refine ⟨fun e he => Table.mem_modify.mpr ⟨e, he, heval e he⟩, fun x hx => ?_⟩
    obtain ⟨e, he, hx⟩ := Table.mem_modify.mp hx
    exact .inl ⟨e, he, hx.symm.trans (heval e he)⟩

/-! ## All rules and servers -/

theorem visited_cons {p : AlertRule × OpsServer} {l : List (AlertRule × OpsServer)}
    (hp : ∀ q ∈ l, alertKey p.1 p.2 ≠ alertKey q.1 q.2) (e : AlertEvent) :
    visited now latest l (visited now latest [p] e) = visited now latest (p :: l) e := by
  by_cases hkey : alertKey p.1 p.2 = e.alertKey
  · have hrest : ∀ q ∈ l, alertKey q.1 q.2 ≠ (visited now latest [p] e).alertKey := by
      intro q hq
      rw [(sameEvent_visited [p] e).alertKey, ← hkey]
      exact (hp q hq).symm
    rw [visited_of_ne hrest]
    by_cases hactive : e.status.isActive = true
    · rw [visited_cons_of_eq hkey hactive, visited_cons_of_eq hkey hactive]
    · rw [visited_of_inactive hactive, visited_of_inactive hactive]
  · rw [visited_cons_of_ne hkey, visited_cons_of_ne hkey]
    exact congrArg _ (visited_of_ne (l := []) fun q hq => absurd hq List.not_mem_nil)

theorem next_le_evaluatePair (acc : Db × ℕ) (rule : AlertRule) (server : OpsServer) :
    acc.1.events.next ≤ (evaluatePair now latest acc rule server).1.events.next := by
  cases hget : acc.1.getActiveByAlertKey (alertKey rule server) with
  | none =>
    rcases @events_of_vacant now latest acc rule server hget with heq | ⟨event, heq, -⟩
    · rw [heq]
    · rw [heq]
      exact Nat.le_succ _
  | some e =>
    rw [events_of_active hget]
    exact le_rfl

/-- A row that is inserted later in the round could be inserted at its start. -/
theorem inserted_of_evaluatePair (h : UniqueActive acc.1) {p q : AlertRule × OpsServer}
    (hne : alertKey p.1 p.2 ≠ alertKey q.1 q.2)
    (hx : Inserted now latest (evaluatePair now latest acc p.1 p.2).1 q.1 q.2 x) :
    Inserted now latest acc.1 q.1 q.2 x where
  __ := hx
  fresh := (next_le_evaluatePair acc p.1 p.2).trans hx.fresh
  vacant := by
    have hother := (@setsAlarm_evaluatePair now latest acc h p.1 p.2).other _ hne.symm
    have hnone : (evaluatePair now latest acc p.1 p.2).1.alarm (alertKey q.1 q.2) = none := by
      rw [Db.alarm, hx.vacant]
      rfl
    rw [hnone] at hother
    exact Option.map_eq_none_iff.mp hother.symm

/-- No two of the pairs have the same key. -/
def DistinctKeys (l : List (AlertRule × OpsServer)) : Prop :=
  l.Pairwise fun p q => alertKey p.1 p.2 ≠ alertKey q.1 q.2

theorem mem_foldl_evaluatePair {l : List (AlertRule × OpsServer)} {acc : Db × ℕ}
    (h : UniqueActive acc.1) (hl : DistinctKeys l) :
    (∀ e ∈ acc.1.events, visited now latest l e ∈
        (l.foldl (fun acc p => evaluatePair now latest acc p.1 p.2) acc).1.events) ∧
      ∀ x ∈ (l.foldl (fun acc p => evaluatePair now latest acc p.1 p.2) acc).1.events,
        (∃ e ∈ acc.1.events, x = visited now latest l e) ∨
          ∃ p ∈ l, Inserted now latest acc.1 p.1 p.2 x := by
  induction l generalizing acc with
  | nil =>
    have hnone : ∀ e : AlertEvent, visited now latest [] e = e := fun e =>
      visited_of_ne fun p hp => absurd hp List.not_mem_nil
    simp only [List.foldl_nil, hnone]
    exact ⟨fun e he => he, fun x hx => .inl ⟨x, hx, rfl⟩⟩
  | cons p l ih =>
    obtain ⟨hp, hl⟩ := List.pairwise_cons.mp hl
    obtain ⟨hold, hnew⟩ := @mem_evaluatePair now latest acc p.1 p.2 h
    obtain ⟨hold', hnew'⟩ := ih (@setsAlarm_evaluatePair now latest acc h p.1 p.2).unique hl
    constructor
    · intro e he
      rw [← visited_cons hp]
      exact hold' _ (hold e he)
    · intro x hx
      rcases hnew' x hx with ⟨e', he', rfl⟩ | ⟨q, hq, hins⟩
      · rcases hnew e' he' with ⟨e, he, rfl⟩ | hins
        · exact .inl ⟨e, he, visited_cons hp e⟩
        · have hleft : visited now latest l e' = e' := by
            refine visited_of_ne fun q hq => ?_
            rw [hins.alertKey]
            exact (hp q hq).symm
          rw [hleft]
          exact .inr ⟨p, List.mem_cons_self, hins⟩
      · exact .inr ⟨q, List.mem_cons_of_mem _ hq, inserted_of_evaluatePair h (hp q hq) hins⟩

/-- The pairs of a round, and the samples it looks at. -/
def Db.pairs (db : Db) : List (AlertRule × OpsServer) := db.getEnabled ×ˢ db.listActive

def Db.latestMap (db : Db) : ℕ → Option MonitorServerMetric :=
  getLatestMap db.metrics (db.listActive.map (·.id))

theorem eq_of_mem_pairs {p q : AlertRule × OpsServer} (hp : p ∈ db.pairs) (hq : q ∈ db.pairs)
    (hkey : alertKey p.1 p.2 = alertKey q.1 q.2) : p = q := by
  obtain ⟨hr, hs⟩ := List.mem_product.mp hp
  obtain ⟨hr', hs'⟩ := List.mem_product.mp hq
  obtain ⟨hid, hsid, -⟩ := keyOf_inj (hkey : keyOf p.1 p.2.id = keyOf q.1 q.2.id)
  have hrule : p.1 = q.1 := Table.eq_of_key_eq (Table.mem_select.mp hr).1 (Table.mem_select.mp hr').1 hid
  have hserver : p.2 = q.2 :=
    Table.eq_of_key_eq (Table.mem_select.mp hs).1 (Table.mem_select.mp hs').1 hsid
  exact Prod.ext hrule hserver

theorem distinctKeys_pairs (db : Db) : DistinctKeys db.pairs := by
  have hnodup : db.pairs.Nodup := (db.rules.nodup_select _).product (db.servers.nodup_select _)
  exact hnodup.imp_of_mem fun hp hq hne hkey => hne (eq_of_mem_pairs hp hq hkey)

/-- The rows after a round. -/
theorem UniqueActive.mem_evaluateAll (h : UniqueActive db) :
    (∀ e ∈ db.events, visited now db.latestMap db.pairs e ∈ (Alert.evaluateAll db now).1.events) ∧
      ∀ x ∈ (Alert.evaluateAll db now).1.events,
        (∃ e ∈ db.events, x = visited now db.latestMap db.pairs e) ∨
          ∃ p ∈ db.pairs, Inserted now db.latestMap db p.1 p.2 x := by
  rw [evaluateAll_eq]
  exact @mem_foldl_evaluatePair now db.latestMap db.pairs (db, 0) h (distinctKeys_pairs db)

/-- A round evaluates an active event for the one pair that has its key, if there is one. -/
theorem visited_cases (now : Time) (hactive : e.status.isActive = true) :
    (visited now db.latestMap db.pairs e = e ∧
      ∀ rule ∈ db.getEnabled, ∀ server ∈ db.listActive, alertKey rule server ≠ e.alertKey) ∨
      ∃ rule ∈ db.getEnabled, ∃ server ∈ db.listActive, alertKey rule server = e.alertKey ∧
        (∀ r ∈ db.getEnabled, ∀ s ∈ db.listActive, alertKey r s = e.alertKey → r = rule ∧ s = server) ∧
        visited now db.latestMap db.pairs e = e.evaluated rule server (db.latestMap server.id) now := by
  unfold visited
  rw [if_pos hactive]
  cases hfind : db.pairs.find? fun p => alertKey p.1 p.2 = e.alertKey with
  | none =>
    refine .inl ⟨rfl, fun rule hrule server hserver hkey => ?_⟩
    exact List.find?_eq_none.mp hfind (rule, server) (List.mem_product.mpr ⟨hrule, hserver⟩)
      (decide_eq_true hkey)
  | some p =>
    have hp := List.mem_of_find?_eq_some hfind
    have hpkey : alertKey p.1 p.2 = e.alertKey := by simpa using List.find?_some hfind
    obtain ⟨hrule, hserver⟩ := List.mem_product.mp hp
    refine .inr ⟨p.1, hrule, p.2, hserver, hpkey, fun r hr s hs hkey => ?_, rfl⟩
    have hmem : (r, s) ∈ db.pairs := List.mem_product.mpr ⟨hr, hs⟩
    have heq := eq_of_mem_pairs hmem hp (hkey.trans hpkey.symm)
    exact ⟨congrArg Prod.fst heq, congrArg Prod.snd heq⟩

/-- A round at `now` finds the event under the key of an enabled rule and an active server, and
their value counts as recovered. -/
def Recovers (db : Db) (now : Time) (e : AlertEvent) : Prop :=
  ∃ rule ∈ db.getEnabled, ∃ server ∈ db.listActive, alertKey rule server = e.alertKey ∧
    ∃ value, db.valueOf rule server now = some value ∧ ¬ Violates rule server value ∧
      isRecovered rule value = true

/-- A round at `now` moves the event to `FIRING`. -/
def Promotes (db : Db) (now : Time) (e : AlertEvent) : Prop :=
  e.status = .pending ∧ ∃ rule ∈ db.getEnabled, ∃ server ∈ db.listActive,
    alertKey rule server = e.alertKey ∧ ∃ value, db.valueOf rule server now = some value ∧
      Violates rule server value ∧ totalSeconds (now - e.firstFiredAt) ≥ rule.durationSeconds

/-- What a round makes of the status of an active event. -/
theorem status_visited (now : Time) (hactive : e.status.isActive = true) :
    (Recovers db now e ∧ ¬ Promotes db now e ∧
        (visited now db.latestMap db.pairs e).status = .resolved) ∨
      (¬ Recovers db now e ∧ Promotes db now e ∧
        (visited now db.latestMap db.pairs e).status = .firing) ∨
      (¬ Recovers db now e ∧ ¬ Promotes db now e ∧
        (visited now db.latestMap db.pairs e).status = e.status) := by
  rcases visited_cases now hactive with ⟨heq, hnone⟩ | ⟨rule, hrule, server, hserver, hkey, honly, heq⟩
  · rw [heq]
    refine .inr (.inr ⟨?_, ?_, rfl⟩)
    · rintro ⟨rule, hrule, server, hserver, hkey, -⟩
      exact hnone rule hrule server hserver hkey
    · rintro ⟨-, rule, hrule, server, hserver, hkey, -⟩
      exact hnone rule hrule server hserver hkey
  · -- the pair with the key decides
    have hrecovers : Recovers db now e ↔ ∃ value, db.valueOf rule server now = some value ∧
        ¬ Violates rule server value ∧ isRecovered rule value = true := by
      constructor
      · rintro ⟨r, hr, s, hs, hrs, hvalue⟩
        obtain ⟨rfl, rfl⟩ := honly r hr s hs hrs
        exact hvalue
      · exact fun hvalue => ⟨rule, hrule, server, hserver, hkey, hvalue⟩
    have hpromotes : Promotes db now e ↔ e.status = .pending ∧
        ∃ value, db.valueOf rule server now = some value ∧ Violates rule server value ∧
          totalSeconds (now - e.firstFiredAt) ≥ rule.durationSeconds := by
      constructor
      · rintro ⟨hpending, r, hr, s, hs, hrs, hvalue⟩
        obtain ⟨rfl, rfl⟩ := honly r hr s hs hrs
        exact ⟨hpending, hvalue⟩
      · exact fun ⟨hpending, hvalue⟩ => ⟨hpending, rule, hrule, server, hserver, hkey, hvalue⟩
    have hlatest : getValue rule server (db.latestMap server.id) now = db.valueOf rule server now := rfl
    rw [heq, hrecovers, hpromotes]
    dsimp only [AlertEvent.evaluated]
    rw [hlatest]
    cases db.valueOf rule server now with
    | none => simp
    | some value =>
      dsimp only [Violates]
      by_cases hviolates : compare value rule.operator (effectiveThreshold rule server) = true
      · rw [if_pos hviolates]
        dsimp only [AlertEvent.violated]
        by_cases hdue : e.status = .pending ∧ totalSeconds (now - e.firstFiredAt) ≥ rule.durationSeconds
        · rw [if_pos hdue]
          exact .inr (.inl ⟨by simp [hviolates], ⟨hdue.1, value, rfl, hviolates, hdue.2⟩, rfl⟩)
        · rw [if_neg hdue]
          refine .inr (.inr ⟨by simp [hviolates], ?_, rfl⟩)
          exact fun ⟨hpending, v, hv, _, hlate⟩ => hdue ⟨hpending, hlate⟩
      · rw [if_neg hviolates]
        by_cases hrecovered : isRecovered rule value = true
        · rw [if_pos hrecovered]
          exact .inl ⟨⟨value, rfl, hviolates, hrecovered⟩, by simp [hviolates], rfl⟩
        · rw [if_neg hrecovered]
          exact .inr (.inr ⟨by simp [hrecovered], by simp [hviolates], rfl⟩)

end OpsMonitor.Alert

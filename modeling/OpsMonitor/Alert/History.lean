import OpsMonitor.Alert.Recovery
import OpsMonitor.Library.Journal

/-! The log of an event tells its whole history. Three operations in two classes change the
status of an event, and each writes the entry of its own change. -/

namespace OpsMonitor.Alert
open Library OpsMonitor.Metric

/-- The log of an event, in the order of the ids. -/
def logsOf (logs : Table AlertEventLog) (eventId : ℕ) : List AlertEventLog :=
  logs.select fun l => l.eventId = eventId

/-- The changes of status that the log may tell. -/
def Moves : Option AlertStatus → AlertStatus → Prop
  | none, new => new = .pending
  | some old, .firing => old = .pending
  | some old, .acknowledged | some old, .resolved => old.isActive = true
  | some _, .pending => False

theorem not_moves_of_resolved (new : AlertStatus) : ¬ Moves (some .resolved) new := by
  cases new <;> simp [Moves, AlertStatus.isActive]

structure Told (logs : Table AlertEventLog) (e : AlertEvent) : Prop where
  replays : Replays AlertEventLog.oldStatus AlertEventLog.newStatus Moves (logsOf logs e.id) e.status
  resolvedAt : e.resolvedAt.isSome = true ↔ e.status = .resolved

/-- Every event is told by its log, and there are no entries about later events. -/
structure Logged (db : Db) : Prop where
  told : ∀ e ∈ db.events, Told db.logs e
  below : ∀ l ∈ db.logs, l.eventId < db.events.next

variable {db : Db} {now : Time} {e : AlertEvent} {f : AlertEvent → AlertEvent}
  {hf : ∀ r, Keyed.key (f r) = Keyed.key r}

/-! ## Writing -/

theorem logsOf_record (db : Db) (eventId : ℕ) (oldStatus : Option AlertStatus)
    (newStatus : AlertStatus) (value : ℚ) (message : String) (operatorId : Option ℕ) (k : ℕ) :
    logsOf (db.record eventId oldStatus newStatus value message operatorId).logs k =
      logsOf db.logs k ++ if eventId = k then
        [⟨db.logs.next, eventId, oldStatus, newStatus, value, message, operatorId⟩] else [] := by
  refine (Table.select_insert _ _ _).trans ?_
  simp only [decide_eq_true_eq]
  rfl

theorem withEvent_withEvent (db : Db) (id : ℕ) {g : AlertEvent → AlertEvent}
    {hg : ∀ r, Keyed.key (g r) = Keyed.key r} :
    (db.withEvent id f hf).withEvent id g hg =
      db.withEvent id (fun r => g (f r)) fun r => (hg (f r)).trans (hf r) := by
  unfold Db.withEvent
  rw [Table.modify_modify]

/-- A write of an active event together with the entry of its change. -/
theorem Logged.write (h : Logged db) (he : e ∈ db.events) {newStatus : AlertStatus}
    (hmoves : Moves (some e.status) newStatus) (hstatus : (f e).status = newStatus)
    (hresolved : (f e).resolvedAt.isSome = true ↔ newStatus = .resolved) (value : ℚ)
    (message : String) (operatorId : Option ℕ) :
    Logged ((db.withEvent e.id f hf).record e.id (some e.status) newStatus value message
      operatorId) := by
  constructor
  · intro x hx
    rcases (@Table.mem_modify_of_mem _ _ db.events e.id f hf e x he rfl).mp hx with rfl | ⟨hx, hne⟩
    · have hid : (f e).id = e.id := hf e
      refine ⟨?_, by rw [hresolved, hstatus]⟩
      rw [logsOf_record, if_pos hid.symm, hid, hstatus]
      exact (h.told e he).replays.concat rfl hmoves
    · have hlogs := logsOf_record (db.withEvent e.id f hf) e.id (some e.status) newStatus value
        message operatorId x.id
      rw [if_neg (show e.id ≠ x.id from Ne.symm hne), List.append_nil] at hlogs
      obtain ⟨hreplays, hat⟩ := h.told x hx
      exact ⟨hlogs ▸ hreplays, hat⟩
  · intro l hl
    rcases Table.mem_insert.mp hl with hl | rfl
    · exact h.below l hl
    · exact Table.key_lt he

/-- A write that leaves the status alone. -/
theorem Logged.touch (h : Logged db) (he : e ∈ db.events) (hstatus : (f e).status = e.status)
    (hresolved : (f e).resolvedAt = e.resolvedAt) : Logged (db.withEvent e.id f hf) := by
  refine ⟨fun x hx => ?_, h.below⟩
  rcases (@Table.mem_modify_of_mem _ _ db.events e.id f hf e x he rfl).mp hx with rfl | ⟨hx, -⟩
  · have hid : (f e).id = e.id := hf e
    obtain ⟨hreplays, hat⟩ := h.told e he
    refine ⟨?_, by rw [hresolved, hstatus]; exact hat⟩
    rw [hid, hstatus]
    exact hreplays
  · exact h.told x hx

theorem Logged.createEvent (h : Logged db) (rule : AlertRule) (server : OpsServer) (value : ℚ)
    (threshold : Option ℚ) : Logged (createEvent db rule server value threshold now) := by
  obtain ⟨event, hevents, hstatus, hat, hid⟩ : ∃ event : AlertEvent,
      (∀ x, x ∈ (Alert.createEvent db rule server value threshold now).events ↔
        x ∈ db.events ∨ x = event) ∧
        event.status = .pending ∧ event.resolvedAt = none ∧ event.id = db.events.next :=
    ⟨_, fun x => Table.mem_insert, rfl, rfl, rfl⟩
  have hlogs := fun k => logsOf_record db db.events.next none .pending value
    "检测到异常，进入待确认" none k
  constructor
  · intro x hx
    rcases (hevents x).mp hx with hx | rfl
    · have hne : db.events.next ≠ x.id := (Table.key_lt hx).ne'
      have hold := hlogs x.id
      rw [if_neg hne, List.append_nil] at hold
      obtain ⟨hreplays, hat⟩ := h.told x hx
      exact ⟨hold ▸ hreplays, hat⟩
    · -- no entry is about an event that is not there yet
      have hfree : logsOf db.logs db.events.next = [] := by
        refine List.eq_nil_iff_forall_not_mem.mpr fun l hl => ?_
        obtain ⟨hl, heq⟩ := Table.mem_select.mp hl
        exact (h.below l hl).ne (of_decide_eq_true heq)
      have hnew := hlogs db.events.next
      rw [hfree, if_pos rfl, List.nil_append] at hnew
      refine ⟨?_, by rw [hat, hstatus]; decide⟩
      have hreplays := @Replays.singleton _ _ AlertEventLog.oldStatus AlertEventLog.newStatus Moves
        ⟨db.logs.next, db.events.next, none, .pending, value, "检测到异常，进入待确认", none⟩ rfl rfl
      rw [hid, hstatus]
      exact hnew ▸ hreplays
  · intro l hl
    have hnext : (Alert.createEvent db rule server value threshold now).events.next =
        db.events.next + 1 := rfl
    rw [hnext]
    rcases Table.mem_insert.mp hl with hl | rfl
    · exact (h.below l hl).trans db.events.next.lt_succ_self
    · exact db.events.next.lt_succ_self

/-! ## The operations -/

theorem Logged.handleViolation (h : Logged db) (rule : AlertRule) (server : OpsServer) (value : ℚ)
    (threshold : Option ℚ) : Logged (handleViolation db rule server value threshold now).1 := by
  unfold Alert.handleViolation
  cases hget : db.getActiveByAlertKey (alertKey rule server) with
  | none => exact h.createEvent rule server value threshold
  | some e =>
    have he := (mem_of_getActive hget).1
    let f : AlertEvent → AlertEvent := fun e => { e with lastFiredAt := now, currentValue := value }
    have htouch := @Logged.touch db e f (fun _ => rfl) h he rfl rfl
    dsimp only
    split_ifs with hdue
    · let g : AlertEvent → AlertEvent := fun e => { e with status := .firing, currentValue := value }
      have hmem := mem_withEvent he f fun _ => rfl
      have hopen : ¬ (e.resolvedAt.isSome = true) := by
        simp [(h.told e he).resolvedAt, hdue.1]
      exact @Logged.write _ (f e) g (fun _ => rfl) htouch hmem .firing hdue.1 rfl
        (iff_of_false hopen (by simp)) value _ none
    · exact htouch

theorem Logged.handleRecovery (h : Logged db) (rule : AlertRule) (server : OpsServer) (value : ℚ) :
    Logged (handleRecovery db rule server value now) := by
  unfold Alert.handleRecovery
  cases hget : db.getActiveByAlertKey (alertKey rule server) with
  | none => exact h
  | some e =>
    obtain ⟨he, -, hactive⟩ := mem_of_getActive hget
    dsimp only
    split_ifs
    · let f : AlertEvent → AlertEvent := fun e =>
        { e with resolvedAt := some now, status := .resolved, currentValue := value }
      rw [transition, withEvent_withEvent]
      exact @Logged.write db e f (fun _ => rfl) h he .resolved hactive rfl (iff_of_true rfl rfl)
        value _ none
    · exact h

theorem Logged.evaluatePair {latest : ℕ → Option MonitorServerMetric} {acc : Db × ℕ}
    (h : Logged acc.1) (rule : AlertRule) (server : OpsServer) :
    Logged (evaluatePair now latest acc rule server).1 := by
  unfold Alert.evaluatePair
  cases getValue rule server (latest server.id) now with
  | none => exact h
  | some value =>
    dsimp only
    by_cases hviolates : compare value rule.operator (effectiveThreshold rule server) = true
    · rw [if_pos hviolates]
      exact h.handleViolation rule server value _
    · rw [if_neg hviolates]
      exact h.handleRecovery rule server value

theorem Logged.evaluateAll (h : Logged db) : Logged (evaluateAll db now).1 := by
  rw [evaluateAll_eq]
  have hloop : ∀ (l : List (AlertRule × OpsServer)) (latest : ℕ → Option MonitorServerMetric)
      (acc : Db × ℕ), Logged acc.1 →
        Logged (l.foldl (fun acc p => Alert.evaluatePair now latest acc p.1 p.2) acc).1 := by
    intro l latest
    induction l with
    | nil => exact fun acc hacc => hacc
    | cons p l ih => exact fun acc hacc => ih _ (hacc.evaluatePair p.1 p.2)
  exact hloop _ _ _ h

theorem Logged.step (h : Logged db) (ev : Event) : Logged (step db ev) := by
  unfold Alert.step
  cases ev.call with
  | evaluateAll => exact h.evaluateAll
  | other servers rules metrics => exact ⟨h.told, h.below⟩
  | acknowledge eventId operatorId =>
    dsimp only
    unfold acknowledge
    rcases operation_cases db eventId _ _ with ⟨x, herr, -⟩ | ⟨e, he, -, hopen, hok⟩
    · rw [herr]
      exact h
    · let f : AlertEvent → AlertEvent := fun e => { e with
        status := .acknowledged
        acknowledgedBy := operatorId
        acknowledgedAt := some ev.now }
      have hat : ¬ (e.resolvedAt.isSome = true) := by
        rwa [(h.told e he).resolvedAt]
      rw [hok]
      exact @Logged.write db e f (fun _ => rfl) h he .acknowledged (isActive_of_ne hopen) rfl
        (iff_of_false hat nofun) _ _ _
  | resolve eventId operatorId =>
    dsimp only
    unfold resolve
    rcases operation_cases db eventId _ _ with ⟨x, herr, -⟩ | ⟨e, he, -, hopen, hok⟩
    · rw [herr]
      exact h
    · let f : AlertEvent → AlertEvent := fun e => { e with
        status := .resolved
        resolvedAt := some ev.now }
      rw [hok]
      exact @Logged.write db e f (fun _ => rfl) h he .resolved (isActive_of_ne hopen) rfl
        (iff_of_true rfl rfl) _ _ _

theorem logged_after (es : List Event) : Logged (after es) := by
  induction es using List.reverseRecOn with
  | nil => exact ⟨fun e he => absurd he (Table.notMem_empty e),
      fun l hl => absurd hl (Table.notMem_empty l)⟩
  | append_singleton es ev ih =>
    rw [after_concat]
    exact ih.step ev

/-- What the entries of an event say, in the order of the ids. -/
structure History (l : List AlertEventLog) (e : AlertEvent) : Prop where
  created : ∃ a, l.head? = some a ∧ a.oldStatus = none ∧ a.newStatus = .pending
  linked : l.IsChain fun a b => b.oldStatus = some a.newStatus
  current : l.getLast?.map AlertEventLog.newStatus = some e.status
  moves : ∀ a ∈ l, Moves a.oldStatus a.newStatus
  closed : ∀ before a later, l = before ++ a :: later → a.newStatus = .resolved → later = []
  resolvedAt : e.resolvedAt.isSome = true ↔ e.status = .resolved

theorem log_replays_event (es : List Event) (e : AlertEvent) (he : e ∈ (after es).events) :
    History (logsOf (after es).logs e.id) e := by
  obtain ⟨hreplays, hat⟩ := (logged_after es).told e he
  refine ⟨?_, hreplays.linked, hreplays.last, hreplays.steps, ?_, hat⟩
  · obtain ⟨a, hhead, hold⟩ := Option.map_eq_some_iff.mp hreplays.first
    have hmoves := hreplays.steps a (List.mem_of_mem_head? hhead)
    rw [hold] at hmoves
    exact ⟨a, hhead, hold, hmoves⟩
  · intro before a later hl hresolved
    refine hreplays.nothing_follows (fun new => ?_) hl
    rw [hresolved]
    exact not_moves_of_resolved new

/-- An event that starts, fires, is acknowledged and recovers. -/
def recoveredRun : List Event :=
  [⟨0, withLoads loadRule [loadFive]⟩, ⟨1000, .evaluateAll⟩, ⟨11000, .evaluateAll⟩,
    ⟨20000, .acknowledge 1 (some 7)⟩, ⟨60000, withLoads loadRule [loadFive, loadSample 60000 ⟨50, half_digits⟩]⟩,
    ⟨61000, .evaluateAll⟩]

theorem log_replays_event_recovered : ∃ e ∈ (after recoveredRun).events,
    e.status = .resolved ∧ (logsOf (after recoveredRun).logs e.id).length = 4 ∧
      History (logsOf (after recoveredRun).logs e.id) e := by
  obtain ⟨e, he, hresolved, hlength⟩ : ∃ e ∈ (after recoveredRun).events,
      e.status = .resolved ∧ (logsOf (after recoveredRun).logs e.id).length = 4 := by decide +kernel
  exact ⟨e, he, hresolved, hlength, log_replays_event recoveredRun e he⟩

end OpsMonitor.Alert

import OpsMonitor.Alert.Rounds

/-! The operations on a database that checks the unique key `uk_alert_event_active_key` at every
write of an event. No write of any run is refused, so the checks change nothing. -/

namespace OpsMonitor.Alert
open Library OpsMonitor.Metric

/-- The row `x` is new or changed, and another active row has its key. -/
def Duplicate (events : Table AlertEvent) (x : AlertEvent) : Prop :=
  events.get? x.id ≠ some x ∧ x.status.isActive = true ∧
    ∃ r ∈ events, r.id ≠ x.id ∧ r.alertKey = x.alertKey ∧ r.status.isActive = true

instance (events : Table AlertEvent) (x : AlertEvent) : Decidable (Duplicate events x) :=
  inferInstanceAs (Decidable (_ ∧ _ ∧ _))

/-- The write that takes the state `db` to `db'`. -/
def flush (db db' : Db) : Except Failure Db :=
  if ∃ x ∈ db'.events, Duplicate db.events x then .error (.integrity "uk_alert_event_active_key")
  else .ok db'

namespace Enforced

/-- A rule and a server write at most one event, in one flush. -/
def evaluatePair (now : Time) (latest : ℕ → Option MonitorServerMetric) (acc : Db × ℕ)
    (rule : AlertRule) (server : OpsServer) : Except Failure (Db × ℕ) := do
  let (db, created) := Alert.evaluatePair now latest acc rule server
  let db ← flush acc.1 db
  pure (db, created)

def evaluateAll (db : Db) (now : Time) : Except Failure (Db × ℕ) :=
  let rules := db.getEnabled
  let servers := db.listActive
  if rules = [] ∨ servers = [] then .ok (db, 0)
  else
    let latest := getLatestMap db.metrics (servers.map (·.id))
    rules.foldlM (fun acc rule =>
      servers.foldlM (fun acc server => evaluatePair now latest acc rule server) acc) (db, 0)

def perform (db : Db) (ev : Event) : Except Failure Db :=
  match ev.call with
  | .evaluateAll => do
    let (db', _) ← evaluateAll db ev.now
    pure db'
  | .acknowledge eventId operatorId => do
    let db' ← acknowledge db ev.now eventId operatorId
    flush db db'
  | .resolve eventId operatorId => do
    let db' ← resolve db ev.now eventId operatorId
    flush db db'
  | .other servers rules metrics =>
    .ok { db with servers := servers, rules := rules, metrics := metrics }

/-- A call that raises is rolled back. -/
def step (db : Db) (ev : Event) : Db :=
  match perform db ev with
  | .ok db' => db'
  | .error _ => db

def after (es : List Event) : Db := run step .empty es

end Enforced

variable {db db' : Db} {now : Time} {latest : ℕ → Option MonitorServerMetric} {acc : Db × ℕ}
  {rule : AlertRule} {server : OpsServer} {e x : AlertEvent}

/-! ## No write is refused -/

/-- Active rows only come from active rows with the same key, or have a key that was free. -/
theorem flush_eq_ok (h : UniqueActive db)
    (hrows : ∀ x ∈ db'.events, x.status.isActive = true →
      (∃ e ∈ db.events, x.id = e.id ∧ x.alertKey = e.alertKey ∧ e.status.isActive = true) ∨
        db.getActiveByAlertKey x.alertKey = none) : flush db db' = .ok db' := by
  refine if_neg ?_
  rintro ⟨x, hx, -, hactive, r, hr, hne, hkey, hractive⟩
  rcases hrows x hx hactive with ⟨e, he, hid, hekey, heactive⟩ | hfree
  · have heq := h r hr e he (hkey.trans hekey) hractive heactive
    exact hne (heq ▸ hid.symm)
  · exact getActive_eq_none.mp hfree r hr hkey hractive

theorem evaluatePair_enforced (h : UniqueActive acc.1) :
    Enforced.evaluatePair now latest acc rule server = .ok (evaluatePair now latest acc rule server) := by
  have hflush : flush acc.1 (evaluatePair now latest acc rule server).1 =
      .ok (evaluatePair now latest acc rule server).1 := by
    refine flush_eq_ok h fun x hx hactive => ?_
    rcases (mem_evaluatePair h).2 x hx with ⟨e, he, rfl⟩ | hins
    · have hsame : SameEvent e (visited now latest [(rule, server)] e) := sameEvent_visited _ e
      exact .inl ⟨e, he, hsame.id, hsame.alertKey, isActive_of_visited hactive⟩
    · rw [hins.alertKey]
      exact .inr hins.vacant
  unfold Enforced.evaluatePair
  dsimp only
  rw [hflush]
  rfl

theorem evaluateAll_enforced (h : UniqueActive db) :
    Enforced.evaluateAll db now = .ok (evaluateAll db now) := by
  unfold Enforced.evaluateAll evaluateAll
  dsimp only
  split_ifs with hempty
  · rfl
  · have hpair : ∀ rule (acc : Db × ℕ) server, UniqueActive acc.1 →
        Enforced.evaluatePair now db.latestMap acc rule server =
          .ok (evaluatePair now db.latestMap acc rule server) ∧
            UniqueActive (evaluatePair now db.latestMap acc rule server).1 :=
      fun rule acc server hacc =>
        ⟨evaluatePair_enforced hacc, (setsAlarm_evaluatePair hacc rule server).unique⟩
    exact (foldlM_eq_ok (P := fun acc : Db × ℕ => UniqueActive acc.1)
      (fun acc rule hacc => foldlM_eq_ok (fun acc server => hpair rule acc server) hacc) h).1

/-- A call fails only where it fails without the checks. -/
theorem perform_enforced (h : UniqueActive db) (ev : Event) :
    (∃ e, Enforced.perform db ev = .error (.app e) ∧ step db ev = db) ∨
      Enforced.perform db ev = .ok (step db ev) := by
  have hwrite : ∀ {e : AlertEvent} {f : AlertEvent → AlertEvent}
      {hf : ∀ r, Keyed.key (f r) = Keyed.key r} {d : Db}, e ∈ db.events →
        e.status ≠ .resolved → (∀ r, (f r).alertKey = r.alertKey) →
          d.events = db.events.modify e.id f hf → flush db d = .ok d := by
    intro e f hf d he hopen hkey hd
    refine flush_eq_ok h fun x hx hactive => .inl ?_
    rw [hd] at hx
    rcases (@Table.mem_modify_of_mem _ _ db.events e.id f hf e x he rfl).mp hx with rfl | ⟨hx, -⟩
    · exact ⟨e, he, hf e, hkey e, isActive_of_ne hopen⟩
    · exact ⟨x, hx, rfl, rfl, hactive⟩
  unfold Enforced.perform step
  cases ev.call with
  | evaluateAll =>
    dsimp only
    rw [evaluateAll_enforced h]
    exact .inr rfl
  | other servers rules metrics => exact .inr rfl
  | acknowledge eventId operatorId =>
    dsimp only
    unfold acknowledge
    rcases operation_cases db eventId _ _ with ⟨x, herr, -⟩ | ⟨e, he, -, hopen, hok⟩
    · rw [herr]
      exact .inl ⟨x, rfl, rfl⟩
    · let f : AlertEvent → AlertEvent := fun e => { e with
        status := .acknowledged
        acknowledgedBy := operatorId
        acknowledgedAt := some ev.now }
      rw [hok]
      exact .inr (@hwrite e f (fun _ => rfl) _ he hopen (fun _ => rfl) rfl)
  | resolve eventId operatorId =>
    dsimp only
    unfold resolve
    rcases operation_cases db eventId _ _ with ⟨x, herr, -⟩ | ⟨e, he, -, hopen, hok⟩
    · rw [herr]
      exact .inl ⟨x, rfl, rfl⟩
    · let f : AlertEvent → AlertEvent := fun e => { e with
        status := .resolved
        resolvedAt := some ev.now }
      rw [hok]
      exact .inr (@hwrite e f (fun _ => rfl) _ he hopen (fun _ => rfl) rfl)

theorem step_enforced (h : UniqueActive db) (ev : Event) : Enforced.step db ev = step db ev := by
  unfold Enforced.step
  rcases perform_enforced h ev with ⟨e, herr, hsame⟩ | hok
  · rw [herr, hsame]
  · rw [hok]

theorem after_enforced (es : List Event) : Enforced.after es = after es := by
  induction es using List.reverseRecOn with
  | nil => rfl
  | append_singleton es ev ih =>
    have hstep : Enforced.after (es ++ [ev]) = Enforced.step (Enforced.after es) ev :=
      run_concat _ _ _ _
    rw [hstep, ih, step_enforced (uniqueActive_after es), after_concat]

/-! ## One active event for a key -/

/-- In every run at most one event of a key is active, and the lookup finds it; no write is refused
by the unique key, and the key of a rule and a server is that of no others. -/
theorem one_active_event (es : List Event) :
    (∀ key, ((Enforced.after es).events.select fun e =>
        e.alertKey = key ∧ e.status.isActive).length ≤ 1) ∧
      (∀ e ∈ (Enforced.after es).events, (e.status.isActive = true ↔
        e.status = .pending ∨ e.status = .firing ∨ e.status = .acknowledged) ∧
          (e.status.isActive = true →
            (Enforced.after es).getActiveByAlertKey e.alertKey = some e)) ∧
      (∀ ev key, Enforced.perform (Enforced.after es) ev ≠ .error (.integrity key)) ∧
      ∀ rule server rule' server', alertKey rule server = alertKey rule' server' ↔
        rule.id = rule'.id ∧ server.id = server'.id ∧ rule.metricType = rule'.metricType := by
  rw [after_enforced]
  have hunique := uniqueActive_after es
  refine ⟨fun key => ?_, fun e he => ⟨?_, fun hactive => hunique.getActive he rfl hactive⟩, ?_, ?_⟩
  · have hsame : ∀ e ∈ (after es).events.select fun e => e.alertKey = key ∧ e.status.isActive,
        ∀ f ∈ (after es).events.select fun e => e.alertKey = key ∧ e.status.isActive, e = f := by
      intro e he f hf
      obtain ⟨he, hp⟩ := Table.mem_select.mp he
      obtain ⟨hf, hq⟩ := Table.mem_select.mp hf
      obtain ⟨hekey, heactive⟩ := of_decide_eq_true hp
      obtain ⟨hfkey, hfactive⟩ := of_decide_eq_true hq
      exact hunique e he f hf (hekey.trans hfkey.symm) heactive hfactive
    have hnodup := (after es).events.nodup_select fun e => e.alertKey = key ∧ e.status.isActive
    match (after es).events.select fun e => e.alertKey = key ∧ e.status.isActive, hsame, hnodup with
    | [], _, _ => exact Nat.zero_le 1
    | [_], _, _ => exact le_rfl
    | e :: f :: rest, hsame, hnodup =>
      have heq := hsame e List.mem_cons_self f (List.mem_cons_of_mem _ List.mem_cons_self)
      exact absurd (heq ▸ List.mem_cons_self) (List.nodup_cons.mp hnodup).1
  · cases e.status <;> simp [AlertStatus.isActive]
  · intro ev key herr
    rcases perform_enforced hunique ev with ⟨e, happ, -⟩ | hok
    · rw [happ] at herr
      cases herr
    · rw [hok] at herr
      cases herr
  · intro rule server rule' server'
    refine ⟨fun hkey => keyOf_inj hkey, ?_⟩
    rintro ⟨hid, hsid, hmetric⟩
    rw [alertKey, alertKey, hid, hsid, hmetric]

end OpsMonitor.Alert

import OpsMonitor.Alert.Orphans
import OpsMonitor.Alert.UniqueKey
import OpsMonitor.Library.Snapshot

/-! A round and an operation of a user at the same time. Each decides on the event that it read
and updates it by its number, whatever its status is by then, so the second commit may undo the
first; it says here exactly when it does. -/

namespace OpsMonitor.Alert
open Library OpsMonitor.Metric

inductive Session
  | engine | operator
  deriving DecidableEq, Repr

inductive Operation
  | acknowledge | resolve
  deriving DecidableEq, Repr

/-- The status that an operation writes. -/
def Operation.status : Operation → AlertStatus
  | acknowledge => .acknowledged
  | resolve => .resolved

def operate (operation : Operation) (db : Db) (now : Time) (eventId : ℕ) (operatorId : Option ℕ) :
    Except Failure Db :=
  match operation with
  | .acknowledge => Alert.acknowledge db now eventId operatorId
  | .resolve => Alert.resolve db now eventId operatorId

def AlertEvent.merge (base new cur : AlertEvent) : AlertEvent :=
  { cur with
    status := mergeColumn base.status new.status cur.status
    lastFiredAt := mergeColumn base.lastFiredAt new.lastFiredAt cur.lastFiredAt
    acknowledgedBy := mergeColumn base.acknowledgedBy new.acknowledgedBy cur.acknowledgedBy
    acknowledgedAt := mergeColumn base.acknowledgedAt new.acknowledgedAt cur.acknowledgedAt
    resolvedAt := mergeColumn base.resolvedAt new.resolvedAt cur.resolvedAt
    currentValue := mergeColumn base.currentValue new.currentValue cur.currentValue }

/-- The commit of a transaction that read `base` and left its session at `new`: the changed
columns and the new rows are written to `cur`, under the unique key of the active events. -/
def Db.writeBack (base new cur : Db) : Option Db :=
  (flush cur { cur with
    events := Table.merge AlertEvent.merge (fun _ _ _ => rfl) base.events new.events cur.events
    logs := Table.merge (fun _ _ cur => cur) (fun _ _ _ => rfl) base.logs new.logs cur.logs }).toOption

def transactions (now : Session → Time) (operation : Operation) (eventId : ℕ)
    (operatorId : Option ℕ) : Transactions Session Db Unit where
  body
    | .engine, db => some ((evaluateAll db (now .engine)).1, ())
    | .operator, db =>
      (operate operation db (now .operator) eventId operatorId).toOption.map fun db' => (db', ())
  write := Db.writeBack

/-! ## What is to be kept -/

/-- A resolved event stays resolved, an acknowledged one stays so until it is resolved. -/
def Tends (a b : AlertStatus) : Prop :=
  (a = .resolved → b = .resolved) ∧ (a = .acknowledged → b = .acknowledged ∨ b = .resolved)

instance (a b : AlertStatus) : Decidable (Tends a b) := inferInstanceAs (Decidable (_ ∧ _))

def Settled (eventId : ℕ) (db db' : Db) : Prop :=
  ∀ e ∈ db.events, e.id = eventId → ∃ x ∈ db'.events, x.id = eventId ∧ Tends e.status x.status

instance (eventId : ℕ) (db db' : Db) : Decidable (Settled eventId db db') :=
  inferInstanceAs (Decidable (∀ e ∈ db.events, e.id = eventId →
    ∃ x ∈ db'.events, x.id = eventId ∧ Tends e.status x.status))

def Db.HasStatus (db : Db) (id : ℕ) (s : AlertStatus) : Prop :=
  ∃ e ∈ db.events, e.id = id ∧ e.status = s

variable {db db' base new cur : Db} {now : Time} {e x : AlertEvent} {id : ℕ}
  {a b s t : AlertStatus}

theorem Tends.refl (a : AlertStatus) : Tends a a := ⟨id, .inl⟩

theorem Tends.trans {c : AlertStatus} (h : Tends a b) (h' : Tends b c) : Tends a c :=
  ⟨fun ha => h'.1 (h.1 ha), fun ha => (h.2 ha).elim h'.2 fun hb => .inr (h'.1 hb)⟩

theorem Settled.refl (id : ℕ) (db : Db) : Settled id db db :=
  fun e he hid => ⟨e, he, hid, .refl _⟩

theorem Db.hasStatus_self (he : e ∈ db.events) : db.HasStatus e.id e.status := ⟨e, he, rfl, rfl⟩

theorem Db.HasStatus.unique (h : db.HasStatus id s) (h' : db.HasStatus id t) : s = t := by
  obtain ⟨e, he, hid, rfl⟩ := h
  obtain ⟨x, hx, hid', rfl⟩ := h'
  rw [Table.eq_of_key_eq he hx (hid.trans hid'.symm)]

theorem settled_iff (h : db.HasStatus id a) (h' : db'.HasStatus id b) :
    Settled id db db' ↔ Tends a b := by
  constructor
  · intro hsettled
    obtain ⟨e, he, hid, rfl⟩ := h
    obtain ⟨x, hx, hxid, htends⟩ := hsettled e he hid
    rwa [h'.unique ⟨x, hx, hxid, rfl⟩]
  · intro htends e he hid
    obtain ⟨x, hx, hxid, rfl⟩ := h'
    rw [h.unique ⟨e, he, hid, rfl⟩] at htends
    exact ⟨x, hx, hxid, htends⟩

/-! ## One transaction on its own snapshot -/

theorem Db.HasStatus.writeBack (hbase : base.HasStatus id a) (hnew : new.HasStatus id b)
    (hcur : cur.HasStatus id s) (h : Db.writeBack base new cur = some db) :
    db.HasStatus id (mergeColumn a b s) := by
  obtain ⟨e, he, heid, rfl⟩ := hbase
  obtain ⟨n, hn, hnid, rfl⟩ := hnew
  obtain ⟨c, hc, rfl, rfl⟩ := hcur
  rw [Db.writeBack, toOption_eq_some, flush] at h
  split_ifs at h
  obtain rfl := Except.ok.inj h
  have hrow := @Table.merge_mem _ _ AlertEvent.merge (fun _ _ _ => rfl) _ _ _ e n c he hn hc heid hnid
  exact ⟨e.merge n c, hrow, rfl, rfl⟩

/-- An evaluation writes nothing but `FIRING` to a pending event and `RESOLVED` to an active one. -/
theorem tends_evaluated (hactive : e.status.isActive = true) (rule : AlertRule) (server : OpsServer)
    (metric : Option MonitorServerMetric) :
    Tends e.status (e.evaluated rule server metric now).status := by
  have hopen : e.status ≠ .resolved := by
    intro hresolved
    rw [hresolved] at hactive
    cases hactive
  unfold AlertEvent.evaluated
  split
  · exact .refl _
  · split_ifs
    · dsimp only [AlertEvent.violated]
      split_ifs with hdue
      · rw [hdue.1]
        exact ⟨nofun, nofun⟩
      · exact .refl _
    · exact ⟨fun hresolved => absurd hresolved hopen, fun _ => .inr rfl⟩
    · exact .refl _

theorem settled_evaluatePair {latest : ℕ → Option MonitorServerMetric} (acc : Db × ℕ)
    (rule : AlertRule) (server : OpsServer) (id : ℕ) :
    Settled id acc.1 (evaluatePair now latest acc rule server).1 := by
  intro e he hid
  cases hget : acc.1.getActiveByAlertKey (alertKey rule server) with
  | none =>
    rcases @events_of_vacant now latest acc rule server hget with heq | ⟨event, heq, -⟩
    · rw [heq]
      exact ⟨e, he, hid, .refl _⟩
    · rw [heq]
      exact ⟨e, Table.mem_insert.mpr (.inl he), hid, .refl _⟩
  | some x =>
    obtain ⟨hx, -, hactive⟩ := mem_of_getActive hget
    rw [events_of_active hget]
    refine ⟨_, Table.mem_modify.mpr ⟨e, he, rfl⟩, ?_⟩
    by_cases hsame : Keyed.key e = x.id
    · obtain rfl := Table.eq_of_key_eq he hx hsame
      rw [if_pos hsame]
      exact ⟨(sameEvent_evaluated _ _ _ _ e).id.trans hid, tends_evaluated hactive _ _ _⟩
    · rw [if_neg hsame]
      exact ⟨hid, .refl _⟩

theorem settled_evaluateAll (db : Db) (now : Time) (id : ℕ) : Settled id db (evaluateAll db now).1 := by
  rw [evaluateAll_eq]
  have hloop : ∀ (l : List (AlertRule × OpsServer)) (latest : ℕ → Option MonitorServerMetric)
      (acc : Db × ℕ), Settled id acc.1
        (l.foldl (fun acc p => evaluatePair now latest acc p.1 p.2) acc).1 := by
    intro l latest
    induction l with
    | nil => exact fun acc => .refl id acc.1
    | cons p l ih =>
      intro acc e he hid
      obtain ⟨x, hx, hxid, htends⟩ := @settled_evaluatePair now latest acc p.1 p.2 id e he hid
      obtain ⟨y, hy, hyid, htends'⟩ := ih _ x hx hxid
      exact ⟨y, hy, hyid, htends.trans htends'⟩
  exact hloop _ _ (db, 0)

/-- What an operation makes of its event. -/
def AlertEvent.operated (operation : Operation) (now : Time) (operatorId : Option ℕ)
    (e : AlertEvent) : AlertEvent :=
  match operation with
  | .acknowledge =>
    { e with status := .acknowledged, acknowledgedBy := operatorId, acknowledgedAt := some now }
  | .resolve => { e with status := .resolved, resolvedAt := some now }

theorem sameEvent_operated (operation : Operation) (operatorId : Option ℕ) (e : AlertEvent) :
    SameEvent e (e.operated operation now operatorId) := by
  cases operation <;> exact ⟨rfl, rfl, rfl, rfl, rfl⟩

theorem status_operated (operation : Operation) (operatorId : Option ℕ) (e : AlertEvent) :
    (e.operated operation now operatorId).status = operation.status := by
  cases operation <;> rfl

/-- An operation raises when its event is missing or resolved, and writes it otherwise. -/
theorem operate_cases (operation : Operation) (db : Db) (now : Time) (eventId : ℕ)
    (operatorId : Option ℕ) :
    ((operate operation db now eventId operatorId).toOption = none ∧
      ∀ e ∈ db.events, e.id = eventId → e.status = .resolved) ∨
      ∃ e ∈ db.events, e.id = eventId ∧ e.status ≠ .resolved ∧
        ∃ d, (operate operation db now eventId operatorId).toOption = some d ∧
          d.events = db.events.modify e.id (·.operated operation now operatorId)
            fun x => (sameEvent_operated operation operatorId x).id := by
  cases operation with
  | acknowledge =>
    unfold operate acknowledge
    rcases operation_cases db eventId _ _ with ⟨x, herr, hnone⟩ | ⟨e, he, hid, hopen, hok⟩
    · rw [herr]
      exact .inl ⟨rfl, hnone⟩
    · rw [hok]
      exact .inr ⟨e, he, hid, hopen, _, rfl, rfl⟩
  | resolve =>
    unfold operate resolve
    rcases operation_cases db eventId _ _ with ⟨x, herr, hnone⟩ | ⟨e, he, hid, hopen, hok⟩
    · rw [herr]
      exact .inl ⟨rfl, hnone⟩
    · rw [hok]
      exact .inr ⟨e, he, hid, hopen, _, rfl, rfl⟩

/-! ## No commit is refused -/

/-- The rows of `d` come from those of `s` without waking a resolved one, and a new row has a key
that was free. -/
structure Evolves (s d : Db) : Prop where
  old : ∀ x ∈ d.events, x.id < s.events.next → ∃ e ∈ s.events, SameEvent e x ∧
    (x.status.isActive = true → e.status.isActive = true)
  new : ∀ x ∈ d.events, s.events.next ≤ x.id → s.getActiveByAlertKey x.alertKey = none

theorem Evolves.refl (db : Db) : Evolves db db where
  old := fun x hx _ => ⟨x, hx, ⟨rfl, rfl, rfl, rfl, rfl⟩, id⟩
  new := fun x hx hle => absurd (Table.key_lt hx) hle.not_gt

theorem UniqueActive.evolves_evaluateAll (h : UniqueActive db) :
    Evolves db (Alert.evaluateAll db now).1 := by
  have hrows : ∀ x ∈ (Alert.evaluateAll db now).1.events, _ := h.mem_evaluateAll.2
  constructor
  · intro x hx hlt
    rcases hrows x hx with ⟨e, he, rfl⟩ | ⟨p, -, hins⟩
    · exact ⟨e, he, sameEvent_visited db.pairs e, isActive_of_visited⟩
    · exact absurd hlt hins.fresh.not_gt
  · intro x hx hle
    rcases hrows x hx with ⟨e, he, rfl⟩ | ⟨p, -, hins⟩
    · rw [(sameEvent_visited db.pairs e).id] at hle
      exact absurd (Table.key_lt he) hle.not_gt
    · rw [hins.alertKey]
      exact hins.vacant

/-- An operation adds no rows. -/
theorem evolves_operated {d : Db} {operation : Operation} {operatorId : Option ℕ}
    (he : e ∈ db.events) (hopen : e.status ≠ .resolved)
    (hd : d.events = db.events.modify e.id (·.operated operation now operatorId)
      fun x => (sameEvent_operated operation operatorId x).id) :
    Evolves db d ∧ ∀ x ∈ d.events, x.id < db.events.next := by
  have hold : ∀ x ∈ d.events, ∃ e ∈ db.events, SameEvent e x ∧
      (x.status.isActive = true → e.status.isActive = true) := by
    intro x hx
    rw [hd] at hx
    rcases (Table.mem_modify_of_mem he rfl).mp hx with rfl | ⟨hx, -⟩
    · exact ⟨e, he, sameEvent_operated _ _ e, fun _ => isActive_of_ne hopen⟩
    · exact ⟨x, hx, ⟨rfl, rfl, rfl, rfl, rfl⟩, id⟩
  have hlt : ∀ x ∈ d.events, x.id < db.events.next := by
    intro x hx
    obtain ⟨e, he, hsame, -⟩ := hold x hx
    rw [hsame.id]
    exact Table.key_lt he
  exact ⟨⟨fun x hx _ => hold x hx, fun x hx hle => absurd (hlt x hx) hle.not_gt⟩, hlt⟩

theorem isActive_iff : s.isActive = true ↔ s ≠ .resolved := by
  cases s <;> simp [AlertStatus.isActive]

/-- When one of the two transactions adds no rows, the unique key does not refuse the commit. -/
theorem UniqueActive.writeBack (h : UniqueActive base) (hnew : Evolves base new)
    (hcur : Evolves base cur)
    (hone : (∀ x ∈ cur.events, x.id < base.events.next) ∨
      ∀ x ∈ new.events, x.id < base.events.next) : ∃ m, Db.writeBack base new cur = some m := by
  refine ⟨_, toOption_eq_some.mpr (if_neg ?_)⟩
  rintro ⟨r, hr, hchanged, hactive, r', hr', hne, hkey, hactive'⟩
  have hr : r ∈ Table.merge AlertEvent.merge (fun _ _ _ => rfl) base.events new.events cur.events := hr
  -- an event of the snapshot that holds the key of the row is the only active one with it
  have hholder : ∀ b ∈ base.events, b.status.isActive = true → b.alertKey = r.alertKey →
      r'.id = b.id := by
    intro b hb hbactive hbkey
    by_cases hlt : r'.id < base.events.next
    · obtain ⟨e, he, hsame, hwas⟩ := hcur.old r' hr' hlt
      rw [hsame.id, h e he b hb (hsame.alertKey.symm.trans (hkey.trans hbkey.symm)) (hwas hactive')
        hbactive]
    · have hfree := hcur.new r' hr' (not_lt.mp hlt)
      exact absurd hbactive (getActive_eq_none.mp hfree b hb (hbkey.trans hkey.symm))
  by_cases hlt : r.id < cur.events.next
  · obtain ⟨c, hc, -, rfl | ⟨b, hb, n, hn, hbid, hnid, rfl⟩⟩ := Table.of_mem_merge hr hlt
    · exact hchanged (Table.get?_key hc)
    · have hblt : b.id < base.events.next := Table.key_lt hb
      obtain ⟨e, he, hnsame, hnwas⟩ := hnew.old n hn (by rw [show n.id = b.id from hnid.trans hbid.symm]; exact hblt)
      obtain rfl := Table.eq_of_key_eq he hb (hnsame.id.symm.trans (hnid.trans hbid.symm))
      obtain ⟨e', he', hcsame, hcwas⟩ := hcur.old c hc (by rw [show c.id = e.id from hbid.symm]; exact hblt)
      obtain rfl := Table.eq_of_key_eq he' hb (hcsame.id.symm.trans hbid.symm)
      have hbactive : e'.status.isActive = true := by
        by_contra hover
        have hresolved : e'.status = .resolved := not_not.mp (mt isActive_iff.mpr hover)
        have hnresolved : n.status = .resolved :=
          not_not.mp (mt isActive_iff.mpr fun hn => hover (hnwas hn))
        have hstays : (e'.merge n c).status = c.status := by
          rw [AlertEvent.merge]
          exact mergeColumn_eq_cur.mpr (.inl (hnresolved.trans hresolved.symm))
        rw [hstays] at hactive
        exact hover (hcwas hactive)
      exact hne ((hholder e' he' hbactive hcsame.alertKey.symm).trans hcsame.id.symm)
  · obtain ⟨a, ha, k, rfl⟩ := Table.of_mem_merge_new hr (not_lt.mp hlt)
    obtain ⟨ha, hle⟩ := Table.mem_inserted.mp ha
    have hfree := hnew.new a ha hle
    rcases hone with hold | hold
    · obtain ⟨e, he, hsame, hwas⟩ := hcur.old r' hr' (hold r' hr')
      exact getActive_eq_none.mp hfree e he (hsame.alertKey.symm.trans hkey) (hwas hactive')
    · exact absurd (hold a ha) hle.not_gt

/-! ## The commits -/

section Commits
variable {clock : Session → Time} {operation : Operation} {operatorId : Option ℕ}

theorem body_operator : (transactions clock operation id operatorId).body .operator db =
    (operate operation db (clock .operator) id operatorId).toOption.map fun db' => (db', ()) := rfl

/-- A transaction that commits on what it read keeps a settled event settled. -/
theorem settled_result (i : Session) (db : Db) :
    Settled id db ((transactions clock operation id operatorId).result i db db) := by
  have hown : ∀ {new : Db}, Settled id db new →
      (transactions clock operation id operatorId).body i db = some (new, ()) →
        Settled id db ((transactions clock operation id operatorId).result i db db) := by
    intro new hnew hbody
    cases hwrite : Db.writeBack db new db with
    | none =>
      rw [Transactions.result_of_refused hbody hwrite]
      exact .refl id db
    | some m =>
      rw [Transactions.result_of_written hbody hwrite]
      rintro e he rfl
      obtain ⟨x, hx, hid, htends⟩ := hnew e he rfl
      have hstatus := (Db.hasStatus_self he).writeBack ⟨x, hx, hid, rfl⟩ (Db.hasStatus_self he) hwrite
      rw [mergeColumn_self] at hstatus
      exact (settled_iff (Db.hasStatus_self he) hstatus).mpr htends e he rfl
  cases i with
  | engine => exact hown (settled_evaluateAll db _ id) rfl
  | operator =>
    rcases operate_cases operation db (clock .operator) id operatorId with
      ⟨hnone, -⟩ | ⟨e, he, hid, hopen, d, hsome, hd⟩
    · rw [Transactions.result_of_raised (by rw [body_operator, hnone]; rfl)]
      exact .refl id db
    · refine @hown d ?_ (by rw [body_operator, hsome]; rfl)
      intro x hx hxid
      obtain rfl := Table.eq_of_key_eq he hx (hid.trans hxid.symm)
      rw [hd]
      refine ⟨_, (Table.mem_modify_of_mem he rfl).mpr (.inl rfl),
        (sameEvent_operated _ _ e).id.trans hid, ?_⟩
      rw [status_operated]
      cases operation with
      | acknowledge => exact ⟨fun hresolved => absurd hresolved hopen, fun _ => .inl rfl⟩
      | resolve => exact ⟨fun _ => rfl, fun _ => .inr rfl⟩

theorem writeBack_events {m : Db} (h : Db.writeBack base new cur = some m) :
    m.events = Table.merge AlertEvent.merge (fun _ _ _ => rfl) base.events new.events cur.events := by
  rw [Db.writeBack, toOption_eq_some, flush] at h
  split_ifs at h
  rw [← Except.ok.inj h]

/-- What a first commit leaves evolves from the snapshot like its session. -/
theorem Evolves.committed {m : Db} (h : Evolves db new) (hwrite : Db.writeBack db new db = some m) :
    Evolves db m := by
  have hrows := writeBack_events hwrite
  constructor
  · intro x hx hlt
    rw [hrows] at hx
    obtain ⟨c, hc, -, rfl | ⟨b, hb, n, hn, hbid, hnid, rfl⟩⟩ := Table.of_mem_merge hx hlt
    · exact ⟨x, hc, ⟨rfl, rfl, rfl, rfl, rfl⟩, id⟩
    · obtain rfl := Table.eq_of_key_eq hb hc hbid
      refine ⟨b, hb, ⟨rfl, rfl, rfl, rfl, rfl⟩, fun hactive => ?_⟩
      have hlt : n.id < db.events.next := by
        rw [show n.id = b.id from hnid]
        exact Table.key_lt hb
      obtain ⟨e, he, hsame, hwas⟩ := h.old n hn hlt
      obtain rfl := Table.eq_of_key_eq he hb (hsame.id.symm.trans hnid)
      have hstatus : (e.merge n e).status = n.status := mergeColumn_self
      rw [hstatus] at hactive
      exact hwas hactive
  · intro x hx hle
    rw [hrows] at hx
    obtain ⟨a, ha, k, rfl⟩ := Table.of_mem_merge_new hx hle
    obtain ⟨ha, hle⟩ := Table.mem_inserted.mp ha
    exact h.new a ha hle

/-- The first commit. -/
theorem UniqueActive.committed (h : UniqueActive db) (hnew : Evolves db new) {i : Session}
    (hbody : (transactions clock operation id operatorId).body i db = some (new, ()))
    (he : e ∈ db.events) (hstatus : new.HasStatus e.id s) :
    Evolves db ((transactions clock operation id operatorId).result i db db) ∧
      ((transactions clock operation id operatorId).result i db db).HasStatus e.id s ∧
        ((∀ x ∈ new.events, x.id < db.events.next) →
          ∀ x ∈ ((transactions clock operation id operatorId).result i db db).events,
            x.id < db.events.next) := by
  have hold : ∀ x ∈ db.events, x.id < db.events.next := fun x hx => Table.key_lt hx
  obtain ⟨m, hm⟩ := h.writeBack hnew (.refl db) (.inl hold)
  rw [Transactions.result_of_written hbody hm]
  have hwritten := (Db.hasStatus_self he).writeBack hstatus (Db.hasStatus_self he) hm
  rw [mergeColumn_self] at hwritten
  refine ⟨hnew.committed hm, hwritten, fun hlt x hx => ?_⟩
  by_contra hle
  rw [writeBack_events hm] at hx
  obtain ⟨a, ha, k, rfl⟩ := Table.of_mem_merge_new hx (not_lt.mp hle)
  obtain ⟨ha, hale⟩ := Table.mem_inserted.mp ha
  exact (hlt a ha).not_ge hale

/-- The second commit, over what the first one left. -/
theorem UniqueActive.overwritten (h : UniqueActive db) (hnew : Evolves db new)
    (hcur : Evolves db cur)
    (hone : (∀ x ∈ cur.events, x.id < db.events.next) ∨ ∀ x ∈ new.events, x.id < db.events.next)
    {i : Session} (hbody : (transactions clock operation id operatorId).body i db = some (new, ()))
    (he : e ∈ db.events) (hstatus : new.HasStatus e.id s) (hfirst : cur.HasStatus e.id t) :
    ((transactions clock operation id operatorId).result i db cur).HasStatus e.id
      (mergeColumn e.status s t) := by
  obtain ⟨m, hm⟩ := h.writeBack hnew hcur hone
  rw [Transactions.result_of_written hbody hm]
  exact (Db.hasStatus_self he).writeBack hstatus hfirst hm

theorem UniqueActive.hasStatus_evaluateAll (h : UniqueActive db) (he : e ∈ db.events) :
    (Alert.evaluateAll db now).1.HasStatus e.id (visited now db.latestMap db.pairs e).status :=
  ⟨_, h.mem_evaluateAll.1 e he, (sameEvent_visited db.pairs e).id, rfl⟩

/-- What the session that commits second undoes: the round, when it fires an event that the
operation has moved on; the operation, when it acknowledges an event that the round has
resolved. -/
def Undoes (clock : Session → Time) (operation : Operation) (db : Db) (id : ℕ) : Session → Prop
  | .engine => ∃ e ∈ db.events, e.id = id ∧ Promotes db (clock .engine) e
  | .operator => operation = .acknowledge ∧ ∃ e ∈ db.events, e.id = id ∧
      e.status.isActive = true ∧ e.status ≠ .acknowledged ∧ Recovers db (clock .engine) e

theorem hasStatus_operated {d : Db} (he : e ∈ db.events)
    (hd : d.events = db.events.modify e.id (·.operated operation now operatorId)
      fun x => (sameEvent_operated operation operatorId x).id) : d.HasStatus e.id operation.status := by
  refine ⟨e.operated operation now operatorId, ?_, (sameEvent_operated _ _ e).id, status_operated _ _ e⟩
  rw [hd]
  exact (Table.mem_modify_of_mem he rfl).mpr (.inl rfl)

/-- The round commits second. -/
theorem UniqueActive.settled_engine (h : UniqueActive db) :
    Settled id ((transactions clock operation id operatorId).result .operator db db)
        ((transactions clock operation id operatorId).result .engine db
          ((transactions clock operation id operatorId).result .operator db db)) ↔
      ¬ Undoes clock operation db id .engine := by
  rcases operate_cases operation db (clock .operator) id operatorId with
    ⟨hnone, hall⟩ | ⟨e, he, rfl, hopen, d, hsome, hd⟩
  · have hraised : (transactions clock operation id operatorId).body .operator db = none := by
      rw [body_operator, hnone]
      rfl
    rw [Transactions.result_of_raised hraised]
    refine iff_of_true (settled_result .engine db) ?_
    rintro ⟨e, he, hid, hpending, -⟩
    rw [hall e he hid] at hpending
    cases hpending
  · have hbody : (transactions clock operation e.id operatorId).body .operator db = some (d, ()) := by
      rw [body_operator, hsome]
      rfl
    obtain ⟨hevolves, hlt⟩ := evolves_operated he hopen hd
    obtain ⟨hcur, hfirst, hcurlt⟩ := h.committed hevolves hbody he (hasStatus_operated he hd)
    have hround : (transactions clock operation e.id operatorId).body .engine db =
        some ((Alert.evaluateAll db (clock .engine)).1, ()) := rfl
    have hsecond := h.overwritten h.evolves_evaluateAll hcur (.inl (hcurlt hlt)) hround he
      (h.hasStatus_evaluateAll he) hfirst
    have hundoes : Undoes clock operation db e.id .engine ↔ Promotes db (clock .engine) e := by
      refine ⟨?_, fun hpromotes => ⟨e, he, rfl, hpromotes⟩⟩
      rintro ⟨x, hx, hid, hpromotes⟩
      rwa [← Table.eq_of_key_eq hx he hid]
    rw [settled_iff hfirst hsecond, hundoes]
    rcases status_visited (clock .engine) (isActive_of_ne hopen) with
      ⟨-, hnot, heq⟩ | ⟨-, hpromotes, heq⟩ | ⟨-, hnot, heq⟩
    · -- recovered meanwhile, so the round writes its resolution
      rw [heq, mergeColumn, if_neg hopen.symm]
      exact iff_of_true ⟨fun _ => rfl, fun _ => .inr rfl⟩ hnot
    · have hne : AlertStatus.firing ≠ e.status := by
        rw [hpromotes.1]
        exact nofun
      rw [heq, mergeColumn, if_neg hne]
      refine iff_of_false ?_ (not_not.mpr hpromotes)
      cases operation with
      | acknowledge => exact fun htends => by simpa using htends.2 rfl
      | resolve => exact fun htends => nomatch htends.1 rfl
    · rw [heq, mergeColumn, if_pos rfl]
      exact iff_of_true (.refl _) hnot

/-- The operation commits second. -/
theorem UniqueActive.settled_operator (h : UniqueActive db) :
    Settled id ((transactions clock operation id operatorId).result .engine db db)
        ((transactions clock operation id operatorId).result .operator db
          ((transactions clock operation id operatorId).result .engine db db)) ↔
      ¬ Undoes clock operation db id .operator := by
  rcases operate_cases operation db (clock .operator) id operatorId with
    ⟨hnone, hall⟩ | ⟨e, he, rfl, hopen, d, hsome, hd⟩
  · have hraised : (transactions clock operation id operatorId).body .operator db = none := by
      rw [body_operator, hnone]
      rfl
    rw [Transactions.result_of_raised hraised]
    refine iff_of_true (.refl _ _) ?_
    rintro ⟨-, e, he, hid, hactive, -⟩
    rw [hall e he hid] at hactive
    cases hactive
  · have hbody : (transactions clock operation e.id operatorId).body .operator db = some (d, ()) := by
      rw [body_operator, hsome]
      rfl
    obtain ⟨hevolves, hlt⟩ := evolves_operated he hopen hd
    have hactive := isActive_of_ne hopen
    have hround : (transactions clock operation e.id operatorId).body .engine db =
        some ((Alert.evaluateAll db (clock .engine)).1, ()) := rfl
    obtain ⟨hcur, hfirst, -⟩ := h.committed h.evolves_evaluateAll hround he
      (h.hasStatus_evaluateAll he)
    have hsecond := h.overwritten hevolves hcur (.inr hlt) hbody he (hasStatus_operated he hd) hfirst
    have hundoes : Undoes clock operation db e.id .operator ↔ operation = .acknowledge ∧
        e.status ≠ .acknowledged ∧ Recovers db (clock .engine) e := by
      constructor
      · rintro ⟨hop, x, hx, hid, -, hne, hrecovers⟩
        rw [Table.eq_of_key_eq hx he hid] at hne hrecovers
        exact ⟨hop, hne, hrecovers⟩
      · exact fun ⟨hop, hne, hrecovers⟩ => ⟨hop, e, he, rfl, hactive, hne, hrecovers⟩
    rw [settled_iff hfirst hsecond, hundoes]
    cases operation with
    | resolve =>
      dsimp only [Operation.status]
      rw [mergeColumn, if_neg hopen.symm]
      exact iff_of_true ⟨fun _ => rfl, fun _ => .inr rfl⟩ nofun
    | acknowledge =>
      dsimp only [Operation.status]
      by_cases hdone : e.status = .acknowledged
      · -- the session has nothing to write
        rw [mergeColumn, if_pos hdone.symm]
        exact iff_of_true (.refl _) fun hundone => hundone.2.1 hdone
      · rw [mergeColumn, if_neg (Ne.symm hdone)]
        rcases status_visited (clock .engine) hactive with
          ⟨hrecovers, -, heq⟩ | ⟨hnot, -, heq⟩ | ⟨hnot, -, heq⟩
        · rw [heq]
          exact iff_of_false (fun htends => nomatch htends.1 rfl)
            (not_not.mpr ⟨rfl, hdone, hrecovers⟩)
        · rw [heq]
          exact iff_of_true ⟨nofun, nofun⟩ fun hundone => hnot hundone.2.2
        · rw [heq]
          exact iff_of_true ⟨fun hresolved => absurd hresolved hopen, fun _ => .inl rfl⟩
            fun hundone => hnot hundone.2.2

end Commits

/-! ## All interleavings -/

/-- From a reachable state, a round and an operation leave the event settled exactly when they do
not overlap, or the one that commits second does not undo the other. -/
theorem settled_iff_not_undone (es : List Event) (clock : Session → Time) (operation : Operation)
    (eventId : ℕ) (operatorId : Option ℕ) (l : List (Phase Session))
    (hl : Interleaving .engine .operator l) :
    (transactions clock operation eventId operatorId).Keeps (Settled eventId) (after es) l ↔
      ∀ first second, Overlaps first second l →
        ¬ Undoes clock operation (after es) eventId second := by
  have hunique := uniqueActive_after es
  rw [Transactions.keeps_iff (Settled.refl eventId) (fun k s => settled_result k s) (by decide) hl]
  refine forall₂_congr fun first second => imp_congr_right fun hoverlaps => ?_
  have hcases : (first = .engine ∧ second = .operator) ∨ (first = .operator ∧ second = .engine) := by
    rcases interleaving_cases hl with h | h | h
    · exact absurd hoverlaps h.not_overlaps
    · exact .inl (h.unique hoverlaps)
    · exact .inr (h.unique hoverlaps)
  rcases hcases with ⟨rfl, rfl⟩ | ⟨rfl, rfl⟩
  · exact hunique.settled_operator
  · exact hunique.settled_engine

/-- An event that is pending, with a load that is back to normal. -/
def calmRun : List Event :=
  [⟨0, withLoads loadRule [loadFive]⟩, ⟨1000, .evaluateAll⟩,
    ⟨60000, withLoads loadRule [loadFive, loadSample 60000 ⟨50, half_digits⟩]⟩]

/-- The user resolves the event while the round does. -/
theorem settled_resolved_twice :
    (transactions (fun _ => 61000) .resolve 1 (some 7)).Keeps (Settled 1) (after calmRun)
      [.read .engine, .read .operator, .commit .engine, .commit .operator] := by
  refine (settled_iff_not_undone calmRun (fun _ => 61000) .resolve 1 (some 7) _
    (.left (.right (.left (.right .nil))))).mpr fun first second h => ?_
  have hfirst : Overlaps Session.engine .operator
      [.read .engine, .read .operator, .commit .engine, .commit .operator] := .inl rfl
  obtain ⟨rfl, rfl⟩ := hfirst.unique h
  exact nofun

/-- The user acknowledges an event that the round resolves. -/
theorem acknowledged_after_recovery :
    ¬ ∀ (es : List Event) (clock : Session → Time) (operation : Operation) (eventId : ℕ)
      (operatorId : Option ℕ) (l : List (Phase Session)), Interleaving .engine .operator l →
      (transactions clock operation eventId operatorId).Keeps (Settled eventId) (after es) l := by
  intro h
  have hkeeps := h calmRun (fun _ => 61000) .acknowledge 1 (some 7)
    [.read .engine, .read .operator, .commit .engine, .commit .operator]
    (.left (.right (.left (.right .nil))))
  have hsecond := ((Transactions.keeps_of_overlaps (Settled.refl 1) (.inl rfl) (by decide)).mp
    hkeeps).2
  revert hsecond
  decide +kernel

end OpsMonitor.Alert

import OpsMonitor.Alert.Rounds
import OpsMonitor.Alert.Service

/-! Active events whose rule or server has changed. A round only looks at the enabled rules and
the active servers, under the present keys, so it neither makes an orphan nor, with one exception,
ends one. -/

namespace OpsMonitor.Alert
open Library OpsMonitor.Metric

/-- An enabled rule with a threshold and a server in use stand behind the event. -/
def Owned (db : Db) (e : AlertEvent) : Prop :=
  ∃ rule ∈ db.getEnabled, ∃ server ∈ db.listActive, rule.id = e.ruleId ∧ server.id = e.serverId ∧
    rule.threshold ≠ none ∧ e.alertKey = alertKey rule server ∧ e.metricType = rule.metricType

instance (db : Db) (e : AlertEvent) : Decidable (Owned db e) :=
  inferInstanceAs (Decidable (∃ rule ∈ db.getEnabled, ∃ server ∈ db.listActive, _ ∧ _ ∧ _ ∧ _ ∧ _))

/-- The number of an active event without an owner. -/
def Orphan (db : Db) (id : ℕ) : Prop :=
  ∃ e ∈ db.events, e.id = id ∧ e.status.isActive = true ∧ ¬ Owned db e

variable {db : Db} {now : Time} {e x : AlertEvent}

theorem SameEvent.owned (h : SameEvent e x) : Owned db x ↔ Owned db e := by
  unfold Owned
  rw [h.ruleId, h.serverId, h.alertKey, h.metricType]

/-- A round does not write the rules and the servers. -/
theorem tables_evaluatePair {latest : ℕ → Option MonitorServerMetric} (acc : Db × ℕ)
    (rule : AlertRule) (server : OpsServer) :
    (evaluatePair now latest acc rule server).1.rules = acc.1.rules ∧
      (evaluatePair now latest acc rule server).1.servers = acc.1.servers := by
  unfold evaluatePair
  cases getValue rule server (latest server.id) now with
  | none => exact ⟨rfl, rfl⟩
  | some value =>
    dsimp only
    by_cases hviolates : compare value rule.operator (effectiveThreshold rule server) = true
    · rw [if_pos hviolates]
      unfold handleViolation
      split
      · exact ⟨rfl, rfl⟩
      · split_ifs <;> exact ⟨rfl, rfl⟩
    · rw [if_neg hviolates]
      unfold handleRecovery
      split
      · exact ⟨rfl, rfl⟩
      · split_ifs <;> exact ⟨rfl, rfl⟩

theorem tables_evaluateAll (db : Db) (now : Time) :
    (evaluateAll db now).1.rules = db.rules ∧ (evaluateAll db now).1.servers = db.servers := by
  rw [evaluateAll_eq]
  have hloop : ∀ (l : List (AlertRule × OpsServer)) (latest : ℕ → Option MonitorServerMetric)
      (acc : Db × ℕ),
        (l.foldl (fun acc p => evaluatePair now latest acc p.1 p.2) acc).1.rules = acc.1.rules ∧
          (l.foldl (fun acc p => evaluatePair now latest acc p.1 p.2) acc).1.servers =
            acc.1.servers := by
    intro l latest
    induction l with
    | nil => exact fun acc => ⟨rfl, rfl⟩
    | cons p l ih =>
      intro acc
      obtain ⟨hrules, hservers⟩ := @tables_evaluatePair now latest acc p.1 p.2
      obtain ⟨hrules', hservers'⟩ := ih (evaluatePair now latest acc p.1 p.2)
      exact ⟨hrules'.trans hrules, hservers'.trans hservers⟩
  exact hloop _ _ _

theorem owned_evaluateAll : Owned (evaluateAll db now).1 e ↔ Owned db e := by
  obtain ⟨hrules, hservers⟩ := tables_evaluateAll db now
  unfold Owned Db.getEnabled Db.listActive
  rw [hrules, hservers]

/-- A new event belongs to the rule and the server that it was made for. -/
theorem Inserted.owned {p : AlertRule × OpsServer} (hp : p ∈ db.pairs)
    (hx : Inserted now db.latestMap db p.1 p.2 x) : Owned db x := by
  obtain ⟨hrule, hserver⟩ := List.mem_product.mp hp
  refine ⟨p.1, hrule, p.2, hserver, hx.ruleId.symm, hx.serverId.symm, ?_, hx.alertKey, hx.metricType⟩
  obtain ⟨value, -, hviolates⟩ := hx.violates
  intro hnone
  rw [Violates, effectiveThreshold, hnone] at hviolates
  cases hviolates

/-- An active event is over after a round exactly when the round finds it recovered. -/
theorem isActive_visited (hactive : e.status.isActive = true) :
    (visited now db.latestMap db.pairs e).status.isActive = true ↔ ¬ Recovers db now e := by
  rcases status_visited now hactive with ⟨hrecovers, -, heq⟩ | ⟨hstays, -, heq⟩ | ⟨hstays, -, heq⟩
  · rw [heq]
    exact iff_of_false nofun (not_not.mpr hrecovers)
  · rw [heq]
    exact iff_of_true rfl hstays
  · rw [heq]
    exact iff_of_true hactive hstays

theorem orphan_evaluateAll (h : UniqueActive db) (id : ℕ) : Orphan (evaluateAll db now).1 id ↔
    ∃ e ∈ db.events, e.id = id ∧ e.status.isActive = true ∧ ¬ Owned db e ∧ ¬ Recovers db now e := by
  obtain ⟨hold, hnew⟩ : _ ∧ ∀ x ∈ (evaluateAll db now).1.events, _ := h.mem_evaluateAll
  constructor
  · rintro ⟨x, hx, rfl, hactive, howned⟩
    rw [owned_evaluateAll] at howned
    rcases hnew x hx with ⟨e, he, rfl⟩ | ⟨p, hp, hins⟩
    · have hsame : SameEvent e (visited now db.latestMap db.pairs e) := sameEvent_visited _ e
      have hbefore := isActive_of_visited hactive
      exact ⟨e, he, hsame.id.symm, hbefore, fun h => howned (hsame.owned.mpr h),
        (isActive_visited hbefore).mp hactive⟩
    · exact absurd (hins.owned hp) howned
  · rintro ⟨e, he, rfl, hactive, howned, hstays⟩
    have hsame : SameEvent e (visited now db.latestMap db.pairs e) := sameEvent_visited _ e
    refine ⟨_, hold e he, hsame.id, (isActive_visited hactive).mpr hstays, ?_⟩
    rw [owned_evaluateAll, hsame.owned]
    exact howned

/-- Only an administrative change makes an orphan. -/
theorem orphan_of_step (h : UniqueActive db) {ev : Event}
    (hcall : ∀ servers rules metrics, ev.call ≠ .other servers rules metrics) {id : ℕ}
    (horphan : Orphan (step db ev) id) : Orphan db id := by
  have hwrite : ∀ {e : AlertEvent} {f : AlertEvent → AlertEvent}
      {hf : ∀ r, Keyed.key (f r) = Keyed.key r} {d : Db}, e ∈ db.events → e.status ≠ .resolved →
        SameEvent e (f e) → d.rules = db.rules → d.servers = db.servers →
          d.events = db.events.modify e.id f hf → Orphan d id → Orphan db id := by
    rintro e f hf d he hopen hsame hrules hservers hd ⟨x, hx, rfl, hactive, howned⟩
    have hsub : Owned d x ↔ Owned db x := by
      unfold Owned Db.getEnabled Db.listActive
      rw [hrules, hservers]
    rw [hsub] at howned
    rw [hd] at hx
    rcases (@Table.mem_modify_of_mem _ _ db.events e.id f hf e x he rfl).mp hx with rfl | ⟨hx, -⟩
    · exact ⟨e, he, hsame.id.symm, isActive_of_ne hopen, fun h => howned (hsame.owned.mpr h)⟩
    · exact ⟨x, hx, rfl, hactive, howned⟩
  unfold step at horphan
  cases hev : ev.call with
  | evaluateAll =>
    rw [hev] at horphan
    obtain ⟨e, he, hid, hactive, howned, -⟩ := (orphan_evaluateAll h id).mp horphan
    exact ⟨e, he, hid, hactive, howned⟩
  | other servers rules metrics => exact absurd hev (hcall servers rules metrics)
  | acknowledge eventId operatorId =>
    rw [hev] at horphan
    dsimp only at horphan
    unfold acknowledge at horphan
    rcases operation_cases db eventId _ _ with ⟨x, herr, -⟩ | ⟨e, he, -, hopen, hok⟩
    · rwa [herr] at horphan
    · rw [hok] at horphan
      let f : AlertEvent → AlertEvent := fun e => { e with
        status := .acknowledged
        acknowledgedBy := operatorId
        acknowledgedAt := some ev.now }
      dsimp only at horphan
      refine @hwrite e f (fun _ => rfl) _ he hopen ⟨rfl, rfl, rfl, rfl, rfl⟩ ?_ ?_ ?_ horphan <;> rfl
  | resolve eventId operatorId =>
    rw [hev] at horphan
    dsimp only at horphan
    unfold resolve at horphan
    rcases operation_cases db eventId _ _ with ⟨x, herr, -⟩ | ⟨e, he, -, hopen, hok⟩
    · rwa [herr] at horphan
    · rw [hok] at horphan
      let f : AlertEvent → AlertEvent := fun e => { e with
        status := .resolved
        resolvedAt := some ev.now }
      dsimp only at horphan
      refine @hwrite e f (fun _ => rfl) _ he hopen ⟨rfl, rfl, rfl, rfl, rfl⟩ ?_ ?_ ?_ horphan <;> rfl

/-- After a round the active events without an owner are those that it found so and did not find
recovered, and neither a round nor an operation on an event makes new ones. -/
theorem orphans_of_run (es : List Event) :
    (∀ now id, Orphan (evaluateAll (after es) now).1 id ↔
      ∃ e ∈ (after es).events, e.id = id ∧ e.status.isActive = true ∧ ¬ Owned (after es) e ∧
        ¬ Recovers (after es) now e) ∧
      ∀ ev, (∀ servers rules metrics, ev.call ≠ .other servers rules metrics) →
        ∀ id, Orphan (step (after es) ev) id → Orphan (after es) id :=
  ⟨fun _ id => orphan_evaluateAll (uniqueActive_after es) id,
    fun _ hcall _ => orphan_of_step (uniqueActive_after es) hcall⟩

/-- The rule for the load, switched off. -/
def disabledRules : Table AlertRule :=
  match updateRule (Table.empty.insert loadRule) 1 { enabled := some (some 0) } with
  | .ok rules => rules
  | .error _ => .empty

/-- An event whose rule is switched off stays active. -/
theorem disabled_rule_event_stays :
    ¬ ∀ (es : List Event) (now : Time), ∀ e ∈ (evaluateAll (after es) now).1.events,
      e.status.isActive = true → Owned (evaluateAll (after es) now).1 e := by
  intro h
  have hround := h [⟨0, withLoads loadRule [loadFive]⟩, ⟨1000, .evaluateAll⟩,
    ⟨2000, .other (Table.empty.insert fourCores) disabledRules (Table.empty.insertAll [loadFive])⟩] 11000
  revert hround
  decide +kernel

end OpsMonitor.Alert

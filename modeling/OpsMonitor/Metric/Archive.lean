import OpsMonitor.Library.Runs
import OpsMonitor.Metric.Cleanup

/-! The archive against a ledger of everything that was ever recorded: the samples of a day are
counted once, in its row or in the raw table, exactly as long as every cleanup finds each day
whole. -/

namespace OpsMonitor.Metric
open Library Library.Keyed

/-- The database with every sample ever recorded, and the days whose row was deleted. -/
structure Ledger where
  db : Db
  recorded : List MonitorServerMetric
  removed : Set (ℕ × ℤ)

inductive Event
  | record (now : Time) (metric : MonitorServerMetric)
  | cleanup (clock : Readings)

namespace Ledger

def empty : Ledger := ⟨.empty, [], ∅⟩

def next (settings : Settings) (l : Ledger) : Event → Ledger
  | .record _ metric =>
    { l with
      db := l.db.record metric
      recorded := l.recorded ++ [Keyed.withKey l.db.metrics.next metric] }
  | .cleanup clock =>
    { l with
      db := cleanupOldMetrics settings clock l.db
      removed := l.removed ∪ { k | Runs settings clock l.db ∧ Purges settings clock l.db k } }

def recordedOf (l : Ledger) (k : ℕ × ℤ) : List MonitorServerMetric :=
  l.recorded.filter fun m => dayOf m = k

/-- The samples of a day that are no longer in the raw table. -/
def archivedOf (l : Ledger) (k : ℕ × ℤ) : List MonitorServerMetric :=
  (l.recordedOf k).filter fun m => m ∉ l.db.metrics.rows

/-- The archive of a day together with its raw samples is what was recorded. -/
structure Conserved (l : Ledger) (k : ℕ × ℤ) : Prop where
  count : l.db.sampleCount k + (l.db.samplesOf k).length = (l.recordedOf k).length
  maximum : ∀ row, l.db.daily.get? k = some row → ∀ c ∈ columns,
    (c.maximum row).map Decimal.value = sqlMax ((l.archivedOf k).map c.of)

end Ledger

/-- The aggregation and the deletion split the raw samples of the day alike, and when they take
some, then no earlier part of the day was archived. -/
structure SeesWhole (settings : Settings) (clock : Readings) (db : Db) (k : ℕ × ℤ) : Prop where
  alike : ∀ m ∈ db.samplesOf k,
    m.collectedAt < deleteCutoff settings clock → m.collectedAt < aggregateCutoff settings clock
  first : (∃ m ∈ db.samplesOf k, m.collectedAt < aggregateCutoff settings clock) →
    db.daily.get? k = none

/-- The ledger after the events `es`. -/
def after (settings : Settings) (es : List Event) : Ledger := run (Ledger.next settings) .empty es

theorem after_concat (settings : Settings) (es : List Event) (ev : Event) :
    after settings (es ++ [ev]) = (after settings es).next settings ev := run_concat _ _ _ _

variable {settings : Settings} {clock : Readings} {l : Ledger} {k : ℕ × ℤ}

/-! ## The invariant of the ledger -/

structure Ledger.Inv (l : Ledger) : Prop where
  recorded : ∀ m ∈ l.db.metrics, m ∈ l.recorded
  below : ∀ m ∈ l.recorded, key m < l.db.metrics.next
  nodup : (l.recorded.map key).Nodup
  positive : ∀ k row, l.db.daily.get? k = some row → 0 < row.sampleCount

theorem Ledger.Inv.record (h : l.Inv) (now : Time) (metric : MonitorServerMetric) :
    (l.next settings (.record now metric)).Inv where
  recorded := by
    intro m hm
    rcases Table.mem_insert.mp hm with hm | rfl
    · exact List.mem_append_left _ (h.recorded m hm)
    · exact List.mem_append_right _ (List.mem_singleton.mpr rfl)
  below := by
    intro m hm
    rcases List.mem_append.mp hm with hm | hm
    · exact (h.below m hm).trans (Nat.lt_succ_self _)
    · rw [List.mem_singleton.mp hm, key_withKey]
      exact Nat.lt_succ_self _
  nodup := by
    change ((l.recorded ++ [_]).map key).Nodup
    rw [List.map_append, List.nodup_append]
    refine ⟨h.nodup, List.nodup_singleton _, ?_⟩
    intro i hi j hj
    obtain ⟨m, hm, rfl⟩ := List.mem_map.mp hi
    rw [List.map_singleton, List.mem_singleton, key_withKey] at hj
    rw [hj]
    exact (h.below m hm).ne
  positive := h.positive

theorem Ledger.Inv.cleanup (h : l.Inv) (clock : Readings) : (l.next settings (.cleanup clock)).Inv := by
  by_cases hruns : Runs settings clock l.db
  · obtain ⟨hmetrics, hdaily⟩ := cleanup_of_runs hruns
    refine ⟨fun m hm => ?_, ?_, h.nodup, fun k row hrow => ?_⟩
    · change m ∈ (cleanupOldMetrics settings clock l.db).metrics at hm
      rw [hmetrics] at hm
      exact h.recorded m (Table.mem_remove.mp hm).1
    · intro m hm
      change key m < (cleanupOldMetrics settings clock l.db).metrics.next
      rw [hmetrics]
      exact h.below m hm
    · change (cleanupOldMetrics settings clock l.db).daily.get? k = some row at hrow
      rcases hdaily k with ⟨-, hget⟩ | ⟨-, ⟨-, hget⟩ | ⟨hgroup, row', hget, hrow'⟩⟩
      · rw [hget] at hrow
        cases hrow
      · exact h.positive k row (hget ▸ hrow)
      · rw [hget] at hrow
        obtain rfl := Option.some.inj hrow
        rw [hrow'.count]
        exact List.length_pos_iff.mpr hgroup
  · have hsame : cleanupOldMetrics settings clock l.db = l.db := cleanup_of_not_runs hruns
    refine ⟨fun m hm => h.recorded m (hsame ▸ hm), fun m hm => ?_, h.nodup,
      fun k row hrow => h.positive k row (hsame ▸ hrow)⟩
    change key m < (cleanupOldMetrics settings clock l.db).metrics.next
    rw [hsame]
    exact h.below m hm

theorem inv_after (es : List Event) : (after settings es).Inv := by
  induction es using List.reverseRecOn with
  | nil =>
    refine ⟨fun m hm => absurd hm (Table.notMem_empty m), fun m hm => absurd hm List.not_mem_nil,
      List.nodup_nil, fun k row hrow => ?_⟩
    cases (UniqueTable.get?_empty k).symm.trans hrow
  | append_singleton es ev ih =>
    rw [after_concat]
    cases ev with
    | record now metric => exact ih.record now metric
    | cleanup clock => exact ih.cleanup clock

/-! ## Counting -/

theorem Ledger.Inv.nodup_recordedOf (h : l.Inv) (k : ℕ × ℤ) : (l.recordedOf k).Nodup :=
  h.nodup.of_map.filter _

theorem Ledger.Inv.nodup_samplesOf (_ : l.Inv) (k : ℕ × ℤ) : (l.db.samplesOf k).Nodup :=
  l.db.metrics.nodup_keys.of_map.filter _

theorem mem_recordedOf {m : MonitorServerMetric} :
    m ∈ l.recordedOf k ↔ m ∈ l.recorded ∧ dayOf m = k := by
  simp [Ledger.recordedOf]

theorem mem_archivedOf {m : MonitorServerMetric} :
    m ∈ l.archivedOf k ↔ (m ∈ l.recorded ∧ dayOf m = k) ∧ m ∉ l.db.metrics := by
  rw [Ledger.archivedOf, List.mem_filter, mem_recordedOf, decide_eq_true_iff]
  rfl

/-- What was recorded is archived or still there. -/
theorem Ledger.Inv.length_recordedOf (h : l.Inv) (k : ℕ × ℤ) :
    (l.archivedOf k).length + (l.db.samplesOf k).length = (l.recordedOf k).length := by
  rw [← List.length_append]
  refine List.Perm.length_eq ((List.perm_ext_iff_of_nodup ?_ (h.nodup_recordedOf k)).mpr fun m => ?_)
  · refine List.nodup_append.mpr ⟨(h.nodup_recordedOf k).filter _, h.nodup_samplesOf k, ?_⟩
    rintro m hm _ hraw rfl
    exact (mem_archivedOf.mp hm).2 (mem_samplesOf.mp hraw).1
  · rw [List.mem_append, mem_archivedOf, mem_samplesOf, mem_recordedOf]
    constructor
    · rintro (⟨hm, -⟩ | ⟨hm, hday⟩)
      · exact hm
      · exact ⟨h.recorded m hm, hday⟩
    · intro hm
      by_cases hraw : m ∈ l.db.metrics
      · exact .inr ⟨hraw, hm.2⟩
      · exact .inl ⟨hm, hraw⟩

/-- The row of a day counts its archived samples. -/
theorem Ledger.Inv.count_iff (h : l.Inv) :
    l.db.sampleCount k + (l.db.samplesOf k).length = (l.recordedOf k).length ↔
      l.db.sampleCount k = (l.archivedOf k).length := by
  rw [← h.length_recordedOf k]
  exact Nat.add_right_cancel_iff

theorem Ledger.Inv.get?_eq_none (h : l.Inv) (hzero : l.db.sampleCount k = 0) :
    l.db.daily.get? k = none := by
  cases hget : l.db.daily.get? k with
  | none => rfl
  | some row =>
    rw [Db.sampleCount, hget] at hzero
    exact absurd hzero (h.positive k row hget).ne'

theorem Ledger.Conserved.record (h : l.Inv) (hlaw : l.Conserved k) (now : Time)
    (metric : MonitorServerMetric) : (l.next settings (.record now metric)).Conserved k := by
  have hnext := @Ledger.Inv.record settings l h now metric
  -- the new sample is not archived, and nothing else changes
  have harchived : (l.next settings (.record now metric)).archivedOf k = l.archivedOf k := by
    have hfresh : ∀ m ∈ l.recordedOf k, m ∉ (l.db.metrics.insert metric).rows ↔
        m ∉ l.db.metrics.rows := by
      intro m hm
      have hne : m ≠ withKey l.db.metrics.next metric := by
        rintro rfl
        have hlt := h.below _ (mem_recordedOf.mp hm).1
        rw [key_withKey] at hlt
        exact hlt.false
      rw [Table.mem_rows, Table.mem_rows, Table.mem_insert, or_iff_left hne]
    have hthere : withKey l.db.metrics.next metric ∈ (l.db.metrics.insert metric).rows :=
      Table.mem_insert.mpr (.inr rfl)
    change ((l.recorded ++ [_]).filter _).filter (fun m => m ∉ (l.db.metrics.insert metric).rows) = _
    rw [List.filter_append, List.filter_append, Ledger.archivedOf]
    have hnone : ((([withKey l.db.metrics.next metric].filter fun m => dayOf m = k)).filter
        fun m => m ∉ (l.db.metrics.insert metric).rows) = [] := by
      refine List.filter_eq_nil_iff.mpr fun m hm hnot => ?_
      rw [List.mem_singleton.mp (List.mem_of_mem_filter hm)] at hnot
      exact of_decide_eq_true hnot hthere
    rw [hnone, List.append_nil]
    exact List.filter_congr fun m hm => decide_eq_decide.mpr (hfresh m hm)
  exact ⟨hnext.count_iff.mpr (harchived ▸ h.count_iff.mp hlaw.count), harchived ▸ hlaw.maximum⟩

/-! ## A cleanup -/

/-- The samples of a day that the cleanup deletes. -/
def deletedOf (settings : Settings) (clock : Readings) (db : Db) (k : ℕ × ℤ) :
    List MonitorServerMetric :=
  (db.samplesOf k).filter fun m => m.collectedAt < deleteCutoff settings clock

theorem mem_deletedOf {db : Db} {m : MonitorServerMetric} :
    m ∈ deletedOf settings clock db k ↔
      m ∈ db.samplesOf k ∧ m.collectedAt < deleteCutoff settings clock := by
  simp [deletedOf]

/-- What is aggregated is deleted as well. -/
theorem group_eq_filter_deletedOf (db : Db) :
    db.group (aggregateCutoff settings clock) k =
      (deletedOf settings clock db k).filter fun m =>
        m.collectedAt < aggregateCutoff settings clock := by
  rw [group_eq, deletedOf, List.filter_filter]
  refine List.filter_congr fun m _ => ?_
  rw [← Bool.decide_and]
  refine decide_eq_decide.mpr ⟨fun hlt => ⟨hlt, hlt.trans_le aggregateCutoff_le⟩, And.left⟩

/-- The cutoffs split a day alike exactly when every deleted sample is aggregated. -/
theorem length_group_eq_iff {db : Db} :
    (db.group (aggregateCutoff settings clock) k).length = (deletedOf settings clock db k).length ↔
      ∀ m ∈ db.samplesOf k, m.collectedAt < deleteCutoff settings clock →
        m.collectedAt < aggregateCutoff settings clock := by
  rw [group_eq_filter_deletedOf, List.length_filter_eq_length_iff]
  simp only [mem_deletedOf, decide_eq_true_iff, and_imp]

theorem length_group_le (db : Db) :
    (db.group (aggregateCutoff settings clock) k).length ≤ (deletedOf settings clock db k).length := by
  rw [group_eq_filter_deletedOf]
  exact List.length_filter_le _ _

theorem group_eq_nil_iff {db : Db} : db.group (aggregateCutoff settings clock) k = [] ↔
    ¬ ∃ m ∈ db.samplesOf k, m.collectedAt < aggregateCutoff settings clock := by
  simp [group_eq, List.filter_eq_nil_iff]

section Cleanup
variable (hruns : Runs settings clock l.db)
include hruns

theorem length_samplesOf_cleanup :
    (deletedOf settings clock l.db k).length +
      ((l.next settings (.cleanup clock)).db.samplesOf k).length = (l.db.samplesOf k).length := by
  have hrest : (l.next settings (.cleanup clock)).db.samplesOf k =
      (l.db.samplesOf k).filter fun m => !decide (m.collectedAt < deleteCutoff settings clock) := by
    change (cleanupOldMetrics settings clock l.db).metrics.rows.filter _ = _
    rw [(cleanup_of_runs hruns).1]
    exact List.filter_comm _ _ _
  rw [hrest, deletedOf]
  exact (List.length_eq_length_filter_add _).symm

theorem mem_archivedOf_cleanup (h : l.Inv) {m : MonitorServerMetric} :
    m ∈ (l.next settings (.cleanup clock)).archivedOf k ↔
      m ∈ l.archivedOf k ∨ m ∈ deletedOf settings clock l.db k := by
  have hmetrics : m ∈ (l.next settings (.cleanup clock)).db.metrics ↔
      m ∈ l.db.metrics ∧ ¬ m.collectedAt < deleteCutoff settings clock := by
    change m ∈ (cleanupOldMetrics settings clock l.db).metrics ↔ _
    rw [(cleanup_of_runs hruns).1, Table.mem_remove, decide_eq_false_iff_not]
  rw [mem_archivedOf, mem_archivedOf, hmetrics, mem_deletedOf, mem_samplesOf]
  change (m ∈ l.recorded ∧ dayOf m = k) ∧ _ ↔ _
  constructor
  · rintro ⟨hm, hgone⟩
    by_cases hraw : m ∈ l.db.metrics
    · exact .inr ⟨⟨hraw, hm.2⟩, not_not.mp fun hlate => hgone ⟨hraw, hlate⟩⟩
    · exact .inl ⟨hm, hraw⟩
  · rintro (⟨hm, hraw⟩ | ⟨⟨hraw, hday⟩, hold⟩)
    · exact ⟨hm, fun hboth => hraw hboth.1⟩
    · exact ⟨⟨h.recorded m hraw, hday⟩, fun hboth => hboth.2 hold⟩

/-- A cleanup keeps the account of a day exactly when it sees the day whole. -/
theorem Ledger.Conserved.cleanup_iff (h : l.Inv) (hlaw : l.Conserved k)
    (hstays : ¬ Purges settings clock l.db k) :
    (l.next settings (.cleanup clock)).Conserved k ↔ SeesWhole settings clock l.db k := by
  have hsamples := length_samplesOf_cleanup (k := k) hruns
  have hcount := hlaw.count
  have hle := @length_group_le settings clock k l.db
  obtain ⟨-, hdaily⟩ := cleanup_of_runs hruns
  rcases hdaily k with ⟨hpurged, -⟩ | ⟨-, ⟨hempty, hget⟩ | ⟨hgroup, row, hget, hrow⟩⟩
  · exact absurd hpurged hstays
  · -- nothing of the day is old enough: the row stays as it is
    have hsame : (l.next settings (.cleanup clock)).db.sampleCount k = l.db.sampleCount k := by
      unfold Db.sampleCount
      rw [← hget]
      rfl
    have hnone := group_eq_nil_iff.mp hempty
    constructor
    · intro hafter
      have hafter := hafter.count
      refine ⟨length_group_eq_iff.mp ?_, fun hsome => absurd hsome hnone⟩
      change _ = (l.recordedOf k).length at hafter
      rw [hempty, List.length_nil]
      omega
    · intro hwhole
      have hdeleted := length_group_eq_iff.mpr hwhole.alike
      rw [hempty, List.length_nil] at hdeleted
      refine ⟨?_, fun row hrow c hc => ?_⟩
      · change _ = (l.recordedOf k).length
        omega
      · rw [hlaw.maximum row (hget ▸ hrow) c hc]
        refine sqlMax_congr fun y => ?_
        simp only [List.mem_map, mem_archivedOf_cleanup hruns h,
          List.eq_nil_of_length_eq_zero hdeleted.symm, List.not_mem_nil, or_false]
  · -- the old samples of the day are its new row
    have hnew : (l.next settings (.cleanup clock)).db.sampleCount k =
        (l.db.group (aggregateCutoff settings clock) k).length := by
      have hget' : (l.next settings (.cleanup clock)).db.daily.get? k = some row := hget
      rw [Db.sampleCount, hget', ← hrow.count]
    constructor
    · intro hafter
      have hafter := hafter.count
      change _ = (l.recordedOf k).length at hafter
      refine ⟨length_group_eq_iff.mp (by omega), fun _ => h.get?_eq_none (by omega)⟩
    · intro hwhole
      have hsplit := length_group_eq_iff.mpr hwhole.alike
      have hfirst := hwhole.first (not_not.mp (mt group_eq_nil_iff.mpr hgroup))
      have hzero : l.db.sampleCount k = 0 := by rw [Db.sampleCount, hfirst]
      have harchived : l.archivedOf k = [] :=
        List.eq_nil_of_length_eq_zero ((h.count_iff.mp hlaw.count).symm.trans hzero)
      refine ⟨?_, fun row' hrow' c hc => ?_⟩
      · change _ = (l.recordedOf k).length
        omega
      · obtain rfl : row = row' := Option.some.inj (hget.symm.trans hrow')
        rw [hrow.maximum c hc]
        refine sqlMax_congr fun y => ?_
        have hmem : ∀ m, m ∈ l.db.group (aggregateCutoff settings clock) k ↔
            m ∈ deletedOf settings clock l.db k := by
          intro m
          rw [group_eq, mem_deletedOf, List.mem_filter, decide_eq_true_iff]
          exact and_congr_right fun hm =>
            ⟨fun hlt => hlt.trans_le aggregateCutoff_le, hwhole.alike m hm⟩
        simp only [List.mem_map, mem_archivedOf_cleanup hruns h, harchived, List.not_mem_nil,
          false_or, hmem]

end Cleanup

/-! ## Runs -/

/-- The cleanup sees every day whole whose row stays. -/
def FindsDaysWhole (settings : Settings) (l : Ledger) (clock : Readings) : Prop :=
  Runs settings clock l.db → ∀ k ∉ l.removed, ¬ Purges settings clock l.db k →
    SeesWhole settings clock l.db k

/-- The account of every day whose row was not deleted. -/
def Ledger.Balanced (l : Ledger) : Prop := ∀ k ∉ l.removed, l.Conserved k

theorem Ledger.Balanced.cleanup_iff (h : l.Inv) (hlaw : l.Balanced) :
    (l.next settings (.cleanup clock)).Balanced ↔ FindsDaysWhole settings l clock := by
  by_cases hruns : Runs settings clock l.db
  · have hremoved : ∀ k, k ∉ (l.next settings (.cleanup clock)).removed ↔
        k ∉ l.removed ∧ ¬ Purges settings clock l.db k := by
      intro k
      change ¬ (k ∈ l.removed ∨ Runs settings clock l.db ∧ Purges settings clock l.db k) ↔ _
      rw [not_or, and_iff_right hruns]
    constructor
    · intro hafter _ k hk hstays
      exact ((hlaw k hk).cleanup_iff hruns h hstays).mp (hafter k ((hremoved k).mpr ⟨hk, hstays⟩))
    · intro hwhole k hk
      obtain ⟨hk, hstays⟩ := (hremoved k).mp hk
      exact ((hlaw k hk).cleanup_iff hruns h hstays).mpr (hwhole hruns k hk hstays)
  · refine iff_of_true (fun k hk => ?_) fun hr => absurd hr hruns
    have hkept := hlaw k fun hmem => hk (.inl hmem)
    have hsame : l.next settings (.cleanup clock) =
        { l with removed := (l.next settings (.cleanup clock)).removed } := by
      rw [Ledger.next, cleanup_of_not_runs hruns]
    rw [hsame]
    exact ⟨hkept.count, hkept.maximum⟩

/-- A run that balances after each cleanup balances throughout. -/
theorem balanced_after {es : List Event} (h : Along (fun pre ev => (∃ clock, ev = .cleanup clock) →
    (after settings (pre ++ [ev])).Balanced) es) : (after settings es).Balanced := by
  induction es using List.reverseRecOn with
  | nil =>
    intro k _
    refine ⟨rfl, fun row hrow => ?_⟩
    cases (UniqueTable.get?_empty k).symm.trans hrow
  | append_singleton es ev ih =>
    cases ev with
    | record now metric =>
      rw [after_concat]
      exact fun k hk => (ih h.front k hk).record (inv_after es) now metric
    | cleanup clock => exact h.last ⟨clock, rfl⟩

/-- After every cleanup the archive and the raw samples are together what was recorded, exactly
when every cleanup finds the days whole. -/
theorem archive_conserved (settings : Settings) (es : List Event) :
    Along (fun pre ev => (∃ clock, ev = .cleanup clock) →
        (after settings (pre ++ [ev])).Balanced) es ↔
      Along (fun pre ev => ∀ clock, ev = .cleanup clock →
        FindsDaysWhole settings (after settings pre) clock) es := by
  induction es using List.reverseRecOn with
  | nil => exact iff_of_true along_nil along_nil
  | append_singleton es ev ih =>
    rw [along_concat, along_concat, ← ih]
    refine and_congr_right fun hbalanced => ?_
    cases ev with
    | record now metric => exact iff_of_true (by simp) nofun
    | cleanup clock =>
      rw [after_concat]
      have hstep := @Ledger.Balanced.cleanup_iff settings clock _ (inv_after es)
        (balanced_after hbalanced)
      simpa using hstep

/-! ## A day in two parts -/

/-- A sample of the processor load only. -/
def cpuSample (collectedAt : Time) : MonitorServerMetric where
  id := 0
  serverId := 1
  collectedAt := collectedAt
  cpuUsage := some ⟨1000, by decide⟩
  memoryUsage := none
  memoryUsedBytes := none
  diskUsage := none
  networkInBytes := none
  networkOutBytes := none
  load1m := none
  load5m := none
  load15m := none
  tcpConnections := none
  uptimeSeconds := none

/-- Six in the morning of a day. -/
def sixOClock (day : ℤ) : Readings :=
  ⟨Clock.days day + 21600000, Clock.days day + 21600000, Clock.days day + 21600000, le_rfl, le_rfl⟩

def Event.start : Event → Time
  | .record now _ => now
  | .cleanup clock => clock.aggregated

def Event.finish : Event → Time
  | .record now _ => now
  | .cleanup clock => clock.purged

/-- A sample at midnight and one at noon. The cleanup of the next day overwrites the row of the
first one with that of the second. -/
theorem noon_overwrites_midnight :
    ¬ ∀ (settings : Settings) (es : List Event), es.Pairwise (fun a b => a.finish ≤ b.start) →
      (∀ now metric, .record now metric ∈ es → |metric.collectedAt - now| ≤ Clock.seconds 300) →
        Along (fun pre ev => (∃ clock, ev = .cleanup clock) →
          (after settings (pre ++ [ev])).Balanced) es := by
  intro h
  have hall := h {} [.record 0 (cpuSample 0), .record 43200000 (cpuSample 43200000),
    .cleanup (sixOClock 7), .cleanup (sixOClock 8)] (by decide) ?_
  · have hcount := (hall [.record 0 (cpuSample 0), .record 43200000 (cpuSample 43200000),
      .cleanup (sixOClock 7)] (.cleanup (sixOClock 8)) [] rfl ⟨sixOClock 8, rfl⟩ (1, 0) ?_).count
    · revert hcount
      decide +kernel
    · rintro ((hmem | hmem) | hmem)
      · exact hmem
      · exact absurd hmem.2.1 (by decide)
      · exact absurd hmem.2.1 (by decide)
  · intro now metric hmem
    simp only [List.mem_cons, List.not_mem_nil, or_false, reduceCtorEq, Event.record.injEq] at hmem
    rcases hmem with ⟨rfl, rfl⟩ | ⟨rfl, rfl⟩ <;> decide

end OpsMonitor.Metric

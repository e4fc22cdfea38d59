import OpsMonitor.Alert.Records
import OpsMonitor.Library.Paging
import OpsMonitor.Metric.Summary
import OpsMonitor.Task.Records

/-! The paged lists: the tasks, the alert events and the history of a server. The database orders
the rows of each query, and orders ties as it likes. -/

namespace OpsMonitor
open Library Library.Paging

/-- The total, and a page of the rows in the order that the database gives them. -/
def BaseRepository.list {α : Type} (arrange : List α → List α) (rows : List α) (page pageSize : ℕ) :
    ℕ × List α := (rows.length, pageOf (arrange rows) page pageSize)

/-- A filter that is absent or empty is not applied. -/
def passes (same : String → String → Bool) (filter : Option String) (value : String) : Bool :=
  match filter with
  | none => true
  | some text => text = "" || same value text

/-! ## Tasks -/

def Task.TaskStatus.text : Task.TaskStatus → String
  | created => "CREATED"
  | pending => "PENDING"
  | running => "RUNNING"
  | success => "SUCCESS"
  | failed => "FAILED"
  | timeout => "TIMEOUT"
  | cancelled => "CANCELLED"
  | retrying => "RETRYING"
  | dead => "DEAD"

/-- `ORDER BY id DESC`. -/
def newestFirst (a b : Task.OpsTask) : Prop := b.id ≤ a.id

instance : DecidableRel newestFirst := fun a b => Nat.decLe b.id a.id

/-- The filters of `TaskRepository.list_tasks`. `same` is the equality of the database. -/
structure TaskFilter where
  same : String → String → Bool
  status : Option String
  taskType : Option String

def TaskFilter.rows (filter : TaskFilter) (tasks : Table Task.OpsTask) : List Task.OpsTask :=
  tasks.select fun t =>
    passes filter.same filter.status t.status.text && passes filter.same filter.taskType t.taskType

def TaskRepository.listTasks (tasks : Table Task.OpsTask) (filter : TaskFilter)
    (arrange : List Task.OpsTask → List Task.OpsTask) (page pageSize : ℕ) : ℕ × List Task.OpsTask :=
  BaseRepository.list arrange (filter.rows tasks) page pageSize

/-! ## Alert events -/

def Alert.AlertStatus.text : Alert.AlertStatus → String
  | pending => "PENDING"
  | firing => "FIRING"
  | acknowledged => "ACKNOWLEDGED"
  | resolved => "RESOLVED"

/-- `ORDER BY last_fired_at DESC, id DESC`. -/
def latestFired (a b : Alert.AlertEvent) : Prop :=
  b.lastFiredAt < a.lastFiredAt ∨ a.lastFiredAt = b.lastFiredAt ∧ b.id ≤ a.id

instance : DecidableRel latestFired := fun a b =>
  inferInstanceAs (Decidable (b.lastFiredAt < a.lastFiredAt ∨ a.lastFiredAt = b.lastFiredAt ∧ b.id ≤ a.id))

/-- The filters of `AlertEventRepository.list_events`. -/
structure EventFilter where
  same : String → String → Bool
  status : Option String
  severity : Option String
  serverId : Option ℕ
  active : Option Bool

def EventFilter.rows (filter : EventFilter) (events : Table Alert.AlertEvent) : List Alert.AlertEvent :=
  events.select fun e =>
    passes filter.same filter.status e.status.text && passes filter.same filter.severity e.severity &&
      filter.serverId.all (e.serverId = ·) && filter.active.all (e.status.isActive = ·)

def AlertEventRepository.listEvents (events : Table Alert.AlertEvent) (filter : EventFilter)
    (arrange : List Alert.AlertEvent → List Alert.AlertEvent) (page pageSize : ℕ) :
    ℕ × List Alert.AlertEvent :=
  let rows := filter.rows events
  (rows.length, pageOf (arrange rows) page pageSize)

/-! ## The history of a server -/

/-- `ORDER BY collected_at DESC`. -/
def latestCollected (a b : Metric.MonitorServerMetric) : Prop := b.collectedAt ≤ a.collectedAt

instance : DecidableRel latestCollected := fun a b => Int.decLe b.collectedAt a.collectedAt

/-- `MetricRepository.get_history`. The instants have microseconds. -/
def MetricRepository.getHistory (metrics : Table Metric.MonitorServerMetric) (serverId : ℕ)
    (start stop : ℤ) (arrange : List Metric.MonitorServerMetric → List Metric.MonitorServerMetric)
    (page pageSize : ℕ) : ℕ × List Metric.MonitorServerMetric :=
  let rows := Metric.window metrics serverId start stop
  (rows.length, pageOf (arrange rows) page pageSize)

/-! ## Pages -/

/-- The pages partition the rows, whatever the order of the ties is in each query. -/
def PagesPartition {α : Type} (le : α → α → Prop) (rows : List α) (pageSize : ℕ)
    (list : (List α → List α) → ℕ → ℕ → ℕ × List α) : Prop :=
  ∀ arrange : ℕ → List α → List α, (∀ page, Arranged le rows (arrange page rows)) →
    Partitions rows pageSize fun page => list (arrange page) page pageSize

theorem pagesPartition_iff {α : Type} {le : α → α → Prop} [DecidableRel le] {rows : List α} {n : ℕ}
    (htotal : ∀ a b, le a b ∨ le b a) (htrans : ∀ a b c, le a b → le b c → le a c) (hn : 0 < n)
    (hnodup : rows.Nodup) :
    PagesPartition le rows n (fun arrange page pageSize => (rows.length, pageOf (arrange rows) page pageSize)) ↔
      ∀ x ∈ rows, ¬ Straddles le rows n x := by
  rw [← partitions_iff htotal htrans hn hnodup]
  constructor
  · intro h answers hanswers
    exact h (fun page _ => answers page) hanswers
  · intro h arrange harrange
    exact h (fun page => arrange page rows) harrange

theorem tasks_pagesPartition (tasks : Table Task.OpsTask) (filter : TaskFilter) {n : ℕ} (hn : 0 < n) :
    PagesPartition newestFirst (filter.rows tasks) n (TaskRepository.listTasks tasks filter) := by
  have hnodup : (filter.rows tasks).Nodup := tasks.nodup_select _
  have htotal : ∀ a b, newestFirst a b ∨ newestFirst b a := fun a b => le_total b.id a.id
  have htrans : ∀ a b c, newestFirst a b → newestFirst b c → newestFirst a c :=
    fun a b c hab hbc => Nat.le_trans hbc hab
  refine (pagesPartition_iff htotal htrans hn hnodup).mpr fun x hx =>
    not_straddles_of_antisymm hnodup fun y hy hxy hyx => ?_
  exact tasks.eq_of_key_eq (Table.mem_select.mp hy).1 (Table.mem_select.mp hx).1 (le_antisymm hxy hyx)

theorem latestFired_total (a b : Alert.AlertEvent) : latestFired a b ∨ latestFired b a := by
  rcases lt_trichotomy a.lastFiredAt b.lastFiredAt with hlt | heq | hgt
  · exact .inr (.inl hlt)
  · rcases Nat.le_total b.id a.id with hid | hid
    · exact .inl (.inr ⟨heq, hid⟩)
    · exact .inr (.inr ⟨heq.symm, hid⟩)
  · exact .inl (.inl hgt)

theorem latestFired_trans (a b c : Alert.AlertEvent) (hab : latestFired a b) (hbc : latestFired b c) :
    latestFired a c := by
  rcases hab with hab | ⟨hab, hid⟩
  · rcases hbc with hbc | ⟨hbc, -⟩
    · exact .inl (hbc.trans hab)
    · exact .inl (hbc ▸ hab)
  · rcases hbc with hbc | ⟨hbc, hid'⟩
    · exact .inl (hab ▸ hbc)
    · exact .inr ⟨hab.trans hbc, hid'.trans hid⟩

theorem events_pagesPartition (events : Table Alert.AlertEvent) (filter : EventFilter) {n : ℕ}
    (hn : 0 < n) :
    PagesPartition latestFired (filter.rows events) n (AlertEventRepository.listEvents events filter) := by
  have hnodup : (filter.rows events).Nodup := events.nodup_select _
  refine (pagesPartition_iff latestFired_total latestFired_trans hn hnodup).mpr fun x hx =>
    not_straddles_of_antisymm hnodup fun y hy hxy hyx => ?_
  have hid : y.id = x.id := by
    rcases hxy with hxy | ⟨hxy, hle⟩
    · rcases hyx with hyx | ⟨hyx, -⟩
      · exact absurd hxy hyx.le.not_gt
      · exact absurd hxy hyx.not_lt
    · rcases hyx with hyx | ⟨-, hge⟩
      · exact absurd hyx hxy.not_lt
      · exact le_antisymm hle hge
  exact events.eq_of_key_eq (Table.mem_select.mp hy).1 (Table.mem_select.mp hx).1 hid

/-- The pages of all three lists partition their rows if and only if no samples of the history with one
`collected_at` are on both sides of the end of a page. -/
theorem pages_partition_iff (tasks : Table Task.OpsTask) (taskFilter : TaskFilter)
    (events : Table Alert.AlertEvent) (eventFilter : EventFilter)
    (metrics : Table Metric.MonitorServerMetric) (serverId : ℕ) (start stop : ℤ) (pageSize : ℕ)
    (hsize : 1 ≤ pageSize) :
    PagesPartition newestFirst (taskFilter.rows tasks) pageSize
        (TaskRepository.listTasks tasks taskFilter) ∧
      PagesPartition latestFired (eventFilter.rows events) pageSize
        (AlertEventRepository.listEvents events eventFilter) ∧
      PagesPartition latestCollected (Metric.window metrics serverId start stop) pageSize
        (MetricRepository.getHistory metrics serverId start stop) ↔
    ∀ m ∈ Metric.window metrics serverId start stop,
      ¬ Straddles latestCollected (Metric.window metrics serverId start stop) pageSize m := by
  rw [and_iff_right (tasks_pagesPartition tasks taskFilter hsize),
    and_iff_right (events_pagesPartition events eventFilter hsize)]
  have htotal : ∀ a b, latestCollected a b ∨ latestCollected b a :=
    fun a b => le_total b.collectedAt a.collectedAt
  have htrans : ∀ a b c, latestCollected a b → latestCollected b c → latestCollected a c :=
    fun a b c hab hbc => le_trans hbc hab
  exact pagesPartition_iff htotal htrans hsize (metrics.nodup_select _)

/-- Nothing to list, a row at a time. -/
theorem pages_partition_iff_empty :
    PagesPartition newestFirst (TaskFilter.rows ⟨fun _ _ => false, none, none⟩ .empty) 1
        (TaskRepository.listTasks .empty ⟨fun _ _ => false, none, none⟩) ∧
      PagesPartition latestFired (EventFilter.rows ⟨fun _ _ => false, none, none, none, none⟩ .empty) 1
        (AlertEventRepository.listEvents .empty ⟨fun _ _ => false, none, none, none, none⟩) ∧
      PagesPartition latestCollected (Metric.window .empty 1 0 0) 1
        (MetricRepository.getHistory .empty 1 0 0) ↔
    ∀ m ∈ Metric.window .empty 1 0 0,
      ¬ Straddles latestCollected (Metric.window .empty 1 0 0) 1 m :=
  pages_partition_iff .empty ⟨fun _ _ => false, none, none⟩ .empty
    ⟨fun _ _ => false, none, none, none, none⟩ .empty 1 0 0 1 (by decide)

/-- Two samples with one `collected_at`. -/
def twoSamples : Table Metric.MonitorServerMetric :=
  (Table.empty.insert (Metric.minuteSample 0)).insert (Metric.minuteSample 0)

/-- With one sample a page, both pages may show the same one. -/
theorem sample_shown_twice :
    ¬ ∀ (tasks : Table Task.OpsTask) (taskFilter : TaskFilter) (events : Table Alert.AlertEvent)
      (eventFilter : EventFilter) (metrics : Table Metric.MonitorServerMetric) (serverId : ℕ)
      (start stop : ℤ) (pageSize : ℕ), 1 ≤ pageSize →
      PagesPartition newestFirst (taskFilter.rows tasks) pageSize
          (TaskRepository.listTasks tasks taskFilter) ∧
        PagesPartition latestFired (eventFilter.rows events) pageSize
          (AlertEventRepository.listEvents events eventFilter) ∧
        PagesPartition latestCollected (Metric.window metrics serverId start stop) pageSize
          (MetricRepository.getHistory metrics serverId start stop) := by
  intro h
  obtain ⟨-, -, hhistory⟩ := h .empty ⟨fun _ _ => false, none, none⟩ .empty
    ⟨fun _ _ => false, none, none, none, none⟩ twoSamples 1 0 0 1 le_rfl
  have hrows : Metric.window twoSamples 1 0 0 =
      [{ Metric.minuteSample 0 with id := 1 }, { Metric.minuteSample 0 with id := 2 }] := by decide
  have harranged : ∀ page : ℕ, Arranged latestCollected (Metric.window twoSamples 1 0 0)
      (if page = 2 then (Metric.window twoSamples 1 0 0).reverse else Metric.window twoSamples 1 0 0) := by
    intro page
    rw [hrows]
    split_ifs
    · exact ⟨List.reverse_perm _, by decide⟩
    · exact ⟨.refl _, by decide⟩
  have hpages := (hhistory (fun page rows => if page = 2 then rows.reverse else rows) harranged).partition
  have htwice : ¬ (((List.range (pageCount (Metric.window twoSamples 1 0 0).length 1)).flatMap fun i =>
      (MetricRepository.getHistory twoSamples 1 0 0
        (fun rows => if i + 1 = 2 then rows.reverse else rows) (i + 1) 1).2).Perm
        (Metric.window twoSamples 1 0 0)) := by decide
  exact htwice hpages

end OpsMonitor

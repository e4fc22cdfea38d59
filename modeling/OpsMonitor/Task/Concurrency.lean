import OpsMonitor.Library.Snapshot
import OpsMonitor.Task.AttemptChains

/-! Two transactions of the engine at the same time. A session reads its snapshot without row
locks, and its unit of work updates by primary key the columns that the call changed, whatever
they hold by then. Two polls that overlap hand out the same executions. -/

namespace OpsMonitor.Task
open Library

/-! ## Sessions -/

inductive Session
  | one
  | two
  deriving DecidableEq, Repr

def OpsTaskExecution.merge (base new cur : OpsTaskExecution) : OpsTaskExecution :=
  { cur with
    status := mergeColumn base.status new.status cur.status
    nextRetryAt := mergeColumn base.nextRetryAt new.nextRetryAt cur.nextRetryAt
    errorType := mergeColumn base.errorType new.errorType cur.errorType
    exitCode := mergeColumn base.exitCode new.exitCode cur.exitCode
    resultText := mergeColumn base.resultText new.resultText cur.resultText
    errorMessage := mergeColumn base.errorMessage new.errorMessage cur.errorMessage
    startedAt := mergeColumn base.startedAt new.startedAt cur.startedAt
    finishedAt := mergeColumn base.finishedAt new.finishedAt cur.finishedAt
    durationMs := mergeColumn base.durationMs new.durationMs cur.durationMs }

def OpsTask.merge (base new cur : OpsTask) : OpsTask :=
  { cur with
    status := mergeColumn base.status new.status cur.status
    startedAt := mergeColumn base.startedAt new.startedAt cur.startedAt
    finishedAt := mergeColumn base.finishedAt new.finishedAt cur.finishedAt
    attempt := mergeColumn base.attempt new.attempt cur.attempt }

def OpsTaskTarget.merge (base new cur : OpsTaskTarget) : OpsTaskTarget :=
  { cur with targetStatus := mergeColumn base.targetStatus new.targetStatus cur.targetStatus }

/-- The row of an attempt is in the table already. -/
def Db.HasAttempt (db : Db) (r : OpsTaskExecution) : Prop :=
  ∃ e ∈ db.executions.rows, e.taskId = r.taskId ∧ e.targetId = r.targetId ∧ e.attempt = r.attempt

instance (db : Db) (r : OpsTaskExecution) : Decidable (db.HasAttempt r) :=
  inferInstanceAs (Decidable (∃ e ∈ db.executions.rows, e.taskId = r.taskId ∧
    e.targetId = r.targetId ∧ e.attempt = r.attempt))

/-- The commit of a transaction that read `base` and left its session at `new`: the changed
columns and the new rows are written to `cur`, or the unique key on the attempts refuses a new
row and everything is rolled back. -/
def Db.writeBack (base new cur : Db) : Option Db :=
  if ∃ r ∈ Table.inserted base.executions new.executions, cur.HasAttempt r then none
  else
    some { cur with
      tasks := Table.merge OpsTask.merge (fun _ _ _ => rfl) base.tasks new.tasks cur.tasks
      targets := Table.merge OpsTaskTarget.merge (fun _ _ _ => rfl) base.targets new.targets
        cur.targets
      executions := Table.merge OpsTaskExecution.merge (fun _ _ _ => rfl) base.executions
        new.executions cur.executions
      logs := Table.merge (fun _ _ cur => cur) (fun _ _ _ => rfl) base.logs new.logs cur.logs }

/-- Each session performs one call. -/
def transactions (croniter : CronIter) (request : Session → Event) :
    Transactions Session Db Reply where
  body i db := (perform croniter db (request i).now (request i).call).toOption
  write := Db.writeBack

/-! ## The status of a row -/

def Db.HasStatus (db : Db) (id : ℕ) (s : ExecutionStatus) : Prop :=
  ∃ r ∈ db.executions, r.id = id ∧ r.status = s

section
variable {croniter : CronIter} {now : Time} {db db' base new cur : Db} {id : ℕ}
  {s s' t : ExecutionStatus}

theorem Db.hasStatus_self {r : OpsTaskExecution} (hr : r ∈ db.executions) :
    db.HasStatus r.id r.status := ⟨r, hr, rfl, rfl⟩

theorem Db.HasStatus.unique (h : db.HasStatus id s) (h' : db.HasStatus id s') : s = s' := by
  obtain ⟨r, hr, hid, rfl⟩ := h
  obtain ⟨r', hr', hid', rfl⟩ := h'
  rw [Table.eq_of_key_eq hr hr' (hid.trans hid'.symm)]

theorem Db.HasStatus.writeBack (hbase : base.HasStatus id s) (hnew : new.HasStatus id s')
    (hcur : cur.HasStatus id t) (h : Db.writeBack base new cur = some db) :
    db.HasStatus id (mergeColumn s s' t) := by
  obtain ⟨b, hb, hbid, rfl⟩ := hbase
  obtain ⟨n, hn, hnid, rfl⟩ := hnew
  obtain ⟨c, hc, rfl, rfl⟩ := hcur
  unfold Db.writeBack at h
  split_ifs at h
  obtain rfl := Option.some.inj h
  have hrow := @Table.merge_mem _ _ OpsTaskExecution.merge (fun _ _ _ => rfl) _ _ _ b n c hb hn hc
    hbid hnid
  exact ⟨b.merge n c, hrow, rfl, rfl⟩

/-! ## Moves that add no rows -/

def Act.Adds : Act → Prop
  | .insert _ | .retry _ | .fire _ => True
  | _ => False

theorem Move.executions_next_eq {act : Act} (hm : Move croniter now db act db')
    (hact : ¬ act.Adds) : db'.executions.next = db.executions.next := by
  cases hm with
  | cancel | report | expire =>
    rw [executions_aggregate]
    rfl
  | confirm | claim | archive | purge => rfl
  | insert | retry | fire => exact absurd trivial hact

theorem Moves.executions_next_eq {P : Act → Prop} (hm : Moves croniter now P db db')
    (hP : ∀ act, P act → ¬ act.Adds) : db'.executions.next = db.executions.next := by
  induction hm with
  | refl => rfl
  | tail _ hmove ih =>
    obtain ⟨act, hact, hmove⟩ := hmove
    exact (hmove.executions_next_eq (hP act hact)).trans ih

theorem inserted_eq_nil (h : new.executions.next = base.executions.next) :
    Table.inserted base.executions new.executions = [] := by
  refine List.eq_nil_iff_forall_not_mem.mpr fun r hr => ?_
  obtain ⟨hr, hle⟩ := Table.mem_inserted.mp hr
  have hlt := Table.key_lt hr
  omega

theorem writeBack_isSome (h : new.executions.next = base.executions.next) :
    ∃ m, Db.writeBack base new cur = some m := by
  unfold Db.writeBack
  rw [inserted_eq_nil h, if_neg (by simp)]
  exact ⟨_, rfl⟩

end

/-! ## Polls -/

section Poll
variable {croniter : CronIter} {now : Time} {db : Db} {serverId : ℕ}

/-- A poll answers the whole list it read. -/
theorem fetchPending_ids : (fetchPending db now serverId).2.map (·.executionId) =
    (db.fetchPendingByServer serverId 10).map (·.id) := by
  have hloop : ∀ (l : List OpsTaskExecution) (acc : Db × List PendingTask),
      l.Pairwise (fun e f => e.id < f.id) → (∀ e ∈ l, Claimable e acc.1) →
      (l.foldl (claimExecution now) acc).2.map (·.executionId) =
        acc.2.map (·.executionId) ++ l.map (·.id) := by
    intro l
    induction l with
    | nil => simp
    | cons e l ih =>
      intro acc hl hclaim
      obtain ⟨he, hl⟩ := List.pairwise_cons.mp hl
      have hcl := hclaim e List.mem_cons_self
      obtain ⟨t, ht, hid, -⟩ := hcl.2.2
      rw [List.foldl_cons, ih _ hl fun f hf =>
        claimExecution_keeps (he f hf) hcl (hclaim f (List.mem_cons_of_mem _ hf))]
      simp [claimExecution_eq ht hid]
  have h := hloop _ (db, []) (fetchPending_sorted db serverId 10)
    fun e he => (mem_fetchPendingByServer he).1
  simpa [fetchPending] using h

theorem claimExecution_other {acc : Db × List PendingTask} {e f : OpsTaskExecution}
    (hne : f.id ≠ e.id) (hf : f ∈ acc.1.executions) :
    f ∈ (claimExecution now acc e).1.executions := by
  unfold claimExecution
  split
  · exact hf
  · exact List.mem_map.mpr ⟨f, hf, if_neg hne⟩

theorem fetchPending_row {e : OpsTaskExecution} (he : e ∈ db.fetchPendingByServer serverId 10) :
    e.markRunning now ∈ (fetchPending db now serverId).1.executions := by
  have hloop := loop_foldl (claimExecution now) (db.fetchPendingByServer serverId 10) (db, [])
  refine hloop.each (G := fun e acc => Claimable e acc.1) (D := fun e f => e.id < f.id)
    (Q := fun e acc => e.markRunning now ∈ acc.1.executions) ?_ ?_ ?_
    (fetchPending_sorted db serverId 10) (fun f hf => (mem_fetchPendingByServer hf).1) e he
  · rintro f - acc _ ⟨hf, -, t, ht, hid, -⟩ rfl
    have hmem : f.markRunning now ∈ (acc.1.withExecution f.id (.markRunning now)).executions :=
      Db.mem_withExecution.mpr ⟨f, hf, if_pos rfl⟩
    rw [claimExecution_eq ht hid]
    exact hmem
  · rintro f g acc _ hlt hf rfl hg
    exact claimExecution_keeps hlt hf hg
  · rintro f g acc _ hlt - rfl hr
    exact claimExecution_other hlt.ne hr

/-- The rows a poll hands out are running after it. -/
theorem fetchPending_running {e : OpsTaskExecution}
    (he : e ∈ db.fetchPendingByServer serverId 10) :
    (fetchPending db now serverId).1.HasStatus e.id .running :=
  ⟨e.markRunning now, fetchPending_row he, rfl, rfl⟩

end Poll

/-! ## Two polls of one server -/

def polls (serverId : ℕ) (now : Session → Time) (i : Session) : Event :=
  ⟨now i, .fetchPending serverId⟩

def Reply.items : Reply → List PendingTask
  | .handed items => items
  | _ => []

/-- What a session handed out in the end. -/
def handedBy (w : World Session Db Reply) (i : Session) : List PendingTask :=
  ((w.reply i).map Reply.items).getD []

section TwoPolls
variable {croniter : CronIter} {db : Db} {serverId : ℕ} {now : Session → Time}
  {l : List (Phase Session)} {i j : Session}

/-- A poll is never refused: it adds no rows. -/
theorem polls_outcome (i : Session) (base cur : Db) :
    ∃ m, Db.writeBack base (fetchPending base (now i) serverId).1 cur = some m ∧
      (transactions croniter (polls serverId now)).outcome i base cur =
        some (m, .handed (fetchPending base (now i) serverId).2) := by
  have hmoves := @fetchPending_moves croniter (now i) base serverId
  have hnext := hmoves.executions_next_eq (by rintro _ ⟨e, -, rfl⟩; exact id)
  obtain ⟨m, hm⟩ := @writeBack_isSome base _ cur hnext
  refine ⟨m, hm, ?_⟩
  simp [Transactions.outcome, transactions, polls, perform, Except.toOption, pure, Except.pure, hm]

theorem polls_answer (base cur : Db) :
    (((transactions croniter (polls serverId now)).answer i base cur).map Reply.items).getD [] =
      (fetchPending base (now i) serverId).2 := by
  obtain ⟨m, -, hout⟩ := @polls_outcome croniter serverId now i base cur
  rw [Transactions.answer, hout]
  rfl

theorem polls_result {e : OpsTaskExecution} (he : e ∈ db.fetchPendingByServer serverId 10) :
    ((transactions croniter (polls serverId now)).result i db db).HasStatus e.id .running := by
  obtain ⟨m, hm, hout⟩ := @polls_outcome croniter serverId now i db db
  have hmem := (mem_fetchPendingByServer he).1.1
  have hstatus := (Db.hasStatus_self hmem).writeBack (fetchPending_running he)
    (Db.hasStatus_self hmem) hm
  rw [mergeColumn_self] at hstatus
  rw [Transactions.result, hout]
  exact hstatus

/-- A poll that reads what another one committed hands out none of its executions. -/
theorem handed_disjoint_of_follows (h : Follows i j l) (hne : i ≠ j) :
    ∀ a ∈ handedBy ((transactions croniter (polls serverId now)).play db l) i,
      ∀ b ∈ handedBy ((transactions croniter (polls serverId now)).play db l) j,
        a.executionId ≠ b.executionId := by
  obtain ⟨hi, hj⟩ := Transactions.replies_of_follows (T := transactions croniter (polls serverId now))
    (s := db) h hne
  intro a ha b hb heq
  rw [handedBy, hi, polls_answer] at ha
  rw [handedBy, hj, polls_answer] at hb
  obtain ⟨e, he, hid, -⟩ := mem_fetchPending ha
  obtain ⟨f, hf, hid', -⟩ := mem_fetchPending hb
  have hrunning := @polls_result croniter db serverId now i e he
  obtain ⟨⟨hf, hpending, -⟩, -⟩ := mem_fetchPendingByServer hf
  have hpending' := Db.hasStatus_self hf
  rw [← hid', ← heq, hid] at hpending'
  have hcontra := hpending'.unique hrunning
  rw [hpending] at hcontra
  cases hcontra

/-- Two polls that overlap answer the same list. -/
theorem handed_ids_of_overlaps (h : Overlaps i j l) (hne : i ≠ j) (k : Session)
    (hk : k = i ∨ k = j) :
    (handedBy ((transactions croniter (polls serverId now)).play db l) k).map
      (·.executionId) = (db.fetchPendingByServer serverId 10).map (·.id) := by
  obtain ⟨hi, hj⟩ := Transactions.replies_of_overlaps
    (T := transactions croniter (polls serverId now)) (s := db) h hne
  rcases hk with rfl | rfl
  · rw [handedBy, hi, polls_answer, fetchPending_ids]
  · rw [handedBy, hj, polls_answer, fetchPending_ids]

theorem handed_disjoint_of_overlaps (h : Overlaps i j l) (hne : i ≠ j) :
    (∀ a ∈ handedBy ((transactions croniter (polls serverId now)).play db l) i,
      ∀ b ∈ handedBy ((transactions croniter (polls serverId now)).play db l) j,
        a.executionId ≠ b.executionId) ↔ db.fetchPendingByServer serverId 10 = [] := by
  have hi := @handed_ids_of_overlaps croniter db serverId now _ _ _ h hne i (.inl rfl)
  have hj := @handed_ids_of_overlaps croniter db serverId now _ _ _ h hne j (.inr rfl)
  constructor
  · intro hdisjoint
    by_contra hsome
    obtain ⟨e, he⟩ := List.exists_mem_of_ne_nil _ hsome
    have hmem := List.mem_map_of_mem (f := fun e : OpsTaskExecution => e.id) he
    obtain ⟨a, ha, hae⟩ := List.mem_map.mp (hi ▸ hmem)
    obtain ⟨b, hb, hbe⟩ := List.mem_map.mp (hj ▸ hmem)
    exact hdisjoint a ha b hb (hae.trans hbe.symm)
  · intro hempty a ha
    rw [hempty, List.map_nil, List.map_eq_nil_iff] at hi
    rw [hi] at ha
    cases ha

end TwoPolls

/-- Two polls of one server hand out no execution twice exactly when one of them commits before
the other reads, or there is nothing to claim. -/
theorem handed_out_once (croniter : CronIter) (db : Db) (serverId : ℕ) (now : Session → Time)
    (l : List (Phase Session)) (hl : Interleaving .one .two l) :
    (∀ a ∈ handedBy ((transactions croniter (polls serverId now)).play db l) .one,
      ∀ b ∈ handedBy ((transactions croniter (polls serverId now)).play db l) .two,
        a.executionId ≠ b.executionId) ↔
      Serial .one .two l ∨ db.fetchPendingByServer serverId 10 = [] := by
  rcases interleaving_cases hl with hserial | hover | hover
  · simp only [hserial, true_or, iff_true]
    rcases hserial with h | h
    · exact handed_disjoint_of_follows h (by decide)
    · exact fun a ha b hb heq => handed_disjoint_of_follows h (by decide) b hb a ha heq.symm
  · rw [handed_disjoint_of_overlaps hover (by decide)]
    simp [hover.not_serial]
  · have hswap := @handed_disjoint_of_overlaps croniter db serverId now _ _ _ hover (by decide)
    simp only [hover.not_serial, false_or, ← hswap]
    exact ⟨fun h b hb a ha heq => h a ha b hb heq.symm, fun h a ha b hb heq => h b hb a ha heq.symm⟩

namespace Sample

/-- The status check is created and nobody has polled yet. -/
def waitingCheck : Db := after everyMinute servers services [⟨0, .createTask (check "ONCE") 1 none⟩]

end Sample

/-- One poll after the other. -/
theorem handed_out_once_serial :
    (handedBy ((transactions Sample.everyMinute (polls 1 fun _ => 1000)).play
      Sample.waitingCheck [.read .one, .commit .one, .read .two, .commit .two]) .one).length = 1 ∧
    ∀ a ∈ handedBy ((transactions Sample.everyMinute (polls 1 fun _ => 1000)).play
        Sample.waitingCheck [.read .one, .commit .one, .read .two, .commit .two]) .one,
      ∀ b ∈ handedBy ((transactions Sample.everyMinute (polls 1 fun _ => 1000)).play
        Sample.waitingCheck [.read .one, .commit .one, .read .two, .commit .two]) .two,
        a.executionId ≠ b.executionId :=
  ⟨by decide, (handed_out_once Sample.everyMinute Sample.waitingCheck 1 (fun _ => 1000) _
    (.left (.left (.right (.right .nil))))).mpr (.inl (.inl rfl))⟩

/-- Both polls read before either commits. -/
theorem check_handed_out_twice :
    ¬ ∀ (croniter : CronIter) (db : Db) (serverId : ℕ) (now : Session → Time)
      (l : List (Phase Session)), Interleaving .one .two l →
      ∀ a ∈ handedBy ((transactions croniter (polls serverId now)).play db l) .one,
        ∀ b ∈ handedBy ((transactions croniter (polls serverId now)).play db l) .two,
          a.executionId ≠ b.executionId := by
  intro h
  have hdisjoint := h Sample.everyMinute Sample.waitingCheck 1 (fun _ => 1000)
    [.read .one, .read .two, .commit .one, .commit .two] (.left (.right (.left (.right .nil))))
  obtain ⟨a, ha, b, hb, heq⟩ : ∃ a ∈ handedBy ((transactions Sample.everyMinute
      (polls 1 fun _ => 1000)).play Sample.waitingCheck
        [.read .one, .read .two, .commit .one, .commit .two]) .one,
      ∃ b ∈ handedBy ((transactions Sample.everyMinute (polls 1 fun _ => 1000)).play
        Sample.waitingCheck [.read .one, .read .two, .commit .one, .commit .two]) .two,
        a.executionId = b.executionId := by decide
  exact hdisjoint a ha b hb heq

end OpsMonitor.Task

import OpsMonitor.Task.Finishing
import OpsMonitor.Task.Verdicts

/-! Two of the calls that race for the executions, in any interleaving. The call that commits
second decided on what it read before, so it may overwrite a finished status; it says here
exactly when it does. -/

namespace OpsMonitor.Task
open Library

variable {croniter : CronIter} {now : Time} {kept : Prop} {db db' cur : Db}

/-- The executions that were finished in `db` have the same status in `db'`. -/
def FinishedKept (db db' : Db) : Prop :=
  ∀ e ∈ db.executions, e.status.finished = true → db'.HasStatus e.id e.status

instance (db db' : Db) : Decidable (FinishedKept db db') :=
  inferInstanceAs (Decidable (∀ e ∈ db.executions, e.status.finished = true →
    ∃ r ∈ db'.executions, r.id = e.id ∧ r.status = e.status))

theorem FinishedKept.refl (db : Db) : FinishedKept db db := fun _ he _ => Db.hasStatus_self he

/-! ## One call at a time -/

section Commit
variable {request : Session → Event} {i j : Session}

theorem body_eq_some {new : Db} {reply : Reply} :
    (transactions croniter request).body i db = some (new, reply) ↔
      perform croniter db (request i).now (request i).call = .ok (new, reply) := by
  unfold transactions Except.toOption
  dsimp only
  cases perform croniter db (request i).now (request i).call <;> simp

theorem body_eq_none : (transactions croniter request).body i db = none ↔
    ∃ x, perform croniter db (request i).now (request i).call = .error x := by
  unfold transactions Except.toOption
  dsimp only
  cases perform croniter db (request i).now (request i).call <;> simp

/-- A transaction that commits on the state it read keeps the finished executions. -/
theorem finishedKept_result (hcall : (request i).call.contends = true) :
    FinishedKept db ((transactions croniter request).result i db db) := by
  cases hbody : (transactions croniter request).body i db with
  | none =>
    rw [Transactions.result_of_raised hbody]
    exact .refl db
  | some p =>
    obtain ⟨new, reply⟩ := p
    cases hwrite : Db.writeBack db new db with
    | none =>
      rw [Transactions.result_of_refused hbody hwrite]
      exact .refl db
    | some m =>
      rw [Transactions.result_of_written hbody hwrite]
      intro e he hfin
      have hmoves := perform_moves (body_eq_some.mp hbody)
      have hne : ∀ days, (request i).call ≠ .cleanupHistory days := by
        intro days heq
        simp [heq, Call.contends] at hcall
      have hnew : e ∈ new.executions :=
        (hmoves.finishes fun act hact => Call.ne_purge_of_allows hne hact).kept e he hfin
      have hstatus := (Db.hasStatus_self he).writeBack (Db.hasStatus_self hnew)
        (Db.hasStatus_self he) hwrite
      rwa [mergeColumn_self] at hstatus

end Commit

/-! ## Two calls that overlap -/

/-- The second decision does not change a finished status that the first one leads to. -/
def Agree (db : Db) (first second : Event) : Prop :=
  ∀ e ∈ db.executions, ∀ s ∈ verdict db first.now e first.call, s.finished = true →
    ∀ s' ∈ verdict db second.now e second.call, s' = e.status ∨ s' = s

instance (db : Db) (first second : Event) : Decidable (Agree db first second) :=
  inferInstanceAs (Decidable (∀ e ∈ db.executions, ∀ s ∈ verdict db first.now e first.call,
    s.finished = true → ∀ s' ∈ verdict db second.now e second.call, s' = e.status ∨ s' = s))

/-- Both are dispatches and retry a common execution, so the second one meets the unique key of
the next attempt. -/
def Clash (db : Db) (first second : Event) : Prop :=
  ∃ m n, first.call = .dispatchRetries m ∧ second.call = .dispatchRetries n ∧
    ∃ e, Retries db first.now m e ∧ Retries db second.now n e

section Overlap
variable {request : Session → Event} {i j : Session}

theorem IsNext.same {e f r r' : OpsTaskExecution} (h : IsNext e r) (h' : IsNext f r')
    (htask : r.taskId = r'.taskId) (htarget : r.targetId = r'.targetId)
    (hattempt : r.attempt = r'.attempt) : SameChain e f ∧ e.attempt = f.attempt := by
  obtain ⟨⟨h1, h2⟩, h3⟩ := h
  obtain ⟨⟨h1', h2'⟩, h3'⟩ := h'
  exact ⟨⟨h1.trans (htask.trans h1'.symm), h2.trans (htarget.trans h2'.symm)⟩, by omega⟩

/-- The attempt after a row that waits for its retry is not in the table. -/
theorem Chains.not_hasAttempt (h : Chains db) {limit : ℕ} {e r f : OpsTaskExecution}
    (he : Retries db now limit e) (hnext : IsNext e r) (hf : f ∈ db.executions) :
    ¬ (f.taskId = r.taskId ∧ f.targetId = r.targetId ∧ f.attempt = r.attempt) := by
  rintro ⟨htask, htarget, hattempt⟩
  have hdue := mem_listDueRetries he.1
  have hle := h.attempt_le_of_open hdue.1 hf
    ⟨hnext.1.1.trans htask.symm, hnext.1.2.trans htarget.symm⟩ (by rw [hdue.2.1]; rfl)
  have hsucc := hnext.2
  omega

theorem writeBack_executions {base new m : Db} (h : Db.writeBack base new cur = some m) :
    m.executions = Table.merge OpsTaskExecution.merge (fun _ _ _ => rfl) base.executions
      new.executions cur.executions := by
  unfold Db.writeBack at h
  split_ifs at h
  rw [← Option.some.inj h]

/-- A commit on the state that was read is not refused. -/
theorem Inv.writeBack_self (h : Inv kept db) {call : Call} (hcall : call.contends = true)
    {reply : Reply} (hok : perform croniter db now call = .ok (db', reply)) :
    ∃ m, Db.writeBack db db' db = some m := by
  have hfree : ¬ ∃ r ∈ Table.inserted db.executions db'.executions, db.HasAttempt r := by
    rintro ⟨r, hr, f, hf, hsame⟩
    obtain ⟨-, limit, -, e, he, hnext⟩ := h.perform_inserted hcall hok hr
    exact h.toChains.not_hasAttempt he hnext hf hsame
  exact ⟨_, if_neg hfree⟩

/-- The first commit: nobody else has written. -/
theorem Inv.result_first (h : Inv kept db) (hcall : (request i).call.contends = true)
    {e : OpsTaskExecution} (he : e ∈ db.executions) :
    ((transactions croniter request).result i db db).HasStatus e.id
      ((verdict db (request i).now e (request i).call).getD e.status) := by
  cases hbody : (transactions croniter request).body i db with
  | none =>
    obtain ⟨x, herr⟩ := body_eq_none.mp hbody
    rw [Transactions.result_of_raised hbody, h.verdict_of_error hcall herr he]
    exact Db.hasStatus_self he
  | some p =>
    obtain ⟨new, reply⟩ := p
    have hok := body_eq_some.mp hbody
    obtain ⟨m, hwrite⟩ := h.writeBack_self hcall hok
    rw [Transactions.result_of_written hbody hwrite]
    have hstatus := (Db.hasStatus_self he).writeBack (h.perform_hasStatus hcall hok he)
      (Db.hasStatus_self he) hwrite
    rwa [mergeColumn_self] at hstatus

/-- The rows after the first commit: old ones, and the next attempts it added. -/
structure FirstCommit (db : Db) (first : Event) (s : Db) : Prop where
  old : ∀ f ∈ s.executions, f.id < db.executions.next → ∃ c ∈ db.executions, SameRow c f
  new : ∀ f ∈ s.executions, db.executions.next ≤ f.id → f.status = .pending ∧
    ∃ m, first.call = .dispatchRetries m ∧ ∃ e, Retries db first.now m e ∧ IsNext e f
  next : ∀ m e, first.call = .dispatchRetries m → Retries db first.now m e →
    ∃ f ∈ s.executions, IsNext e f

theorem Inv.firstCommit (h : Inv kept db) (hcall : (request i).call.contends = true) :
    FirstCommit db (request i) ((transactions croniter request).result i db db) := by
  cases hbody : (transactions croniter request).body i db with
  | none =>
    obtain ⟨x, herr⟩ := body_eq_none.mp hbody
    rw [Transactions.result_of_raised hbody]
    refine ⟨fun f hf _ => ⟨f, hf, .rfl' f⟩, fun f hf hle => ?_, fun m e hm => ?_⟩
    · have hlt : f.id < db.executions.next := Table.key_lt hf
      omega
    · rw [hm] at herr
      rcases bind_eq_error.mp herr with herr | ⟨d, -, herr⟩
      · exact absurd herr h.dispatchRetries_ne
      · exact absurd herr pure_ne_error
  | some p =>
    obtain ⟨new, reply⟩ := p
    have hok := body_eq_some.mp hbody
    obtain ⟨m, hwrite⟩ := h.writeBack_self hcall hok
    rw [Transactions.result_of_written hbody hwrite]
    have hrows := writeBack_executions hwrite
    refine ⟨fun f hf hlt => ?_, fun f hf hle => ?_, fun limit e hlimit he => ?_⟩
    · rw [hrows] at hf
      obtain ⟨c, hc, -, rfl | ⟨b, -, n, -, -, -, rfl⟩⟩ := Table.of_mem_merge hf hlt
      · exact ⟨f, hc, .rfl' f⟩
      · exact ⟨c, hc, ⟨rfl, rfl, rfl, rfl, rfl⟩⟩
    · rw [hrows] at hf
      obtain ⟨a, ha, k, rfl⟩ := Table.of_mem_merge_new hf hle
      have hrow := h.perform_inserted hcall hok ha
      exact hrow
    · rw [hlimit] at hok
      obtain ⟨r, hr, hnext⟩ := h.exists_inserted hok he
      obtain ⟨k, hk⟩ := Table.exists_mem_merge hr
      rw [hrows]
      exact ⟨_, hk, hnext⟩

/-- The second commit keeps what the first one finished exactly when the decisions agree, or
when the unique key refuses it. -/
theorem Inv.finishedKept_second (h : Inv kept db) (hi : (request i).call.contends = true)
    (hj : (request j).call.contends = true) :
    FinishedKept ((transactions croniter request).result i db db)
        ((transactions croniter request).result j db
          ((transactions croniter request).result i db db)) ↔
      Clash db (request i) (request j) ∨ Agree db (request i) (request j) := by
  have hfirst := @Inv.firstCommit croniter _ _ _ _ h hi
  have hstatus := fun e he => @Inv.result_first croniter _ _ _ _ h hi e he
  generalize (transactions croniter request).result i db db = s at hfirst hstatus
  cases hbody : (transactions croniter request).body j db with
  | none =>
    obtain ⟨x, herr⟩ := body_eq_none.mp hbody
    rw [Transactions.result_of_raised hbody]
    refine ⟨fun _ => .inr fun e he _ _ _ s' hs' => ?_, fun _ => .refl s⟩
    rw [h.verdict_of_error hj herr he] at hs'
    cases hs'
  | some p =>
    obtain ⟨new, reply⟩ := p
    have hok := body_eq_some.mp hbody
    cases hwrite : Db.writeBack db new s with
    | none =>
      rw [Transactions.result_of_refused hbody hwrite]
      refine ⟨fun _ => .inl ?_, fun _ => .refl s⟩
      unfold Db.writeBack at hwrite
      split_ifs at hwrite with htaken
      obtain ⟨r, hr, f, hf, htask, htarget, hattempt⟩ := htaken
      obtain ⟨-, n, hn, e, he, hnext⟩ := h.perform_inserted hj hok hr
      by_cases hlt : f.id < db.executions.next
      · obtain ⟨c, hc, hsame⟩ := hfirst.old f hf hlt
        rw [hsame.taskId] at htask
        rw [hsame.targetId] at htarget
        rw [hsame.attempt] at hattempt
        exact absurd ⟨htask, htarget, hattempt⟩ (h.toChains.not_hasAttempt he hnext hc)
      · obtain ⟨-, m, hm, e', he', hnext'⟩ := hfirst.new f hf (not_lt.mp hlt)
        obtain ⟨hchain, hsame⟩ := hnext'.same hnext htask htarget hattempt
        obtain rfl := h.unique e' he'.mem e he.mem hchain hsame
        exact ⟨m, n, hm, hn, e', he', he⟩
    | some d =>
      rw [Transactions.result_of_written hbody hwrite]
      have hclash : ¬ Clash db (request i) (request j) := by
        rintro ⟨m, n, hm, hn, e, he, he'⟩
        obtain ⟨f, hf, hnext⟩ := hfirst.next m e hm he
        rw [hn] at hok
        obtain ⟨r, hr, hnext'⟩ := h.exists_inserted hok he'
        unfold Db.writeBack at hwrite
        split_ifs at hwrite with htaken
        refine htaken ⟨r, hr, f, hf, ?_, ?_, ?_⟩
        · exact hnext.1.1.symm.trans hnext'.1.1
        · exact hnext.1.2.symm.trans hnext'.1.2
        · exact hnext.2.trans hnext'.2.symm
      have hsecond : ∀ e ∈ db.executions, d.HasStatus e.id (mergeColumn e.status
          ((verdict db (request j).now e (request j).call).getD e.status)
          ((verdict db (request i).now e (request i).call).getD e.status)) := fun e he =>
        (Db.hasStatus_self he).writeBack (h.perform_hasStatus hj hok he) (hstatus e he) hwrite
      simp only [hclash, false_or]
      constructor
      · intro hkept e he t ht hfin t' ht'
        have hold := hstatus e he
        have hnew := hsecond e he
        rw [Option.mem_def.mp ht, Option.getD_some] at hold hnew
        rw [Option.mem_def.mp ht', Option.getD_some] at hnew
        obtain ⟨r, hr, hrid, rfl⟩ := hold
        have hsame := (hkept r hr hfin).unique (hrid ▸ hnew)
        exact mergeColumn_eq_cur.mp hsame.symm
      · intro hagree r hr hfin
        have hlt : r.id < db.executions.next := by
          by_contra hle
          rw [(hfirst.new r hr (not_lt.mp hle)).1] at hfin
          cases hfin
        obtain ⟨e, he, hsame⟩ := hfirst.old r hr hlt
        have hrs := (Db.hasStatus_self hr).unique (hsame.id ▸ hstatus e he)
        have hcolumn : mergeColumn e.status
            ((verdict db (request j).now e (request j).call).getD e.status) r.status =
              r.status := by
          rw [mergeColumn_eq_cur]
          cases hvj : verdict db (request j).now e (request j).call with
          | none => exact .inl rfl
          | some t' =>
            cases hvi : verdict db (request i).now e (request i).call with
            | none =>
              rw [hvi, Option.getD_none] at hrs
              rw [verdict_of_finished (hrs ▸ hfin)] at hvj
              cases hvj
            | some t =>
              rw [hvi, Option.getD_some] at hrs
              rw [hrs] at hfin ⊢
              exact hagree e he t hvi hfin t' hvj
        have hnew := hsecond e he
        rw [← hrs, hcolumn] at hnew
        rwa [hsame.id]

end Overlap

/-! ## All interleavings -/

/-- From a reachable state, two contending calls keep every finished execution exactly when they
do not overlap, or their decisions agree, or the unique key refuses the second commit. -/
theorem finished_stays_finished (croniter : CronIter) (servers : Table OpsServer)
    (services : Table OpsServerService) (es : List Event) (hes : Chronological es)
    (request : Session → Event) (hcall : ∀ i, (request i).call.contends = true)
    (l : List (Phase Session)) (hl : Interleaving .one .two l) :
    (transactions croniter request).Keeps FinishedKept (after croniter servers services es) l ↔
      ∀ i j, Overlaps i j l →
        Clash (after croniter servers services es) (request i) (request j) ∨
          Agree (after croniter servers services es) (request i) (request j) := by
  have hinv := (timed_inv_after croniter servers services hes).1
  have hown : ∀ k s, FinishedKept s ((transactions croniter request).result k s s) :=
    fun k s => finishedKept_result (hcall k)
  rw [Transactions.keeps_iff FinishedKept.refl hown (by decide) hl]
  exact forall₂_congr fun i j => imp_congr_right fun _ =>
    hinv.finishedKept_second (hcall i) (hcall j)

namespace Sample

/-- A one-time check that an agent has claimed. -/
def claimedCheck : List Event := [⟨0, .createTask (check "ONCE") 1 none⟩, ⟨1000, .fetchPending 1⟩]

def success : TaskResultRequest := ⟨1, "SUCCESS", some 0, some "ok", none, none, none⟩

/-- The agent reports twice. -/
def reportedTwice (_ : Session) : Event := ⟨2000, .reportResult 1 success⟩

/-- The agent reports while the timeout scan runs. -/
def reportAndScan : Session → Event
  | .one => ⟨70000, .reportResult 1 success⟩
  | .two => ⟨70000, .scanTimeouts⟩

end Sample

/-- A report that is sent twice stays a success. -/
theorem finished_stays_finished_reported :
    (transactions Sample.everyMinute Sample.reportedTwice).Keeps FinishedKept
      (after Sample.everyMinute Sample.servers Sample.services Sample.claimedCheck)
      [.read .one, .read .two, .commit .one, .commit .two] := by
  refine (finished_stays_finished Sample.everyMinute Sample.servers Sample.services
    Sample.claimedCheck (by decide) Sample.reportedTwice (fun _ => rfl) _
    (.left (.right (.left (.right .nil))))).mpr fun i j _ => .inr ?_
  have hagree : Agree (after Sample.everyMinute Sample.servers Sample.services Sample.claimedCheck)
      ⟨2000, .reportResult 1 Sample.success⟩ ⟨2000, .reportResult 1 Sample.success⟩ := by decide
  exact hagree

/-- The scan reads the execution before the report commits, and overwrites its success. -/
theorem success_overwritten :
    ¬ ∀ (croniter : CronIter) (servers : Table OpsServer) (services : Table OpsServerService)
      (es : List Event) (request : Session → Event) (l : List (Phase Session)),
      Chronological es → (∀ i, (request i).call.contends = true) → Interleaving .one .two l →
      (transactions croniter request).Keeps FinishedKept (after croniter servers services es) l := by
  intro h
  have hkeeps := h Sample.everyMinute Sample.servers Sample.services Sample.claimedCheck
    Sample.reportAndScan [.read .one, .read .two, .commit .one, .commit .two] (by decide)
    (by rintro (_ | _) <;> rfl) (.left (.right (.left (.right .nil))))
  have hsecond := ((Transactions.keeps_of_overlaps FinishedKept.refl (.inl rfl) (by decide)).mp
    hkeeps).2
  exact absurd hsecond (by decide)

end OpsMonitor.Task

import OpsMonitor.Deploy.Restore

/-! Going back over the migrations (`downgrade` of each file under `backend/migrations/versions/`). -/

namespace OpsMonitor.Deploy
open Library Ddl Migrations

/-! ## What the downgrades meet -/

theorem downgrades_run :
    ((catalogAfter migrations).dryRun archiveDowngrade).isSome = true ∧
      ((catalogAfter [baseline, retry, signing]).dryRun signingDowngrade).isSome = true ∧
      ((catalogAfter [baseline, retry]).dryRun retryDowngrade).isSome = true := by
  decide +kernel

/-- The key of a foreign key is the first that the last downgrade drops. -/
theorem baseline_downgrade_refused :
    ∃ t ∈ (catalogAfter [baseline]).lookup "ops_task_log",
      "idx_ops_task_log_execution_time" ∈ t.indexes.map (·.name) ∧
      ∃ fk ∈ t.foreignKeys, t.supports (t.indexes.filter (·.name ≠ "idx_ops_task_log_execution_time")) fk = false := by
  decide +kernel

/-- Where a downgrade of `retry` stops: its two indexes are gone, the key that kept attempts apart with them. -/
theorem retry_downgrade_start :
    ∃ c ∈ (catalogAfter [baseline, retry]).dryRun (retryDowngrade.take 2), ∃ t ∈ c.lookup "ops_task_execution",
      ["task_id", "target_id", "attempt"] ∉ t.keys ∧ "idx_ops_task_execution_retry" ∉ t.indexes.map (·.name) ∧
      (c.dryRun (retryDowngrade.drop 2)).isSome = true := by
  decide +kernel

section Downgrade
variable {done rest : List Migration} {m : Migration} {v : Versioned}

theorem downgradeOne_eq (h : migrations = done ++ m :: rest) (hversion : v.version = some m.revision) :
    downgradeOne v = match v.db.script m.downgrade with
      | (.ok _, db) => (.ok (), ⟨db, m.downRevision⟩)
      | (.error e, db) => (.error (.statement e), { v with db := db }) := by
  have hfind : migrations.find? (fun m => some m.revision = v.version) = some m := by
    rw [hversion]
    rcases splits_next h with ⟨-, rfl, -⟩ | ⟨-, rfl, -⟩ | ⟨-, rfl, -⟩ | ⟨-, rfl, -⟩
    all_goals rfl
  unfold downgradeOne
  rw [hfind] <;> rfl

/-- A downgrade whose statements go through on the catalogue and on the rows. -/
theorem downgradeOne_ok (h : migrations = done ++ m :: rest) (hat : At (done ++ [m]) v)
    (hrun : ((catalogAfter (done ++ [m])).dryRun m.downgrade).isSome = true)
    (hdemands : Demands v.db.rows m.downgrade) :
    (downgradeOne v).1 = .ok () ∧ (downgradeOne v).2.version = m.downRevision ∧
      (downgradeOne v).2.db.rows = rewriteAll v.db.rows m.downgrade := by
  obtain ⟨c, hc⟩ := Option.isSome_iff_exists.mp hrun
  rw [← hat.catalog] at hc
  have hscript : v.db.script m.downgrade = (.ok (), ⟨c, rewriteAll v.db.rows m.downgrade⟩) := script_ok hc hdemands
  rw [downgradeOne_eq h (by simp [hat.version]), hscript]
  exact ⟨rfl, rfl, rfl⟩

theorem demands_retry_downgrade {rows : String → List Row}
    (hpair : Unique ["task_id", "target_id"] (rows "ops_task_execution")) : Demands rows retryDowngrade := by
  unfold retryDowngrade
  iterate 2 refine demands_cons rfl ?_
  refine demands_unique ?_ (demands_of_makesNoKey (by decide))
  simpa [Operation.rewrite, Operation.table, Operation.rewriteRows] using hpair

/-- The first revision cannot be left: MySQL keeps the index of a foreign key. -/
theorem downgradeOne_baseline (hat : At [baseline] v) :
    downgradeOne v = (.error (.statement (.neededInForeignKey "idx_ops_task_log_execution_time")), v) := by
  obtain ⟨t, hlookup, hindex, hneeded⟩ := baseline_downgrade_refused
  rw [← hat.catalog] at hlookup
  have hscript : v.db.script baseline.downgrade =
      (.error (.neededInForeignKey "idx_ops_task_log_execution_time"), v.db) :=
    script_cons_error (exec_dropIndex_needed hlookup hindex hneeded)
  rw [downgradeOne_eq migrations_baseline hat.version, hscript]

/-- The downgrade to the first revision stopped between two of its statements, and cannot be run again. -/
structure Halfway (v v' : Versioned) : Prop where
  version : v'.version = v.version
  rows : v'.db.rows = v.db.rows
  keyless : ∃ t ∈ v'.db.catalog.lookup "ops_task_execution", ["task_id", "target_id", "attempt"] ∉ t.keys
  again : downgradeOne v' = (.error (.statement (.unknownIndex "idx_ops_task_execution_retry")), v')

/-- Two attempts for one target stop the downgrade of `retry` after its first two statements. -/
theorem downgradeOne_halfway (hat : At [baseline, retry] v)
    (hpair : ¬Unique ["task_id", "target_id"] (v.db.rows "ops_task_execution")) :
    ∃ v', downgradeOne v = (.error (.statement (.duplicateEntry "ops_task_execution")), v') ∧ Halfway v v' := by
  obtain ⟨c, hc, t, ht, hkeyless, hindex, hrest⟩ := retry_downgrade_start
  have hrows : rewriteAll v.db.rows (retryDowngrade.take 2) = v.db.rows := by
    simp [rewriteAll, retryDowngrade, Operation.rewrite, Operation.table, Operation.rewriteRows]
  have hstart : v.db.script (retryDowngrade.take 2) = (.ok (), ⟨c, v.db.rows⟩) := by
    rw [← hat.catalog] at hc
    have hok : v.db.script (retryDowngrade.take 2) = _ := script_ok hc (demands_of_makesNoKey (by decide))
    rw [hok, hrows]
  -- The key of the first revision comes back only where no target has two executions.
  have hscript : v.db.script retry.downgrade = (.error (.duplicateEntry "ops_task_execution"), ⟨c, v.db.rows⟩) := by
    rw [show retry.downgrade = retryDowngrade.take 2 ++ retryDowngrade.drop 2 from rfl, script_append, hstart]
    exact script_cons_error (exec_createIndex_clash hrest hpair)
  refine ⟨⟨⟨c, v.db.rows⟩, v.version⟩, ?_, rfl, rfl, ⟨t, ht, hkeyless⟩, ?_⟩
  · rw [downgradeOne_eq migrations_retry hat.version, hscript]
  · have hagain : Database.script ⟨c, v.db.rows⟩ retry.downgrade = _ :=
      script_cons_error (exec_dropIndex_unknown ht hindex)
    have hversion : (⟨⟨c, v.db.rows⟩, v.version⟩ : Versioned).version = some retry.revision := hat.version
    rw [downgradeOne_eq migrations_retry hversion, hagain]

/-- A downgrade goes through exactly if it does not leave the first revision, and the one of `retry` only if no target
of a task was tried twice. -/
theorem downgrade_exact (h : migrations = done ++ m :: rest) (hat : At (done ++ [m]) v) :
    ((downgradeOne v).1 = .ok () ↔
        m ≠ baseline ∧ (m = retry → Unique ["task_id", "target_id"] (v.db.rows "ops_task_execution"))) ∧
      ((downgradeOne v).1 = .ok () →
        (downgradeOne v).2.version = m.downRevision ∧ (downgradeOne v).2.db.rows = rewriteAll v.db.rows m.downgrade) ∧
      (m = baseline →
        downgradeOne v = (.error (.statement (.neededInForeignKey "idx_ops_task_log_execution_time")), v)) ∧
      (m = retry → ¬Unique ["task_id", "target_id"] (v.db.rows "ops_task_execution") →
        ∃ v', downgradeOne v = (.error (.statement (.duplicateEntry "ops_task_execution")), v') ∧ Halfway v v') := by
  obtain ⟨harchive, hsigning, hretry⟩ := downgrades_run
  have hbase : ∀ other : Migration, other.revision ≠ baseline.revision → other ≠ baseline := fun _ hne heq =>
    hne (congrArg Migration.revision heq)
  have hnot : ∀ other : Migration, other.revision ≠ retry.revision → other ≠ retry := fun _ hne heq =>
    hne (congrArg Migration.revision heq)
  rcases splits_next h with ⟨rfl, rfl, rfl⟩ | ⟨rfl, rfl, rfl⟩ | ⟨rfl, rfl, rfl⟩ | ⟨rfl, rfl, rfl⟩
  · have hfails := downgradeOne_baseline hat
    have herror : (downgradeOne v).1 ≠ .ok () := by
      rw [hfails]
      intro hok
      cases hok
    exact ⟨⟨fun hok => absurd hok herror, fun hok => absurd rfl hok.1⟩, fun hok => absurd hok herror, fun _ => hfails,
      fun heq => absurd heq (hnot _ (by decide))⟩
  · have hother : retry ≠ baseline := hbase _ (by decide)
    by_cases hpair : Unique ["task_id", "target_id"] (v.db.rows "ops_task_execution")
    · obtain ⟨hok, hafter⟩ := downgradeOne_ok migrations_retry hat hretry
        (demands_retry_downgrade hpair)
      exact ⟨⟨fun _ => ⟨hother, fun _ => hpair⟩, fun _ => hok⟩, fun _ => hafter, fun heq => absurd heq hother,
        fun _ hclash => absurd hpair hclash⟩
    · have hfails := downgradeOne_halfway hat hpair
      have herror : (downgradeOne v).1 ≠ .ok () := by
        obtain ⟨v', hrun, -⟩ := hfails
        rw [hrun]
        intro hok
        cases hok
      exact ⟨⟨fun hok => absurd hok herror, fun hok => absurd (hok.2 rfl) hpair⟩, fun hok => absurd hok herror,
        fun heq => absurd heq hother, fun _ _ => hfails⟩
  · obtain ⟨hok, hafter⟩ := downgradeOne_ok migrations_signing hat hsigning
      (demands_of_makesNoKey (by decide))
    have hretry : signing ≠ retry := hnot _ (by decide)
    have hother : signing ≠ baseline := hbase _ (by decide)
    exact ⟨⟨fun _ => ⟨hother, fun heq => absurd heq hretry⟩, fun _ => hok⟩, fun _ => hafter,
      fun heq => absurd heq hother, fun heq => absurd heq hretry⟩
  · obtain ⟨hok, hafter⟩ := downgradeOne_ok migrations_archive hat harchive
      (demands_of_makesNoKey (by decide))
    have hretry : archive ≠ retry := hnot _ (by decide)
    have hother : archive ≠ baseline := hbase _ (by decide)
    exact ⟨⟨fun _ => ⟨hother, fun heq => absurd heq hretry⟩, fun _ => hok⟩, fun _ => hafter,
      fun heq => absurd heq hother, fun heq => absurd heq hretry⟩

end Downgrade

/-! ## A task that was retried -/

namespace Sample

def execution (id attempt : String) : Row :=
  [("id", some id), ("task_id", some "1"), ("target_id", some "1"), ("server_id", some "1"), ("status", some "FAILED"),
   ("exit_code", none), ("result_text", none), ("error_message", none), ("started_at", none), ("finished_at", none),
   ("duration_ms", none), ("created_at", some "2026-01-01 00:00:00.000"),
   ("updated_at", some "2026-01-01 00:00:00.000"), ("attempt", some attempt),
   ("next_retry_at", none), ("error_type", some "NETWORK_ERROR")]

/-- A database in which the first attempt of a target failed and the second as well. -/
def retried : Versioned :=
  ⟨⟨catalogAfter [baseline, retry],
    Function.update (fun _ => []) "ops_task_execution" [execution "1" "1", execution "2" "2"]⟩, some retry.revision⟩

theorem executions_hold :
    ∃ t ∈ (catalogAfter [baseline, retry]).lookup "ops_task_execution",
      (∀ row ∈ [execution "1" "1", execution "2" "2"], row.map Prod.fst = t.names) ∧
      (∀ column ∈ t.columns, column.nullable = false →
        ∀ row ∈ [execution "1" "1", execution "2" "2"], row.cell column.name ≠ none) ∧
      ∀ key ∈ t.keys, Unique key [execution "1" "1", execution "2" "2"] := by
  decide +kernel

theorem at_retried : At [baseline, retry] retried := by
  obtain ⟨t, hlookup, hshaped, hfilled, hunique⟩ := executions_hold
  have hfresh := (at_freshAt migrations_signing).valid
  have hholds := hfresh.holds _ t hlookup
  exact ⟨rfl, rfl, hfresh.withRows hlookup ⟨hholds.distinct, hholds.keyed, hshaped, hfilled, hunique⟩⟩

end Sample

/-- The last migration can be undone, the one that brought retries cannot once a task was retried. -/
theorem retried_task_blocks_downgrade :
    (downgradeOne (freshAt migrations)).1 = .ok () ∧
      ∃ v', downgradeOne Sample.retried = (.error (.statement (.duplicateEntry "ops_task_execution")), v') ∧
        Halfway Sample.retried v' := by
  have hlast : At migrations (freshAt migrations) := at_freshAt (List.append_nil migrations).symm
  have harchive := downgrade_exact migrations_archive hlast
  have hretry := downgrade_exact migrations_retry Sample.at_retried
  constructor
  · have hbase : archive ≠ baseline := fun heq => absurd (congrArg Migration.revision heq) (by decide)
    have hnot : archive ≠ retry := fun heq => absurd (congrArg Migration.revision heq) (by decide)
    exact harchive.1.mpr ⟨hbase, fun heq => absurd heq hnot⟩
  · exact hretry.2.2.2 rfl (by decide)

end OpsMonitor.Deploy

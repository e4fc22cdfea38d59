import OpsMonitor.Deploy.Migrations

/-! Backup and restore across the migrations (`deploy/backup.sh`, `deploy/restore.sh`, `backend/entrypoint.sh`). -/

namespace OpsMonitor.Deploy
open Library Ddl Migrations

/-! ## The catalogue along the migrations -/

section Splits
variable {done rest : List Migration} {m : Migration}

/-- How far a database can be. -/
theorem splits (h : migrations = done ++ rest) :
    (done = [] ∧ rest = migrations) ∨ (done = [baseline] ∧ rest = [retry, signing, archive]) ∨
      (done = [baseline, retry] ∧ rest = [signing, archive]) ∨ (done = [baseline, retry, signing] ∧ rest = [archive]) ∨
      (done = migrations ∧ rest = []) := by
  rcases done with _ | ⟨first, _ | ⟨second, _ | ⟨third, _ | ⟨fourth, _ | ⟨fifth, done⟩⟩⟩⟩⟩
  all_goals simp only [migrations, List.nil_append, List.cons_append, List.cons.injEq] at h
  · exact .inl ⟨rfl, h.symm⟩
  · obtain ⟨rfl, rfl⟩ := h
    exact .inr (.inl ⟨rfl, rfl⟩)
  · obtain ⟨rfl, rfl, rfl⟩ := h
    exact .inr (.inr (.inl ⟨rfl, rfl⟩))
  · obtain ⟨rfl, rfl, rfl, rfl⟩ := h
    exact .inr (.inr (.inr (.inl ⟨rfl, rfl⟩)))
  · obtain ⟨rfl, rfl, rfl, rfl, rfl⟩ := h
    exact .inr (.inr (.inr (.inr ⟨rfl, rfl⟩)))
  · simp at h

theorem splits_next (h : migrations = done ++ m :: rest) :
    (done = [] ∧ m = baseline ∧ rest = [retry, signing, archive]) ∨
      (done = [baseline] ∧ m = retry ∧ rest = [signing, archive]) ∨
      (done = [baseline, retry] ∧ m = signing ∧ rest = [archive]) ∨
      (done = [baseline, retry, signing] ∧ m = archive ∧ rest = []) := by
  rcases splits h with ⟨rfl, hrest⟩ | ⟨rfl, hrest⟩ | ⟨rfl, hrest⟩ | ⟨rfl, hrest⟩ | ⟨-, hrest⟩
  · exact .inl ⟨rfl, List.cons.inj hrest⟩
  · exact .inr (.inl ⟨rfl, List.cons.inj hrest⟩)
  · exact .inr (.inr (.inl ⟨rfl, List.cons.inj hrest⟩))
  · exact .inr (.inr (.inr ⟨rfl, List.cons.inj hrest⟩))
  · exact absurd hrest (List.cons_ne_nil _ _)

end Splits

theorem migrations_baseline : migrations = [] ++ baseline :: [retry, signing, archive] := rfl

theorem migrations_retry : migrations = [baseline] ++ retry :: [signing, archive] := rfl

theorem migrations_signing : migrations = [baseline, retry] ++ signing :: [archive] := rfl

theorem migrations_archive : migrations = [baseline, retry, signing] ++ archive :: [] := rfl

theorem chain_ok : (migrations.foldlM (fun (c : Catalog) m => c.dryRun m.upgrade) []).isSome = true := by
  decide +kernel

theorem foldlM_catalogAfter {done rest : List Migration} (h : migrations = done ++ rest) :
    done.foldlM (fun (c : Catalog) m => c.dryRun m.upgrade) [] = some (catalogAfter done) := by
  have hchain := chain_ok
  rw [h, List.foldlM_append] at hchain
  unfold catalogAfter
  cases hdone : done.foldlM (fun (c : Catalog) m => c.dryRun m.upgrade) [] with
  | none =>
    rw [hdone] at hchain
    cases hchain
  | some c => rfl

theorem dryRun_catalogAfter (done : List Migration) (m : Migration) (rest : List Migration)
    (h : migrations = done ++ m :: rest) :
    (catalogAfter done).dryRun m.upgrade = some (catalogAfter (done ++ [m])) := by
  have hsplit : migrations = done ++ [m] ++ rest := by
    rw [h, List.append_assoc]
    rfl
  have hnext := foldlM_catalogAfter hsplit
  rw [List.foldlM_append, foldlM_catalogAfter h] at hnext
  simpa using hnext

/-- What the first revision says of the two tables whose keys change. -/
theorem baseline_tasks :
    (∃ t ∈ (catalogAfter [baseline]).lookup "ops_task", "idempotency_key" ∉ t.names) ∧
      ∃ t ∈ (catalogAfter [baseline]).lookup "ops_task_execution",
        "attempt" ∉ t.names ∧ ["task_id", "target_id"] ∈ t.keys := by
  decide +kernel

/-! ## Upgrades -/

/-- A database after some of the migrations, whose rows satisfy its keys. -/
structure At (done : List Migration) (v : Versioned) : Prop where
  version : v.version = done.getLast?.map (·.revision)
  catalog : v.db.catalog = catalogAfter done
  valid : v.db.Valid

theorem demands_retry {db : Database} (hcatalog : db.catalog = catalogAfter [baseline]) (hvalid : db.Valid) :
    Demands db.rows retryUpgrade := by
  obtain ⟨⟨task, htask, hfree⟩, execution, hexecution, hattempt, hkey⟩ := baseline_tasks
  rw [← hcatalog] at htask hexecution
  have htaskHolds := hvalid.holds _ task htask
  have hexecutionHolds := hvalid.holds _ execution hexecution
  -- The new key of the tasks is NULL in every old row.
  have hidempotency : Unique ["idempotency_key"] ((db.rows "ops_task").map fun row =>
      row ++ [("max_attempts", some "3")] ++ [("attempt", some "0")] ++ [("deadline_at", none)] ++
        [("idempotency_key", none)]) := by
    refine unique_of_null List.mem_cons_self fun row hrow => ?_
    obtain ⟨old, hold, rfl⟩ := List.mem_map.mp hrow
    refine Row.cell_added ?_
    simpa [htaskHolds.shaped old hold] using hfree
  -- The old key of the executions is a part of the new one.
  have hattempts : Unique ["task_id", "target_id", "attempt"] ((db.rows "ops_task_execution").map fun row =>
      row ++ [("attempt", some "1")] ++ [("next_retry_at", none)] ++ [("error_type", none)]) := by
    have hpair := hexecutionHolds.unique _ hkey
    refine Unique.mono (hpair.map fun row hrow column hcolumn => ?_) (List.cons_ne_nil _ _) (by decide)
    have hmem : column ∈ row.map Prod.fst := by
      rw [hexecutionHolds.shaped row hrow]
      exact hexecutionHolds.keyed _ hkey hcolumn
    rw [List.append_assoc, List.append_assoc]
    exact Row.cell_append hmem _
  unfold retryUpgrade
  iterate 4 refine demands_cons rfl ?_
  refine demands_unique ?_ ?_
  · simpa [Operation.rewrite, Operation.table, Operation.rewriteRows, Function.comp_def] using hidempotency
  iterate 5 refine demands_cons rfl ?_
  refine demands_unique ?_ ?_
  · simpa [Operation.rewrite, Operation.table, Operation.rewriteRows, Function.comp_def] using hattempts
  exact demands_of_makesNoKey (by decide)

/-- The rows meet the keys of the next migration. -/
theorem demands_upgrade {done rest : List Migration} {m : Migration} {db : Database}
    (h : migrations = done ++ m :: rest) (hcatalog : db.catalog = catalogAfter done) (hvalid : db.Valid) :
    Demands db.rows m.upgrade := by
  rcases splits_next h with ⟨-, rfl, -⟩ | ⟨rfl, rfl, -⟩ | ⟨-, rfl, -⟩ | ⟨-, rfl, -⟩
  · exact demands_of_makesNoKey (by decide)
  · exact demands_retry hcatalog hvalid
  · exact demands_of_makesNoKey (by decide)
  · exact demands_of_makesNoKey (by decide)

theorem script_upgrade {done rest : List Migration} {m : Migration} {v : Versioned} (h : migrations = done ++ m :: rest)
    (hat : At done v) :
    v.db.script m.upgrade = (.ok (), ⟨catalogAfter (done ++ [m]), rewriteAll v.db.rows m.upgrade⟩) := by
  have hrun := dryRun_catalogAfter done m rest h
  rw [← hat.catalog] at hrun
  exact script_ok hrun (demands_upgrade h hat.catalog hat.valid)

theorem additive_upgrade {m : Migration} (h : m ∈ migrations) : ∀ op ∈ m.upgrade, op.Additive = true := by
  simp only [migrations, List.mem_cons, List.not_mem_nil, or_false] at h
  rcases h with rfl | rfl | rfl | rfl
  all_goals decide

theorem At.upgrade {done rest : List Migration} {m : Migration} {v : Versioned} (h : migrations = done ++ m :: rest)
    (hat : At done v) :
    At (done ++ [m]) ⟨⟨catalogAfter (done ++ [m]), rewriteAll v.db.rows m.upgrade⟩, some m.revision⟩ ∧
      Extends v.db.rows (rewriteAll v.db.rows m.upgrade) := by
  have hscript := script_upgrade h hat
  have hvalid := hat.valid.script m.upgrade
  have hm : m ∈ migrations := by simp [h]
  have hextends := script_extends hat.valid m.upgrade (additive_upgrade hm)
  rw [hscript] at hvalid hextends
  exact ⟨⟨by simp, rfl, hvalid⟩, hextends⟩

/-- The migrations that are left go through, one after the other. -/
theorem upgradeAll_ok {done ms rest : List Migration} {v : Versioned} (h : migrations = done ++ ms ++ rest)
    (hat : At done v) :
    ∃ v', upgradeAll ms v = (.ok (), v') ∧ At (done ++ ms) v' ∧ Extends v.db.rows v'.db.rows := by
  induction ms generalizing done v with
  | nil => exact ⟨v, rfl, by rwa [List.append_nil], .refl _⟩
  | cons m ms ih =>
    have hsplit : migrations = done ++ m :: (ms ++ rest) := by
      rw [h, List.append_assoc]
      rfl
    obtain ⟨hnext, hextends⟩ := hat.upgrade hsplit
    have hagain : migrations = done ++ [m] ++ ms ++ rest := by
      rw [h, List.append_assoc done [m], List.singleton_append]
    obtain ⟨v', hrun, hat', hextends'⟩ := ih hagain hnext
    refine ⟨v', ?_, ?_, hextends.trans hextends'⟩
    · rw [upgradeAll, script_upgrade hsplit hat]
      exact hrun
    · rwa [List.append_assoc, List.singleton_append] at hat'

theorem pending_at {done rest : List Migration} (h : migrations = done ++ rest) :
    pending (done.getLast?.map (·.revision)) = some rest := by
  rcases splits h with ⟨rfl, rfl⟩ | ⟨rfl, rfl⟩ | ⟨rfl, rfl⟩ | ⟨rfl, rfl⟩ | ⟨rfl, rfl⟩
  all_goals rfl

/-- From every revision the head is reached, and no cell is lost. -/
theorem upgradeHead_ok {done rest : List Migration} {v : Versioned} (h : migrations = done ++ rest) (hat : At done v) :
    ∃ head, upgradeHead v = (.ok (), head) ∧ At migrations head ∧ Extends v.db.rows head.db.rows := by
  have hsplit : migrations = done ++ rest ++ [] := by rw [h, List.append_nil]
  obtain ⟨head, hrun, hat', hextends⟩ := upgradeAll_ok hsplit hat
  refine ⟨head, ?_, by rwa [← h] at hat', hextends⟩
  rw [upgradeHead, hat.version, pending_at h]
  exact hrun

/-! ## Databases without rows -/

theorem at_empty : At [] ⟨Database.empty, none⟩ := by
  refine ⟨rfl, rfl, fun name hlookup => rfl, fun name t hlookup => ?_⟩
  cases hlookup

/-- The tables after some migrations, without rows. -/
def freshAt (done : List Migration) : Versioned := ⟨⟨catalogAfter done, fun _ => []⟩, done.getLast?.map (·.revision)⟩

theorem at_freshAt {done rest : List Migration} (h : migrations = done ++ rest) : At done (freshAt done) := by
  have hsplit : migrations = [] ++ done ++ rest := by rw [List.nil_append, h]
  obtain ⟨v, -, hat, added, hadded⟩ := upgradeAll_ok hsplit at_empty
  have hdb : v.db = (freshAt done).db := congrArg₂ Database.mk hat.catalog (funext hadded)
  have hvalid := hat.valid
  rw [hdb] at hvalid
  exact ⟨rfl, rfl, hvalid⟩

/-! ## Starting the backend -/

/-- Every start of the backend leads to the head without losing a cell, and the next start changes nothing. -/
theorem upgrade_reaches_head {done rest : List Migration} {v : Versioned} (h : migrations = done ++ rest)
    (hat : At done v) :
    ∃ head, upgradeHead v = (.ok (), head) ∧ At migrations head ∧ Extends v.db.rows head.db.rows ∧
      upgradeHead head = (.ok (), head) := by
  obtain ⟨head, hrun, hhead, hextends⟩ := upgradeHead_ok h hat
  refine ⟨head, hrun, hhead, hextends, ?_⟩
  have hpending : pending head.version = some [] := by
    rw [hhead.version]
    exact pending_at (List.append_nil migrations).symm
  rw [upgradeHead, hpending]
  rfl

/-- The first start. -/
theorem first_start_reaches_head :
    ∃ head, upgradeHead ⟨Database.empty, none⟩ = (.ok (), head) ∧ At migrations head ∧
      Extends Database.empty.rows head.db.rows ∧ upgradeHead head = (.ok (), head) :=
  upgrade_reaches_head (List.nil_append migrations).symm at_empty

/-! ## Restoring -/

/-- What `mysql` makes of a dump: it replaces the tables of the dump, the one of alembic among them, and no others. -/
def importDump (dump v : Versioned) : Versioned :=
  ⟨dump.db.catalog.foldl (fun db p => db.replace p.1 p.2 (dump.db.rows p.1)) v.db, dump.version⟩

theorem names_catalogAfter : (catalogAfter migrations).map Prod.fst =
    (catalogAfter [baseline]).map Prod.fst ++ ["monitor_server_metric_daily"] ∧
      ((catalogAfter migrations).map Prod.fst).Nodup := by
  decide +kernel

theorem alters_upgrade {m : Migration} (h : m ∈ [retry, signing]) :
    ∀ op ∈ m.upgrade, op.Alters = true ∧ op.table ≠ "monitor_server_metric_daily" := by
  rcases List.mem_pair.mp h with rfl | rfl
  all_goals decide

/-- The tables are the ones of the first revision until the last. -/
theorem names_at {done rest : List Migration} (h : migrations = done ++ rest) (hne : done ≠ []) :
    (catalogAfter done).map Prod.fst =
      (catalogAfter [baseline]).map Prod.fst ++ if rest = [] then ["monitor_server_metric_daily"] else [] := by
  have hretry := names_dryRun (fun op hop => (alters_upgrade (by simp) op hop).1)
    (dryRun_catalogAfter [baseline] retry [signing, archive] migrations_retry)
  have hsigning := names_dryRun (fun op hop => (alters_upgrade (by simp) op hop).1)
    (dryRun_catalogAfter [baseline, retry] signing [archive] migrations_signing)
  rcases splits h with ⟨rfl, rfl⟩ | ⟨rfl, rfl⟩ | ⟨rfl, rfl⟩ | ⟨rfl, rfl⟩ | ⟨rfl, rfl⟩
  · exact absurd rfl hne
  · rw [if_neg (List.cons_ne_nil _ _), List.append_nil]
  · rw [if_neg (List.cons_ne_nil _ _), List.append_nil]
    exact hretry
  · rw [if_neg (List.cons_ne_nil _ _), List.append_nil]
    exact hsigning.trans hretry
  · rw [if_pos rfl]
    exact names_catalogAfter.1

theorem nodup_names {done rest : List Migration} (h : migrations = done ++ rest) (hne : done ≠ []) :
    ((catalogAfter done).map Prod.fst).Nodup := by
  have hall := names_catalogAfter
  rw [hall.1] at hall
  rw [names_at h hne]
  split_ifs
  · exact hall.2
  · rw [List.append_nil]
    exact (List.nodup_append.mp hall.2).1

/-- An import puts the tables of the dump beside the others. -/
theorem importDump_eq {done rest : List Migration} {dump v : Versioned} (h : migrations = done ++ rest)
    (hne : done ≠ []) (hat : At done dump) (hvalid : v.db.Valid) :
    importDump dump v =
      ⟨dump.db.beside (v.db.catalog.filter (·.1 ∉ dump.db.catalog.map Prod.fst)) v.db.rows, dump.version⟩ := by
  have hnodup : (dump.db.catalog.map Prod.fst).Nodup := by
    rw [hat.catalog]
    exact nodup_names h hne
  unfold importDump Database.beside
  rw [foldl_replace dump.db.rows hnodup]
  refine congrArg₂ Versioned.mk (congrArg₂ Database.mk rfl (funext fun name => ?_)) rfl
  by_cases hname : name ∈ dump.db.catalog.map Prod.fst
  · rw [if_pos hname, if_neg]
    intro hmem
    obtain ⟨p, hp, rfl⟩ := List.mem_map.mp hmem
    exact of_decide_eq_true (List.mem_filter.mp hp).2 hname
  · rw [if_neg hname]
    split_ifs with hextra
    · rfl
    · have hdump := hat.valid.absent name (lookup_eq_none.mpr hname)
      rw [hdump]
      refine hvalid.absent name (lookup_eq_none.mpr fun hmem => hextra ?_)
      obtain ⟨p, hp, rfl⟩ := List.mem_map.mp hmem
      exact List.mem_map_of_mem (List.mem_filter.mpr ⟨hp, decide_eq_true hname⟩)

/-- A table that the dump does not know is in the way of the migration that makes it. -/
theorem upgradeAll_beside {ms : List Migration} {extra : Catalog} {kept : String → List Row} {v : Versioned}
    (h : ∀ m ∈ ms, ∀ op ∈ m.upgrade, op.Alters = true ∧ op.table ∉ extra.map Prod.fst) :
    upgradeAll ms ⟨v.db.beside extra kept, v.version⟩ =
      ((upgradeAll ms v).1, ⟨(upgradeAll ms v).2.db.beside extra kept, (upgradeAll ms v).2.version⟩) := by
  induction ms generalizing v with
  | nil => rfl
  | cons m ms ih =>
    rw [upgradeAll, upgradeAll, script_beside m.upgrade (h m List.mem_cons_self)]
    cases hscript : v.db.script m.upgrade with
    | mk result db =>
      cases result with
      | error e => rfl
      | ok u =>
        have hrest := ih (v := ⟨db, some m.revision⟩) fun m' hm' => h m' (List.mem_cons_of_mem _ hm')
        exact hrest

theorem script_archive {db : Database} (h : (db.catalog.lookup "monitor_server_metric_daily").isSome = true) :
    db.script archive.upgrade = (.error (.tableExists "monitor_server_metric_daily"), db) := by
  refine script_cons_error ?_
  unfold Database.exec
  have halter : ∀ columns primary uniques foreignKeys,
      (Operation.createTable "monitor_server_metric_daily" columns primary uniques foreignKeys).alter db.catalog =
        .error (.tableExists "monitor_server_metric_daily") := fun _ _ _ _ => if_pos h
  rw [halter]
  rfl

/-! ## Which restores succeed -/

/-- The tables that a restore leaves behind. -/
def leftover (dump v : Versioned) : Catalog := v.db.catalog.filter (·.1 ∉ dump.db.catalog.map Prod.fst)

theorem names_leftover (dump v : Versioned) :
    (leftover dump v).map Prod.fst = (v.db.catalog.map Prod.fst).filter (· ∉ dump.db.catalog.map Prod.fst) := by
  unfold leftover
  rw [List.filter_map]
  rfl

section Restore
variable {done later rest : List Migration} {dump v : Versioned}

/-- Nothing is left behind where the last migration, which alone makes a table, lies on the same side of both. -/
theorem leftover_eq_nil (h : migrations = done ++ later ++ rest) (hne : done ≠ []) (hdump : At done dump)
    (hat : At (done ++ later) v) (hcase : later = [] ∨ rest ≠ []) : leftover dump v = [] := by
  have hsplit : migrations = done ++ (later ++ rest) := by rw [h, List.append_assoc]
  have hnames : v.db.catalog.map Prod.fst = dump.db.catalog.map Prod.fst := by
    rw [hdump.catalog, hat.catalog, names_at hsplit hne, names_at h (List.append_ne_nil_of_left_ne_nil hne _)]
    rcases hcase with rfl | hrest
    · rfl
    · rw [if_neg hrest, if_neg (List.append_ne_nil_of_right_ne_nil _ hrest)]
  have hleft : (leftover dump v).map Prod.fst = [] := by
    rw [names_leftover, hnames]
    exact List.filter_eq_nil_iff.mpr fun name hname => by simpa using hname
  exact List.map_eq_nil_iff.mp hleft

/-- Across the last migration its table is left behind, and no other. -/
theorem names_leftover_eq (h : migrations = done ++ later) (hne : done ≠ []) (hlater : later ≠ [])
    (hdump : At done dump) (hat : At migrations v) :
    (leftover dump v).map Prod.fst = ["monitor_server_metric_daily"] := by
  obtain ⟨hnames, hnodup⟩ := names_catalogAfter
  rw [hnames] at hnodup
  have hnew : "monitor_server_metric_daily" ∉ (catalogAfter [baseline]).map Prod.fst := fun hmem =>
    List.disjoint_of_nodup_append hnodup hmem (List.mem_singleton.mpr rfl)
  rw [names_leftover, hdump.catalog, hat.catalog, names_at h hne, if_neg hlater, List.append_nil, hnames,
    List.filter_append]
  have hold : ((catalogAfter [baseline]).map Prod.fst).filter (· ∉ (catalogAfter [baseline]).map Prod.fst) = [] :=
    List.filter_eq_nil_iff.mpr fun name hname => by simpa using hname
  have hkept : ["monitor_server_metric_daily"].filter (· ∉ (catalogAfter [baseline]).map Prod.fst) =
      ["monitor_server_metric_daily"] := List.filter_eq_self.mpr (by simpa using hnew)
  rw [hold, hkept]
  rfl

/-- Without a table left behind an import is the dump. -/
theorem importDump_eq_dump (h : migrations = done ++ later ++ rest) (hne : done ≠ []) (hdump : At done dump)
    (hat : At (done ++ later) v) (hcase : later = [] ∨ rest ≠ []) : importDump dump v = dump := by
  have hsplit : migrations = done ++ (later ++ rest) := by rw [h, List.append_assoc]
  rw [importDump_eq hsplit hne hdump hat.valid]
  have hleft : v.db.catalog.filter (·.1 ∉ dump.db.catalog.map Prod.fst) = [] := leftover_eq_nil h hne hdump hat hcase
  rw [hleft]
  exact congrArg (Versioned.mk · dump.version) (dump.db.beside_nil v.db.rows)

theorem upgradeAll_append (ms ms' : List Migration) (v : Versioned) (hok : (upgradeAll ms v).1 = .ok ()) :
    upgradeAll (ms ++ ms') v = upgradeAll ms' (upgradeAll ms v).2 := by
  induction ms generalizing v with
  | nil => rfl
  | cons m ms ih =>
    rw [List.cons_append, upgradeAll, upgradeAll]
    rw [upgradeAll] at hok
    cases hscript : v.db.script m.upgrade with
    | mk result db =>
      rw [hscript] at hok
      cases result with
      | error e => cases hok
      | ok u => exact ih ⟨db, some m.revision⟩ hok

/-- What comes before the last migration only alters tables. -/
theorem split_archive (h : migrations = done ++ later) (hne : done ≠ []) (hlater : later ≠ []) :
    ∃ middle, later = middle ++ [archive] ∧ (∀ m ∈ middle, m ∈ [retry, signing]) ∧
      (done ++ middle).getLast?.map (·.revision) = some signing.revision := by
  rcases splits h with ⟨rfl, -⟩ | ⟨rfl, rfl⟩ | ⟨rfl, rfl⟩ | ⟨rfl, rfl⟩ | ⟨-, rfl⟩
  · exact absurd rfl hne
  · exact ⟨[retry, signing], rfl, fun m hm => hm, rfl⟩
  · exact ⟨[signing], rfl, fun m hm => List.mem_cons_of_mem _ hm, rfl⟩
  · exact ⟨[], rfl, fun m hm => absurd hm List.not_mem_nil, rfl⟩
  · exact absurd rfl hlater

/-- The restore stands at the migration before the last, which fails from then on. -/
structure Stuck (dump v stuck : Versioned) : Prop where
  version : stuck.version = some signing.revision
  fails : upgradeHead stuck = (.error (.statement (.tableExists "monitor_server_metric_daily")), stuck)
  survives : stuck.db.rows "monitor_server_metric_daily" = v.db.rows "monitor_server_metric_daily"
  others : ∃ rows, Extends dump.db.rows rows ∧
    ∀ name, name ≠ "monitor_server_metric_daily" → stuck.db.rows name = rows name

theorem upgradeHead_stuck {stuck : Versioned} (hversion : stuck.version = some signing.revision)
    (hlookup : (stuck.db.catalog.lookup "monitor_server_metric_daily").isSome = true) :
    upgradeHead stuck = (.error (.statement (.tableExists "monitor_server_metric_daily")), stuck) := by
  have hpending : pending stuck.version = some [archive] := by
    rw [hversion]
    exact pending_at migrations_archive
  rw [upgradeHead, hpending]
  show upgradeAll [archive] stuck = _
  rw [upgradeAll, script_archive hlookup]

/-- A database ahead of the dump by the last migration keeps its table, and the migration finds it. -/
theorem restore_stuck (h : migrations = done ++ later) (hne : done ≠ []) (hlater : later ≠ []) (hdump : At done dump)
    (hat : At migrations v) :
    ∃ stuck, upgradeHead (importDump dump v) =
        (.error (.statement (.tableExists "monitor_server_metric_daily")), stuck) ∧ Stuck dump v stuck := by
  obtain ⟨middle, rfl, halters, hlast⟩ := split_archive h hne hlater
  have hnames := names_leftover_eq h hne hlater hdump hat
  have hsplit : migrations = done ++ middle ++ [archive] := by rw [h, List.append_assoc]
  obtain ⟨before, hrun, hbefore, hextends⟩ := upgradeAll_ok hsplit hdump
  -- Up to the last migration nothing is said about the table that was left behind.
  have hbeside : upgradeAll middle ⟨dump.db.beside (leftover dump v) v.db.rows, dump.version⟩ = _ :=
    upgradeAll_beside fun m hm op hop => by
      obtain ⟨hop, hname⟩ := alters_upgrade (halters m hm) op hop
      rw [hnames]
      exact ⟨hop, by simpa using hname⟩
  rw [hrun] at hbeside
  have hmem : "monitor_server_metric_daily" ∈ (leftover dump v).map Prod.fst := by
    rw [hnames]
    exact List.mem_singleton.mpr rfl
  have hversion : before.version = some signing.revision := by rw [hbefore.version, hlast]
  have hlookup : ((before.db.beside (leftover dump v) v.db.rows).catalog.lookup "monitor_server_metric_daily").isSome =
      true := isSome_lookup_beside hmem
  have hstuck : upgradeHead ⟨before.db.beside (leftover dump v) v.db.rows, before.version⟩ = _ :=
    upgradeHead_stuck hversion hlookup
  refine ⟨⟨before.db.beside (leftover dump v) v.db.rows, before.version⟩, ?_, hversion, hstuck, if_pos hmem,
    before.db.rows, hextends, fun name hname => if_neg ?_⟩
  · have himport : importDump dump v = ⟨dump.db.beside (leftover dump v) v.db.rows, dump.version⟩ :=
      importDump_eq h hne hdump hat.valid
    have hpending : pending dump.version = some (middle ++ [archive]) := by rw [hdump.version, pending_at h]
    rw [upgradeHead, himport]
    dsimp only
    rw [hpending]
    dsimp only
    -- The last one finds it.
    rw [upgradeAll_append middle [archive] _ (by rw [hbeside]), hbeside]
    rw [upgradeAll, script_archive hlookup]
  · rw [hnames]
    simpa using hname

/-- A restore followed by the start of the backend carries the dump forward exactly if the database was not ahead of the
dump by the migration that makes a table. -/
theorem restore_exact (h : migrations = done ++ later ++ rest) (hne : done ≠ []) (hdump : At done dump)
    (hat : At (done ++ later) v) :
    ((∃ head, upgradeHead (importDump dump v) = (.ok (), head) ∧ upgradeHead dump = (.ok (), head) ∧
        At migrations head ∧ Extends dump.db.rows head.db.rows) ↔ later = [] ∨ rest ≠ []) ∧
      (later ≠ [] → rest = [] →
        ∃ stuck, upgradeHead (importDump dump v) =
          (.error (.statement (.tableExists "monitor_server_metric_daily")), stuck) ∧ Stuck dump v stuck) := by
  have hfails : later ≠ [] → rest = [] →
      ∃ stuck, upgradeHead (importDump dump v) =
        (.error (.statement (.tableExists "monitor_server_metric_daily")), stuck) ∧ Stuck dump v stuck := by
    intro hlater hrest
    rw [hrest, List.append_nil] at h
    rw [← h] at hat
    exact restore_stuck h hne hlater hdump hat
  refine ⟨⟨?_, fun hcase => ?_⟩, hfails⟩
  · rintro ⟨head, hok, -⟩
    by_contra hcase
    obtain ⟨hlater, hrest⟩ := not_or.mp hcase
    obtain ⟨stuck, hstuck, -⟩ := hfails hlater (not_not.mp hrest)
    rw [hstuck] at hok
    cases hok
  · rw [importDump_eq_dump h hne hdump hat hcase]
    have hsplit : migrations = done ++ (later ++ rest) := by rw [h, List.append_assoc]
    obtain ⟨head, hrun, hhead, hextends⟩ := upgradeHead_ok hsplit hdump
    exact ⟨head, hrun, hrun, hhead, hextends⟩

end Restore

/-- A dump of the first revision can be restored as long as the last migration has not run. -/
theorem restore_of_first_revision :
    (∃ stuck, upgradeHead (importDump (freshAt [baseline]) (freshAt migrations)) =
        (.error (.statement (.tableExists "monitor_server_metric_daily")), stuck) ∧
      Stuck (freshAt [baseline]) (freshAt migrations) stuck) ∧
      ∃ head, upgradeHead (importDump (freshAt [baseline]) (freshAt [baseline, retry])) = (.ok (), head) ∧
        At migrations head := by
  have hfirst : At [baseline] (freshAt [baseline]) := at_freshAt migrations_retry
  have hsecond : At [baseline, retry] (freshAt [baseline, retry]) := at_freshAt migrations_signing
  have hlast : At migrations (freshAt migrations) := at_freshAt (List.append_nil migrations).symm
  constructor
  · have hsplit : migrations = [baseline] ++ [retry, signing, archive] ++ [] := rfl
    have hexact := restore_exact hsplit (List.cons_ne_nil _ _) hfirst hlast
    exact hexact.2 (List.cons_ne_nil _ _) rfl
  · have hsplit : migrations = [baseline] ++ [retry] ++ [signing, archive] := rfl
    have hexact := restore_exact hsplit (List.cons_ne_nil _ _) hfirst hsecond
    obtain ⟨head, hrun, -, hhead, -⟩ := hexact.1.mpr (.inr (List.cons_ne_nil _ _))
    exact ⟨head, hrun, hhead⟩

end OpsMonitor.Deploy

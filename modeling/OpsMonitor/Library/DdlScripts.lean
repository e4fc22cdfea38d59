import OpsMonitor.Library.Ddl

/-! Scripts of definition statements: which go through, which only add, and what they leave alone. -/

namespace OpsMonitor.Library.Ddl
variable {db db' : Database} {op : Operation}

/-! ## Scripts that go through -/

@[simp] theorem script_nil (db : Database) : db.script [] = (.ok (), db) := rfl

theorem script_cons_ok {ops : List Operation} (h : db.exec op = .ok db') : db.script (op :: ops) = db'.script ops := by
  rw [Database.script, h]

theorem script_cons_error {ops : List Operation} {e : Error} (h : db.exec op = .error e) :
    db.script (op :: ops) = (.error e, db) := by
  rw [Database.script, h]

theorem script_append (db : Database) (ops ops' : List Operation) :
    db.script (ops ++ ops') = match db.script ops with
      | (.ok _, db') => db'.script ops'
      | (.error e, db') => (.error e, db') := by
  induction ops generalizing db with
  | nil => rfl
  | cons op ops ih =>
    rw [List.cons_append]
    cases hexec : db.exec op with
    | error e => rw [script_cons_error hexec, script_cons_error hexec]
    | ok db' => rw [script_cons_ok hexec, script_cons_ok hexec, ih]

theorem exec_error {t : TableSchema} {e : Error} (hop : op.Alters = true)
    (hlookup : db.catalog.lookup op.table = some t) (hfails : op.alterTable t = .error e) : db.exec op = .error e := by
  unfold Database.exec
  rw [alter_of_alters hop, Catalog.table_eq_ok.mpr hlookup]
  show (op.alterTable t >>= _) >>= _ = _
  rw [hfails]
  rfl

theorem exec_dropIndex_unknown {t : TableSchema} {table name : String} (hlookup : db.catalog.lookup table = some t)
    (hname : name ∉ t.indexes.map (·.name)) : db.exec (.dropIndex table name) = .error (.unknownIndex name) :=
  exec_error rfl hlookup (if_pos hname)

theorem exec_dropIndex_needed {t : TableSchema} {table name : String} (hlookup : db.catalog.lookup table = some t)
    (hname : name ∈ t.indexes.map (·.name))
    (hneeded : ∃ fk ∈ t.foreignKeys, t.supports (t.indexes.filter (·.name ≠ name)) fk = false) :
    db.exec (.dropIndex table name) = .error (.neededInForeignKey name) := by
  refine exec_error rfl hlookup ?_
  unfold Operation.alterTable
  dsimp only
  rw [if_neg (not_not.mpr hname), if_pos hneeded]

/-- The statement drops no column of a key. -/
def Operation.KeepsKeys (c : Catalog) : Operation → Bool
  | .dropColumn table name => (c.lookup table).all fun t => t.keys.all (name ∉ ·)
  | _ => true

/-- The catalogue after a script, which drops no column of a key. -/
def Catalog.dryRun (c : Catalog) : List Operation → Option Catalog
  | [] => some c
  | op :: ops => if op.KeepsKeys c then (op.alter c).toOption.bind (dryRun · ops) else none

theorem Catalog.dryRun_cons {c c' : Catalog} {ops : List Operation} :
    c.dryRun (op :: ops) = some c' ↔
      op.KeepsKeys c = true ∧ ∃ next, op.alter c = .ok next ∧ Catalog.dryRun next ops = some c' := by
  constructor
  · intro h
    unfold Catalog.dryRun at h
    split_ifs at h with hkeeps
    obtain ⟨next, halter, hrest⟩ := Option.bind_eq_some_iff.mp h
    exact ⟨hkeeps, next, toOption_eq_some.mp halter, hrest⟩
  · rintro ⟨hkeeps, next, halter, hrest⟩
    unfold Catalog.dryRun
    rw [if_pos hkeeps, halter]
    exact hrest

theorem exec_createIndex_clash {c : Catalog} {rows : String → List Row} {ops : List Operation} {table name : String}
    {columns : List String} (hrun : (c.dryRun (.createIndex table name columns true :: ops)).isSome = true)
    (hclash : ¬Unique columns (rows table)) :
    Database.exec ⟨c, rows⟩ (.createIndex table name columns true) = .error (.duplicateEntry table) := by
  obtain ⟨c', hrun⟩ := Option.isSome_iff_exists.mp hrun
  obtain ⟨-, next, halter, -⟩ := Catalog.dryRun_cons.mp hrun
  have htable := halter
  rw [alter_of_alters rfl] at htable
  obtain ⟨t, ht, -⟩ := bind_eq_ok.mp htable
  unfold Database.exec
  rw [halter]
  exact if_neg fun hadmits => hclash (hadmits t (Catalog.table_eq_ok.mp ht) rfl)

/-- The rows under a script meet the unique keys that it makes. -/
def Demands (rows : String → List Row) : List Operation → Prop
  | [] => True
  | op :: ops =>
    (∀ table name columns, op = .createIndex table name columns true → Unique columns (rows table)) ∧
      Demands (op.rewrite rows) ops

/-- The statement makes no unique key. -/
def Operation.MakesNoKey : Operation → Bool
  | .createIndex _ _ _ unique => !unique
  | _ => true

theorem demands_cons {rows : String → List Row} {ops : List Operation} (hop : op.MakesNoKey = true)
    (h : Demands (op.rewrite rows) ops) : Demands rows (op :: ops) := by
  refine ⟨?_, h⟩
  rintro table name columns rfl
  cases hop

theorem demands_of_makesNoKey {rows : String → List Row} {ops : List Operation} (h : ∀ op ∈ ops, op.MakesNoKey = true) :
    Demands rows ops := by
  induction ops generalizing rows with
  | nil => trivial
  | cons op ops ih =>
    exact demands_cons (h op List.mem_cons_self) (ih fun op' hop' => h op' (List.mem_cons_of_mem _ hop'))

theorem demands_unique {rows : String → List Row} {ops : List Operation} {table name : String} {columns : List String}
    (hunique : Unique columns (rows table)) (h : Demands rows ops) :
    Demands rows (.createIndex table name columns true :: ops) := by
  have hsame : Operation.rewrite rows (.createIndex table name columns true) = rows :=
    Function.update_eq_self table rows
  refine ⟨?_, by rwa [hsame]⟩
  rintro table' name' columns' ⟨⟩
  exact hunique

def rewriteAll (rows : String → List Row) (ops : List Operation) : String → List Row :=
  ops.foldl (fun rows op => op.rewrite rows) rows

theorem Operation.admits_of_keepsKeys (hkeeps : op.KeepsKeys db.catalog = true)
    (hdemand : ∀ table name columns, op = .createIndex table name columns true → Unique columns (db.rows table)) :
    op.Admits db := by
  intro t ht
  cases op with
  | createIndex table name columns unique =>
    rintro rfl
    exact hdemand table name columns rfl
  | dropColumn table name =>
    intro key hkey hmem
    have hall : t.keys.all (name ∉ ·) = true := by
      have hlookup : (db.catalog.lookup table).all (fun t => t.keys.all (name ∉ ·)) = true := hkeeps
      rwa [show db.catalog.lookup table = some t from ht] at hlookup
    exact absurd hmem (of_decide_eq_true (List.all_eq_true.mp hall key hkey))
  | _ => trivial

/-- A script that goes through on the catalogue goes through on rows that meet its keys. -/
theorem script_ok {c c' : Catalog} {rows : String → List Row} {ops : List Operation} (hrun : c.dryRun ops = some c')
    (hdemands : Demands rows ops) : Database.script ⟨c, rows⟩ ops = (.ok (), ⟨c', rewriteAll rows ops⟩) := by
  induction ops generalizing c rows with
  | nil =>
    obtain rfl := Option.some.inj hrun
    rfl
  | cons op ops ih =>
    obtain ⟨hkeeps, next, halter, hrun⟩ := Catalog.dryRun_cons.mp hrun
    obtain ⟨hdemand, hdemands⟩ := hdemands
    have hadmits : op.Admits ⟨c, rows⟩ := op.admits_of_keepsKeys hkeeps hdemand
    have hexec : Database.exec ⟨c, rows⟩ op = .ok ⟨next, op.rewrite rows⟩ := exec_eq_ok.mpr ⟨next, halter, hadmits, rfl⟩
    rw [script_cons_ok hexec]
    exact ih hrun hdemands

/-! ## Scripts that only add -/

def Operation.Additive : Operation → Bool
  | .dropTable _ | .dropColumn .. => false
  | .createTable .. | .addColumn .. | .alterColumn .. | .createIndex .. | .dropIndex .. => true

/-- Every row is still there, with its cells in front of those that were added to its table. -/
def Extends (rows rows' : String → List Row) : Prop :=
  ∃ added : String → Row, ∀ name, rows' name = (rows name).map (· ++ added name)

theorem Extends.refl (rows : String → List Row) : Extends rows rows :=
  ⟨fun _ => [], fun name => by simp⟩

theorem Extends.trans {rows rows' rows'' : String → List Row} (h : Extends rows rows') (h' : Extends rows' rows'') :
    Extends rows rows'' := by
  obtain ⟨added, hadded⟩ := h
  obtain ⟨added', hadded'⟩ := h'
  refine ⟨fun name => added name ++ added' name, fun name => ?_⟩
  rw [hadded', hadded, List.map_map]
  exact List.map_congr_left fun row _ => List.append_assoc row _ _

theorem extends_update {rows : String → List Row} {name : String} (cells : Row) :
    Extends rows (Function.update rows name ((rows name).map (· ++ cells))) := by
  refine ⟨Function.update (fun _ => []) name cells, fun other => ?_⟩
  by_cases hname : other = name
  · rw [hname, Function.update_self, Function.update_self]
  · rw [Function.update_of_ne hname, Function.update_of_ne hname]
    simp

theorem exec_extends (h : db.Valid) (hadditive : op.Additive = true) (hok : db.exec op = .ok db') :
    Extends db.rows db'.rows := by
  obtain ⟨c, halter, -, rfl⟩ := exec_eq_ok.mp hok
  have hsame : Extends db.rows (Function.update db.rows op.table (db.rows op.table)) := by
    rw [Function.update_eq_self]
    exact .refl _
  cases op with
  | createTable name columns primary uniques foreignKeys =>
    have hnone : db.catalog.lookup name = none := by
      unfold Operation.alter at halter
      dsimp only at halter
      split_ifs at halter with hexists
      exact Option.not_isSome_iff_eq_none.mp hexists
    have hempty : db.rows name = [] := h.absent name hnone
    rwa [show (Operation.createTable name columns primary uniques foreignKeys).table = name from rfl, hempty] at hsame
  | addColumn table column filled => exact extends_update _
  | alterColumn table name => exact hsame
  | createIndex table name columns unique => exact hsame
  | dropIndex table name => exact hsame
  | dropTable name => cases hadditive
  | dropColumn table name => cases hadditive

/-- A script that only adds keeps every cell, wherever it stops. -/
theorem script_extends (h : db.Valid) (ops : List Operation) (hadditive : ∀ op ∈ ops, op.Additive = true) :
    Extends db.rows (db.script ops).2.rows := by
  induction ops generalizing db with
  | nil => exact .refl _
  | cons op ops ih =>
    cases hexec : db.exec op with
    | error e =>
      rw [script_cons_error hexec]
      exact .refl _
    | ok db' =>
      rw [script_cons_ok hexec]
      have hfirst := exec_extends h (hadditive op List.mem_cons_self) hexec
      exact hfirst.trans (ih (h.exec hexec) fun op' hop' => hadditive op' (List.mem_cons_of_mem _ hop'))

/-! ## Tables beside the ones that a script is about -/

/-- The database with more tables, and their rows. -/
def Database.beside (db : Database) (extra : Catalog) (kept : String → List Row) : Database :=
  ⟨extra ++ db.catalog, fun name => if name ∈ extra.map Prod.fst then kept name else db.rows name⟩

theorem isSome_lookup_beside {extra : Catalog} {kept : String → List Row} {name : String}
    (h : name ∈ extra.map Prod.fst) : ((db.beside extra kept).catalog.lookup name).isSome = true := by
  have hmem : name ∈ (db.beside extra kept).catalog.map Prod.fst := by
    unfold Database.beside
    rw [List.map_append]
    exact List.mem_append_left _ h
  exact Option.isSome_iff_ne_none.mpr fun hnone => lookup_eq_none.mp hnone hmem

theorem Database.beside_nil (db : Database) (kept : String → List Row) : db.beside [] kept = db := rfl

theorem Catalog.set_of_notMem {c : Catalog} {name : String} {t : TableSchema} (h : name ∉ c.map Prod.fst) :
    c.set name t = c := by
  refine (List.map_congr_left fun p hp => ?_).trans (List.map_id c)
  refine if_neg ?_
  rintro rfl
  exact h (List.mem_map_of_mem hp)

theorem Catalog.lookup_beside {extra c : Catalog} {name : String} (h : name ∉ extra.map Prod.fst) :
    List.lookup name (extra ++ c) = c.lookup name := by
  rw [List.lookup_append, lookup_eq_none.mpr h]
  rfl

theorem Catalog.table_beside {extra c : Catalog} {name : String} (h : name ∉ extra.map Prod.fst) :
    Catalog.table (extra ++ c) name = Catalog.table c name := by
  unfold Catalog.table
  rw [lookup_beside h]

theorem Catalog.set_beside {extra c : Catalog} {name : String} {t : TableSchema} (h : name ∉ extra.map Prod.fst) :
    Catalog.set (extra ++ c) name t = extra ++ Catalog.set c name t := by
  have hextra : Catalog.set extra name t = extra := set_of_notMem h
  unfold Catalog.set at hextra ⊢
  rw [List.map_append, hextra]

theorem Catalog.names_set (c : Catalog) (name : String) (t : TableSchema) :
    (c.set name t).map Prod.fst = c.map Prod.fst := by
  unfold Catalog.set
  rw [List.map_map]
  refine List.map_congr_left fun p _ => ?_
  show (if p.1 = name then (name, t) else p).1 = p.1
  split_ifs with hname
  · exact hname.symm
  · rfl

/-- A script that alters tables neither makes nor drops one. -/
theorem names_dryRun {c c' : Catalog} {ops : List Operation} (hops : ∀ op ∈ ops, op.Alters = true)
    (h : c.dryRun ops = some c') : c'.map Prod.fst = c.map Prod.fst := by
  induction ops generalizing c with
  | nil =>
    obtain rfl := Option.some.inj h
    rfl
  | cons op ops ih =>
    obtain ⟨-, next, halter, h⟩ := Catalog.dryRun_cons.mp h
    rw [alter_of_alters (hops op List.mem_cons_self)] at halter
    obtain ⟨t, -, halter⟩ := bind_eq_ok.mp halter
    obtain ⟨t', -, halter⟩ := bind_eq_ok.mp halter
    rw [ih (fun op' hop' => hops op' (List.mem_cons_of_mem _ hop')) h, ← Except.ok.inj halter, Catalog.names_set]

section Beside
variable {extra c : Catalog} {kept : String → List Row}

theorem alter_beside (hop : op.Alters = true) (hname : op.table ∉ extra.map Prod.fst) :
    op.alter (extra ++ c) = (op.alter c).map (extra ++ ·) := by
  rw [alter_of_alters hop, alter_of_alters hop, Catalog.table_beside hname]
  cases c.table op.table with
  | error e => rfl
  | ok t =>
    show (op.alterTable t >>= _) = Except.map _ (op.alterTable t >>= _)
    cases op.alterTable t with
    | error e => rfl
    | ok t' => exact congrArg Except.ok (Catalog.set_beside hname)

theorem rows_beside {name : String} (hname : name ∉ extra.map Prod.fst) :
    (db.beside extra kept).rows name = db.rows name := if_neg hname

theorem rewrite_beside (hname : op.table ∉ extra.map Prod.fst) :
    op.rewrite (db.beside extra kept).rows = (Database.beside ⟨c, op.rewrite db.rows⟩ extra kept).rows := by
  unfold Operation.rewrite
  rw [rows_beside hname]
  funext name
  by_cases hother : name = op.table
  · rw [hother, rows_beside hname, Function.update_self]
    exact (Function.update_self op.table _ db.rows).symm
  · rw [Function.update_of_ne hother]
    dsimp only [Database.beside]
    rw [Function.update_of_ne hother]

theorem admits_beside (hname : op.table ∉ extra.map Prod.fst) : op.Admits (db.beside extra kept) ↔ op.Admits db := by
  unfold Operation.Admits
  rw [rows_beside hname, show (db.beside extra kept).catalog = extra ++ db.catalog from rfl,
    Catalog.lookup_beside hname]

theorem exec_beside (hop : op.Alters = true) (hname : op.table ∉ extra.map Prod.fst) :
    (db.beside extra kept).exec op = (db.exec op).map (·.beside extra kept) := by
  unfold Database.exec
  rw [show (db.beside extra kept).catalog = extra ++ db.catalog from rfl, alter_beside hop hname]
  cases op.alter db.catalog with
  | error e => rfl
  | ok c =>
    show (if _ then _ else _) = Except.map _ (if _ then _ else _)
    by_cases hadmits : op.Admits db
    · rw [if_pos hadmits, if_pos ((admits_beside hname).mpr hadmits), rewrite_beside (c := c) hname]
      rfl
    · rw [if_neg hadmits, if_neg fun h => hadmits ((admits_beside hname).mp h)]
      rfl

/-- A script that alters other tables does not see the ones beside them. -/
theorem script_beside (ops : List Operation)
    (h : ∀ op ∈ ops, op.Alters = true ∧ op.table ∉ extra.map Prod.fst) :
    (db.beside extra kept).script ops = ((db.script ops).1, (db.script ops).2.beside extra kept) := by
  induction ops generalizing db with
  | nil => rfl
  | cons op ops ih =>
    obtain ⟨hop, hname⟩ := h op List.mem_cons_self
    have hexec : (db.beside extra kept).exec op = _ := exec_beside hop hname
    cases hfirst : db.exec op with
    | error e =>
      rw [hfirst] at hexec
      rw [script_cons_error hexec, script_cons_error hfirst]
    | ok db' =>
      rw [hfirst] at hexec
      rw [script_cons_ok hexec, script_cons_ok hfirst, ih fun op' hop' => h op' (List.mem_cons_of_mem _ hop')]

end Beside

/-! ## Replacing tables -/

/-- `DROP TABLE IF EXISTS`, `CREATE TABLE` and the rows, without a look at foreign keys. -/
def Database.replace (db : Database) (name : String) (t : TableSchema) (rows : List Row) : Database :=
  ⟨db.catalog.filter (·.1 ≠ name) ++ [(name, t)], Function.update db.rows name rows⟩

theorem foldl_replace {tables : Catalog} (rows : String → List Row) (hnodup : (tables.map Prod.fst).Nodup) :
    tables.foldl (fun db p => db.replace p.1 p.2 (rows p.1)) db =
      ⟨db.catalog.filter (·.1 ∉ tables.map Prod.fst) ++ tables,
        fun name => if name ∈ tables.map Prod.fst then rows name else db.rows name⟩ := by
  induction tables generalizing db with
  | nil =>
    have hall : db.catalog.filter (·.1 ∉ ([] : Catalog).map Prod.fst) = db.catalog := List.filter_eq_self.mpr (by simp)
    simp only [List.foldl_nil, hall, List.append_nil]
    rfl
  | cons p tables ih =>
    obtain ⟨name, t⟩ := p
    obtain ⟨hnew, hnodup⟩ := List.nodup_cons.mp hnodup
    rw [List.foldl_cons, ih hnodup]
    unfold Database.replace
    have hcatalog : (db.catalog.filter (·.1 ≠ name) ++ [(name, t)]).filter (·.1 ∉ tables.map Prod.fst) ++ tables =
        db.catalog.filter (·.1 ∉ ((name, t) :: tables).map Prod.fst) ++ (name, t) :: tables := by
      have hkept : [(name, t)].filter (·.1 ∉ tables.map Prod.fst) = [(name, t)] :=
        List.filter_eq_self.mpr (by simpa using hnew)
      rw [List.filter_append, hkept, List.append_assoc, List.singleton_append, List.filter_filter]
      refine congrArg (· ++ _) (List.filter_congr fun q _ => ?_)
      show _ = decide (q.1 ∉ name :: tables.map Prod.fst)
      by_cases hq : q.1 = name
      · simp [hq]
      · simp [hq]
    refine congrArg₂ Database.mk hcatalog (funext fun other => ?_)
    dsimp only
    show _ = if other ∈ name :: tables.map Prod.fst then rows other else db.rows other
    by_cases hother : other = name
    · rw [hother, if_neg hnew, Function.update_self, if_pos List.mem_cons_self]
    · rw [Function.update_of_ne hother]
      by_cases hmem : other ∈ tables.map Prod.fst
      · rw [if_pos hmem, if_pos (List.mem_cons_of_mem _ hmem)]
      · rw [if_neg hmem, if_neg (List.not_mem_cons_of_ne_of_not_mem hother hmem)]

end OpsMonitor.Library.Ddl

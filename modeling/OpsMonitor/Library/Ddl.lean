import Mathlib.Data.List.Nodup
import OpsMonitor.Library.Loops
import Mathlib.Logic.Function.Basic

/-! Definition statements over a relational database, as MySQL runs them: every statement is checked against the
catalogue and against the rows, and commits at once, so that a script which fails stays where it stopped. -/

namespace OpsMonitor.Library.Ddl

/-! ## Catalogue and rows -/

structure Column where
  name : String
  nullable : Bool
  default : Option String
  deriving DecidableEq

/-- A `generated` index was made for a foreign key that no other index supports. -/
structure Index where
  name : String
  columns : List String
  unique : Bool
  generated : Bool
  deriving DecidableEq

structure ForeignKey where
  name : String
  columns : List String
  table : String
  deriving DecidableEq

structure TableSchema where
  columns : List Column
  primary : List String
  indexes : List Index
  foreignKeys : List ForeignKey
  deriving DecidableEq

abbrev Catalog := List (String × TableSchema)

/-- The cells of a row, by column; `none` is NULL. -/
abbrev Row := List (String × Option String)

/-- A table that does not exist has no rows. -/
structure Database where
  catalog : Catalog
  rows : String → List Row

inductive Error
  | tableExists (table : String)
  | unknownTable (table : String)
  | referenced (table : String)
  | unknownColumn (table : String)
  | duplicateColumn (table : String)
  | duplicateIndex (index : String)
  | unknownIndex (index : String)
  | neededInForeignKey (index : String)
  | duplicateEntry (table : String)
  deriving DecidableEq

namespace Row

def cell (row : Row) (column : String) : Option String := (row.lookup column).join

def key (row : Row) (columns : List String) : List (Option String) := columns.map row.cell

end Row

/-- Two rows that a unique key keeps apart. NULL is not equal to NULL. -/
def Clash (columns : List String) (r r' : Row) : Prop :=
  columns ≠ [] ∧ r.key columns = r'.key columns ∧ none ∉ r.key columns

instance (columns : List String) (r r' : Row) : Decidable (Clash columns r r') :=
  inferInstanceAs (Decidable (_ ∧ _))

def Unique (columns : List String) (rows : List Row) : Prop := rows.Pairwise fun r r' => ¬Clash columns r r'

instance (columns : List String) (rows : List Row) : Decidable (Unique columns rows) :=
  inferInstanceAs (Decidable (rows.Pairwise _))

namespace TableSchema

def names (t : TableSchema) : List String := t.columns.map (·.name)

/-- The columns that the primary key and the unique keys keep distinct. -/
def keys (t : TableSchema) : List (List String) := t.primary :: (t.indexes.filter (·.unique)).map (·.columns)

/-- An index supports a foreign key whose columns it starts with. -/
def supports (t : TableSchema) (indexes : List Index) (fk : ForeignKey) : Bool :=
  fk.columns.isPrefixOf t.primary || indexes.any (fk.columns.isPrefixOf ·.columns)

/-- A foreign key gets an index of its name where no index supports it. -/
def withForeignKey (t : TableSchema) (fk : ForeignKey) : TableSchema :=
  { t with
    foreignKeys := t.foreignKeys ++ [fk]
    indexes := if t.supports t.indexes fk then t.indexes else t.indexes ++ [⟨fk.name, fk.columns, false, true⟩] }

/-- A new index takes the place of the generated ones that it makes superfluous. -/
def withIndex (t : TableSchema) (index : Index) : TableSchema :=
  { t with
    indexes := t.indexes.filter (fun i => !(i.generated && i.columns.isPrefixOf index.columns)) ++ [index] }

/-- An index loses the column, and goes with its last one. -/
def withoutColumn (t : TableSchema) (name : String) : TableSchema :=
  { t with
    columns := t.columns.filter (·.name ≠ name)
    primary := t.primary.filter (· ≠ name)
    indexes := (t.indexes.map fun i => { i with columns := i.columns.filter (· ≠ name) }).filter (·.columns ≠ []) }

end TableSchema

/-! ## Statements -/

/-- A column that is added has a value for the rows that are there. -/
inductive Operation
  | createTable (name : String) (columns : List Column) (primary : List String) (uniques : List (String × List String))
      (foreignKeys : List ForeignKey)
  | dropTable (name : String)
  | addColumn (table : String) (column : Column) (filled : column.nullable = true ∨ column.default ≠ none)
  | dropColumn (table name : String)
  | alterColumn (table name : String)
  | createIndex (table name : String) (columns : List String) (unique : Bool)
  | dropIndex (table name : String)

namespace Catalog

def set (c : Catalog) (name : String) (t : TableSchema) : Catalog := c.map fun p => if p.1 = name then (name, t) else p

def table (c : Catalog) (name : String) : Except Error TableSchema :=
  match c.lookup name with
  | none => .error (.unknownTable name)
  | some t => .ok t

end Catalog

namespace Operation

def table : Operation → String
  | createTable name .. => name
  | dropTable name => name
  | addColumn table .. => table
  | dropColumn table _ => table
  | alterColumn table _ => table
  | createIndex table .. => table
  | dropIndex table _ => table

/-- The statement alters a table that is there. -/
def Alters : Operation → Bool
  | createTable .. | dropTable _ => false
  | addColumn .. | dropColumn .. | alterColumn .. | createIndex .. | dropIndex .. => true

/-- What a statement makes of its table. -/
def alterTable (t : TableSchema) : Operation → Except Error TableSchema
  | addColumn table column _ =>
    if column.name ∈ t.names then .error (.duplicateColumn table)
    else .ok { t with columns := t.columns ++ [column] }
  | dropColumn table name =>
    if name ∉ t.names then .error (.unknownColumn table)
    else if ∃ fk ∈ t.foreignKeys, name ∈ fk.columns then .error (.neededInForeignKey name)
    else .ok (t.withoutColumn name)
  | alterColumn table name => if name ∉ t.names then .error (.unknownColumn table) else .ok t
  | createIndex table name columns unique =>
    let t' := t.withIndex ⟨name, columns, unique, false⟩
    if ∃ column ∈ columns, column ∉ t.names then .error (.unknownColumn table)
    else if ¬(t'.indexes.map (·.name)).Nodup then .error (.duplicateIndex name)
    else .ok t'
  | dropIndex _ name =>
    let indexes := t.indexes.filter (·.name ≠ name)
    if name ∉ t.indexes.map (·.name) then .error (.unknownIndex name)
    else if ∃ fk ∈ t.foreignKeys, t.supports indexes fk = false then .error (.neededInForeignKey name)
    else .ok { t with indexes := indexes }
  | createTable .. | dropTable _ => .ok t

/-- What a statement makes of the catalogue. -/
def alter (c : Catalog) (op : Operation) : Except Error Catalog :=
  match op with
  | createTable name columns primary uniques foreignKeys =>
    let bare : TableSchema := ⟨columns, primary, uniques.map fun u => ⟨u.1, u.2, true, false⟩, []⟩
    if (c.lookup name).isSome then .error (.tableExists name)
    else if ¬bare.names.Nodup then .error (.duplicateColumn name)
    else if ∃ key ∈ bare.keys, ∃ column ∈ key, column ∉ bare.names then .error (.unknownColumn name)
    else
      match foreignKeys.find? fun fk => fk.table ≠ name ∧ c.lookup fk.table = none with
      | some fk => .error (.unknownTable fk.table)
      | none => .ok (c ++ [(name, foreignKeys.foldl TableSchema.withForeignKey bare)])
  | dropTable name =>
    if c.lookup name = none then .error (.unknownTable name)
    else if ∃ p ∈ c, p.1 ≠ name ∧ ∃ fk ∈ p.2.foreignKeys, fk.table = name then .error (.referenced name)
    else .ok (c.filter (·.1 ≠ name))
  | op => do
    let t ← c.table op.table
    let t' ← op.alterTable t
    .ok (c.set op.table t')

/-- The rows of the table meet the unique keys that the statement makes. -/
def AdmitsRows (t : TableSchema) (rows : List Row) : Operation → Prop
  | createIndex _ _ columns unique => unique = true → Unique columns rows
  | dropColumn _ name => ∀ key ∈ t.keys, name ∈ key → Unique (key.filter (· ≠ name)) rows
  | createTable .. | dropTable _ | addColumn .. | alterColumn .. | dropIndex .. => True

instance (t : TableSchema) (rows : List Row) : (op : Operation) → Decidable (op.AdmitsRows t rows)
  | createIndex _ _ columns unique => inferInstanceAs (Decidable (unique = true → Unique columns rows))
  | dropColumn _ name => inferInstanceAs (Decidable (∀ key ∈ t.keys, name ∈ key → Unique (key.filter (· ≠ name)) rows))
  | createTable .. | dropTable _ | addColumn .. | alterColumn .. | dropIndex .. => isTrue trivial

/-- What a statement makes of the rows of its table. -/
def rewriteRows (rows : List Row) : Operation → List Row
  | createTable .. | dropTable _ => []
  | addColumn _ column _ => rows.map (· ++ [(column.name, column.default)])
  | dropColumn _ name => rows.map fun row => row.filter (·.1 ≠ name)
  | alterColumn .. | createIndex .. | dropIndex .. => rows

def Admits (db : Database) (op : Operation) : Prop :=
  ∀ t ∈ db.catalog.lookup op.table, op.AdmitsRows t (db.rows op.table)

instance (db : Database) (op : Operation) : Decidable (op.Admits db) :=
  inferInstanceAs (Decidable (∀ t ∈ db.catalog.lookup op.table, op.AdmitsRows t (db.rows op.table)))

def rewrite (rows : String → List Row) (op : Operation) : String → List Row :=
  Function.update rows op.table (op.rewriteRows (rows op.table))

end Operation

namespace Database

def empty : Database := ⟨[], fun _ => []⟩

def exec (db : Database) (op : Operation) : Except Error Database := do
  let catalog ← op.alter db.catalog
  if op.Admits db then .ok ⟨catalog, op.rewrite db.rows⟩ else .error (.duplicateEntry op.table)

/-- A script, and the database that it leaves behind. -/
def script (db : Database) : List Operation → Except Error Unit × Database
  | [] => (.ok (), db)
  | op :: ops =>
    match db.exec op with
    | .error e => (.error e, db)
    | .ok db' => db'.script ops

end Database

/-! ## Looking up -/

section Lookup
variable {β : Type*} {l : List (String × β)} {b : β} {name other first : String}

theorem lookup_cons : List.lookup other ((first, b) :: l) = if other = first then some b else l.lookup other := by
  by_cases hother : other = first
  · simp [hother]
  · have hne : (other == first) = false := beq_false_of_ne hother
    rw [List.lookup_cons, hne, if_neg hother]

theorem lookup_eq_none : l.lookup name = none ↔ name ∉ l.map Prod.fst := by
  rw [List.lookup_eq_none_iff]
  constructor
  · intro h hmem
    obtain ⟨p, hp, rfl⟩ := List.mem_map.mp hmem
    simpa using h p hp
  · intro h p hp
    rw [bne_iff_ne]
    rintro rfl
    exact h (List.mem_map_of_mem hp)

theorem lookup_concat (h : l.lookup name = none) :
    (l ++ [(name, b)]).lookup other = if other = name then some b else l.lookup other := by
  rw [List.lookup_append, lookup_cons]
  by_cases hother : other = name
  · rw [if_pos hother, if_pos hother, hother, h]
    rfl
  · rw [if_neg hother, if_neg hother]
    exact Option.or_none

theorem lookup_without :
    List.lookup other (l.filter (·.1 ≠ name)) = if other = name then none else l.lookup other := by
  induction l with
  | nil => simp
  | cons p l ih =>
    obtain ⟨first, b⟩ := p
    by_cases hfirst : first = name
    · rw [List.filter_cons_of_neg (by simpa using hfirst), ih, lookup_cons]
      split_ifs with hother hsame
      · rfl
      · exact absurd (hsame.trans hfirst) hother
      · rfl
    · rw [List.filter_cons_of_pos (by simpa using hfirst), lookup_cons, ih, lookup_cons]
      by_cases hother : other = first
      · rw [if_pos hother, if_pos hother, if_neg fun h => hfirst (hother.symm.trans h)]
      · rw [if_neg hother, if_neg hother]

end Lookup

namespace Catalog
variable {c : Catalog} {name other : String} {t t' : TableSchema}

theorem table_eq_ok : c.table name = .ok t ↔ c.lookup name = some t := by
  unfold table
  cases c.lookup name with
  | none => simp
  | some found => simp

theorem lookup_set (c : Catalog) (name other : String) (t' : TableSchema) :
    (c.set name t').lookup other = if other = name then (c.lookup name).map (fun _ => t') else c.lookup other := by
  induction c with
  | nil => simp [set]
  | cons p c ih =>
    obtain ⟨first, s⟩ := p
    have hset : set ((first, s) :: c) name t' =
        (if first = name then (name, t') else (first, s)) :: set c name t' := rfl
    rw [hset]
    by_cases hfirst : first = name
    · subst hfirst
      rw [if_pos rfl, lookup_cons, lookup_cons, lookup_cons, ih, if_pos rfl]
      split_ifs
      · rfl
      · rfl
    · have hname : ¬name = first := fun h => hfirst h.symm
      rw [if_neg hfirst, lookup_cons, lookup_cons, lookup_cons, ih, if_neg hname]
      by_cases hother : other = first
      · rw [if_pos hother, if_pos hother, if_neg fun h => hfirst (hother.symm.trans h)]
      · rw [if_neg hother, if_neg hother]

theorem lookup_set_self (h : c.lookup name = some t) : (c.set name t').lookup name = some t' := by
  rw [lookup_set, if_pos rfl, h]
  rfl

theorem lookup_set_of_ne (h : other ≠ name) : (c.set name t').lookup other = c.lookup other := by
  rw [lookup_set, if_neg h]

end Catalog

/-! ## Rows under a new list of columns -/

section Rows
variable {row : Row} {rows : List Row} {key : List String} {name column : String} {value : Option String}

theorem Row.cell_append (h : column ∈ row.map Prod.fst) (added : Row) :
    Row.cell (row ++ added) column = row.cell column := by
  unfold Row.cell
  rw [List.lookup_append]
  cases hfound : row.lookup column with
  | none => exact absurd h (lookup_eq_none.mp hfound)
  | some v => rfl

theorem Row.cell_added (h : name ∉ row.map Prod.fst) : Row.cell (row ++ [(name, value)]) name = value := by
  unfold Row.cell
  rw [lookup_concat (lookup_eq_none.mpr h), if_pos rfl]
  rfl

theorem Row.cell_filter (h : column ≠ name) : Row.cell (row.filter (·.1 ≠ name)) column = row.cell column := by
  unfold Row.cell
  rw [lookup_without, if_neg h]

/-- Rows that keep the cells of a key stay distinct. -/
theorem Unique.map {f : Row → Row} (h : Unique key rows)
    (hf : ∀ row ∈ rows, ∀ column ∈ key, (f row).cell column = row.cell column) : Unique key (rows.map f) := by
  have hkey : ∀ row ∈ rows, (f row).key key = row.key key := fun row hrow => List.map_congr_left (hf row hrow)
  refine List.pairwise_map.mpr (h.imp_of_mem fun {r r'} hr hr' hkeep => ?_)
  rintro ⟨hne, hsame, hnull⟩
  rw [hkey r hr, hkey r' hr'] at hsame
  rw [hkey r hr] at hnull
  exact hkeep ⟨hne, hsame, hnull⟩

/-- More columns keep more rows apart. -/
theorem Unique.mono {key' : List String} (h : Unique key rows) (hne : key ≠ []) (hsub : key ⊆ key') :
    Unique key' rows := by
  refine h.imp fun {r r'} hkeep hclash => hkeep ⟨hne, ?_, ?_⟩
  · refine List.map_congr_left fun column hcolumn => ?_
    exact List.map_inj_left.mp hclash.2.1 column (hsub hcolumn)
  · intro hnull
    obtain ⟨column, hcolumn, hcell⟩ := List.mem_map.mp hnull
    exact hclash.2.2 (List.mem_map.mpr ⟨column, hsub hcolumn, hcell⟩)

/-- A key over a column that is NULL everywhere. -/
theorem unique_of_null (hmem : column ∈ key) (h : ∀ row ∈ rows, row.cell column = none) : Unique key rows := by
  refine List.Pairwise.imp_of_mem (R := fun _ _ => True) (fun {r r'} hr _ _ hclash => ?_) ?_
  · exact hclash.2.2 (List.mem_map.mpr ⟨column, hmem, h r hr⟩)
  · exact List.pairwise_of_forall fun _ _ => trivial

end Rows

/-! ## What the rows of a table satisfy -/

/-- The rows have the columns of the table, a value where none may be missing, and distinct keys. -/
structure TableSchema.Holds (t : TableSchema) (rows : List Row) : Prop where
  distinct : t.names.Nodup
  keyed : ∀ key ∈ t.keys, key ⊆ t.names
  shaped : ∀ row ∈ rows, row.map Prod.fst = t.names
  filled : ∀ column ∈ t.columns, column.nullable = false → ∀ row ∈ rows, row.cell column.name ≠ none
  unique : ∀ key ∈ t.keys, Unique key rows

namespace TableSchema.Holds
variable {t : TableSchema} {rows : List Row} {name : String}

theorem of_nil (hdistinct : t.names.Nodup) (hkeyed : ∀ key ∈ t.keys, key ⊆ t.names) : t.Holds [] where
  distinct := hdistinct
  keyed := hkeyed
  shaped := List.forall_mem_nil _
  filled _ _ _ := List.forall_mem_nil _
  unique _ _ := List.Pairwise.nil

theorem addColumn {column : Column} (h : t.Holds rows) (hnew : column.name ∉ t.names)
    (hfilled : column.nullable = true ∨ column.default ≠ none) :
    { t with columns := t.columns ++ [column] }.Holds (rows.map (· ++ [(column.name, column.default)])) := by
  have hnames : ({ t with columns := t.columns ++ [column] } : TableSchema).names = t.names ++ [column.name] :=
    List.map_append
  have hold : ∀ row ∈ rows, ∀ other ∈ t.names,
      Row.cell (row ++ [(column.name, column.default)]) other = row.cell other :=
    fun row hrow other hother => Row.cell_append (by rwa [h.shaped row hrow]) _
  constructor
  · rw [hnames]
    exact List.nodup_append.mpr ⟨h.distinct, List.nodup_singleton _, fun a ha b hb => by
      rw [List.mem_singleton.mp hb]
      rintro rfl
      exact hnew ha⟩
  · intro key hkey other hother
    rw [hnames]
    exact List.mem_append_left _ (h.keyed key hkey hother)
  · intro row hrow
    obtain ⟨old, hold, rfl⟩ := List.mem_map.mp hrow
    rw [hnames, List.map_append, h.shaped old hold]
    rfl
  · intro other hother hnull row hrow
    obtain ⟨old, hmem, rfl⟩ := List.mem_map.mp hrow
    rcases List.mem_append.mp hother with hother | hother
    · rw [hold old hmem other.name (List.mem_map_of_mem hother)]
      exact h.filled other hother hnull old hmem
    · obtain rfl := List.mem_singleton.mp hother
      have hfree : other.name ∉ old.map Prod.fst := by rwa [h.shaped old hmem]
      rw [Row.cell_added hfree]
      exact hfilled.resolve_left (by simp [hnull])
  · intro key hkey
    exact (h.unique key hkey).map fun row hrow other hother => hold row hrow other (h.keyed key hkey hother)

theorem dropColumn (h : t.Holds rows)
    (hunique : ∀ key ∈ t.keys, name ∈ key → Unique (key.filter (· ≠ name)) rows) :
    (t.withoutColumn name).Holds (rows.map fun row => row.filter (·.1 ≠ name)) := by
  have hnames : (t.withoutColumn name).names = t.names.filter (· ≠ name) := by
    show (t.columns.filter (·.name ≠ name)).map (·.name) = (t.columns.map (·.name)).filter (· ≠ name)
    rw [List.filter_map]
    rfl
  have hkeys : ∀ key ∈ (t.withoutColumn name).keys, ∃ old ∈ t.keys, key = old.filter (· ≠ name) := by
    intro key hkey
    rcases List.mem_cons.mp hkey with rfl | hkey
    · exact ⟨t.primary, List.mem_cons_self, rfl⟩
    · obtain ⟨index, hindex, rfl⟩ := List.mem_map.mp hkey
      obtain ⟨hindex, hunique⟩ := List.mem_filter.mp hindex
      obtain ⟨old, hold, rfl⟩ := List.mem_map.mp (List.mem_filter.mp hindex).1
      exact ⟨old.columns, List.mem_cons_of_mem _ (List.mem_map_of_mem (List.mem_filter.mpr ⟨hold, hunique⟩)), rfl⟩
  constructor
  · rw [hnames]
    exact h.distinct.filter _
  · intro key hkey
    obtain ⟨old, hold, rfl⟩ := hkeys key hkey
    rw [hnames]
    exact List.filter_subset _ (h.keyed old hold)
  · intro row hrow
    obtain ⟨old, hold, rfl⟩ := List.mem_map.mp hrow
    rw [hnames, ← h.shaped old hold, List.filter_map]
    rfl
  · intro column hcolumn hnull row hrow
    obtain ⟨old, hold, rfl⟩ := List.mem_map.mp hrow
    obtain ⟨hcolumn, hne⟩ := List.mem_filter.mp hcolumn
    rw [Row.cell_filter (of_decide_eq_true hne)]
    exact h.filled column hcolumn hnull old hold
  · intro key hkey
    obtain ⟨old, hold, rfl⟩ := hkeys key hkey
    have hfewer : Unique (old.filter (· ≠ name)) rows := by
      by_cases hmem : name ∈ old
      · exact hunique old hold hmem
      · have hsame : old.filter (· ≠ name) = old := by
          refine List.filter_eq_self.mpr fun column hcolumn => decide_eq_true ?_
          rintro rfl
          exact hmem hcolumn
        rw [hsame]
        exact h.unique old hold
    refine hfewer.map fun row _ column hcolumn => Row.cell_filter ?_
    exact of_decide_eq_true (List.mem_filter.mp hcolumn).2

theorem createIndex {index : Index} (h : t.Holds rows) (hcolumns : index.columns ⊆ t.names)
    (hunique : index.unique = true → Unique index.columns rows) : (t.withIndex index).Holds rows := by
  have hkeys : ∀ key ∈ (t.withIndex index).keys, key ∈ t.keys ∨ (key = index.columns ∧ index.unique = true) := by
    intro key hkey
    rcases List.mem_cons.mp hkey with rfl | hkey
    · exact .inl List.mem_cons_self
    · obtain ⟨i, hi, rfl⟩ := List.mem_map.mp hkey
      obtain ⟨hi, hiunique⟩ := List.mem_filter.mp hi
      rcases List.mem_append.mp hi with hi | hi
      · have hmem := List.mem_filter.mpr ⟨(List.mem_filter.mp hi).1, hiunique⟩
        exact .inl (List.mem_cons_of_mem _ (List.mem_map_of_mem hmem))
      · obtain rfl := List.mem_singleton.mp hi
        exact .inr ⟨rfl, hiunique⟩
  refine ⟨h.distinct, fun key hkey => ?_, h.shaped, h.filled, fun key hkey => ?_⟩
  · rcases hkeys key hkey with hold | ⟨rfl, -⟩
    · exact h.keyed key hold
    · exact hcolumns
  · rcases hkeys key hkey with hold | ⟨rfl, hnew⟩
    · exact h.unique key hold
    · exact hunique hnew

theorem dropIndex (h : t.Holds rows) : { t with indexes := t.indexes.filter (·.name ≠ name) }.Holds rows := by
  have hkeys : ({ t with indexes := t.indexes.filter (·.name ≠ name) } : TableSchema).keys ⊆ t.keys := by
    refine List.cons_subset_cons _ (List.map_subset _ ?_)
    exact (List.filter_sublist.filter _).subset
  exact ⟨h.distinct, fun key hkey => h.keyed key (hkeys hkey), h.shaped, h.filled,
    fun key hkey => h.unique key (hkeys hkey)⟩

end TableSchema.Holds

/-- Foreign keys bring no key of their own. -/
theorem keys_withForeignKey (t : TableSchema) (foreignKeys : List ForeignKey) :
    (foreignKeys.foldl TableSchema.withForeignKey t).keys = t.keys ∧
      (foreignKeys.foldl TableSchema.withForeignKey t).names = t.names := by
  induction foreignKeys generalizing t with
  | nil => exact ⟨rfl, rfl⟩
  | cons fk foreignKeys ih =>
    obtain ⟨hkeys, hnames⟩ := ih (t.withForeignKey fk)
    rw [List.foldl_cons]
    refine ⟨hkeys.trans ?_, hnames.trans rfl⟩
    unfold TableSchema.withForeignKey TableSchema.keys
    dsimp only
    split_ifs
    · rfl
    · simp

/-! ## Scripts keep the database valid -/

structure Database.Valid (db : Database) : Prop where
  absent : ∀ name, db.catalog.lookup name = none → db.rows name = []
  holds : ∀ name t, db.catalog.lookup name = some t → t.Holds (db.rows name)

namespace Database.Valid
variable {db db' : Database} {name : String} {t t' : TableSchema} {rows : List Row}

theorem set (h : db.Valid) (hlookup : db.catalog.lookup name = some t) (hholds : t'.Holds rows) :
    Valid ⟨db.catalog.set name t', Function.update db.rows name rows⟩ := by
  constructor
  · intro other hother
    dsimp only at hother ⊢
    by_cases hname : other = name
    · subst hname
      rw [Catalog.lookup_set_self hlookup] at hother
      cases hother
    · rw [Catalog.lookup_set_of_ne hname] at hother
      rw [Function.update_of_ne hname]
      exact h.absent other hother
  · intro other s hother
    dsimp only at hother ⊢
    by_cases hname : other = name
    · subst hname
      rw [Catalog.lookup_set_self hlookup] at hother
      obtain rfl := Option.some.inj hother
      rwa [Function.update_self]
    · rw [Catalog.lookup_set_of_ne hname] at hother
      rw [Function.update_of_ne hname]
      exact h.holds other s hother

theorem withRows (h : db.Valid) (hlookup : db.catalog.lookup name = some t) (hholds : t.Holds rows) :
    Valid ⟨db.catalog, Function.update db.rows name rows⟩ := by
  constructor
  · intro other hother
    dsimp only at hother ⊢
    by_cases hname : other = name
    · rw [hname, hlookup] at hother
      cases hother
    · rw [Function.update_of_ne hname]
      exact h.absent other hother
  · intro other s hother
    dsimp only at hother ⊢
    by_cases hname : other = name
    · rw [hname, hlookup] at hother
      obtain rfl := Option.some.inj hother
      rwa [hname, Function.update_self]
    · rw [Function.update_of_ne hname]
      exact h.holds other s hother

theorem concat (h : db.Valid) (hlookup : db.catalog.lookup name = none) (hholds : t.Holds []) :
    Valid ⟨db.catalog ++ [(name, t)], Function.update db.rows name []⟩ := by
  constructor
  · intro other hother
    dsimp only at hother ⊢
    rw [lookup_concat hlookup] at hother
    split_ifs at hother with hname
    rw [Function.update_of_ne hname]
    exact h.absent other hother
  · intro other s hother
    dsimp only at hother ⊢
    rw [lookup_concat hlookup] at hother
    split_ifs at hother with hname
    · obtain rfl := Option.some.inj hother
      rwa [hname, Function.update_self]
    · rw [Function.update_of_ne hname]
      exact h.holds other s hother

theorem without (h : db.Valid) :
    Valid ⟨db.catalog.filter (·.1 ≠ name), Function.update db.rows name []⟩ := by
  constructor
  · intro other hother
    dsimp only at hother ⊢
    by_cases hname : other = name
    · rw [hname, Function.update_self]
    · rw [lookup_without, if_neg hname] at hother
      rw [Function.update_of_ne hname]
      exact h.absent other hother
  · intro other s hother
    dsimp only at hother ⊢
    rw [lookup_without] at hother
    split_ifs at hother with hname
    rw [Function.update_of_ne hname]
    exact h.holds other s hother

end Database.Valid

section Exec
variable {db db' : Database} {op : Operation}

theorem exec_eq_ok :
    db.exec op = .ok db' ↔ ∃ c, op.alter db.catalog = .ok c ∧ op.Admits db ∧ ⟨c, op.rewrite db.rows⟩ = db' := by
  unfold Database.exec
  rw [bind_eq_ok]
  refine exists_congr fun c => and_congr_right fun _ => ?_
  split_ifs with hadmits
  · simp [hadmits]
  · simp [hadmits]

theorem alter_of_alters {c : Catalog} (hop : op.Alters = true) :
    op.alter c = c.table op.table >>= fun t => op.alterTable t >>= fun t' => .ok (c.set op.table t') := by
  cases op with
  | createTable name columns primary uniques foreignKeys => cases hop
  | dropTable name => cases hop
  | _ => rfl

/-- A statement that alters a table leaves one that holds of the rows. -/
theorem TableSchema.Holds.alterTable {t t' : TableSchema} {rows : List Row} (h : t.Holds rows)
    (hop : op.Alters = true) (halter : op.alterTable t = .ok t') (hadmits : op.AdmitsRows t rows) :
    t'.Holds (op.rewriteRows rows) := by
  cases op with
  | createTable name columns primary uniques foreignKeys => cases hop
  | dropTable name => cases hop
  | addColumn table column filled =>
    unfold Operation.alterTable at halter
    dsimp only at halter
    split_ifs at halter with hnew
    rw [← Except.ok.inj halter]
    exact h.addColumn hnew filled
  | dropColumn table name =>
    unfold Operation.alterTable at halter
    dsimp only at halter
    split_ifs at halter
    rw [← Except.ok.inj halter]
    exact h.dropColumn hadmits
  | alterColumn table name =>
    unfold Operation.alterTable at halter
    dsimp only at halter
    split_ifs at halter
    rw [← Except.ok.inj halter]
    exact h
  | createIndex table name columns unique =>
    unfold Operation.alterTable at halter
    dsimp only at halter
    split_ifs at halter with hunknown
    rw [← Except.ok.inj halter]
    refine h.createIndex (fun column hcolumn => ?_) hadmits
    by_contra hmissing
    exact hunknown ⟨column, hcolumn, hmissing⟩
  | dropIndex table name =>
    unfold Operation.alterTable at halter
    dsimp only at halter
    split_ifs at halter
    rw [← Except.ok.inj halter]
    exact h.dropIndex

/-- A statement that is carried out leaves a valid database. -/
theorem Database.Valid.exec (h : db.Valid) (hok : db.exec op = .ok db') : db'.Valid := by
  obtain ⟨c, halter, hadmits, rfl⟩ := exec_eq_ok.mp hok
  by_cases hop : op.Alters = true
  · rw [alter_of_alters hop] at halter
    obtain ⟨t, ht, halter⟩ := bind_eq_ok.mp halter
    obtain ⟨t', ht', halter⟩ := bind_eq_ok.mp halter
    have hlookup := Catalog.table_eq_ok.mp ht
    rw [← Except.ok.inj halter]
    exact h.set hlookup ((h.holds op.table t hlookup).alterTable hop ht' (hadmits t hlookup))
  · cases op with
    | createTable name columns primary uniques foreignKeys =>
      unfold Operation.alter at halter
      dsimp only at halter
      split_ifs at halter with hexists hdistinct hkeyed
      split at halter
      · cases halter
      · rw [← Except.ok.inj halter]
        have hfree : db.catalog.lookup name = none := Option.not_isSome_iff_eq_none.mp hexists
        obtain ⟨hkeys, hnames⟩ := keys_withForeignKey
          ⟨columns, primary, uniques.map fun u => ⟨u.1, u.2, true, false⟩, []⟩ foreignKeys
        refine h.concat hfree (.of_nil ?_ ?_)
        · rw [hnames]
          exact hdistinct
        · rw [hnames, hkeys]
          intro key hkey column hcolumn
          by_contra hmissing
          exact hkeyed ⟨key, hkey, column, hcolumn, hmissing⟩
    | dropTable name =>
      unfold Operation.alter at halter
      dsimp only at halter
      split_ifs at halter
      rw [← Except.ok.inj halter]
      exact h.without
    | _ => exact absurd rfl hop

/-- And so does every script, wherever it stops. -/
theorem Database.Valid.script (h : db.Valid) (ops : List Operation) : (db.script ops).2.Valid := by
  induction ops generalizing db with
  | nil => exact h
  | cons op ops ih =>
    rw [Database.script]
    cases hexec : db.exec op with
    | error e => exact h
    | ok db' => exact ih (h.exec hexec)

end Exec

end OpsMonitor.Library.Ddl

import VotingApp.Lib.Scripts
import VotingApp.Frames

/-!
RunMigrations and schema.sql. Any number of instances run the statements at once, on a database of
any age, while other instances serve requests from it.
-/
namespace Migrations
open GoText Tables EffectProgram CallPool PoolHistory Scripts VotingWorld Frames

/-- A value of a column; none is NULL. -/
abbrev Value := Option String

abbrev Row := List (String × Value)

/-- A column and its DEFAULT. -/
structure Column where
  name : String
  fallback : Value
  deriving DecidableEq

structure Table where
  columns : List Column
  indexes : List String := []
  rows : List Row := []
  deriving DecidableEq

abbrev Catalog := String → Option Table

def Catalog.put (cat : Catalog) (name : String) (t : Table) : Catalog :=
  fun name' => if name' = name then some t else cat name'

/-- The statements of schema.sql; each says IF NOT EXISTS or IGNORE. -/
inductive Statement where
  | createTable (name : String) (columns : List Column) (references : List String)
  | addColumn (table : String) (column : Column)
  | createIndex (index table column : String)
  | insertIgnore (table : String) (row : Row)
  deriving DecidableEq

/-- Every table has this column for its primary key. -/
def primaryKey : String := "id"

def noSuchTable (name : String) : GoErr :=
  newError ("Error 1146 (42S02): Table '" ++ name ++ "' doesn't exist")

def noSuchColumn (name : String) : GoErr :=
  newError ("Error 1054 (42S22): Unknown column '" ++ name ++ "'")

def badForeignKey : GoErr :=
  newError "Error 1005 (HY000): Can't create table (errno: 150 Foreign key constraint)"

def Table.has (t : Table) (column : String) : Bool := t.columns.any fun c => c.name = column

/- The rows that are there get the new column with its DEFAULT. -/
def Table.withColumn (t : Table) (c : Column) : Table :=
  { t with columns := t.columns ++ [c], rows := t.rows.map fun r => r ++ [(c.name, c.fallback)] }

/- The columns that the statement does not name get their DEFAULT. -/
def Table.complete (t : Table) (row : Row) : Row :=
  t.columns.map fun c => (c.name, (row.lookup c.name).getD c.fallback)

/- A row is ignored where another one has its primary key. -/
def Table.insertIgnore (t : Table) (row : Row) : Table :=
  if t.rows.any fun r => r.lookup primaryKey = row.lookup primaryKey then t
  else { t with rows := t.rows ++ [t.complete row] }

def Statement.run (cat : Catalog) : Statement → Except GoErr Unit × Catalog
  | .createTable name columns references =>
    if (cat name).isSome then (.ok (), cat)
    else if references.all fun other => (cat other).isSome then (.ok (), cat.put name ⟨columns, [], []⟩)
    else (.error badForeignKey, cat)
  | .addColumn table column =>
    match cat table with
    | none => (.error (noSuchTable table), cat)
    | some t => if t.has column.name then (.ok (), cat) else (.ok (), cat.put table (t.withColumn column))
  | .createIndex index table column =>
    match cat table with
    | none => (.error (noSuchTable table), cat)
    | some t =>
      if index ∈ t.indexes then (.ok (), cat)
      else if t.has column then (.ok (), cat.put table { t with indexes := t.indexes ++ [index] })
      else (.error (noSuchColumn column), cat)
  | .insertIgnore table row =>
    match cat table with
    | none => (.error (noSuchTable table), cat)
    | some t =>
      match row.find? fun p => !t.has p.1 with
      | some p => (.error (noSuchColumn p.1), cat)
      | none => (.ok (), cat.put table (t.insertIgnore row))

def settingsTable : String := "voting_settings"

/-- schema.sql, as it is split at its semicolons. -/
def schema : List Statement := [
  .createTable "admins"
    [⟨"id", none⟩, ⟨"email", none⟩, ⟨"password_hash", none⟩, ⟨"created_at", some "CURRENT_TIMESTAMP"⟩] [],
  .createTable "candidates"
    [⟨"id", none⟩, ⟨"name", none⟩, ⟨"description", none⟩, ⟨"image_path", none⟩,
      ⟨"created_at", some "CURRENT_TIMESTAMP"⟩, ⟨"updated_at", none⟩] [],
  .addColumn "candidates" ⟨"updated_at", none⟩,
  .createTable "votes"
    [⟨"id", none⟩, ⟨"voter_email", none⟩, ⟨"voter_fingerprint", none⟩, ⟨"candidate_id", none⟩,
      ⟨"voter_ip", none⟩, ⟨"voter_user_agent", none⟩, ⟨"created_at", some "CURRENT_TIMESTAMP"⟩]
    ["candidates"],
  .addColumn "votes" ⟨"voter_ip", none⟩,
  .addColumn "votes" ⟨"voter_user_agent", none⟩,
  .createIndex "idx_candidate_id" "votes" "candidate_id",
  .createTable settingsTable [⟨"id", some "1"⟩, ⟨"is_open", some "1"⟩, ⟨"ends_at", none⟩] [],
  .insertIgnore settingsTable [("id", some "1"), ("is_open", some "1"), ("ends_at", none)],
  .createTable "email_send_log"
    [⟨"id", none⟩, ⟨"to_address", none⟩, ⟨"status", some "failed"⟩, ⟨"error_message", none⟩,
      ⟨"retry_count", some "0"⟩, ⟨"created_at", some "CURRENT_TIMESTAMP"⟩] [],
  .createTable "custom_email_domains"
    [⟨"id", none⟩, ⟨"domain", none⟩, ⟨"created_at", some "CURRENT_TIMESTAMP"⟩] [],
  .createIndex "idx_custom_domain" "custom_email_domains" "domain",
  .addColumn settingsTable ⟨"custom_domains_only", some "0"⟩]

/-- RunMigrations, once the file is read. It panics with the error that has stopped it. -/
def runMigrations : Prog Statement (Tried GoErr) (Option GoErr) := inOrder schema

/-- What other instances make of the rows of a table. -/
structure Traffic where
  table : String
  rows : List Row

/- Requests change rows only, and none of them removes the row of the settings. -/
def Catalog.serve (cat : Catalog) (x : Traffic) : Option Catalog :=
  match cat x.table with
  | none => none
  | some t =>
    if x.table = settingsTable && !(t.rows.all fun r =>
        x.rows.any fun r' => r'.lookup primaryKey = r.lookup primaryKey) then none
    else some (cat.put x.table { t with rows := x.rows })

def migrations : Machine Statement (Tried GoErr) Catalog Oracle Traffic Unit (Option GoErr) where
  perform cat o c := some (faulty o cat (c.run cat))
  env := Catalog.serve
  program _ := runMigrations
  spawns _ := []

abbrev Instances := Pool Statement (Tried GoErr) Catalog Oracle Unit (Option GoErr)

def database (cat : Catalog) : Instances := { world := cat }

/-- What a statement leaves behind, or relies on. -/
inductive Fact where
  | table (name : String)
  | column (table column : String)
  | index (table index : String)
  | settings (key : Value)
  deriving DecidableEq

def Fact.holds : Fact → Catalog → Prop
  | .table name, cat => (cat name).isSome = true
  | .column name c, cat => ∃ t, cat name = some t ∧ t.has c = true
  | .index name i, cat => ∃ t, cat name = some t ∧ i ∈ t.indexes
  | .settings key, cat => ∃ t, cat settingsTable = some t ∧ ∃ r ∈ t.rows, r.lookup primaryKey = some key

/-- The column has been added to the schema after its table. -/
def addedLater (table column : String) : Bool :=
  schema.any fun
    | .addColumn t c => t = table && c.name = column
    | _ => false

def Statement.needs : Statement → List Fact
  | .createTable _ _ references => references.map .table
  | .addColumn table _ => [.table table]
  | .createIndex _ table column => [.table table, .column table column]
  | .insertIgnore table row => .table table :: row.map fun p => .column table p.1

def Statement.leaves : Statement → List Fact
  | .createTable name columns _ =>
    .table name :: ((columns.filter fun c => !addedLater name c.name).map fun c => .column name c.name)
  | .addColumn table column => [.column table column.name]
  | .createIndex index table _ => [.index table index]
  | .insertIgnore table row =>
    if table = settingsTable then (row.lookup primaryKey).toList.map .settings else []

/-- A database that earlier versions of the schema may have left: what tables it has, have their first
columns. The empty one is such a database. -/
def Legacy (cat : Catalog) : Prop := ∀ name columns references,
  .createTable name columns references ∈ schema → ∀ t, cat name = some t →
    ∀ c ∈ columns, addedLater name c.name = false → t.has c.name = true

/-- The database has all that the schema speaks of. -/
def Complete (cat : Catalog) : Prop := ∀ c ∈ schema, ∀ f ∈ c.leaves, f.holds cat

/-- The table has grown: no column, index or row is lost, and no row has lost a value. A row that is
new has a primary key of its own. -/
structure Grown (t t' : Table) : Prop where
  columns : t.columns <+: t'.columns
  indexes : t.indexes <+: t'.indexes
  rows : ∃ kept new, t'.rows = kept ++ new ∧ List.Forall₂ (fun r r' => r <+: r') t.rows kept ∧
    ∀ r' ∈ new, ∀ r ∈ t.rows, r'.lookup primaryKey ≠ r.lookup primaryKey

def GrownAll (cat cat' : Catalog) : Prop :=
  ∀ name t, cat name = some t → ∃ t', cat' name = some t' ∧ Grown t t'

section Catalogs
variable {cat cat' : Catalog} {name : String} {t t' : Table}

@[simp] theorem put_self (cat : Catalog) (name : String) (t : Table) : cat.put name t name = some t := by
  simp [Catalog.put]

theorem put_other (cat : Catalog) {name name' : String} (t : Table) (ne : name' ≠ name) :
    cat.put name t name' = cat name' := by
  simp [Catalog.put, ne]

theorem put_same (there : cat name = some t) : cat.put name t = cat := by
  funext name'
  by_cases same : name' = name
  · rw [same, put_self, there]
  · rw [put_other cat t same]

theorem grown_refl (t : Table) : Grown t t := by
  refine ⟨List.prefix_refl _, List.prefix_refl _, t.rows, [], by simp, ?_, by simp⟩
  exact List.forall₂_same.mpr fun r _ => List.prefix_refl r

theorem grownAll_refl (cat : Catalog) : GrownAll cat cat := fun _ t there => ⟨t, there, grown_refl t⟩

theorem grownAll_put (there : cat name = some t) (grown : Grown t t') : GrownAll cat (cat.put name t') := by
  intro name' u at_name'
  by_cases same : name' = name
  · subst name'
    rw [there, Option.some.injEq] at at_name'
    subst u
    exact ⟨t', put_self .., grown⟩
  · exact ⟨u, (put_other cat t' same).trans at_name', grown_refl u⟩

theorem grown_withColumn (t : Table) (c : Column) : Grown t (t.withColumn c) := by
  refine ⟨List.prefix_append _ _, List.prefix_refl _, t.rows.map fun r => r ++ [(c.name, c.fallback)], [],
    by simp [Table.withColumn], ?_, by simp⟩
  rw [List.forall₂_map_right_iff]
  exact List.forall₂_same.mpr fun r _ => List.prefix_append r _

theorem grown_withIndex (t : Table) (index : String) :
    Grown t { t with indexes := t.indexes ++ [index] } := by
  refine ⟨List.prefix_refl _, List.prefix_append _ _, t.rows, [], by simp, ?_, by simp⟩
  exact List.forall₂_same.mpr fun r _ => List.prefix_refl r

/- The value that a completed row has in a column that the statement names. -/
theorem lookup_complete {row : Row} {column : String} {v : Value} (named : row.lookup column = some v)
    (has : t.has column = true) : (t.complete row).lookup column = some v := by
  have found : ∀ columns : List Column, (columns.any fun c => c.name = column) = true →
      (columns.map fun c => (c.name, (row.lookup c.name).getD c.fallback)).lookup column = some v := by
    intro columns
    induction columns with
    | nil =>
      intro none_has
      cases none_has
    | cons c rest ih =>
      intro some_has
      rw [List.map_cons, List.lookup_cons]
      by_cases here : c.name = column
      · rw [here, named]
        simp
      · have apart : (column == c.name) = false := by simpa using Ne.symm here
        rw [apart]
        exact ih (by simpa [here] using some_has)
  exact found t.columns has

theorem fits_key {row : Row} {v : Value} (named : row.lookup primaryKey = some v)
    (fits : ∀ p ∈ row, t.has p.1 = true) : t.has primaryKey = true := by
  obtain ⟨before, after, shape, -⟩ := List.lookup_eq_some_iff.mp named
  exact fits (primaryKey, v) (by simp [shape])

theorem grown_insert {row : Row} {v : Value} (keyed : row.lookup primaryKey = some v)
    (fits : ∀ p ∈ row, t.has p.1 = true) : Grown t (t.insertIgnore row) := by
  have named := fits_key keyed fits
  unfold Table.insertIgnore
  split
  · exact grown_refl t
  · rename_i fresh
    refine ⟨List.prefix_refl _, List.prefix_refl _, t.rows, [t.complete row], rfl, ?_, ?_⟩
    · exact List.forall₂_same.mpr fun r _ => List.prefix_refl r
    · intro r' new r member same
      rw [List.mem_singleton.mp new, lookup_complete keyed named, ← keyed] at same
      apply fresh
      rw [List.any_eq_true]
      exact ⟨r, member, by simp [same]⟩

theorem has_grown (grown : Grown t t') {column : String} (has : t.has column = true) :
    t'.has column = true := by
  unfold Table.has at *
  rw [List.any_eq_true] at has ⊢
  obtain ⟨c, member, same⟩ := has
  exact ⟨c, grown.columns.subset member, same⟩

theorem lookup_grown {r r' : Row} (longer : r <+: r') {k : String} {v : Value}
    (found : r.lookup k = some v) : r'.lookup k = some v := by
  obtain ⟨more, rfl⟩ := longer
  rw [List.lookup_append, found]
  rfl

theorem kept_row {rows kept : List Row} (longer : List.Forall₂ (fun r r' => r <+: r') rows kept) {r : Row}
    (member : r ∈ rows) : ∃ r' ∈ kept, r <+: r' := by
  induction longer with
  | nil => cases member
  | @cons first first' rows kept grew rest ih =>
    rcases List.mem_cons.mp member with rfl | later
    · exact ⟨first', List.mem_cons_self, grew⟩
    · obtain ⟨r', still, more⟩ := ih later
      exact ⟨r', List.mem_cons_of_mem _ still, more⟩

end Catalogs

theorem holds_grown {cat cat' : Catalog} (grown : GrownAll cat cat') {f : Fact} (held : f.holds cat) :
    f.holds cat' := by
  cases f with
  | table name =>
    obtain ⟨t, there⟩ := Option.isSome_iff_exists.mp held
    obtain ⟨t', there', -⟩ := grown name t there
    exact Option.isSome_iff_exists.mpr ⟨t', there'⟩
  | column name c =>
    obtain ⟨t, there, has⟩ := held
    obtain ⟨t', there', more⟩ := grown name t there
    exact ⟨t', there', has_grown more has⟩
  | index name i =>
    obtain ⟨t, there, indexed⟩ := held
    obtain ⟨t', there', more⟩ := grown name t there
    exact ⟨t', there', more.indexes.subset indexed⟩
  | settings key =>
    obtain ⟨t, there, r, member, found⟩ := held
    obtain ⟨t', there', more⟩ := grown settingsTable t there
    obtain ⟨kept, new, rows, longer, -⟩ := more.rows
    obtain ⟨r', still, grew⟩ := kept_row longer member
    refine ⟨t', there', r', ?_, lookup_grown grew found⟩
    rw [rows]
    exact List.mem_append_left _ still

/-- A row to be inserted is one of the settings, with its primary key. -/
def Statement.keyed : Statement → Bool
  | .insertIgnore table row => table = settingsTable && (row.lookup primaryKey).isSome
  | _ => true

theorem schema_keyed : ∀ c ∈ schema, c.keyed = true := by decide +kernel

theorem schema_ordered : wellOrdered Statement.needs Statement.leaves [] schema = true := by decide +kernel

/- No table is created twice. -/
theorem schema_distinct : (schema.all fun c => schema.all fun d =>
    match c, d with
    | .createTable name columns _, .createTable name' columns' _ => name ≠ name' || columns = columns'
    | _, _ => true) = true := by decide +kernel

/-- What a statement can do to a database: it lacks something and leaves everything as it is, or it
finds its work done, or it does it. -/
inductive Ran (cat : Catalog) : Statement → Except GoErr Unit × Catalog → Prop where
  | lacks {c : Statement} {f : Fact} (err : GoErr) (needed : f ∈ c.needs) (missing : ¬ f.holds cat) :
    Ran cat c (.error err, cat)
  | there {name : String} {columns : List Column} {references : List String}
    (there : (cat name).isSome = true) : Ran cat (.createTable name columns references) (.ok (), cat)
  | created {name : String} {columns : List Column} {references : List String} (absent : cat name = none) :
    Ran cat (.createTable name columns references) (.ok (), cat.put name ⟨columns, [], []⟩)
  | hasColumn {table : String} {column : Column} {t : Table} (there : cat table = some t)
    (has : t.has column.name = true) : Ran cat (.addColumn table column) (.ok (), cat)
  | columnAdded {table : String} {column : Column} {t : Table} (there : cat table = some t)
    (new : ¬ t.has column.name = true) :
    Ran cat (.addColumn table column) (.ok (), cat.put table (t.withColumn column))
  | hasIndex {index table column : String} {t : Table} (there : cat table = some t)
    (has : index ∈ t.indexes) : Ran cat (.createIndex index table column) (.ok (), cat)
  | indexAdded {index table column : String} {t : Table} (there : cat table = some t)
    (new : index ∉ t.indexes) :
    Ran cat (.createIndex index table column)
      (.ok (), cat.put table { t with indexes := t.indexes ++ [index] })
  | inserted {table : String} {row : Row} {t : Table} (there : cat table = some t)
    (fits : ∀ p ∈ row, t.has p.1 = true) :
    Ran cat (.insertIgnore table row) (.ok (), cat.put table (t.insertIgnore row))

theorem no_table {cat : Catalog} {name : String} (absent : cat name = none) :
    ¬ (Fact.table name).holds cat := by
  simp [Fact.holds, absent]

theorem no_column {cat : Catalog} {name column : String} {t : Table} (there : cat name = some t)
    (lacks : ¬ t.has column = true) : ¬ (Fact.column name column).holds cat := by
  rintro ⟨u, at_name, has⟩
  rw [there, Option.some.injEq] at at_name
  subst u
  exact lacks has

theorem run_ran (c : Statement) (cat : Catalog) : Ran cat c (c.run cat) := by
  cases c with
  | createTable name columns references =>
    dsimp only [Statement.run]
    split
    · rename_i there
      exact .there there
    · rename_i absent
      split
      · exact .created (by simpa using absent)
      · rename_i refused
        simp only [List.all_eq_true, not_forall] at refused
        obtain ⟨other, member, missing⟩ := refused
        exact .lacks _ (List.mem_map_of_mem member) missing
  | addColumn table column =>
    dsimp only [Statement.run]
    split
    · rename_i absent
      exact .lacks _ List.mem_cons_self (no_table absent)
    · rename_i t there
      split
      · rename_i has
        exact .hasColumn there has
      · rename_i new
        exact .columnAdded there new
  | createIndex index table column =>
    dsimp only [Statement.run]
    split
    · rename_i absent
      exact .lacks _ List.mem_cons_self (no_table absent)
    · rename_i t there
      split
      · rename_i has
        exact .hasIndex there has
      · rename_i new
        split
        · exact .indexAdded there new
        · rename_i lacks
          exact .lacks _ (List.mem_cons_of_mem _ List.mem_cons_self) (no_column there lacks)
  | insertIgnore table row =>
    dsimp only [Statement.run]
    split
    · rename_i absent
      exact .lacks _ List.mem_cons_self (no_table absent)
    · rename_i t there
      split
      · rename_i p found
        have lacks : ¬ t.has p.1 = true := by simpa using List.find?_some found
        exact .lacks _ (List.mem_cons_of_mem _ (List.mem_map_of_mem (List.mem_of_find?_eq_some found)))
          (no_column there lacks)
      · rename_i none_lacks
        exact .inserted there (by simpa using none_lacks)

section Statements
variable {cat : Catalog} {c : Statement} {x : Except GoErr Unit × Catalog}

/- Nothing is lost by a statement, whether it goes through or not. -/
theorem ran_grown (keyed : c.keyed = true) (ran : Ran cat c x) : GrownAll cat x.2 := by
  cases ran with
  | @created name columns references absent =>
    intro name' t at_name'
    have other : name' ≠ name := by
      rintro rfl
      rw [absent] at at_name'
      cases at_name'
    exact ⟨t, (put_other cat _ other).trans at_name', grown_refl t⟩
  | columnAdded there new => exact grownAll_put there (grown_withColumn _ _)
  | indexAdded there new => exact grownAll_put there (grown_withIndex _ _)
  | inserted there fits =>
    obtain ⟨-, named⟩ := Bool.and_eq_true_iff.mp keyed
    obtain ⟨v, named⟩ := Option.isSome_iff_exists.mp named
    exact grownAll_put there (grown_insert named fits)
  | _ => exact grownAll_refl cat

/- A table that is new is as it has been written down. -/
theorem ran_new (ran : Ran cat c x) {name : String} {t : Table} (absent : cat name = none)
    (new : x.2 name = some t) : ∃ columns references,
      c = .createTable name columns references ∧ t = ⟨columns, [], []⟩ := by
  have still : ∀ {name' : String} {u u' : Table}, cat name' = some u → cat.put name' u' name ≠ some t := by
    intro name' u u' at_name' new
    have other : name ≠ name' := by
      rintro rfl
      rw [absent] at at_name'
      cases at_name'
    rw [put_other cat u' other, absent] at new
    cases new
  cases ran with
  | @created name' columns references absent' =>
    by_cases same : name = name'
    · subst same
      dsimp only at new
      rw [put_self, Option.some.injEq] at new
      exact ⟨columns, references, rfl, new.symm⟩
    · dsimp only at new
      rw [put_other cat _ same, absent] at new
      cases new
  | columnAdded there _ => exact absurd new (still there)
  | indexAdded there _ => exact absurd new (still there)
  | inserted there fits => exact absurd new (still there)
  | _ =>
    dsimp only at new
    rw [absent] at new
    cases new

theorem columns_once {name : String} {columns columns' : List Column} {references references' : List String}
    (one : .createTable name columns references ∈ schema)
    (other : .createTable name columns' references' ∈ schema) : columns = columns' := by
  have same := List.all_eq_true.mp (List.all_eq_true.mp schema_distinct _ one) _ other
  simpa using same

theorem legacy_ran (inside : c ∈ schema) (legacy : Legacy cat) (ran : Ran cat c x) : Legacy x.2 := by
  intro name columns references written t there column member first
  cases before : cat name with
  | some u =>
    obtain ⟨u', there', grown⟩ := ran_grown (schema_keyed c inside) ran name u before
    rw [there, Option.some.injEq] at there'
    subst u'
    exact has_grown grown (legacy name columns references written u before column member first)
  | none =>
    obtain ⟨columns', references', rfl, rfl⟩ := ran_new ran before there
    rw [columns_once written inside] at member
    exact List.any_eq_true.mpr ⟨column, member, by simp⟩

theorem created_leaves {name : String} {columns : List Column} {references : List String}
    (inside : .createTable name columns references ∈ schema) (legacy : Legacy cat)
    (there : (cat name).isSome = true) :
    ∀ f ∈ (Statement.createTable name columns references).leaves, f.holds cat := by
  obtain ⟨t, at_name⟩ := Option.isSome_iff_exists.mp there
  intro f left
  rcases List.mem_cons.mp left with rfl | left
  · exact there
  · obtain ⟨column, member, rfl⟩ := List.mem_map.mp left
    obtain ⟨member, first⟩ := List.mem_filter.mp member
    exact ⟨t, at_name, legacy name columns references inside t at_name column member (by simpa using first)⟩

/- A statement that has gone through leaves its facts behind. -/
theorem ran_leaves (inside : c ∈ schema) (legacy : Legacy cat) (ran : Ran cat c x) (ok : x.1 = .ok ()) :
    ∀ f ∈ c.leaves, f.holds x.2 := by
  have legacy_then := legacy_ran inside legacy ran
  cases ran with
  | lacks err needed missing => cases ok
  | there present => exact created_leaves inside legacy present
  | created absent => exact created_leaves inside legacy_then (by simp)
  | hasColumn there has =>
    intro f left
    rw [List.mem_singleton.mp left]
    exact ⟨_, there, has⟩
  | columnAdded there new =>
    intro f left
    rw [List.mem_singleton.mp left]
    exact ⟨_, put_self .., by simp [Table.withColumn, Table.has]⟩
  | hasIndex there has =>
    intro f left
    rw [List.mem_singleton.mp left]
    exact ⟨_, there, has⟩
  | indexAdded there new =>
    intro f left
    rw [List.mem_singleton.mp left]
    exact ⟨_, put_self .., by simp⟩
  | @inserted table row t there fits =>
    obtain ⟨is_settings, named⟩ := Bool.and_eq_true_iff.mp (schema_keyed _ inside)
    obtain ⟨v, named⟩ := Option.isSome_iff_exists.mp named
    obtain rfl := of_decide_eq_true is_settings
    have fact : ∃ r ∈ (t.insertIgnore row).rows, r.lookup primaryKey = some v := by
      unfold Table.insertIgnore
      split
      · rename_i taken
        obtain ⟨r, member, same⟩ := List.any_eq_true.mp taken
        exact ⟨r, member, by simpa [named] using same⟩
      · exact ⟨t.complete row, by simp, lookup_complete named (fits_key named fits)⟩
    intro f left
    simp only [Statement.leaves, ↓reduceIte, named, Option.toList_some, List.map_cons, List.map_nil,
      List.mem_singleton] at left
    rw [left]
    exact ⟨t.insertIgnore row, put_self cat settingsTable _, fact⟩

/- Where all is there, a statement changes nothing. -/
theorem ran_complete (inside : c ∈ schema) (complete : Complete cat) (ran : Ran cat c x) : x.2 = cat := by
  have facts := complete c inside
  cases ran with
  | created absent => exact absurd (facts _ List.mem_cons_self) (no_table absent)
  | columnAdded there new => exact absurd (facts _ List.mem_cons_self) (no_column there new)
  | @indexAdded index table column t there new =>
    obtain ⟨u, at_table, has⟩ := facts (.index table index) List.mem_cons_self
    rw [there, Option.some.injEq] at at_table
    subst u
    exact absurd has new
  | @inserted table row t there fits =>
    obtain ⟨is_settings, named⟩ := Bool.and_eq_true_iff.mp (schema_keyed _ inside)
    obtain ⟨v, named⟩ := Option.isSome_iff_exists.mp named
    obtain rfl := of_decide_eq_true is_settings
    obtain ⟨u, at_table, r, member, found⟩ := facts (.settings v) (by simp [Statement.leaves, named])
    rw [there, Option.some.injEq] at at_table
    subst u
    have taken : (t.rows.any fun r => r.lookup primaryKey = row.lookup primaryKey) = true :=
      List.any_eq_true.mpr ⟨r, member, by simp [named, found]⟩
    dsimp only
    rw [Table.insertIgnore, if_pos taken, put_same there]
  | _ => rfl

/- Where all that it needs is there, a statement goes through. -/
theorem ran_ok (ready : ∀ f ∈ c.needs, f.holds cat) (ran : Ran cat c x) : x.1 = .ok () := by
  cases ran with
  | lacks err needed missing => exact absurd (ready _ needed) missing
  | _ => rfl

end Statements

/- Requests leave the schema alone, and the row of the settings. -/
theorem served_lasts {cat cat' : Catalog} {traffic : Traffic} (served : cat.serve traffic = some cat') :
    (∀ name t', cat' name = some t' → ∃ t, cat name = some t ∧ t'.columns = t.columns) ∧
      ∀ f, Fact.holds f cat → Fact.holds f cat' := by
  unfold Catalog.serve at served
  split at served
  · cases served
  · rename_i t there
    split at served
    · cases served
    · rename_i guarded
      cases served
      constructor
      · intro name t' at_name
        by_cases same : name = traffic.table
        · subst same
          rw [put_self, Option.some.injEq] at at_name
          exact ⟨t, there, by rw [← at_name]⟩
        · rw [put_other cat _ same] at at_name
          exact ⟨t', at_name, rfl⟩
      · intro f held
        have at_table : ∀ {name : String} {u : Table}, cat name = some u → ∃ u',
            cat.put traffic.table { t with rows := traffic.rows } name = some u' ∧ u'.columns = u.columns ∧
              u'.indexes = u.indexes ∧ (name ≠ traffic.table → u' = u) := by
          intro name u at_name
          by_cases same : name = traffic.table
          · subst same
            rw [there, Option.some.injEq] at at_name
            subst u
            exact ⟨_, put_self .., rfl, rfl, fun other => absurd rfl other⟩
          · exact ⟨u, (put_other cat _ same).trans at_name, rfl, rfl, fun _ => rfl⟩
        cases f with
        | table name =>
          obtain ⟨u, at_name⟩ := Option.isSome_iff_exists.mp held
          obtain ⟨u', at_name', -⟩ := at_table at_name
          exact Option.isSome_iff_exists.mpr ⟨u', at_name'⟩
        | column name c =>
          obtain ⟨u, at_name, has⟩ := held
          obtain ⟨u', at_name', columns, -⟩ := at_table at_name
          exact ⟨u', at_name', by rw [Table.has, columns]; exact has⟩
        | index name i =>
          obtain ⟨u, at_name, has⟩ := held
          obtain ⟨u', at_name', -, indexes, -⟩ := at_table at_name
          exact ⟨u', at_name', by rw [indexes]; exact has⟩
        | settings key =>
          obtain ⟨u, at_name, r, member, found⟩ := held
          by_cases same : settingsTable = traffic.table
          · rw [← same, at_name, Option.some.injEq] at there
            subst t
            have kept : (u.rows.all fun r => traffic.rows.any fun r' =>
                r'.lookup primaryKey = r.lookup primaryKey) = true := by
              simpa [← same] using guarded
            obtain ⟨r', still, named⟩ := List.any_eq_true.mp (List.all_eq_true.mp kept r member)
            refine ⟨{ u with rows := traffic.rows }, ?_, r', still, by simpa [found] using named⟩
            rw [← same]
            exact put_self ..
          · obtain ⟨u', at_name', -, -, other⟩ := at_table at_name
            rw [other same] at at_name'
            exact ⟨u, at_name', r, member, found⟩

theorem migrations_lasting : Lasting migrations (fun o => o.fault.isNone) (fun _ => schema) Legacy
    Fact.holds Statement.needs Statement.leaves where
  programs _ := rfl
  spawns _ := rfl
  env {cat traffic cat'} legacy served := by
    obtain ⟨columns, lasts⟩ := served_lasts served
    refine ⟨?_, lasts⟩
    intro name written references inside t' there column member first
    obtain ⟨t, at_name, same⟩ := columns name t' there
    rw [Table.has, same]
    exact legacy name written references inside t at_name column member first
  performs {_ cat o c r cat'} inside legacy performed := by
    obtain ⟨reply, left⟩ := Prod.mk.inj (Option.some.inj performed)
    have ran := run_ran c cat
    cases fault : o.fault with
    | none =>
      simp only [fault] at reply left
      subst reply left
      have grown := ran_grown (schema_keyed c inside) ran
      exact ⟨legacy_ran inside legacy ran, fun f held => holds_grown grown held, ran_leaves inside legacy ran⟩
    | some f =>
      simp only [fault] at reply left
      subst reply
      split at left
      · subst left
        exact ⟨legacy_ran inside legacy ran,
          fun f held => holds_grown (ran_grown (schema_keyed c inside) ran) held, by simp⟩
      · subst left
        exact ⟨legacy, fun f held => held, by simp⟩
  healthy {_ cat o c err cat'} inside legacy ready fair performed := by
    have healthy : o.fault = none := by simpa using fair
    obtain ⟨reply, -⟩ := Prod.mk.inj (Option.some.inj performed)
    simp only [healthy] at reply
    rw [ran_ok ready (run_ran c cat)] at reply
    cases reply

/-- What a query of the repositories asks the tables for. -/
def asksFor : SqlCmd → List Fact
  | .countVotesByEmail _ => [.column "votes" "voter_email"]
  | .countVotesByFingerprint _ => [.column "votes" "voter_fingerprint"]
  | .countVotesByIP _ => [.column "votes" "voter_ip"]
  | .countVotesFor _ => [.column "votes" "candidate_id"]
  | .insertVote .. => [.column "votes" "voter_email", .column "votes" "voter_fingerprint",
      .column "votes" "candidate_id", .column "votes" "voter_ip", .column "votes" "voter_user_agent"]
  | .getAllWithVotes => [.column "candidates" "id", .column "candidates" "name",
      .column "candidates" "description", .column "candidates" "image_path",
      .column "candidates" "created_at", .column "candidates" "updated_at", .column "votes" "id",
      .column "votes" "candidate_id"]
  | .candidateName _ => [.column "candidates" "name", .column "candidates" "id"]
  | .insertCandidate .. => [.column "candidates" "name", .column "candidates" "description",
      .column "candidates" "image_path"]
  | .updateCandidate .. => [.column "candidates" "name", .column "candidates" "description",
      .column "candidates" "image_path", .column "candidates" "updated_at", .column "candidates" "id"]
  | .deleteCandidate _ => [.column "candidates" "id"]
  | .getSettings => [.column settingsTable "is_open", .column settingsTable "ends_at",
      .column settingsTable "custom_domains_only", .column settingsTable "id", .settings (some "1")]
  | .updateSettings .. => [.column settingsTable "is_open", .column settingsTable "ends_at",
      .column settingsTable "id", .settings (some "1")]
  | .updateCustomDomainsOnly _ => [.column settingsTable "custom_domains_only",
      .column settingsTable "id", .settings (some "1")]
  | .allDomains => [.column "custom_email_domains" "id", .column "custom_email_domains" "domain",
      .column "custom_email_domains" "created_at"]
  | .insertDomain _ => [.column "custom_email_domains" "domain"]
  | .domainById _ => [.column "custom_email_domains" "domain", .column "custom_email_domains" "id"]
  | .deleteDomain _ => [.column "custom_email_domains" "id"]
  | .countDomain _ => [.column "custom_email_domains" "domain"]

/- The schema has what the repositories ask for. -/
theorem schema_serves (c : SqlCmd) : ∀ f ∈ asksFor c, f ∈ schema.flatMap Statement.leaves := by
  have served : ((asksFor c).all fun f => decide (f ∈ schema.flatMap Statement.leaves)) = true := by
    cases c <;> rfl
  simpa using served

/- On a database of any age, with any number of instances that run the migrations at once, die at any
   statement and are started again, while others serve requests: an instance panics only for a fault
   that it met itself; once one has come to its end, all tables, columns and indexes are there, with the
   row of the settings, so that every query of the repositories finds what it asks for; and no statement
   of a migration loses a row or a value, or changes anything where all is there. -/
theorem database_migrated {cat : Catalog} (legacy : Legacy cat)
    {allow : Instances → Label Oracle Traffic Unit → Bool} {s : Instances}
    (run : Reaches migrations allow (database cat) s) :
    (∀ i job err, s.jobs[i]? = some job → job.rest = .done (some err) →
      ∃ ev ∈ s.log, ev.caller = i ∧ ev.oracle.fault ≠ none) ∧
    (∀ job ∈ s.jobs, job.rest = .done none →
      Complete s.world ∧ ∀ c, ∀ f ∈ asksFor c, f.holds s.world) ∧
    ∀ ev ∈ s.log, GrownAll ev.before ev.after ∧ (Complete ev.before → ev.after = ev.before) := by
  refine ⟨?_, ?_, ?_⟩
  · intro i job err at_i stopped
    obtain ⟨ev, logged, mine, unfair⟩ :=
      stopped_by_fault migrations_lasting rfl rfl legacy run at_i schema_ordered stopped
    refine ⟨ev, logged, mine, ?_⟩
    intro healthy
    rw [healthy] at unfair
    cases unfair
  · intro job member finished
    have complete : Complete s.world := script_done migrations_lasting rfl legacy run member finished
    refine ⟨complete, ?_⟩
    intro c f asked
    obtain ⟨d, inside, left⟩ := List.mem_flatMap.mp (schema_serves c f asked)
    exact complete d inside f left
  · intro ev logged
    obtain ⟨newer, older, split⟩ := List.append_of_mem logged
    obtain ⟨moment⟩ := moment_of_logged rfl run split
    have sent := contract migrations_lasting rfl moment.reached (List.mem_of_getElem? moment.waiting)
    rw [moment.asked, meets_call] at sent
    obtain ⟨before, rest, order, -⟩ := sent.1
    have inside : ev.cmd ∈ schema := by
      rw [order]
      simp
    have ran := run_ran ev.cmd ev.before
    obtain ⟨-, left⟩ := Prod.mk.inj (Option.some.inj moment.performed)
    rcases faulty_state (o := ev.oracle) ev.before (ev.cmd.run ev.before) with took | lost
    · have effect : ev.after = (ev.cmd.run ev.before).2 := left.symm.trans took
      rw [effect]
      exact ⟨ran_grown (schema_keyed _ inside) ran, fun complete => ran_complete inside complete ran⟩
    · have idle : ev.after = ev.before := left.symm.trans lost
      rw [idle]
      exact ⟨grownAll_refl _, fun _ => rfl⟩

/- A table of candidates that an earlier version has made, with a candidate in it. -/
def oldCatalog : Catalog := fun name =>
  if name = "candidates" then
    some ⟨[⟨"id", none⟩, ⟨"name", none⟩, ⟨"description", none⟩, ⟨"image_path", none⟩,
      ⟨"created_at", some "CURRENT_TIMESTAMP"⟩], [], [[("id", some "1"), ("name", some "Layla")]]⟩
  else none

theorem old_legacy : Legacy oldCatalog := by
  intro name columns references inside t there
  unfold oldCatalog at there
  split at there
  · cases there
    subst name
    have first : Statement.createTable "candidates"
        [⟨"id", none⟩, ⟨"name", none⟩, ⟨"description", none⟩, ⟨"image_path", none⟩,
          ⟨"created_at", some "CURRENT_TIMESTAMP"⟩, ⟨"updated_at", none⟩] [] ∈ schema := by decide +kernel
    rw [columns_once inside first]
    decide +kernel
  · cases there

def failing : Oracle := { fault := some ⟨false, "invalid connection".toList⟩ }

/- Two instances run side by side, and the answer that one of them waits for is lost. -/
def migratingMoves : List (Label Oracle Traffic Unit) :=
  [.start (), .start (), .run 0 {}, .run 1 {}, .run 0 {}, .run 0 {}, .run 1 failing] ++
    List.replicate 10 (.run 0 {})

def migrated : Instances := after migrations (fun _ _ => true) (database oldCatalog) migratingMoves

def answers (s : Instances) : List (Option (Option GoErr)) := s.jobs.map fun job =>
  match job.rest with
  | .done answer => some answer
  | .call _ _ => none

theorem answered_job {s : Instances} {i : Nat} {answer : Option GoErr}
    (answered : (answers s)[i]? = some (some answer)) :
    ∃ job, s.jobs[i]? = some job ∧ job.rest = .done answer := by
  unfold answers at answered
  rw [List.getElem?_map, Option.map_eq_some_iff] at answered
  obtain ⟨job, at_i, shown⟩ := answered
  refine ⟨job, at_i, ?_⟩
  split at shown
  · rename_i rest
    rw [rest, Option.some.inj shown]
  · cases shown

theorem database_migrated_beside : Complete migrated.world ∧
    (∃ ev ∈ migrated.log, ev.caller = 1 ∧ ev.oracle.fault ≠ none) ∧
    ∀ ev ∈ migrated.log, GrownAll ev.before ev.after := by
  have run : Reaches migrations (fun _ _ => true) (database oldCatalog) migrated :=
    reaches_after (by decide +kernel)
  obtain ⟨stopped, finished, grown⟩ := database_migrated old_legacy run
  have first : (answers migrated)[0]? = some (some none) := by decide +kernel
  have second : (answers migrated)[1]? = some (some (some (newError "invalid connection"))) := by
    decide +kernel
  obtain ⟨job, at_first, ended⟩ := answered_job first
  obtain ⟨job', at_second, panicked⟩ := answered_job second
  exact ⟨(finished job (List.mem_of_getElem? at_first) ended).1, stopped 1 job' _ at_second panicked,
    fun ev logged => (grown ev logged).1⟩

end Migrations

import Mathlib.Data.List.Lex
import Mathlib.Data.String.Basic
import Mathlib.Data.Sum.Order
import Mathlib.Order.Fin.Basic
import Mathlib.Order.WithBot
import UniDERP.Library.Table

namespace UniDERP

namespace Sql

inductive Value
  | null
  | integer (n : Int)
  | text (s : String)
  | blob (bytes : List (Fin 256))
  deriving DecidableEq, Repr

def Value.code : Value → WithBot (Int ⊕ₗ String ⊕ₗ List (Fin 256))
  | .null => ⊥
  | .integer n => ↑(toLex (Sum.inl n) : Int ⊕ₗ String ⊕ₗ List (Fin 256))
  | .text s => ↑(toLex (Sum.inr (toLex (Sum.inl s))) : Int ⊕ₗ String ⊕ₗ List (Fin 256))
  | .blob b => ↑(toLex (Sum.inr (toLex (Sum.inr b))) : Int ⊕ₗ String ⊕ₗ List (Fin 256))

theorem Value.code_injective : Function.Injective Value.code := by
  intro a b h
  cases a <;> cases b <;> simp_all [Value.code]

instance Value.instLinearOrder : LinearOrder Value :=
  LinearOrder.lift' Value.code Value.code_injective

/-- `COLLATE NOCASE` folds the letters of ASCII. -/
def Value.fold (nocase : Bool) : Value → Value
  | .text s => if nocase then .text (s.map Char.toLower) else .text s
  | x => x

/-- `max(...)` over the rows of a group: NULL if there is none. -/
def maximum (xs : List Value) : Value := xs.foldl max .null

abbrev Row := String → Value

structure Parent where
  table : String
  column : String
  cascade : Bool
  deriving DecidableEq, Repr

structure Column where
  name : String
  notNull : Bool := false
  default : Value := .null
  check : Value → Bool := fun _ => true
  parent : Option Parent := none

def Column.admits (c : Column) (x : Value) : Bool := if x = .null then !c.notNull else c.check x

abbrev Key := List (String × Bool)

def Key.agree (key : Key) (a b : Row) : Bool :=
  key.all fun x => a x.1 ≠ .null && (a x.1).fold x.2 = (b x.1).fold x.2

structure Relation where
  columns : List Column
  keys : List Key := []
  rows : List Row := []

namespace Relation

def names (rel : Relation) : List String := rel.columns.map (·.name)

/-- The rows meet the constraints of the columns, and no two have the same key. -/
def sound (rel : Relation) : Bool :=
  rel.rows.all (fun r => rel.columns.all fun c => c.admits (r c.name)) &&
    rel.keys.all fun key => decide (rel.rows.Pairwise fun a b => key.agree a b = false)

def add (c : Column) (rel : Relation) : Relation :=
  { rel with
    columns := rel.columns ++ [c]
    rows := rel.rows.map fun r => Function.update r c.name c.default }

def set (name : String) (value : Row → Value) (rel : Relation) : Relation :=
  { rel with rows := rel.rows.map fun r => Function.update r name (value r) }

def grow (new : List Column) (f : Row → Row) (rel : Relation) : Relation :=
  { rel with columns := rel.columns ++ new, rows := rel.rows.map f }

def retarget (old new : String) (rel : Relation) : Relation :=
  { rel with columns := rel.columns.map fun c => { c with
      parent := c.parent.map fun p => if p.table = old then { p with table := new } else p } }

end Relation

structure Database where
  tables : Table String Relation
  userVersion : Int := 0
  foreignKeys : Bool := true

namespace Database

def put (table : String) (rel : Relation) (db : Database) : Database :=
  { db with tables := db.tables.insert table rel }

def alter (table : String) (f : Relation → Relation) (db : Database) : Database :=
  { db with tables := db.tables.modify table f }

def any (db : Database) (table : String) (p : Row → Bool) : Bool :=
  (db.tables.get? table).any fun rel => rel.rows.any p

/-- `PRAGMA foreign_key_check` finds nothing. -/
def consistent (db : Database) : Bool :=
  db.tables.rows.all fun x => x.2.columns.all fun c => x.2.rows.all fun r =>
    r c.name = .null || c.parent.all fun p => db.any p.table fun q => q p.column = r c.name

/-- The rows that deleting a whole table takes away, through so many cascades. -/
def doomed (db : Database) (table : String) : ℕ → String → Row → Bool
  | 0, t, _ => t = table
  | n + 1, t, r => t = table || (db.tables.get? t).any fun rel => rel.columns.any fun c =>
      r c.name ≠ .null && c.parent.any fun p => p.cascade && db.any p.table fun q =>
        q p.column = r c.name && db.doomed table n p.table q

/-- `DELETE FROM table` with foreign keys enforced. -/
def deleteAll (db : Database) (table : String) : Option Database :=
  let db' : Database := { db with
    tables := db.tables.filterMap fun t rel => some { rel with
      rows := rel.rows.filter fun r => !db.doomed table db.tables.rows.length t r } }
  if db'.consistent then some db' else none

end Database

inductive Statement
  | addColumn (table : String) (column : Column)
  | createTable (table : String) (relation : Relation)
  | update (table column : String) (where_ : Database → Row → Bool)
      (value : Database → Row → Value)
  | insertSelect (table source : String) (select : Database → Row → Row)
  | dropTable (table : String)
  | renameTable (table name : String)
  | setVersion (version : Int)

/-- One statement; `none` if it fails. -/
def exec (db : Database) : Statement → Option Database
  | .addColumn table c => do
    let rel ← db.tables.get? table
    guard (c.name ∉ rel.names ∧ (c.notNull → c.default ≠ .null) ∧
      (db.foreignKeys → c.parent.isSome → c.default = .null) ∧
      (rel.rows ≠ [] → c.admits c.default))
    some (db.alter table (·.add c))
  | .createTable table rel => do
    guard ((db.tables.get? table).isNone)
    some (db.put table { rel with rows := [] })
  | .update table column where_ value => do
    let rel ← db.tables.get? table
    guard (column ∈ rel.names)
    let next := db.alter table (·.set column fun r => if where_ db r then value db r else r column)
    guard ((rel.set column fun r => if where_ db r then value db r else r column).sound ∧
      (db.foreignKeys → next.consistent))
    some next
  | .insertSelect table source select => do
    let rel ← db.tables.get? table
    let from_ ← db.tables.get? source
    let filled : Relation := { rel with rows := rel.rows ++ from_.rows.map (select db) }
    guard (filled.sound ∧ (db.foreignKeys → (db.put table filled).consistent))
    some (db.put table filled)
  | .dropTable table => do
    guard ((db.tables.get? table).isSome)
    let db ← if db.foreignKeys then db.deleteAll table else some db
    some { db with tables := db.tables.erase table }
  | .renameTable table name => do
    let rel ← db.tables.get? table
    guard ((db.tables.get? name).isNone)
    some { db with
      tables := ((db.tables.erase table).insert name rel).update (fun _ _ => true)
        (Relation.retarget table name) }
  | .setVersion version => some { db with userVersion := version }

def run : List Statement → Database → Option Database
  | [], db => some db
  | s :: ss, db => (exec db s).bind (run ss)

def fill (new : List Column) (r : Row) : Row :=
  new.foldl (fun r c => Function.update r c.name c.default) r

theorem fill_of_not_mem {new : List Column} {n : String} (h : n ∉ new.map (·.name)) (r : Row) :
    fill new r n = r n := by
  induction new generalizing r with
  | nil => rfl
  | cons c new ih =>
    rw [List.map_cons, List.mem_cons, not_or] at h
    exact (ih h.2 _).trans (Function.update_of_ne h.1 _ _)

theorem fill_of_mem {new : List Column} (hnodup : (new.map (·.name)).Nodup) {c : Column}
    (h : c ∈ new) (r : Row) : fill new r c.name = c.default := by
  induction new generalizing r with
  | nil => cases h
  | cons first new ih =>
    rw [List.map_cons, List.nodup_cons] at hnodup
    rcases List.mem_cons.mp h with rfl | h
    · exact (fill_of_not_mem hnodup.1 _).trans (Function.update_self _ _ _)
    · exact ih hnodup.2 h _

theorem fill_comp_fill (new new' : List Column) : fill new' ∘ fill new = fill (new ++ new') := by
  funext r
  simp [fill]

namespace Relation

variable {rel : Relation} {new : List Column} {f : Row → Row}

theorem set_eq_grow (name : String) (value : Row → Value) :
    rel.set name value = rel.grow [] fun r => Function.update r name (value r) := by
  simp [set, grow]

theorem grow_grow (new' : List Column) (f' : Row → Row) :
    (rel.grow new f).grow new' f' = rel.grow (new ++ new') (f' ∘ f) := by
  simp [grow]

theorem sound_iff : rel.sound = true ↔ (∀ r ∈ rel.rows, ∀ c ∈ rel.columns, c.admits (r c.name)) ∧
    ∀ key ∈ rel.keys, rel.rows.Pairwise fun a b => key.agree a b = false := by
  simp [sound]

theorem agree_congr {key : Key} {a b a' b' : Row} (ha : ∀ x ∈ key, a' x.1 = a x.1)
    (hb : ∀ x ∈ key, b' x.1 = b x.1) : key.agree a' b' = key.agree a b := by
  rw [Bool.eq_iff_iff]
  simp only [Key.agree, List.all_eq_true]
  refine forall₂_congr fun x hx => ?_
  rw [ha x hx, hb x hx]

theorem sound_grow (h : rel.sound = true) (hkept : ∀ r ∈ rel.rows, ∀ n ∈ rel.names, f r n = r n)
    (hkeys : ∀ key ∈ rel.keys, ∀ x ∈ key, x.1 ∈ rel.names)
    (hnew : ∀ r ∈ rel.rows, ∀ c ∈ new, c.admits (f r c.name)) : (rel.grow new f).sound = true := by
  obtain ⟨hrows, huniq⟩ := sound_iff.mp h
  refine sound_iff.mpr ⟨fun r' hr' c hc => ?_, fun key hkey => ?_⟩
  · obtain ⟨r, hr, rfl⟩ := List.mem_map.mp hr'
    rcases List.mem_append.mp hc with hc | hc
    · rw [hkept r hr c.name (List.mem_map_of_mem hc)]
      exact hrows r hr c hc
    · exact hnew r hr c hc
  · have hpair : (rel.rows.map f).Pairwise fun a b => key.agree a b = false := by
      rw [List.pairwise_map]
      refine (huniq key hkey).imp_of_mem fun {a b} ha hb hab => ?_
      rw [agree_congr (fun x hx => hkept a ha _ (hkeys key hkey x hx))
        fun x hx => hkept b hb _ (hkeys key hkey x hx)]
      exact hab
    exact hpair

end Relation

section Exec

variable {db db' : Database} {table : String}

theorem get?_alter (f : Relation → Relation) (t : String) : (db.alter table f).tables.get? t =
    if t = table then (db.tables.get? t).map f else db.tables.get? t :=
  Table.get?_modify _ _ _ _

theorem alter_alter (f g : Relation → Relation) :
    (db.alter table f).alter table g = db.alter table (g ∘ f) := by
  rw [Database.alter, Database.alter, Database.alter, Database.mk.injEq]
  refine ⟨?_, rfl, rfl⟩
  ext t rel
  rw [Table.get?_modify, Table.get?_modify, Table.get?_modify]
  split_ifs
  · rw [Option.map_map]
  · rfl

theorem alter_grow_grow (new new' : List Column) (f f' : Row → Row) :
    (db.alter table (·.grow new f)).alter table (·.grow new' f') =
      db.alter table (·.grow (new ++ new') (f' ∘ f)) := by
  rw [alter_alter]
  congr 1
  funext rel
  exact Relation.grow_grow new' f'

theorem exec_addColumn {c : Column} : exec db (.addColumn table c) = some db' ↔
    (∃ rel, db.tables.get? table = some rel ∧ c.name ∉ rel.names ∧
      (c.notNull → c.default ≠ .null) ∧ (db.foreignKeys → c.parent.isSome → c.default = .null) ∧
      (rel.rows ≠ [] → c.admits c.default)) ∧ db.alter table (·.add c) = db' := by
  simp only [exec, Option.bind_eq_bind, Option.bind_eq_some_iff, Option.guard_eq_some',
    exists_const, Option.some.injEq]
  constructor
  · rintro ⟨rel, hrel, hc, hdb⟩
    exact ⟨⟨rel, hrel, hc⟩, hdb⟩
  · rintro ⟨⟨rel, hrel, hc⟩, hdb⟩
    exact ⟨rel, hrel, hc, hdb⟩

theorem exec_createTable {rel : Relation} : exec db (.createTable table rel) = some db' ↔
    db.tables.get? table = none ∧ db.put table { rel with rows := [] } = db' := by
  simp only [exec, Option.bind_eq_bind, Option.bind_eq_some_iff, Option.guard_eq_some',
    exists_const, Option.some.injEq, Option.isNone_iff_eq_none]

theorem exec_update {column : String} {where_ : Database → Row → Bool}
    {value : Database → Row → Value} (hoff : db.foreignKeys = false) :
    exec db (.update table column where_ value) = some db' ↔
      (∃ rel, db.tables.get? table = some rel ∧ column ∈ rel.names ∧
        (rel.set column fun r => if where_ db r then value db r else r column).sound = true) ∧
      db.alter table (·.set column fun r => if where_ db r then value db r else r column) = db' := by
  simp only [exec, Option.bind_eq_bind, Option.bind_eq_some_iff, Option.guard_eq_some',
    exists_const, Option.some.injEq, hoff, Bool.false_eq_true, false_implies, and_true]
  constructor
  · rintro ⟨rel, hrel, hcolumn, hsound, hdb⟩
    exact ⟨⟨rel, hrel, hcolumn, hsound⟩, hdb⟩
  · rintro ⟨⟨rel, hrel, hcolumn, hsound⟩, hdb⟩
    exact ⟨rel, hrel, hcolumn, hsound, hdb⟩

theorem exec_insertSelect {source : String} {select : Database → Row → Row}
    (hoff : db.foreignKeys = false) : exec db (.insertSelect table source select) = some db' ↔
      ∃ rel from_, db.tables.get? table = some rel ∧ db.tables.get? source = some from_ ∧
        ({ rel with rows := rel.rows ++ from_.rows.map (select db) } : Relation).sound = true ∧
        db.put table { rel with rows := rel.rows ++ from_.rows.map (select db) } = db' := by
  simp only [exec, Option.bind_eq_bind, Option.bind_eq_some_iff, Option.guard_eq_some',
    exists_const, Option.some.injEq, hoff, Bool.false_eq_true, false_implies, and_true]
  constructor
  · rintro ⟨rel, hrel, from_, hfrom, hsound, hdb⟩
    exact ⟨rel, from_, hrel, hfrom, hsound, hdb⟩
  · rintro ⟨rel, from_, hrel, hfrom, hsound, hdb⟩
    exact ⟨rel, hrel, from_, hfrom, hsound, hdb⟩

theorem exec_dropTable (hoff : db.foreignKeys = false) : exec db (.dropTable table) = some db' ↔
    (db.tables.get? table).isSome = true ∧ { db with tables := db.tables.erase table } = db' := by
  simp only [exec, Option.bind_eq_bind, Option.bind_eq_some_iff, Option.guard_eq_some',
    exists_const, Option.some.injEq, hoff, Bool.false_eq_true, if_false, exists_eq_left']

theorem exec_renameTable {name : String} : exec db (.renameTable table name) = some db' ↔
    ∃ rel, db.tables.get? table = some rel ∧ db.tables.get? name = none ∧
      { db with
        tables := ((db.tables.erase table).insert name rel).update (fun _ _ => true)
          (Relation.retarget table name) } = db' := by
  simp only [exec, Option.bind_eq_bind, Option.bind_eq_some_iff, Option.guard_eq_some',
    exists_const, Option.some.injEq, Option.isNone_iff_eq_none]

theorem run_cons {s : Statement} {ss : List Statement} : run (s :: ss) db = some db' ↔
    ∃ mid, exec db s = some mid ∧ run ss mid = some db' :=
  Option.bind_eq_some_iff

theorem run_nil : run [] db = some db' ↔ db = db' := by
  simp [run]

theorem Relation.retarget_eq_self {rel : Relation} {old new : String}
    (h : ∀ c ∈ rel.columns, ∀ p, c.parent = some p → p.table ≠ old) :
    rel.retarget old new = rel := by
  have hcolumn : ∀ c ∈ rel.columns, ({ c with
      parent := c.parent.map fun p => if p.table = old then { p with table := new } else p } :
        Column) = c := by
    intro c hc
    cases hp : c.parent with
    | none => rw [Option.map_none, ← hp]
    | some p => rw [Option.map_some, if_neg (h c hc p hp), ← hp]
  rw [retarget, List.map_congr_left hcolumn, List.map_id']

end Exec

def Relation.Like (a b : Relation) : Prop := a.columns.Perm b.columns ∧ a.keys.Perm b.keys

theorem Relation.Like.mem_names {a b : Relation} (h : a.Like b) {n : String} :
    n ∈ b.names ↔ n ∈ a.names :=
  (h.1.map _).mem_iff.symm

namespace Database

/-- Every foreign key refers to the column `key` of one of some tables. -/
def refersTo (targets : List String) (key : String) (db : Database) : Bool :=
  db.tables.rows.all fun x => x.2.columns.all fun c => c.parent.all fun p =>
    p.table ∈ targets ∧ p.column = key

def Like (a b : Database) : Prop :=
  ∀ t, Option.Rel Relation.Like (a.tables.get? t) (b.tables.get? t)

/-- The tables of a schema, given as a database, with rows that meet its constraints. -/
structure Content (schema db : Database) : Prop where
  like : schema.Like db
  sound : ∀ t rel, db.tables.get? t = some rel → rel.sound = true
  consistent : db.consistent = true

variable {schema db : Database} {targets : List String} {t key : String}
  {declared rel : Relation} {new : List Column}
  {f : Row → Row}

theorem any_iff {p : Row → Bool} : db.any t p = true ↔
    ∃ rel, db.tables.get? t = some rel ∧ ∃ r ∈ rel.rows, p r = true := by
  simp [any, Option.any_eq_true]

theorem consistent_iff : db.consistent = true ↔ ∀ t rel, db.tables.get? t = some rel →
    ∀ c ∈ rel.columns, ∀ p, c.parent = some p → ∀ r ∈ rel.rows, r c.name ≠ .null →
      db.any p.table (fun q => q p.column = r c.name) = true := by
  simp only [consistent, List.all_eq_true, Bool.or_eq_true, decide_eq_true_eq, Option.all_eq_true]
  constructor
  · intro h t rel hrel c hc p hp r hr hnull
    rcases h (t, rel) (Table.get?_eq_some_iff.mp hrel) c hc r hr with he | he
    · exact absurd he hnull
    · exact he p hp
  · intro h x hx c hc r hr
    refine or_iff_not_imp_left.mpr fun hnull p hp => ?_
    exact h x.1 x.2 (Table.get?_eq_some_iff.mpr hx) c hc p hp r hr hnull

theorem refersTo_iff : db.refersTo targets key = true ↔ ∀ t rel, db.tables.get? t = some rel →
    ∀ c ∈ rel.columns, ∀ p, c.parent = some p → p.table ∈ targets ∧ p.column = key := by
  simp only [refersTo, List.all_eq_true, decide_eq_true_eq, Option.all_eq_true]
  constructor
  · intro h t rel hrel
    exact h (t, rel) (Table.get?_eq_some_iff.mp hrel)
  · intro h x hx
    exact h x.1 x.2 (Table.get?_eq_some_iff.mpr hx)

theorem get?_put (t' : String) :
    (db.put t rel).tables.get? t' = if t' = t then some rel else db.tables.get? t' :=
  Table.get?_insert _ _ _ _

theorem refersTo_put (h : db.refersTo targets key = true)
    (hrel : ∀ c ∈ rel.columns, c.parent.all (fun p => p.table ∈ targets ∧ p.column = key) = true) :
    (db.put t rel).refersTo targets key = true := by
  refine refersTo_iff.mpr fun t' rel' hrel' => ?_
  rw [get?_put] at hrel'
  split_ifs at hrel'
  · rw [← Option.some.inj hrel']
    intro c hc p hp
    simpa [hp] using hrel c hc
  · exact refersTo_iff.mp h t' rel' hrel'

theorem refersTo_grow (h : db.refersTo targets key = true)
    (hnew : ∀ c ∈ new, c.parent.all (fun p => p.table ∈ targets ∧ p.column = key) = true) :
    (db.alter t (·.grow new f)).refersTo targets key = true := by
  refine refersTo_iff.mpr fun t' rel' hrel' c hc => ?_
  rw [get?_alter] at hrel'
  split_ifs at hrel'
  · obtain ⟨rel, hrel, rfl⟩ := Option.map_eq_some_iff.mp hrel'
    rcases List.mem_append.mp hc with hc | hc
    · exact refersTo_iff.mp h t' rel hrel c hc
    · intro p hp
      simpa [hp] using hnew c hc
  · exact refersTo_iff.mp h t' rel' hrel' c hc

theorem any_alter {g : Relation → Relation} (hrel : db.tables.get? t = some rel)
    (hrows : (g rel).rows = rel.rows.map f) (hkey : ∀ r ∈ rel.rows, f r key = r key) (t' : String)
    (x : Value) : (db.alter t g).any t' (fun q => q key = x) = db.any t' fun q => q key = x := by
  rw [any, any, get?_alter]
  by_cases ht : t' = t
  · rw [if_pos ht, ht, hrel, Option.map_some, Option.any_some, Option.any_some, hrows, List.any_map,
      Bool.eq_iff_iff, List.any_eq_true, List.any_eq_true]
    refine exists_congr fun r => and_congr_right fun hr => ?_
    rw [Function.comp_apply, hkey r hr]
  · rw [if_neg ht]

theorem consistent_alter {g : Relation → Relation} (h : db.consistent = true)
    (hrefers : db.refersTo targets key = true) (hrel : db.tables.get? t = some rel)
    (hrows : (g rel).rows = rel.rows.map f) (hkey : ∀ r ∈ rel.rows, f r key = r key)
    (hcolumns : ∀ c ∈ (g rel).columns, ∀ p, c.parent = some p → p.column = key ∧
      ∀ r ∈ rel.rows, f r c.name ≠ .null → db.any p.table (fun q => q key = f r c.name) = true) :
    (db.alter t g).consistent = true := by
  refine consistent_iff.mpr fun t' rel' hrel' c hc p hp r hr hnull => ?_
  rw [get?_alter] at hrel'
  by_cases ht : t' = t
  · rw [if_pos ht, ht, hrel, Option.map_some, Option.some.injEq] at hrel'
    subst hrel'
    obtain ⟨hcolumn, hany⟩ := hcolumns c hc p hp
    rw [hrows] at hr
    obtain ⟨old, hold, rfl⟩ := List.mem_map.mp hr
    rw [hcolumn, any_alter hrel hrows hkey]
    exact hany old hold hnull
  · rw [if_neg ht] at hrel'
    have hfound := consistent_iff.mp h t' rel' hrel' c hc p hp r hr hnull
    have hcolumn := (refersTo_iff.mp hrefers t' rel' hrel' c hc p hp).2
    rw [hcolumn] at hfound ⊢
    rw [any_alter hrel hrows hkey]
    exact hfound

theorem consistent_put (h : db.consistent = true) (hnone : db.tables.get? t = none)
    (hrows : rel.rows = []) : (db.put t rel).consistent = true := by
  refine consistent_iff.mpr fun t' rel' hrel' c hc p hp r hr hnull => ?_
  rw [get?_put] at hrel'
  split_ifs at hrel' with ht
  · rw [← Option.some.inj hrel', hrows] at hr
    cases hr
  · obtain ⟨target, htarget, found⟩ :=
      any_iff.mp (consistent_iff.mp h t' rel' hrel' c hc p hp r hr hnull)
    refine any_iff.mpr ⟨target, ?_, found⟩
    rw [get?_put, if_neg]
    · exact htarget
    · intro he
      rw [he, hnone] at htarget
      cases htarget

namespace Content

theorem get?_eq_some (h : Content schema db) (hdeclared : schema.tables.get? t = some declared) :
    ∃ rel, db.tables.get? t = some rel ∧ declared.Like rel := by
  have hlike := h.like t
  rw [hdeclared] at hlike
  cases hrel : db.tables.get? t with
  | none => rw [hrel] at hlike; cases hlike
  | some rel =>
    rw [hrel] at hlike
    cases hlike with
    | some hlike => exact ⟨rel, rfl, hlike⟩

theorem declared_of_get? (h : Content schema db) (hrel : db.tables.get? t = some rel) :
    ∃ declared, schema.tables.get? t = some declared ∧ declared.Like rel := by
  have hlike := h.like t
  rw [hrel] at hlike
  cases hdeclared : schema.tables.get? t with
  | none => rw [hdeclared] at hlike; cases hlike
  | some declared =>
    rw [hdeclared] at hlike
    cases hlike with
    | some hlike => exact ⟨declared, rfl, hlike⟩

theorem get?_eq_none (h : Content schema db) (hnone : schema.tables.get? t = none) :
    db.tables.get? t = none := by
  cases hrel : db.tables.get? t with
  | none => rfl
  | some rel =>
    obtain ⟨declared, hdeclared, -⟩ := h.declared_of_get? hrel
    rw [hnone] at hdeclared
    cases hdeclared

theorem refersTo (h : Content schema db) (hschema : schema.refersTo targets key = true) :
    db.refersTo targets key = true := by
  refine refersTo_iff.mpr fun t rel hrel c hc => ?_
  obtain ⟨declared, hdeclared, hlike⟩ := h.declared_of_get? hrel
  exact refersTo_iff.mp hschema t declared hdeclared c (hlike.1.mem_iff.mpr hc)

/-- A table may get new columns if the rows keep what they had and the new values are allowed. -/
theorem grow (new : List Column) (f : Row → Row) (h : Content schema db)
    (hrefers : schema.refersTo targets key = true) (hrel : db.tables.get? t = some rel)
    (hlike : declared.Like rel) (hfresh : key ∉ new.map (·.name))
    (hnew : ∀ c ∈ new, c.name ∉ declared.names)
    (hkeys : ∀ k ∈ declared.keys, ∀ x ∈ k, x.1 ∈ declared.names)
    (hkept : ∀ r n, n ∉ new.map (·.name) → f r n = r n)
    (hadmits : ∀ r ∈ rel.rows, ∀ c ∈ new, c.admits (f r c.name) = true)
    (hparent : ∀ c ∈ new, ∀ p, c.parent = some p → p.column = key ∧
      ∀ r ∈ rel.rows, f r c.name ≠ .null → db.any p.table (fun q => q key = f r c.name) = true) :
    Content (schema.alter t (·.grow new id)) (db.alter t (·.grow new f)) := by
  have hold : ∀ r n, n ∈ rel.names → f r n = r n := by
    intro r n hn
    refine hkept r n fun hmem => ?_
    obtain ⟨c, hc, rfl⟩ := List.mem_map.mp hmem
    exact hnew c hc (hlike.mem_names.mp hn)
  have hkeys' : ∀ k ∈ rel.keys, ∀ x ∈ k, x.1 ∈ rel.names := fun k hk x hx =>
    hlike.mem_names.mpr (hkeys k (hlike.2.mem_iff.mpr hk) x hx)
  refine ⟨fun t' => ?_, fun t' rel' hrel' => ?_, ?_⟩
  · rw [get?_alter, get?_alter]
    split_ifs
    · have hlike := h.like t'
      generalize schema.tables.get? t' = a at hlike ⊢
      generalize db.tables.get? t' = b at hlike ⊢
      cases hlike with
      | none => exact .none
      | some hlike => exact .some ⟨hlike.1.append_right new, hlike.2⟩
    · exact h.like t'
  · rw [get?_alter] at hrel'
    split_ifs at hrel' with ht
    · rw [ht, hrel, Option.map_some, Option.some.injEq] at hrel'
      rw [← hrel']
      exact Relation.sound_grow (h.sound t rel hrel) (fun r _ n hn => hold r n hn) hkeys' hadmits
    · exact h.sound t' rel' hrel'
  · refine consistent_alter h.consistent (h.refersTo hrefers) hrel rfl
      (fun r _ => hkept r key hfresh) fun c hc p hp => ?_
    rcases List.mem_append.mp hc with hc | hc
    · have hcolumn := (refersTo_iff.mp (h.refersTo hrefers) t rel hrel c hc p hp).2
      refine ⟨hcolumn, fun r hr hnull => ?_⟩
      rw [hold r c.name (List.mem_map_of_mem hc)] at hnull ⊢
      rw [← hcolumn]
      exact consistent_iff.mp h.consistent t rel hrel c hc p hp r hr hnull
    · exact hparent c hc p hp

theorem put (h : Content schema db) (hnone : schema.tables.get? t = none)
    (hrows : declared.rows = []) : Content (schema.put t declared) (db.put t declared) := by
  refine ⟨fun t' => ?_, fun t' rel' hrel' => ?_, ?_⟩
  · rw [get?_put, get?_put]
    split_ifs
    · exact .some ⟨.refl _, .refl _⟩
    · exact h.like t'
  · rw [get?_put] at hrel'
    split_ifs at hrel'
    · rw [← Option.some.inj hrel', Relation.sound_iff, hrows]
      exact ⟨fun r hr => (List.not_mem_nil hr).elim, fun k hk => .nil⟩
    · exact h.sound t' rel' hrel'
  · exact consistent_put h.consistent (h.get?_eq_none hnone) hrows

end Content

end Database

end Sql

end UniDERP

import Mathlib.Data.List.Pairwise
import Mathlib.Logic.Function.Basic
import ChronoSynth.Lib.JsonValue

/-!
# Tables with keys

A row gives each column a value, a database each table its rows. A `Schema` says what the tables are: their columns,
keys, references and checks. `Schema.upsert` is `INSERT … ON CONFLICT (key) DO UPDATE … WHERE …` for one row: it
fails without a trace where it would leave the database inconsistent.

* `Schema.upsert_ok` — what such a statement can do: nothing, append its row, or change rows with its key that its
  guard lets through.
* `Db.Touches` — a change that is confined to rows of a kind; such changes add up.
-/

namespace ChronoSynth.Sql

/-- A value of a column. -/
inductive SqlValue
  | null
  | number (x : JsFloat)
  | text (s : String)
  deriving DecidableEq

abbrev Row := String → SqlValue

abbrev Db := String → List Row

/-- What becomes of a row that refers to a deleted one. -/
inductive OnDelete
  | noAction | cascade | setNull
  deriving DecidableEq

structure ForeignKey where
  column : String
  /-- The table and column that are referred to. -/
  table : String
  refColumn : String
  onDelete : OnDelete
  deriving DecidableEq

structure TableSchema where
  columns : List String
  pkColumns : List String
  uniqueIndexes : List (List String)
  foreignKeys : List ForeignKey
  /-- What a column holds that is given no value; a rowid is chosen by the rows that are there. -/
  default : List Row → Row
  /-- What a column makes of a value that is stored in it. -/
  affinity : List Row → String → SqlValue → SqlValue
  /-- The checks on a single row. -/
  admits : Row → Bool

structure Schema where
  tables : List String
  table : String → TableSchema

/-- Two rows that agree on a key; a key with a null agrees with none. -/
def SameKey (key : List String) (r r' : Row) : Prop := key ≠ [] ∧ ∀ c ∈ key, r c ≠ .null ∧ r c = r' c

instance (key : List String) (r r' : Row) : Decidable (SameKey key r r') := inferInstanceAs (Decidable (_ ∧ _))

def Resolves (db : Db) (fk : ForeignKey) (r : Row) : Prop :=
  r fk.column = .null ∨ ∃ p ∈ db fk.table, p fk.refColumn = r fk.column

instance (db : Db) (fk : ForeignKey) (r : Row) : Decidable (Resolves db fk r) := inferInstanceAs (Decidable (_ ∨ _))

theorem sameKey_comm {key : List String} {r r' : Row} : SameKey key r r' ↔ SameKey key r' r := by
  have himp : ∀ {r r' : Row}, SameKey key r r' → SameKey key r' r := fun h =>
    ⟨h.1, fun c hc => ⟨(h.2 c hc).2 ▸ (h.2 c hc).1, (h.2 c hc).2.symm⟩⟩
  exact ⟨himp, himp⟩

theorem SameKey.self {key : List String} {r r' : Row} (h : SameKey key r r') : SameKey key r r :=
  ⟨h.1, fun c hc => ⟨(h.2 c hc).1, rfl⟩⟩

theorem Resolves.mono {db db' : Db} {fk : ForeignKey} {r : Row} (h : Resolves db fk r)
    (hsub : ∀ p ∈ db fk.table, p ∈ db' fk.table) : Resolves db' fk r :=
  h.imp_right fun ⟨p, hp, heq⟩ => ⟨p, hsub p hp, heq⟩

namespace Db

def set (db : Db) (table : String) (rows : List Row) : Db := Function.update db table rows

@[simp] theorem set_self (db : Db) (table : String) (rows : List Row) : db.set table rows table = rows :=
  Function.update_self ..

theorem set_of_ne {table table' : String} (h : table' ≠ table) (db : Db) (rows : List Row) :
    db.set table rows table' = db table' :=
  Function.update_of_ne h ..

end Db

namespace Schema

variable (S : Schema)

structure TableConsistent (db : Db) (t : TableSchema) (rows : List Row) : Prop where
  admits : ∀ r ∈ rows, t.admits r = true
  keys : ∀ key ∈ t.pkColumns :: t.uniqueIndexes, rows.Pairwise fun r r' => ¬ SameKey key r r'
  references : ∀ fk ∈ t.foreignKeys, ∀ r ∈ rows, Resolves db fk r

instance (db : Db) (t : TableSchema) (rows : List Row) : Decidable (TableConsistent db t rows) :=
  decidable_of_iff ((∀ r ∈ rows, t.admits r = true) ∧
      (∀ key ∈ t.pkColumns :: t.uniqueIndexes, rows.Pairwise fun r r' => ¬ SameKey key r r') ∧
      ∀ fk ∈ t.foreignKeys, ∀ r ∈ rows, Resolves db fk r)
    ⟨fun ⟨h, h', h''⟩ => ⟨h, h', h''⟩, fun h => ⟨h.admits, h.keys, h.references⟩⟩

/-- The constraints hold. -/
def Consistent (db : Db) : Prop := ∀ t ∈ S.tables, TableConsistent db (S.table t) (db t)

instance (db : Db) : Decidable (S.Consistent db) := inferInstanceAs (Decidable (∀ t ∈ S.tables, _))

theorem Consistent.eq_of_sameKey {S : Schema} {db : Db} (hc : S.Consistent db) {t : String} (ht : t ∈ S.tables) {key : List String}
    (hkey : key ∈ (S.table t).pkColumns :: (S.table t).uniqueIndexes) {r r' : Row} (hr : r ∈ db t) (hr' : r' ∈ db t)
    (hsame : SameKey key r r') : r = r' := by
  by_contra hne
  have hsymm : Std.Symm fun r r' : Row => ¬ SameKey key r r' := ⟨fun _ _ h h' => h (sameKey_comm.1 h')⟩
  exact ((hc t ht).keys key hkey).forall hr hr' hne hsame

/-- A statement's outcome, unless it breaks a constraint. -/
def accept (db : Db) : Except Unit (Db × ℕ) := if S.Consistent db then .ok (db, 1) else .error ()

end Schema

/-- `INSERT INTO table (cols) VALUES (values) ON CONFLICT (key) DO UPDATE SET … WHERE guard`; the guard is given the
row that was to be inserted and the one that is there. -/
structure Upsert where
  table : String
  cols : List String
  values : Row
  guard : Row → Row → Bool

namespace Upsert

variable (stmt : Upsert) (t : TableSchema)

/-- The row that is to be inserted among these. -/
def row (rows : List Row) : Row := fun c => if c ∈ stmt.cols then t.affinity rows c (stmt.values c) else t.default rows c

/-- The columns that are set where the row is there already. -/
def updates : List String := stmt.cols.filter (· ∉ t.pkColumns)

/-- The row that is there already, after the update. -/
def merge (new old : Row) : Row := fun c => if c ∈ stmt.updates t then new c else old c

def Applies (new old : Row) : Prop := SameKey t.pkColumns new old ∧ stmt.guard new old = true

instance (new old : Row) : Decidable (stmt.Applies t new old) := inferInstanceAs (Decidable (_ ∧ _))

def updated (new : Row) (rows : List Row) : List Row :=
  rows.map fun r => if stmt.Applies t new r then stmt.merge t new r else r

end Upsert

namespace Schema

variable (S : Schema)

/-- The statement on a database: what it leaves and how many rows it has changed. -/
def upsert (stmt : Upsert) (db : Db) : Except Unit (Db × ℕ) :=
  let t := S.table stmt.table
  let new := stmt.row t (db stmt.table)
  if t.admits new = true then
    match (db stmt.table).find? (SameKey t.pkColumns new) with
    | some old =>
      if stmt.updates t = [] ∨ stmt.guard new old = false then .ok (db, 0)
      else S.accept (db.set stmt.table (stmt.updated t new (db stmt.table)))
    | none => S.accept (db.set stmt.table (db stmt.table ++ [new]))
  else .error ()

/-- `INSERT INTO table (cols) VALUES (values)`. -/
def insert (stmt : Upsert) (db : Db) : Except Unit (Db × ℕ) :=
  let new := stmt.row (S.table stmt.table) (db stmt.table)
  if (S.table stmt.table).admits new = true then S.accept (db.set stmt.table (db stmt.table ++ [new])) else .error ()

variable {S} {stmt : Upsert} {db db' : Db} {n : ℕ}

theorem accept_ok : S.accept db = .ok (db', n) ↔ S.Consistent db ∧ db' = db ∧ n = 1 := by
  unfold accept
  split_ifs with h
  · constructor
    · intro heq
      obtain ⟨rfl, rfl⟩ := Prod.mk.inj (Except.ok.inj heq)
      exact ⟨h, rfl, rfl⟩
    · rintro ⟨-, rfl, rfl⟩
      rfl
  · exact iff_of_false nofun fun hc => h hc.1

/-- **What the statement can do**: nothing, append its row, or change the rows it applies to. -/
theorem upsert_ok (h : S.upsert stmt db = .ok (db', n)) :
    (n = 0 ∧ db' = db) ∨
    (n = 1 ∧ S.Consistent db' ∧ (∀ r ∈ db stmt.table, ¬ SameKey (S.table stmt.table).pkColumns
        (stmt.row (S.table stmt.table) (db stmt.table)) r) ∧
      db' = db.set stmt.table (db stmt.table ++ [stmt.row (S.table stmt.table) (db stmt.table)])) ∨
    (n = 1 ∧ S.Consistent db' ∧
      (∃ old ∈ db stmt.table, stmt.Applies (S.table stmt.table) (stmt.row (S.table stmt.table) (db stmt.table)) old) ∧
      db' = db.set stmt.table
        (stmt.updated (S.table stmt.table) (stmt.row (S.table stmt.table) (db stmt.table)) (db stmt.table))) := by
  unfold upsert at h
  simp only at h
  split_ifs at h with hadmits
  split at h
  next old hfind =>
    split_ifs at h with hskip
    · obtain ⟨rfl, rfl⟩ := Prod.mk.inj (Except.ok.inj h)
      exact .inl ⟨rfl, rfl⟩
    · obtain ⟨hcons, rfl, rfl⟩ := accept_ok.1 h
      have hkey := List.find?_some hfind
      rw [not_or, Bool.not_eq_false] at hskip
      exact .inr (.inr ⟨rfl, hcons, ⟨old, List.mem_of_find?_eq_some hfind, of_decide_eq_true hkey, hskip.2⟩, rfl⟩)
  next hfind =>
    obtain ⟨hcons, rfl, rfl⟩ := accept_ok.1 h
    exact .inr (.inl ⟨rfl, hcons, fun r hr => by simpa using List.find?_eq_none.1 hfind r hr, rfl⟩)

/-- Why the statement changes nothing. -/
theorem upsert_zero (h : S.upsert stmt db = .ok (db', 0)) : db' = db ∧ ∃ old ∈ db stmt.table,
    SameKey (S.table stmt.table).pkColumns (stmt.row (S.table stmt.table) (db stmt.table)) old ∧
      (stmt.updates (S.table stmt.table) = [] ∨
        stmt.guard (stmt.row (S.table stmt.table) (db stmt.table)) old = false) := by
  unfold upsert at h
  dsimp only at h
  split_ifs at h with hadmits
  split at h
  next old hfind =>
    split_ifs at h with hskip
    · obtain ⟨rfl, -⟩ := Prod.mk.inj (Except.ok.inj h)
      have hkey := List.find?_some hfind
      exact ⟨rfl, old, List.mem_of_find?_eq_some hfind, of_decide_eq_true hkey, hskip⟩
    · exact absurd (accept_ok.1 h).2.2 Nat.zero_ne_one
  next => exact absurd (accept_ok.1 h).2.2 Nat.zero_ne_one

theorem mem_of_upsert (h : S.upsert stmt db = .ok (db', n)) {t : String} {r : Row} (hr : r ∈ db' t) :
    r ∈ db t ∨ t = stmt.table ∧ (r = stmt.row (S.table stmt.table) (db stmt.table) ∨
      ∃ old ∈ db stmt.table, stmt.Applies (S.table stmt.table) (stmt.row (S.table stmt.table) (db stmt.table)) old ∧
        r = stmt.merge (S.table stmt.table) (stmt.row (S.table stmt.table) (db stmt.table)) old) := by
  by_cases ht : t = stmt.table
  · subst ht
    rcases upsert_ok h with ⟨-, rfl⟩ | ⟨-, -, -, rfl⟩ | ⟨-, -, -, rfl⟩
    · exact .inl hr
    · rw [Db.set_self, List.mem_append, List.mem_singleton] at hr
      exact hr.imp_right fun hnew => ⟨rfl, .inl hnew⟩
    · rw [Db.set_self] at hr
      obtain ⟨old, hold, rfl⟩ := List.mem_map.1 hr
      split_ifs with happlies
      · exact .inr ⟨rfl, .inr ⟨old, hold, happlies, rfl⟩⟩
      · exact .inl hold
  · rcases upsert_ok h with ⟨-, rfl⟩ | ⟨-, -, -, rfl⟩ | ⟨-, -, -, rfl⟩
    · exact .inl hr
    · exact .inl (by rwa [Db.set_of_ne ht] at hr)
    · exact .inl (by rwa [Db.set_of_ne ht] at hr)

theorem insert_ok (h : S.insert stmt db = .ok (db', n)) : S.Consistent db' ∧
    db' = db.set stmt.table (db stmt.table ++ [stmt.row (S.table stmt.table) (db stmt.table)]) := by
  unfold insert at h
  simp only at h
  split_ifs at h
  obtain ⟨hcons, rfl, -⟩ := accept_ok.1 h
  exact ⟨hcons, rfl⟩

end Schema

/-! ## Changes to rows of a kind -/

structure Touches (kind : String → Row → Prop) [∀ t, DecidablePred (kind t)] (db db' : Db) : Prop where
  others : ∀ t, (db' t).filter (¬ kind t ·) = (db t).filter (¬ kind t ·)

namespace Touches

variable {kind : String → Row → Prop} [∀ t, DecidablePred (kind t)] {db db' db'' : Db}

theorem refl (db : Db) : Touches kind db db := ⟨fun _ => rfl⟩

theorem trans (h : Touches kind db db') (h' : Touches kind db' db'') : Touches kind db db'' :=
  ⟨fun t => (h'.others t).trans (h.others t)⟩

theorem mem_iff (h : Touches kind db db') {t : String} {r : Row} (hr : ¬ kind t r) : r ∈ db' t ↔ r ∈ db t := by
  have hf : ∀ rows : List Row, r ∈ rows ↔ r ∈ rows.filter (¬ kind t ·) := fun rows => by simp [hr]
  rw [hf, h.others, ← hf]

end Touches

namespace Schema

variable {S : Schema} {stmt : Upsert} {db db' : Db} {n : ℕ} {kind : String → Row → Prop} [∀ t, DecidablePred (kind t)]

theorem touches_append {table : String} {r : Row} (h : kind table r) : Touches kind db (db.set table (db table ++ [r])) := by
  refine ⟨fun t => ?_⟩
  by_cases ht : t = table
  · subst ht
    simp [h]
  · rw [Db.set_of_ne ht]

/-- A statement whose row is of the kind, and that only applies to rows of the kind and leaves them so, touches no
others. -/
theorem upsert_touches (h : S.upsert stmt db = .ok (db', n))
    (hrow : kind stmt.table (stmt.row (S.table stmt.table) (db stmt.table)))
    (happlies : ∀ old, stmt.Applies (S.table stmt.table) (stmt.row (S.table stmt.table) (db stmt.table)) old →
      kind stmt.table old ∧
        kind stmt.table (stmt.merge (S.table stmt.table) (stmt.row (S.table stmt.table) (db stmt.table)) old)) :
    Touches kind db db' := by
  rcases upsert_ok h with ⟨-, rfl⟩ | ⟨-, -, -, rfl⟩ | ⟨-, -, -, rfl⟩
  · exact .refl _
  · exact touches_append hrow
  · refine ⟨fun t => ?_⟩
    by_cases ht : t = stmt.table
    · subst ht
      rw [Db.set_self, Upsert.updated, List.filter_map]
      generalize stmt.row (S.table stmt.table) (db stmt.table) = new at happlies ⊢
      -- the rows it applies to are of the kind before and after
      induction db stmt.table with
      | nil => rfl
      | cons r rows ih =>
        by_cases hr : stmt.Applies (S.table stmt.table) new r
        · simp_all [happlies r hr]
        · by_cases hk : kind stmt.table r
          · simp_all
          · simp_all
    · rw [Db.set_of_ne ht]

end Schema

end ChronoSynth.Sql

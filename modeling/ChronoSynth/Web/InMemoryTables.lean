import ChronoSynth.Lib.JsonValue
import Mathlib.Data.List.Nodup

/-!
# The tables of the web adapter

Translation of `adapter-web/in-memory-tables.ts`. A table is a map from the text of a row's primary key to the row,
in the order of insertion, and carries the proof that it is one. The names of the tables have no order: nothing that
reads them depends on it.

A snapshot is a plain object, so that assigning to its `__proto__` adds no table to it.
-/

namespace ChronoSynth.Web

/-! ## Rows -/

abbrev Row := List (String × Json)

def keyOf (primaryKey : String) (row : Row) : Option String :=
  match row.find? fun column => column.1 = primaryKey with
  | none | some (_, .null) => none
  | some (_, value) => some value.text

/-- `Map.set`. -/
def setRow (rows : List (String × Row)) (key : String) (row : Row) : List (String × Row) :=
  if key ∈ rows.map Prod.fst then rows.map fun x => if x.1 = key then (key, row) else x else rows ++ [(key, row)]

variable {rows : List (String × Row)} {key primaryKey : String} {row : Row} {x : String × Row}

theorem map_fst_setRow : (setRow rows key row).map Prod.fst =
    if key ∈ rows.map Prod.fst then rows.map Prod.fst else rows.map Prod.fst ++ [key] := by
  unfold setRow
  split_ifs
  · rw [List.map_map]
    refine List.map_congr_left fun x _ => ?_
    by_cases hx : x.1 = key <;> simp [hx]
  · simp

theorem nodup_setRow (h : (rows.map Prod.fst).Nodup) : ((setRow rows key row).map Prod.fst).Nodup := by
  rw [map_fst_setRow]
  split_ifs with hkey
  · exact h
  · exact List.nodup_append.2 ⟨h, List.nodup_singleton _, fun a ha b hb hab => hkey (by simp_all)⟩

theorem mem_setRow (h : x ∈ setRow rows key row) : x ∈ rows ∨ x = (key, row) := by
  unfold setRow at h
  split_ifs at h
  · obtain ⟨y, hy, rfl⟩ := List.mem_map.1 h
    split_ifs
    · exact .inr rfl
    · exact .inl hy
  · exact (List.mem_append.1 h).imp_right List.mem_singleton.1

/-! ## Tables -/

structure Table where
  primaryKey : String
  rows : List (String × Row)
  nodup : (rows.map Prod.fst).Nodup
  /-- Every row is filed under its own key. -/
  keyed : ∀ x ∈ rows, keyOf primaryKey x.2 = some x.1

/-- The tables, by name. -/
abbrev Tables := String → Option Table

def Table.empty (primaryKey : String) : Table := ⟨primaryKey, [], List.nodup_nil, fun _ h => (List.not_mem_nil h).elim⟩

/-- A row gets its place, unless it has no key. -/
def Table.file (t : Table) (row : Row) : Option Table :=
  match h : keyOf t.primaryKey row with
  | none => none
  | some key => some {
      primaryKey := t.primaryKey
      rows := setRow t.rows key row
      nodup := nodup_setRow t.nodup
      keyed := fun x hx => (mem_setRow hx).elim (t.keyed x) fun he => by rw [he, h] }

inductive TableError
  | missingKey (primaryKey name : String)
  | unknownTable (name : String)
  deriving DecidableEq, Repr

def TableError.message : TableError → String
  | .missingKey primaryKey name => s!"row missing primary key {primaryKey} for table {name}"
  | .unknownTable name => s!"unknown table: {name}"

namespace Tables

variable (tables : Tables) (name : String)

def set (t : Table) : Tables := fun n => if n = name then some t else tables n

def defineTable (primaryKey : String) : Tables :=
  match tables name with
  | none => tables.set name (.empty primaryKey)
  | some _ => tables

def rowsOf : List Row := (tables name).elim [] fun t => t.rows.map Prod.snd

/-- A table that is not there has the key `id`, and no row without one is taken for it. -/
def upsert (row : Row) : Except TableError Tables :=
  match tables name with
  | none => .error (.unknownTable name)
  | some t =>
    match t.file row with
    | none => .error (.missingKey t.primaryKey name)
    | some t' => .ok (tables.set name t')

def delete (key : String) : Tables × Bool :=
  match tables name with
  | none => (tables, false)
  | some t => (tables.set name {
      primaryKey := t.primaryKey
      rows := t.rows.filter fun x => x.1 ≠ key
      nodup := (List.filter_sublist.map _).nodup t.nodup
      keyed := fun x hx => t.keyed x (List.mem_filter.1 hx).1 }, decide (key ∈ t.rows.map Prod.fst))

end Tables

/-! ## Snapshots -/

structure SerializedTable where
  primaryKey : String
  rows : List Row

abbrev Snapshot := String → Option SerializedTable

def Tables.serialize (tables : Tables) : Snapshot := fun name =>
  if name = "__proto__" then none
  else (tables name).map fun t => ⟨t.primaryKey, t.rows.map Prod.snd⟩

/-- The rows of a snapshot are filed one by one; one without a key is left out. -/
def Table.load (t : Table) (rows : List Row) : Table := rows.foldl (fun t row => (t.file row).getD t) t

def Snapshot.hydrate (snapshot : Snapshot) : Tables := fun name =>
  (snapshot name).map fun s => (Table.empty s.primaryKey).load s.rows

def Tables.cloneState (tables : Tables) : Tables := tables.serialize.hydrate

/-- `replaceWith`, of which the tables before are no part. -/
def Tables.replaceWith (other : Tables) : Tables := other.serialize.hydrate

/-! ## A snapshot is what it was taken from -/

theorem Table.ext {t t' : Table} (hkey : t.primaryKey = t'.primaryKey) (hrows : t.rows = t'.rows) : t = t' := by
  cases t
  cases t'
  simp only at hkey hrows
  subst hkey hrows
  rfl

theorem Table.file_eq {t : Table} (hkey : keyOf t.primaryKey row = some key) (hnew : key ∉ t.rows.map Prod.fst) :
    ∃ t', t.file row = some t' ∧ t'.primaryKey = t.primaryKey ∧ t'.rows = t.rows ++ [(key, row)] := by
  unfold Table.file
  split
  · next h => rw [h] at hkey; cases hkey
  · next key' h =>
    obtain rfl := Option.some.inj (h.symm.trans hkey)
    exact ⟨_, rfl, rfl, if_neg hnew⟩

/-- **The rows of a table**, filed one by one, make the table. -/
theorem Table.load_rows {t : Table} (hnodup : ((t.rows ++ rows).map Prod.fst).Nodup)
    (hkeyed : ∀ x ∈ rows, keyOf t.primaryKey x.2 = some x.1) :
    (t.load (rows.map Prod.snd)).primaryKey = t.primaryKey ∧ (t.load (rows.map Prod.snd)).rows = t.rows ++ rows := by
  induction rows generalizing t with
  | nil => exact ⟨rfl, (List.append_nil _).symm⟩
  | cons x rows ih =>
    have hnew : x.1 ∉ t.rows.map Prod.fst := by
      rw [List.map_append, List.nodup_append] at hnodup
      exact fun h => hnodup.2.2 _ h x.1 List.mem_cons_self rfl
    obtain ⟨t', hfile, hkey, hrows⟩ := Table.file_eq (hkeyed x List.mem_cons_self) hnew
    have happ : t.rows ++ x :: rows = t'.rows ++ rows := by rw [hrows, List.append_assoc]; rfl
    have hload : t.load ((x :: rows).map Prod.snd) = t'.load (rows.map Prod.snd) := by
      change Table.load ((t.file x.2).getD t) _ = _
      rw [hfile]
      rfl
    obtain ⟨h₁, h₂⟩ := ih (happ ▸ hnodup) fun y hy => hkey ▸ hkeyed y (List.mem_cons_of_mem _ hy)
    rw [hload, h₁, h₂, hkey, happ]
    exact ⟨rfl, rfl⟩

/-- **Taking a snapshot and loading it** gives the tables back, but for one called `__proto__`. -/
theorem Tables.hydrate_serialize (tables : Tables) (name : String) :
    tables.serialize.hydrate name = if name = "__proto__" then none else tables name := by
  unfold Snapshot.hydrate Tables.serialize
  split_ifs
  · rfl
  · cases h : tables name with
    | none => rfl
    | some t =>
      have hload := @Table.load_rows t.rows (Table.empty t.primaryKey) t.nodup t.keyed
      exact congrArg some (Table.ext hload.1 hload.2)

theorem Tables.replaceWith_cloneState (tables : Tables) (name : String) :
    tables.cloneState.replaceWith name = if name = "__proto__" then none else tables name := by
  unfold replaceWith cloneState
  rw [hydrate_serialize, hydrate_serialize]
  split_ifs <;> rfl

theorem Tables.replaceWith_cloneState_iff {tables : Tables} :
    tables.cloneState.replaceWith = tables ↔ tables "__proto__" = none := by
  constructor
  · intro h
    rw [← h, replaceWith_cloneState, if_pos rfl]
  · intro h
    funext name
    rw [replaceWith_cloneState]
    split_ifs with hname
    · rw [hname, h]
    · rfl

end ChronoSynth.Web

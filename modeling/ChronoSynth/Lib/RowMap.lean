import Mathlib.Data.List.Nodup

/-!
# Maps of rows

A map from keys to rows that carry their key, in the order in which the keys were set: a `Map` that is filled by
`set(row.id, row)`, or a table with a primary key. What tells two of them apart is what they have under a key
(`get?`).
-/

namespace ChronoSynth

structure RowMap {α κ : Type*} (key : α → κ) where
  rows : List α
  nodup : (rows.map key).Nodup

namespace RowMap

variable {α κ : Type*} [DecidableEq κ] {key : α → κ}

def empty : RowMap key := ⟨[], List.nodup_nil⟩

variable (m : RowMap key) (k : κ) (row : α)

def get? : Option α := m.rows.find? fun a => key a = k

/-- The row takes the place of the one with its key, or comes last. -/
def set : RowMap key where
  rows :=
    if key row ∈ m.rows.map key then m.rows.map fun a => if key a = key row then row else a
    else m.rows ++ [row]
  nodup := by
    split_ifs with h
    · have hkey : ∀ a, key (if key a = key row then row else a) = key a := fun a => by
        split_ifs with ha
        · exact ha.symm
        · rfl
      simpa only [List.map_map, Function.comp_def, hkey] using m.nodup
    · rw [List.map_append, List.nodup_append]
      exact ⟨m.nodup, by simp, fun a ha b hb hab => h (by simp_all)⟩

/-- The rows that meet a condition. -/
def keep (p : α → Prop) [DecidablePred p] : RowMap key where
  rows := m.rows.filter fun a => p a
  nodup := (List.filter_sublist.map _).nodup m.nodup

def erase : RowMap key := m.keep fun a => key a ≠ k

variable {m k row} {a : α}

theorem get?_eq_some : m.get? k = some a ↔ a ∈ m.rows ∧ key a = k := by
  constructor
  · intro h
    exact ⟨List.mem_of_find?_eq_some h, by simpa using List.find?_some h⟩
  · rintro ⟨ha, rfl⟩
    cases h : m.get? (key a) with
    | none => exact absurd (List.find?_eq_none.1 h a ha) (by simp)
    | some b =>
      have hkey : key b = key a := by simpa using List.find?_some h
      rw [List.inj_on_of_nodup_map m.nodup (List.mem_of_find?_eq_some h) ha hkey]

theorem key_of_get? (h : m.get? k = some a) : key a = k := (get?_eq_some.1 h).2

@[simp] theorem get?_empty : (empty : RowMap key).get? k = none := rfl

theorem mem_set : a ∈ (m.set row).rows ↔ a = row ∨ a ∈ m.rows ∧ key a ≠ key row := by
  unfold set
  simp only
  split_ifs with h
  · obtain ⟨b, hb, hkey⟩ := List.mem_map.1 h
    rw [List.mem_map]
    constructor
    · rintro ⟨c, hc, rfl⟩
      split_ifs with hck
      · exact .inl rfl
      · exact .inr ⟨hc, hck⟩
    · rintro (rfl | ⟨ha, hne⟩)
      · exact ⟨b, hb, if_pos hkey⟩
      · exact ⟨a, ha, if_neg hne⟩
  · rw [List.mem_append, List.mem_singleton, or_comm]
    exact or_congr_right ⟨fun ha => ⟨ha, fun hkey => h (hkey ▸ List.mem_map_of_mem ha)⟩, And.left⟩

theorem get?_set : (m.set row).get? k = if k = key row then some row else m.get? k := by
  refine Option.ext fun a => ?_
  rw [get?_eq_some, mem_set]
  split_ifs with hk
  · subst hk
    constructor
    · rintro ⟨rfl | ⟨-, hne⟩, ha⟩
      · rfl
      · exact absurd ha hne
    · rintro h
      obtain rfl := Option.some.inj h
      exact ⟨.inl rfl, rfl⟩
  · rw [get?_eq_some]
    constructor
    · rintro ⟨rfl | ⟨ha, -⟩, rfl⟩
      · exact absurd rfl hk
      · exact ⟨ha, rfl⟩
    · rintro ⟨ha, rfl⟩
      exact ⟨.inr ⟨ha, hk⟩, rfl⟩

theorem get?_keep {p : α → Prop} [DecidablePred p] : (m.keep p).get? k = (m.get? k).filter fun a => p a := by
  refine Option.ext fun a => ?_
  rw [get?_eq_some, Option.filter_eq_some_iff, get?_eq_some]
  simp only [keep, List.mem_filter, decide_eq_true_eq]
  exact ⟨fun ⟨⟨ha, hp⟩, hk⟩ => ⟨⟨ha, hk⟩, hp⟩, fun ⟨⟨ha, hk⟩, hp⟩ => ⟨⟨ha, hp⟩, hk⟩⟩

theorem get?_erase {k' : κ} : (m.erase k').get? k = if k = k' then none else m.get? k := by
  rw [erase, get?_keep]
  cases h : m.get? k with
  | none => simp
  | some a =>
    obtain rfl := key_of_get? h
    by_cases hk : key a = k' <;> simp [hk]

theorem find?_and {p : α → Prop} [DecidablePred p] :
    (m.rows.find? fun a => key a = k ∧ p a) = (m.get? k).filter fun a => p a := by
  refine Option.ext fun a => ?_
  rw [Option.filter_eq_some_iff, get?_eq_some]
  constructor
  · intro h
    have ha : key a = k ∧ p a := by simpa using List.find?_some h
    exact ⟨⟨List.mem_of_find?_eq_some h, ha.1⟩, by simpa using ha.2⟩
  · rintro ⟨⟨ha, rfl⟩, hp⟩
    cases h : m.rows.find? fun b => key b = key a ∧ p b with
    | none => exact absurd (List.find?_eq_none.1 h a ha) (by simpa using hp)
    | some b =>
      have hb : key b = key a ∧ p b := by simpa using List.find?_some h
      rw [List.inj_on_of_nodup_map m.nodup (List.mem_of_find?_eq_some h) ha hb.1]

theorem get?_foldl_erase (l : List α) :
    (l.foldl (fun m a => m.erase (key a)) m).get? k = if k ∈ l.map key then none else m.get? k := by
  induction l generalizing m with
  | nil => simp
  | cons a l ih =>
    rw [List.foldl_cons, ih, get?_erase, List.map_cons]
    by_cases hk : k ∈ l.map key
    · rw [if_pos hk, if_pos (List.mem_cons_of_mem _ hk)]
    · rw [if_neg hk]
      simp [hk]

end RowMap

end ChronoSynth

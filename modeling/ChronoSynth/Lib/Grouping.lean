import Mathlib.Data.List.Nodup
import Mathlib.Data.List.Count
import Mathlib.Data.List.Induction

/-!
# Grouping and deduplication by a key

`groupBy` is the loop that puts each element of a list into the group of its key, in an insertion-ordered map;
`dedupeBy` is the loop that leaves out an element whose key it has seen.
-/

namespace ChronoSynth

variable {α κ : Type*} [DecidableEq κ] {key : α → κ} {groups : List (κ × List α)} {l : List α} {a : α} {k : κ}
  {g : List α}

/-- A loop that may throw, and does not. -/
theorem mapM_ok {β ε : Type*} {f : α → Except ε β} {h : α → β} (hf : ∀ a ∈ l, f a = .ok (h a)) :
    l.mapM f = .ok (l.map h) := by
  induction l with
  | nil => rfl
  | cons a l ih =>
    rw [List.mapM_cons, hf a List.mem_cons_self, ih fun b hb => hf b (List.mem_cons_of_mem _ hb)]
    rfl

/-! ## Groups -/

def joinGroup (key : α → κ) : List (κ × List α) → α → List (κ × List α)
  | [], a => [(key a, [a])]
  | (k, g) :: groups, a => if k = key a then (k, g ++ [a]) :: groups else (k, g) :: joinGroup key groups a

def groupBy (key : α → κ) (l : List α) : List (κ × List α) := l.foldl (joinGroup key) []

theorem mem_keys_joinGroup :
    k ∈ (joinGroup key groups a).map Prod.fst ↔ k ∈ groups.map Prod.fst ∨ k = key a := by
  induction groups with
  | nil => simp [joinGroup]
  | cons x groups ih =>
    rw [joinGroup]
    split_ifs with h
    · simp only [List.map_cons, List.mem_cons, h]
      tauto
    · simp only [List.map_cons, List.mem_cons, ih, or_assoc]

theorem nodup_joinGroup (h : (groups.map Prod.fst).Nodup) : ((joinGroup key groups a).map Prod.fst).Nodup := by
  induction groups with
  | nil => exact List.nodup_singleton _
  | cons x groups ih =>
    rw [List.map_cons, List.nodup_cons] at h
    rw [joinGroup]
    split_ifs with hx
    · exact List.nodup_cons.2 h
    · refine List.nodup_cons.2 ⟨fun hmem => ?_, ih h.2⟩
      rcases mem_keys_joinGroup.1 hmem with hmem | heq
      · exact h.1 hmem
      · exact hx heq

theorem mem_joinGroup (h : (groups.map Prod.fst).Nodup) : (k, g) ∈ joinGroup key groups a ↔
    (k ≠ key a ∧ (k, g) ∈ groups) ∨
    (k = key a ∧ ((∃ g', (k, g') ∈ groups ∧ g = g' ++ [a]) ∨ k ∉ groups.map Prod.fst ∧ g = [a])) := by
  induction groups with
  | nil => simp [joinGroup]
  | cons x groups ih =>
    obtain ⟨k', g'⟩ := x
    rw [List.map_cons, List.nodup_cons] at h
    have hkey : ∀ g₀, (k', g₀) ∉ groups := fun g₀ hmem => h.1 (List.mem_map.2 ⟨_, hmem, rfl⟩)
    rw [joinGroup]
    by_cases hk' : k' = key a
    · simp only [if_pos hk', List.mem_cons, Prod.mk.injEq, List.map_cons, not_or]
      by_cases hk : k = key a
      · subst hk
        simp only [← hk', true_and, ne_eq, not_true_eq_false, false_and, or_false, false_or]
        constructor
        · rintro (rfl | hmem)
          · exact ⟨g', .inl rfl, rfl⟩
          · exact absurd hmem (hkey g)
        · rintro ⟨g₀, rfl | hmem, rfl⟩
          · exact .inl rfl
          · exact absurd hmem (hkey g₀)
      · have hne : ¬ k = k' := fun he => hk (he.trans hk')
        simp [hk, hne]
    · simp only [if_neg hk', List.mem_cons, Prod.mk.injEq, ih h.2, List.map_cons, not_or]
      by_cases hk : k = key a
      · subst hk
        have hne : ¬ key a = k' := Ne.symm hk'
        simp [hne]
      · simp [hk]

/-- **The groups** are the elements of each key that occurs, in their order. -/
theorem groupBy_spec : ((groupBy key l).map Prod.fst).Nodup ∧
    ∀ k g, (k, g) ∈ groupBy key l ↔ k ∈ l.map key ∧ g = l.filter fun a => key a = k := by
  induction l using List.reverseRecOn with
  | nil => exact ⟨List.nodup_nil, fun k g => by simp [groupBy]⟩
  | append_singleton l a ih =>
    obtain ⟨hnodup, hmem⟩ := ih
    have hstep : groupBy key (l ++ [a]) = joinGroup key (groupBy key l) a := by
      rw [groupBy, List.foldl_append]
      rfl
    have hkeys : ∀ k, k ∈ (groupBy key l).map Prod.fst ↔ k ∈ l.map key := by
      intro k
      constructor
      · intro h
        obtain ⟨x, hx, rfl⟩ := List.mem_map.1 h
        exact ((hmem x.1 x.2).1 hx).1
      · intro h
        exact List.mem_map.2 ⟨_, (hmem k _).2 ⟨h, rfl⟩, rfl⟩
    rw [hstep]
    refine ⟨nodup_joinGroup hnodup, fun k g => ?_⟩
    rw [mem_joinGroup hnodup, List.map_append, List.filter_append, hmem, hkeys]
    by_cases hk : k = key a
    · subst hk
      by_cases hin : key a ∈ l.map key
      · simp [hmem, hin]
      · have hnil : l.filter (fun b => key b = key a) = [] :=
          List.filter_eq_nil_iff.2 fun b hb he => hin (List.mem_map.2 ⟨b, hb, by simpa using he⟩)
        simp [hmem, hin, hnil]
    · simp [hk, Ne.symm hk]

theorem nodup_groupBy : ((groupBy key l).map Prod.fst).Nodup := groupBy_spec.1

theorem mem_groupBy : (k, g) ∈ groupBy key l ↔ k ∈ l.map key ∧ g = l.filter fun a => key a = k :=
  groupBy_spec.2 k g

/-! ## Deduplication -/

/-- The elements whose keys have not been seen. -/
def dedupeFrom (key : α → κ) : List κ → List α → List α
  | _, [] => []
  | seen, a :: l => if key a ∈ seen then dedupeFrom key seen l else a :: dedupeFrom key (key a :: seen) l

def dedupeBy (key : α → κ) (l : List α) : List α := dedupeFrom key [] l

theorem dedupeFrom_sublist {seen : List κ} : (dedupeFrom key seen l).Sublist l := by
  induction l generalizing seen with
  | nil => exact List.Sublist.refl _
  | cons a l ih =>
    rw [dedupeFrom]
    split_ifs
    · exact ih.cons a
    · exact ih.cons_cons a

theorem key_dedupeFrom_notMem {seen : List κ} : ∀ a ∈ dedupeFrom key seen l, key a ∉ seen := by
  induction l generalizing seen with
  | nil => exact fun _ h => (List.not_mem_nil h).elim
  | cons b l ih =>
    intro a ha
    rw [dedupeFrom] at ha
    split_ifs at ha with hb
    · exact ih a ha
    · rcases List.mem_cons.1 ha with rfl | ha
      · exact hb
      · exact fun hs => ih a ha (List.mem_cons_of_mem _ hs)

theorem nodup_dedupeFrom {seen : List κ} : ((dedupeFrom key seen l).map key).Nodup := by
  induction l generalizing seen with
  | nil => exact List.nodup_nil
  | cons a l ih =>
    rw [dedupeFrom]
    split_ifs with ha
    · exact ih
    · refine List.nodup_cons.2 ⟨fun hmem => ?_, ih⟩
      obtain ⟨b, hb, heq⟩ := List.mem_map.1 hmem
      exact key_dedupeFrom_notMem b hb (heq ▸ List.mem_cons_self)

theorem mem_dedupeFrom {seen : List κ} (hinj : ∀ a ∈ l, ∀ b ∈ l, key a = key b → a = b) (ha : a ∈ l)
    (hseen : key a ∉ seen) : a ∈ dedupeFrom key seen l := by
  induction l generalizing seen with
  | nil => exact ha
  | cons b l ih =>
    have hinj' : ∀ a ∈ l, ∀ b ∈ l, key a = key b → a = b := fun a ha b hb =>
      hinj a (List.mem_cons_of_mem _ ha) b (List.mem_cons_of_mem _ hb)
    rw [dedupeFrom]
    by_cases hab : a = b
    · subst hab
      rw [if_neg hseen]
      exact List.mem_cons_self
    · have ha' : a ∈ l := (List.mem_cons.1 ha).resolve_left hab
      split_ifs with hb
      · exact ih hinj' ha' hseen
      · refine List.mem_cons_of_mem _ (ih hinj' ha' fun hmem => ?_)
        rcases List.mem_cons.1 hmem with heq | hmem
        · exact hab (hinj a ha b List.mem_cons_self heq)
        · exact hseen hmem

theorem nodup_dedupeBy : ((dedupeBy key l).map key).Nodup := nodup_dedupeFrom

/-- **Nothing is lost** where the key tells the elements. -/
theorem mem_dedupeBy (hinj : ∀ a ∈ l, ∀ b ∈ l, key a = key b → a = b) : a ∈ dedupeBy key l ↔ a ∈ l :=
  ⟨fun h => dedupeFrom_sublist.subset h, fun h => mem_dedupeFrom hinj h List.not_mem_nil⟩

end ChronoSynth

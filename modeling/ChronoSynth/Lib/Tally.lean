import Mathlib.Data.Finset.Card
import Mathlib.Data.List.AList
import Mathlib.Data.List.Dedup

/-!
# Tallies

Programs compare two multisets by counting each into a map: `tally` goes through the list and adds one
to the number kept for each key. Two lists of the same length whose tallies have the same size and
agree on the keys of the second are permutations of each other (`tallies_agree_iff`).
-/

namespace ChronoSynth

variable {κ : Type*} [DecidableEq κ] {keys keys' : List κ} {k : κ}

/-- How often each key occurs, counted into a map. -/
def tally (keys : List κ) : AList fun _ : κ => ℕ :=
  keys.foldl (fun counts k => counts.insert k ((counts.lookup k).getD 0 + 1)) ∅

theorem tally_append_singleton :
    tally (keys ++ [k]) = (tally keys).insert k (((tally keys).lookup k).getD 0 + 1) := by
  simp [tally]

theorem lookup_tally : (tally keys).lookup k = if k ∈ keys then some (keys.count k) else none := by
  induction keys using List.reverseRecOn with
  | nil => rfl
  | append_singleton keys k' ih =>
    rw [tally_append_singleton]
    by_cases hk : k = k'
    · subst hk
      have hmem : k ∈ keys ++ [k] := List.mem_append_right _ (List.mem_singleton_self k)
      rw [AList.lookup_insert, ih, if_pos hmem, List.count_append, List.count_singleton_self]
      by_cases h : k ∈ keys
      · rw [if_pos h, Option.getD_some]
      · rw [if_neg h, Option.getD_none, List.count_eq_zero.2 h]
    · rw [AList.lookup_insert_ne hk, ih]
      simp [hk, List.count_append, Ne.symm hk]

theorem mem_keys_tally : k ∈ (tally keys).keys ↔ k ∈ keys := by
  rw [← AList.mem_keys, ← AList.lookup_isSome, lookup_tally]
  split <;> simp [*]

theorem toFinset_keys_tally : (tally keys).keys.toFinset = keys.toFinset := by
  ext k
  simp [mem_keys_tally]

theorem length_keys_tally : (tally keys).keys.length = keys.toFinset.card := by
  rw [← toFinset_keys_tally, List.toFinset_card_of_nodup (tally keys).keys_nodup]

/-- Two lists are permutations of each other when their tallies are the same: as large, and with the
same numbers for the keys of the second. -/
theorem tallies_agree_iff : (tally keys).keys.length = (tally keys').keys.length ∧
      (∀ e ∈ (tally keys').entries, (tally keys).lookup e.1 = some e.2) ↔ keys.Perm keys' := by
  have hentry : ∀ e : (_ : κ) × ℕ, e ∈ (tally keys').entries ↔
      e.1 ∈ keys' ∧ e.2 = keys'.count e.1 := by
    rintro ⟨k, n⟩
    have h : n ∈ (tally keys').lookup k ↔ ⟨k, n⟩ ∈ (tally keys').entries := AList.mem_lookup_iff
    rw [← h, lookup_tally]
    by_cases hk : k ∈ keys'
    · simp [hk, eq_comm]
    · simp [hk]
  constructor
  · rintro ⟨hsize, hcounts⟩
    have hcount : ∀ k ∈ keys', k ∈ keys ∧ keys.count k = keys'.count k := by
      intro k hk
      have h := hcounts ⟨k, keys'.count k⟩ ((hentry _).2 ⟨hk, rfl⟩)
      rw [lookup_tally] at h
      split at h
      next hmem => exact ⟨hmem, Option.some.inj h⟩
      next => cases h
    -- the keys of the second are keys of the first, and there are no more
    have hsub : keys'.toFinset ⊆ keys.toFinset := by
      intro k hk
      rw [List.mem_toFinset] at hk ⊢
      exact (hcount k hk).1
    rw [length_keys_tally, length_keys_tally] at hsize
    have heq := Finset.eq_of_subset_of_card_le hsub hsize.le
    refine List.perm_iff_count.2 fun k => ?_
    by_cases hk : k ∈ keys'
    · exact (hcount k hk).2
    · have hk' : k ∉ keys := by rwa [← List.mem_toFinset, ← heq, List.mem_toFinset]
      rw [List.count_eq_zero.2 hk, List.count_eq_zero.2 hk']
  · intro h
    refine ⟨?_, fun e he => ?_⟩
    · rw [length_keys_tally, length_keys_tally, List.toFinset_eq_of_perm _ _ h]
    · obtain ⟨hmem, hcount⟩ := (hentry e).1 he
      rw [lookup_tally, if_pos (h.mem_iff.2 hmem), h.count_eq, hcount]

end ChronoSynth

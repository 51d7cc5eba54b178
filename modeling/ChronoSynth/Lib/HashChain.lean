import Mathlib.Data.List.Basic
import Mathlib.Data.List.Infix
import Mathlib.Data.List.TakeDrop
import Mathlib.Algebra.Order.Group.Int
import Mathlib.Tactic.Ring

/-!
# Hash chains

A record of a hash chain carries a number, the hash of the record before it and its own hash; the
**digest** is what its own hash should be, computed from the rest of the record. Nothing is assumed
about the digest.

* `HashChain.Linked k h rs` — the records `rs` continue a chain: they are numbered from `k` on, the
  first one follows the hash `h`, each later one the hash of the one before, and each one's hash is
  its digest. By recursion on the records, so it splits along `++`.
* `HashChain.tip h rs` — the hash the next record has to follow.
* The range lemmas say that selecting the records of a chain by a range of numbers and a limit
  selects a segment, which is again linked, from the tip of what stands before it.
-/

namespace ChronoSynth

/-- How to read the records `R` of a hash chain with hashes in `H`. -/
structure HashChain (R H : Type*) where
  /-- The number of a record. -/
  seq : R → ℤ
  /-- The hash it says it follows. -/
  prev : R → H
  /-- The hash it says it has. -/
  hash : R → H
  /-- The hash it should have. -/
  digest : R → H

namespace HashChain

variable {R H : Type*} (c : HashChain R H)

/-- The records continue a chain from the number `k` and the hash `h`. -/
def Linked : ℤ → H → List R → Prop
  | _, _, [] => True
  | k, h, r :: rs =>
    c.seq r = k ∧ c.prev r = h ∧ c.hash r = c.digest r ∧ Linked (k + 1) (c.hash r) rs

/-- The hash of the last record, or `h` when there is none. -/
def tip (h : H) (rs : List R) : H := (rs.getLast?.map c.hash).getD h

variable {c} {k : ℤ} {h : H} {r : R} {rs rs' : List R}

@[simp] theorem linked_nil : c.Linked k h [] := trivial

@[simp] theorem linked_cons :
    c.Linked k h (r :: rs) ↔
      c.seq r = k ∧ c.prev r = h ∧ c.hash r = c.digest r ∧ c.Linked (k + 1) (c.hash r) rs :=
  Iff.rfl

@[simp] theorem tip_nil : c.tip h [] = h := rfl

@[simp] theorem tip_cons : c.tip h (r :: rs) = c.tip (c.hash r) rs := by
  cases rs with
  | nil => rfl
  | cons r' rs =>
    rcases hl : (r' :: rs).getLast? with _ | last
    · simp at hl
    · simp [tip, List.getLast?_cons_cons, hl]

@[simp] theorem tip_append : c.tip h (rs ++ rs') = c.tip (c.tip h rs) rs' := by
  induction rs generalizing h with
  | nil => rfl
  | cons r rs ih => simp only [List.cons_append, tip_cons, ih]

/-- **A chain splits**: what comes after `rs` continues from the next number and from their tip. -/
theorem linked_append :
    c.Linked k h (rs ++ rs') ↔ c.Linked k h rs ∧ c.Linked (k + rs.length) (c.tip h rs) rs' := by
  induction rs generalizing k h with
  | nil => simp
  | cons r rs ih =>
    have hk : k + 1 + (rs.length : ℤ) = k + ((r :: rs).length : ℤ) := by
      rw [List.length_cons]
      push_cast
      ring
    simp only [List.cons_append, linked_cons, tip_cons, ih, hk, and_assoc]

theorem tip_take_succ {i : ℕ} (hi : rs[i]? = some r) : c.tip h (rs.take (i + 1)) = c.hash r := by
  rw [List.take_add_one, hi, tip_append]
  rfl

/-- A chain read off by position: the numbers count up, the first record follows `h`, each later one
its predecessor, and every hash is the digest. -/
theorem linked_iff_getElem :
    c.Linked k h rs ↔ ∀ (i : ℕ) (r : R), rs[i]? = some r →
      c.seq r = k + i ∧ c.prev r = c.tip h (rs.take i) ∧ c.hash r = c.digest r := by
  induction rs generalizing k h with
  | nil => simp
  | cons r rs ih =>
    rw [linked_cons, ih]
    constructor
    · rintro ⟨hs, hp, hd, hrest⟩ i r' hi
      cases i with
      | zero =>
        obtain rfl := Option.some.inj hi
        exact ⟨by simpa using hs, hp, hd⟩
      | succ i =>
        obtain ⟨hs', hp', hd'⟩ := hrest i r' hi
        refine ⟨?_, by simpa using hp', hd'⟩
        rw [hs']
        push_cast
        ring
    · intro hall
      obtain ⟨hs, hp, hd⟩ := hall 0 r rfl
      refine ⟨by simpa using hs, hp, hd, fun i r' hi => ?_⟩
      obtain ⟨hs', hp', hd'⟩ := hall (i + 1) r' hi
      refine ⟨?_, by simpa using hp', hd'⟩
      rw [hs']
      push_cast
      ring

/-- The number of a record of a chain is at least the first number. -/
theorem Linked.le_seq (hl : c.Linked k h rs) (hr : r ∈ rs) : k ≤ c.seq r := by
  obtain ⟨i, hi⟩ := List.mem_iff_getElem?.1 hr
  have := (linked_iff_getElem.1 hl i r hi).1
  omega

/-- The number of a record of a chain stays below the next number. -/
theorem Linked.seq_lt (hl : c.Linked k h rs) (hr : r ∈ rs) : c.seq r < k + rs.length := by
  obtain ⟨i, hi⟩ := List.mem_iff_getElem?.1 hr
  have hseq := (linked_iff_getElem.1 hl i r hi).1
  have hlt := (List.getElem?_eq_some_iff.1 hi).1
  omega

/-- The numbers of a chain increase. -/
theorem Linked.pairwise (hl : c.Linked k h rs) : rs.Pairwise (fun a b => c.seq a < c.seq b) := by
  induction rs generalizing k h with
  | nil => exact List.Pairwise.nil
  | cons r rs ih =>
    obtain ⟨hs, -, -, hrest⟩ := hl
    refine List.pairwise_cons.2 ⟨fun b hb => ?_, ih hrest⟩
    have := hrest.le_seq hb
    omega

/-- **The tip tells the chain.** Two chains of one length that start alike and end in the same hash
are the same, if records that carry their digests and the same hash are: by induction from the end,
each record naming the hash of the one before it. -/
theorem Linked.eq_of_tip
    (inj : ∀ r r', c.hash r = c.digest r → c.hash r' = c.digest r' → c.hash r = c.hash r' → r = r')
    (hl : c.Linked k h rs) (hl' : c.Linked k h rs') (hlen : rs.length = rs'.length)
    (htip : c.tip h rs = c.tip h rs') : rs = rs' := by
  induction rs using List.reverseRecOn generalizing rs' with
  | nil => exact (List.length_eq_zero_iff.1 hlen.symm).symm
  | append_singleton rs r ih =>
    rcases List.eq_nil_or_concat' rs' with rfl | ⟨rs', r', rfl⟩
    · simp at hlen
    rw [linked_append, linked_cons] at hl hl'
    obtain ⟨hrs, -, hprev, hhash, -⟩ := hl
    obtain ⟨hrs', -, hprev', hhash', -⟩ := hl'
    rw [tip_append, tip_append, tip_cons, tip_cons, tip_nil, tip_nil] at htip
    obtain rfl := inj r r' hhash hhash' htip
    rw [ih hrs hrs' (by simpa using hlen) (hprev.symm.trans hprev')]

/-! ## Ranges -/

/-- Selecting the numbers from `lo` on drops the records before. -/
theorem Linked.filter_ge (hl : c.Linked k h rs) (lo : ℤ) :
    rs.filter (fun r => lo ≤ c.seq r) = rs.drop (lo - k).toNat := by
  induction rs generalizing k h with
  | nil => simp
  | cons r rs ih =>
    obtain ⟨hs, -, -, hrest⟩ := hl
    by_cases hlo : lo ≤ k
    · -- the whole list is kept
      have hz : (lo - k).toNat = 0 := by omega
      have hz' : (lo - (k + 1)).toNat = 0 := by omega
      have hk : lo ≤ c.seq r := by omega
      simp [hz, hk, ih hrest, hz']
    · have hk : ¬ lo ≤ c.seq r := by omega
      have hz : (lo - k).toNat = (lo - (k + 1)).toNat + 1 := by omega
      simp [hk, ih hrest, hz]

/-- Selecting the numbers up to `hi` keeps the records before. -/
theorem Linked.filter_le (hl : c.Linked k h rs) (hi : ℤ) :
    rs.filter (fun r => c.seq r ≤ hi) = rs.take (hi + 1 - k).toNat := by
  induction rs generalizing k h with
  | nil => simp
  | cons r rs ih =>
    obtain ⟨hs, -, -, hrest⟩ := hl
    by_cases hhi : k ≤ hi
    · have hk : c.seq r ≤ hi := by omega
      have hz : (hi + 1 - k).toNat = (hi + 1 - (k + 1)).toNat + 1 := by omega
      simp [hk, ih hrest, hz]
    · have hk : ¬ c.seq r ≤ hi := by omega
      have hz : (hi + 1 - k).toNat = 0 := by omega
      have hz' : (hi + 1 - (k + 1)).toNat = 0 := by omega
      rw [List.filter_cons_of_neg (by simpa using hk), ih hrest, hz, hz', List.take_zero,
        List.take_zero]

/-- What is left of a chain after its first `i` records continues it. -/
theorem Linked.drop (hl : c.Linked k h rs) (i : ℕ) :
    c.Linked (k + (rs.take i).length) (c.tip h (rs.take i)) (rs.drop i) := by
  rw [← List.take_append_drop i rs, linked_append] at hl
  exact hl.2

/-- The first `m` records of a chain are a chain. -/
theorem Linked.take (hl : c.Linked k h rs) (m : ℕ) : c.Linked k h (rs.take m) := by
  rw [← List.take_append_drop m rs, linked_append] at hl
  exact hl.1

end HashChain

end ChronoSynth

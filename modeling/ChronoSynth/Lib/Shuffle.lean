import Mathlib.Data.List.InsertIdx
import Mathlib.Data.List.Perm.Basic

/-!
# Orders that a number picks

A query without `ORDER BY` may return its rows in every order. `shuffle n rows` is one of them: `n` is read as the
places, one after the other, at which the rows are put between those that come after them. Every order is picked by
some number (`exists_shuffle`).
-/

namespace ChronoSynth

variable {α : Type*} {rows rows' : List α} {a : α}

def shuffle : ℕ → List α → List α
  | _, [] => []
  | n, a :: rows => (shuffle (n / (rows.length + 1)) rows).insertIdx (n % (rows.length + 1)) a

theorem shuffle_perm (n : ℕ) (rows : List α) : (shuffle n rows).Perm rows := by
  induction rows generalizing n with
  | nil => exact .refl _
  | cons a rows ih =>
    have hlen : n % (rows.length + 1) ≤ (shuffle (n / (rows.length + 1)) rows).length := by
      rw [(ih _).length_eq]
      exact Nat.le_of_lt_succ (Nat.mod_lt _ (Nat.succ_pos _))
    exact (List.perm_insertIdx a _ hlen).trans ((ih _).cons a)

@[simp] theorem mem_shuffle {n : ℕ} : a ∈ shuffle n rows ↔ a ∈ rows := (shuffle_perm n rows).mem_iff

theorem insertIdx_append_length (before after : List α) :
    (before ++ after).insertIdx before.length a = before ++ a :: after := by
  induction before with
  | nil => rfl
  | cons b before ih => simp [ih]

/-- Every order is picked. -/
theorem exists_shuffle (h : rows'.Perm rows) : ∃ n, shuffle n rows = rows' := by
  induction rows generalizing rows' with
  | nil => exact ⟨0, h.eq_nil.symm⟩
  | cons a rows ih =>
    obtain ⟨before, after, rfl⟩ := List.append_of_mem (h.symm.mem_iff.1 List.mem_cons_self)
    have hrest : (before ++ after).Perm rows := (List.perm_middle.symm.trans h).cons_inv
    obtain ⟨n, hn⟩ := ih hrest
    have hlen : before.length < rows.length + 1 := by
      have := hrest.length_eq
      rw [List.length_append] at this
      omega
    refine ⟨n * (rows.length + 1) + before.length, ?_⟩
    rw [shuffle, Nat.mul_comm, Nat.mul_add_div (Nat.succ_pos _), Nat.div_eq_of_lt hlen, Nat.add_zero, hn,
      Nat.mul_add_mod, Nat.mod_eq_of_lt hlen, insertIdx_append_length]

theorem exists_shuffle_cons (h : a ∈ rows) : ∃ n rows', shuffle n rows = a :: rows' := by
  obtain ⟨before, after, rfl⟩ := List.append_of_mem h
  have hfirst : (a :: (before ++ after)).Perm (before ++ a :: after) := List.perm_middle.symm
  obtain ⟨n, hn⟩ := exists_shuffle hfirst
  exact ⟨n, _, hn⟩

end ChronoSynth

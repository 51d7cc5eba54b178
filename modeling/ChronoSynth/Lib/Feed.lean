import Mathlib.Data.List.Pairwise
import Mathlib.Data.List.Sort
import Mathlib.Order.Defs.LinearOrder

/-!
# Feeds

A feed is a list in the order of its keys, read page by page: a reader keeps the last key it has seen, and its
next page are the first items after it.

* `ordered key l` — the items of `l` in the order of their keys;
* `split_of_upward` — what lies ahead of a reader is the rest of the feed;
* `seen_append` — with the page, a reader has seen everything up to its last item.
-/

namespace ChronoSynth.Feed

variable {α κ : Type*} [LinearOrder κ] (key : α → κ)

def ordered (l : List α) : List α := l.insertionSort fun a b => key a ≤ key b

variable {key} {l l' : List α} {p : α → Prop} [DecidablePred p] {a : α} {n : ℕ}

@[simp] theorem mem_ordered : a ∈ ordered key l ↔ a ∈ l := List.mem_insertionSort _

theorem ordered_perm : (ordered key l).Perm l := List.perm_insertionSort _ _

@[simp] theorem length_ordered : (ordered key l).length = l.length := ordered_perm.length_eq

@[simp] theorem ordered_nil : ordered key [] = [] := rfl

theorem ordered_eq_nil : ordered key l = [] ↔ l = [] := by
  rw [← List.length_eq_zero_iff, length_ordered, List.length_eq_zero_iff]

theorem ordered_lt (hl : (l.map key).Nodup) : (ordered key l).Pairwise fun a b => key a < key b := by
  have hle : (ordered key l).Pairwise fun a b => key a ≤ key b := by
    have : Std.Total fun a b : α => key a ≤ key b := ⟨fun a b => le_total (key a) (key b)⟩
    have : IsTrans α fun a b : α => key a ≤ key b := ⟨fun a b c => le_trans⟩
    exact List.pairwise_insertionSort _ l
  have hne : (ordered key l).Pairwise fun a b => key a ≠ key b :=
    List.pairwise_map.1 ((ordered_perm.map key).nodup_iff.2 hl)
  exact hle.imp₂ (fun _ _ hle hne => lt_of_le_of_ne hle hne) hne

/-- Two lists of the same items in strict order are the same. -/
theorem eq_of_perm (hp : l.Perm l') (h : l.Pairwise fun a b => key a < key b)
    (h' : l'.Pairwise fun a b => key a < key b) : l = l' :=
  hp.eq_of_pairwise (fun _ _ _ _ hab hba => absurd hab (lt_asymm hba)) h h'

/-- A selection may be made before or after. -/
theorem ordered_filter (hl : (l.map key).Nodup) :
    ordered key (l.filter p) = (ordered key l).filter p := by
  refine eq_of_perm (ordered_perm.trans (ordered_perm.filter _).symm) (ordered_lt ?_)
    ((ordered_lt hl).filter _)
  exact hl.sublist (List.filter_sublist.map key)

/-- Two items of a list are related one way or the other. -/
theorem pairwise_or {R : α → α → Prop} (h : l.Pairwise R) {a b : α} (ha : a ∈ l)
    (hb : b ∈ l) (hne : a ≠ b) : R a b ∨ R b a := by
  have : Std.Symm fun a b => R a b ∨ R b a := ⟨fun _ _ => Or.symm⟩
  exact (h.imp (S := fun a b => R a b ∨ R b a) Or.inl).forall ha hb hne

/-- **What lies ahead is the rest of the feed.** -/
theorem split_of_upward (h : l.Pairwise fun a b => key a < key b)
    (hp : ∀ a ∈ l, ∀ b ∈ l, p a → key a < key b → p b) :
    l.filter (fun a => ¬ p a) ++ l.filter p = l := by
  induction l with
  | nil => rfl
  | cons a l ih =>
    obtain ⟨ha, hl⟩ := List.pairwise_cons.1 h
    have ih := ih hl fun b hb c hc => hp b (List.mem_cons_of_mem _ hb) c (List.mem_cons_of_mem _ hc)
    by_cases hpa : p a
    · have hall : ∀ b ∈ l, p b := fun b hb =>
        hp a List.mem_cons_self b (List.mem_cons_of_mem _ hb) hpa (ha b hb)
      rw [List.filter_eq_nil_iff.2 (by simpa [hpa] using hall), List.nil_append]
      exact List.filter_eq_self.2 (by simpa [hpa] using hall)
    · simp only [hpa, not_false_eq_true, decide_true, List.filter_cons_of_pos, List.cons_append,
        decide_false, Bool.false_eq_true, List.filter_cons_of_neg]
      exact congrArg (a :: ·) ih

theorem filter_after {pre post : List α} (h : (pre ++ a :: post).Pairwise fun a b => key a < key b) :
    (pre ++ a :: post).filter (fun b => key a < key b) = post ∧
      (pre ++ a :: post).filter (fun b => ¬ key a < key b) = pre ++ [a] := by
  obtain ⟨-, hpost, hpre⟩ := List.pairwise_append.1 h
  have hpost := (List.pairwise_cons.1 hpost).1
  have hpre : ∀ b ∈ pre, ¬ key a < key b := fun b hb => lt_asymm (hpre b hb a List.mem_cons_self)
  constructor
  · rw [List.filter_append, List.filter_eq_nil_iff.2 (by simpa using hpre), List.nil_append,
      List.filter_cons_of_neg (by simp), List.filter_eq_self.2 (by simpa using hpost)]
  · rw [List.filter_append, List.filter_eq_self.2 (by simpa using hpre), List.filter_cons_of_pos (by simp),
      List.filter_eq_nil_iff.2 (by simpa using hpost)]

/-- **A page.** Who has seen what is not ahead and is given the next items up to `a` has seen what is not after
`a`. -/
theorem seen_append {page rest : List α} (h : l.Pairwise fun a b => key a < key b)
    (hp : ∀ a ∈ l, ∀ b ∈ l, p a → key a < key b → p b) (hpage : l.filter p = page ++ a :: rest) :
    l.filter (fun b => ¬ key a < key b) = l.filter (fun b => ¬ p b) ++ (page ++ [a]) := by
  have hl := split_of_upward h hp
  rw [hpage, ← List.append_assoc] at hl
  rw [← List.append_assoc]
  have := (filter_after (hl ▸ h :)).2
  rwa [hl] at this

end ChronoSynth.Feed

import ChronoSynth.Lib.Traces
import Mathlib.Algebra.BigOperators.Group.List.Basic
import Mathlib.Algebra.Order.BigOperators.Group.List
import Mathlib.Algebra.Order.Ring.Int

/-!
# Sums over the calls

A call that only makes transactions and no reads (`Prog.ReadFree`) has nothing between them, so a move of a pool
of such calls starts a call, does nothing or executes a transaction. `Pool.acting` is the call that does, with
the transaction, and a sum over the calls changes by what it changes for that call (`sum_set_int`).
-/

namespace ChronoSynth

variable {κ σ τ ρ ω ε α β : Type} {exec : ω → τ → σ → σ × ρ}

/-! ## Programs without reads -/

namespace Prog

/-- The call reads nothing apart from the replies to its transactions. -/
def ReadFree : Prog σ τ ρ ω ε α → Prop
  | .ret _ | .throw _ => True
  | .read _ => False
  | .txn _ k => ∀ r, (k r).ReadFree

variable {p : Prog σ τ ρ ω ε α} {g : α → Prog σ τ ρ ω ε β} {t : τ}

theorem ReadFree.bind (h : p.ReadFree) (hg : ∀ a, (g a).ReadFree) : (p >>= g).ReadFree := by
  induction p with
  | ret a => exact hg a
  | throw e => trivial
  | read f ih => exact h.elim
  | txn t k ih => exact fun r => ih r (h r)

theorem ReadFree.transaction : (Prog.transaction t : Prog σ τ ρ ω ε ρ).ReadFree := fun _ => trivial

/-- The call has thrown. -/
def Failed : Prog σ τ ρ ω ε α → Prop
  | .throw _ => True
  | .ret _ | .read _ | .txn _ _ => False

instance : DecidablePred (Failed : Prog σ τ ρ ω ε α → Prop)
  | .throw _ => inferInstanceAs (Decidable True)
  | .ret _ | .read _ | .txn _ _ => inferInstanceAs (Decidable False)

end Prog

/-! ## Pools -/

theorem sum_set_int {β : Type*} {l : List β} {i : ℕ} {a b : β} (f : β → ℤ) (h : l[i]? = some a) :
    ((l.set i b).map f).sum = (l.map f).sum + (f b - f a) := by
  obtain ⟨hi, ha⟩ := List.getElem?_eq_some_iff.1 h
  have hi' : i < (l.map f).length := by rwa [List.length_map]
  rw [List.map_set, List.sum_set', dif_pos hi', List.getElem_map, ha]
  omega

theorem le_sum_int {β : Type*} {l : List β} {a : β} (f : β → ℤ) (hf : ∀ b ∈ l, 0 ≤ f b) (ha : a ∈ l) :
    f a ≤ (l.map f).sum := by
  refine List.single_le_sum (fun x hx => ?_) _ (List.mem_map_of_mem ha)
  obtain ⟨b, hb, rfl⟩ := List.mem_map.1 hx
  exact hf b hb

namespace Pool

variable {start : κ → Prog σ τ ρ ω ε α} {p : Pool κ σ τ ρ ω ε α} {m : Move κ ω}

/-- The call that has a transaction executed, with its oracle and the transaction. -/
def acting (p : Pool κ σ τ ρ ω ε α) : Move κ ω → Option (Thread κ σ τ ρ ω ε α × ω × τ)
  | .call _ => none
  | .go i o =>
    match p.threads[i]? with
    | some ⟨c, l, .txn t k⟩ => some (⟨c, l, .txn t k⟩, o, t)
    | _ => none

/-- No call has anything to read. -/
def ReadFree (p : Pool κ σ τ ρ ω ε α) : Prop := ∀ th ∈ p.threads, th.prog.ReadFree

/-- **What a move of calls without reads does.** -/
theorem ReadFree.step_cases (h : p.ReadFree) (start : κ → Prog σ τ ρ ω ε α) (exec : ω → τ → σ → σ × ρ)
    (m : Move κ ω) :
    (∃ c, p.acting m = none ∧ p.step start exec m = { p with threads := p.threads ++ [⟨c, [], start c⟩] }) ∨
    (p.acting m = none ∧ p.step start exec m = p) ∨
    ∃ i o c l t k, p.threads[i]? = some ⟨c, l, .txn t k⟩ ∧ p.acting m = some (⟨c, l, .txn t k⟩, o, t) ∧
      p.step start exec m = ⟨(exec o t p.db).1, p.threads.set i
        ⟨c, l ++ [(t, (exec o t p.db).2)], k (exec o t p.db).2⟩⟩ := by
  cases m with
  | call c => exact .inl ⟨c, rfl, rfl⟩
  | go i o =>
    cases hi : p.threads[i]? with
    | none => exact .inr (.inl ⟨by simp [acting, hi], by simp [Pool.step, hi]⟩)
    | some th =>
      obtain ⟨c, l, q⟩ := th
      cases q with
      | ret a | throw e => exact .inr (.inl ⟨by simp [acting, hi], by simp [Pool.step, hi, goStep]⟩)
      | read f => exact (h _ (List.mem_of_getElem? hi)).elim
      | txn t k =>
        exact .inr (.inr ⟨i, o, c, l, t, k, hi, by simp [acting, hi], by simp [Pool.step, hi, goStep]⟩)

theorem ReadFree.step (h : p.ReadFree) (hstart : ∀ c, (start c).ReadFree) : (p.step start exec m).ReadFree := by
  obtain ⟨c, -, hp⟩ | ⟨-, hp⟩ | ⟨i, o, c, l, t, k, hi, -, hp⟩ := h.step_cases start exec m
  · rw [hp]
    intro th hth
    rcases List.mem_append.1 hth with hth | hth
    · exact h th hth
    · obtain rfl := List.mem_singleton.1 hth
      exact hstart c
  · rwa [hp]
  · rw [hp]
    intro th hth
    rcases List.mem_or_eq_of_mem_set hth with hth | rfl
    · exact h th hth
    · exact h _ (List.mem_of_getElem? hi) _

end Pool

end ChronoSynth

import Mathlib.Data.List.Basic
import Mathlib.Order.Nat
import Mathlib.Tactic.Push
import Mathlib.Tactic.Tauto

/-!
# Breadth-first search by layers

A node is **reached** from the start in `n` steps by a path all of whose nodes between its ends are open (`Reaches`).
A search that goes through the nodes layer by layer keeps what it has seen and the frontier, the open nodes of the last
layer (`Layer`). The frontier of the next layer are the open ones among the neighbours it has not seen (`Layer.next`),
so that after `d` rounds the search has seen what is reached in at most `d` steps.
-/

namespace ChronoSynth

variable {α : Type*} (adj : α → α → Prop) (opens : α → Prop) (start : α)

inductive Reaches : ℕ → α → Prop
  | start : Reaches 0 start
  | step {n : ℕ} {b c : α} (h : Reaches n b) (hb : n = 0 ∨ opens b) (hc : adj b c) : Reaches (n + 1) c

/-- What a search has seen after `d` rounds, and the frontier it goes on from. -/
structure Layer (d : ℕ) (seen frontier : List α) : Prop where
  seen : ∀ x, x ∈ seen ↔ ∃ n ≤ d, Reaches adj opens start n x
  frontier : ∀ x, x ∈ frontier ↔
    Reaches adj opens start d x ∧ (∀ n < d, ¬ Reaches adj opens start n x) ∧ (d = 0 ∨ opens x)

variable {adj opens start} {d : ℕ} {seen frontier fresh opened : List α} {x : α}

theorem reaches_zero : Reaches adj opens start 0 x ↔ x = start := by
  constructor
  · intro h
    cases h
    rfl
  · rintro rfl
    exact .start

theorem Layer.zero : Layer adj opens start 0 [start] [start] where
  seen x := by
    rw [List.mem_singleton]
    exact ⟨fun h => ⟨0, le_rfl, reaches_zero.2 h⟩, fun ⟨n, hn, h⟩ => reaches_zero.1 (Nat.le_zero.1 hn ▸ h)⟩
  frontier x := by
    rw [List.mem_singleton, reaches_zero]
    exact ⟨fun h => ⟨h, nofun, .inl rfl⟩, And.left⟩

theorem Layer.reaches_succ (h : Layer adj opens start d seen frontier) :
    (∃ n ≤ d + 1, Reaches adj opens start n x) ↔ x ∈ seen ∨ ∃ b ∈ frontier, adj b x := by
  constructor
  · rintro ⟨n, hn, hx⟩
    rcases Nat.le_or_eq_of_le_succ hn with hle | rfl
    · exact .inl ((h.seen x).2 ⟨n, hle, hx⟩)
    · cases hx with
      | @step _ b _ hb hopen hadj =>
        by_cases hfirst : ∀ m < d, ¬ Reaches adj opens start m b
        · exact .inr ⟨b, (h.frontier b).2 ⟨hb, hfirst, hopen⟩, hadj⟩
        · -- its predecessor has been reached before, and so has it
          push Not at hfirst
          obtain ⟨m, hm, hbm⟩ := hfirst
          refine .inl ((h.seen x).2 ⟨m + 1, hm, .step hbm (hopen.imp_left fun h0 => ?_) hadj⟩)
          omega
  · rintro (hx | ⟨b, hb, hadj⟩)
    · obtain ⟨n, hn, hreach⟩ := (h.seen x).1 hx
      exact ⟨n, Nat.le_succ_of_le hn, hreach⟩
    · obtain ⟨hreach, -, hopen⟩ := (h.frontier b).1 hb
      exact ⟨d + 1, le_rfl, .step hreach hopen hadj⟩

/-- **The round.** -/
theorem Layer.next (h : Layer adj opens start d seen frontier)
    (hfresh : ∀ x, x ∈ fresh ↔ x ∉ seen ∧ ∃ b ∈ frontier, adj b x) (hopened : ∀ x, x ∈ opened ↔ x ∈ fresh ∧ opens x) :
    Layer adj opens start (d + 1) (seen ++ fresh) opened where
  seen x := by
    rw [h.reaches_succ, List.mem_append, hfresh]
    tauto
  frontier x := by
    rw [hopened, hfresh]
    have hseen : x ∉ seen ↔ ∀ n < d + 1, ¬ Reaches adj opens start n x := by
      rw [h.seen]
      simp [Nat.lt_succ_iff]
    rw [hseen]
    constructor
    · rintro ⟨⟨hnot, b, hb, hadj⟩, hopen⟩
      obtain ⟨hreach, -, hb'⟩ := (h.frontier b).1 hb
      exact ⟨.step hreach hb' hadj, hnot, .inr hopen⟩
    · rintro ⟨hreach, hnot, hopen⟩
      refine ⟨⟨hnot, ?_⟩, hopen.resolve_left (Nat.succ_ne_zero d)⟩
      have hor := h.reaches_succ.1 ⟨d + 1, le_rfl, hreach⟩
      exact hor.resolve_left (hseen.2 hnot)

theorem Layer.stop (h : Layer adj opens start d seen []) (k : ℕ) : Layer adj opens start (d + k) seen [] := by
  induction k with
  | zero => exact h
  | succ k ih =>
    have hnext := @Layer.next _ _ _ _ _ _ _ [] [] ih (fun x => by simp) (fun x => by simp)
    rw [List.append_nil] at hnext
    exact hnext

end ChronoSynth

import Mathlib.Data.List.Basic
import Mathlib.Data.List.Infix

/-!
# Runs of a step function

A deterministic system is a function `step : σ → ε → σ`; whatever is left open (the order of the
parties, the outcome of a tie, the clock) is part of the label `ε`. A **run** from `s` under the
labels `es` is the left fold of `step`.

* `Always step P s es` — `P` holds in every state the run passes through;
* `Along step C s es` — every step of the run meets the condition `C`, read off the state before
  the step and the label;
* `Always.of_step` — the induction, packaged once: what holds at the start and is kept by every
  step that meets `C` holds always;
* `always_iff_along` — the **exactness rule**: when in addition a step that violates `C` is seen to
  violate `P` in the state it leads to, `P` holds along a run exactly when `C` does;
* `Between step C R s es` — `R` relates any two states with only steps between them that meet `C`;
* `noting step note` — the system with a **history** written beside it, which the steps do not read.
-/

namespace ChronoSynth

variable {σ ε : Type*}

/-- The state a run reaches. -/
def run (step : σ → ε → σ) (s : σ) (es : List ε) : σ := es.foldl step s

/-- `P` holds in every state the run passes through, its first and its last included. -/
def Always (step : σ → ε → σ) (P : σ → Prop) (s : σ) (es : List ε) : Prop :=
  ∀ pre, pre <+: es → P (run step s pre)

/-- Every step of the run meets `C`, a condition on the state before it and on its label. -/
def Along (step : σ → ε → σ) (C : σ → ε → Prop) (s : σ) (es : List ε) : Prop :=
  ∀ pre e, pre ++ [e] <+: es → C (run step s pre) e

variable {step : σ → ε → σ} {P Q I : σ → Prop} {C D : σ → ε → Prop} {s : σ} {e : ε} {es : List ε}

@[simp] theorem run_nil : run step s [] = s := rfl

@[simp] theorem run_cons : run step s (e :: es) = run step (step s e) es := rfl

@[simp] theorem run_append {es' : List ε} :
    run step s (es ++ es') = run step (run step s es) es' := by
  simp [run]

theorem run_snoc : run step s (es ++ [e]) = step (run step s es) e := by
  simp

/-! ## Along every step -/

theorem Along.restrict {es' : List ε} (h : Along step C s es) (hp : es' <+: es) :
    Along step C s es' :=
  fun pre e hpre => h pre e (hpre.trans hp)

theorem Along.mono (h : Along step C s es) (hCD : ∀ s e, C s e → D s e) : Along step D s es :=
  fun pre e hpre => hCD _ _ (h pre e hpre)

theorem Along.last (h : Along step C s (es ++ [e])) : C (run step s es) e :=
  h es e (List.prefix_refl _)

@[simp] theorem along_nil : Along step C s [] := by
  intro pre e h
  simp at h

/-- A run meets `C` when its all but last steps do and its last does. -/
theorem along_snoc :
    Along step C s (es ++ [e]) ↔ Along step C s es ∧ C (run step s es) e := by
  constructor
  · intro h
    exact ⟨h.restrict (List.prefix_append _ _), h.last⟩
  · rintro ⟨h, he⟩ pre e' hpre
    rcases List.prefix_concat_iff.1 hpre with heq | hlt
    · obtain ⟨rfl, rfl⟩ := List.append_inj' heq rfl |>.imp_right List.cons_eq_cons.1
        |>.imp_right And.left
      exact he
    · exact h pre e' hlt

theorem along_cons : Along step C s (e :: es) ↔ C s e ∧ Along step C (step s e) es := by
  constructor
  · intro h
    exact ⟨h [] e (by simp), fun pre e' hpre => h (e :: pre) e' (by simpa using hpre)⟩
  · rintro ⟨he, h⟩ pre e' hpre
    cases pre with
    | nil =>
      obtain rfl : e' = e := by simpa using hpre
      exact he
    | cons e₀ pre =>
      obtain ⟨rfl, hpre'⟩ := List.cons_prefix_cons.1 hpre
      exact h pre e' hpre'

theorem along_append {es' : List ε} :
    Along step C s (es ++ es') ↔ Along step C s es ∧ Along step C (run step s es) es' := by
  induction es generalizing s with
  | nil => exact (and_iff_right along_nil).symm
  | cons e es ih => rw [List.cons_append, along_cons, along_cons, ih, run_cons, and_assoc]

/-- Whether the steps of a run meet a condition can be found out by running it. -/
instance Along.decidable [∀ s e, Decidable (C s e)] : ∀ s es, Decidable (Along step C s es)
  | _, [] => isTrue along_nil
  | s, e :: es =>
    have := Along.decidable (step s e) es
    decidable_of_iff _ along_cons.symm

/-! ## In every state -/

theorem Always.mono (h : Always step P s es) (hPQ : ∀ s, P s → Q s) : Always step Q s es :=
  fun pre hpre => hPQ _ (h pre hpre)

theorem Always.restrict {es' : List ε} (h : Always step P s es) (hp : es' <+: es) :
    Always step P s es' :=
  fun pre hpre => h pre (hpre.trans hp)

theorem Always.init (h : Always step P s es) : P s := h [] (List.nil_prefix)

theorem Always.last (h : Always step P s es) : P (run step s es) := h es (List.prefix_refl _)

theorem always_snoc :
    Always step P s (es ++ [e]) ↔ Always step P s es ∧ P (step (run step s es) e) := by
  constructor
  · intro h
    refine ⟨h.restrict (List.prefix_append _ _), ?_⟩
    simpa using h.last
  · rintro ⟨h, he⟩ pre hpre
    rcases List.prefix_concat_iff.1 hpre with rfl | hlt
    · simpa using he
    · exact h pre hlt

/-- **The invariant rule.** What holds at the start and is kept by every step that meets `C` holds
in every state of a run whose steps all meet `C`. -/
theorem Always.of_step (h0 : I s) (keep : ∀ s e, I s → C s e → I (step s e))
    (hC : Along step C s es) : Always step I s es := by
  induction es using List.reverseRecOn with
  | nil =>
    intro pre hpre
    obtain rfl := List.prefix_nil.1 hpre
    exact h0
  | append_singleton es e ih =>
    obtain ⟨hes, he⟩ := along_snoc.1 hC
    have hI := ih hes
    exact always_snoc.2 ⟨hI, keep _ _ hI.last he⟩

theorem Always.of_inductive (h0 : I s) (keep : ∀ s e, I s → I (step s e)) :
    Always step I s es :=
  Always.of_step (C := fun _ _ => True) h0 (fun s e hI _ => keep s e hI)
    (fun _ _ _ => trivial)

/-- **The exactness rule.** If `I` implies `P`, is kept by every step that meets `C`, and a step
from an `I`-state into a `P`-state must have met `C`, then along any run from an `I`-state `P`
always holds exactly when every step meets `C`. -/
theorem always_iff_along (h0 : I s) (hIP : ∀ s, I s → P s)
    (keep : ∀ s e, I s → C s e → I (step s e))
    (need : ∀ s e, I s → P (step s e) → C s e) :
    Always step P s es ↔ Along step C s es := by
  refine ⟨fun hP => ?_, fun hC => (Always.of_step h0 keep hC).mono hIP⟩
  -- by induction on the run, its prefix meets `C`, so `I` holds before its last step
  induction es using List.reverseRecOn with
  | nil => exact along_nil
  | append_singleton es e ih =>
    obtain ⟨hes, he⟩ := always_snoc.1 hP
    have hC := ih hes
    have hI : I (run step s es) := (Always.of_step h0 keep hC).last
    exact along_snoc.2 ⟨hC, need _ _ hI he⟩

/-- **The exactness rule with a condition on the steps.** When the steps are to keep `R` besides, both hold
along a run exactly when every step meets `C`. -/
theorem always_and_along_iff {R : σ → ε → Prop} (h0 : I s) (hIP : ∀ s, I s → P s)
    (keep : ∀ s e, I s → C s e → I (step s e) ∧ R s e)
    (need : ∀ s e, I s → P (step s e) → R s e → C s e) :
    (Always step P s es ∧ Along step R s es) ↔ Along step C s es := by
  have hkeep : ∀ s e, I s → C s e → I (step s e) := fun s e hI hC => (keep s e hI hC).1
  constructor
  · rintro ⟨hP, hR⟩
    induction es using List.reverseRecOn with
    | nil => exact along_nil
    | append_singleton es e ih =>
      obtain ⟨hPs, hPe⟩ := always_snoc.1 hP
      obtain ⟨hRs, hRe⟩ := along_snoc.1 hR
      have hC := ih hPs hRs
      have hI : I (run step s es) := (Always.of_step h0 hkeep hC).last
      exact along_snoc.2 ⟨hC, need _ _ hI hPe hRe⟩
  · intro hC
    have hI : Always step I s es := Always.of_step h0 hkeep hC
    refine ⟨hI.mono hIP, fun pre e hpre => ?_⟩
    exact (keep _ _ (hI pre ((List.prefix_append _ _).trans hpre)) (hC pre e hpre)).2

/-- Two conditions on the steps that agree wherever `I` holds agree along a run that keeps `I`. -/
theorem Along.congr (hI : Always step I s es) (h : ∀ s e, I s → (C s e ↔ D s e)) :
    Along step C s es ↔ Along step D s es := by
  have hpre : ∀ pre e, pre ++ [e] <+: es → I (run step s pre) := fun pre e hp =>
    hI pre ((List.prefix_append pre [e]).trans hp)
  exact ⟨fun hC pre e hp => (h _ e (hpre pre e hp)).1 (hC pre e hp),
    fun hD pre e hp => (h _ e (hpre pre e hp)).2 (hD pre e hp)⟩

theorem along_forall {ι : Type*} {C : ι → σ → ε → Prop} :
    (∀ i, Along step (C i) s es) ↔ Along step (fun s e => ∀ i, C i s e) s es :=
  ⟨fun h pre e hp i => h i pre e hp, fun h i pre e hp => h pre e hp i⟩

/-! ## Between two states -/

/-- Whenever all steps between two states of the run meet `C`, the two are related by `R`. -/
def Between (step : σ → ε → σ) (C : σ → ε → Prop) (R : σ → σ → Prop) (s : σ) (es : List ε) :
    Prop :=
  ∀ pre mid, pre ++ mid <+: es → Along step C (run step s pre) mid →
    R (run step s pre) (run step s (pre ++ mid))

/-- A relation that is reflexive and transitive holds between the states of a run exactly when every
step that meets `C` keeps to it. -/
theorem between_iff_along {R : σ → σ → Prop} (refl : ∀ s, R s s)
    (trans : ∀ s s' s'', R s s' → R s' s'' → R s s'') :
    Between step C R s es ↔ Along step (fun s e => C s e → R s (step s e)) s es := by
  constructor
  · intro h pre e hpre hC
    have hone : Along step C (run step s pre) [e] := by
      rw [← List.nil_append [e], along_snoc]
      exact ⟨along_nil, hC⟩
    simpa using h pre [e] hpre hone
  · intro h pre mid hpre hC
    -- by induction on the steps in between
    induction mid using List.reverseRecOn with
    | nil => simpa using refl _
    | append_singleton mid e ih =>
      obtain ⟨hmid, he⟩ := along_snoc.1 hC
      rw [← List.append_assoc] at hpre ⊢
      have hR := ih ((List.prefix_append _ _).trans hpre) hmid
      rw [run_snoc]
      rw [← run_append] at he
      exact trans _ _ _ hR (h _ e hpre he)

/-! ## Histories -/

section
variable {η : Type*}

/-- The system with a history: each step is noted beside the state and does not depend on it. -/
def noting (step : σ → ε → σ) (note : σ → η → ε → η) (x : σ × η) (e : ε) : σ × η :=
  (step x.1 e, note x.1 x.2 e)

@[simp] theorem run_noting {note : σ → η → ε → η} {x : σ × η} :
    (run (noting step note) x es).1 = run step x.1 es := by
  induction es generalizing x with
  | nil => rfl
  | cons e es ih => rw [run_cons, run_cons, ih, noting]

/-- A history changes nothing about what always holds of the states. -/
theorem always_noting {note : σ → η → ε → η} {h : η} :
    Always (noting step note) (fun x => P x.1) (s, h) es ↔ Always step P s es := by
  refine forall_congr' fun pre => imp_congr_right fun _ => ?_
  change P (run (noting step note) (s, h) pre).1 ↔ _
  rw [run_noting]

/-- What always holds of the states holds of them beside a history. -/
theorem Always.noting {note : σ → η → ε → η} {h : η} (hP : Always step P s es) :
    Always (noting step note) (fun x => P x.1) (s, h) es :=
  always_noting.2 hP

end

/-!
## Restarts

A machine answers operations (`answers`). Two states are `Alike` if no operations tell them apart, which a
bisimulation shows; a state survives a restart if what is loaded from its text is alike to it.
-/

section

variable {σ ι α : Type*} {step : σ → ι → σ × α} {s s' s'' : σ}

/-- The answers to a sequence of operations. -/
def answers (step : σ → ι → σ × α) : σ → List ι → List α
  | _, [] => []
  | s, i :: is => (step s i).2 :: answers step (step s i).1 is

/-- No operations tell the two states apart. -/
def Alike (step : σ → ι → σ × α) (s s' : σ) : Prop := ∀ is, answers step s is = answers step s' is

theorem Alike.refl : Alike step s s := fun _ => rfl

/-- **The bisimulation rule.** -/
theorem alike_of_bisimulation {R : σ → σ → Prop}
    (h : ∀ s s' i, R s s' → (step s i).2 = (step s' i).2 ∧ R (step s i).1 (step s' i).1) (hs : R s s') :
    Alike step s s' := by
  intro is
  induction is generalizing s s' with
  | nil => rfl
  | cons i is ih =>
    obtain ⟨ha, hR⟩ := h s s' i hs
    rw [answers, answers, ha, ih hR]

end

end ChronoSynth

import Mathlib.Data.List.Basic

/-!
# Clients of a store

A **client** calls a store and gets answers; a call that throws gives it none. What it does next may depend on
every answer so far. Some of its calls it makes in a transaction (`Block`), which it leaves with success or by
throwing; then the store is what it was before.

A store is a function `step`: the state after a call and the answer, if there is one. What a client sees of a
store is the list of its events.

`events_eq_iff` is the rule for two stores: where related states tell whether a call is answered alike, and stay
related if it is, a client sees the same in both exactly when every call it makes is answered alike.
-/

namespace ChronoSynth

/-- A transaction of a client. -/
inductive Block (κ α : Type*)
  | leave (ok : Bool)
  | call (c : κ) (k : Option α → Block κ α)

inductive Client (κ α : Type*)
  | done
  | call (c : κ) (k : Option α → Client κ α)
  | transaction (body : Block κ α) (k : Bool → Client κ α)

/-- What a client sees. -/
inductive Event (α : Type*)
  | call (answer : Option α)
  | transaction (answers : List (Option α)) (ok : Bool)

variable {κ α σ τ : Type*}

section
variable (step : κ → σ → σ × Option α)

/-- The state after the calls of a block, their answers, and whether the block was left with success. -/
def Block.run : Block κ α → σ → σ × List (Option α) × Bool
  | .leave ok, s => (s, [], ok)
  | .call c k, s =>
    let r := step c s
    let r' := (k r.2).run r.1
    (r'.1, r.2 :: r'.2.1, r'.2.2)

def Block.after (body : Block κ α) (s : σ) : σ :=
  let r := body.run step s
  if r.2.2 then r.1 else s

/-- The state after a client is done, and what it saw. -/
def Client.run : Client κ α → σ → σ × List (Event α)
  | .done, s => (s, [])
  | .call c k, s =>
    let r := step c s
    let r' := (k r.2).run r.1
    (r'.1, .call r.2 :: r'.2)
  | .transaction body k, s =>
    let r := body.run step s
    let r' := (k r.2.2).run (body.after step s)
    (r'.1, .transaction r.2.1 r.2.2 :: r'.2)

/-- Every call of a block meets a condition on the state it finds. -/
def Block.Meets (C : σ → κ → Prop) : Block κ α → σ → Prop
  | .leave _, _ => True
  | .call c k, s => C s c ∧ (k (step c s).2).Meets C (step c s).1

/-- Every call of a client does. -/
def Client.Meets (C : σ → κ → Prop) : Client κ α → σ → Prop
  | .done, _ => True
  | .call c k, s => C s c ∧ (k (step c s).2).Meets C (step c s).1
  | .transaction body k, s =>
    body.Meets step C s ∧ (k (body.run step s).2.2).Meets C (body.after step s)

end

/-! ## One store -/

section
variable {step : κ → σ → σ × Option α} {C D : σ → κ → Prop}

theorem Block.meets_and {body : Block κ α} {s : σ} :
    body.Meets step (fun s c => C s c ∧ D s c) s ↔ body.Meets step C s ∧ body.Meets step D s := by
  induction body generalizing s with
  | leave ok => simp [Meets]
  | call c k ih =>
    simp only [Meets, ih]
    exact and_and_and_comm

theorem Client.meets_and {client : Client κ α} {s : σ} :
    client.Meets step (fun s c => C s c ∧ D s c) s ↔ client.Meets step C s ∧ client.Meets step D s := by
  induction client generalizing s with
  | done => simp [Meets]
  | call c k ih =>
    simp only [Meets, ih]
    exact and_and_and_comm
  | transaction body k ih =>
    simp only [Meets, ih, Block.meets_and]
    exact and_and_and_comm

theorem Block.meets_of_forall (h : ∀ s c, C s c) {body : Block κ α} {s : σ} : body.Meets step C s := by
  induction body generalizing s with
  | leave ok => trivial
  | call c k ih => exact ⟨h s c, ih _⟩

theorem Client.meets_of_forall (h : ∀ s c, C s c) {client : Client κ α} {s : σ} : client.Meets step C s := by
  induction client generalizing s with
  | done => trivial
  | call c k ih => exact ⟨h s c, ih _⟩
  | transaction body k ih => exact ⟨Block.meets_of_forall h, ih _⟩

theorem Client.meets_congr (h : ∀ s c, C s c ↔ D s c) {client : Client κ α} {s : σ} :
    client.Meets step C s ↔ client.Meets step D s := by
  obtain rfl : C = D := funext fun s => funext fun c => propext (h s c)
  exact Iff.rfl

end

/-! ## Two stores -/

section
variable {stepA : κ → σ → σ × Option α} {stepB : κ → τ → τ × Option α} {R : σ → τ → Prop}
  {C : τ → κ → Prop}

/-- Related states tell by `C` whether a call is answered alike, and then stay related. -/
structure AlikeUnder (stepA : κ → σ → σ × Option α) (stepB : κ → τ → τ × Option α) (R : σ → τ → Prop)
    (C : τ → κ → Prop) : Prop where
  answer : ∀ s t c, R s t → ((stepA c s).2 = (stepB c t).2 ↔ C t c)
  state : ∀ s t c, R s t → C t c → R (stepA c s).1 (stepB c t).1

theorem Block.run_eq_iff (h : AlikeUnder stepA stepB R C) {body : Block κ α} {s : σ} {t : τ} (hR : R s t) :
    (body.run stepA s).2.1 = (body.run stepB t).2.1 ↔ body.Meets stepB C t := by
  induction body generalizing s t with
  | leave ok => simp [run, Meets]
  | call c k ih =>
    simp only [run, Meets, List.cons.injEq, h.answer s t c hR]
    refine and_congr_right fun hC => ?_
    rw [(h.answer s t c hR).2 hC]
    exact ih _ (h.state s t c hR hC)

theorem Block.run_of_meets (h : AlikeUnder stepA stepB R C) {body : Block κ α} {s : σ} {t : τ} (hR : R s t)
    (hC : body.Meets stepB C t) :
    (body.run stepA s).2.2 = (body.run stepB t).2.2 ∧ R (body.run stepA s).1 (body.run stepB t).1 := by
  induction body generalizing s t with
  | leave ok => exact ⟨rfl, hR⟩
  | call c k ih =>
    simp only [run]
    rw [(h.answer s t c hR).2 hC.1]
    exact ih _ (h.state s t c hR hC.1) hC.2

theorem Block.after_of_meets (h : AlikeUnder stepA stepB R C) {body : Block κ α} {s : σ} {t : τ} (hR : R s t)
    (hC : body.Meets stepB C t) : R (body.after stepA s) (body.after stepB t) := by
  obtain ⟨hok, hR'⟩ := run_of_meets h hR hC
  simp only [after, hok]
  split_ifs
  · exact hR'
  · exact hR

/-- **Two stores.** A client sees the same in both exactly when every call it makes is answered alike. -/
theorem Client.events_eq_iff (h : AlikeUnder stepA stepB R C) {client : Client κ α} {s : σ} {t : τ}
    (hR : R s t) : (client.run stepA s).2 = (client.run stepB t).2 ↔ client.Meets stepB C t := by
  induction client generalizing s t with
  | done => simp [run, Meets]
  | call c k ih =>
    simp only [run, Meets, List.cons.injEq, Event.call.injEq, h.answer s t c hR]
    refine and_congr_right fun hC => ?_
    rw [(h.answer s t c hR).2 hC]
    exact ih _ (h.state s t c hR hC)
  | transaction body k ih =>
    simp only [run, Meets, List.cons.injEq, Event.transaction.injEq, Block.run_eq_iff h hR]
    constructor
    · rintro ⟨⟨hC, hok⟩, htail⟩
      rw [hok] at htail
      exact ⟨hC, (ih _ (Block.after_of_meets h hR hC)).1 htail⟩
    · rintro ⟨hC, htail⟩
      have hok := (Block.run_of_meets h hR hC).1
      refine ⟨⟨hC, hok⟩, ?_⟩
      rw [hok]
      exact (ih _ (Block.after_of_meets h hR hC)).2 htail

/-- And then the states it leaves are related. -/
theorem Client.run_of_meets (h : AlikeUnder stepA stepB R C) {client : Client κ α} {s : σ} {t : τ} (hR : R s t)
    (hC : client.Meets stepB C t) : R (client.run stepA s).1 (client.run stepB t).1 := by
  induction client generalizing s t with
  | done => exact hR
  | call c k ih =>
    simp only [run]
    rw [(h.answer s t c hR).2 hC.1]
    exact ih _ (h.state s t c hR hC.1) hC.2
  | transaction body k ih =>
    simp only [run]
    rw [(Block.run_of_meets h hR hC.1).1]
    exact ih _ (Block.after_of_meets h hR hC.1) hC.2

variable {D : σ → κ → Prop} {E : τ → κ → Prop}

theorem Block.meets_left (h : AlikeUnder stepA stepB R C) (hD : ∀ s t c, R s t → C t c → E t c → D s c)
    {body : Block κ α} {s : σ} {t : τ} (hR : R s t) (hC : body.Meets stepB C t) (hE : body.Meets stepB E t) :
    body.Meets stepA D s := by
  induction body generalizing s t with
  | leave ok => trivial
  | call c k ih =>
    refine ⟨hD s t c hR hC.1 hE.1, ?_⟩
    rw [(h.answer s t c hR).2 hC.1]
    exact ih _ (h.state s t c hR hC.1) hC.2 hE.2

theorem Client.meets_left (h : AlikeUnder stepA stepB R C) (hD : ∀ s t c, R s t → C t c → E t c → D s c)
    {client : Client κ α} {s : σ} {t : τ} (hR : R s t) (hC : client.Meets stepB C t)
    (hE : client.Meets stepB E t) : client.Meets stepA D s := by
  induction client generalizing s t with
  | done => trivial
  | call c k ih =>
    refine ⟨hD s t c hR hC.1 hE.1, ?_⟩
    rw [(h.answer s t c hR).2 hC.1]
    exact ih _ (h.state s t c hR hC.1) hC.2 hE.2
  | transaction body k ih =>
    refine ⟨Block.meets_left h hD hR hC.1 hE.1, ?_⟩
    rw [(Block.run_of_meets h hR hC.1).1]
    exact ih _ (Block.after_of_meets h hR hC.1) hC.2 hE.2

end

end ChronoSynth

import Mathlib.Order.Defs.Unbundled

/-!
# Service methods: state and exceptions

A service method that runs without interruption is a program over the database that may throw; an
exception does not undo what was written before it, unless the writes are in a `transaction`.

`Ensures p s Q` is the weakest precondition at `s`: `p` run from `s` ends so that its result and the
database are related by `Q`. One rule for each construct; together they run a method symbolically.
`Keeps R p` says that `R` relates what `p` finds to what it leaves.
-/

namespace ChronoSynth

variable {ε σ α β : Type}

namespace Service

/-- Throws unless the condition holds. -/
def require (c : Prop) [Decidable c] (e : ε) : EStateM ε σ Unit := if c then pure () else throw e

/-- Writes all or nothing. -/
def transaction (p : EStateM ε σ α) : EStateM ε σ α := fun s =>
  match p s with
  | .ok a s' => .ok a s'
  | .error e _ => .error e s

/-- Run from the state, the program ends so that `Q` holds. -/
def Ensures (p : EStateM ε σ α) (s : σ) (Q : Except ε α → σ → Prop) : Prop :=
  match p s with
  | .ok a s' => Q (.ok a) s'
  | .error e s' => Q (.error e) s'

variable {p : EStateM ε σ α} {f : α → EStateM ε σ β} {s : σ} {Q Q' : Except ε α → σ → Prop}
  {R : Except ε β → σ → Prop}

theorem Ensures.mono (h : Ensures p s Q) (hQ : ∀ r s', Q r s' → Q' r s') : Ensures p s Q' := by
  unfold Ensures at h ⊢
  split
  next heq => exact hQ _ _ (by rwa [heq] at h)
  next heq => exact hQ _ _ (by rwa [heq] at h)

/-- A program has one outcome. -/
theorem Ensures.and (h : Ensures p s Q) (h' : Ensures p s Q') :
    Ensures p s fun r s' => Q r s' ∧ Q' r s' := by
  unfold Ensures at h h' ⊢
  split
  next heq => exact ⟨by rwa [heq] at h, by rwa [heq] at h'⟩
  next heq => exact ⟨by rwa [heq] at h, by rwa [heq] at h'⟩

@[simp] theorem ensures_pure {a : α} : Ensures (pure a) s Q ↔ Q (.ok a) s := Iff.rfl

@[simp] theorem ensures_throw {e : ε} : Ensures (throw e) s Q ↔ Q (.error e) s := Iff.rfl

@[simp] theorem ensures_get {Q : Except ε σ → σ → Prop} :
    Ensures (get : EStateM ε σ σ) s Q ↔ Q (.ok s) s := Iff.rfl

@[simp] theorem ensures_set {s₁ : σ} {Q : Except ε PUnit → σ → Prop} :
    Ensures (set s₁ : EStateM ε σ PUnit) s Q ↔ Q (.ok ⟨⟩) s₁ := Iff.rfl

@[simp] theorem ensures_modify {g : σ → σ} {Q : Except ε PUnit → σ → Prop} :
    Ensures (modify g : EStateM ε σ PUnit) s Q ↔ Q (.ok ⟨⟩) (g s) := Iff.rfl

@[simp] theorem ensures_modifyGet {g : σ → α × σ} :
    Ensures (modifyGet g) s Q ↔ Q (.ok (g s).1) (g s).2 := Iff.rfl

/-- **Sequencing**: an exception skips the rest. -/
@[simp] theorem ensures_bind : Ensures (p >>= f) s R ↔ Ensures p s fun r s' =>
    match r with
    | .ok a => Ensures (f a) s' R
    | .error e => R (.error e) s' := by
  unfold Ensures
  change (match EStateM.bind p f s with
    | .ok a s' => R (.ok a) s'
    | .error e s' => R (.error e) s') ↔ _
  unfold EStateM.bind
  cases p s with
  | ok a s' => rfl
  | error e s' => rfl

@[simp] theorem ensures_map {g : α → β} : Ensures (g <$> p) s R ↔ Ensures p s fun r s' =>
    match r with
    | .ok a => R (.ok (g a)) s'
    | .error e => R (.error e) s' := by
  unfold Ensures
  change (match EStateM.map g p s with
    | .ok a s' => R (.ok a) s'
    | .error e s' => R (.error e) s') ↔ _
  unfold EStateM.map
  cases p s with
  | ok a s' => rfl
  | error e s' => rfl

@[simp] theorem ensures_ite {c : Prop} [Decidable c] {q : EStateM ε σ α} :
    Ensures (if c then p else q) s Q ↔ (c → Ensures p s Q) ∧ (¬ c → Ensures q s Q) := by
  split <;> simp_all

@[simp] theorem ensures_require {c : Prop} [Decidable c] {e : ε} {Q : Except ε Unit → σ → Prop} :
    Ensures (require c e) s Q ↔ (c → Q (.ok ()) s) ∧ (¬ c → Q (.error e) s) := by
  simp [require]

@[simp] theorem ensures_transaction : Ensures (transaction p) s Q ↔ Ensures p s fun r s' =>
    match r with
    | .ok a => Q (.ok a) s'
    | .error e => Q (.error e) s := by
  unfold Ensures transaction
  cases p s with
  | ok a s' => rfl
  | error e s' => rfl

/-- **Loops.** What every turn keeps, and a turn that throws leaves, the loop keeps and leaves. -/
theorem ensures_forM {ι : Type} {body : ι → EStateM ε σ PUnit} {items : List ι} (J : List ι → σ → Prop)
    {Q : Except ε PUnit → σ → Prop} (h0 : J items s)
    (hturn : ∀ i rest s, J (i :: rest) s → Ensures (body i) s fun r s' =>
      match r with
      | .ok _ => J rest s'
      | .error e => Q (.error e) s')
    (hend : ∀ s, J [] s → Q (.ok ⟨⟩) s) : Ensures (items.forM body) s Q := by
  induction items generalizing s with
  | nil => exact hend s h0
  | cons i rest ih =>
    rw [List.forM, ensures_bind]
    refine (hturn i rest s h0).mono fun r s' hr => ?_
    cases r with
    | ok a => exact ih hr
    | error e => exact hr

/-! ## What a method keeps -/

/-- However it ends, the program relates the database before it to the one after it by `R`. -/
def Keeps (R : σ → σ → Prop) (p : EStateM ε σ α) : Prop := ∀ s, Ensures p s fun _ s' => R s s'

namespace Keeps

variable {R : σ → σ → Prop}

theorem modify {g : σ → σ} (h : ∀ s, R s (g s)) : Keeps R (modify g : EStateM ε σ PUnit) := h

theorem modifyGet {g : σ → α × σ} (h : ∀ s, R s (g s).2) :
    Keeps R (modifyGet g : EStateM ε σ α) := h

section refl
variable [Std.Refl R]

theorem pure {a : α} : Keeps R (pure a : EStateM ε σ α) := fun s => Std.Refl.refl s

theorem throw {e : ε} : Keeps R (throw e : EStateM ε σ α) := fun s => Std.Refl.refl s

theorem get : Keeps R (get : EStateM ε σ σ) := fun s => Std.Refl.refl s

theorem require {c : Prop} [Decidable c] {e : ε} : Keeps R (require c e : EStateM ε σ Unit) :=
  fun s => by simp [Std.Refl.refl s]

end refl

theorem map {g : α → β} (h : Keeps R p) : Keeps R (g <$> p) := fun s =>
  ensures_map.2 <| (h s).mono fun r s' hr => by cases r <;> exact hr

theorem ite {c : Prop} [Decidable c] {q : EStateM ε σ α} (h : Keeps R p) (h' : Keeps R q) :
    Keeps R (if c then p else q) := by
  split
  · exact h
  · exact h'

theorem transaction [Std.Refl R] (h : Keeps R p) : Keeps R (transaction p) := fun s =>
  ensures_transaction.2 <| (h s).mono fun r s' hr => by
    cases r with
    | ok a => exact hr
    | error e => exact Std.Refl.refl s

variable [IsTrans σ R]

theorem bind (h : Keeps R p) (hf : ∀ a, Keeps R (f a)) : Keeps R (p >>= f) := fun s =>
  ensures_bind.2 <| (h s).mono fun r s' hr => by
    cases r with
    | ok a => exact (hf a s').mono fun _ s'' hs => IsTrans.trans _ _ _ hr hs
    | error e => exact hr

theorem forM [Std.Refl R] {ι : Type} {body : ι → EStateM ε σ PUnit} {items : List ι}
    (h : ∀ i, Keeps R (body i)) : Keeps R (items.forM body) := by
  induction items with
  | nil => exact pure
  | cons i rest ih => exact bind (h i) fun _ => ih

end Keeps

end Service

end ChronoSynth

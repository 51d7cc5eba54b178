import ChronoSynth.Lib.Interleave

/-!
# A call that runs alone

Where calls follow one another, a call (`Prog`) is a transformer of the database (`Prog.solo`).
`Prog.Ensures exec Q p s` is its weakest precondition: whatever the oracles of its steps, the call run from
`s` ends in a result and a database that `Q` relates. The rules follow the constructors; `Ensures.of_uses`
is the invariant rule for calls whose transactions are all of a kind. `Prog.Produces exec Q p s os` is about one run,
with the oracles `os`, and also tells `Q` which of them are left for what follows: there what a later oracle may be can
depend on the earlier ones. `Prog.MayEnd exec Q p s` says that some run does: a property of calls that a run can fail is
refuted with it.
-/

namespace ChronoSynth

namespace Prog

variable {σ τ ρ ω ε α β : Type} {exec : ω → τ → σ → σ × ρ}

/-- Run from the state, the call ends so that `Q` holds. -/
def Ensures (exec : ω → τ → σ → σ × ρ) (Q : Except ε α → σ → Prop) : Prog σ τ ρ ω ε α → σ → Prop
  | .ret a, s => Q (.ok a) s
  | .throw e, s => Q (.error e) s
  | .read f, s => ∀ o, (f o s).Ensures exec Q s
  | .txn t k, s => ∀ o, (k (exec o t s).2).Ensures exec Q (exec o t s).1

variable {p : Prog σ τ ρ ω ε α} {s : σ} {Q Q' : Except ε α → σ → Prop}

/-- **Soundness.** -/
theorem Ensures.solo (h : p.Ensures exec Q s) (os : ℕ → ω) :
    Q (p.solo exec os s).2 (p.solo exec os s).1 := by
  induction p generalizing s os with
  | ret a | throw e => exact h
  | read f ih => exact ih (os 0) s (h (os 0)) _
  | txn t k ih => exact ih _ (h (os 0)) _

theorem Ensures.mono (h : p.Ensures exec Q s) (hQ : ∀ r s, Q r s → Q' r s) :
    p.Ensures exec Q' s := by
  induction p generalizing s with
  | ret a | throw e => exact hQ _ _ h
  | read f ih => exact fun o => ih o s (h o)
  | txn t k ih => exact fun o => ih _ (h o)

/-- **Sequencing.** -/
theorem Ensures.bind {Q : Except ε β → σ → Prop} {g : α → Prog σ τ ρ ω ε β}
    (h : p.Ensures exec (fun r s => match r with
      | .ok a => (g a).Ensures exec Q s
      | .error e => Q (.error e) s) s) :
    (p >>= g).Ensures exec Q s := by
  induction p generalizing s with
  | ret a | throw e => exact h
  | read f ih => exact fun o => ih o s (h o)
  | txn t k ih => exact fun o => ih _ (h o)

theorem ensures_bind_iff {Q : Except ε β → σ → Prop} {g : α → Prog σ τ ρ ω ε β} :
    (p >>= g).Ensures exec Q s ↔ p.Ensures exec (fun r s => match r with
      | .ok a => (g a).Ensures exec Q s
      | .error e => Q (.error e) s) s := by
  refine ⟨fun h => ?_, Ensures.bind⟩
  induction p generalizing s with
  | ret a | throw e => exact h
  | read f ih => exact fun o => ih o s (h o)
  | txn t k ih => exact fun o => ih _ (h o)

/-- **Completeness**: what holds of every run of the call is ensured. -/
theorem ensures_iff_solo [hω : Nonempty ω] :
    p.Ensures exec Q s ↔ ∀ os, Q (p.solo exec os s).2 (p.solo exec os s).1 := by
  refine ⟨Ensures.solo, fun h => ?_⟩
  induction p generalizing s with
  | ret a | throw e =>
    obtain ⟨o⟩ := hω
    exact h fun _ => o
  | read f ih => exact fun o => ih o s fun os => h fun | 0 => o | n + 1 => os n
  | txn t k ih => exact fun o => ih _ fun os => h fun | 0 => o | n + 1 => os n

theorem Ensures.query {Q : Except ε β → σ → Prop} {f : σ → α} {g : α → Prog σ τ ρ ω ε β}
    (h : (g (f s)).Ensures exec Q s) : (Prog.query f >>= g).Ensures exec Q s :=
  fun _ => h

theorem Ensures.queryAny {Q : Except ε β → σ → Prop} {f : ω → σ → α} {g : α → Prog σ τ ρ ω ε β}
    (h : ∀ o, (g (f o s)).Ensures exec Q s) : (Prog.queryAny f >>= g).Ensures exec Q s :=
  h

/-- A first part that keeps `J` however it ends, and a rest that does so from wherever it is. -/
theorem Ensures.seq {J : σ → Prop} {g : α → Prog σ τ ρ ω ε β}
    (h : p.Ensures exec (fun _ => J) s) (hg : ∀ a s, J s → (g a).Ensures exec (fun _ => J) s) :
    (p >>= g).Ensures exec (fun _ => J) s := by
  refine Ensures.bind (h.mono fun r s hs => ?_)
  cases r with
  | ok a => exact hg a s hs
  | error e => exact hs

/-- **The invariant rule.** What every transaction of a kind keeps is kept by a call that uses no
others. -/
theorem Ensures.of_uses {S : τ → Prop} {J : σ → Prop} (h : p.Uses S)
    (keep : ∀ o t s, J s → S t → J (exec o t s).1) (hs : J s) : p.Ensures exec (fun _ => J) s := by
  induction p generalizing s with
  | ret a | throw e => exact hs
  | read f ih => exact fun o => ih o s (h o s) hs
  | txn t k ih => exact fun o => ih _ (h.2 _) (keep o t s hs h.1)

/-! ## One run -/

/-- Run from the state with these oracles, the call ends so that `Q` holds, also of the oracles that are left. -/
def Produces (exec : ω → τ → σ → σ × ρ) (Q : Except ε α → σ → (ℕ → ω) → Prop) :
    Prog σ τ ρ ω ε α → σ → (ℕ → ω) → Prop
  | .ret a, s, os => Q (.ok a) s os
  | .throw e, s, os => Q (.error e) s os
  | .read f, s, os => (f (os 0) s).Produces exec Q s fun n => os (n + 1)
  | .txn t k, s, os => (k (exec (os 0) t s).2).Produces exec Q (exec (os 0) t s).1 fun n => os (n + 1)

section
variable {os : ℕ → ω} {P P' : Except ε α → σ → (ℕ → ω) → Prop}

theorem produces_query {f : σ → β} {g : β → Prog σ τ ρ ω ε α} :
    (query f >>= g).Produces exec P s os ↔ (g (f s)).Produces exec P s fun n => os (n + 1) :=
  Iff.rfl

theorem produces_queryAny {f : ω → σ → β} {g : β → Prog σ τ ρ ω ε α} :
    (queryAny f >>= g).Produces exec P s os ↔ (g (f (os 0) s)).Produces exec P s fun n => os (n + 1) :=
  Iff.rfl

theorem Produces.mono (h : p.Produces exec P s os) (hP : ∀ r s os, P r s os → P' r s os) :
    p.Produces exec P' s os := by
  induction p generalizing s os with
  | ret a | throw e => exact hP _ _ _ h
  | read f ih => exact ih _ _ h
  | txn t k ih => exact ih _ h

theorem Produces.solo (h : p.Produces exec (fun r s _ => Q r s) s os) :
    Q (p.solo exec os s).2 (p.solo exec os s).1 := by
  induction p generalizing s os with
  | ret a | throw e => exact h
  | read f ih => exact ih _ _ h
  | txn t k ih => exact ih _ h

theorem Produces.bind {Q : Except ε β → σ → (ℕ → ω) → Prop} {g : α → Prog σ τ ρ ω ε β}
    (h : p.Produces exec (fun r s os => match r with
      | .ok a => (g a).Produces exec Q s os
      | .error e => Q (.error e) s os) s os) :
    (p >>= g).Produces exec Q s os := by
  induction p generalizing s os with
  | ret a | throw e => exact h
  | read f ih => exact ih _ _ h
  | txn t k ih => exact ih _ h

theorem Ensures.produces (h : p.Ensures exec Q s) (os : ℕ → ω) :
    p.Produces exec (fun r s os' => Q r s ∧ ∃ k, os' = fun n => os (n + k)) s os := by
  induction p generalizing s os with
  | ret a | throw e => exact ⟨h, 0, rfl⟩
  | read f ih =>
    refine (ih _ s (h (os 0)) _).mono ?_
    rintro r s' os' ⟨hQ, k, rfl⟩
    exact ⟨hQ, k + 1, rfl⟩
  | txn t k ih =>
    refine (ih _ (h (os 0)) _).mono ?_
    rintro r s' os' ⟨hQ, k, rfl⟩
    exact ⟨hQ, k + 1, rfl⟩

end

/-! ## Some run -/

/-- For some oracles of its steps the call, run from the state, ends so that `Q` holds. -/
def MayEnd (exec : ω → τ → σ → σ × ρ) (Q : Except ε α → σ → Prop) : Prog σ τ ρ ω ε α → σ → Prop
  | .ret a, s => Q (.ok a) s
  | .throw e, s => Q (.error e) s
  | .read f, s => ∃ o, (f o s).MayEnd exec Q s
  | .txn t k, s => ∃ o, (k (exec o t s).2).MayEnd exec Q (exec o t s).1

section

theorem MayEnd.exists_solo [hω : Nonempty ω] (h : p.MayEnd exec Q s) :
    ∃ os, Q (p.solo exec os s).2 (p.solo exec os s).1 := by
  induction p generalizing s with
  | ret a | throw e =>
    obtain ⟨o⟩ := hω
    exact ⟨fun _ => o, h⟩
  | read f ih =>
    obtain ⟨o, h⟩ := h
    obtain ⟨os, hos⟩ := ih o s h
    exact ⟨fun | 0 => o | n + 1 => os n, hos⟩
  | txn t k ih =>
    obtain ⟨o, h⟩ := h
    obtain ⟨os, hos⟩ := ih _ h
    exact ⟨fun | 0 => o | n + 1 => os n, hos⟩

theorem MayEnd.bind {Q : Except ε β → σ → Prop} {g : α → Prog σ τ ρ ω ε β}
    (h : p.MayEnd exec (fun r s => match r with
      | .ok a => (g a).MayEnd exec Q s
      | .error e => Q (.error e) s) s) :
    (p >>= g).MayEnd exec Q s := by
  induction p generalizing s with
  | ret a | throw e => exact h
  | read f ih =>
    obtain ⟨o, h⟩ := h
    exact ⟨o, ih o s h⟩
  | txn t k ih =>
    obtain ⟨o, h⟩ := h
    exact ⟨o, ih _ h⟩

theorem MayEnd.queryAny {Q : Except ε β → σ → Prop} {f : ω → σ → α} {g : α → Prog σ τ ρ ω ε β} (o : ω)
    (h : (g (f o s)).MayEnd exec Q s) : (Prog.queryAny f >>= g).MayEnd exec Q s :=
  ⟨o, h⟩

theorem Ensures.mayEnd [hω : Nonempty ω] (h : p.Ensures exec Q s) : p.MayEnd exec Q s := by
  induction p generalizing s with
  | ret a | throw e => exact h
  | read f ih =>
    obtain ⟨o⟩ := hω
    exact ⟨o, ih o s (h o)⟩
  | txn t k ih =>
    obtain ⟨o⟩ := hω
    exact ⟨o, ih _ (h o)⟩

end

end Prog

end ChronoSynth

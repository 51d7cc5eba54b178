import ChronoSynth.Lib.Solo
import ChronoSynth.Lib.Traces

/-!
# Calls within calls

A component is used by a system that keeps more than the component's own database: `Prog.embed` makes a call of
the component one of the system, given how the component's database, oracle, commands and replies are found in
the system's. `Prog.attempt` is `try … catch`: the exception of a call becomes its result.

What the transactions of an embedded call are, `Uses.embed` says; `Uses.traces_from` is the rule for calls that are
known by their transactions only, `Traces.embed` takes over what a call keeps to in the component.
-/

namespace ChronoSynth.Prog

variable {σ σ' τ τ' ρ ρ' ω ω' ε δ α β : Type}

/-- The call of a component as a call of a system around it. -/
def embed (db : σ' → σ) (oracle : ω' → σ' → ω) (cmd : τ → τ') (reply : ρ' → ρ) (error : ε → δ) :
    Prog σ τ ρ ω ε α → Prog σ' τ' ρ' ω' δ α
  | .ret a => .ret a
  | .throw e => .throw (error e)
  | .read f => .read fun o s => (f (oracle o s) (db s)).embed db oracle cmd reply error
  | .txn t k => .txn (cmd t) fun r => (k (reply r)).embed db oracle cmd reply error

/-- What the call ends with, an exception included. -/
def attempt : Prog σ τ ρ ω ε α → Prog σ τ ρ ω δ (Except ε α)
  | .ret a => .ret (.ok a)
  | .throw e => .ret (.error e)
  | .read f => .read fun o s => (f o s).attempt
  | .txn t k => .txn t fun r => (k r).attempt

section
variable {p : Prog σ τ ρ ω ε α} {S : τ → Prop}

theorem Uses.embed {db : σ' → σ} {oracle : ω' → σ' → ω} {cmd : τ → τ'} {reply : ρ' → ρ} {error : ε → δ}
    {S' : τ' → Prop} (h : p.Uses S) (hS : ∀ t, S t → S' (cmd t)) :
    (p.embed db oracle cmd reply error).Uses S' := by
  induction p with
  | ret a | throw e => trivial
  | read f ih => exact fun o s => ih _ _ (h _ _)
  | txn t k ih => exact ⟨hS t h.1, fun r => ih _ (h.2 _)⟩

theorem Uses.attempt (h : p.Uses S) : (p.attempt : Prog σ τ ρ ω δ (Except ε α)).Uses S := by
  induction p with
  | ret a | throw e => trivial
  | read f ih => exact fun o s => ih o s (h o s)
  | txn t k ih => exact ⟨h.1, fun r => ih r (h.2 r)⟩

variable {exec : ω → τ → σ → σ × ρ} {D : Discipline σ τ ω} {G : List (τ × ρ) → τ → σ → Prop}
  {l : List (τ × ρ)} {s s₀ : σ}

/-- A call that is tried goes the way it goes. -/
theorem Traces.attempt {Q : List (τ × ρ) → Except δ (Except ε α) → σ → Prop}
    (h : p.Traces D exec G (fun l r s => Q l (.ok r) s) l s) :
    (p.attempt : Prog σ τ ρ ω δ (Except ε α)).Traces D exec G Q l s := by
  induction p generalizing l s with
  | ret a | throw e => exact h
  | read f ih => exact fun s' hs hi o => ih o s' (h s' hs hi o)
  | txn t k ih => exact fun s' hs hi => ⟨(h s' hs hi).1, fun o => ih _ ((h s' hs hi).2 o)⟩

theorem uses_any : p.Uses fun _ => True := by
  induction p with
  | ret a | throw e => trivial
  | read f ih => exact fun o s => ih o s
  | txn t k ih => exact ⟨trivial, fun r => ih r⟩

/-- A call whose transactions are allowed, and extend the database, wherever it may have got to from `s₀`. -/
theorem Uses.traces_from (h : p.Uses S)
    (hS : ∀ l t s', D.ext s₀ s' → D.inv s' → S t → G l t s' ∧ ∀ o, D.ext s' (exec o t s').1)
    (hs : D.ext s₀ s) : p.Traces D exec G (fun _ _ s' => D.ext s₀ s') l s := by
  induction p generalizing l s with
  | ret a | throw e => exact fun s' he _ => D.ext_trans hs he
  | read f ih => exact fun s' he _ o => ih o s' (h o s') (D.ext_trans hs he)
  | txn t k ih =>
    intro s' he hi
    obtain ⟨hg, hx⟩ := hS l t s' (D.ext_trans hs he) hi h.1
    exact ⟨hg, fun o => ih _ (h.2 _) (D.ext_trans (D.ext_trans hs he) (hx o))⟩

/-! ## Parts of a call -/

/-- If the call returns, its value and the database are related by `R`. -/
def Leaves (R : α → σ → Prop) (_ : List (τ × ρ)) (r : Except ε α) (s : σ) : Prop := ∀ a, r = .ok a → R a s

theorem Traces.ret {R : α → σ → Prop} {a : α} (h : ∀ s', D.ext s s' → D.inv s' → R a s') :
    (Prog.ret a : Prog σ τ ρ ω ε α).Traces D exec G (Leaves R) l s := by
  rintro s' hs hi _ ⟨⟩
  exact h s' hs hi

theorem Traces.thrown {R : α → σ → Prop} {e : ε} : (Prog.throw e).Traces D exec G (Leaves R) l s := by
  rintro s' - - a ⟨⟩

/-- What the first part leaves the rest may start from. -/
theorem Traces.seq {R : α → σ → Prop} {R' : β → σ → Prop} {g : α → Prog σ τ ρ ω ε β}
    (h : p.Traces D exec G (Leaves R) l s)
    (hg : ∀ a l' s', R a s' → (g a).Traces D exec G (Leaves R') l' s') : (p >>= g).Traces D exec G (Leaves R') l s := by
  refine Traces.bind (h.mono (fun _ _ _ _ h => h) fun l' r s' _ hr => ?_)
  cases r with
  | ok a => exact hg a l' s' (hr a rfl)
  | error e => exact fun a h => nomatch h

/-- A part that only has allowed transactions executed, which extend the database. -/
theorem Uses.seq {R' : β → σ → Prop} {g : α → Prog σ τ ρ ω ε β} (h : p.Uses S)
    (hS : ∀ l t s', D.ext s s' → D.inv s' → S t → G l t s' ∧ ∀ o, D.ext s' (exec o t s').1)
    (hg : ∀ a l' s', D.ext s s' → (g a).Traces D exec G (Leaves R') l' s') :
    (p >>= g).Traces D exec G (Leaves R') l s := by
  refine Traces.seq (R := fun _ s' => D.ext s s') ?_ hg
  exact (h.traces_from hS (D.ext_refl s)).mono (fun _ _ _ _ h => h) fun _ _ _ _ h _ _ => h

theorem Uses.readSeq {R' : β → σ → Prop} {g : α → Prog σ τ ρ ω ε β} (h : p.Uses fun _ => False)
    (hg : ∀ a l' s', D.ext s s' → (g a).Traces D exec G (Leaves R') l' s') :
    (p >>= g).Traces D exec G (Leaves R') l s :=
  Uses.seq h (fun _ _ _ _ _ h => h.elim) hg

variable {σ' τ' ρ' ω' δ : Type} {D' : Discipline σ' τ' ω'} {exec' : ω' → τ' → σ' → σ' × ρ'} {db : σ' → σ}
  {oracle : ω' → σ' → ω} {cmd : τ → τ'} {reply : ρ' → ρ} {error : ε → δ} {H : τ → σ → Prop}
  {G' : List (τ' × ρ') → τ' → σ' → Prop} {R : α → σ → Prop} {l' : List (τ' × ρ')} {s' : σ'}

/-- A call of a component goes in the system the way it goes in the component. -/
theorem Traces.embed (h : p.Traces D exec (fun _ => H) (Leaves R) l (db s'))
    (hext : ∀ s₁ s₂, D'.ext s₁ s₂ → D.ext (db s₁) (db s₂)) (hinv : ∀ s₁, D'.inv s₁ → D.inv (db s₁))
    (hH : ∀ l t s₁, H t (db s₁) → G' l (cmd t) s₁)
    (hexec : ∀ o t s₁, ∃ o₁, exec o₁ t (db s₁) = (db (exec' o (cmd t) s₁).1, reply (exec' o (cmd t) s₁).2)) :
    (p.embed db oracle cmd reply error).Traces D' exec' G' (Leaves fun a s₁ => R a (db s₁)) l' s' := by
  induction p generalizing l l' s' with
  | ret a =>
    rintro s₁ he hi _ ⟨⟩
    exact h (db s₁) (hext _ _ he) (hinv _ hi) a rfl
  | throw e => exact .thrown
  | read f ih => exact fun s₁ he hi o => ih _ _ (h (db s₁) (hext _ _ he) (hinv _ hi) (oracle o s₁))
  | txn t k ih =>
    intro s₁ he hi
    obtain ⟨hg, hk⟩ := h (db s₁) (hext _ _ he) (hinv _ hi)
    refine ⟨hH _ t s₁ hg, fun o => ih _ (l := l ++ [(t, reply (exec' o (cmd t) s₁).2)]) ?_⟩
    obtain ⟨o₁, ho⟩ := hexec o t s₁
    have hrest := hk o₁
    rwa [ho] at hrest

end

end ChronoSynth.Prog

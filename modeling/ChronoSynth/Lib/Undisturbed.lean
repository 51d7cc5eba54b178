import ChronoSynth.Lib.Traces

/-!
# Undisturbed calls

A call is followed along its trace (`Prog.Traces`) as long as the database moves along the order it relies on, and
is as it expects at each of its own steps. Where other calls may break either, only the calls that have not been
*disturbed* can be followed: `Pool.watch` notes for each call whether everything since it was made was calm and
every step it made was made in order. `Pool.Followed.step` is the step lemma for these calls.
-/

namespace ChronoSynth.Pool

variable {κ σ τ ρ ω ε α : Type} {start : κ → Prog σ τ ρ ω ε α} {exec : ω → τ → σ → σ × ρ}

/-- Which calls are undisturbed, after one more move: one that is not calm disturbs all, one that a call makes
where the database is not in order for it disturbs this call. -/
def watch (order : κ → σ → Bool) (calm : Pool κ σ τ ρ ω ε α → Move κ ω → Bool) (p : Pool κ σ τ ρ ω ε α)
    (h : List Bool) (m : Move κ ω) : List Bool :=
  let h := match m with
    | .call _ => h ++ [true]
    | .go i _ => match p.threads[i]? with
      | none => h
      | some th => if order th.call p.db then h else h.set i false
  if calm p m then h else h.map fun _ => false

variable {order : κ → σ → Bool} {calm : Pool κ σ τ ρ ω ε α → Move κ ω → Bool} {D : κ → Discipline σ τ ω}
  {G : κ → List (τ × ρ) → τ → σ → Prop} {Q : κ → List (τ × ρ) → Except ε α → σ → Prop}
  {p : Pool κ σ τ ρ ω ε α} {h : List Bool} {m : Move κ ω}

/-- The undisturbed calls follow their traces. -/
structure Followed (D : κ → Discipline σ τ ω) (exec : ω → τ → σ → σ × ρ) (G : κ → List (τ × ρ) → τ → σ → Prop)
    (Q : κ → List (τ × ρ) → Except ε α → σ → Prop) (p : Pool κ σ τ ρ ω ε α) (h : List Bool) : Prop where
  /-- Every call is watched. -/
  length : h.length = p.threads.length
  traces : ∀ (i : ℕ) (th : Thread κ σ τ ρ ω ε α), p.threads[i]? = some th → h[i]? = some true →
    th.prog.Traces (D th.call) exec (G th.call) (Q th.call) th.log p.db

theorem Followed.idle {s : σ} : Followed D exec G Q (Pool.idle s) [] :=
  ⟨rfl, fun i th hi => by simp [Pool.idle] at hi⟩

theorem watch_length (hl : h.length = p.threads.length) :
    (watch order calm p h m).length = (p.step start exec m).threads.length := by
  cases m with
  | call c =>
    simp only [watch, step]
    split <;> simp [hl]
  | go i o =>
    have hstep : (p.step start exec (.go i o)).threads.length = p.threads.length := by
      simp only [step]
      split
      · rfl
      · simp only [goStep]
        split <;> simp
    rw [hstep]
    simp only [watch]
    split <;> split <;> try split
    all_goals simp [hl]

theorem map_false_ne {i : ℕ} : (h.map fun _ => false)[i]? ≠ some true := by
  rw [List.getElem?_map]
  cases h[i]? <;> simp

theorem watch_call {c : κ} {i : ℕ} (hi : (watch order calm p h (.call c))[i]? = some true) :
    calm p (.call c) = true ∧ (h[i]? = some true ∨ i = h.length) := by
  simp only [watch] at hi
  split at hi
  next hc =>
    refine ⟨hc, ?_⟩
    rcases Nat.lt_trichotomy i h.length with hlt | rfl | hgt
    · rw [List.getElem?_append_left hlt] at hi
      exact .inl hi
    · exact .inr rfl
    · rw [List.getElem?_eq_none (by simp; omega)] at hi
      cases hi
  next => exact absurd hi map_false_ne

/-- A call that is undisturbed after one has gone on was so before, and if it is the one, the database was in
order for it. -/
theorem watch_go {i j : ℕ} {o : ω} (hj : (watch order calm p h (.go i o))[j]? = some true) :
    calm p (.go i o) = true ∧ h[j]? = some true ∧
      ∀ th, i = j → p.threads[i]? = some th → order th.call p.db = true := by
  simp only [watch] at hj
  split at hj
  next hc =>
    refine ⟨hc, ?_⟩
    split at hj
    next hnone => exact ⟨hj, fun th _ hth => by rw [hnone] at hth; cases hth⟩
    next th hth =>
      split at hj
      next ho =>
        refine ⟨hj, fun th' _ hth' => ?_⟩
        obtain rfl := Option.some.inj (hth.symm.trans hth')
        exact ho
      next =>
        by_cases hij : i = j
        · subst hij
          rw [List.getElem?_set] at hj
          split at hj
          · split at hj <;> cases hj
          · exact absurd rfl ‹_›
        · rw [List.getElem?_set_ne hij] at hj
          exact ⟨hj, fun _ h => absurd h hij⟩
  next => exact absurd hj map_false_ne

/-- **Step lemma.** -/
theorem Followed.step (hf : Followed D exec G Q p h) (hcalm : calm p m = true →
      ∀ c, (D c).ext p.db (p.step start exec m).db)
    (horder : ∀ c, order c p.db = true → (D c).inv p.db)
    (hstart : ∀ c s, (start c).Traces (D c) exec (G c) (Q c) [] s) :
    Followed D exec G Q (p.step start exec m) (watch order calm p h m) := by
  refine ⟨watch_length hf.length, fun j th hj hw => ?_⟩
  cases m with
  | call c =>
    obtain ⟨-, hw | rfl⟩ := watch_call hw
    · have hlt : j < p.threads.length := by
        rw [← hf.length]
        exact (List.getElem?_eq_some_iff.1 hw).1
      simp only [Pool.step, List.getElem?_append_left hlt] at hj
      exact hf.traces j th hj hw
    · simp only [Pool.step] at hj
      rw [hf.length, List.getElem?_concat_length] at hj
      obtain rfl := Option.some.inj hj
      exact hstart c p.db
  | go i o =>
    obtain ⟨hc, hw, ho⟩ := watch_go hw
    have hext := hcalm hc
    cases hi : p.threads[i]? with
    | none =>
      simp only [Pool.step, hi] at hj ⊢
      exact hf.traces j th hj hw
    | some th₀ =>
      obtain ⟨c, l, q⟩ := th₀
      have hlen : i < p.threads.length := (List.getElem?_eq_some_iff.1 hi).1
      by_cases hij : i = j
      · -- the call itself has gone on, from a database that is in order for it
        subst hij
        have hinv := horder _ (ho _ rfl hi)
        have htr := hf.traces i _ hi hw
        cases q with
        | ret a | throw e =>
          simp only [Pool.step, hi, goStep] at hj ⊢
          obtain rfl := Option.some.inj hj
          exact htr
        | read f =>
          simp only [Pool.step, hi, goStep, List.getElem?_set_self hlen] at hj ⊢
          obtain rfl := Option.some.inj hj
          exact htr p.db ((D c).ext_refl _) hinv o
        | txn t k =>
          simp only [Pool.step, hi, goStep, List.getElem?_set_self hlen] at hj ⊢
          obtain rfl := Option.some.inj hj
          exact (htr p.db ((D c).ext_refl _) hinv).2 o
      · have hj' : p.threads[j]? = some th := by
          simp only [Pool.step, hi, goStep] at hj
          cases q <;> simpa only [List.getElem?_set_ne hij] using hj
        exact (hf.traces j th hj' hw).ext (hext th.call)

theorem Followed.committing (hf : Followed D exec G Q p h) (horder : ∀ c, order c p.db = true → (D c).inv p.db)
    {i : ℕ} {c : κ} {l : List (τ × ρ)} {t : τ} {k : ρ → Prog σ τ ρ ω ε α} (hi : p.threads[i]? = some ⟨c, l, .txn t k⟩)
    (hw : h[i]? = some true) (ho : order c p.db = true) : G c l t p.db :=
  (hf.traces i _ hi hw p.db ((D c).ext_refl _) (horder c ho)).1

end ChronoSynth.Pool

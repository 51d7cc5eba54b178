import ChronoSynth.Lib.Traces

/-!
# Tickets

Some transactions are answered with a **ticket**: the value of a counter of the database, which they count up.
`number` reads the ticket off a transaction and its reply, `counter` the counter off the database. Tickets are
drawn (`Draws`) if nothing counts down and each one is the counter before the transaction that draws it; then
no two calls ever have the same ticket (`Ticketed`).
-/

namespace ChronoSynth.Pool

variable {κ σ τ ρ ω ε α : Type} {start : κ → Prog σ τ ρ ω ε α} {exec : ω → τ → σ → σ × ρ}
  {number : τ × ρ → Option ℕ} {counter : σ → ℕ} {p : Pool κ σ τ ρ ω ε α} {m : Move κ ω} {s : σ}

/-- Who is answered with a ticket gets the value of the counter, which is counted up. -/
structure Draws (exec : ω → τ → σ → σ × ρ) (number : τ × ρ → Option ℕ) (counter : σ → ℕ) : Prop where
  le : ∀ o t s, counter s ≤ counter (exec o t s).1
  /-- A ticket is the counter before it is drawn. -/
  drawn : ∀ o t s n, number (t, (exec o t s).2) = some n → n = counter s ∧ n < counter (exec o t s).1

/-- The tickets of the calls have been drawn, each by one call. -/
structure Ticketed (number : τ × ρ → Option ℕ) (counter : σ → ℕ) (p : Pool κ σ τ ρ ω ε α) : Prop where
  /-- They are below the counter. -/
  lt : ∀ th ∈ p.threads, ∀ x ∈ th.log, ∀ n, number x = some n → n < counter p.db
  /-- A ticket is one call's. -/
  inj : ∀ (i j : ℕ) (th th' : Thread κ σ τ ρ ω ε α), p.threads[i]? = some th → p.threads[j]? = some th' →
    ∀ x ∈ th.log, ∀ x' ∈ th'.log, ∀ n, number x = some n → number x' = some n → i = j

theorem Ticketed.idle : (Pool.idle s : Pool κ σ τ ρ ω ε α).Ticketed number counter :=
  ⟨fun _ h => (List.not_mem_nil h).elim, fun _ _ _ _ h => by cases h⟩

theorem Draws.le_step (h : Draws exec number counter) :
    counter p.db ≤ counter (p.step start exec m).db := by
  obtain ⟨-, hdb⟩ | ⟨o, t, -, hdb⟩ := step_db start exec p m
  · rw [hdb]
  · rw [hdb]
    exact h.le o t p.db

theorem Draws.origin (h : Draws exec number counter) {j n : ℕ} {th : Thread κ σ τ ρ ω ε α} {x : τ × ρ}
    (hth : (p.step start exec m).threads[j]? = some th) (hx : x ∈ th.log) (hn : number x = some n) :
    (∃ th₀, p.threads[j]? = some th₀ ∧ x ∈ th₀.log) ∨
      n = counter p.db ∧ n < counter (p.step start exec m).db ∧ ∃ o, m = .go j o := by
  obtain (hnil | ⟨th₀, hth₀, -, heq⟩) | ⟨o, t, l, k, rfl, hi, heq⟩ := log_step hth
  · rw [hnil] at hx
    cases hx
  · exact .inl ⟨th₀, hth₀, heq ▸ hx⟩
  · rw [heq] at hx
    rcases List.mem_append.1 hx with hold | hnew
    · exact .inl ⟨_, hi, hold⟩
    · obtain rfl := List.mem_singleton.1 hnew
      obtain ⟨hc, hlt⟩ := h.drawn o t p.db n hn
      refine .inr ⟨hc, ?_, o, rfl⟩
      simpa only [step, hi, goStep] using hlt

/-- **Step lemma.** -/
theorem Ticketed.step (hp : p.Ticketed number counter) (h : Draws exec number counter) :
    (p.step start exec m).Ticketed number counter := by
  refine ⟨fun th hth x hx n hn => ?_, fun i j th th' hi hj x hx x' hx' n hn hn' => ?_⟩
  · obtain ⟨j, hj⟩ := List.mem_iff_getElem?.1 hth
    obtain ⟨th₀, hj₀, hold⟩ | ⟨-, hlt, -⟩ := h.origin hj hx hn
    · exact (hp.lt th₀ (List.mem_of_getElem? hj₀) x hold n hn).trans_le h.le_step
    · exact hlt
  · obtain ⟨th₀, hi₀, hold⟩ | ⟨hnew, -, o, rfl⟩ := h.origin hi hx hn
    · obtain ⟨th₁, hj₁, hold'⟩ | ⟨hnew', -⟩ := h.origin hj hx' hn'
      · exact hp.inj i j th₀ th₁ hi₀ hj₁ x hold x' hold' n hn hn'
      · exact absurd hnew' (hp.lt th₀ (List.mem_of_getElem? hi₀) x hold n hn).ne
    · obtain ⟨th₁, hj₁, hold'⟩ | ⟨-, -, o', hm⟩ := h.origin hj hx' hn'
      · exact absurd hnew (hp.lt th₁ (List.mem_of_getElem? hj₁) x' hold' n hn').ne
      · exact (Move.go.inj hm).1

end ChronoSynth.Pool

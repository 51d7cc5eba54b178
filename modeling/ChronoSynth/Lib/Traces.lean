import ChronoSynth.Lib.Interleave

/-!
# What a call does next

`Prog.Yields R` says that a call only returns values with `R`, whatever it reads and is answered.

`Prog.Traces` follows a call along its log: what it guarantees of a transaction when it hands it over may
depend on the transactions it has had executed before and on their replies (`G`), and when it ends its log
and its result are related by `Q`. The invariant and the order of the database that it relies on are those
of a discipline; that all calls keep to them is proved apart.

`Pool.record` is the history of all transactions with their replies: what the logs of the calls have together.
-/

namespace ChronoSynth

variable {κ σ τ ρ ω ε α β : Type} {exec : ω → τ → σ → σ × ρ} {D : Discipline σ τ ω}

namespace Prog

/-- A call within a call is one call. -/
theorem bind_assoc {γ : Type} (p : Prog σ τ ρ ω ε α) (f : α → Prog σ τ ρ ω ε β) (g : β → Prog σ τ ρ ω ε γ) :
    p >>= f >>= g = p >>= fun a => f a >>= g := by
  induction p with
  | ret a | throw e => rfl
  | read h ih => exact congrArg Prog.read (funext fun o => funext fun s => ih o s)
  | txn t k ih => exact congrArg (Prog.txn t) (funext fun r => ih r)

/-! ## Results -/

/-- What the call has ended with, if it is over. -/
def result : Prog σ τ ρ ω ε α → Option (Except ε α)
  | .ret a => some (.ok a)
  | .throw e => some (.error e)
  | .read _ | .txn _ _ => none

/-- Every value the call may return meets `R`. -/
def Yields (R : α → Prop) : Prog σ τ ρ ω ε α → Prop
  | .ret a => R a
  | .throw _ => True
  | .read f => ∀ o s, (f o s).Yields R
  | .txn _ k => ∀ r, (k r).Yields R

section
variable {p : Prog σ τ ρ ω ε α} {R : α → Prop} {R' : β → Prop} {S : τ → Prop}
  {g : α → Prog σ τ ρ ω ε β}

theorem Yields.bind (h : p.Yields R) (hg : ∀ a, R a → (g a).Yields R') : (p >>= g).Yields R' := by
  induction p with
  | ret a => exact hg a h
  | throw e => trivial
  | read f ih => exact fun o s => ih o s (h o s)
  | txn t k ih => exact fun r => ih r (h r)

theorem Yields.query {f : σ → α} : (Prog.query f : Prog σ τ ρ ω ε α).Yields fun a => ∃ s, a = f s :=
  fun _ s => ⟨s, rfl⟩

/-- The rest of a call may rely on what its first part returns. -/
theorem Uses.bind_yields (h : p.Uses S) (hy : p.Yields R) (hg : ∀ a, R a → (g a).Uses S) :
    (p >>= g).Uses S := by
  induction p with
  | ret a => exact hg a hy
  | throw e => exact True.intro
  | read f ih => exact fun o s => ih o s (h o s) (hy o s)
  | txn t k ih => exact ⟨h.1, fun r => ih r (h.2 r) (hy r)⟩

/-- A call whose transactions keep the guarantee wherever the database may have got to from `s₀`. -/
theorem Uses.meets_from {s₀ s : σ} {l : List (τ × ρ)} (h : p.Uses S) (hK : D.Kept exec)
    (hS : ∀ t s', D.ext s₀ s' → S t → D.guar t s') (hs : D.ext s₀ s) :
    p.Meets D exec (fun _ _ s' => D.ext s₀ s') l s := by
  induction p generalizing l s with
  | ret a | throw e => exact fun s' he _ => D.ext_trans hs he
  | read f ih => exact fun s' he _ o => ih o s' (h o s') (D.ext_trans hs he)
  | txn t k ih =>
    intro s' he hi
    have hg := hS t s' (D.ext_trans hs he) h.1
    exact ⟨hg, fun o ho => ih _ (h.2 _) (D.ext_trans (D.ext_trans hs he) (hK o t s' hi hg ho).2)⟩

end

/-! ## Every transaction with what follows it -/

/-- Every transaction that the call may hand over meets `R` together with what the call does on its reply. -/
def Each (R : τ → (ρ → Prog σ τ ρ ω ε α) → Prop) : Prog σ τ ρ ω ε α → Prop
  | .ret _ | .throw _ => True
  | .read f => ∀ o s, (f o s).Each R
  | .txn t k => R t k ∧ ∀ r, (k r).Each R

theorem Each.bind {p : Prog σ τ ρ ω ε α} {g : α → Prog σ τ ρ ω ε β} {R : τ → (ρ → Prog σ τ ρ ω ε α) → Prop}
    {R' : τ → (ρ → Prog σ τ ρ ω ε β) → Prop} (h : p.Each R)
    (hR : ∀ t k, R t k → R' t fun r => k r >>= g) (hg : ∀ a, (g a).Each R') : (p >>= g).Each R' := by
  induction p with
  | ret a => exact hg a
  | throw e => trivial
  | read f ih => exact fun o s => ih o s (h o s)
  | txn t k ih => exact ⟨hR t k h.1, fun r => ih r (h.2 r)⟩

/-! ## Traces -/

/-- The call `p`, which has had the transactions `l` executed, only hands over what `G` allows after them,
and ends so that its log, its result and the database are related by `Q`. -/
def Traces (D : Discipline σ τ ω) (exec : ω → τ → σ → σ × ρ) (G : List (τ × ρ) → τ → σ → Prop)
    (Q : List (τ × ρ) → Except ε α → σ → Prop) : Prog σ τ ρ ω ε α → List (τ × ρ) → σ → Prop
  | .ret a, l, s => ∀ s', D.ext s s' → D.inv s' → Q l (.ok a) s'
  | .throw e, l, s => ∀ s', D.ext s s' → D.inv s' → Q l (.error e) s'
  | .read f, l, s => ∀ s', D.ext s s' → D.inv s' → ∀ o, (f o s').Traces D exec G Q l s'
  | .txn t k, l, s => ∀ s', D.ext s s' → D.inv s' → G l t s' ∧
      ∀ o, (k (exec o t s').2).Traces D exec G Q (l ++ [(t, (exec o t s').2)]) (exec o t s').1

section
variable {G : List (τ × ρ) → τ → σ → Prop} {Q : List (τ × ρ) → Except ε α → σ → Prop}
  {p : Prog σ τ ρ ω ε α} {l : List (τ × ρ)} {s s' : σ}

theorem Traces.ext (h : p.Traces D exec G Q l s) (hs : D.ext s s') : p.Traces D exec G Q l s' := by
  cases p with
  | ret a | throw e | read f | txn t k => exact fun s'' h' => h s'' (D.ext_trans hs h')

theorem Traces.query {Q : List (τ × ρ) → Except ε β → σ → Prop} {f : σ → α}
    {g : α → Prog σ τ ρ ω ε β}
    (h : ∀ s', D.ext s s' → D.inv s' → (g (f s')).Traces D exec G Q l s') :
    (Prog.query f >>= g).Traces D exec G Q l s :=
  fun s' hs hi _ => h s' hs hi

theorem Traces.queryAny {Q : List (τ × ρ) → Except ε β → σ → Prop} {f : ω → σ → α}
    {g : α → Prog σ τ ρ ω ε β}
    (h : ∀ s', D.ext s s' → D.inv s' → ∀ o, (g (f o s')).Traces D exec G Q l s') :
    (Prog.queryAny f >>= g).Traces D exec G Q l s :=
  h

theorem Traces.transaction {Q : List (τ × ρ) → Except ε β → σ → Prop} {t : τ} {g : ρ → Prog σ τ ρ ω ε β}
    (h : ∀ s', D.ext s s' → D.inv s' → G l t s' ∧
      ∀ o, (g (exec o t s').2).Traces D exec G Q (l ++ [(t, (exec o t s').2)]) (exec o t s').1) :
    (Prog.transaction t >>= g).Traces D exec G Q l s :=
  h

/-- **Sequencing.** -/
theorem Traces.bind {Q : List (τ × ρ) → Except ε β → σ → Prop} {g : α → Prog σ τ ρ ω ε β}
    (h : p.Traces D exec G (fun l r s => match r with
      | .ok a => (g a).Traces D exec G Q l s
      | .error e => Q l (.error e) s) l s) :
    (p >>= g).Traces D exec G Q l s := by
  induction p generalizing l s with
  | ret a =>
    change (g a).Traces D exec G Q l s
    have hg : ∀ s', D.ext s s' → D.inv s' → (g a).Traces D exec G Q l s' := h
    cases hga : g a with
    | ret b | throw e | read f | txn t k =>
      exact fun s' hs hi => (hga ▸ hg s' hs hi :) s' (D.ext_refl _) hi
  | throw e => exact h
  | read f ih => exact fun s' hs hi o => ih o s' (h s' hs hi o)
  | txn t k ih => exact fun s' hs hi => ⟨(h s' hs hi).1, fun o => ih _ ((h s' hs hi).2 o)⟩

theorem Traces.mono {G' : List (τ × ρ) → τ → σ → Prop} {Q' : List (τ × ρ) → Except ε α → σ → Prop}
    (h : p.Traces D exec G Q l s) (hG : ∀ l t s, D.inv s → G l t s → G' l t s)
    (hQ : ∀ l r s, D.inv s → Q l r s → Q' l r s) : p.Traces D exec G' Q' l s := by
  induction p generalizing l s with
  | ret a | throw e => exact fun s' hs hi => hQ _ _ _ hi (h s' hs hi)
  | read f ih => exact fun s' hs hi o => ih o s' (h s' hs hi o)
  | txn t k ih =>
    exact fun s' hs hi => ⟨hG _ _ _ hi (h s' hs hi).1, fun o => ih _ ((h s' hs hi).2 o)⟩

theorem traces_any (hG : ∀ l t s, G l t s) (hQ : ∀ l r s, Q l r s) : p.Traces D exec G Q l s := by
  induction p generalizing l s with
  | ret a | throw e => exact fun _ _ _ => hQ _ _ _
  | read f ih => exact fun s' _ _ o => ih o s'
  | txn t k ih => exact fun s' _ _ => ⟨hG _ _ _, fun o => ih _⟩

/-- What a call ends with that is over. -/
theorem Traces.result {r : Except ε α} (h : p.Traces D exec G Q l s) (hr : p.result = some r) (hs : D.inv s) : Q l r s := by
  cases p with
  | ret a | throw e =>
    obtain rfl := Option.some.inj hr
    exact h s (D.ext_refl s) hs
  | read f | txn t k => cases hr

theorem Traces.extending {l₀ : List (τ × ρ)} {s₀ : σ} (h : p.Traces D exec G Q l s) (hG : ∀ l t s o, G l t s → D.ext s (exec o t s).1)
    (hl : l₀ <+: l) (hs : D.ext s₀ s) :
    p.Traces D exec G (fun l' r s' => Q l' r s' ∧ l₀ <+: l' ∧ D.ext s₀ s') l s := by
  induction p generalizing l s with
  | ret a | throw e => exact fun s' he hi => ⟨h s' he hi, hl, D.ext_trans hs he⟩
  | read f ih => exact fun s' he hi o => ih o s' (h s' he hi o) hl (D.ext_trans hs he)
  | txn t k ih =>
    intro s' he hi
    obtain ⟨hg, hk⟩ := h s' he hi
    exact ⟨hg, fun o => ih _ (hk o) (hl.trans (List.prefix_append _ _))
      (D.ext_trans (D.ext_trans hs he) (hG l t s' o hg))⟩

/-- A call all of whose transactions meet `S`: its log grows by such, and `G` is to follow from that. -/
theorem Uses.traces {S : τ → Prop} (h : p.Uses S)
    (hG : ∀ l' t s', (∀ x ∈ l', x ∈ l ∨ S x.1) → S t → G l' t s')
    (hQ : ∀ l' r s', (∀ x ∈ l', x ∈ l ∨ S x.1) → Q l' r s') : p.Traces D exec G Q l s := by
  induction p generalizing l s with
  | ret a => exact fun s' _ _ => hQ l (.ok a) s' fun x hx => .inl hx
  | throw e => exact fun s' _ _ => hQ l (.error e) s' fun x hx => .inl hx
  | read f ih => exact fun s' _ _ o => ih o s' (h o s') hG hQ
  | txn t k ih =>
    have hgrow : ∀ (r : ρ) (l' : List (τ × ρ)), (∀ x ∈ l', x ∈ l ++ [(t, r)] ∨ S x.1) →
        ∀ x ∈ l', x ∈ l ∨ S x.1 := by
      intro r l' hl x hx
      rcases hl x hx with hx | hx
      · rcases List.mem_append.1 hx with hx | hx
        · exact .inl hx
        · obtain rfl := List.mem_singleton.1 hx
          exact .inr h.1
      · exact .inr hx
    exact fun s' _ _ => ⟨hG l t s' (fun x hx => .inl hx) h.1, fun o => ih _ (h.2 _)
      (fun l' t' s'' hl => hG l' t' s'' (hgrow _ l' hl)) fun l' r s'' hl => hQ l' r s'' (hgrow _ l' hl)⟩

end

end Prog

namespace Pool

variable {start : κ → Prog σ τ ρ ω ε α} {G : κ → List (τ × ρ) → τ → σ → Prop}
  {Q : κ → List (τ × ρ) → Except ε α → σ → Prop} {p : Pool κ σ τ ρ ω ε α} {m : Move κ ω}

/-- Every call follows its trace. -/
def Traced (D : Discipline σ τ ω) (exec : ω → τ → σ → σ × ρ) (G : κ → List (τ × ρ) → τ → σ → Prop)
    (Q : κ → List (τ × ρ) → Except ε α → σ → Prop) (p : Pool κ σ τ ρ ω ε α) : Prop :=
  ∀ th ∈ p.threads, th.prog.Traces D exec (G th.call) (Q th.call) th.log p.db

theorem Traced.idle {s : σ} : (Pool.idle s : Pool κ σ τ ρ ω ε α).Traced D exec G Q :=
  fun _ h => (List.not_mem_nil h).elim

/-- **Step lemma**: where the database moves along the order, every call goes on along its trace. -/
theorem Traced.step (h : p.Traced D exec G Q) (hinv : D.inv p.db)
    (hext : D.ext p.db (p.step start exec m).db)
    (hstart : ∀ c s, D.inv s → (start c).Traces D exec (G c) (Q c) [] s) :
    (p.step start exec m).Traced D exec G Q := by
  obtain ⟨c, -, -, hp⟩ | ⟨-, hp⟩ | ⟨i, o, c, l, f, hi, -, hp⟩ | ⟨i, o, c, l, t, k, hi, hc, hp⟩ :=
    step_cases start exec p m
  · rw [hp]
    intro th hth
    rcases List.mem_append.1 hth with hth | hth
    · exact h th hth
    · obtain rfl := List.mem_singleton.1 hth
      exact hstart c p.db hinv
  · rwa [hp]
  · rw [hp]
    intro th hth
    rcases List.mem_or_eq_of_mem_set hth with hth | rfl
    · exact h th hth
    · exact h _ (List.mem_of_getElem? hi) p.db (D.ext_refl _) hinv o
  · rw [hp] at hext ⊢
    intro th hth'
    rcases List.mem_or_eq_of_mem_set hth' with hth' | rfl
    · exact (h th hth').ext hext
    · exact (h _ (List.mem_of_getElem? hi) p.db (D.ext_refl _) hinv).2 o

/-- The call that executes a transaction may do so after what it has done. -/
theorem Traced.committing (h : p.Traced D exec G Q) (hinv : D.inv p.db) {i : ℕ} {c : κ}
    {l : List (τ × ρ)} {t : τ} {k : ρ → Prog σ τ ρ ω ε α} (hi : p.threads[i]? = some ⟨c, l, .txn t k⟩) :
    G c l t p.db :=
  (h _ (List.mem_of_getElem? hi) p.db (D.ext_refl _) hinv).1

theorem Traced.allowed (h : p.Traced D exec G Q) (hinv : D.inv p.db) {o : ω} {t : τ} (hm : p.committing m = some (o, t)) :
    ∃ th ∈ p.threads, G th.call th.log t p.db := by
  cases m with
  | call c => cases hm
  | go i o' =>
    obtain ⟨-, c, l, k, hi⟩ := committing_go hm
    exact ⟨_, List.mem_of_getElem? hi, h.committing hinv hi⟩

theorem Traced.returned (h : p.Traced D exec G Q) (hinv : D.inv p.db) {c : κ} {l : List (τ × ρ)} {a : α}
    (hth : ⟨c, l, .ret a⟩ ∈ p.threads) : Q c l (.ok a) p.db :=
  h _ hth p.db (D.ext_refl _) hinv

/-- **Runs.** Where whatever is allowed extends the database, all calls follow their traces, and the database is extended
with every move. -/
theorem traced_always {s : σ} {ms : List (Move κ ω)} (hinv : ∀ s, D.inv s)
    (hG : ∀ c l o t s, G c l t s → D.ext s (exec o t s).1)
    (hstart : ∀ c s, (start c).Traces D exec (G c) (Q c) [] s) :
    Always (Pool.step start exec) (fun p => p.Traced D exec G Q ∧ ∀ m, D.ext p.db (p.step start exec m).db)
      (Pool.idle s) ms := by
  have hext : ∀ p : Pool κ σ τ ρ ω ε α, p.Traced D exec G Q → ∀ m, D.ext p.db (p.step start exec m).db := by
    intro p hp m
    obtain ⟨-, hdb⟩ | ⟨o, t, hm, hdb⟩ := step_db start exec p m
    · rw [hdb]
      exact D.ext_refl _
    · obtain ⟨th, -, hg⟩ := hp.allowed (hinv _) hm
      rw [hdb]
      exact hG _ _ o t p.db hg
  have hall : Always (Pool.step start exec) (Traced D exec G Q) (Pool.idle s) ms :=
    Always.of_inductive .idle fun p m hp => hp.step (hinv _) (hext p hp m) fun c s _ => hstart c s
  exact hall.mono fun p hp => ⟨hp, hext p hp⟩

theorem log_step {j : ℕ} {th' : Thread κ σ τ ρ ω ε α} (h : (p.step start exec m).threads[j]? = some th') :
    (th'.log = [] ∨ ∃ th, p.threads[j]? = some th ∧ th.call = th'.call ∧ th.log = th'.log) ∨
    ∃ o t l k, m = .go j o ∧ p.threads[j]? = some ⟨th'.call, l, .txn t k⟩ ∧
      th'.log = l ++ [(t, (exec o t p.db).2)] := by
  cases m with
  | call c =>
    simp only [Pool.step] at h
    by_cases hj : j < p.threads.length
    · rw [List.getElem?_append_left hj] at h
      exact .inl (.inr ⟨th', h, rfl, rfl⟩)
    · rw [List.getElem?_append_right (Nat.le_of_not_lt hj)] at h
      obtain rfl := List.mem_singleton.1 (List.mem_of_getElem? h)
      exact .inl (.inl rfl)
  | go i o =>
    simp only [Pool.step] at h
    cases hi : p.threads[i]? with
    | none =>
      rw [hi] at h
      exact .inl (.inr ⟨th', h, rfl, rfl⟩)
    | some th =>
      obtain ⟨c, l, q⟩ := th
      have hlen : i < p.threads.length := (List.getElem?_eq_some_iff.1 hi).1
      rw [hi] at h
      cases q with
      | ret a | throw e => exact .inl (.inr ⟨th', h, rfl, rfl⟩)
      | read f =>
        simp only [goStep] at h
        by_cases hij : i = j
        · subst hij
          rw [List.getElem?_set_self hlen] at h
          obtain rfl := Option.some.inj h
          exact .inl (.inr ⟨_, hi, rfl, rfl⟩)
        · rw [List.getElem?_set_ne hij] at h
          exact .inl (.inr ⟨th', h, rfl, rfl⟩)
      | txn t k =>
        simp only [goStep] at h
        by_cases hij : i = j
        · subst hij
          rw [List.getElem?_set_self hlen] at h
          obtain rfl := Option.some.inj h
          exact .inr ⟨o, t, l, k, rfl, hi, rfl⟩
        · rw [List.getElem?_set_ne hij] at h
          exact .inl (.inr ⟨th', h, rfl, rfl⟩)

theorem log_grows {j : ℕ} {th : Thread κ σ τ ρ ω ε α} (h : p.threads[j]? = some th) :
    ∃ th', (p.step start exec m).threads[j]? = some th' ∧ th'.call = th.call ∧ th.log <+: th'.log := by
  have hlen : j < p.threads.length := (List.getElem?_eq_some_iff.1 h).1
  obtain ⟨c, -, -, hp⟩ | ⟨-, hp⟩ | ⟨i, o, c, l, f, hi, -, hp⟩ | ⟨i, o, c, l, t, k, hi, -, hp⟩ :=
    step_cases start exec p m
  · exact ⟨th, by rw [hp, List.getElem?_append_left hlen, h], rfl, List.prefix_refl _⟩
  · exact ⟨th, by rw [hp, h], rfl, List.prefix_refl _⟩
  · by_cases hij : i = j
    · subst hij
      obtain rfl := Option.some.inj (hi.symm.trans h)
      exact ⟨⟨c, l, f o p.db⟩, by rw [hp, List.getElem?_set_self hlen], rfl, List.prefix_refl _⟩
    · exact ⟨th, by rw [hp, List.getElem?_set_ne hij, h], rfl, List.prefix_refl _⟩
  · by_cases hij : i = j
    · subst hij
      obtain rfl := Option.some.inj (hi.symm.trans h)
      exact ⟨⟨c, l ++ [(t, (exec o t p.db).2)], k (exec o t p.db).2⟩, by rw [hp, List.getElem?_set_self hlen], rfl,
        List.prefix_append _ _⟩
    · exact ⟨th, by rw [hp, List.getElem?_set_ne hij, h], rfl, List.prefix_refl _⟩

theorem log_grows_run {j : ℕ} {th : Thread κ σ τ ρ ω ε α} {ms : List (Move κ ω)} (h : p.threads[j]? = some th) :
    ∃ th', (run (Pool.step start exec) p ms).threads[j]? = some th' ∧ th'.call = th.call ∧ th.log <+: th'.log := by
  induction ms generalizing p th with
  | nil => exact ⟨th, h, rfl, List.prefix_refl _⟩
  | cons m ms ih =>
    obtain ⟨th₁, h₁, hcall₁, hlog₁⟩ := @log_grows _ _ _ _ _ _ _ exec start _ m _ _ h
    obtain ⟨th₂, h₂, hcall₂, hlog₂⟩ := ih h₁
    exact ⟨th₂, h₂, hcall₂.trans hcall₁, hlog₁.trans hlog₂⟩

/-- Without a discipline: every transaction in a log was handed over after what stands before it there, and is
noted with the reply it got. -/
theorem traced_log_always {s : σ} {ms : List (Move κ ω)}
    (hstart : ∀ c s, (start c).Traces .free exec (G c) (Q c) [] s) :
    Always (Pool.step start exec) (fun p => p.Traced .free exec G Q ∧ ∀ th ∈ p.threads, ∀ l x l',
      th.log = l ++ x :: l' → ∃ o s, G th.call l x.1 s ∧ x.2 = (exec o x.1 s).2) (Pool.idle s) ms := by
  refine Always.of_inductive ⟨.idle, fun _ h => (List.not_mem_nil h).elim⟩ fun p m hp => ?_
  refine ⟨hp.1.step trivial trivial fun c s _ => hstart c s, fun th hth l x l' hlog => ?_⟩
  obtain ⟨j, hj⟩ := List.mem_iff_getElem?.1 hth
  obtain (hnil | ⟨th₀, hj₀, hcall, heq⟩) | ⟨o, t, l₀, k, -, hi, heq⟩ := log_step hj
  · rw [hnil] at hlog
    cases l <;> cases hlog
  · rw [← hcall]
    exact hp.2 th₀ (List.mem_of_getElem? hj₀) l x l' (heq.trans hlog)
  · rw [heq] at hlog
    rcases List.eq_nil_or_concat l' with rfl | ⟨l'', y, rfl⟩
    · obtain ⟨rfl, hx⟩ := List.append_inj' hlog rfl
      obtain rfl := (List.cons_eq_cons.1 hx).1
      exact ⟨o, p.db, hp.1.committing trivial hi, rfl⟩
    · rw [List.concat_eq_append, ← List.cons_append, ← List.append_assoc] at hlog
      exact hp.2 _ (List.mem_of_getElem? hi) l x l'' (List.append_inj' hlog rfl).1

theorem uses_log_always {S : κ → τ → Prop} (hstart : ∀ c, (start c).Uses (S c)) {s : σ} {ms : List (Move κ ω)} :
    Always (Pool.step start exec) (fun p => p.Uses S ∧ ∀ th ∈ p.threads, ∀ e ∈ th.log, S th.call e.1)
      (Pool.idle s) ms := by
  refine Always.of_inductive ⟨fun _ h => (List.not_mem_nil h).elim, fun _ h => (List.not_mem_nil h).elim⟩
    fun p m hp => ⟨hp.1.step hstart, fun th hth e he => ?_⟩
  obtain ⟨j, hj⟩ := List.mem_iff_getElem?.1 hth
  obtain (hnil | ⟨th₀, hj₀, hcall, hlog⟩) | ⟨o, t, l, k, -, hi, hlog⟩ := log_step hj
  · rw [hnil] at he
    cases he
  · rw [← hcall]
    exact hp.2 th₀ (List.mem_of_getElem? hj₀) e (hlog ▸ he)
  · rw [hlog] at he
    rcases List.mem_append.1 he with he | he
    · exact hp.2 _ (List.mem_of_getElem? hi) e he
    · obtain rfl := List.mem_singleton.1 he
      exact (hp.1 _ (List.mem_of_getElem? hi)).1

/-- What is met by the transactions of all calls with what follows them is met by those that are still to come. -/
theorem each_always {R : κ → τ → (ρ → Prog σ τ ρ ω ε α) → Prop} (hstart : ∀ c, (start c).Each (R c)) {s : σ}
    {ms : List (Move κ ω)} :
    Always (Pool.step start exec) (fun p => ∀ th ∈ p.threads, th.prog.Each (R th.call)) (Pool.idle s) ms := by
  refine Always.of_inductive (fun _ h => (List.not_mem_nil h).elim) fun p m hp => ?_
  obtain ⟨c, -, -, hs⟩ | ⟨-, hs⟩ | ⟨i, o, c, l, f, hi, -, hs⟩ | ⟨i, o, c, l, t, k, hi, -, hs⟩ :=
    step_cases start exec p m
  · rw [hs]
    intro th hth
    rcases List.mem_append.1 hth with hth | hth
    · exact hp th hth
    · obtain rfl := List.mem_singleton.1 hth
      exact hstart c
  · rwa [hs]
  · rw [hs]
    intro th hth
    rcases List.mem_or_eq_of_mem_set hth with hth | rfl
    · exact hp th hth
    · exact hp _ (List.mem_of_getElem? hi) o p.db
  · rw [hs]
    intro th hth
    rcases List.mem_or_eq_of_mem_set hth with hth | rfl
    · exact hp th hth
    · exact (hp _ (List.mem_of_getElem? hi)).2 _

/-! ## The history of all transactions -/

/-- What has been executed with what reply, the last first. -/
def record (exec : ω → τ → σ → σ × ρ) (h : List (τ × ρ)) (o : ω) (t : τ) (s : σ) : List (τ × ρ) :=
  (t, (exec o t s).2) :: h

section
variable {x : Pool κ σ τ ρ ω ε α × List (τ × ρ)} {ms : List (Move κ ω)}

theorem subset_recorded : x.2 ⊆ (noting (Pool.step start exec) (logging (record exec)) x m).2 := by
  obtain ⟨-, -, hh⟩ | ⟨o, t, -, -, hh⟩ := logging_cases start exec (record exec) x m
  · rw [hh]
    exact fun _ he => he
  · rw [hh]
    exact List.subset_cons_self _ _

/-- A history goes on. -/
theorem subset_run_recorded :
    x.2 ⊆ (run (noting (Pool.step start exec) (logging (record exec))) x ms).2 := by
  induction ms generalizing x with
  | nil => exact fun _ he => he
  | cons m ms ih => exact List.Subset.trans subset_recorded ih

theorem along_recorded :
    Along (noting (Pool.step start exec) (logging (record exec)))
      (fun y m => (noting (Pool.step start exec) (logging (record exec)) y m).2 ⊆
        (run (noting (Pool.step start exec) (logging (record exec))) x ms).2) x ms := by
  rintro pre m ⟨rest, rfl⟩
  rw [run_append, run_snoc]
  exact subset_run_recorded

theorem recorded_step (hx : ∀ e, e ∈ x.2 ↔ x.1.Logged e) (e : τ × ρ) :
    e ∈ (noting (Pool.step start exec) (logging (record exec)) x m).2 ↔
      (noting (Pool.step start exec) (logging (record exec)) x m).1.Logged e := by
  have hlog := logged_step start exec x.1 m e
  obtain ⟨hm, -, hh⟩ | ⟨o, t, hm, -, hh⟩ := logging_cases start exec (record exec) x m
  · rw [hh, hx]
    refine hlog.trans ?_ |>.symm
    simp [hm]
  · rw [hh]
    refine Iff.trans ?_ hlog.symm
    rw [record, List.mem_cons, hx, or_comm]
    refine or_congr_right ⟨?_, ?_⟩
    · rintro rfl
      exact ⟨o, hm, rfl⟩
    · rintro ⟨o', ho, hr⟩
      obtain ⟨rfl, rfl⟩ : o = o' ∧ t = e.1 := by simpa [hm] using ho
      exact Prod.ext rfl hr

end

end Pool

end ChronoSynth

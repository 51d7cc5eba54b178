import ChronoSynth.Lib.Run

/-!
# Calls interleaved over one database

A service call is a tree (`Prog`): it reads the database, decides, hands a transaction to the
database and goes on with its reply. Transactions are names `τ`; `exec` says what each does to the
database and what it answers. What is left open about a step — the clock, the outcome of an
`ORDER BY … LIMIT 1` among equals — is its oracle `ω`.

A **pool** is a database with the calls in progress. It moves by starting a call or by letting one
of them make its next read or its next transaction, so every order of the reads and the transactions
of any number of callers is a run (`Pool.step`, `ChronoSynth.run`).

The proof rule is rely–guarantee. A `Discipline` names an invariant of the database, an order that
every transaction extends it along (what a call has read may be relied on afterwards if the order
keeps it), and what a call guarantees of a transaction when it hands it over. `Prog.Meets` says that
a call keeps its part of the discipline whatever the others do in between; `Pool.Sound.step` is the
step lemma, to be used with `Always.of_step` and `always_iff_along`.
-/

namespace ChronoSynth

/-- A call as the database sees it. -/
inductive Prog (σ τ ρ ω ε α : Type) : Type where
  /-- The call returns. -/
  | ret (a : α)
  /-- The call throws. -/
  | throw (e : ε)
  /-- The call reads the database. -/
  | read (f : ω → σ → Prog σ τ ρ ω ε α)
  /-- The call has a transaction executed and looks at the reply. -/
  | txn (t : τ) (k : ρ → Prog σ τ ρ ω ε α)

namespace Prog

variable {σ τ ρ ω ε α β : Type}

/-- Sequencing; an exception skips the rest. -/
protected def bind : Prog σ τ ρ ω ε α → (α → Prog σ τ ρ ω ε β) → Prog σ τ ρ ω ε β
  | .ret a, g => g a
  | .throw e, _ => .throw e
  | .read f, g => .read fun o s => (f o s).bind g
  | .txn t k, g => .txn t fun r => (k r).bind g

instance : Monad (Prog σ τ ρ ω ε) where
  pure := .ret
  bind := Prog.bind

/-- One query: a function of the database. -/
def query (f : σ → α) : Prog σ τ ρ ω ε α := .read fun _ s => .ret (f s)

/-- One query whose answer the database may choose among several. -/
def queryAny (f : ω → σ → α) : Prog σ τ ρ ω ε α := .read fun o s => .ret (f o s)

def transaction (t : τ) : Prog σ τ ρ ω ε ρ := .txn t .ret

section
variable {a : α} {e : ε} {f : σ → α} {f' : ω → σ → α} {t : τ} {g : α → Prog σ τ ρ ω ε β}
  {h : ρ → Prog σ τ ρ ω ε β}

@[simp] theorem pure_eq : (pure a : Prog σ τ ρ ω ε α) = .ret a := rfl

@[simp] theorem ret_bind : (Prog.ret a : Prog σ τ ρ ω ε α) >>= g = g a := rfl

@[simp] theorem throw_bind : (Prog.throw e : Prog σ τ ρ ω ε α) >>= g = .throw e := rfl

@[simp] theorem query_bind : query f >>= g = .read fun _ s => g (f s) := rfl

@[simp] theorem queryAny_bind : queryAny f' >>= g = .read fun o s => g (f' o s) := rfl

@[simp] theorem transaction_bind : transaction t >>= h = .txn t h := rfl

theorem txn_bind {k : ρ → Prog σ τ ρ ω ε α} : Prog.txn t k >>= g = .txn t fun r => k r >>= g := rfl

end

/-- The call is over. -/
def Done : Prog σ τ ρ ω ε α → Prop
  | .ret _ | .throw _ => True
  | .read _ | .txn _ _ => False

instance : DecidablePred (Done : Prog σ τ ρ ω ε α → Prop)
  | .ret _ | .throw _ => inferInstanceAs (Decidable True)
  | .read _ | .txn _ _ => inferInstanceAs (Decidable False)

/-- The call run alone from `s`, with the oracles `os` for its steps: what the database becomes and
what the caller gets. -/
def solo (exec : ω → τ → σ → σ × ρ) :
    Prog σ τ ρ ω ε α → (ℕ → ω) → σ → σ × Except ε α
  | .ret a, _, s => (s, .ok a)
  | .throw e, _, s => (s, .error e)
  | .read f, os, s => (f (os 0) s).solo exec (fun n => os (n + 1)) s
  | .txn t k, os, s => (k (exec (os 0) t s).2).solo exec (fun n => os (n + 1)) (exec (os 0) t s).1

section
variable {exec : ω → τ → σ → σ × ρ} {os : ℕ → ω} {s : σ} {a : α} {e : ε} {f : σ → α} {t : τ}
  {g : α → Prog σ τ ρ ω ε β} {h : ρ → Prog σ τ ρ ω ε β}

theorem solo_txn {k : ρ → Prog σ τ ρ ω ε α} : (Prog.txn t k).solo exec os s =
    (k (exec (os 0) t s).2).solo exec (fun n => os (n + 1)) (exec (os 0) t s).1 := rfl

theorem solo_query_bind :
    (query f >>= g).solo exec os s = (g (f s)).solo exec (fun n => os (n + 1)) s := rfl

theorem solo_transaction_bind :
    (transaction t >>= h).solo exec os s =
      (h (exec (os 0) t s).2).solo exec (fun n => os (n + 1)) (exec (os 0) t s).1 := rfl

end

end Prog

/-! ## Pools -/

/-- A call in progress: what was called, the transactions it has had executed with their replies,
and what is left of it. -/
structure Thread (κ σ τ ρ ω ε α : Type) where
  call : κ
  /-- Its transactions so far. -/
  log : List (τ × ρ)
  /-- The rest of it. -/
  prog : Prog σ τ ρ ω ε α

/-- A database and the calls in progress. -/
structure Pool (κ σ τ ρ ω ε α : Type) where
  /-- The database. -/
  db : σ
  /-- The calls, in the order they were made. -/
  threads : List (Thread κ σ τ ρ ω ε α)

/-- A step of a pool. -/
inductive Move (κ ω : Type) where
  /-- A call is made. -/
  | call (c : κ)
  /-- The `i`-th call makes its next step. -/
  | go (i : ℕ) (o : ω)

namespace Pool

variable {κ σ τ ρ ω ε α : Type} {start : κ → Prog σ τ ρ ω ε α} {exec : ω → τ → σ → σ × ρ}

/-- A database nobody uses yet. -/
def idle (s : σ) : Pool κ σ τ ρ ω ε α := ⟨s, []⟩

/-- The next step of one call. -/
def goStep (exec : ω → τ → σ → σ × ρ) (p : Pool κ σ τ ρ ω ε α) (i : ℕ) (o : ω)
    (th : Thread κ σ τ ρ ω ε α) : Pool κ σ τ ρ ω ε α :=
  match th.prog with
  | .ret _ | .throw _ => p
  | .read f => { p with threads := p.threads.set i { th with prog := f o p.db } }
  | .txn t k =>
    { db := (exec o t p.db).1
      threads := p.threads.set i
        { th with log := th.log ++ [(t, (exec o t p.db).2)], prog := k (exec o t p.db).2 } }

def step (start : κ → Prog σ τ ρ ω ε α) (exec : ω → τ → σ → σ × ρ)
    (p : Pool κ σ τ ρ ω ε α) : Move κ ω → Pool κ σ τ ρ ω ε α
  | .call c => { p with threads := p.threads ++ [⟨c, [], start c⟩] }
  | .go i o =>
    match p.threads[i]? with
    | none => p
    | some th => p.goStep exec i o th

/-- The transaction a move has executed, with its oracle. -/
def committing (p : Pool κ σ τ ρ ω ε α) : Move κ ω → Option (ω × τ)
  | .call _ => none
  | .go i o =>
    match p.threads[i]? with
    | some ⟨_, _, .txn t _⟩ => some (o, t)
    | _ => none

theorem committing_go {p : Pool κ σ τ ρ ω ε α} {i : ℕ} {o o' : ω} {t : τ}
    (h : p.committing (.go i o) = some (o', t)) :
    o = o' ∧ ∃ c l k, p.threads[i]? = some ⟨c, l, .txn t k⟩ := by
  simp only [committing] at h
  split at h
  next c l t' k hi =>
    obtain ⟨rfl, rfl⟩ := Prod.mk.inj (Option.some.inj h)
    exact ⟨rfl, c, l, k, hi⟩
  next => cases h

/-- A condition on transactions, as a condition on moves. -/
def AtCommit (C : ω → τ → σ → Prop) (p : Pool κ σ τ ρ ω ε α) (m : Move κ ω) : Prop :=
  ∀ o t, p.committing m = some (o, t) → C o t p.db

section
variable {C : ω → τ → σ → Prop} {p : Pool κ σ τ ρ ω ε α} {m : Move κ ω}

theorem atCommit_none (h : p.committing m = none) : p.AtCommit C m :=
  fun o t ht => by rw [h] at ht; cases ht

theorem atCommit_some {o : ω} {t : τ} (h : p.committing m = some (o, t)) :
    p.AtCommit C m ↔ C o t p.db := by
  refine ⟨fun hC => hC o t h, fun hC o' t' h' => ?_⟩
  obtain ⟨rfl, rfl⟩ : o = o' ∧ t = t' := by simpa [h] using h'
  exact hC

instance [∀ o t s, Decidable (C o t s)] : Decidable (p.AtCommit C m) :=
  match h : p.committing m with
  | none => isTrue (atCommit_none h)
  | some (_, _) => decidable_of_iff _ (atCommit_some h).symm

end

/-- **What a move can do**: leave the database alone and start a call, let one go on after a read or
do nothing; or have one call execute its transaction. -/
theorem step_cases (start : κ → Prog σ τ ρ ω ε α) (exec : ω → τ → σ → σ × ρ)
    (p : Pool κ σ τ ρ ω ε α) (m : Move κ ω) :
    (∃ c, m = .call c ∧ p.committing m = none ∧
      p.step start exec m = { p with threads := p.threads ++ [⟨c, [], start c⟩] }) ∨
    (p.committing m = none ∧ p.step start exec m = p) ∨
    (∃ i o c l f, p.threads[i]? = some ⟨c, l, .read f⟩ ∧ p.committing m = none ∧
      p.step start exec m = { p with threads := p.threads.set i ⟨c, l, f o p.db⟩ }) ∨
    (∃ i o c l t k, p.threads[i]? = some ⟨c, l, .txn t k⟩ ∧ p.committing m = some (o, t) ∧
      p.step start exec m = ⟨(exec o t p.db).1, p.threads.set i
        ⟨c, l ++ [(t, (exec o t p.db).2)], k (exec o t p.db).2⟩⟩) := by
  cases m with
  | call c => exact .inl ⟨c, rfl, rfl, rfl⟩
  | go i o =>
    cases hi : p.threads[i]? with
    | none => exact .inr (.inl ⟨by simp [committing, hi], by simp [step, hi]⟩)
    | some th =>
      obtain ⟨c, l, q⟩ := th
      cases q with
      | ret a | throw e =>
        exact .inr (.inl ⟨by simp [committing, hi], by simp [step, hi, goStep]⟩)
      | read f =>
        exact .inr (.inr (.inl ⟨i, o, c, l, f, hi, by simp [committing, hi],
          by simp [step, hi, goStep]⟩))
      | txn t k =>
        exact .inr (.inr (.inr ⟨i, o, c, l, t, k, hi, by simp [committing, hi],
          by simp [step, hi, goStep]⟩))

/-- A move that executes no transaction leaves the database alone; one that does is that transaction
on the database. -/
theorem step_db (start : κ → Prog σ τ ρ ω ε α) (exec : ω → τ → σ → σ × ρ)
    (p : Pool κ σ τ ρ ω ε α) (m : Move κ ω) :
    (p.committing m = none ∧ (p.step start exec m).db = p.db) ∨
    ∃ o t, p.committing m = some (o, t) ∧ (p.step start exec m).db = (exec o t p.db).1 := by
  obtain ⟨c, -, hm, h⟩ | ⟨hm, h⟩ | ⟨i, o, c, l, f, -, hm, h⟩ | ⟨i, o, c, l, t, k, -, hm, h⟩ :=
    step_cases start exec p m
  · exact .inl ⟨hm, by rw [h]⟩
  · exact .inl ⟨hm, by rw [h]⟩
  · exact .inl ⟨hm, by rw [h]⟩
  · exact .inr ⟨o, t, hm, by rw [h]⟩

/-- What some element has when one element is replaced: what some had, and what the new one has more
than the old one. -/
theorem exists_mem_set_iff {β : Type*} {l : List β} {i : ℕ} {a b : β} {P : β → Prop} {Q : Prop}
    (h : l[i]? = some a) (hPQ : P b ↔ P a ∨ Q) :
    (∃ c ∈ l.set i b, P c) ↔ (∃ c ∈ l, P c) ∨ Q := by
  have hi : i < l.length := (List.getElem?_eq_some_iff.1 h).1
  constructor
  · rintro ⟨c, hc, hP⟩
    rcases List.mem_or_eq_of_mem_set hc with hc | rfl
    · exact .inl ⟨c, hc, hP⟩
    · exact (hPQ.1 hP).imp_left fun hP => ⟨a, List.mem_of_getElem? h, hP⟩
  · rintro (⟨c, hc, hP⟩ | hQ)
    · obtain ⟨j, hj⟩ := List.mem_iff_getElem?.1 hc
      by_cases hij : i = j
      · subst hij
        obtain rfl : c = a := Option.some.inj (hj.symm.trans h)
        exact ⟨b, List.mem_set hi b, hPQ.2 (.inl hP)⟩
      · exact ⟨c, List.mem_iff_getElem?.2 ⟨j, by rw [List.getElem?_set_ne hij, hj]⟩, hP⟩
    · exact ⟨b, List.mem_set hi b, hPQ.2 (.inr hQ)⟩

/-- Some call has had the transaction executed, with this reply. -/
def Logged (p : Pool κ σ τ ρ ω ε α) (x : τ × ρ) : Prop := ∃ th ∈ p.threads, x ∈ th.log

instance [DecidableEq τ] [DecidableEq ρ] (p : Pool κ σ τ ρ ω ε α) (x : τ × ρ) :
    Decidable (p.Logged x) :=
  inferInstanceAs (Decidable (∃ th ∈ p.threads, x ∈ th.log))

theorem logged_step (start : κ → Prog σ τ ρ ω ε α) (exec : ω → τ → σ → σ × ρ)
    (p : Pool κ σ τ ρ ω ε α) (m : Move κ ω) (x : τ × ρ) :
    (p.step start exec m).Logged x ↔
      p.Logged x ∨ ∃ o, p.committing m = some (o, x.1) ∧ x.2 = (exec o x.1 p.db).2 := by
  obtain ⟨c, -, hm, h⟩ | ⟨hm, h⟩ | ⟨i, o, c, l, f, hi, hm, h⟩ | ⟨i, o, c, l, t, k, hi, hm, h⟩ :=
    step_cases start exec p m
  · simp [h, hm, Logged]
  · simp [h, hm]
  · rw [h, hm]
    simp only [reduceCtorEq, false_and, exists_false]
    exact exists_mem_set_iff hi (by simp)
  · rw [h, hm]
    refine exists_mem_set_iff hi ?_
    simp only [List.mem_append, List.mem_singleton, Option.some.injEq, Prod.mk.injEq]
    refine or_congr_right ⟨fun hx => ⟨o, ⟨rfl, ?_⟩, ?_⟩, ?_⟩
    · rw [hx]
    · rw [hx]
    · rintro ⟨o', ⟨rfl, rfl⟩, hr⟩
      exact Prod.ext rfl hr

end Pool

/-! ## Rely and guarantee -/

/-- What the callers of a database agree on. -/
structure Discipline (σ τ ω : Type) where
  /-- The invariant of the database. -/
  inv : σ → Prop
  /-- How the database may change under a call between two of its steps. -/
  ext : σ → σ → Prop
  /-- What a call guarantees about a transaction, at the moment it is executed. -/
  guar : τ → σ → Prop
  /-- What is assumed about the transactions that are executed. -/
  may : ω → τ → σ → Prop
  /-- Nothing has to change. -/
  ext_refl : ∀ s, ext s s
  /-- Changes add up. -/
  ext_trans : ∀ {s s' s''}, ext s s' → ext s' s'' → ext s s''

variable {κ σ τ ρ ω ε α β : Type} {exec : ω → τ → σ → σ × ρ} {D : Discipline σ τ ω}

/-- Nothing is agreed on. -/
def Discipline.free : Discipline σ τ ω where
  inv _ := True
  ext _ _ := True
  guar _ _ := True
  may _ _ _ := True
  ext_refl _ := trivial
  ext_trans _ _ := trivial

/-- Every transaction that keeps the guarantee keeps the invariant and extends the database. -/
def Discipline.Kept (D : Discipline σ τ ω) (exec : ω → τ → σ → σ × ρ) : Prop :=
  ∀ o t s, D.inv s → D.guar t s → D.may o t s →
    D.inv (exec o t s).1 ∧ D.ext s (exec o t s).1

namespace Prog

/-- The call `p`, which has had the transactions `l` executed, keeps the discipline from `s` on
whatever the others do in between, and ends so that its log, its result and the database are
related by `Q`. -/
def Meets (D : Discipline σ τ ω) (exec : ω → τ → σ → σ × ρ)
    (Q : List (τ × ρ) → Except ε α → σ → Prop) :
    Prog σ τ ρ ω ε α → List (τ × ρ) → σ → Prop
  | .ret a, l, s => ∀ s', D.ext s s' → D.inv s' → Q l (.ok a) s'
  | .throw e, l, s => ∀ s', D.ext s s' → D.inv s' → Q l (.error e) s'
  | .read f, l, s => ∀ s', D.ext s s' → D.inv s' → ∀ o, (f o s').Meets D exec Q l s'
  | .txn t k, l, s => ∀ s', D.ext s s' → D.inv s' → D.guar t s' ∧
      ∀ o, D.may o t s' →
        (k (exec o t s').2).Meets D exec Q (l ++ [(t, (exec o t s').2)]) (exec o t s').1

variable {Q : List (τ × ρ) → Except ε α → σ → Prop} {p : Prog σ τ ρ ω ε α} {l : List (τ × ρ)}
  {s s' : σ}

/-- Every call keeps to nothing. -/
theorem meets_free : p.Meets .free exec (fun _ _ _ => True) l s := by
  induction p generalizing l s with
  | ret a | throw e => exact fun _ _ _ => trivial
  | read f ih => exact fun s' _ _ o => ih o s'
  | txn t k ih => exact fun s' _ _ => ⟨trivial, fun o _ => ih _⟩

/-- A call that keeps the discipline keeps it after the others have moved. -/
theorem Meets.ext (h : p.Meets D exec Q l s) (hs : D.ext s s') : p.Meets D exec Q l s' := by
  cases p with
  | ret a | throw e | read f | txn t k => exact fun s'' h' => h s'' (D.ext_trans hs h')

/-- A query: the rest is checked for whatever state it reads. -/
theorem Meets.query {Q : List (τ × ρ) → Except ε β → σ → Prop} {f : σ → α}
    {g : α → Prog σ τ ρ ω ε β}
    (h : ∀ s', D.ext s s' → D.inv s' → (g (f s')).Meets D exec Q l s') :
    (Prog.query f >>= g).Meets D exec Q l s :=
  fun s' hs hi _ => h s' hs hi

theorem Meets.queryAny {Q : List (τ × ρ) → Except ε β → σ → Prop} {f : ω → σ → α}
    {g : α → Prog σ τ ρ ω ε β}
    (h : ∀ s', D.ext s s' → D.inv s' → ∀ o, (g (f o s')).Meets D exec Q l s') :
    (Prog.queryAny f >>= g).Meets D exec Q l s :=
  h

theorem Meets.transaction {Q : List (τ × ρ) → Except ε β → σ → Prop} {t : τ}
    {g : ρ → Prog σ τ ρ ω ε β}
    (h : ∀ s', D.ext s s' → D.inv s' → D.guar t s' ∧ ∀ o, D.may o t s' →
      (g (exec o t s').2).Meets D exec Q (l ++ [(t, (exec o t s').2)]) (exec o t s').1) :
    (Prog.transaction t >>= g).Meets D exec Q l s :=
  h

/-- What a call that is over leaves. -/
theorem Meets.done (h : p.Meets D exec Q l s) (hd : p.Done) (hs : D.inv s) : ∃ r, Q l r s := by
  cases p with
  | ret a => exact ⟨.ok a, h s (D.ext_refl s) hs⟩
  | throw e => exact ⟨.error e, h s (D.ext_refl s) hs⟩
  | read f | txn t k => exact hd.elim

/-- **Sequencing**: a call keeps the discipline if its first part does and leaves what the rest
starts from. -/
theorem Meets.bind {Q : List (τ × ρ) → Except ε β → σ → Prop} {g : α → Prog σ τ ρ ω ε β}
    (h : p.Meets D exec (fun l r s => match r with
      | .ok a => (g a).Meets D exec Q l s
      | .error e => Q l (.error e) s) l s) :
    (p >>= g).Meets D exec Q l s := by
  induction p generalizing l s with
  | ret a =>
    -- the rest is started in some state the others have reached, and is stable in turn
    change (g a).Meets D exec Q l s
    have hg : ∀ s', D.ext s s' → D.inv s' → (g a).Meets D exec Q l s' := h
    cases hga : g a with
    | ret b => exact fun s' hs hi => (hga ▸ hg s' hs hi :) s' (D.ext_refl _) hi
    | throw e => exact fun s' hs hi => (hga ▸ hg s' hs hi :) s' (D.ext_refl _) hi
    | read f => exact fun s' hs hi => (hga ▸ hg s' hs hi :) s' (D.ext_refl _) hi
    | txn t k => exact fun s' hs hi => (hga ▸ hg s' hs hi :) s' (D.ext_refl _) hi
  | throw e => exact h
  | read f ih => exact fun s' hs hi o => ih o s' (h s' hs hi o)
  | txn t k ih => exact fun s' hs hi => ⟨(h s' hs hi).1, fun o ho => ih _ ((h s' hs hi).2 o ho)⟩

/-- What holds of a call's result may be weakened. -/
theorem Meets.mono {Q' : List (τ × ρ) → Except ε α → σ → Prop} (h : p.Meets D exec Q l s)
    (hQ : ∀ l r s, D.inv s → Q l r s → Q' l r s) : p.Meets D exec Q' l s := by
  induction p generalizing l s with
  | ret a | throw e => exact fun s' hs hi => hQ _ _ _ hi (h s' hs hi)
  | read f ih => exact fun s' hs hi o => ih o s' (h s' hs hi o)
  | txn t k ih => exact fun s' hs hi => ⟨(h s' hs hi).1, fun o ho => ih _ ((h s' hs hi).2 o ho)⟩

/-! ### Calls whose transactions need no guarantee -/

/-- Every transaction the call may have executed meets `S`, whatever it reads. -/
def Uses (S : τ → Prop) : Prog σ τ ρ ω ε α → Prop
  | .ret _ | .throw _ => True
  | .read f => ∀ o s, (f o s).Uses S
  | .txn t k => S t ∧ ∀ r, (k r).Uses S

variable {S : τ → Prop}

theorem Uses.bind {g : α → Prog σ τ ρ ω ε β} (h : p.Uses S) (hg : ∀ a, (g a).Uses S) :
    (p >>= g).Uses S := by
  induction p with
  | ret a => exact hg a
  | throw e => trivial
  | read f ih => exact fun o s => ih o s (h o s)
  | txn t k ih => exact ⟨h.1, fun r => ih r (h.2 r)⟩

theorem Uses.query {f : σ → α} : (Prog.query f : Prog σ τ ρ ω ε α).Uses S := fun _ _ => trivial

theorem Uses.queryAny {f : ω → σ → α} : (Prog.queryAny f : Prog σ τ ρ ω ε α).Uses S :=
  fun _ _ => trivial

theorem Uses.transaction {t : τ} (h : S t) : (Prog.transaction t : Prog σ τ ρ ω ε ρ).Uses S :=
  ⟨h, fun _ => trivial⟩

theorem Uses.mono {S' : τ → Prop} (h : p.Uses S) (hS : ∀ t, S t → S' t) : p.Uses S' := by
  induction p with
  | ret a | throw e => trivial
  | read f ih => exact fun o s => ih o s (h o s)
  | txn t k ih => exact ⟨hS t h.1, fun r => ih r (h.2 r)⟩

/-- The call reads nothing more, and every transaction it may still have executed meets `S`. -/
def Blind (S : τ → Prop) : Prog σ τ ρ ω ε α → Prop
  | .ret _ | .throw _ => True
  | .read _ => False
  | .txn t k => S t ∧ ∀ r, (k r).Blind S

theorem Blind.bind {g : α → Prog σ τ ρ ω ε β} (h : p.Blind S) (hg : ∀ a, (g a).Blind S) :
    (p >>= g).Blind S := by
  induction p with
  | ret a => exact hg a
  | throw e => trivial
  | read f ih => exact h.elim
  | txn t k ih => exact ⟨h.1, fun r => ih r (h.2 r)⟩

theorem Blind.mono {S' : τ → Prop} (h : p.Blind S) (hS : ∀ t, S t → S' t) : p.Blind S' := by
  induction p with
  | ret a | throw e => trivial
  | read f ih => exact h.elim
  | txn t k ih => exact ⟨hS t h.1, fun r => ih r (h.2 r)⟩

/-- A call whose transactions all keep the guarantee by themselves keeps the discipline. -/
theorem Uses.meets (h : p.Uses S) (hK : D.Kept exec) (hS : ∀ t s, S t → D.guar t s)
    (hQ : ∀ l' r s', D.ext s s' → D.inv s' → (∀ x ∈ l', x ∈ l ∨ S x.1) → Q l' r s') :
    p.Meets D exec Q l s := by
  induction p generalizing l s with
  | ret a => exact fun s' he hi => hQ l (.ok a) s' he hi fun x hx => .inl hx
  | throw e => exact fun s' he hi => hQ l (.error e) s' he hi fun x hx => .inl hx
  | read f ih =>
    exact fun s' he hi o => ih o s' (h o s') fun l' r s'' he' => hQ l' r s'' (D.ext_trans he he')
  | txn t k ih =>
    refine fun s' he hi => ⟨hS t s' h.1, fun o ho => ih _ (h.2 _) fun l' r s'' he' hi' hl => ?_⟩
    refine hQ l' r s'' (D.ext_trans he (D.ext_trans (hK o t s' hi (hS t s' h.1) ho).2 he')) hi'
      fun x hx => ?_
    rcases hl x hx with hx | hx
    · rcases List.mem_append.1 hx with hx | hx
      · exact .inl hx
      · obtain rfl := List.mem_singleton.1 hx
        exact .inr h.1
    · exact .inr hx

end Prog

namespace Pool

variable {start : κ → Prog σ τ ρ ω ε α} {Q : κ → List (τ × ρ) → Except ε α → σ → Prop}
  {p : Pool κ σ τ ρ ω ε α} {m : Move κ ω}

/-- The invariant of a pool: that of the database, and every call keeps the discipline. -/
structure Sound (D : Discipline σ τ ω) (exec : ω → τ → σ → σ × ρ)
    (Q : κ → List (τ × ρ) → Except ε α → σ → Prop) (p : Pool κ σ τ ρ ω ε α) : Prop where
  /-- The database is as agreed. -/
  inv : D.inv p.db
  /-- Every call keeps the discipline. -/
  meets : ∀ th ∈ p.threads, th.prog.Meets D exec (Q th.call) th.log p.db

theorem Sound.idle {s : σ} (h : D.inv s) : (Pool.idle s).Sound D exec Q (κ := κ) :=
  ⟨h, by simp [Pool.idle]⟩

theorem Sound.guar (h : p.Sound D exec Q) {o : ω} {t : τ} (hm : p.committing m = some (o, t)) :
    D.guar t p.db := by
  cases m with
  | call c => cases hm
  | go i o' =>
    obtain ⟨rfl, c, l, k, hi⟩ := committing_go hm
    exact (h.meets _ (List.mem_of_getElem? hi) p.db (D.ext_refl _) h.inv).1

/-- **Step lemma**: a move whose transaction is as assumed keeps the pool sound, if a call that it makes keeps
the discipline. -/
theorem Sound.step_call (h : p.Sound D exec Q) (hK : D.Kept exec)
    (hstart : ∀ c, m = .call c → ∀ s, D.inv s → (start c).Meets D exec (Q c) [] s)
    (hm : p.AtCommit D.may m) : (p.step start exec m).Sound D exec Q := by
  obtain ⟨c, hcall, -, hp⟩ | ⟨-, hp⟩ | ⟨i, o, c, l, f, hi, -, hp⟩ | ⟨i, o, c, l, t, k, hi, hc, hp⟩ :=
    step_cases start exec p m
  · rw [hp]
    refine ⟨h.inv, fun th hth => ?_⟩
    rcases List.mem_append.1 hth with hth | hth
    · exact h.meets th hth
    · obtain rfl := List.mem_singleton.1 hth
      exact hstart c hcall p.db h.inv
  · rwa [hp]
  · rw [hp]
    refine ⟨h.inv, fun th hth => ?_⟩
    rcases List.mem_or_eq_of_mem_set hth with hth | rfl
    · exact h.meets th hth
    · exact h.meets _ (List.mem_of_getElem? hi) p.db (D.ext_refl _) h.inv o
  · -- the other calls live on in the extended database
    have hth := h.meets _ (List.mem_of_getElem? hi) p.db (D.ext_refl _) h.inv
    have hmay := hm o t hc
    obtain ⟨hinv, hext⟩ := hK o t p.db h.inv hth.1 hmay
    rw [hp]
    refine ⟨hinv, fun th hth' => ?_⟩
    rcases List.mem_or_eq_of_mem_set hth' with hth' | rfl
    · exact (h.meets th hth').ext hext
    · exact hth.2 o hmay

theorem Sound.step (h : p.Sound D exec Q) (hK : D.Kept exec)
    (hstart : ∀ c s, D.inv s → (start c).Meets D exec (Q c) [] s)
    (hm : p.AtCommit D.may m) : (p.step start exec m).Sound D exec Q :=
  h.step_call hK (fun c _ => hstart c) hm

/-- **Runs.** A pool whose transactions are all as assumed stays sound. -/
theorem Sound.always (h : p.Sound D exec Q) (hK : D.Kept exec)
    (hstart : ∀ c s, D.inv s → (start c).Meets D exec (Q c) [] s) {ms : List (Move κ ω)}
    (hms : Along (Pool.step start exec) (Pool.AtCommit D.may) p ms) :
    Always (Pool.step start exec) (Sound D exec Q) p ms :=
  Always.of_step h (fun _ _ hs hm => hs.step hK hstart hm) hms

/-! ### Who hands over what -/

section
variable {S : κ → τ → Prop}

/-- Every call only hands over what it may. -/
def Uses (S : κ → τ → Prop) (p : Pool κ σ τ ρ ω ε α) : Prop :=
  ∀ th ∈ p.threads, th.prog.Uses (S th.call)

theorem Uses.step (h : p.Uses S) (hstart : ∀ c, (start c).Uses (S c)) :
    (p.step start exec m).Uses S := by
  obtain ⟨c, -, -, hp⟩ | ⟨-, hp⟩ | ⟨i, o, c, l, f, hi, -, hp⟩ | ⟨i, o, c, l, t, k, hi, -, hp⟩ :=
    step_cases start exec p m
  · rw [hp]
    intro th hth
    rcases List.mem_append.1 hth with hth | hth
    · exact h th hth
    · obtain rfl := List.mem_singleton.1 hth
      exact hstart c
  · rwa [hp]
  · rw [hp]
    intro th hth
    rcases List.mem_or_eq_of_mem_set hth with hth | rfl
    · exact h th hth
    · exact h _ (List.mem_of_getElem? hi) o p.db
  · rw [hp]
    intro th hth
    rcases List.mem_or_eq_of_mem_set hth with hth | rfl
    · exact h th hth
    · exact (h _ (List.mem_of_getElem? hi)).2 _

/-- A transaction that is executed was handed over by a call that may. -/
theorem Uses.committing (h : p.Uses S) {o : ω} {t : τ} (hm : p.committing m = some (o, t)) :
    ∃ c, S c t := by
  cases m with
  | call c => cases hm
  | go i o' =>
    obtain ⟨-, c, l, k, hi⟩ := committing_go hm
    exact ⟨c, (h _ (List.mem_of_getElem? hi)).1⟩

theorem uses_always (hstart : ∀ c, (start c).Uses (S c)) {s : σ} {ms : List (Move κ ω)} :
    Always (Pool.step start exec) (Uses S) (Pool.idle s) ms :=
  Always.of_inductive (fun _ h => (List.not_mem_nil h).elim) fun _ _ h => h.step hstart

end

/-! ### What a discipline is for -/

section
variable {C : ω → τ → σ → Prop} {I P : σ → Prop} {s : σ} {ms : List (Move κ ω)}

/-- A move keeps of the database what every guaranteed transaction that meets `C` keeps. -/
theorem Sound.keep (h : p.Sound D exec Q)
    (keep : ∀ o t s, D.inv s → D.guar t s → I s → C o t s → I (exec o t s).1) (hI : I p.db)
    (hC : p.AtCommit C m) : I (p.step start exec m).db := by
  obtain ⟨-, hdb⟩ | ⟨o, t, hm, hdb⟩ := step_db start exec p m
  · rwa [hdb]
  · rw [hdb]
    exact keep o t p.db h.inv (h.guar hm) hI (hC o t hm)

/-- **Sufficiency.** Over calls that keep a discipline, a run whose transactions all meet `C` keeps
what every guaranteed transaction that meets `C` keeps. -/
theorem always_of_keep (h0 : D.inv s) (hI : I s) (hK : D.Kept exec) (hmay : ∀ o t s, D.may o t s)
    (hstart : ∀ c s, D.inv s → (start c).Meets D exec (Q c) [] s)
    (keep : ∀ o t s, D.inv s → D.guar t s → I s → C o t s → I (exec o t s).1)
    (hC : Along (Pool.step start exec) (AtCommit C) (Pool.idle s) ms) :
    Always (Pool.step start exec) (fun p => p.Sound D exec Q ∧ I p.db) (Pool.idle s) ms :=
  Always.of_step ⟨.idle h0, hI⟩ (fun p _ hp hm =>
    ⟨hp.1.step hK hstart fun o t _ => hmay o t p.db, hp.1.keep keep hp.2 hm⟩) hC

/-- **Exactness.** If moreover a guaranteed transaction that does not meet `C` is seen to violate `P`
in what it leaves, a run keeps `P` exactly when all its transactions meet `C`. -/
theorem always_iff_atCommit (h0 : D.inv s) (hI : I s) (hK : D.Kept exec)
    (hmay : ∀ o t s, D.may o t s) (hstart : ∀ c s, D.inv s → (start c).Meets D exec (Q c) [] s)
    (hIP : ∀ s, I s → P s)
    (keep : ∀ o t s, D.inv s → D.guar t s → I s → C o t s → I (exec o t s).1)
    (need : ∀ o t s, D.inv s → D.guar t s → I s → P (exec o t s).1 → C o t s) :
    Always (Pool.step start exec) (fun p => P p.db) (Pool.idle s) ms ↔
      Along (Pool.step start exec) (AtCommit C) (Pool.idle s) ms := by
  refine always_iff_along (I := fun p => p.Sound D exec Q ∧ I p.db) ⟨.idle h0, hI⟩
    (fun p hp => hIP _ hp.2) (fun p m hp hm => ⟨hp.1.step hK hstart fun o t _ => hmay o t p.db,
      hp.1.keep keep hp.2 hm⟩) fun p m hp hP o t hm => ?_
  obtain ⟨hnone, -⟩ | ⟨o', t', hm', hdb⟩ := step_db start exec p m
  · rw [hnone] at hm
    cases hm
  · obtain ⟨rfl, rfl⟩ : o' = o ∧ t' = t := by simpa [hm'] using hm
    rw [hdb] at hP
    exact need o' t' p.db hp.1.inv (hp.1.guar hm) hp.2 hP

/-- **Exactness for relations.** If a guaranteed transaction that meets `E` relates the database to
what it leaves exactly if it meets `C`, then along a run any two databases with only such
transactions between them are related exactly when all these meet `C`. -/
theorem between_iff_atCommit {E : ω → τ → σ → Prop} {R : σ → σ → Prop} (h0 : D.inv s)
    (hK : D.Kept exec) (hmay : ∀ o t s, D.may o t s)
    (hstart : ∀ c s, D.inv s → (start c).Meets D exec (Q c) [] s) (refl : ∀ s, R s s)
    (trans : ∀ s s' s'', R s s' → R s' s'' → R s s'')
    (hR : ∀ o t s, D.inv s → D.guar t s → E o t s → (R s (exec o t s).1 ↔ C o t s)) :
    Between (Pool.step start exec) (AtCommit E) (fun p p' => R p.db p'.db) (Pool.idle s) ms ↔
      Along (Pool.step start exec) (AtCommit fun o t s => E o t s → C o t s) (Pool.idle s) ms := by
  refine (between_iff_along (R := fun p p' : Pool κ σ τ ρ ω ε α => R p.db p'.db)
    (fun p => refl p.db) fun _ _ _ h h' => trans _ _ _ h h').trans ?_
  refine Along.congr (I := Sound D exec Q) ((Sound.idle h0).always hK hstart ?_) fun p m hp => ?_
  · exact fun pre m _ o t _ => hmay o t _
  obtain ⟨hm, hdb⟩ | ⟨o, t, hm, hdb⟩ := step_db start exec p m
  · rw [hdb]
    exact iff_of_true (fun _ => refl _) (atCommit_none hm)
  · rw [hdb, atCommit_some hm, atCommit_some hm]
    exact imp_congr_right fun hE => hR o t p.db hp.inv (hp.guar hm) hE

end

/-! ### Histories of the transactions -/

section
variable {η : Type} {write : η → ω → τ → σ → η} {s : σ} {h₀ : η} {ms : List (Move κ ω)}

/-- The history of a pool to which every transaction adds what `write` says. -/
def logging (write : η → ω → τ → σ → η) (p : Pool κ σ τ ρ ω ε α) (h : η) (m : Move κ ω) : η :=
  match p.committing m with
  | none => h
  | some (o, t) => write h o t p.db

/-- A move that executes no transaction leaves the database and the history alone; one that does
changes them as this transaction does. -/
theorem logging_cases (start : κ → Prog σ τ ρ ω ε α) (exec : ω → τ → σ → σ × ρ)
    (write : η → ω → τ → σ → η) (x : Pool κ σ τ ρ ω ε α × η) (m : Move κ ω) :
    (x.1.committing m = none ∧ (noting (Pool.step start exec) (logging write) x m).1.db = x.1.db ∧
      (noting (Pool.step start exec) (logging write) x m).2 = x.2) ∨
    ∃ o t, x.1.committing m = some (o, t) ∧
      (noting (Pool.step start exec) (logging write) x m).1.db = (exec o t x.1.db).1 ∧
      (noting (Pool.step start exec) (logging write) x m).2 = write x.2 o t x.1.db := by
  obtain ⟨hm, hdb⟩ | ⟨o, t, hm, hdb⟩ := step_db start exec x.1 m
  · exact .inl ⟨hm, hdb, by rw [noting, logging, hm]⟩
  · exact .inr ⟨o, t, hm, hdb, by rw [noting, logging, hm]⟩

/-- **Exactness with a history.** What the transactions may do may depend on what they have done. -/
theorem always_iff_logging {I P : σ → η → Prop} {C : η → ω → τ → σ → Prop} (h0 : D.inv s)
    (hI : I s h₀) (hK : D.Kept exec) (hmay : ∀ o t s, D.may o t s)
    (hstart : ∀ c s, D.inv s → (start c).Meets D exec (Q c) [] s) (hIP : ∀ s h, I s h → P s h)
    (keep : ∀ o t s h, D.inv s → D.guar t s → I s h → C h o t s →
      I (exec o t s).1 (write h o t s))
    (need : ∀ o t s h, D.inv s → D.guar t s → I s h → P (exec o t s).1 (write h o t s) →
      C h o t s) :
    Always (noting (Pool.step start exec) (logging write)) (fun x => P x.1.db x.2)
        (Pool.idle s, h₀) ms ↔
      Along (noting (Pool.step start exec) (logging write))
        (fun x m => x.1.AtCommit (C x.2) m) (Pool.idle s, h₀) ms := by
  refine always_iff_along (I := fun x => x.1.Sound D exec Q ∧ I x.1.db x.2) ⟨.idle h0, hI⟩
    (fun x hx => hIP _ _ hx.2) (fun x m hx hm => ⟨?_, ?_⟩) fun x m hx hP o t hm => ?_
  · exact hx.1.step hK hstart fun o t _ => hmay o t x.1.db
  · obtain ⟨-, hdb, hh⟩ | ⟨o, t, hc, hdb, hh⟩ := logging_cases start exec write x m
    · rw [hdb, hh]
      exact hx.2
    · rw [hdb, hh]
      exact keep o t _ _ hx.1.inv (hx.1.guar hc) hx.2 (hm o t hc)
  · obtain ⟨hnone, -⟩ | ⟨o', t', hc, hdb, hh⟩ := logging_cases start exec write x m
    · rw [hnone] at hm
      cases hm
    · obtain ⟨rfl, rfl⟩ : o' = o ∧ t' = t := by simpa [hc] using hm
      rw [hdb, hh] at hP
      exact need o' t' _ _ hx.1.inv (hx.1.guar hc) hx.2 hP

/-- What is known of a transaction from the call that hands it over may be added to what is assumed. -/
theorem along_uses {S : κ → τ → Prop} {C : η → ω → τ → σ → Prop} (hstart : ∀ c, (start c).Uses (S c))
    (hC : Along (noting (Pool.step start exec) (logging write))
      (fun x m => x.1.AtCommit (C x.2) m) (Pool.idle s, h₀) ms) :
    Along (noting (Pool.step start exec) (logging write))
      (fun x m => x.1.AtCommit (fun o t s => C x.2 o t s ∧ ∃ c, S c t) m) (Pool.idle s, h₀) ms := by
  have hU : Always (noting (Pool.step start exec) (logging write)) (fun x => x.1.Uses S)
      (Pool.idle s, h₀) ms := (uses_always hstart).noting
  intro pre m hpre o t hm
  exact ⟨hC pre m hpre o t hm, (hU pre ((List.prefix_append _ _).trans hpre)).committing hm⟩

/-- **Exactness without a discipline**: where the transactions alone keep what is to be kept. -/
theorem always_iff_log {I P : σ → η → Prop} {C : η → ω → τ → σ → Prop} (hI : I s h₀)
    (hIP : ∀ s h, I s h → P s h)
    (keep : ∀ o t s h, I s h → C h o t s → I (exec o t s).1 (write h o t s))
    (need : ∀ o t s h, I s h → P (exec o t s).1 (write h o t s) → C h o t s) :
    Always (noting (Pool.step start exec) (logging write)) (fun x => P x.1.db x.2)
        (Pool.idle s, h₀) ms ↔
      Along (noting (Pool.step start exec) (logging write))
        (fun x m => x.1.AtCommit (C x.2) m) (Pool.idle s, h₀) ms :=
  always_iff_logging (D := .free) (Q := fun _ _ _ _ => True) trivial hI
    (fun _ _ _ _ _ _ => ⟨trivial, trivial⟩) (fun _ _ _ => trivial) (fun _ _ _ => Prog.meets_free) hIP
    (fun o t s h _ _ => keep o t s h) fun o t s h _ _ => need o t s h

/-- What the transactions that meet `C` keep holds always in a run of such. -/
theorem always_of_log {I : σ → η → Prop} {C : η → ω → τ → σ → Prop} (hI : I s h₀)
    (keep : ∀ o t s h, I s h → C h o t s → I (exec o t s).1 (write h o t s))
    (hC : Along (noting (Pool.step start exec) (logging write))
      (fun x m => x.1.AtCommit (C x.2) m) (Pool.idle s, h₀) ms) :
    Always (noting (Pool.step start exec) (logging write)) (fun x => I x.1.db x.2)
      (Pool.idle s, h₀) ms := by
  refine Always.of_step hI (fun x m hx hm => ?_) hC
  obtain ⟨-, hdb, hh⟩ | ⟨o, t, hc, hdb, hh⟩ := logging_cases start exec write x m
  · rwa [hdb, hh]
  · rw [hdb, hh]
    exact keep o t _ _ hx (hm o t hc)

end

end Pool

end ChronoSynth

import ChronoSynth.Earning.Caps

/-!
# What a fresh cycle applies for

A cycle that sees all tasks of the persona, and beside which no task is taken for it, only applies for tasks that there
is room for (`start_traces`): what it has counted bounds what there is (`Counts`), and the gates compare the caps with
what it has counted.
-/

namespace ChronoSynth.Earning

open Persona (Id Time TenantDb Tx MarketplaceTask PersonaCore getPersonaDetail)
open Lease (LeaseScope)

variable (P : EarningPersona)

/-- What a cycle relies on: no task is taken for the persona, and the cycle sees all tasks of it. -/
def undisturbed : EarningCall → Discipline EarningDb EarningTx EarningEnv
  | .cycle ownerUserId _ =>
    { inv := fun db => Legible P ownerUserId db ∧ ∀ task ∈ db.tenant.tasks, 0 ≤ task.reward
      ext := Eases P.personaId
      guar := fun _ _ => True
      may := fun _ _ _ => True
      ext_refl := fun _ => .refl
      ext_trans := .trans }
  | _ =>
    { inv := fun _ => True
      ext := Eases P.personaId
      guar := fun _ _ => True
      may := fun _ _ _ => True
      ext_refl := fun _ => .refl
      ext_trans := .trans }

def EarningPersona.effectivePolicy : EarningPolicyConfig := P.policy.getD DEFAULT_EARNING_POLICY

/-- A cycle applies for tasks that there is room for. -/
def AppliesWithRoom : EarningCall → List (EarningTx × EarningReply) → EarningTx → EarningDb → Prop
  | .cycle _ _, _, .market (.applyToTask taskId _), db => Room P.effectivePolicy P.personaId db taskId
  | _, _, _, _ => True

/-! ## What a cycle sees -/

section
variable {P} {ownerUserId : Id} {db db' : EarningDb} {o : EarningEnv}

theorem seen_perm (h : Legible P ownerUserId db) :
    (marketplaceTasks ownerUserId P.personaId o db).Perm (db.tenant.tasks.filter fun t =>
      t.publisherUserId = ownerUserId ∨ t.assigneePersonaId = some P.personaId) := by
  obtain ⟨hsome, hle⟩ := h
  obtain ⟨detail, hd⟩ := Option.isSome_iff_exists.1 hsome
  have hperm := (List.perm_insertionSort (fun a b : MarketplaceTask => b.updatedAt ≤ a.updatedAt)
    (o.order (db.tenant.tasks.filter fun t =>
      t.publisherUserId = ownerUserId ∨ t.assigneePersonaId = some P.personaId)).val).trans (o.order _).property
  rw [marketplaceTasks, hd]
  simp only
  rwa [List.take_of_length_le (hperm.length_eq.trans_le hle)]

theorem seen_filter (h : Legible P ownerUserId db) {q : MarketplaceTask → Prop} [DecidablePred q]
    (hq : ∀ t, q t → t.assigneePersonaId = some P.personaId) :
    ((marketplaceTasks ownerUserId P.personaId o db).filter fun t => q t).Perm
      (db.tenant.tasks.filter fun t => q t) := by
  refine ((seen_perm h).filter _).trans (List.Perm.of_eq ?_)
  rw [List.filter_filter]
  refine List.filter_congr fun t _ => ?_
  by_cases hqt : q t
  · simp [hqt, hq t hqt]
  · simp [hqt]

theorem rewardOf_perm {l l' : List MarketplaceTask} (h : l.Perm l') : rewardOf l = rewardOf l' :=
  (h.map _).sum_eq

end

/-! ## What a cycle has counted -/

/-- The counts of a cycle bound the quantities. -/
structure Counts (snapshot : EarningPersonaSnapshot) (p : EarningCycleInput.Progress) (db : EarningDb) : Prop where
  openCount : (openOf P.personaId db.tenant.tasks).length ≤ snapshot.openTaskCount
  exposure : rewardOf (exposedOf P.personaId db.now db.tenant.tasks) ≤ p.todayExposure
  takenFrom : ∀ u, (takenFromOf P.personaId db.now u db.tenant.tasks).length ≤
    (p.windowAmlTasks.filter fun t => t.publisherUserId = u).length

section
variable {P} {snapshot : EarningPersonaSnapshot} {p : EarningCycleInput.Progress} {db db' : EarningDb}
  {task : MarketplaceTask}

theorem Counts.eases (h : Counts P snapshot p db) (he : Eases P.personaId db db') : Counts P snapshot p db' :=
  ⟨he.below.openCount.trans h.openCount, he.below.exposure.trans h.exposure,
    fun u => (he.below.takenFrom u).trans (h.takenFrom u)⟩

theorem Counts.apply (h : Counts P snapshot p db) (hpos : 0 ≤ task.reward) (now : Time) :
    Counts P snapshot (p.apply task P.personaId now) db := by
  refine ⟨h.openCount, h.exposure.trans ?_, fun u => (h.takenFrom u).trans ?_⟩
  · exact le_add_of_nonneg_right hpos
  · simp only [EarningCycleInput.Progress.apply, List.filter_append, List.length_append]
    exact Nat.le_add_right _ _

/-- **The gates.** What passes them finds room. -/
theorem Counts.room (h : Counts P snapshot p db) (hrow : ∃ row ∈ db.tenant.tasks, row.fixed = task.fixed)
    {input : EarningAdmissionInput} (hinput : input.task = task ∧ input.config = P.effectivePolicy ∧
      input.persona.openTaskCount = snapshot.openTaskCount ∧ input.todayRewardExposure = p.todayExposure)
    (ha : (evaluateEarningAdmission input).admission = .autonomous)
    (hb : (evaluateAmlAggregate ⟨task.publisherUserId, task.reward, p.windowAmlTasks, P.effectivePolicy.aml⟩).blocked
      = false) : Room P.effectivePolicy P.personaId db task.id := by
  obtain ⟨row, hmem, hfix⟩ := hrow
  simp only [MarketplaceTask.fixed, Prod.mk.injEq] at hfix
  obtain ⟨ho, hx⟩ := admitted ha
  obtain ⟨ht, hc, hn, he⟩ := hinput
  rw [hc, hn] at ho
  rw [hc, he, ht] at hx
  refine ⟨row, hmem, hfix.1, h.openCount.trans_lt ho, ?_, ?_⟩
  · rw [hfix.2.2.1]
    linarith [h.exposure]
  · rw [hfix.2.1]
    exact (h.takenFrom _).trans_lt ((Nat.lt_succ_self _).trans (not_blocked hb))

end

/-! ## The cycle -/

section
variable {P} {ownerUserId : Id} {n : Option ℤ} {snapshot : EarningPersonaSnapshot} {l : List (EarningTx × EarningReply)}
  {s : EarningDb}

/-- A cycle from here on: it applies with room, and ends so that `R` holds. -/
abbrev Follows {α : Type} (P : EarningPersona) (ownerUserId : Id) (n : Option ℤ) (R : α → EarningDb → Prop)
    (p : EarningProg α) (l : List (EarningTx × EarningReply)) (s : EarningDb) : Prop :=
  p.Traces (undisturbed P (.cycle ownerUserId n)) exec (AppliesWithRoom P (.cycle ownerUserId n)) (Prog.Leaves R) l s

theorem applyToTask_uses (i : Persona.ApplyTaskInput) :
    (Persona.applyToTask i).Uses (· = .applyToTask i.taskId i.personaId) := by
  refine .bind .query fun detail => ?_
  split
  · split_ifs
    · trivial
    · refine .bind .query fun task => ?_
      split
      · split_ifs
        · trivial
        · refine .bind .query fun application => ?_
          split
          · trivial
          · refine .bind (.transaction rfl) fun r => ?_
            split
            · trivial
            · exact .query
      · trivial
  · trivial

theorem applyViaPipeline_uses (i : EarningCycleInput) (task : MarketplaceTask) :
    (i.applyViaPipeline task).Uses (· = .market (.applyToTask task.id i.personaId)) := by
  refine .bind .queryAny fun permitted => ?_
  split
  · refine .bind (Prog.Uses.attempt ((applyToTask_uses _).embed fun t ht => ?_)) fun r => ?_
    · rw [ht]
    · split <;> trivial
  · trivial

theorem considerTask_follows {task : MarketplaceTask} {p : EarningCycleInput.Progress} (hc : Counts P snapshot p s)
    (hrow : ∃ row ∈ s.tenant.tasks, row.fixed = task.fixed) (hpos : 0 ≤ task.reward) :
    Follows P ownerUserId n (fun p' s' => Counts P snapshot p' s' ∧ Eases P.personaId s s')
      ((P.input ownerUserId n).considerTask snapshot task p) l s := by
  have hskip : ∀ {p' : EarningCycleInput.Progress} {l' s'}, Eases P.personaId s s' →
      p'.todayExposure = p.todayExposure → p'.windowAmlTasks = p.windowAmlTasks →
      Follows P ownerUserId n (fun p' s' => Counts P snapshot p' s' ∧ Eases P.personaId s s')
        (Prog.ret p') l' s' := by
    intro p' l' s' he hx hw
    refine Prog.Traces.ret fun s'' he' _ => ⟨?_, he.trans he'⟩
    obtain ⟨h₁, h₂, h₃⟩ := hc.eases (he.trans he')
    exact ⟨h₁, hx ▸ h₂, hw ▸ h₃⟩
  unfold EarningCycleInput.considerTask
  split
  · exact hskip .refl rfl rfl
  refine Prog.Uses.readSeq (.bind .queryAny fun _ => trivial) fun reason l₁ s₁ h₁ => ?_
  split
  · exact hskip h₁ rfl rfl
  change Follows P ownerUserId n _ (if (evaluateAmlAggregate _).blocked = true then _ else _) l₁ s₁
  split
  · exact hskip h₁ rfl rfl
  next hb =>
  refine Prog.Uses.readSeq (.bind .queryAny fun _ => trivial) fun completed l₂ s₂ h₂ => ?_
  refine Prog.Uses.readSeq (.bind .queryAny fun _ => trivial) fun isNew l₃ s₃ h₃ => ?_
  have h₁₃ : Eases P.personaId s s₃ := (h₁.trans h₂).trans h₃
  generalize hadm : evaluateEarningAdmission _ = admission
  dsimp only
  split
  · exact hskip h₁₃ rfl rfl
  next hf =>
  refine Prog.Uses.readSeq (.bind .queryAny fun _ => trivial) fun decision l₄ s₄ h₄ => ?_
  have h₁₄ : Eases P.personaId s s₄ := h₁₃.trans h₄
  split
  · exact hskip h₁₄ rfl rfl
  next hr =>
  split
  · exact hskip h₁₄ rfl rfl
  next hs =>
  have hauto : admission.admission = .autonomous := by
    cases h : admission.admission with
    | autonomous => rfl
    | needs_human_review => exact absurd (.inl h) hr
    | forbidden => exact absurd h hf
  -- whatever else has happened, the gates have let the task through
  have hroom : ∀ s', Eases P.personaId s₄ s' → Room P.effectivePolicy P.personaId s' task.id := fun s' hs' => by
    have he := h₁₄.trans hs'
    obtain ⟨row, hmem, hfix⟩ := hrow
    obtain ⟨row', hmem', hfix'⟩ := he.rows row hmem
    exact (hc.eases he).room ⟨row', hmem', hfix'.trans hfix⟩ ⟨rfl, rfl, rfl, rfl⟩ (hadm ▸ hauto)
      (Bool.eq_false_iff.2 hb)
  refine Prog.Uses.seq (applyViaPipeline_uses _ _) (fun l' t s' hs' hi ht => ?_) fun ok l₅ s₅ h₅ => ?_
  · subst ht
    exact ⟨hroom s' hs', fun o => exec_eases hi.2 rfl⟩
  have h₁₅ := h₁₄.trans h₅
  split
  · refine Prog.Traces.query fun s₆ h₆ _ => Prog.Traces.ret fun s₇ h₇ _ => ?_
    have he := (h₁₅.trans h₆).trans h₇
    exact ⟨(hc.eases he).apply hpos _, he⟩
  · exact hskip h₁₅ rfl rfl

def Listed (tasks : List MarketplaceTask) (db : EarningDb) : Prop :=
  ∀ task ∈ tasks, 0 ≤ task.reward ∧ ∃ row ∈ db.tenant.tasks, row.fixed = task.fixed

theorem Listed.eases {tasks : List MarketplaceTask} {s' : EarningDb} (h : Listed tasks s)
    (he : Eases P.personaId s s') : Listed tasks s' := by
  intro task htask
  obtain ⟨hpos, row, hrow, hfix⟩ := h task htask
  obtain ⟨row', hrow', hfix'⟩ := he.rows row hrow
  exact ⟨hpos, row', hrow', hfix'.trans hfix⟩

theorem considerTasks_follows {tasks : List MarketplaceTask} {p : EarningCycleInput.Progress}
    (hc : Counts P snapshot p s) (hl : Listed tasks s) :
    Follows P ownerUserId n (Counts P snapshot) ((P.input ownerUserId n).considerTasks snapshot tasks p) l s := by
  induction tasks generalizing p l s with
  | nil => exact Prog.Traces.ret fun s' he _ => hc.eases he
  | cons task tasks ih =>
    obtain ⟨hpos, hrow⟩ := hl task (List.mem_cons_self ..)
    have hrest : Listed tasks s := fun t ht => hl t (List.mem_cons_of_mem _ ht)
    exact Prog.Traces.seq (considerTask_follows hc hrow hpos) fun p' l' s' h => ih h.1 (hrest.eases h.2)

theorem listOpenTasks_listed {o : EarningEnv} (hpos : ∀ task ∈ s.tenant.tasks, 0 ≤ task.reward) :
    Listed (listOpenTasks o s) s := by
  intro task htask
  have hmem := (o.order (s.tenant.tasks.filter (·.status = .open))).property.mem_iff.1
    ((List.perm_insertionSort _ _).mem_iff.1 htask)
  have hin := (List.mem_filter.1 hmem).1
  exact ⟨hpos task hin, task, hin, rfl⟩

theorem runCycleBody_follows {persona : PersonaCore} :
    Follows P ownerUserId n (fun _ _ => True) ((P.input ownerUserId n).runCycleBody persona) l s := by
  unfold EarningCycleInput.runCycleBody
  refine Prog.Traces.queryAny fun s₁ h₁ hi₁ o₁ => ?_
  have hl := listOpenTasks_listed (o := o₁) hi₁.2
  -- the open tasks of the persona
  refine Prog.Traces.seq (R := fun snapshot s' => Eases P.personaId s₁ s' ∧
    (openOf P.personaId s'.tenant.tasks).length ≤ snapshot.openTaskCount) ?_ fun snapshot l₂ s₂ h₂ => ?_
  · unfold EarningCycleInput.buildPersonaSnapshot
    refine Prog.Traces.seq (R := fun count s' => Eases P.personaId s₁ s' ∧
      (openOf P.personaId s'.tenant.tasks).length ≤ count) ?_ fun count l' s' hcount => ?_
    · refine Prog.Traces.queryAny fun s' hs' hi' o' => Prog.Traces.ret fun s'' hs'' _ => ⟨hs'.trans hs'', ?_⟩
      have hp := seen_filter (o := o') hi'.1 (q := fun t => t.assigneePersonaId = some P.personaId ∧
        t.status = .accepted) fun t ht => ht.1
      exact hs''.below.openCount.trans hp.length_eq.ge
    · refine Prog.Uses.readSeq (.bind .queryAny fun _ => trivial) fun streak l'' s'' h'' => ?_
      refine Prog.Traces.ret fun s₃ h₃ _ => ?_
      have he : Eases P.personaId s' s₃ := h''.trans h₃
      exact ⟨hcount.1.trans he, he.below.openCount.trans hcount.2⟩
  -- the rewards of the day
  refine Prog.Traces.seq (R := fun exposure s' => Eases P.personaId s₂ s' ∧
    rewardOf (exposedOf P.personaId s'.now s'.tenant.tasks) ≤ exposure) ?_ fun exposure l₃ s₃ h₃ => ?_
  · unfold EarningCycleInput.computeTodayExposure
    refine Prog.Traces.query fun s' hs' _ => Prog.Traces.queryAny fun s'' hs'' hi'' o' => ?_
    refine Prog.Traces.ret fun s₃ h₃ _ => ⟨(hs'.trans hs'').trans h₃, ?_⟩
    have hp := seen_filter (o := o') hi''.1 (q := fun t => t.assigneePersonaId = some P.personaId ∧
      t.status = .accepted ∧ InWindow s'.now t) fun t ht => ht.1
    exact (h₃.below.exposure.trans (below_later hs''.now hi''.2).exposure).trans (rewardOf_perm hp).ge
  -- the tasks of the day
  refine Prog.Traces.seq (R := fun window s' => Eases P.personaId s₃ s' ∧
    ∀ u, (takenFromOf P.personaId s'.now u s'.tenant.tasks).length ≤
      (window.filter fun t => t.publisherUserId = u).length) ?_ fun window l₄ s₄ h₄ => ?_
  · unfold EarningCycleInput.computeAmlWindowTasks
    refine Prog.Traces.query fun s' hs' _ => Prog.Traces.queryAny fun s'' hs'' hi'' o' => ?_
    refine Prog.Traces.ret fun s₄ h₄ _ => ⟨(hs'.trans hs'').trans h₄, fun u => ?_⟩
    have hp := seen_filter (o := o') hi''.1 (q := fun t => t.assigneePersonaId = some P.personaId ∧
      (t.status = .accepted ∨ t.status = .completed) ∧ InWindow s'.now t) fun t ht => ht.1
    exact ((h₄.below.takenFrom u).trans ((below_later hs''.now hi''.2).takenFrom u)).trans
      (hp.filter _).length_eq.ge
  have hc : Counts P snapshot ⟨exposure, window, [], 0, 0, 0⟩ s₄ :=
    ⟨(h₃.1.trans h₄.1).below.openCount.trans h₂.2, h₄.1.below.exposure.trans h₃.2, h₄.2⟩
  refine Prog.Traces.seq (considerTasks_follows hc fun task htask => ?_) fun p l₅ s₅ h₅ =>
    Prog.Traces.ret fun _ _ _ => trivial
  exact (hl.eases ((h₂.1.trans h₃.1).trans h₄.1)) task (List.mem_of_mem_take htask)

theorem leaseCall_uses {α : Type} (p : Lease.LeaseProg α) : (leaseCall p).Uses fun t => ∃ cmd, t = .lease cmd :=
  Prog.uses_any.embed fun cmd _ => ⟨cmd, rfl⟩

theorem lease_allowed {t : EarningTx} (ht : ∃ cmd, t = .lease cmd) :
    AppliesWithRoom P (.cycle ownerUserId n) l t s ∧ ∀ o, Eases P.personaId s (exec o t s).1 := by
  obtain ⟨cmd, rfl⟩ := ht
  exact ⟨trivial, fun o => .of_eq rfl rfl⟩

-- what a call of the lease does in detail no longer matters
attribute [local irreducible] leaseCall

/-- The work under the lease is all that matters of `withLease`. -/
theorem withLease_follows {α : Type} {scope : LeaseScope} {ttlMs : ℚ} {fn : EarningProg α}
    (hfn : ∀ l s, Follows P ownerUserId n (fun _ _ => True) fn l s) :
    Follows P ownerUserId n (fun _ _ => True) (withLease scope ttlMs fn) l s := by
  have hlease : ∀ (l' : List (EarningTx × EarningReply)) (t : EarningTx) (s' : EarningDb), (∃ cmd, t = .lease cmd) →
      AppliesWithRoom P (.cycle ownerUserId n) l' t s' ∧ ∀ o, Eases P.personaId s' (exec o t s').1 :=
    fun _ _ _ => lease_allowed
  have hwork : ∀ l' s', Follows P ownerUserId n (fun _ _ => True)
      (fn.attempt : EarningProg (Except EarningError α)) l' s' := fun l' s' =>
    Prog.Traces.attempt ((hfn l' s').mono (fun _ _ _ _ h => h) fun _ _ _ _ _ _ _ => trivial)
  unfold withLease
  refine Prog.Traces.query fun s₂ _ _ => ?_
  refine Prog.Uses.seq (leaseCall_uses _) (fun l' t s' _ _ => hlease l' t s') fun handle l₃ s₃ _ => ?_
  split
  · exact Prog.Traces.ret fun _ _ _ => trivial
  · refine Prog.Traces.seq (hwork l₃ s₃) fun result l₄ s₄ _ => ?_
    refine Prog.Uses.seq (leaseCall_uses _) (fun l' t s' _ _ => hlease l' t s') fun _ l₅ s₅ _ => ?_
    split
    · exact Prog.Traces.ret fun _ _ _ => trivial
    · exact Prog.Traces.thrown

attribute [local irreducible] withLease

/-- **A cycle that is not disturbed applies for tasks that there is room for.** -/
theorem runEarningCycle_follows :
    Follows P ownerUserId n (fun _ _ => True) (runEarningCycle (P.input ownerUserId n)) l s := by
  unfold runEarningCycle
  refine Prog.Traces.query fun s₁ _ _ => ?_
  split
  · exact Prog.Traces.ret fun _ _ _ => trivial
  split
  · exact Prog.Traces.ret fun _ _ _ => trivial
  refine Prog.Traces.seq (withLease_follows fun _ _ => runCycleBody_follows) fun result l₂ s₂ _ => ?_
  split
  · exact Prog.Traces.ret fun _ _ _ => trivial
  · exact Prog.Traces.ret fun _ _ _ => trivial

theorem start_follows (c : EarningCall) (s : EarningDb) :
    (start P c).Traces (undisturbed P c) exec (AppliesWithRoom P c) (fun _ _ _ => True) [] s := by
  cases c with
  | cycle ownerUserId n =>
    refine Prog.Traces.mono (Prog.Traces.seq runEarningCycle_follows fun result l' s' _ =>
      Prog.Traces.ret (R := fun _ _ => True) fun _ _ _ => trivial) (fun _ _ _ _ h => h) fun _ _ _ _ _ => trivial
  | market call => exact Prog.traces_any (fun _ _ _ => trivial) fun _ _ _ => trivial
  | wait ms => exact Prog.traces_any (fun _ _ _ => trivial) fun _ _ _ => trivial

end

end ChronoSynth.Earning

import ChronoSynth.Persona.Calls

/-!
# Live assignments

A task is to have at most one assignment that is assigned, in progress or submitted, and while the
task is accepted this one is the latest and belongs to the assignee: every later call finds "the"
assignment that way (`OneLive`).

Two kinds of transactions can break this. Whoever takes a task inserts an assignment whether or not
the task was still open, and a submission makes an assignment live whatever it was. `KeepsOneLive` is
what they have to find, and a run keeps one live assignment exactly if they always do.
-/

namespace ChronoSynth.Persona

variable {env : Env} {t : Tx} {db db' : TenantDb}

/-- The assignment is worked on or waits for a decision. -/
def TaskAssignment.Live (a : TaskAssignment) : Prop :=
  a.status = .assigned ∨ a.status = .in_progress ∨ a.status = .submitted

instance : DecidablePred TaskAssignment.Live := fun _ => inferInstanceAs (Decidable (_ ∨ _))

/-- Every task has at most one live assignment; that of an accepted task is the latest, whichever
row the database picks, and belongs to the assignee. -/
structure OneLive (db : TenantDb) : Prop where
  one : ∀ a ∈ db.assignments, ∀ b ∈ db.assignments, a.taskId = b.taskId → a.Live → b.Live →
    a.id = b.id
  latest : ∀ task ∈ db.tasks, task.status = .accepted → ∀ a ∈ db.assignments, a.taskId = task.id →
    a.Live → (∀ env, getLatestTaskAssignmentByTask env db task.id = some a) ∧
      task.assigneePersonaId = some a.personaId

def Latest (db : TenantDb) (a : TaskAssignment) : Prop :=
  ∀ b ∈ db.assignments, b.taskId = a.taskId → b.id ≠ a.id → b.assignedAt < a.assignedAt

instance (a : TaskAssignment) : Decidable (Latest db a) :=
  inferInstanceAs (Decidable (∀ b ∈ db.assignments, _))

theorem getLatest_iff (hn : db.Numbered) {a : TaskAssignment} (ha : a ∈ db.assignments) {k : Id}
    (hk : a.taskId = k) :
    (∀ env, getLatestTaskAssignmentByTask env db k = some a) ↔ Latest db a := by
  subst hk
  have hmem : a ∈ db.assignments.filter (·.taskId = a.taskId) := by simpa using ha
  have htie : (∀ env, getLatestTaskAssignmentByTask env db a.taskId = some a) ↔
      ∀ tie, Table.latest TaskAssignment.assignedAt tie
        (db.assignments.filter (·.taskId = a.taskId)) = some a :=
    ⟨fun h tie => h ⟨0, 0, tie, none⟩, fun h env => h env.tie⟩
  rw [htie, Table.forall_latest_iff hmem]
  refine ⟨fun h b hb hbt hne => h b (by simpa using ⟨hb, hbt⟩) fun he => hne (he ▸ rfl),
    fun h b hb hne => ?_⟩
  obtain ⟨hb, hbt⟩ : b ∈ db.assignments ∧ b.taskId = a.taskId := by simpa using hb
  exact h b hb hbt fun he => hne (hn.assignments.eq hb ha he)

theorem OneLive.current (h : OneLive db) (hn : db.Numbered) {task : MarketplaceTask}
    (htask : task ∈ db.tasks) (hs : task.status = .accepted) {a : TaskAssignment}
    (ha : a ∈ db.assignments) (hof : a.taskId = task.id) (hlive : a.Live) :
    Latest db a ∧ task.assigneePersonaId = some a.personaId := by
  obtain ⟨hl, hp⟩ := h.latest task htask hs a ha hof hlive
  exact ⟨(getLatest_iff hn ha hof).1 hl, hp⟩

theorem OneLive.mk' (hn : db.Numbered)
    (one : ∀ a ∈ db.assignments, ∀ b ∈ db.assignments, a.taskId = b.taskId → a.Live → b.Live →
      a.id = b.id)
    (current : ∀ task ∈ db.tasks, task.status = .accepted → ∀ a ∈ db.assignments,
      a.taskId = task.id → a.Live → Latest db a ∧ task.assigneePersonaId = some a.personaId) :
    OneLive db :=
  ⟨one, fun task htask hs a ha hof hlive =>
    ⟨(getLatest_iff hn ha hof).2 (current task htask hs a ha hof hlive).1,
      (current task htask hs a ha hof hlive).2⟩⟩

/-! ## What the transactions have to find -/

/-- Who takes a task finds no live assignment of it; and if the task is open or accepted, all its
assignments are older, and an assignee is the same persona. -/
structure Takes (env : Env) (db : TenantDb) (taskId personaId : Id) : Prop where
  free : ∀ b ∈ db.assignments, b.taskId = taskId → ¬ b.Live
  current : ∀ task ∈ db.tasks, task.id = taskId → task.status = .open ∨ task.status = .accepted →
    (∀ b ∈ db.assignments, b.taskId = taskId → b.assignedAt < env.now) ∧
      (task.status = .accepted → task.assigneePersonaId = some personaId)

/-- Who submits a result finds the assignment live; or there is no live one of its task, and if the
task is accepted, the assignment is the latest and the one of the assignee. -/
structure Submits (db : TenantDb) (a : TaskAssignment) : Prop where
  free : ∀ b ∈ db.assignments, b.taskId = a.taskId → ¬ b.Live
  current : ∀ task ∈ db.tasks, task.id = a.taskId → task.status = .accepted →
    Latest db a ∧ task.assigneePersonaId = some a.personaId

/-- What a transaction has to find. -/
def KeepsOneLive (env : Env) (t : Tx) (db : TenantDb) : Prop :=
  match t with
  | .assignTask taskId personaId _ | .acceptTask taskId personaId _ => Takes env db taskId personaId
  | .submitTaskResult _ assignmentId =>
    ∀ a ∈ db.assignments, a.id = assignmentId → ¬ a.Live → Submits db a
  | _ => True

/-! ## Transactions that take no task -/

/-- No assignment becomes live, except that the `k`-th one may if it is submitted as it should, and
no task becomes accepted. -/
structure Moves (k : Option Id) (db db' : TenantDb) : Prop where
  assignments : ∀ a' ∈ db'.assignments, ∃ a ∈ db.assignments, a'.fixed = a.fixed ∧
    (a'.Live → a.Live ∨ some a.id = k ∧ Submits db a)
  tasks : ∀ task' ∈ db'.tasks, task'.status = .accepted → ∃ task ∈ db.tasks,
    task'.id = task.id ∧ task.status = .accepted ∧
      task'.assigneePersonaId = task.assigneePersonaId

theorem OneLive.moves {k : Option Id} (h : OneLive db) (hn : db.Numbered) (hn' : db'.Numbered)
    (hs : Moves k db db') : OneLive db' := by
  refine .mk' hn' (fun a' ha' b' hb' hab hla hlb => ?_) fun task' htask' hst a' ha' hof hla => ?_
  · obtain ⟨a, ha, hae, hal⟩ := hs.assignments a' ha'
    obtain ⟨b, hb, hbe, hbl⟩ := hs.assignments b' hb'
    simp only [TaskAssignment.fixed, Prod.mk.injEq] at hae hbe
    have hab' : a.taskId = b.taskId := by rw [← hae.2.1, ← hbe.2.1, hab]
    rw [hae.1, hbe.1]
    -- next to an assignment that becomes live there is no live one
    rcases hal hla with hal | ⟨hak, has⟩ <;> rcases hbl hlb with hbl | ⟨hbk, hbs⟩
    · exact h.one a ha b hb hab' hal hbl
    · exact (hbs.free a ha hab' hal).elim
    · exact (has.free b hb hab'.symm hbl).elim
    · exact Option.some.inj (hak.trans hbk.symm)
  · obtain ⟨a, ha, hae, hal⟩ := hs.assignments a' ha'
    obtain ⟨task, htask, hid, hst', hp⟩ := hs.tasks task' htask' hst
    simp only [TaskAssignment.fixed, Prod.mk.injEq] at hae
    have hof' : a.taskId = task.id := by rw [← hae.2.1, hof, hid]
    obtain ⟨hlatest, hassignee⟩ : Latest db a ∧ task.assigneePersonaId = some a.personaId := by
      rcases hal hla with hal | ⟨-, has⟩
      · exact h.current hn htask hst' ha hof' hal
      · exact has.current task htask hof'.symm hst'
    refine ⟨fun b' hb' hbt hne => ?_, ?_⟩
    · obtain ⟨b, hb, hbe, -⟩ := hs.assignments b' hb'
      simp only [TaskAssignment.fixed, Prod.mk.injEq] at hbe
      rw [hae.2.2.2.2, hbe.2.2.2.2]
      exact hlatest b hb (by rw [← hbe.2.1, ← hae.2.1, hbt]) (by rwa [← hbe.1, ← hae.1])
    · rw [hp, hassignee, hae.2.2.1]

section
variable {p : TaskAssignment → Prop} [DecidablePred p] {g : TaskAssignment → TaskAssignment}
  {q : MarketplaceTask → Prop} [DecidablePred q] {f : MarketplaceTask → MarketplaceTask}

theorem assignments_update {k : Option Id} (hg : ∀ a, (g a).fixed = a.fixed)
    (hlive : ∀ a ∈ db.assignments, p a → (g a).Live → a.Live ∨ some a.id = k ∧ Submits db a) :
    ∀ a' ∈ Table.update p g db.assignments, ∃ a ∈ db.assignments, a'.fixed = a.fixed ∧
      (a'.Live → a.Live ∨ some a.id = k ∧ Submits db a) := by
  intro a' ha'
  obtain ⟨a, ha, rfl⟩ := Table.mem_update.1 ha'
  split_ifs with hp
  · exact ⟨a, ha, hg a, hlive a ha hp⟩
  · exact ⟨a, ha, rfl, .inl⟩

theorem tasks_update {tasks : List MarketplaceTask}
    (hf : ∀ x, q x → (f x).status = .accepted →
      (f x).id = x.id ∧ x.status = .accepted ∧ (f x).assigneePersonaId = x.assigneePersonaId) :
    ∀ x' ∈ Table.update q f tasks, x'.status = .accepted → ∃ x ∈ tasks,
      x'.id = x.id ∧ x.status = .accepted ∧ x'.assigneePersonaId = x.assigneePersonaId := by
  intro x' hx' hs
  obtain ⟨x, hx, rfl⟩ := Table.mem_update.1 hx'
  split_ifs at hs ⊢ with hq
  · exact ⟨x, hx, hf x hq hs⟩
  · exact ⟨x, hx, rfl, hs, rfl⟩

end

theorem Moves.refl (db : TenantDb) : Moves none db db :=
  ⟨fun a ha => ⟨a, ha, rfl, .inl⟩, fun task htask hs => ⟨task, htask, rfl, hs, rfl⟩⟩

theorem exec_moves (ht : ∀ x p a, t ≠ .assignTask x p a) (ht' : ∀ x p f, t ≠ .acceptTask x p f)
    (ht'' : ∀ x a, t ≠ .submitTaskResult x a) : Moves none db (exec env t db).1 := by
  have h0 := Moves.refl db
  have ea : _ → _ = _ := exec_agree env t db .assignments
  have et : _ → _ = _ := exec_agree env t db .tasks
  cases t with
  | assignTask x p a => exact absurd rfl (ht x p a)
  | acceptTask x p f => exact absurd rfl (ht' x p f)
  | submitTaskResult x a => exact absurd rfl (ht'' x a)
  | publishTask u reward currency =>
    refine ⟨h0.assignments, fun task htask hs => ?_⟩
    rcases List.mem_append.1 htask with htask | htask
    · exact h0.tasks task htask hs
    · obtain rfl := List.mem_singleton.1 htask
      cases hs
  | createRuntimeSession p x a ms =>
    rw [exec_createRuntimeSession]
    exact ⟨assignments_update (fun _ => rfl) fun _ _ _ h => .inl h, h0.tasks⟩
  | executeRuntimeSession s a ms =>
    rw [exec_executeRuntimeSession]
    exact ⟨assignments_update (fun _ => rfl) fun _ _ hp _ => .inl (hp.2.imp_right .inl), h0.tasks⟩
  | acceptSubmittedTask a =>
    rw [exec_acceptSubmittedTask]
    split
    · exact ⟨assignments_update (fun _ => rfl) fun _ _ hp _ => .inl (.inr (.inr hp.2)),
        tasks_update fun _ _ h => by cases h⟩
    · exact h0
  | rejectSubmittedTask x a r app =>
    rw [exec_rejectSubmittedTask]
    split
    · exact ⟨assignments_update (fun _ => rfl) fun _ _ hp _ => .inl (.inr (.inr hp.2)),
        tasks_update fun _ _ h => by cases h⟩
    · exact h0
  | disputeTask x a r =>
    rw [exec_disputeTask]
    refine ⟨assignments_update (fun _ => rfl) fun _ _ _ h => ?_,
      tasks_update fun _ _ h => ⟨rfl, h, rfl⟩⟩
    rcases h with h | h | h
    · cases h
    · cases h
    · cases h
  | completeTask c =>
    obtain ⟨e, -⟩ | ⟨-, -, e⟩ := exec_completeTask_cases env db c
    · rwa [e]
    · rw [e]
      exact ⟨h0.assignments, tasks_update fun _ _ h => by cases h⟩
  | _ =>
    refine ⟨?_, ?_⟩
    · rw [ea (by simp [Tx.writes])]
      exact h0.assignments
    · rw [et (by simp [Tx.writes])]
      exact h0.tasks

/-! ## Taking a task -/

/-- The tables after somebody has taken a task: a new assignment, and the task is theirs if it was
open. -/
structure Taken (env : Env) (db db' : TenantDb) (taskId personaId : Id) : Prop where
  assignments : ∃ app, db'.assignments =
    db.assignments ++ [.create taskId env.now db.assignments.length personaId app]
  tasks : ∃ f : MarketplaceTask → MarketplaceTask,
    (∀ x, (f x).id = x.id ∧ (f x).status = .accepted ∧ (f x).assigneePersonaId = some personaId) ∧
      db'.tasks = Table.update (fun x => x.id = taskId ∧ x.status = .open) f db.tasks

section
variable {taskId personaId : Id}

theorem exec_assignTask_taken (app : Id) :
    Taken env db (exec env (.assignTask taskId personaId app) db).1 taskId personaId :=
  ⟨⟨some app, rfl⟩, (·.assign env.now personaId), fun _ => ⟨rfl, rfl, rfl⟩, rfl⟩

theorem exec_acceptTask_taken (fork : Option Id) :
    Taken env db (exec env (.acceptTask taskId personaId fork) db).1 taskId personaId :=
  ⟨⟨none, rfl⟩, (·.accept env.now personaId fork), fun _ => ⟨rfl, rfl, rfl⟩, rfl⟩

theorem OneLive.taken (h : OneLive db) (hn : db.Numbered) (hn' : db'.Numbered)
    (hd : Taken env db db' taskId personaId) (ht : Takes env db taskId personaId) :
    OneLive db' := by
  obtain ⟨⟨app, ha⟩, f, hf, htasks⟩ := hd
  have hmem : ∀ a ∈ db'.assignments, a ∈ db.assignments ∨
      a = .create taskId env.now db.assignments.length personaId app := by
    intro a hmem
    rw [ha] at hmem
    exact (List.mem_append.1 hmem).imp_right List.mem_singleton.1
  -- a live assignment of the task is the new one
  have hnew : ∀ a ∈ db'.assignments, a.taskId = taskId → a.Live →
      a = .create taskId env.now db.assignments.length personaId app :=
    fun a hmem' hof hlive => (hmem a hmem').resolve_left fun hold => ht.free a hold hof hlive
  refine .mk' hn' (fun a ha' b hb' hab hla hlb => ?_) fun task' htask' hs a ha' hof hlive => ?_
  · by_cases hof : a.taskId = taskId
    · rw [hnew a ha' hof hla, hnew b hb' (hab ▸ hof) hlb]
    · have haold := (hmem a ha').resolve_right fun he => hof (he ▸ rfl)
      have hbold := (hmem b hb').resolve_right fun he => hof (hab.trans (he ▸ rfl))
      exact h.one a haold b hbold hab hla hlb
  · by_cases htid : task'.id = taskId
    · obtain rfl := hnew a ha' (hof.trans htid) hlive
      rw [htasks] at htask'
      obtain ⟨task, htask, rfl⟩ := Table.mem_update.1 htask'
      split_ifs at hs hof htid ⊢ with hq
      · obtain ⟨hold, -⟩ := ht.current task htask hq.1 (.inl hq.2)
        refine ⟨fun b hb hbt hne => ?_, (hf task).2.2⟩
        exact hold b ((hmem b hb).resolve_right fun he => hne (he ▸ rfl)) hbt
      · obtain ⟨hold, hp⟩ := ht.current task htask htid (.inr hs)
        refine ⟨fun b hb hbt hne => ?_, hp hs⟩
        exact hold b ((hmem b hb).resolve_right fun he => hne (he ▸ rfl)) hbt
    · rw [htasks] at htask'
      obtain ⟨task, htask, rfl⟩ := Table.mem_update.1 htask'
      have hq : ¬ (task.id = taskId ∧ task.status = .open) := by
        intro hq
        rw [if_pos hq, (hf task).1] at htid
        exact htid hq.1
      rw [if_neg hq] at hs hof htid ⊢
      have haold := (hmem a ha').resolve_right fun he => htid (hof.symm.trans (he ▸ rfl))
      obtain ⟨hlatest, hp⟩ := h.current hn htask hs haold hof hlive
      refine ⟨fun b hb hbt hne => ?_, hp⟩
      have hbold := (hmem b hb).resolve_right fun he =>
        htid (hof.symm.trans (hbt.symm.trans (he ▸ rfl)))
      exact hlatest b hbold hbt hne

theorem OneLive.takes (h : OneLive db') (hn : db.Numbered) (hn' : db'.Numbered)
    (hd : Taken env db db' taskId personaId) : Takes env db taskId personaId := by
  obtain ⟨⟨app, ha⟩, f, hf, htasks⟩ := hd
  have hold : ∀ b ∈ db.assignments, b ∈ db'.assignments := fun b hb => ha ▸ List.mem_append_left _ hb
  have hnew : TaskAssignment.create taskId env.now db.assignments.length personaId app ∈
      db'.assignments := ha ▸ List.mem_append_right _ (List.mem_singleton_self _)
  refine ⟨fun b hb hof hlive => ?_, fun task htask hid hs => ?_⟩
  · have heq := h.one b (hold b hb) _ hnew hof hlive (.inl rfl)
    exact (hn.assignments.lt hb).ne heq
  · obtain ⟨task', htask', hid', hs', hp'⟩ : ∃ task' ∈ db'.tasks, task'.id = taskId ∧
        task'.status = .accepted ∧
        (task.status = .accepted → task'.assigneePersonaId = task.assigneePersonaId) := by
      rw [htasks]
      by_cases ho : task.status = .open
      · exact ⟨f task, Table.mem_update_of htask ⟨hid, ho⟩, (hf task).1.trans hid, (hf task).2.1,
          fun hs => by rw [ho] at hs; cases hs⟩
      · exact ⟨task, Table.mem_update_of_not htask fun hq => ho hq.2, hid, hs.resolve_left ho,
          fun _ => rfl⟩
    obtain ⟨hlatest, hp⟩ := h.current hn' htask' hs' hnew hid'.symm (.inl rfl)
    refine ⟨fun b hb hof => hlatest b (hold b hb) hof (hn.assignments.lt hb).ne, fun hs => ?_⟩
    rw [← hp' hs, hp]
    rfl

end

/-! ## Submitting a result -/

section
variable {taskId assignmentId : Id}

theorem exec_submitTaskResult_moves
    (hs : ∀ a ∈ db.assignments, a.id = assignmentId → ¬ a.Live → Submits db a) :
    Moves (some assignmentId) db (exec env (.submitTaskResult taskId assignmentId) db).1 := by
  rw [exec_submitTaskResult]
  refine ⟨assignments_update (fun _ => rfl) fun a ha hid _ => ?_,
    tasks_update fun _ _ h => ⟨rfl, h, rfl⟩⟩
  by_cases hlive : a.Live
  · exact .inl hlive
  · exact .inr ⟨congrArg some hid, hs a ha hid hlive⟩

theorem OneLive.submits
    (h : OneLive (exec env (.submitTaskResult taskId assignmentId) db).1) (hn : db.Numbered)
    {a : TaskAssignment} (ha : a ∈ db.assignments) (hid : a.id = assignmentId)
    (hdead : ¬ a.Live) : Submits db a := by
  have hn' := (exec_grows env (.submitTaskResult taskId assignmentId) db).numbered_of hn
  rw [exec_submitTaskResult] at h hn'
  have hnew : a.submit env.now ∈ Table.update (·.id = assignmentId) (·.submit env.now)
      db.assignments := Table.mem_update_of ha hid
  refine ⟨fun b hb hof hlive => ?_, fun task htask htid hs => ?_⟩
  · have hne : b.id ≠ assignmentId := fun he =>
      hdead (hn.assignments.eq hb ha (he.trans hid.symm) ▸ hlive)
    exact hne ((h.one b (Table.mem_update_of_not hb hne) _ hnew hof hlive (.inr (.inr rfl))).trans
      hid)
  · obtain ⟨task', htask', he⟩ : ∃ task' ∈ Table.update (·.id = taskId) (·.touch env.now) db.tasks,
        task'.id = task.id ∧ task'.status = task.status ∧
          task'.assigneePersonaId = task.assigneePersonaId := by
      by_cases hq : task.id = taskId
      · exact ⟨_, Table.mem_update_of htask hq, rfl, rfl, rfl⟩
      · exact ⟨_, Table.mem_update_of_not htask hq, rfl, rfl, rfl⟩
    obtain ⟨hlatest, hp⟩ := h.current hn' htask' (he.2.1.trans hs) hnew
      (htid.symm.trans he.1.symm) (.inr (.inr rfl))
    refine ⟨fun b hb hof hne => ?_, he.2.2.symm.trans hp⟩
    have hb' : b ∈ Table.update (·.id = assignmentId) (·.submit env.now) db.assignments :=
      Table.mem_update_of_not hb fun he => hne (he.trans hid.symm)
    exact hlatest b hb' hof hne

end

/-! ## Runs -/

/-- **Step lemma.** -/
theorem exec_oneLive (hn : db.Numbered) (h : OneLive db) (hk : KeepsOneLive env t db) :
    OneLive (exec env t db).1 := by
  have hn' := (exec_grows env t db).numbered_of hn
  cases t with
  | assignTask x p a => exact h.taken hn hn' (exec_assignTask_taken a) hk
  | acceptTask x p f => exact h.taken hn hn' (exec_acceptTask_taken f) hk
  | submitTaskResult x a => exact h.moves hn hn' (exec_submitTaskResult_moves hk)
  | _ => exact h.moves hn hn' (exec_moves (by simp) (by simp) (by simp))

/-- What has not found what it has to is seen. -/
theorem exec_keepsOneLive (hn : db.Numbered) (h : OneLive (exec env t db).1) :
    KeepsOneLive env t db := by
  have hn' := (exec_grows env t db).numbered_of hn
  cases t with
  | assignTask x p a => exact h.takes hn hn' (exec_assignTask_taken a)
  | acceptTask x p f => exact h.takes hn hn' (exec_acceptTask_taken f)
  | submitTaskResult x a => exact fun a ha hid hdead => h.submits hn ha hid hdead
  | _ => trivial

/-- **Live assignments.** In a run of all calls, every task always has at most one live assignment,
which is the latest and the assignee's while the task is accepted — exactly if everybody who takes a
task or submits a result finds, when the transaction is executed, what `KeepsOneLive` says. -/
theorem oneLive_iff (users : List Id) (ms : List PersonaMove) :
    Always PersonaPool.step (fun p => OneLive p.db) (PersonaPool.init users) ms ↔
      Along PersonaPool.step (Pool.AtCommit KeepsOneLive) (PersonaPool.init users) ms :=
  PersonaPool.always_iff (I := OneLive) ⟨by simp [TenantDb.fresh], by simp [TenantDb.fresh]⟩
    (fun _ h => h) (fun _ _ _ ht _ h hk => exec_oneLive ht.numbered h hk)
    fun _ _ _ ht _ _ hP => exec_keepsOneLive ht.numbered hP

/-- Two callers read the task as open, and both take it. -/
theorem two_live_assignments :
    ¬ Always PersonaPool.step (fun p => OneLive p.db) (PersonaPool.init [1, 2, 3])
      [.call (.createPersona ⟨1⟩), .go 0 (.ofTime 1), .call (.createPersona ⟨2⟩), .go 1 (.ofTime 2),
        .call (.publishTask ⟨3, 10, none⟩), .go 2 (.ofTime 3),
        .call (.acceptTask ⟨1, 0, 0, none⟩), .call (.acceptTask ⟨2, 0, 1, none⟩),
        .go 3 (.ofTime 4), .go 3 (.ofTime 4), .go 3 (.ofTime 4),
        .go 4 (.ofTime 4), .go 4 (.ofTime 4), .go 4 (.ofTime 4),
        .go 3 (.ofTime 5), .go 4 (.ofTime 6)] := by
  intro h
  have hone := h.last.one ⟨0, 0, 0, none, none, .assigned, 5, none, none, none⟩ (by decide +kernel)
    ⟨1, 0, 1, none, none, .assigned, 6, none, none, none⟩ (by decide +kernel) rfl (.inl rfl)
    (.inl rfl)
  cases hone

end ChronoSynth.Persona

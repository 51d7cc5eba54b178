import ChronoSynth.Persona.Calls

/-!
# Acceptances

An acceptance commits in two steps: one transaction accepts the result and completes the task,
another one pays. `AcceptancesHonoured` is what the two are to add up to. The first only tests that
the task is accepted, which may be so again after the task was reopened and taken by another persona;
then the second finds an assignment that is not the assignee's, and pays nothing.

`acceptancesHonoured_iff`: this is the only way in which it fails.
-/

namespace ChronoSynth.Persona

variable {env : Env} {t : Tx} {db db' : TenantDb} {a : TaskAcceptance} {p : PersonaPool}

/-- The assignment and the result that were accepted belong to the assignee of the task. A completed
task keeps its assignee, so this is the assignee when the acceptance was committed. -/
def TaskAcceptance.OfAssignee (a : TaskAcceptance) (db : TenantDb) : Prop :=
  ∃ task ∈ db.tasks, task.id = a.taskId ∧ task.status = .completed ∧
    ∃ x ∈ db.assignments, x.id = a.assignmentId ∧ task.assigneePersonaId = some x.personaId ∧
      ∃ r ∈ db.results, r.id = a.resultId ∧ r.assignmentId = x.id

instance : Decidable (a.OfAssignee db) := inferInstanceAs (Decidable (∃ task ∈ db.tasks, _))

abbrev Accepts (th : Thread Call TenantDb Tx Reply Env PersonaError Answer)
    (a : TaskAcceptance) : Prop :=
  (.acceptSubmittedTask a, .committed) ∈ th.log

/-- What acceptances promise. -/
structure AcceptancesHonoured (p : PersonaPool) : Prop where
  assignee : ∀ a, p.Logged (.acceptSubmittedTask a, .committed) → a.OfAssignee p.db
  /-- Once the call has returned, the assignment is settled. -/
  settled : ∀ th ∈ p.threads, th.prog.Done → ∀ a, Accepts th a →
    ∃ s ∈ p.db.settlements, s.assignmentId = a.assignmentId
  /-- An accepted result is settled, unless the call that has accepted it goes on. -/
  unpaid : ∀ r ∈ p.db.results, r.status = .accepted →
    (∃ s ∈ p.db.settlements, s.assignmentId = r.assignmentId) ∨
      ∃ th ∈ p.threads, ¬ th.prog.Done ∧ ∃ a, Accepts th a ∧ a.resultId = r.id

/-- An acceptance that finds its task accepted finds it with the persona whose assignment the call
has read. -/
def AcceptsForAssignee (t : Tx) (db : TenantDb) : Prop :=
  match t with
  | .acceptSubmittedTask a => ∀ task ∈ db.tasks, task.id = a.taskId → task.status = .accepted →
    task.assigneePersonaId = some a.personaId
  | _ => True

/-! ## One transaction -/

theorem TaskAcceptance.ofAssignee_iff (hb : a.Backed db) (hn : db.Numbered) :
    a.OfAssignee db ↔ ∃ task ∈ db.tasks, task.id = a.taskId ∧ task.status = .completed ∧
      task.assigneePersonaId = some a.personaId := by
  obtain ⟨⟨x, hx, hid, -, hp⟩, r, hr, hrid, hof⟩ := hb
  constructor
  · rintro ⟨task, htask, htid, hc, x', hx', hid', hassignee, -⟩
    obtain rfl := hn.assignments.eq hx' hx (hid'.trans hid.symm)
    exact ⟨task, htask, htid, hc, hp ▸ hassignee⟩
  · rintro ⟨task, htask, htid, hc, hassignee⟩
    exact ⟨task, htask, htid, hc, x, hx, hid, hp ▸ hassignee, r, hr, hrid, hof.trans hid.symm⟩

theorem TaskAcceptance.Backed.grows (h : a.Backed db) (hg : db.Grows db') : a.Backed db' := by
  obtain ⟨⟨x, hx, hid, hof, hp⟩, r, hr, hrid, hrof⟩ := h
  obtain ⟨x', hx', he⟩ := hg.assignments.stay x hx
  obtain ⟨r', hr', he'⟩ := hg.results.stay r hr
  simp only [TaskAssignment.fixed, Prod.mk.injEq] at he
  simp only [TaskResult.fixed, Prod.mk.injEq] at he'
  exact ⟨⟨x', hx', he.1.trans hid, he.2.1.trans hof, he.2.2.1.trans hp⟩, r', hr',
    he'.1.trans hrid, he'.2.2.1.trans hrof⟩

theorem TaskAcceptance.OfAssignee.grows (h : a.OfAssignee db) (hb : a.Backed db)
    (hn : db.Numbered) (hg : db.Grows db') : a.OfAssignee db' := by
  obtain ⟨task, htask, hid, hc, hassignee⟩ := (ofAssignee_iff hb hn).1 h
  obtain ⟨task', htask', hfixed, hkeep⟩ := hg.tasks.stay task htask
  exact (ofAssignee_iff (hb.grows hg) (hg.numbered_of hn)).2
    ⟨task', htask', (congrArg Prod.fst hfixed).trans hid, (hkeep hc).1,
      (hkeep hc).2.trans hassignee⟩

/-- **Step lemma**: an acceptance that commits is the assignee's exactly if it finds the task with the
persona. -/
theorem exec_ofAssignee_iff (hn : db.Numbered) (hb : a.Backed db)
    (hr : (exec env (.acceptSubmittedTask a) db).2 = .committed) :
    a.OfAssignee (exec env (.acceptSubmittedTask a) db).1 ↔
      AcceptsForAssignee (.acceptSubmittedTask a) db := by
  have hg := exec_grows env (.acceptSubmittedTask a) db
  rw [TaskAcceptance.ofAssignee_iff (hb.grows hg) (hg.numbered_of hn)]
  rw [exec_acceptSubmittedTask] at hr ⊢
  split at hr
  next hc =>
    obtain ⟨task, htask, hid, hst⟩ := hn.tasks.countP_eq_one.1 hc
    rw [if_pos hc]
    constructor
    · rintro ⟨task', htask', hid', -, hassignee⟩ x hx hxid -
      obtain ⟨y, hy, rfl⟩ := Table.mem_update.1 htask'
      obtain rfl : y = x := hn.tasks.eq hy hx (by split_ifs at hid' <;> exact hid'.trans hxid.symm)
      split_ifs at hassignee <;> exact hassignee
    · intro h
      exact ⟨_, Table.mem_update_of htask ⟨hid, hst⟩, hid, rfl, h task htask hid hst⟩
  next => cases hr

theorem exec_accepted {r : TaskResult} (hr : r ∈ (exec env t db).1.results)
    (hs : r.status = .accepted) :
    (∃ r' ∈ db.results, r'.id = r.id ∧ r'.status = .accepted) ∨
      ∃ a, t = .acceptSubmittedTask a ∧ (exec env t db).2 = .committed ∧ a.resultId = r.id := by
  have er : _ → _ = _ := exec_agree env t db .results
  cases t with
  | submitTaskResult x a =>
    rcases List.mem_append.1 hr with hr | hr
    · exact .inl ⟨r, hr, rfl, hs⟩
    · obtain rfl := List.mem_singleton.1 hr
      cases hs
  | acceptSubmittedTask a =>
    rw [exec_acceptSubmittedTask] at hr ⊢
    split at hr
    next hc =>
      rw [if_pos hc]
      obtain ⟨r', hr', rfl⟩ := Table.mem_update.1 hr
      split_ifs at hs ⊢ with hid
      · exact .inr ⟨a, rfl, rfl, hid.symm⟩
      · exact .inl ⟨r', hr', rfl, hs⟩
    next => exact .inl ⟨r, hr, rfl, hs⟩
  | rejectSubmittedTask x a res app =>
    rw [exec_rejectSubmittedTask] at hr
    split at hr
    · obtain ⟨r', hr', rfl⟩ := Table.mem_update.1 hr
      split_ifs at hs ⊢
      · cases hs
      · exact .inl ⟨r', hr', rfl, hs⟩
    · exact .inl ⟨r, hr, rfl, hs⟩
  | disputeTask x a res =>
    rw [exec_disputeTask] at hr
    obtain ⟨r', hr', rfl⟩ := Table.mem_update.1 hr
    split_ifs at hs ⊢
    · cases hs
    · exact .inl ⟨r', hr', rfl, hs⟩
  | _ =>
    rw [er (by simp [Tx.writes])] at hr
    exact .inl ⟨r, hr, rfl, hs⟩

/-! ## Runs -/

/-- What is kept of the acceptances: they are backed and the assignee's, and every accepted result
has one. -/
structure AcceptancesKept (p : PersonaPool) : Prop where
  sound : p.Sound
  backed : ∀ a, p.Logged (.acceptSubmittedTask a, .committed) → a.Backed p.db ∧ a.OfAssignee p.db
  accepted : ∀ r ∈ p.db.results, r.status = .accepted →
    ∃ a, p.Logged (.acceptSubmittedTask a, .committed) ∧ a.resultId = r.id

theorem AcceptancesKept.settled (h : AcceptancesKept p) :
    ∀ th ∈ p.threads, th.prog.Done → ∀ a, Accepts th a →
      ∃ s ∈ p.db.settlements, s.assignmentId = a.assignmentId := by
  intro th hth hdone a ha
  obtain ⟨_, hleaves⟩ := (h.sound.meets th hth).done hdone h.sound.inv
  obtain ⟨hb, hof⟩ := h.backed a ⟨th, hth, ha⟩
  refine (hleaves a ha).resolve_right ?_
  -- the task does not belong to another persona
  rintro ⟨task, htask, hid, -, hne⟩
  have hn := h.sound.inv.numbered
  obtain ⟨task', htask', hid', -, hassignee⟩ := (TaskAcceptance.ofAssignee_iff hb hn).1 hof
  obtain rfl := hn.tasks.eq htask' htask (hid'.trans hid.symm)
  exact hne hassignee

theorem AcceptancesKept.honoured (h : AcceptancesKept p) : AcceptancesHonoured p := by
  refine ⟨fun a ha => (h.backed a ha).2, h.settled, fun r hr hs => ?_⟩
  obtain ⟨a, ⟨th, hth, ha⟩, hid⟩ := h.accepted r hr hs
  by_cases hdone : th.prog.Done
  · obtain ⟨s, hmem, hsa⟩ := h.settled th hth hdone a ha
    obtain ⟨r', hr', hid', hof⟩ := (h.backed a ⟨th, hth, ha⟩).1.result
    obtain rfl := h.sound.inv.numbered.results.eq hr' hr (hid'.trans hid)
    exact .inl ⟨s, hmem, hsa.trans hof.symm⟩
  · exact .inr ⟨th, hth, hdone, a, ha, hid⟩

/-- **Step lemma.** -/
theorem AcceptancesKept.step (h : AcceptancesKept p) {m : PersonaMove}
    (hm : p.AtCommit (fun _ => AcceptsForAssignee) m) : AcceptancesKept (p.step m) := by
  have hlog := fun x => Pool.logged_step start exec p m x
  have hn := h.sound.inv.numbered
  obtain ⟨hnone, hdb⟩ | ⟨o, t, hc, hdb⟩ := Pool.step_db start exec p m
  · -- no transaction: the tables and the log are as before
    have hsame : ∀ x, Pool.Logged (p.step m) x ↔ p.Logged x := by
      intro x
      rw [PersonaPool.step, hlog x, hnone]
      simp
    refine ⟨h.sound.step m, fun a ha => ?_, fun r hr hs => ?_⟩
    · exact (congrArg (fun db => a.Backed db ∧ a.OfAssignee db) hdb).mpr
        (h.backed a ((hsame _).1 ha))
    · obtain ⟨a, ha, hid⟩ := h.accepted r (hdb ▸ hr :) hs
      exact ⟨a, (hsame _).2 ha, hid⟩
  · have hb : t.Backed p.db := h.sound.guar hc
    have hg : p.db.Grows (p.step m).db := (congrArg p.db.Grows hdb).mpr (exec_grows o t p.db)
    refine ⟨h.sound.step m, fun a ha => ?_, fun r hr hs => ?_⟩
    · rcases (hlog _).1 ha with ha | ⟨o', hc', hr⟩
      · obtain ⟨hba, hof⟩ := h.backed a ha
        exact ⟨hba.grows hg, hof.grows hba hn hg⟩
      · obtain ⟨rfl, rfl⟩ : o = o' ∧ t = .acceptSubmittedTask a := by simpa [hc] using hc'
        refine ⟨TaskAcceptance.Backed.grows hb hg, ?_⟩
        exact (congrArg a.OfAssignee hdb).mpr ((exec_ofAssignee_iff hn hb hr.symm).2 (hm o _ hc))
    · have hr' : r ∈ (exec o t p.db).1.results := (congrArg (r ∈ ·.results) hdb).mp hr
      obtain ⟨r', hr', hid, hs'⟩ | ⟨a, rfl, hcom, hid⟩ := exec_accepted hr' hs
      · obtain ⟨a, ha, hid'⟩ := h.accepted r' hr' hs'
        exact ⟨a, (hlog _).2 (.inl ha), hid'.trans hid⟩
      · exact ⟨a, (hlog _).2 (.inr ⟨o, hc, hcom.symm⟩), hid⟩

/-- **Acceptances.** In a run of all calls, every acceptance always is the assignee's and is paid when
its call is over, exactly if no acceptance finds its task accepted with another persona. -/
theorem acceptancesHonoured_iff (users : List Id) (ms : List PersonaMove) :
    Always PersonaPool.step AcceptancesHonoured (PersonaPool.init users) ms ↔
      Along PersonaPool.step (Pool.AtCommit fun _ => AcceptsForAssignee) (PersonaPool.init users)
        ms := by
  refine always_iff_along (I := AcceptancesKept) ⟨.init users, ?_, ?_⟩ (fun _ h => h.honoured)
    (fun _ _ h hm => h.step hm) fun p m h hP o t hc => ?_
  · simp [PersonaPool.init, Pool.idle, Pool.Logged]
  · simp [PersonaPool.init, Pool.idle, TenantDb.fresh]
  · cases t with
    | acceptSubmittedTask a =>
      obtain ⟨hnone, -⟩ | ⟨o', t', hc', hdb⟩ := Pool.step_db start exec p m
      · rw [hnone] at hc
        cases hc
      obtain ⟨rfl, rfl⟩ : o' = o ∧ t' = .acceptSubmittedTask a := by simpa [hc'] using hc
      have hb : a.Backed p.db := h.sound.guar hc
      by_cases hr : (exec o' (.acceptSubmittedTask a) p.db).2 = .committed
      · have hof := hP.assignee a ((Pool.logged_step start exec p m _).2 (.inr ⟨o', hc, hr.symm⟩))
        exact (exec_ofAssignee_iff h.sound.inv.numbered hb hr).1
          ((congrArg a.OfAssignee hdb).mp hof)
      · -- it was rolled back: the task was not accepted
        intro task htask hid hst
        have hcount : p.db.tasks.countP (fun t => t.id = a.taskId ∧ t.status = .accepted) = 1 :=
          h.sound.inv.numbered.tasks.countP_eq_one.2 ⟨task, htask, hid, hst⟩
        rw [exec_acceptSubmittedTask, if_pos hcount] at hr
        exact (hr rfl).elim
    | _ => trivial

/-- Between its reads and its transaction the result is rejected, and the reopened task is taken by
another persona: the old result is accepted, and nobody is paid. -/
theorem stale_acceptance :
    ¬ Always PersonaPool.step AcceptancesHonoured (PersonaPool.init [1, 2, 3])
      ([.call (.createPersona ⟨1⟩), .call (.createPersona ⟨2⟩), .call (.publishTask ⟨3, 10, none⟩),
        .call (.acceptTask ⟨1, 0, 0, none⟩), .call (.submitTaskResult ⟨1, 0, 0⟩),
        .call (.acceptSubmittedTask ⟨3, 0, 1, 5⟩), .call (.rejectSubmittedTask ⟨3, 0⟩),
        .call (.acceptTask ⟨2, 0, 1, none⟩)] ++
      [.go 0 (.ofTime 1), .go 1 (.ofTime 2), .go 2 (.ofTime 3)] ++
      List.replicate 6 (.go 3 (.ofTime 4)) ++ List.replicate 6 (.go 4 (.ofTime 5)) ++
      List.replicate 5 (.go 5 (.ofTime 6)) ++ List.replicate 6 (.go 6 (.ofTime 7)) ++
      List.replicate 6 (.go 7 (.ofTime 8)) ++ List.replicate 3 (.go 5 (.ofTime 9))) := by
  intro h
  have hof := h.last.assignee ⟨0, 0, 0, 0, 1, 5, 4 / 25, 59 / 10⟩
  revert hof
  decide +kernel

end ChronoSynth.Persona

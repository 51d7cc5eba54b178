import ChronoSynth.Persona.Named
import ChronoSynth.Persona.Payments

/-!
# Disputed work

A publisher who disputes a result marks the assignment. That it has not been paid is to stay so, and
the task is not to be completed any more, whoever calls what (`DisputesHold`).

The acceptance of a result looks at the status of the assignment. The other two ways to pay do not, and
complete or pay the task as if nothing had been said: the disputes hold exactly as long as nobody takes
one of them.
-/

namespace ChronoSynth.Persona

variable {env : Env} {t : Tx} {db : TenantDb} {taskId assignmentId : Id}

/-! ## The log of a run -/

/-- A dispute about an assignment that had no settlement. -/
structure Dispute where
  taskId : Id
  assignmentId : Id
  /-- The task had been completed already. -/
  completed : Bool
  deriving DecidableEq, Repr

def TenantDb.Completed (db : TenantDb) (taskId : Id) : Prop :=
  ∃ task ∈ db.tasks, task.id = taskId ∧ task.status = .completed

instance : Decidable (db.Completed taskId) :=
  inferInstanceAs (Decidable (∃ task ∈ db.tasks, _))

def TenantDb.Settled (db : TenantDb) (assignmentId : Id) : Prop :=
  ∃ s ∈ db.settlements, s.assignmentId = assignmentId

instance : Decidable (db.Settled assignmentId) :=
  inferInstanceAs (Decidable (∃ s ∈ db.settlements, _))

/-- A dispute is noted unless the assignment is settled. -/
def logDispute (log : List Dispute) (_ : Env) (t : Tx) (db : TenantDb) : List Dispute :=
  match t with
  | .disputeTask taskId assignmentId _ =>
    if db.Settled assignmentId then log
    else log ++ [⟨taskId, assignmentId, decide (db.Completed taskId)⟩]
  | _ => log

/-- The calls in progress, and the disputes. -/
abbrev DisputePool := PersonaPool × List Dispute

def DisputePool.step : DisputePool → PersonaMove → DisputePool :=
  noting PersonaPool.step (Pool.logging logDispute)

def DisputePool.init (users : List Id) : DisputePool := (PersonaPool.init users, [])

/-- What is disputed is not paid, and not completed if it was not. -/
structure DisputesHold (db : TenantDb) (log : List Dispute) : Prop where
  unpaid : ∀ d ∈ log, ¬ db.Settled d.assignmentId
  uncompleted : ∀ d ∈ log, ¬ d.completed → ¬ db.Completed d.taskId

/-! ## Completing a task -/

def Tx.Completes (db : TenantDb) (taskId : Id) : Tx → Prop
  | .acceptSubmittedTask a => a.taskId = taskId ∧ ∃ x ∈ db.tasks, x.id = taskId ∧ x.status = .accepted
  | .completeTask c => c.taskId = taskId ∧ (∃ x ∈ db.tasks, x.id = taskId ∧ x.status = .accepted) ∧
    (0 < c.payoutMinor → ¬ db.Settled c.assignmentId)
  | _ => False

/-- Nobody pays what is disputed, or completes its task. -/
def RespectsDisputes (log : List Dispute) (_ : Env) (t : Tx) (db : TenantDb) : Prop :=
  ∀ d ∈ log, (∀ taskId, ¬ t.Pays db taskId d.assignmentId) ∧
    (¬ d.completed → ¬ t.Completes db d.taskId)

section
variable {db' : TenantDb} {p : MarketplaceTask → Prop} [DecidablePred p]
  {g : MarketplaceTask → MarketplaceTask} {k : Id}

theorem completed_of_update (h : db'.Completed taskId) (ht : db'.tasks = Table.update p g db.tasks)
    (hid : ∀ x, (g x).id = x.id) (hg : ∀ x, (g x).status = .completed → x.status = .completed) :
    db.Completed taskId := by
  obtain ⟨x', hx', rfl, hc⟩ := h
  rw [ht] at hx'
  obtain ⟨x, hx, rfl⟩ := Table.mem_update.1 hx'
  split_ifs at hc ⊢
  · exact ⟨x, hx, (hid x).symm, hg x hc⟩
  · exact ⟨x, hx, rfl, hc⟩

theorem completed_of_claim (h : db'.Completed taskId)
    (ht : db'.tasks = Table.update (fun x => x.id = k ∧ x.status = .accepted) g db.tasks)
    (hid : ∀ x, (g x).id = x.id) : db.Completed taskId ∨ k = taskId := by
  obtain ⟨x', hx', rfl, hc⟩ := h
  rw [ht] at hx'
  obtain ⟨x, hx, rfl⟩ := Table.mem_update.1 hx'
  split_ifs at hc ⊢ with hp
  · exact .inr (hp.1.symm.trans (hid x).symm)
  · exact .inl ⟨x, hx, rfl, hc⟩

theorem claim_completed (hk : ∃ x ∈ db.tasks, x.id = k ∧ x.status = .accepted)
    (ht : db'.tasks = Table.update (fun x => x.id = k ∧ x.status = .accepted) g db.tasks)
    (hg : ∀ x, (g x).id = x.id ∧ (g x).status = .completed) : db'.Completed k := by
  obtain ⟨x, hx, hid, ha⟩ := hk
  rw [TenantDb.Completed, ht]
  exact ⟨g x, Table.mem_update_of hx ⟨hid, ha⟩, (hg x).1.trans hid, (hg x).2⟩

end

theorem completed_grows {db' : TenantDb} (h : db.Completed taskId) (hg : db.Grows db') :
    db'.Completed taskId := by
  obtain ⟨x, hx, rfl, hc⟩ := h
  obtain ⟨x', hx', hfixed, hkeep⟩ := hg.tasks.stay x hx
  exact ⟨x', hx', congrArg Prod.fst hfixed, (hkeep hc).1⟩

/-- **What a transaction can do to the completed tasks**: complete the one it claims. -/
theorem exec_completed (env : Env) (t : Tx) (hn : db.Numbered) (taskId : Id) :
    (exec env t db).1.Completed taskId ↔ db.Completed taskId ∨ t.Completes db taskId := by
  have et : _ → _ = _ := exec_agree env t db .tasks
  -- a completed task stays so, and most transactions complete none
  have hkept : db.Completed taskId → (exec env t db).1.Completed taskId := fun h =>
    completed_grows h (exec_grows env t db)
  suffices h : (∀ h : t.Completes db taskId, (exec env t db).1.Completed taskId) ∧
      ((exec env t db).1.Completed taskId → db.Completed taskId ∨ t.Completes db taskId) from
    ⟨h.2, fun hor => hor.elim hkept h.1⟩
  cases t with
  | acceptSubmittedTask a =>
    rw [exec_acceptSubmittedTask]
    split
    next hc =>
      have hk := hn.tasks.countP_eq_one.1 hc
      refine ⟨fun h => ?_, fun h => ?_⟩
      · obtain ⟨rfl, -⟩ := h
        exact claim_completed hk rfl fun _ => ⟨rfl, rfl⟩
      · refine (completed_of_claim h rfl fun _ => rfl).imp_right fun he => ⟨he, ?_⟩
        rwa [he] at hk
    next hc =>
      refine ⟨fun h => (hc (hn.tasks.countP_eq_one.2 ?_)).elim, .inl⟩
      obtain ⟨rfl, hk⟩ := h
      exact hk
  | completeTask c =>
    obtain ⟨e, err, he⟩ | ⟨hc, hs, e⟩ := exec_completeTask_cases env db c
    · rw [e]
      refine ⟨fun h => ?_, .inl⟩
      obtain ⟨rfl, hk, hfree⟩ := h
      rw [exec_completeTask_completed (hn.tasks.countP_eq_one.2 hk) hfree] at he
      cases he
    · rw [e]
      have hk := hn.tasks.countP_eq_one.1 hc
      refine ⟨fun h => ?_, fun h => ?_⟩
      · obtain ⟨rfl, -⟩ := h
        exact claim_completed hk rfl fun _ => ⟨rfl, rfl⟩
      · refine (completed_of_claim h rfl fun _ => rfl).imp_right fun he => ⟨he, ?_, hs⟩
        rwa [he] at hk
  | publishTask u reward currency =>
    refine ⟨fun h => h.elim, ?_⟩
    rintro ⟨x, hx, hid, hc⟩
    rcases List.mem_append.1 hx with hx | hx
    · exact .inl ⟨x, hx, hid, hc⟩
    · rw [List.mem_singleton.1 hx] at hc
      cases hc
  | assignTask x p a =>
    exact ⟨fun h => h.elim, fun h => .inl (completed_of_update h rfl (fun _ => rfl) fun _ h => by cases h)⟩
  | acceptTask x p f =>
    exact ⟨fun h => h.elim, fun h => .inl (completed_of_update h rfl (fun _ => rfl) fun _ h => by cases h)⟩
  | submitTaskResult x a =>
    exact ⟨fun h => h.elim, fun h => .inl (completed_of_update h rfl (fun _ => rfl) fun _ h => h)⟩
  | rejectSubmittedTask x a r app =>
    rw [exec_rejectSubmittedTask]
    split
    · exact ⟨fun h => h.elim,
        fun h => .inl (completed_of_update h rfl (fun _ => rfl) fun _ h => by cases h)⟩
    · exact ⟨fun h => h.elim, .inl⟩
  | disputeTask x a r =>
    rw [exec_disputeTask]
    exact ⟨fun h => h.elim, fun h => .inl (completed_of_update h rfl (fun _ => rfl) fun _ h => h)⟩
  | _ =>
    refine ⟨fun h => h.elim, fun h => .inl ?_⟩
    rwa [TenantDb.Completed, et (by simp [Tx.writes])] at h

/-- **What a transaction can do to the settled assignments**: settle the one it pays. -/
theorem exec_settled (env : Env) (t : Tx) (hn : db.Numbered) (assignmentId : Id) :
    (exec env t db).1.Settled assignmentId ↔
      db.Settled assignmentId ∨ ∃ taskId, t.Pays db taskId assignmentId := by
  obtain ⟨s, hp, -, hs, -⟩ | ⟨hno, hs, -⟩ := exec_pays env t hn
  · rw [TenantDb.Settled, hs]
    constructor
    · rintro ⟨s', hs', rfl⟩
      rcases List.mem_append.1 hs' with hs' | hs'
      · exact .inl ⟨s', hs', rfl⟩
      · rw [List.mem_singleton.1 hs']
        exact .inr ⟨_, hp⟩
    · rintro (⟨s', hs', rfl⟩ | ⟨x, hx⟩)
      · exact ⟨s', List.mem_append_left _ hs', rfl⟩
      · refine ⟨s, List.mem_append_right _ (List.mem_singleton_self s), ?_⟩
        cases t with
        | completeTask c => exact hp.2.1.symm.trans hx.2.1
        | settleTaskPayment input => exact hp.2.1.symm.trans hx.2.1
        | _ => exact hx.elim
  · rw [TenantDb.Settled, hs]
    exact ⟨.inl, fun h => h.resolve_right fun ⟨x, hx⟩ => hno x _ hx⟩

/-! ## Runs -/

section
variable {log : List Dispute}

theorem logDispute_cases (log : List Dispute) (env : Env) (t : Tx) (db : TenantDb) :
    logDispute log env t db = log ∨
    ∃ d, logDispute log env t db = log ++ [d] ∧ ¬ db.Settled d.assignmentId ∧
      (¬ d.completed → ¬ db.Completed d.taskId) ∧ (∀ x a, ¬ t.Pays db x a) ∧
      ∀ x, ¬ t.Completes db x := by
  cases t with
  | disputeTask x a r =>
    by_cases hs : db.Settled a
    · exact .inl (if_pos hs)
    · exact .inr ⟨_, if_neg hs, hs, by simp, fun _ _ h => h.elim, fun _ h => h.elim⟩
  | _ => exact .inl rfl

theorem mem_logDispute {d : Dispute} (h : d ∈ log) : d ∈ logDispute log env t db := by
  obtain he | ⟨_, he, -⟩ := logDispute_cases log env t db
  · rwa [he]
  · rw [he]
    exact List.mem_append_left _ h

/-- **Step lemma.** -/
theorem DisputesHold.step (h : DisputesHold db log) (hn : db.Numbered)
    (hr : RespectsDisputes log env t db) :
    DisputesHold (exec env t db).1 (logDispute log env t db) := by
  -- what is disputed by now is neither paid nor completed
  have hall : ∀ d ∈ logDispute log env t db, ¬ db.Settled d.assignmentId ∧
      (¬ d.completed → ¬ db.Completed d.taskId) ∧ (∀ x, ¬ t.Pays db x d.assignmentId) ∧
      (¬ d.completed → ¬ t.Completes db d.taskId) := by
    have hold : ∀ d ∈ log, _ := fun d hd =>
      And.intro (h.unpaid d hd) (And.intro (h.uncompleted d hd) (hr d hd))
    obtain he | ⟨d', he, hs, hc, hpays, hcompletes⟩ := logDispute_cases log env t db
    · rwa [he]
    · rw [he]
      intro d hd
      rcases List.mem_append.1 hd with hd | hd
      · exact hold d hd
      · rw [List.mem_singleton.1 hd]
        exact ⟨hs, hc, fun x => hpays x _, fun _ => hcompletes _⟩
  refine ⟨fun d hd hs => ?_, fun d hd hopen hc => ?_⟩
  · obtain ⟨hunpaid, -, hpays, -⟩ := hall d hd
    exact ((exec_settled env t hn _).1 hs).elim hunpaid fun ⟨x, hx⟩ => hpays x hx
  · obtain ⟨-, hdone, -, hcompletes⟩ := hall d hd
    exact ((exec_completed env t hn _).1 hc).elim (hdone hopen) (hcompletes hopen)

/-- **Disputed work is not paid** in exactly the runs in which no transaction pays a disputed assignment
or completes its task. -/
theorem disputesHold_iff (users : List Id) (ms : List PersonaMove) :
    Always DisputePool.step (fun x => DisputesHold x.1.db x.2) (.init users) ms ↔
      Along DisputePool.step (fun x m => x.1.AtCommit (RespectsDisputes x.2) m) (.init users) ms := by
  refine Pool.always_iff_logging (I := DisputesHold) (D := named) (Q := fun _ => anything)
    ⟨.fresh users, by simp [TenantDb.fresh]⟩ ⟨nofun, nofun⟩ named_kept (fun _ _ _ => trivial)
    (fun c db _ => start_named c db) (fun _ _ h => h)
    (fun _ _ _ _ hinv _ h hr => h.step hinv.1 hr) fun env t db log hinv _ _ h d hd => ?_
  have hd' : d ∈ logDispute log env t db := mem_logDispute hd
  exact ⟨fun x hx => h.unpaid d hd' ((exec_settled env t hinv.1 _).2 (.inr ⟨x, hx⟩)),
    fun hopen hc => h.uncompleted d hd' hopen ((exec_completed env t hinv.1 _).2 (.inr hc))⟩

end

/-- The publisher disputes the result that was submitted; then the owner of the persona completes the
task, and is paid. -/
theorem disputed_work_paid :
    ¬ Always DisputePool.step (fun x => DisputesHold x.1.db x.2) (.init [1, 2])
      ([.call (.createPersona ⟨1⟩), .call (.publishTask ⟨2, 5, none⟩),
        .call (.acceptTask ⟨1, 0, 0, none⟩), .call (.submitTaskResult ⟨1, 0, 0⟩),
        .call (.disputeTask ⟨2, 0⟩), .go 0 (.ofTime 1), .go 1 (.ofTime 2)] ++
      List.replicate 4 (.go 2 (.ofTime 3)) ++ List.replicate 6 (.go 3 (.ofTime 4)) ++
      List.replicate 12 (.go 4 (.ofTime 5)) ++ [.call (.completeTask ⟨1, 0, 1, none⟩)] ++
      List.replicate 9 (.go 5 (.ofTime 6))) := by
  intro h
  have hunpaid := h.last.unpaid
  revert hunpaid
  decide +kernel

end ChronoSynth.Persona

import ChronoSynth.Persona.Backing

/-!
# The calls keep to the rows

Whatever the others do between the steps of a call, its transactions are backed when they are
executed (`start_meets`). Most calls hand over transactions that need no backing (`start_uses`); the
other three are followed step by step. `PersonaPool.sound` is the form in which this is used: an
invariant of all runs of all calls.

An acceptance commits before it is paid. Its call is followed to the end: the assignment is settled,
unless the task was completed for another persona (`TaskAcceptance.Paid`).
-/

namespace ChronoSynth.Persona

variable {env : Env} {t : Tx} {db db' : TenantDb}

/-! ## Free transactions -/

/-- A transaction that needs no rows to back it. -/
def Tx.Free (t : Tx) : Prop := ∀ db, t.Backed db

theorem answering_uses {α : Type} {f : α → Answer} {p : ServiceCall (Option α)}
    (h : p.Uses Tx.Free) : (answering f p).Uses Tx.Free :=
  h.bind fun _ => trivial

theorem deactivatePersona_uses (i : PersonaInput) : (deactivatePersona i).Uses Tx.Free := by
  refine .bind .query fun detail => ?_
  split
  · split_ifs
    · trivial
    · trivial
    · refine .bind (.transaction fun _ => trivial) fun r => ?_
      split
      · trivial
      · exact .query
  · trivial

theorem AddGovernanceEventInput.nextStatus_ne (i : AddGovernanceEventInput) :
    i.nextStatus ≠ some .active := by
  rw [AddGovernanceEventInput.nextStatus]
  cases i.eventType with
  | restriction => split_ifs <;> simp
  | warning | reward | review | transfer | death => simp

theorem addGovernanceEvent_uses (i : AddGovernanceEventInput) :
    (addGovernanceEvent i).Uses Tx.Free := by
  refine .bind .query fun detail => ?_
  split
  · refine .bind (.transaction fun _ => i.nextStatus_ne) fun r => ?_
    split
    · trivial
    · exact .query
  · trivial

theorem evaluateLifecycle_uses (i : EvaluatePersonaLifecycleInput) :
    (evaluateLifecycle i).Uses Tx.Free := by
  refine .bind .query fun detail => ?_
  split
  · refine .bind .queryAny fun lastActiveAt => ?_
    split
    · trivial
    · refine .bind .queryAny fun nowMs => ?_
      split
      · split
        · trivial
        · refine .bind (addGovernanceEvent_uses _) fun deceased => ?_
          split <;> trivial
      · split
        · trivial
        · refine .bind (deactivatePersona_uses _) fun dormant => ?_
          split <;> trivial
  · trivial

theorem openGovernanceCase_uses (i : OpenGovernanceCaseInput) :
    (openGovernanceCase i).Uses Tx.Free := by
  refine .bind .query fun persona => ?_
  split
  · refine .bind (.transaction fun _ => trivial) fun r => ?_
    split
    · trivial
    · exact .query
    · trivial
  · trivial

theorem recoverSessions_uses (i : RecoverInput) (sessions : List RuntimeSession)
    (outcome : RecoverOutcome) : (recoverSessions i sessions outcome).Uses Tx.Free := by
  induction sessions generalizing outcome with
  | nil => trivial
  | cons session rest ih =>
    rw [recoverSessions]
    split
    · exact ih _
    split
    · refine .bind (.transaction fun _ => trivial) fun r => ?_
      split
      · trivial
      · exact ih _
      · exact ih _
    · refine .bind (.transaction fun _ => trivial) fun r => ?_
      split
      · trivial
      · exact ih _
      · exact ih _

theorem publishTask_uses (i : PublishMarketplaceTaskInput) : (publishTask i).Uses Tx.Free := by
  rw [publishTask]
  split
  next hr => trivial
  next hr =>
  change Prog.Uses _ (if i.currency.getD WALLET_CURRENCY ≠ WALLET_CURRENCY then _ else _)
  split
  next hc => trivial
  next hc =>
    refine .bind (.transaction fun _ => ⟨not_le.1 hr, not_not.1 hc⟩) fun r => ?_
    split
    · trivial
    · exact .query
    · trivial

theorem disputeTask_uses (i : TaskActorInput) : (disputeTask i).Uses Tx.Free := by
  unfold disputeTask
  repeat' first
    | trivial
    | exact .query
    | refine .bind .query fun _ => ?_
    | refine .bind .queryAny fun _ => ?_
    | refine .bind (openGovernanceCase_uses _) fun _ => ?_
    | refine .bind (.transaction fun _ => trivial) fun _ => ?_
    | split

/-- Every call but three hands over free transactions only. -/
theorem start_uses (c : Call) (hg : ∀ i, c ≠ .applyGovernanceAction i)
    (ha : ∀ i, c ≠ .acceptSubmittedTask i) (hc : ∀ i, c ≠ .completeTask i) :
    (start c).Uses Tx.Free := by
  cases c with
  | applyGovernanceAction i => exact absurd rfl (hg i)
  | acceptSubmittedTask i => exact absurd rfl (ha i)
  | completeTask i => exact absurd rfl (hc i)
  | deactivatePersona i => exact answering_uses (deactivatePersona_uses i)
  | addGovernanceEvent i => exact answering_uses (addGovernanceEvent_uses i)
  | markDeceased i => exact answering_uses (addGovernanceEvent_uses _)
  | evaluateLifecycle i => exact answering_uses (evaluateLifecycle_uses i)
  | openGovernanceCase i => exact answering_uses (openGovernanceCase_uses i)
  | recoverTimedOutRuntimeSessions i =>
    exact answering_uses (.bind (.bind .queryAny fun _ => recoverSessions_uses i _ _)
      fun _ => trivial)
  | publishTask i => exact answering_uses (publishTask_uses i)
  | disputeTask i => exact answering_uses (disputeTask_uses i)
  | _ =>
    refine answering_uses ?_
    simp only [createPersonaCore, createPersonaFork, activatePersona, requestTransfer,
      approveTransfer, addKnowledge, appealGovernanceCase, applyToTask, assignTask, acceptTask,
      createRuntimeSession, planRuntimeSession, executeRuntimeSession, evaluateRuntimeSession,
      completeRuntimeSession, submitTaskResult, rejectSubmittedTask, readTaskOutcome,
      settleTaskPayment, requestWalletPayout]
    repeat' first
      | exact True.intro
      | split
      | refine .bind .queryAny fun _ => ?_
      | refine .bind .query fun _ => ?_
      | refine .bind (.transaction fun _ => trivial) fun _ => ?_

/-! ## The discipline -/

/-- What the calls agree on: the tables are tidy and only grow, and every transaction is backed. -/
def rows : Discipline TenantDb Tx Env where
  inv := TenantDb.Tidy
  ext := TenantDb.Grows
  guar t db := t.Backed db
  may _ _ _ := True
  ext_refl := .refl
  ext_trans := .trans

theorem rows_kept : rows.Kept exec := fun env t db h hb _ => ⟨exec_tidy h hb, exec_grows env t db⟩

/-- The accepted assignment has a settlement, unless the task was completed for another persona. -/
def TaskAcceptance.Paid (a : TaskAcceptance) (db : TenantDb) : Prop :=
  (∃ s ∈ db.settlements, s.assignmentId = a.assignmentId) ∨
    ∃ task ∈ db.tasks, task.id = a.taskId ∧ task.status = .completed ∧
      task.assigneePersonaId ≠ some a.personaId

/-- The acceptances a call has committed are paid. -/
def Leaves (log : List (Tx × Reply)) (db : TenantDb) : Prop :=
  ∀ a, (.acceptSubmittedTask a, .committed) ∈ log → a.Paid db

/-- What a call leaves, whatever it returns. -/
abbrev leaves {α : Type} (log : List (Tx × Reply)) (_ : Except PersonaError α) (db : TenantDb) :
    Prop := Leaves log db

theorem TaskAcceptance.Paid.grows {a : TaskAcceptance} (h : a.Paid db) (hg : db.Grows db') :
    a.Paid db' := by
  obtain ⟨s, hs, ha⟩ | ⟨task, htask, hid, hc, hne⟩ := h
  · obtain ⟨s', hs', rfl⟩ := hg.settlements.stay s hs
    exact .inl ⟨_, hs', ha⟩
  · obtain ⟨task', htask', hfixed, hkeep⟩ := hg.tasks.stay task htask
    refine .inr ⟨task', htask', (congrArg Prod.fst hfixed).trans hid, (hkeep hc).1, ?_⟩
    rwa [(hkeep hc).2]

theorem Leaves.grows {log : List (Tx × Reply)} (h : Leaves log db) (hg : db.Grows db') :
    Leaves log db' :=
  fun a ha => (h a ha).grows hg

section
variable {α : Type} {p : ServiceCall α} {log : List (Tx × Reply)}

theorem meets_of_reads (h : p.Uses fun _ => False) (hl : Leaves log db) :
    p.Meets rows exec leaves log db :=
  h.meets rows_kept (fun _ _ h => h.elim) fun _ _ _ hg _ hx a ha =>
    (hl a ((hx _ ha).resolve_right id)).grows hg

theorem meets_of_uses (h : p.Uses Tx.Free) : p.Meets rows exec leaves [] db := by
  refine h.meets rows_kept (fun t s ht => ht s) fun l' r s' _ _ hx a ha => ?_
  -- an acceptance is not free: nothing backs it in an empty database
  obtain hnil | hfree := hx _ ha
  · exact (List.not_mem_nil hnil).elim
  · obtain ⟨x, hx, -⟩ := (hfree (TenantDb.fresh [])).assignment
    exact (List.not_mem_nil hx).elim

theorem answering_meets {f : α → Answer} {p : ServiceCall (Option α)}
    (h : p.Meets rows exec leaves log db) : (answering f p).Meets rows exec leaves log db := by
  refine .bind (h.mono fun l r s _ hl => ?_)
  cases r with
  | ok a => exact fun s' hg _ => hl.grows hg
  | error e => exact hl

end

/-! ### Governance actions -/

theorem applyGovernanceAction_meets (i : ApplyGovernanceActionInput) :
    (applyGovernanceAction i).Meets rows exec leaves [] db := by
  have hnil : ∀ {db}, Leaves [] db := fun _ h => (List.not_mem_nil h).elim
  refine .query fun db₁ _ _ => ?_
  split
  next g hg =>
    split
    · exact meets_of_reads trivial hnil
    refine .query fun db₂ h₁₂ _ => ?_
    split
    next persona _ =>
      refine .transaction fun db₃ h₂₃ _ => ⟨⟨?_, persona.status, rfl⟩, fun o _ => ?_⟩
      · -- the case that was read is still about the same persona
        obtain ⟨hmem, hid⟩ := Table.find_spec hg
        obtain ⟨g', hg', he⟩ := (h₁₂.trans h₂₃).cases.stay g hmem
        simp only [GovernanceCase.fixed, Prod.mk.injEq] at he
        exact ⟨g', hg', he.1.trans hid, he.2.1⟩
      · refine meets_of_reads ?_ fun a ha => by simp at ha
        split
        · trivial
        · trivial
        · refine .bind .query fun nextCase => ?_
          split
          · refine .bind .query fun nextAction => ?_
            split <;> trivial
          · trivial
        · trivial
    next => exact meets_of_reads trivial hnil
  next => exact meets_of_reads trivial hnil

/-! ### Acceptances -/

/-- A settlement of the reward of a task, on an assignment of its assignee, is there afterwards:
either it has been before, or it passes every check. -/
theorem settle_written {task : MarketplaceTask} {assignment : TaskAssignment}
    {wallet : PersonaWallet} {input : SettleTaskPaymentInput} (ht : db.Tidy)
    (htask : task ∈ db.tasks) (htaskId : task.id = input.taskId)
    (hpublisher : task.publisherUserId = input.actorUserId)
    (hassignment : assignment ∈ db.assignments) (hassignmentId : assignment.id = input.assignmentId)
    (hof : assignment.taskId = input.taskId)
    (hassignee : task.assigneePersonaId = some assignment.personaId)
    (hwallet : wallet ∈ db.wallets) (howner : wallet.personaId = assignment.personaId)
    (hactive : wallet.status = .active) (hpays : PaysReward input task wallet) :
    ∃ s ∈ (exec env (.settleTaskPayment input) db).1.settlements,
      s.assignmentId = input.assignmentId := by
  have hs : Settles db input task assignment wallet :=
    ⟨htaskId ▸ ht.numbered.tasks.find htask, hpublisher,
      hassignmentId ▸ ht.numbered.assignments.find hassignment, hof, hassignee,
      howner ▸ ht.owned.1.find hwallet, hactive⟩
  cases hex : getWalletSettlementByAssignmentId db input.assignmentId with
  | some s =>
    rw [exec_settle_existing hs hex]
    exact ⟨s, Table.find_spec hex⟩
  | none =>
    rw [exec_settle_paid hs hex hpays]
    exact ⟨_, List.mem_append_right _ (List.mem_singleton_self _), rfl⟩

theorem exec_acceptSubmittedTask_committed {a : TaskAcceptance}
    (h : (exec env (.acceptSubmittedTask a) db).2 = .committed) :
    ∃ task ∈ (exec env (.acceptSubmittedTask a) db).1.tasks,
      task.id = a.taskId ∧ task.status = .completed := by
  rw [exec_acceptSubmittedTask] at h ⊢
  split at h
  next hc =>
    have hpos := List.countP_pos_iff.1 (hc ▸ Nat.one_pos)
    obtain ⟨task, htask, hp⟩ := hpos
    rw [decide_eq_true_eq] at hp
    rw [if_pos hc]
    exact ⟨_, Table.mem_update_of htask hp, hp.1, rfl⟩
  next => cases h

def AcceptSubmittedTaskInput.payment (i : AcceptSubmittedTaskInput) (task : MarketplaceTask)
    (assignment : TaskAssignment) : SettleTaskPaymentInput where
  actorUserId := i.actorUserId
  taskId := task.id
  assignmentId := assignment.id
  totalAmountMinor := toMinor task.reward
  currency := task.currency
  split := acceptanceSplit

/-- What an acceptance has read that its settlement checks again. -/
structure AcceptanceRead (db : TenantDb) (i : AcceptSubmittedTaskInput) (task : MarketplaceTask)
    (assignment : TaskAssignment) (wallet : PersonaWallet) : Prop where
  task_mem : ∃ x ∈ db.tasks, x.fixed = task.fixed
  task_id : task.id = i.taskId
  publisher : task.publisherUserId = i.actorUserId
  positive : 0 < toMinor task.reward
  assignment_mem : ∃ x ∈ db.assignments, x.fixed = assignment.fixed
  of_task : assignment.taskId = i.taskId
  wallet_mem : ∃ x ∈ db.wallets, x.fixed = wallet.fixed
  owner : wallet.personaId = assignment.personaId
  active : wallet.status = .active
  currency : wallet.currency = task.currency

theorem AcceptanceRead.grows {i : AcceptSubmittedTaskInput} {task : MarketplaceTask}
    {assignment : TaskAssignment} {wallet : PersonaWallet}
    (h : AcceptanceRead db i task assignment wallet) (hg : db.Grows db') :
    AcceptanceRead db' i task assignment wallet := by
  obtain ⟨⟨x, hx, hxe⟩, h₂, h₃, h₄, ⟨y, hy, hye⟩, h₆, ⟨z, hz, hze⟩, h₈, h₉, h₁₀⟩ := h
  obtain ⟨x', hx', hxe', -⟩ := hg.tasks.stay x hx
  obtain ⟨y', hy', hye'⟩ := hg.assignments.stay y hy
  obtain ⟨z', hz', hze'⟩ := hg.wallets.stay z hz
  exact ⟨⟨x', hx', hxe'.trans hxe⟩, h₂, h₃, h₄, ⟨y', hy', hye'.trans hye⟩, h₆,
    ⟨z', hz', hze'.trans hze⟩, h₈, h₉, h₁₀⟩

/-- Once the task is completed, the settlement of the acceptance pays the assignment, or the task
belongs to another persona. -/
theorem AcceptanceRead.paid {i : AcceptSubmittedTaskInput} {task : MarketplaceTask}
    {assignment : TaskAssignment} {wallet : PersonaWallet} {a : TaskAcceptance}
    (h : AcceptanceRead db i task assignment wallet) (ht : db.Tidy) (htask : a.taskId = i.taskId)
    (hassignment : a.assignmentId = assignment.id) (hpersona : a.personaId = assignment.personaId)
    (hc : ∃ x ∈ db.tasks, x.id = i.taskId ∧ x.status = .completed) :
    a.Paid (exec env (.settleTaskPayment (i.payment task assignment)) db).1 := by
  obtain ⟨⟨x, hx, hxe⟩, htid, hpub, hpos, ⟨y, hy, hye⟩, hof, ⟨z, hz, hze⟩, howner, hactive,
    hcur⟩ := h
  simp only [MarketplaceTask.fixed, Prod.mk.injEq] at hxe
  simp only [TaskAssignment.fixed, Prod.mk.injEq] at hye
  simp only [PersonaWallet.fixed, Prod.mk.injEq] at hze
  obtain ⟨x', hx', hid, hcompleted⟩ := hc
  obtain rfl : x' = x := ht.numbered.tasks.eq hx' hx (hid.trans (hxe.1.trans htid).symm)
  by_cases hassignee : x'.assigneePersonaId = some a.personaId
  · left
    rw [hassignment]
    refine settle_written ht hx' hxe.1 (hxe.2.1.trans hpub) hy hye.1 (hye.2.1.trans ?_) ?_ hz
      ?_ (hze.2.2.2.trans hactive) ⟨?_, ?_, ?_, rfl⟩
    · exact hof.trans htid.symm
    · rw [hassignee, hpersona, hye.2.2.1]
    · rw [hze.2.1, howner, hye.2.2.1]
    · exact (hze.2.2.1.trans hcur).symm
    · simpa [AcceptSubmittedTaskInput.payment] using hpos
    · simp [AcceptSubmittedTaskInput.payment, hxe.2.2.1]
  · exact TaskAcceptance.Paid.grows
      (.inr ⟨x', hx', hid.trans htask.symm, hcompleted, hassignee⟩) (exec_grows _ _ _)

theorem AcceptanceRead.rest_meets {i : AcceptSubmittedTaskInput} {task : MarketplaceTask}
    {assignment : TaskAssignment} {wallet : PersonaWallet} {a : TaskAcceptance} {env : Env}
    (h : AcceptanceRead db i task assignment wallet) (htask : a.taskId = i.taskId)
    (hassignment : a.assignmentId = assignment.id) (hpersona : a.personaId = assignment.personaId)
    {g : Option TaskWalletSettlement → ServiceCall (Option TaskOutcome)}
    (hg : ∀ s, (g s).Uses fun _ => False) :
    (settleTaskPayment (i.payment task assignment) >>= g).Meets rows exec leaves
      ([] ++ [(.acceptSubmittedTask a, (exec env (.acceptSubmittedTask a) db).2)])
      (exec env (.acceptSubmittedTask a) db).1 := by
  refine .bind (.transaction fun db₂ h₁₂ ht => ⟨trivial, fun o _ => ?_⟩)
  have hpaid : Leaves ([] ++ [(.acceptSubmittedTask a, (exec env (.acceptSubmittedTask a) db).2)] ++
      [(.settleTaskPayment (i.payment task assignment),
        (exec o (.settleTaskPayment (i.payment task assignment)) db₂).2)])
      (exec o (.settleTaskPayment (i.payment task assignment)) db₂).1 := fun a' ha' => by
    simp only [List.nil_append, List.cons_append, List.mem_cons, Prod.mk.injEq,
      Tx.acceptSubmittedTask.injEq, reduceCtorEq, false_and, List.not_mem_nil, or_false] at ha'
    obtain ⟨rfl, hr⟩ := ha'
    obtain ⟨x, hx, hid, hc⟩ := exec_acceptSubmittedTask_committed hr.symm
    obtain ⟨x', hx', hfixed, hkeep⟩ := h₁₂.tasks.stay x hx
    exact (h.grows ((exec_grows _ _ _).trans h₁₂)).paid ht htask hassignment hpersona
      ⟨x', hx', (congrArg Prod.fst hfixed).trans (hid.trans htask), (hkeep hc).1⟩
  -- whatever the settlement answers, the rest only reads
  split
  · exact fun s' hg' _ => hpaid.grows hg'
  · exact fun s' hg' _ => meets_of_reads (hg _) (hpaid.grows hg')
  · exact fun s' hg' _ => meets_of_reads (hg _) (hpaid.grows hg')

theorem acceptSubmittedTask_meets (i : AcceptSubmittedTaskInput) :
    (acceptSubmittedTask i).Meets rows exec leaves [] db := by
  have hnone : ∀ {db},
      (pure none : ServiceCall (Option TaskOutcome)).Meets rows exec leaves [] db :=
    meets_of_reads trivial fun _ h => (List.not_mem_nil h).elim
  refine .query fun db₁ _ _ => ?_
  cases htask : getMarketplaceTask db₁ i.taskId with
  | none => exact hnone
  | some task =>
  obtain ⟨htask, htaskId⟩ := Table.find_spec htask
  dsimp only
  split
  next => exact hnone
  next hpublisher =>
  rw [not_or, not_not] at hpublisher
  refine .queryAny fun db₂ h₁₂ _ o₂ => ?_
  cases hassignment : getLatestTaskAssignmentByTask o₂ db₂ i.taskId with
  | none => exact hnone
  | some assignment =>
  have hmem := Table.latest_mem hassignment
  rw [List.mem_filter, decide_eq_true_eq] at hmem
  dsimp only
  split
  next => exact hnone
  refine .queryAny fun db₃ h₂₃ _ o₃ => ?_
  cases hresult : getLatestTaskResultByAssignment o₃ db₃ assignment.id with
  | none => exact hnone
  | some result =>
  have hrmem := Table.latest_mem hresult
  rw [List.mem_filter, decide_eq_true_eq] at hrmem
  dsimp only
  split
  next => exact hnone
  refine .query fun db₄ h₃₄ _ => ?_
  cases hpersona : getPersonaById db₄ assignment.personaId with
  | none => exact hnone
  | some persona =>
  dsimp only
  split
  next => exact hnone
  split
  next => exact hnone
  next hpos =>
  refine .query fun db₅ h₄₅ _ => ?_
  cases hwallet : getWalletByPersonaId db₅ assignment.personaId with
  | none => exact hnone
  | some wallet =>
  obtain ⟨hwmem, howner⟩ := Table.find_spec hwallet
  dsimp only
  split
  next => exact hnone
  next hactive =>
  rw [not_or, not_not, not_not] at hactive
  -- what has been read is there at every later moment
  have hread : AcceptanceRead db₅ i task assignment wallet := by
    obtain ⟨x, hx, hxe, -⟩ := (h₁₂.trans (h₂₃.trans (h₃₄.trans h₄₅))).tasks.stay task htask
    obtain ⟨y, hy, hye⟩ := (h₂₃.trans (h₃₄.trans h₄₅)).assignments.stay assignment hmem.1
    exact ⟨⟨x, hx, hxe⟩, htaskId, hpublisher.1, not_le.1 hpos, ⟨y, hy, hye⟩, hmem.2,
      ⟨wallet, hwmem, rfl⟩, howner, hactive.1, hactive.2⟩
  refine .transaction fun db₆ h₅₆ _ => ⟨⟨?_, ?_⟩, fun o _ => ?_⟩
  · obtain ⟨y, hy, hye⟩ := (hread.grows h₅₆).assignment_mem
    simp only [TaskAssignment.fixed, Prod.mk.injEq] at hye
    exact ⟨y, hy, hye.1, hye.2.1.trans hmem.2, hye.2.2.1⟩
  · obtain ⟨r, hr, hre⟩ := (h₃₄.trans (h₄₅.trans h₅₆)).results.stay result hrmem.1
    simp only [TaskResult.fixed, Prod.mk.injEq] at hre
    exact ⟨r, hr, hre.1, hre.2.2.1.trans hrmem.2⟩
  split
  next hr => exact meets_of_reads trivial fun a ha => by simp [hr] at ha
  next e _ hr => exact meets_of_reads trivial fun a ha => by simp [hr] at ha
  next =>
  refine (hread.grows h₅₆).rest_meets rfl rfl rfl fun s => ?_
  split
  · refine .bind .query fun task => ?_
    split
    · refine .bind .query fun assignment => ?_
      split
      · refine .bind .queryAny fun result => ?_
        split <;> trivial
      · trivial
    · trivial
  · trivial

/-! ### Direct completions -/

/-- What a direct completion pays is the same in both units, and not negative. -/
theorem payout_eq {x : ℚ} (hx : 0 ≤ x) :
    0 ≤ toMinor (round x 2) ∧ round x 2 = toMinor (round x 2) / 100 := by
  have hround : round x 2 = (mathRound (x * 100) : ℚ) / 100 := by
    rw [round]
    norm_num
  have hnonneg : 0 ≤ mathRound (x * 100) := Int.floor_nonneg.2 (by positivity)
  rw [hround, toMinor_div_hundred]
  exact ⟨hnonneg, rfl⟩

theorem completeTask_meets (i : CompleteMarketplaceTaskInput) :
    (completeTask i).Meets rows exec leaves [] db := by
  have hnone : ∀ {db},
      (pure none : ServiceCall (Option CompletionOutcome)).Meets rows exec leaves [] db :=
    meets_of_reads trivial fun _ h => (List.not_mem_nil h).elim
  refine .query fun db₁ _ ht₁ => ?_
  cases htask : getMarketplaceTask db₁ i.taskId with
  | none => exact hnone
  | some task =>
  obtain ⟨htask, htaskId⟩ := Table.find_spec htask
  have hreward := (ht₁.rewards task htask).1
  dsimp only
  split
  next => exact hnone
  cases hassignee : task.assigneePersonaId with
  | none => exact hnone
  | some personaId =>
  refine .query fun db₂ _ _ => ?_
  cases hdetail : getPersonaDetail db₂ personaId i.ownerUserId with
  | none => exact hnone
  | some detail =>
  dsimp only
  split
  next => exact hnone
  refine .query fun db₃ _ _ => ?_
  cases hwallet : getWalletByPersonaId db₃ personaId with
  | none => exact hnone
  | some wallet =>
  obtain ⟨hwmem, howner⟩ := Table.find_spec hwallet
  dsimp only
  split
  next => exact hnone
  refine .queryAny fun db₄ h₃₄ _ o₄ => ?_
  cases hanchor : getLatestTaskAssignmentByTask o₄ db₄ i.taskId with
  | none => exact hnone
  | some anchor =>
  have hmem := Table.latest_mem hanchor
  rw [List.mem_filter, decide_eq_true_eq] at hmem
  refine .query fun db₅ h₄₅ _ => ?_
  cases getWalletSettlementByAssignmentId db₅ anchor.id with
  | some s => exact hnone
  | none =>
  have hpos : 0 ≤ task.reward * max (clamp i.qualityScore 0 1) (2 / 10) := by positivity
  refine .transaction fun db₆ h₅₆ _ =>
    ⟨⟨?_, ?_, (payout_eq hpos).1, (payout_eq hpos).2⟩, fun o _ => ?_⟩
  · obtain ⟨x, hx, hxe⟩ := (h₄₅.trans h₅₆).assignments.stay anchor hmem.1
    simp only [TaskAssignment.fixed, Prod.mk.injEq] at hxe
    exact ⟨x, hx, hxe.1, hxe.2.1.trans hmem.2⟩
  · obtain ⟨w, hw, hwe⟩ := (h₃₄.trans (h₄₅.trans h₅₆)).wallets.stay wallet hwmem
    simp only [PersonaWallet.fixed, Prod.mk.injEq] at hwe
    exact ⟨w, hw, hwe.1, hwe.2.1.trans howner⟩
  · refine meets_of_reads ?_ fun a ha => by simp at ha
    split
    · trivial
    · trivial
    · refine .bind .query fun task => ?_
      split
      · refine .bind .query fun wallet => ?_
        split
        · refine .bind .query fun persona => ?_
          split <;> trivial
        · trivial
      · trivial

/-! ## All calls -/

/-- **Every call keeps to the rows**, whatever the others do between its steps. -/
theorem start_meets (c : Call) : (start c).Meets rows exec leaves [] db := by
  cases c with
  | applyGovernanceAction i => exact answering_meets (applyGovernanceAction_meets i)
  | acceptSubmittedTask i => exact answering_meets (acceptSubmittedTask_meets i)
  | completeTask i => exact answering_meets (completeTask_meets i)
  | _ => exact meets_of_uses (start_uses _ (by simp) (by simp) (by simp))

/-- The invariant of the persona system. -/
abbrev PersonaPool.Sound (p : PersonaPool) : Prop := Pool.Sound rows exec (fun _ => leaves) p

theorem PersonaPool.Sound.init (users : List Id) : (PersonaPool.init users).Sound :=
  Pool.Sound.idle (TenantDb.Tidy.fresh users)

theorem PersonaPool.Sound.step {p : PersonaPool} (h : p.Sound) (m : PersonaMove) :
    (p.step m).Sound :=
  Pool.Sound.step h rows_kept (fun c _ _ => start_meets c) fun _ _ _ => trivial

/-- **All runs**: the tables are tidy and every call in progress keeps to the rows. -/
theorem PersonaPool.sound (users : List Id) (ms : List PersonaMove) :
    Always PersonaPool.step PersonaPool.Sound (PersonaPool.init users) ms :=
  Always.of_inductive (.init users) fun _ m h => h.step m

section
variable {C : Env → Tx → TenantDb → Prop} {I P : TenantDb → Prop} {users : List Id}
  {ms : List PersonaMove}

/-- Every run whose transactions all meet `C` keeps what the backed ones that do so keep. -/
theorem PersonaPool.always_of_keep (hI : I (TenantDb.fresh users))
    (keep : ∀ env t db, db.Tidy → t.Backed db → I db → C env t db → I (exec env t db).1)
    (hC : Along PersonaPool.step (Pool.AtCommit C) (PersonaPool.init users) ms) :
    Always PersonaPool.step (fun p => p.Sound ∧ I p.db) (PersonaPool.init users) ms :=
  Pool.always_of_keep (TenantDb.Tidy.fresh users) hI rows_kept (fun _ _ _ => trivial)
    (fun c _ _ => start_meets c) keep hC

/-- Exactly the runs whose transactions all meet `C` keep `P`, if those that do not are seen to
violate it. -/
theorem PersonaPool.always_iff (hI : I (TenantDb.fresh users)) (hIP : ∀ db, I db → P db)
    (keep : ∀ env t db, db.Tidy → t.Backed db → I db → C env t db → I (exec env t db).1)
    (need : ∀ env t db, db.Tidy → t.Backed db → I db → P (exec env t db).1 → C env t db) :
    Always PersonaPool.step (fun p => P p.db) (PersonaPool.init users) ms ↔
      Along PersonaPool.step (Pool.AtCommit C) (PersonaPool.init users) ms :=
  Pool.always_iff_atCommit (Q := fun _ => leaves) (TenantDb.Tidy.fresh users) hI rows_kept
    (fun _ _ _ => trivial) (fun c _ _ => start_meets c) hIP keep need

/-- Exactly the runs whose transactions all meet `C` keep `R` between any two databases with only
transactions that meet `E` between them, if each of these transactions does. -/
theorem PersonaPool.between_iff {E : Env → Tx → TenantDb → Prop} {R : TenantDb → TenantDb → Prop}
    (refl : ∀ db, R db db) (trans : ∀ db db' db'', R db db' → R db' db'' → R db db'')
    (hR : ∀ env t db, db.Tidy → t.Backed db → E env t db → (R db (exec env t db).1 ↔ C env t db)) :
    Between PersonaPool.step (Pool.AtCommit E) (fun p p' => R p.db p'.db) (PersonaPool.init users)
        ms ↔
      Along PersonaPool.step (Pool.AtCommit fun env t db => E env t db → C env t db)
        (PersonaPool.init users) ms :=
  Pool.between_iff_atCommit (Q := fun _ => leaves) (TenantDb.Tidy.fresh users) rows_kept
    (fun _ _ _ => trivial) (fun c _ _ => start_meets c) refl trans hR

end

end ChronoSynth.Persona

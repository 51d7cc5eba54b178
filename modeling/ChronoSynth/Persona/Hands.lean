import ChronoSynth.Persona.Growth

/-!
# Who hands over what

Every transaction is handed over by the calls it is named after, with the values of their input
(`Call.MayHand`), whatever the call reads. As a discipline (`hands`) this is what the results need
that depend on who writes what, and not on what the writer has read.
-/

namespace ChronoSynth.Persona

def Call.MayHand (c : Call) : Tx → Prop
  | .createPersona u => c = .createPersona ⟨u⟩
  | .createFork _ => ∃ i, c = .createFork i
  | .activatePersona _ => ∃ i, c = .activatePersona i
  | .deactivatePersona _ => (∃ i, c = .deactivatePersona i) ∨ ∃ i, c = .evaluateLifecycle i
  | .requestTransfer p u v => c = .requestTransfer ⟨u, p, v⟩
  | .approveTransfer p x u => c = .approveTransfer ⟨p, x, u⟩
  | .addKnowledge .. => ∃ i, c = .addKnowledge i
  | .addGovernanceEvent .. =>
    (∃ i, c = .addGovernanceEvent i) ∨ (∃ i, c = .markDeceased i) ∨ ∃ i, c = .evaluateLifecycle i
  | .openGovernanceCase .. => (∃ i, c = .openGovernanceCase i) ∨ ∃ i, c = .disputeTask i
  | .applyGovernanceAction .. => ∃ i, c = .applyGovernanceAction i
  | .appealGovernanceCase _ => ∃ i, c = .appealGovernanceCase i
  | .publishTask .. => ∃ i, c = .publishTask i
  | .applyToTask .. => ∃ i, c = .applyToTask i
  | .assignTask .. => ∃ i, c = .assignTask i
  | .acceptTask .. => ∃ i, c = .acceptTask i
  | .createRuntimeSession .. => ∃ i, c = .createRuntimeSession i
  | .planRuntimeSession .. => ∃ i, c = .planRuntimeSession i
  | .executeRuntimeSession .. => ∃ i, c = .executeRuntimeSession i
  | .evaluateRuntimeSession .. => ∃ i, c = .evaluateRuntimeSession i
  | .completeRuntimeSession _ => ∃ i, c = .completeRuntimeSession i
  | .retryRuntimeSession _ state expectedState _ =>
    state = .PLAN ∧ isRuntimeActiveState expectedState ∧ ∃ i, c = .recoverTimedOutRuntimeSessions i
  | .timeoutRuntimeSession _ expectedState =>
    isRuntimeActiveState expectedState ∧ ∃ i, c = .recoverTimedOutRuntimeSessions i
  | .submitTaskResult .. => ∃ i, c = .submitTaskResult i
  | .acceptSubmittedTask _ => ∃ i, c = .acceptSubmittedTask i
  | .rejectSubmittedTask .. => ∃ i, c = .rejectSubmittedTask i
  | .disputeTask .. => ∃ i, c = .disputeTask i
  | .completeTask _ => ∃ i, c = .completeTask i
  | .settleTaskPayment input => c = .settleTaskPayment input ∨ ∃ i, c = .acceptSubmittedTask i
  | .requestWalletPayout _ => ∃ i, c = .requestWalletPayout i

section
variable {c : Call}

theorem deactivatePersona_hands {i : PersonaInput}
    (h : (∃ i, c = .deactivatePersona i) ∨ ∃ i, c = .evaluateLifecycle i) :
    (deactivatePersona i).Uses c.MayHand := by
  refine .bind .query fun detail => ?_
  split
  · split_ifs
    · trivial
    · trivial
    · refine .bind (.transaction h) fun r => ?_
      split
      · trivial
      · exact .query
  · trivial

theorem addGovernanceEvent_hands {i : AddGovernanceEventInput}
    (h : (∃ i, c = .addGovernanceEvent i) ∨ (∃ i, c = .markDeceased i) ∨
      ∃ i, c = .evaluateLifecycle i) :
    (addGovernanceEvent i).Uses c.MayHand := by
  refine .bind .query fun detail => ?_
  split
  · refine .bind (.transaction h) fun r => ?_
    split
    · trivial
    · exact .query
  · trivial

theorem openGovernanceCase_hands {i : OpenGovernanceCaseInput}
    (h : (∃ i, c = .openGovernanceCase i) ∨ ∃ i, c = .disputeTask i) :
    (openGovernanceCase i).Uses c.MayHand := by
  refine .bind .query fun persona => ?_
  split
  · refine .bind (.transaction h) fun r => ?_
    split
    · trivial
    · exact .query
    · trivial
  · trivial

theorem settleTaskPayment_hands {i : SettleTaskPaymentInput}
    (h : c = .settleTaskPayment i ∨ ∃ i, c = .acceptSubmittedTask i) :
    (settleTaskPayment i).Uses c.MayHand := by
  refine .bind (.transaction h) fun r => ?_
  split <;> trivial

theorem recoverSessions_hands {i : RecoverInput} (sessions : List RuntimeSession)
    (outcome : RecoverOutcome) :
    (recoverSessions i sessions outcome).Uses (Call.recoverTimedOutRuntimeSessions i).MayHand := by
  induction sessions generalizing outcome with
  | nil => trivial
  | cons session rest ih =>
    rw [recoverSessions]
    split
    next => exact ih _
    next hactive =>
    rw [not_not] at hactive
    split
    · refine .bind (.transaction ⟨rfl, hactive, i, rfl⟩) fun r => ?_
      split
      · trivial
      · exact ih _
      · exact ih _
    · refine .bind (.transaction ⟨hactive, i, rfl⟩) fun r => ?_
      split
      · trivial
      · exact ih _
      · exact ih _

end

theorem answering_hands {α : Type} {c : Call} {f : α → Answer} {p : ServiceCall (Option α)}
    (h : p.Uses c.MayHand) : (answering f p).Uses c.MayHand :=
  h.bind fun _ => trivial

/-- **Every call hands over its own transactions.** -/
theorem start_hands (c : Call) : (start c).Uses c.MayHand := by
  cases c with
  | deactivatePersona i => exact answering_hands (deactivatePersona_hands (.inl ⟨i, rfl⟩))
  | addGovernanceEvent i => exact answering_hands (addGovernanceEvent_hands (.inl ⟨i, rfl⟩))
  | markDeceased i => exact answering_hands (addGovernanceEvent_hands (.inr (.inl ⟨i, rfl⟩)))
  | evaluateLifecycle i =>
    refine answering_hands (.bind .query fun detail => ?_)
    split
    · refine .bind .queryAny fun lastActiveAt => ?_
      split
      · trivial
      · refine .bind .queryAny fun nowMs => ?_
        split
        · split
          · trivial
          · refine .bind (addGovernanceEvent_hands (.inr (.inr ⟨i, rfl⟩))) fun deceased => ?_
            split <;> trivial
        · split
          · trivial
          · refine .bind (deactivatePersona_hands (.inr ⟨i, rfl⟩)) fun dormant => ?_
            split <;> trivial
    · trivial
  | openGovernanceCase i => exact answering_hands (openGovernanceCase_hands (.inl ⟨i, rfl⟩))
  | recoverTimedOutRuntimeSessions i =>
    exact answering_hands (.bind (.bind .queryAny fun _ => recoverSessions_hands _ _)
      fun _ => trivial)
  | settleTaskPayment i => exact answering_hands (settleTaskPayment_hands (.inl rfl))
  | _ =>
    refine answering_hands ?_
    simp only [createPersonaCore, createPersonaFork, activatePersona, requestTransfer,
      approveTransfer, addKnowledge, applyGovernanceAction, appealGovernanceCase, publishTask,
      applyToTask, assignTask, acceptTask, createRuntimeSession, planRuntimeSession,
      executeRuntimeSession, evaluateRuntimeSession, completeRuntimeSession, submitTaskResult,
      acceptSubmittedTask, rejectSubmittedTask, disputeTask, completeTask, readTaskOutcome,
      requestWalletPayout]
    repeat' first
      | exact True.intro
      | split
      | refine .bind .queryAny fun _ => ?_
      | refine .bind .query fun _ => ?_
      | exact .queryAny
      | exact .query
      | refine .bind (.transaction ⟨_, rfl⟩) fun _ => ?_
      | refine .bind (.transaction rfl) fun _ => ?_
      | refine .bind (openGovernanceCase_hands (.inr ⟨_, rfl⟩)) fun _ => ?_
      | refine .bind (settleTaskPayment_hands (.inr ⟨_, rfl⟩)) fun _ => ?_

/-! ## The discipline -/

/-- Some call hands over the transaction. -/
def Tx.Handed (t : Tx) : Prop := ∃ c : Call, c.MayHand t

/-- What the calls keep to without having read anything: the rows are numbered and only grow, and
every transaction is one that a call hands over. -/
def hands : Discipline TenantDb Tx Env where
  inv := TenantDb.Numbered
  ext := TenantDb.Grows
  guar t _ := t.Handed
  may _ _ _ := True
  ext_refl := .refl
  ext_trans := .trans

theorem hands_kept : hands.Kept exec := fun env t db hn _ _ =>
  ⟨(exec_grows env t db).numbered_of hn, exec_grows env t db⟩

theorem start_meets_hands (c : Call) (db : TenantDb) :
    (start c).Meets hands exec (fun _ _ _ => True) [] db :=
  (start_hands c).meets hands_kept (fun _ _ h => ⟨c, h⟩) fun _ _ _ _ _ _ => trivial

section
variable {C E : Env → Tx → TenantDb → Prop} {I : TenantDb → Prop} {R : TenantDb → TenantDb → Prop}
  {users : List Id} {ms : List PersonaMove}

/-- Every run whose transactions all meet `C` keeps what the handed ones that do so keep. -/
theorem PersonaPool.always_of_handed (hI : I (TenantDb.fresh users))
    (keep : ∀ env t db, db.Numbered → t.Handed → I db → C env t db → I (exec env t db).1)
    (hC : Along PersonaPool.step (Pool.AtCommit C) (PersonaPool.init users) ms) :
    Always PersonaPool.step (fun p => p.db.Numbered ∧ I p.db) (PersonaPool.init users) ms :=
  (Pool.always_of_keep (D := hands) (Q := fun _ _ _ _ => True) (TenantDb.Numbered.fresh users) hI
    hands_kept (fun _ _ _ => trivial) (fun c db _ => start_meets_hands c db) keep hC).mono
    fun _ h => ⟨h.1.inv, h.2⟩

/-- Exactly the runs whose transactions all meet `C` keep `R` between any two databases, if each
handed transaction does. -/
theorem PersonaPool.between_iff_handed (refl : ∀ db, R db db)
    (trans : ∀ db db' db'', R db db' → R db' db'' → R db db'')
    (hR : ∀ env t db, db.Numbered → t.Handed → E env t db →
      (R db (exec env t db).1 ↔ C env t db)) :
    Between PersonaPool.step (Pool.AtCommit E) (fun p p' => R p.db p'.db) (PersonaPool.init users)
        ms ↔
      Along PersonaPool.step (Pool.AtCommit fun env t db => E env t db → C env t db)
        (PersonaPool.init users) ms :=
  Pool.between_iff_atCommit (D := hands) (Q := fun _ _ _ _ => True)
    (TenantDb.Numbered.fresh users) hands_kept (fun _ _ _ => trivial)
    (fun c db _ => start_meets_hands c db) refl trans hR

end

end ChronoSynth.Persona

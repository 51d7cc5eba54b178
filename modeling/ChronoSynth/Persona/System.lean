import ChronoSynth.Persona.CoreService
import ChronoSynth.Persona.MarketplaceService

/-!
# The persona system

The calls of the persona services, by any number of callers, over the tables of one tenant: each
call makes its reads one by one, and each of its transactions is one atomic step.
-/

namespace ChronoSynth.Persona

/-- What a transaction does, and returns. -/
def Tx.body (env : Env) : Tx → TxM Reply
  | .createPersona owner => createPersonaTx env owner
  | .createFork p => createForkTx p
  | .activatePersona p => activatePersonaTx env p
  | .deactivatePersona p => deactivatePersonaTx env p
  | .requestTransfer p u v => requestTransferTx env p u v
  | .approveTransfer p t u => approveTransferTx env p t u
  | .addKnowledge p g r => addKnowledgeTx env p g r
  | .addGovernanceEvent p r g next => addGovernanceEventTx env p r g next
  | .openGovernanceCase p t sev => openGovernanceCaseTx env p t sev
  | .applyGovernanceAction c p action dur actor next r =>
    applyGovernanceActionTx env c p action dur actor next r
  | .appealGovernanceCase c => appealGovernanceCaseTx env c
  | .publishTask u reward currency => publishTaskTx env u reward currency
  | .applyToTask t p => applyToTaskTx env t p
  | .assignTask t p a => assignTaskTx env t p a
  | .acceptTask t p f => acceptTaskTx env t p f
  | .createRuntimeSession p t a ms => createRuntimeSessionTx env p t a ms
  | .planRuntimeSession s ms => planRuntimeSessionTx env s ms
  | .executeRuntimeSession s a ms => executeRuntimeSessionTx env s a ms
  | .evaluateRuntimeSession s ms => evaluateRuntimeSessionTx env s ms
  | .completeRuntimeSession s => completeRuntimeSessionTx env s
  | .retryRuntimeSession s st st' ms => retryRuntimeSessionTx env s st st' ms
  | .timeoutRuntimeSession s st => timeoutRuntimeSessionTx env s st
  | .submitTaskResult t a => submitTaskResultTx env t a
  | .acceptSubmittedTask a => acceptSubmittedTaskTx env a
  | .rejectSubmittedTask t a r app => rejectSubmittedTaskTx env t a r app
  | .disputeTask t a r => disputeTaskTx env t a r
  | .completeTask c => completeTaskTx env c
  | .settleTaskPayment input => settleTaskPaymentInTx env input
  | .requestWalletPayout p => requestWalletPayoutTx env p

/-- A transaction is executed; what throws is rolled back. -/
def exec (env : Env) (t : Tx) (db : TenantDb) : TenantDb × Reply :=
  match t.body env db with
  | .ok (r, db') => (db', r)
  | .error e => (db, .failed e)

/-- A call of a persona service. -/
inductive Call
  | createPersona (input : CreatePersonaCoreInput)
  | createFork (input : PersonaInput)
  | activatePersona (input : PersonaInput)
  | deactivatePersona (input : PersonaInput)
  | requestTransfer (input : RequestPersonaTransferInput)
  | approveTransfer (input : ApprovePersonaTransferInput)
  | addKnowledge (input : AddPersonaKnowledgeInput)
  | addGovernanceEvent (input : AddGovernanceEventInput)
  | markDeceased (input : PersonaInput)
  | evaluateLifecycle (input : EvaluatePersonaLifecycleInput)
  | openGovernanceCase (input : OpenGovernanceCaseInput)
  | applyGovernanceAction (input : ApplyGovernanceActionInput)
  | appealGovernanceCase (input : AppealGovernanceCaseInput)
  | publishTask (input : PublishMarketplaceTaskInput)
  | applyToTask (input : ApplyTaskInput)
  | assignTask (input : AssignTaskInput)
  | acceptTask (input : AcceptMarketplaceTaskInput)
  | createRuntimeSession (input : CreateRuntimeSessionInput)
  | planRuntimeSession (input : RuntimeSessionInput)
  | executeRuntimeSession (input : RuntimeSessionInput)
  | evaluateRuntimeSession (input : RuntimeSessionInput)
  | completeRuntimeSession (input : RuntimeSessionInput)
  | recoverTimedOutRuntimeSessions (input : RecoverInput)
  | submitTaskResult (input : SubmitTaskResultInput)
  | acceptSubmittedTask (input : AcceptSubmittedTaskInput)
  | rejectSubmittedTask (input : TaskActorInput)
  | disputeTask (input : TaskActorInput)
  | completeTask (input : CompleteMarketplaceTaskInput)
  | settleTaskPayment (input : SettleTaskPaymentInput)
  | requestWalletPayout (input : RequestWalletPayoutInput)
  deriving DecidableEq, Repr

/-- What a call returns; `null` where the code returns `null`. -/
inductive Answer
  | null
  | persona (detail : PersonaCoreDetail)
  | transfer (t : PersonaTransfer)
  | transferred (o : TransferOutcome)
  | lifecycle (e : PersonaLifecycleEvaluation)
  | case (c : GovernanceCase)
  | action (o : GovernanceActionOutcome)
  | task (t : MarketplaceTask)
  | application (a : TaskApplication)
  | assignment (a : TaskAssignment)
  | session (s : RuntimeSession)
  | recovered (o : RecoverOutcome)
  | result (r : TaskResult)
  | outcome (o : TaskOutcome)
  | disputed (o : DisputeOutcome)
  | completed (o : CompletionOutcome)
  | settlement (s : TaskWalletSettlement)
  | payout (p : WalletPayoutRequest)
  deriving DecidableEq, Repr

/-- An answer that may be `null`. -/
def Answer.ofOption {α : Type} (f : α → Answer) : Option α → Answer
  | none => .null
  | some a => f a

def answering {α : Type} (f : α → Answer) (p : ServiceCall (Option α)) : ServiceCall Answer := do
  return Answer.ofOption f (← p)

def start : Call → ServiceCall Answer
  | .createPersona i => answering .persona (createPersonaCore i)
  | .createFork i => answering .persona (createPersonaFork i)
  | .activatePersona i => answering .persona (activatePersona i)
  | .deactivatePersona i => answering .persona (deactivatePersona i)
  | .requestTransfer i => answering .transfer (requestTransfer i)
  | .approveTransfer i => answering .transferred (approveTransfer i)
  | .addKnowledge i => answering .persona (addKnowledge i)
  | .addGovernanceEvent i => answering .persona (addGovernanceEvent i)
  | .markDeceased i => answering .persona (markDeceased i)
  | .evaluateLifecycle i => answering .lifecycle (evaluateLifecycle i)
  | .openGovernanceCase i => answering .case (openGovernanceCase i)
  | .applyGovernanceAction i => answering .action (applyGovernanceAction i)
  | .appealGovernanceCase i => answering .case (appealGovernanceCase i)
  | .publishTask i => answering .task (publishTask i)
  | .applyToTask i => answering .application (applyToTask i)
  | .assignTask i => answering .assignment (assignTask i)
  | .acceptTask i => answering .task (acceptTask i)
  | .createRuntimeSession i => answering .session (createRuntimeSession i)
  | .planRuntimeSession i => answering .session (planRuntimeSession i)
  | .executeRuntimeSession i => answering .session (executeRuntimeSession i)
  | .evaluateRuntimeSession i => answering .session (evaluateRuntimeSession i)
  | .completeRuntimeSession i => answering .session (completeRuntimeSession i)
  | .recoverTimedOutRuntimeSessions i =>
    answering .recovered (some <$> recoverTimedOutRuntimeSessions i)
  | .submitTaskResult i => answering .result (submitTaskResult i)
  | .acceptSubmittedTask i => answering .outcome (acceptSubmittedTask i)
  | .rejectSubmittedTask i => answering .outcome (rejectSubmittedTask i)
  | .disputeTask i => answering .disputed (disputeTask i)
  | .completeTask i => answering .completed (completeTask i)
  | .settleTaskPayment i => answering .settlement (settleTaskPayment i)
  | .requestWalletPayout i => answering .payout (requestWalletPayout i)

/-- The tables of a tenant and the calls in progress. -/
abbrev PersonaPool := Pool Call TenantDb Tx Reply Env PersonaError Answer

abbrev PersonaMove := Move Call Env

/-- One step: a call is made, or one of the calls goes on. -/
def PersonaPool.step : PersonaPool → PersonaMove → PersonaPool := Pool.step start exec

/-- A new tenant. -/
def PersonaPool.init (users : List Id) : PersonaPool := Pool.idle (TenantDb.fresh users)

variable {env : Env} {t : Tx} {db : TenantDb}

theorem exec_of_ok {r : Reply} {db' : TenantDb} (h : t.body env db = .ok (r, db')) :
    exec env t db = (db', r) := by
  rw [exec, h]

theorem exec_of_error {e : PersonaError} (h : t.body env db = .error e) :
    exec env t db = (db, .failed e) := by
  rw [exec, h]

namespace TxM

variable {α β : Type} {m : TxM α} {f : α → TxM β}

/-- A statement that succeeds hands its tables to the next one. -/
theorem bind_of_ok {a : α} {db' : TenantDb} (h : m db = .ok (a, db')) : (m >>= f) db = f a db' := by
  change Except.bind (m db) (fun p => f p.1 p.2) = _
  rw [h]
  rfl

theorem ite_of_pos {c : Prop} [Decidable c] {m' : TxM α} (h : c) :
    (if c then m else m') db = m db := by
  rw [if_pos h]

theorem ite_of_neg {c : Prop} [Decidable c] {m' : TxM α} (h : ¬ c) :
    (if c then m else m') db = m' db := by
  rw [if_neg h]

/-- A statement that fails ends the transaction. -/
theorem bind_of_error {e : PersonaError} (h : m db = .error e) : (m >>= f) db = .error e := by
  change Except.bind (m db) (fun p => f p.1 p.2) = _
  rw [h]
  rfl

/-- A statement that, if it succeeds, leaves the tables as they are. -/
def Idle (m : TxM α) (db : TenantDb) : Prop := ∀ a db', m db = .ok (a, db') → db' = db

theorem Idle.pure {a : α} : (Pure.pure a : TxM α).Idle db := by
  rintro _ _ ⟨⟩
  rfl

theorem Idle.get {f : TenantDb → TxM α} (h : (f db).Idle db) :
    ((MonadState.get : TxM TenantDb) >>= f).Idle db :=
  fun a db' h' => h a db' h'

theorem Idle.throw {e : PersonaError} : ((MonadExcept.throw e : TxM α) >>= f).Idle db :=
  fun _ _ h => nomatch h

theorem Idle.ite {c : Prop} [Decidable c] {m' : TxM α} (h : c → m.Idle db)
    (h' : ¬ c → m'.Idle db) : (if c then m else m').Idle db := by
  split
  next hc => exact h hc
  next hc => exact h' hc

end TxM

/-- A transaction whose body leaves the tables as they are does so whether it commits or not. -/
theorem exec_of_idle (h : (t.body env).Idle db) : (exec env t db).1 = db := by
  rw [exec]
  split
  next r db' hb => exact h r db' hb
  next => rfl

end ChronoSynth.Persona

import ChronoSynth.Lib.Interleave
import ChronoSynth.Persona.Executors

/-!
# The transactions of the persona services

The transactions the calls hand to the database, by the call that opens them and with the values it
has computed from what it read before. What each does stands with its service.
-/

namespace ChronoSynth.Persona

/-- The three shares of a payment, in per cent. -/
structure SettlementSplit where
  ownerPct : ℕ
  personaPct : ℕ
  platformPct : ℕ
  deriving DecidableEq, Repr

structure SettleTaskPaymentInput where
  actorUserId : Id
  taskId : Id
  assignmentId : Id
  totalAmountMinor : ℚ
  currency : String
  split : SettlementSplit
  deriving DecidableEq, Repr

/-- What `acceptSubmittedTask` writes: the rows it has read and the values it has computed. -/
structure TaskAcceptance where
  taskId : Id
  assignmentId : Id
  resultId : Id
  personaId : Id
  qualityScore : ℚ
  clientRating : ℤ
  growthDelta : ℚ
  reputationDelta : ℚ
  deriving DecidableEq, Repr

/-- What `completeTask` writes. -/
structure TaskCompletion where
  taskId : Id
  assignmentId : Id
  personaId : Id
  walletId : Id
  currency : String
  qualityScore : ℚ
  growthDelta : ℚ
  reputationDelta : ℚ
  ownerTrainingHours : ℚ
  payout : ℚ
  payoutMinor : ℤ
  tokenReward : ℚ
  deriving DecidableEq, Repr

/-- What `requestWalletPayout` writes. -/
structure WalletPayout where
  walletId : Id
  amountMinor : ℤ
  currency : String
  ownerUserId : Id
  idempotencyKey : Option String
  deriving DecidableEq, Repr

/-- A transaction, or a statement that commits by itself. -/
inductive Tx
  -- `PersonaCoreService`
  | createPersona (ownerUserId : Id)
  | createFork (personaId : Id)
  | activatePersona (personaId : Id)
  | deactivatePersona (personaId : Id)
  | requestTransfer (personaId fromOwnerUserId toOwnerUserId : Id)
  | approveTransfer (personaId transferId approverUserId : Id)
  | addKnowledge (personaId : Id) (growthDelta reputationDelta : ℚ)
  | addGovernanceEvent (personaId : Id) (reputationDelta growthDelta : ℚ)
      (nextStatus : Option PersonaCoreStatus)
  -- `PersonaGovernanceService`
  | openGovernanceCase (personaId : Id) (taskId : Option Id) (severity : GovernanceCaseSeverity)
  | applyGovernanceAction (caseId personaId : Id) (actionType : GovernanceActionType)
      (durationSeconds : Option ℕ) (actorUserId : Id) (nextStatus : PersonaCoreStatus)
      (reputationDelta : ℚ)
  | appealGovernanceCase (caseId : Id)
  -- `PersonaMarketplaceService`
  | publishTask (publisherUserId : Id) (reward : ℚ) (currency : String)
  | applyToTask (taskId personaId : Id)
  | assignTask (taskId personaId applicationId : Id)
  | acceptTask (taskId personaId : Id) (forkId : Option Id)
  | createRuntimeSession (personaId taskId assignmentId : Id) (timeoutAfterMs : ℕ)
  | planRuntimeSession (sessionId : Id) (timeoutAfterMs : ℕ)
  | executeRuntimeSession (sessionId : Id) (assignmentId : Option Id) (timeoutAfterMs : ℕ)
  | evaluateRuntimeSession (sessionId : Id) (timeoutAfterMs : ℕ)
  | completeRuntimeSession (sessionId : Id)
  | retryRuntimeSession (sessionId : Id) (state expectedState : RuntimeSessionState)
      (timeoutAfterMs : ℕ)
  | timeoutRuntimeSession (sessionId : Id) (expectedState : RuntimeSessionState)
  | submitTaskResult (taskId assignmentId : Id)
  | acceptSubmittedTask (a : TaskAcceptance)
  | rejectSubmittedTask (taskId assignmentId resultId : Id) (applicationId : Option Id)
  | disputeTask (taskId assignmentId : Id) (resultId : Option Id)
  | completeTask (c : TaskCompletion)
  | settleTaskPayment (input : SettleTaskPaymentInput)
  -- `PersonaWalletService`
  | requestWalletPayout (p : WalletPayout)
  deriving DecidableEq, Repr

/-- What the database answers: the transaction has committed, and returned something, or it has
thrown and was rolled back. -/
inductive Reply
  | committed
  | affected (rows : ℕ)
  | inserted (id : Id)
  | settled (settlement : Option TaskWalletSettlement)
  | failed (e : PersonaError)
  deriving DecidableEq, Repr

abbrev ServiceCall := Prog TenantDb Tx Reply Env PersonaError

end ChronoSynth.Persona

import ChronoSynth.Lib.JsText

/-!
# The persona tables

The rows the persona services keep for one tenant. Every statement of these services is bound to a
tenant by `tenant_id = ?`, so the rows of a tenant are a database of their own (`TenantDb`).

Amounts of money are exact: `balance`, `reward` and the like are rationals, amounts in minor units
integers. The rows of a table are numbered as they are inserted, in place of random identifiers.
Texts that no statement reads (titles, descriptions, payloads, memories) are left out.
-/

namespace ChronoSynth.Persona

abbrev Id := ℕ

/-- Milliseconds, as `Date.now()` gives them. -/
abbrev Time := ℕ

/-! ## Enumerations -/

inductive PersonaCoreStatus
  | draft | active | restricted | suspended | dormant | deceased | transferred
  deriving DecidableEq, Repr

/-- The values of the old `status` column. -/
inductive LegacyStatus
  | active | restricted | deceased | transferred
  deriving DecidableEq, Repr

inductive MarketplaceTaskStatus
  | «open» | accepted | completed | cancelled
  deriving DecidableEq, Repr

inductive TaskApplicationStatus
  | submitted | assigned | rejected | withdrawn
  deriving DecidableEq, Repr

inductive TaskAssignmentStatus
  | assigned | in_progress | submitted | accepted | rejected | disputed | completed
  deriving DecidableEq, Repr

inductive TaskResultStatus
  | submitted | accepted | rejected | disputed
  deriving DecidableEq, Repr

inductive RuntimeSessionState
  | PLAN | EXECUTE | EVALUATE | MEMORY_UPDATE | REPUTATION_UPDATE | COMPLETED | FAILED | TIMEOUT
  | ERROR
  deriving DecidableEq, Repr

inductive PersonaTransferStatus
  | pending_review | approved | completed | rejected | cancelled
  deriving DecidableEq, Repr

inductive WalletStatus
  | active | frozen
  deriving DecidableEq, Repr

inductive WalletTransactionType
  | task_payment | platform_fee | owner_payout | persona_reserve | refund
  deriving DecidableEq, Repr

inductive WalletActorType
  | autonomous | human | system
  deriving DecidableEq, Repr

inductive WalletDirection
  | credit | debit
  deriving DecidableEq, Repr

inductive GovernanceCaseSeverity
  | low | medium | high | critical
  deriving DecidableEq, Repr

inductive GovernanceCaseStatus
  | «open» | action_applied | appealed | resolved
  deriving DecidableEq, Repr

inductive GovernanceActionType
  | warning | temporary_restriction | temporary_suspension | reinstate | termination
  deriving DecidableEq, Repr

inductive PersonaGovernanceEventType
  | warning | reward | restriction | review | transfer | death
  deriving DecidableEq, Repr

inductive PersonaGrowthEventType
  | task_completed | training | knowledge_sync | governance
  deriving DecidableEq, Repr

/-! ## Rows -/

/-- `persona_core`. The column `status` is kept for old readers; the services read
`lifecycle_status` as the persona's status. -/
structure PersonaCore where
  id : Id
  ownerUserId : Id
  legacyStatus : LegacyStatus
  status : PersonaCoreStatus
  growthIndex : ℚ
  reputation : ℚ
  trainingInvestment : ℚ
  createdAt : Time
  updatedAt : Time
  deceasedAt : Option Time
  transferredAt : Option Time
  deriving DecidableEq, Repr

/-- `persona_forks`. -/
structure PersonaFork where
  id : Id
  personaId : Id
  deriving DecidableEq, Repr

/-- `persona_wallets`. -/
structure PersonaWallet where
  id : Id
  personaId : Id
  balance : ℚ
  tokenBalance : ℚ
  currency : String
  status : WalletStatus
  lastSettledAt : Option Time
  createdAt : Time
  updatedAt : Time
  deriving DecidableEq, Repr

/-- `marketplace_tasks`. -/
structure MarketplaceTask where
  id : Id
  publisherUserId : Id
  assigneePersonaId : Option Id
  assigneeForkId : Option Id
  reward : ℚ
  currency : String
  status : MarketplaceTaskStatus
  qualityScore : Option ℚ
  growthDelta : Option ℚ
  publishedAt : Time
  acceptedAt : Option Time
  completedAt : Option Time
  updatedAt : Time
  deriving DecidableEq, Repr

/-- `task_applications`. -/
structure TaskApplication where
  id : Id
  taskId : Id
  personaId : Id
  status : TaskApplicationStatus
  createdAt : Time
  updatedAt : Time
  deriving DecidableEq, Repr

/-- `task_assignments`. -/
structure TaskAssignment where
  id : Id
  taskId : Id
  personaId : Id
  applicationId : Option Id
  runtimeSessionId : Option Id
  status : TaskAssignmentStatus
  assignedAt : Time
  startedAt : Option Time
  submittedAt : Option Time
  completedAt : Option Time
  deriving DecidableEq, Repr

/-- `task_results`. -/
structure TaskResult where
  id : Id
  taskId : Id
  assignmentId : Id
  qualityScore : Option ℚ
  clientRating : Option ℤ
  status : TaskResultStatus
  createdAt : Time
  updatedAt : Time
  acceptedAt : Option Time
  rejectedAt : Option Time
  disputedAt : Option Time
  deriving DecidableEq, Repr

/-- `runtime_sessions`. -/
structure RuntimeSession where
  id : Id
  personaId : Id
  taskId : Id
  assignmentId : Option Id
  state : RuntimeSessionState
  retryCount : ℕ
  timeoutAt : Option Time
  createdAt : Time
  updatedAt : Time
  completedAt : Option Time
  deriving DecidableEq, Repr

/-- `wallet_settlements`; the only status is `completed`. -/
structure TaskWalletSettlement where
  id : Id
  walletId : Id
  taskId : Id
  assignmentId : Id
  totalAmountMinor : ℤ
  currency : String
  ownerPct : ℤ
  personaPct : ℤ
  platformPct : ℤ
  ownerAmountMinor : ℤ
  personaAmountMinor : ℤ
  platformAmountMinor : ℤ
  createdAt : Time
  completedAt : Option Time
  deriving DecidableEq, Repr

/-- What a journal row refers to. -/
inductive ReferenceType
  | wallet_settlement | wallet_payout_request
  deriving DecidableEq, Repr

/-- `wallet_transactions`, the journal of the wallets. -/
structure WalletTransaction where
  id : Id
  walletId : Id
  transactionType : WalletTransactionType
  amountMinor : ℤ
  currency : String
  referenceType : Option ReferenceType
  referenceId : Option Id
  createdAt : Time
  deriving DecidableEq, Repr

/-- `wallet_payout_requests`; the only status that is written is `completed`. -/
structure WalletPayoutRequest where
  id : Id
  walletId : Id
  amountMinor : ℤ
  currency : String
  requestedByUserId : Id
  createdAt : Time
  completedAt : Option Time
  idempotencyKey : Option String
  deriving DecidableEq, Repr

/-- `persona_transfers`. -/
structure PersonaTransfer where
  id : Id
  personaId : Id
  fromOwnerUserId : Id
  toOwnerUserId : Id
  status : PersonaTransferStatus
  requestedAt : Time
  approvedAt : Option Time
  completedAt : Option Time
  deriving DecidableEq, Repr

/-- `governance_cases`. -/
structure GovernanceCase where
  id : Id
  personaId : Id
  taskId : Option Id
  severity : GovernanceCaseSeverity
  status : GovernanceCaseStatus
  openedAt : Time
  resolvedAt : Option Time
  appealedAt : Option Time
  deriving DecidableEq, Repr

/-- `governance_actions`. -/
structure GovernanceAction where
  id : Id
  caseId : Id
  actionType : GovernanceActionType
  durationSeconds : Option ℕ
  actorUserId : Id
  createdAt : Time
  deriving DecidableEq, Repr

/-- `persona_growth_events`. -/
structure PersonaGrowthEvent where
  id : Id
  personaId : Id
  taskId : Option Id
  eventType : PersonaGrowthEventType
  growthDelta : ℚ
  reputationDelta : ℚ
  trainingDelta : ℚ
  createdAt : Time
  deriving DecidableEq, Repr

/-- The tables of one tenant. -/
structure TenantDb where
  users : List Id
  personas : List PersonaCore
  forks : List PersonaFork
  wallets : List PersonaWallet
  tasks : List MarketplaceTask
  applications : List TaskApplication
  assignments : List TaskAssignment
  results : List TaskResult
  sessions : List RuntimeSession
  settlements : List TaskWalletSettlement
  walletTransactions : List WalletTransaction
  payoutRequests : List WalletPayoutRequest
  transfers : List PersonaTransfer
  cases : List GovernanceCase
  actions : List GovernanceAction
  growthEvents : List PersonaGrowthEvent
  deriving DecidableEq, Repr

/-- A new tenant: its users, and nothing else. -/
def TenantDb.fresh (users : List Id) : TenantDb where
  users := users
  personas := []
  forks := []
  wallets := []
  tasks := []
  applications := []
  assignments := []
  results := []
  sessions := []
  settlements := []
  walletTransactions := []
  payoutRequests := []
  transfers := []
  cases := []
  actions := []
  growthEvents := []

/-- What is left open about a step of a call: the clock of the process, the clock of the database,
which row an `ORDER BY … LIMIT 1` picks among equals, and when the newest memory of the persona at
hand was written. -/
structure Env where
  now : Time
  dbNow : Time
  tie : ℕ
  memoryAt : Option Time
  deriving DecidableEq, Repr

/-- A moment at which both clocks agree. -/
def Env.ofTime (now : Time) : Env := ⟨now, now, 0, none⟩

/-! ## Numbers -/

/-- `WALLET_CURRENCY`. -/
def WALLET_CURRENCY : String := "CRED"

/-- Clamp to inclusive bounds. -/
def clamp (value lo hi : ℚ) : ℚ := min hi (max lo value)

/-- Round to `digits` decimal places. -/
def round (value : ℚ) (digits : ℕ := 4) : ℚ := mathRound (value * 10 ^ digits) / 10 ^ digits

/-- An amount in minor units. -/
def toMinor (value : ℚ) : ℤ := mathRound (value * 100)

/-- Minor units as an amount. -/
def fromMinor (value : ℤ) : ℚ := round (value / 100) 4

/-- `ROUND(x, digits)` of the database: halves away from zero. -/
def sqlRound (x : ℚ) (digits : ℕ := 0) : ℚ :=
  if 0 ≤ x then ⌊x * 10 ^ digits + 1 / 2⌋ / 10 ^ digits
  else -(⌊-x * 10 ^ digits + 1 / 2⌋ / 10 ^ digits)

theorem round_eq_self {n : ℤ} {d : ℕ} : round (n / 10 ^ d) d = n / 10 ^ d := by
  rw [round, div_mul_cancel₀ _ (by positivity), mathRound_intCast]

@[simp] theorem toMinor_div_hundred (n : ℤ) : toMinor (n / 100) = n := by
  rw [toMinor, div_mul_cancel₀ _ (by norm_num), mathRound_intCast]

@[simp] theorem fromMinor_eq (n : ℤ) : fromMinor n = n / 100 := by
  have h : (n / 100 : ℚ) = ((n * 100 : ℤ) : ℚ) / 10 ^ 4 := by
    push_cast
    ring
  rw [fromMinor, h, round_eq_self]

/-- The database keeps an integer. -/
@[simp] theorem sqlRound_intCast (n : ℤ) : sqlRound n = n := by
  have hfloor : ∀ m : ℤ, ⌊(m : ℚ) + 1 / 2⌋ = m := mathRound_intCast
  rw [sqlRound]
  split_ifs with h
  · simp only [pow_zero, mul_one, div_one, hfloor]
  · have := hfloor (-n)
    push_cast at this
    simp only [pow_zero, mul_one, div_one, this]
    push_cast
    ring

@[simp] theorem sqlRound_div_hundred (n : ℤ) : sqlRound (n / 100) 4 = n / 100 := by
  have hfloor : ∀ m : ℤ, ⌊(m : ℚ) + 1 / 2⌋ = m := mathRound_intCast
  have hmul : (n / 100 : ℚ) * 10 ^ 4 = ((n * 100 : ℤ) : ℚ) := by
    push_cast
    ring
  have hneg : -(n / 100 : ℚ) * 10 ^ 4 = ((-(n * 100) : ℤ) : ℚ) := by
    push_cast
    ring
  rw [sqlRound, hmul, hneg, hfloor, hfloor]
  split_ifs <;> · push_cast; ring

end ChronoSynth.Persona

import ChronoSynth.Persona.Transactions

/-!
# Wallets

`persona-wallet-service.ts` and the rules of the journal from `wallet-ledger.ts`.
-/

namespace ChronoSynth.Persona

/-- The one legal direction of each type of journal row. -/
def WALLET_DIRECTION_MATRIX : WalletTransactionType → WalletDirection
  | .task_payment => .credit
  | .platform_fee => .debit
  | .owner_payout => .debit
  | .persona_reserve => .debit
  | .refund => .debit

def WalletTransactionType.toText : WalletTransactionType → String
  | .task_payment => "task_payment"
  | .platform_fee => "platform_fee"
  | .owner_payout => "owner_payout"
  | .persona_reserve => "persona_reserve"
  | .refund => "refund"

def WalletDirection.toText : WalletDirection → String
  | .credit => "credit"
  | .debit => "debit"

structure WalletMutationIntent where
  actorType : WalletActorType
  direction : WalletDirection
  transactionType : WalletTransactionType
  amountMinor : ℤ

/-- Why a journal row may not be written, if it may not. -/
def assertWalletMutationAllowed (intent : WalletMutationIntent) : Option String :=
  if intent.amountMinor ≤ 0 then
    some "amountMinor must be a positive integer (minor currency unit)"
  else if intent.direction ≠ WALLET_DIRECTION_MATRIX intent.transactionType then
    some ("transactionType '" ++ intent.transactionType.toText ++ "' must be " ++
      (WALLET_DIRECTION_MATRIX intent.transactionType).toText ++ ", got " ++
      intent.direction.toText ++ " (ADR-0048 direction matrix)")
  else if intent.direction = .debit ∧ intent.actorType = .autonomous then
    some ("autonomous actor may not debit the wallet " ++
      "(ADR-0048: earn-only; withdrawal/transfer requires human confirmation)")
  else none

/-- The single place where the journal is written. -/
def insertWalletTransactionInTx (env : Env) (walletId : Id)
    (transactionType : WalletTransactionType) (amountMinor : ℤ) (currency : String)
    (referenceType : ReferenceType) (referenceId : Id) (actorType : WalletActorType := .system) :
    TxM Unit := do
  let direction : WalletDirection := if amountMinor < 0 then .debit else .credit
  match assertWalletMutationAllowed
    { actorType, direction, transactionType, amountMinor := |amountMinor| } with
  | some reason => throw (.ValidationError ("钱包写入被拒: " ++ reason))
  | none =>
    let id ← generateId TenantDb.walletTransactions
    let _ ← insertWalletTransaction
      (.create walletId env.now id transactionType amountMinor currency referenceType referenceId)

def WalletPayout.request (env : Env) (p : WalletPayout) (id : Id) : WalletPayoutRequest :=
  { id, walletId := p.walletId, amountMinor := p.amountMinor, currency := p.currency,
    requestedByUserId := p.ownerUserId, createdAt := env.now, completedAt := some env.now,
    idempotencyKey := p.idempotencyKey }

/-- The transaction of `requestWalletPayout`. -/
def requestWalletPayoutTx (env : Env) (p : WalletPayout) : TxM Reply := do
  let payoutId ← generateId TenantDb.payoutRequests
  let _ ← createWalletPayoutRequest (p.request env payoutId)
  let debited ← debitWalletBalance p.walletId env.now p.amountMinor
  if debited ≠ 1 then throw .INSUFFICIENT
  insertWalletTransactionInTx env p.walletId .owner_payout (-p.amountMinor) p.currency
    .wallet_payout_request payoutId .human
  return .inserted payoutId

structure RequestWalletPayoutInput where
  ownerUserId : Id
  walletId : Id
  amountMinor : ℚ
  idempotencyKey : Option String
  deriving DecidableEq, Repr

/-- A key that is given and not empty. -/
def truthy : Option String → Bool
  | none => false
  | some key => key ≠ ""

def requestWalletPayout (input : RequestWalletPayoutInput) :
    ServiceCall (Option WalletPayoutRequest) := do
  let some wallet ← Prog.query fun db => getWalletByIdForOwner db input.ownerUserId input.walletId
    | return none
  if wallet.status ≠ .active then return none
  let amountMinor := max 0 (mathRound input.amountMinor)
  -- the balance is tested outside the transaction to fail fast
  if amountMinor ≤ 0 ∨ amountMinor > toMinor wallet.balance then return none
  match ← Prog.transaction (.requestWalletPayout
    { walletId := input.walletId, amountMinor, currency := wallet.currency,
      ownerUserId := input.ownerUserId, idempotencyKey := input.idempotencyKey }) with
  | .failed .INSUFFICIENT => return none
  | .failed e =>
    if truthy input.idempotencyKey ∧ e = .UniqueViolation .wallet_payout_idempotency then
      let existing ← Prog.query fun db =>
        findPayoutByIdempotencyKey db (input.idempotencyKey.getD "")
      match existing with
      | some existing =>
        if existing.amountMinor ≠ amountMinor ∨ existing.walletId ≠ input.walletId then
          .throw (.StateError "同一个 Idempotency-Key 不能用于不同请求")
        else return some existing
      | none => .throw e
    else .throw e
  | .inserted payoutId => Prog.query fun db => getWalletPayoutRequestById db payoutId
  | _ => return none

end ChronoSynth.Persona

import ChronoSynth.Lib.Tally
import ChronoSynth.Persona.WalletService

/-!
# Settlement reconciliation

`settlement-reconciliation-service.ts` and its executors: what the journal of a tenant should say about
its settlements is computed from the settlements, compared with what it says, and repaired where the
two differ.

The tables hold the rows of all tenants. The identifiers are numbers; a new row gets one that no row of
its table has, in place of a random identifier.
-/

namespace ChronoSynth.Billing

open Persona (Id Time WalletTransactionType WALLET_DIRECTION_MATRIX)

abbrev TenantId := String

/-- `wallet_settlements`, the columns that are read. -/
structure SettlementRow where
  id : Id
  tenantId : TenantId
  walletId : Id
  totalAmountMinor : ℤ
  currency : String
  personaAmountMinor : ℤ
  platformAmountMinor : ℤ
  createdAt : Time
  deriving DecidableEq, Repr

/-- `wallet_transactions`. -/
structure WalletTransactionRow where
  id : Id
  tenantId : TenantId
  walletId : Id
  transactionType : WalletTransactionType
  amountMinor : ℤ
  currency : String
  referenceType : Option String
  referenceId : Option Id
  createdAt : Time
  deriving DecidableEq, Repr

/-- What a reconciliation reports, also kept in `settlement_reconciliation_runs`. -/
structure SettlementReconciliationRun where
  runId : Id
  tenantId : TenantId
  checkedSettlements : ℕ
  mismatchedSettlements : ℕ
  repairedSettlements : ℕ
  deletedTransactions : ℕ
  insertedTransactions : ℕ
  orphanTransactionsRemoved : ℕ
  mismatchedSettlementIds : List Id
  createdAt : Time
  deriving DecidableEq, Repr

/-- The tables, with their primary keys. -/
structure BillingDb where
  settlements : List SettlementRow
  settlements_key : (settlements.map SettlementRow.id).Nodup
  transactions : List WalletTransactionRow
  transactions_key : (transactions.map WalletTransactionRow.id).Nodup
  runs : List SettlementReconciliationRun

/-- A number none of these is. -/
def freshId (ids : List Id) : Id := ids.foldr max 0 + 1

theorem freshId_notMem (ids : List Id) : freshId ids ∉ ids := by
  have hle : ∀ id ∈ ids, id ≤ ids.foldr max 0 := by
    intro id h
    induction ids with
    | nil => cases h
    | cons i ids ih =>
      rcases List.mem_cons.1 h with rfl | h
      · exact le_max_left _ _
      · exact (ih h).trans (le_max_right _ _)
  exact fun h => (Nat.lt_succ_self _).not_ge (hle _ h)

/-! ## Statements -/

section
variable (db : BillingDb) (tenantId : TenantId)

def getSettlementsByTenant : List SettlementRow :=
  (db.settlements.filter fun s => s.tenantId = tenantId).mergeSort fun s s' =>
    s.createdAt ≤ s'.createdAt

def WalletTransactionRow.RefersTo (r : WalletTransactionRow) (settlementId : Id) : Prop :=
  r.tenantId = tenantId ∧ r.referenceType = some "wallet_settlement" ∧
    r.referenceId = some settlementId

instance (r : WalletTransactionRow) (settlementId : Id) :
    Decidable (r.RefersTo tenantId settlementId) :=
  inferInstanceAs (Decidable (_ ∧ _ ∧ _))

def getTransactionsBySettlement (settlementId : Id) : List WalletTransactionRow :=
  (db.transactions.filter fun r => r.RefersTo tenantId settlementId).mergeSort fun r r' =>
    r.createdAt < r'.createdAt ∨ r.createdAt = r'.createdAt ∧ r.id ≤ r'.id

def BillingDb.deleteTransactions (p : WalletTransactionRow → Prop) [DecidablePred p] : BillingDb :=
  { db with
    transactions := db.transactions.filter fun r => ¬ p r
    transactions_key := db.transactions_key.sublist (List.filter_sublist.map _) }

def deleteSettlementTransactions (settlementId : Id) : BillingDb :=
  db.deleteTransactions fun r => r.RefersTo tenantId settlementId

def insertTransaction (walletId : Id) (transactionType : WalletTransactionType) (amountMinor : ℤ)
    (currency : String) (settlementId : Id) (now : Time) : BillingDb :=
  { db with
    transactions := db.transactions ++
      [{ id := freshId (db.transactions.map WalletTransactionRow.id), tenantId, walletId,
         transactionType, amountMinor, currency, referenceType := some "wallet_settlement",
         referenceId := some settlementId, createdAt := now }]
    transactions_key := by
      rw [List.map_append, List.nodup_append]
      refine ⟨db.transactions_key, List.nodup_singleton _, fun a ha b hb hab => ?_⟩
      obtain rfl := List.mem_singleton.1 hb
      exact freshId_notMem _ (hab ▸ ha) }

/-- The row refers to a settlement the tenant does not have. A reference to `NULL` is in no list that
has an element, and not in one that has none. -/
def WalletTransactionRow.Orphan (r : WalletTransactionRow) : Prop :=
  r.tenantId = tenantId ∧ r.referenceType = some "wallet_settlement" ∧
    match r.referenceId with
    | none => ∀ s ∈ db.settlements, s.tenantId ≠ tenantId
    | some id => ∀ s ∈ db.settlements, s.tenantId = tenantId → s.id ≠ id

instance (r : WalletTransactionRow) : Decidable (r.Orphan db tenantId) := by
  unfold WalletTransactionRow.Orphan
  cases r.referenceId <;> infer_instance

def deleteOrphanTransactions : BillingDb := db.deleteTransactions fun r => r.Orphan db tenantId

end

/-! ## The expected journal -/

def signedAmountForTransaction (transactionType : WalletTransactionType) (magnitude : ℤ) : ℤ :=
  if WALLET_DIRECTION_MATRIX transactionType = .debit then -|magnitude| else |magnitude|

structure ExpectedLedgerEntry where
  transactionType : WalletTransactionType
  amountMinor : ℤ
  currency : String
  deriving DecidableEq, Repr

/-- A share of nothing makes no entry. -/
def buildExpectedLedger (settlement : SettlementRow) : List ExpectedLedgerEntry :=
  let entry transactionType amount : ExpectedLedgerEntry :=
    { transactionType, amountMinor := signedAmountForTransaction transactionType amount,
      currency := settlement.currency }
  [entry .task_payment settlement.totalAmountMinor] ++
    (if 0 < settlement.platformAmountMinor then
      [entry .platform_fee settlement.platformAmountMinor] else []) ++
    (if 0 < settlement.personaAmountMinor then
      [entry .persona_reserve settlement.personaAmountMinor] else [])

def toLedgerKey (entry : ExpectedLedgerEntry) : String :=
  entry.transactionType.toText ++ ":" ++ (toString entry.amountMinor ++ ":" ++ entry.currency)

def countLedgerEntries (entries : List ExpectedLedgerEntry) : AList fun _ : String => ℕ :=
  tally (entries.map toLedgerKey)

def WalletTransactionRow.toEntry (r : WalletTransactionRow) : ExpectedLedgerEntry :=
  { transactionType := r.transactionType, amountMinor := r.amountMinor, currency := r.currency }

def isLedgerConsistent (actual : List WalletTransactionRow) (settlement : SettlementRow) : Bool :=
  let expected := buildExpectedLedger settlement
  if actual.length ≠ expected.length then false
  else
    let actualCounts := countLedgerEntries (actual.map WalletTransactionRow.toEntry)
    let expectedCounts := countLedgerEntries expected
    if actualCounts.keys.length ≠ expectedCounts.keys.length then false
    else expectedCounts.entries.all fun e => actualCounts.lookup e.1 = some e.2

/-! ## The service -/

/-- How far a reconciliation has got. -/
structure Progress where
  db : BillingDb
  mismatchedSettlements : ℕ
  repairedSettlements : ℕ
  deletedTransactions : ℕ
  insertedTransactions : ℕ
  mismatchedSettlementIds : List Id

section
variable (clock : ℕ → Time) (tenantId : TenantId)

/-- The expected entries are inserted; the clock is read for each. -/
def insertExpected (settlement : SettlementRow) (p : Progress) (expected : ExpectedLedgerEntry) :
    Progress :=
  { p with
    db := insertTransaction p.db tenantId settlement.walletId expected.transactionType
      expected.amountMinor expected.currency settlement.id (clock p.insertedTransactions)
    insertedTransactions := p.insertedTransactions + 1 }

/-- The transaction that repairs one settlement: it looks again before it does anything. -/
def repairSettlement (settlement : SettlementRow) (p : Progress) : Progress :=
  let current := getTransactionsBySettlement p.db tenantId settlement.id
  if isLedgerConsistent current settlement then p
  else
    let p := { p with
      db := deleteSettlementTransactions p.db tenantId settlement.id
      deletedTransactions := p.deletedTransactions + current.length }
    let p := (buildExpectedLedger settlement).foldl (insertExpected clock tenantId settlement) p
    { p with repairedSettlements := p.repairedSettlements + 1 }

def reconcileSettlement (p : Progress) (settlement : SettlementRow) : Progress :=
  let actual := getTransactionsBySettlement p.db tenantId settlement.id
  if isLedgerConsistent actual settlement then p
  else
    repairSettlement clock tenantId settlement
      { p with
        mismatchedSettlements := p.mismatchedSettlements + 1
        mismatchedSettlementIds := p.mismatchedSettlementIds ++ [settlement.id] }

def reconcileTenant (now : Time) (db : BillingDb) : BillingDb × SettlementReconciliationRun :=
  let settlements := getSettlementsByTenant db tenantId
  let p := settlements.foldl (reconcileSettlement clock tenantId) ⟨db, 0, 0, 0, 0, []⟩
  let swept := deleteOrphanTransactions p.db tenantId
  let run : SettlementReconciliationRun :=
    { runId := freshId (db.runs.map SettlementReconciliationRun.runId)
      tenantId
      checkedSettlements := settlements.length
      mismatchedSettlements := p.mismatchedSettlements
      repairedSettlements := p.repairedSettlements
      deletedTransactions := p.deletedTransactions
      insertedTransactions := p.insertedTransactions
      orphanTransactionsRemoved := p.db.transactions.countP fun r => r.Orphan p.db tenantId
      mismatchedSettlementIds := p.mismatchedSettlementIds
      createdAt := now }
  ({ swept with runs := swept.runs ++ [run] }, run)

end

end ChronoSynth.Billing

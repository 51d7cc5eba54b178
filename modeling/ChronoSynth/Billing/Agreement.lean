import ChronoSynth.Billing.Reconciliation
import ChronoSynth.Persona.Payments
import ChronoSynth.Persona.WalletLedger

/-!
# The payments and the reconciliation agree

The two transactions that pay a task write its journal themselves; the reconciliation computes it again
from the settlement. The two are to agree whatever is paid (`WritersAgree`): no row of a payment is
refused, each payment writes what `buildExpectedLedger` gives for its settlement, and so a
reconciliation finds nothing wrong after any run.

The tables of one tenant are a slice of those the reconciliation works on (`IsSlice`).
-/

namespace ChronoSynth.Billing

open Persona

variable {env : Env} {t : Tx} {db : TenantDb} {tenantId : TenantId} {s : TaskWalletSettlement}
  {x : WalletTransaction}

/-! ## One tenant among all -/

def referenceText : ReferenceType → String
  | .wallet_settlement => "wallet_settlement"
  | .wallet_payout_request => "wallet_payout_request"

/-- A settlement of the tenant as the reconciliation reads it. -/
def settlementRow (tenantId : TenantId) (s : TaskWalletSettlement) : SettlementRow :=
  { id := s.id, tenantId, walletId := s.walletId, totalAmountMinor := s.totalAmountMinor,
    currency := s.currency, personaAmountMinor := s.personaAmountMinor,
    platformAmountMinor := s.platformAmountMinor, createdAt := s.createdAt }

/-- A row of the journal of the tenant as the reconciliation reads it. -/
def transactionRow (tenantId : TenantId) (x : WalletTransaction) : WalletTransactionRow :=
  { id := x.id, tenantId, walletId := x.walletId, transactionType := x.transactionType,
    amountMinor := x.amountMinor, currency := x.currency,
    referenceType := x.referenceType.map referenceText, referenceId := x.referenceId,
    createdAt := x.createdAt }

/-- The rows of the tenant in the tables of all tenants. -/
def IsSlice (tenantId : TenantId) (all : BillingDb) (db : TenantDb) : Prop :=
  all.settlements.filter (fun s => s.tenantId = tenantId) =
      db.settlements.map (settlementRow tenantId) ∧
    all.transactions.filter (fun r => r.tenantId = tenantId) =
      db.walletTransactions.map (transactionRow tenantId)

/-! ## What is to agree -/

/-- The shares of a settlement are not negative and add up to its total, which is positive. -/
structure SharesAddUp (s : TaskWalletSettlement) : Prop where
  owner : 0 ≤ s.ownerAmountMinor
  persona : 0 ≤ s.personaAmountMinor
  platform : 0 ≤ s.platformAmountMinor
  sum : s.ownerAmountMinor + s.personaAmountMinor + s.platformAmountMinor = s.totalAmountMinor
  total : 0 < s.totalAmountMinor

/-- A transaction that pays writes one settlement and the entries that are expected of it, on its
wallet; no other transaction writes either. -/
def WritesExpected (env : Env) (t : Tx) (db : TenantDb) : Prop :=
  (∃ s rows, (exec env t db).1.settlements = db.settlements ++ [s] ∧
    (exec env t db).1.walletTransactions = db.walletTransactions ++ rows ∧
    (∀ tenantId, rows.map (fun x => (transactionRow tenantId x).toEntry) =
      buildExpectedLedger (settlementRow tenantId s)) ∧
    ∀ x ∈ rows, x.walletId = s.walletId ∧ x.referenceType = some .wallet_settlement ∧
      x.referenceId = some s.id) ∨
  (exec env t db).1.settlements = db.settlements ∧
    (exec env t db).1.walletTransactions.filter (fun x => x.referenceType = some .wallet_settlement) =
      db.walletTransactions.filter fun x => x.referenceType = some .wallet_settlement

/-- The error with which the journal refuses a row. -/
def refusal (reason : String) : PersonaError := .ValidationError ("钱包写入被拒: " ++ reason)

/-- No payment is rolled back because the journal refuses a row. -/
def NotRefused (env : Env) (db : TenantDb) : Tx → Prop
  | .settleTaskPayment input => ∀ reason,
    (exec env (.settleTaskPayment input) db).2 ≠ .failed (refusal reason)
  | .completeTask c => ∀ reason, (exec env (.completeTask c) db).2 ≠ .failed (refusal reason)
  | .acceptSubmittedTask a => ∀ reason,
    (exec env (.acceptSubmittedTask a) db).2 ≠ .failed (refusal reason)
  | _ => True

def ReconciliationIdle (tenantId : TenantId) (all : BillingDb) : Prop :=
  ∀ clock now, (reconcileTenant clock tenantId now all).2.mismatchedSettlements = 0 ∧
    (reconcileTenant clock tenantId now all).2.mismatchedSettlementIds = [] ∧
    (reconcileTenant clock tenantId now all).2.deletedTransactions = 0 ∧
    (reconcileTenant clock tenantId now all).2.insertedTransactions = 0 ∧
    (reconcileTenant clock tenantId now all).2.orphanTransactionsRemoved = 0

/-- The payments of a run write what the reconciliation expects, none is refused, their shares add up,
and a reconciliation has nothing to do at any time. -/
def WritersAgree (users : List Id) (ms : List PersonaMove) : Prop :=
  Along PersonaPool.step (Pool.AtCommit fun env t db => NotRefused env db t ∧ WritesExpected env t db)
      (PersonaPool.init users) ms ∧
    Always PersonaPool.step (fun p => (∀ s ∈ p.db.settlements, SharesAddUp s) ∧
      ∀ tenantId all, IsSlice tenantId all p.db → ReconciliationIdle tenantId all)
      (PersonaPool.init users) ms

/-! ## The writers -/

theorem journal_toEntry (s : TaskWalletSettlement) (n : ℕ) (h : 0 < s.totalAmountMinor) :
    (s.journal env n).map (fun x => (transactionRow tenantId x).toEntry) =
      buildExpectedLedger (settlementRow tenantId s) := by
  have hcredit : signedAmountForTransaction .task_payment s.totalAmountMinor = s.totalAmountMinor :=
    abs_of_pos h
  have hfee : ∀ n : ℤ, 0 < n → signedAmountForTransaction .platform_fee n = -n := fun n hn =>
    congrArg Neg.neg (abs_of_pos hn)
  have hreserve : ∀ n : ℤ, 0 < n → signedAmountForTransaction .persona_reserve n = -n := fun n hn =>
    congrArg Neg.neg (abs_of_pos hn)
  simp only [TaskWalletSettlement.journal, buildExpectedLedger, settlementRow, hcredit]
  by_cases hp : 0 < s.platformAmountMinor
  all_goals by_cases hq : 0 < s.personaAmountMinor
  all_goals simp [hp, hq, hfee, hreserve, transactionRow, WalletTransactionRow.toEntry,
    WalletTransaction.create]

theorem journal_refers (s : TaskWalletSettlement) (n : ℕ) : ∀ x ∈ s.journal env n,
    x.walletId = s.walletId ∧ x.referenceType = some .wallet_settlement ∧
      x.referenceId = some s.id := by
  intro x hx
  simp only [TaskWalletSettlement.journal, List.mem_cons, List.mem_append, List.mem_ite_nil_right,
    List.not_mem_nil, or_false] at hx
  rcases hx with rfl | ⟨-, rfl⟩ | ⟨-, rfl⟩ <;> exact ⟨rfl, rfl, rfl⟩

theorem pays_sharesAddUp {taskId assignmentId : Persona.Id} (hn : db.Numbered)
    (h : t.Pays db taskId assignmentId)
    (hs : (exec env t db).1.settlements = db.settlements ++ [s]) : SharesAddUp s := by
  cases t with
  | completeTask c =>
    obtain ⟨rfl, rfl, hpos, hx, hfree⟩ := h
    have e : exec env (.completeTask c) db = _ :=
      exec_completeTask_completed (hn.tasks.countP_eq_one.2 hx) fun _ => hfree
    rw [e] at hs
    simp only [TaskCompletion.completed, TaskCompletion.settlements, if_pos hpos] at hs
    obtain rfl := List.singleton_inj.1 (List.append_cancel_left hs)
    exact ⟨hpos.le, le_rfl, le_rfl, by simp [TaskCompletion.settlement], hpos⟩
  | settleTaskPayment input =>
    obtain ⟨-, rfl, ⟨task, assignment, wallet, hset, hr⟩, hfree⟩ := h
    have e : exec env (.settleTaskPayment input) db = _ :=
      exec_settle_paid hset (getWalletSettlementByAssignmentId_eq_none.2 hfree) hr
    rw [e] at hs
    obtain rfl := List.singleton_inj.1 (List.append_cancel_left hs)
    have hsplit := hr.split
    obtain ⟨howner, hpersona, hplatform⟩ := computeSettlementSplit_nonneg _
      input.split.platformPct hr.positive.le (Int.natCast_nonneg input.split.ownerPct)
      (Int.natCast_nonneg input.split.personaPct) (by omega)
    exact ⟨howner, hpersona, hplatform,
      computeSettlementSplit_sum _ input.split.platformPct _ _, hr.positive⟩
  | _ => exact h.elim

/-- **Every payment writes what is expected of its settlement**, and nobody else writes a row that
refers to one. -/
theorem exec_writesExpected (env : Env) (t : Tx) (hn : db.Numbered) : WritesExpected env t db := by
  have ew : _ → _ = _ := exec_agree env t db .walletTransactions
  obtain ⟨s, hp, -, hs, hw⟩ | ⟨hno, hs, -⟩ := exec_pays env t hn
  · refine .inl ⟨s, _, hs, hw, fun tenantId => ?_, journal_refers s _⟩
    exact journal_toEntry s _ (pays_sharesAddUp hn hp hs).total
  · refine .inr ⟨hs, ?_⟩
    cases t with
    | completeTask c =>
      obtain ⟨e, -⟩ | ⟨hc, hfree, e⟩ := exec_completeTask_cases env db c
      · rw [e]
      · have hpos : ¬ 0 < c.payoutMinor := fun hpos =>
          hno _ _ ⟨rfl, rfl, hpos, hn.tasks.countP_eq_one.1 hc, hfree hpos⟩
        rw [e]
        simp only [TaskCompletion.completed, TaskCompletion.settlements, if_neg hpos,
          List.flatMap_nil, List.append_nil]
    | settleTaskPayment input =>
      obtain e | ⟨task, assignment, wallet, hset, hfree, hr, -⟩ := exec_settle_cases env db input
      · rw [e]
      · exact (hno _ _ ⟨rfl, rfl, ⟨task, assignment, wallet, hset, hr⟩,
          getWalletSettlementByAssignmentId_eq_none.1 hfree⟩).elim
    | requestWalletPayout p =>
      obtain ⟨e, -⟩ | ⟨-, -, -, e⟩ := exec_payout_cases env db p
      · rw [e]
      · rw [e]
        simp [WalletPayout.paid, WalletTransaction.create]
    | _ => rw [ew (by simp [Tx.writes])]

/-! ## No row is refused -/

section
variable {m m' : TxM Reply} {f : TenantDb → TxM Reply}

/-- What the database answers to a transaction. -/
def reply (m : TxM Reply) (db : TenantDb) : Reply :=
  match m db with
  | .ok (r, _) => r
  | .error e => .failed e

theorem exec_reply : (exec env t db).2 = reply (t.body env) db := by
  rw [exec, reply]
  cases t.body env db <;> rfl

/-- The transaction is not rolled back because the journal refuses a row. -/
def Unrefused (m : TxM Reply) (db : TenantDb) : Prop := ∀ reason, reply m db ≠ .failed (refusal reason)

theorem unrefused_settled {s : Option TaskWalletSettlement} :
    Unrefused (pure (.settled s)) db := nofun

theorem unrefused_get (h : Unrefused (f db) db) :
    Unrefused ((MonadState.get : TxM TenantDb) >>= f) db := h

theorem unrefused_throw {e : PersonaError} {β : Type} {g : β → TxM Reply}
    (h : ∀ reason, e ≠ refusal reason) :
    Unrefused ((MonadExcept.throw e : TxM β) >>= g) db := fun reason he =>
  h reason (Reply.failed.inj he)

theorem unrefused_ite {c : Prop} [Decidable c] (h : c → Unrefused m db)
    (h' : ¬ c → Unrefused m' db) : Unrefused (if c then m else m') db := by
  split
  next hc => exact h hc
  next hc => exact h' hc

end

theorem currency_ne_refusal (text reason : String) :
    PersonaError.ValidationError ("钱包币种不符，禁结算：wallet=" ++ text) ≠ refusal reason := by
  intro h
  have hlist := congrArg String.toList (PersonaError.ValidationError.inj h)
  rw [String.toList_append, String.toList_append] at hlist
  have hthird := congrArg (fun l => l[2]?) hlist
  simp at hthird

theorem settle_unrefused (env : Env) (input : SettleTaskPaymentInput) (db : TenantDb) :
    Unrefused (settleTaskPaymentInTx env input) db := by
  by_cases hpay : ∃ task assignment wallet, Settles db input task assignment wallet ∧
      getWalletSettlementByAssignmentId db input.assignmentId = none ∧ PaysReward input task wallet
  · obtain ⟨task, assignment, wallet, h, hs, hr⟩ := hpay
    intro reason he
    have hpaid : exec env (.settleTaskPayment input) db = _ := exec_settle_paid h hs hr
    have hreply : (exec env (.settleTaskPayment input) db).2 = .failed (refusal reason) :=
      exec_reply.trans he
    rw [hpaid] at hreply
    cases hreply
  refine unrefused_get ?_
  cases htask : getMarketplaceTask db input.taskId with
  | none => exact unrefused_settled
  | some task =>
  refine unrefused_ite (fun _ => unrefused_settled) fun hp => ?_
  rw [not_or, not_not] at hp
  cases hassignment : getTaskAssignmentById db input.assignmentId with
  | none => exact unrefused_settled
  | some assignment =>
  refine unrefused_ite (fun _ => unrefused_settled) fun ha => ?_
  rw [not_or, not_not, not_not] at ha
  cases hwallet : getWalletByPersonaId db assignment.personaId with
  | none => exact unrefused_settled
  | some wallet =>
  refine unrefused_ite (fun _ => unrefused_settled) fun hactive => ?_
  have h : Settles db input task assignment wallet :=
    ⟨htask, hp.1, hassignment, ha.1, ha.2.symm, hwallet, not_not.1 hactive⟩
  cases hs : getWalletSettlementByAssignmentId db input.assignmentId with
  | some s => exact unrefused_settled
  | none =>
  refine unrefused_ite (fun _ => unrefused_throw fun reason => ?_) fun hcurrency => ?_
  · rw [String.append_assoc, String.append_assoc]
    exact currency_ne_refusal _ reason
  refine unrefused_ite (fun _ => unrefused_settled) fun hpos => ?_
  refine unrefused_ite (fun _ => unrefused_settled) fun hreward => ?_
  refine unrefused_ite (fun _ => unrefused_settled) fun hsplit => ?_
  exact (hpay ⟨task, assignment, wallet, h, hs,
    ⟨not_not.1 hcurrency, not_le.1 hpos, not_not.1 hreward, not_not.1 hsplit⟩⟩).elim

theorem exec_notRefused (env : Env) (db : TenantDb) (t : Tx) : NotRefused env db t := by
  cases t with
  | settleTaskPayment input =>
    intro reason
    rw [exec_reply]
    exact settle_unrefused env input db reason
  | completeTask c =>
    intro reason he
    by_cases h : db.tasks.countP (fun t => t.id = c.taskId ∧ t.status = .accepted) = 1
    · by_cases hs : 0 < c.payoutMinor → ¬ ∃ s ∈ db.settlements, s.assignmentId = c.assignmentId
      · rw [exec_completeTask_completed h hs] at he
        cases he
      · rw [Classical.not_imp, not_not] at hs
        rw [exec_completeTask_settled env h hs.1 hs.2] at he
        cases he
    · rw [exec_completeTask_lost env h] at he
      cases he
  | acceptSubmittedTask a =>
    intro reason he
    rw [exec_acceptSubmittedTask] at he
    split at he <;> cases he
  | _ => trivial

/-! ## The journal between payments -/

def ReferredTo (x : WalletTransaction) (settlementId : Persona.Id) : Prop :=
  x.referenceType = some .wallet_settlement ∧ x.referenceId = some settlementId

instance (x : WalletTransaction) (settlementId : Persona.Id) : Decidable (ReferredTo x settlementId) :=
  inferInstanceAs (Decidable (_ ∧ _))

def rowsOf (db : TenantDb) (s : TaskWalletSettlement) : List WalletTransaction :=
  db.walletTransactions.filter fun x => ReferredTo x s.id

/-- The journal has what is expected of each settlement and nothing that refers to another. -/
structure Booked (db : TenantDb) : Prop where
  expected : ∀ s ∈ db.settlements, (∀ x ∈ rowsOf db s, x.walletId = s.walletId) ∧
    ∀ tenantId, (rowsOf db s).map (fun x => (transactionRow tenantId x).toEntry) =
      buildExpectedLedger (settlementRow tenantId s)
  known : ∀ x ∈ db.walletTransactions, x.referenceType = some .wallet_settlement →
    ∃ s ∈ db.settlements, x.referenceId = some s.id
  shares : ∀ s ∈ db.settlements, SharesAddUp s

theorem rowsOf_congr {db' : TenantDb} (h : db'.walletTransactions.filter (fun x =>
      x.referenceType = some .wallet_settlement) =
    db.walletTransactions.filter fun x => x.referenceType = some .wallet_settlement) :
    rowsOf db' s = rowsOf db s := by
  have hfilter : ∀ db : TenantDb, rowsOf db s =
      (db.walletTransactions.filter fun x => x.referenceType = some .wallet_settlement).filter
        fun x => x.referenceId = some s.id := by
    intro db
    rw [List.filter_filter]
    refine List.filter_congr fun x _ => ?_
    simp [ReferredTo, and_comm]
  rw [hfilter, hfilter, h]

theorem rowsOf_append {db' : TenantDb} {rows : List WalletTransaction}
    (h : db'.walletTransactions = db.walletTransactions ++ rows) :
    rowsOf db' s = rowsOf db s ++ rows.filter fun x => ReferredTo x s.id := by
  rw [rowsOf, h, List.filter_append, rowsOf]

theorem Booked.congr {db' : TenantDb} (h : Booked db) (hs : db'.settlements = db.settlements)
    (hw : db'.walletTransactions.filter (fun x => x.referenceType = some .wallet_settlement) =
      db.walletTransactions.filter fun x => x.referenceType = some .wallet_settlement) :
    Booked db' := by
  refine ⟨fun s hs' => ?_, fun x hx ht => ?_, fun s hs' => ?_⟩
  · rw [rowsOf_congr hw]
    exact h.expected s (hs ▸ hs')
  · have hx' : x ∈ db'.walletTransactions.filter
        fun x => x.referenceType = some .wallet_settlement :=
      List.mem_filter.2 ⟨hx, decide_eq_true ht⟩
    rw [hw] at hx'
    rw [hs]
    exact h.known x (List.mem_filter.1 hx').1 ht
  · exact h.shares s (hs ▸ hs')

theorem Booked.pays {db' : TenantDb} {rows : List WalletTransaction} (h : Booked db)
    (hs : db'.settlements = db.settlements ++ [s])
    (hw : db'.walletTransactions = db.walletTransactions ++ rows)
    (hfresh : ∀ s' ∈ db.settlements, s'.id ≠ s.id) (hshares : SharesAddUp s)
    (hexpected : ∀ tenantId, rows.map (fun x => (transactionRow tenantId x).toEntry) =
      buildExpectedLedger (settlementRow tenantId s))
    (hrefers : ∀ x ∈ rows, x.walletId = s.walletId ∧ x.referenceType = some .wallet_settlement ∧
      x.referenceId = some s.id) : Booked db' := by
  refine ⟨fun s' hs' => ?_, fun x hx ht => ?_, fun s' hs' => ?_⟩
  · rw [hs] at hs'
    rcases List.mem_append.1 hs' with hs' | hs'
    · -- an earlier settlement: the new rows refer to the new one
      have hnil : rows.filter (fun x => ReferredTo x s'.id) = [] := by
        refine List.filter_eq_nil_iff.2 fun x hx hr => ?_
        have hr' : ReferredTo x s'.id := of_decide_eq_true hr
        have he := (hrefers x hx).2.2.symm.trans hr'.2
        exact hfresh s' hs' (Option.some.inj he).symm
      rw [rowsOf_append hw, hnil, List.append_nil]
      exact h.expected s' hs'
    · obtain rfl := List.mem_singleton.1 hs'
      have hnil : rowsOf db s' = [] := by
        refine List.filter_eq_nil_iff.2 fun x hx hr => ?_
        have hr' : ReferredTo x s'.id := of_decide_eq_true hr
        obtain ⟨s'', hs'', hx'⟩ := h.known x hx hr'.1
        exact hfresh s'' hs'' (Option.some.inj (hx'.symm.trans hr'.2))
      have hall : rows.filter (fun x => ReferredTo x s'.id) = rows :=
        List.filter_eq_self.2 fun x hx => decide_eq_true (hrefers x hx).2
      rw [rowsOf_append hw, hnil, hall, List.nil_append]
      exact ⟨fun x hx => (hrefers x hx).1, hexpected⟩
  · rw [hw] at hx
    rw [hs]
    rcases List.mem_append.1 hx with hx | hx
    · obtain ⟨s', hs', he⟩ := h.known x hx ht
      exact ⟨s', List.mem_append_left _ hs', he⟩
    · exact ⟨s, List.mem_append_right _ (List.mem_singleton_self s), (hrefers x hx).2.2⟩
  · rw [hs] at hs'
    rcases List.mem_append.1 hs' with hs' | hs'
    · exact h.shares s' hs'
    · rwa [List.mem_singleton.1 hs']

/-- **Step lemma.** -/
theorem Booked.step (h : Booked db) (hn : db.Numbered) : Booked (exec env t db).1 := by
  obtain ⟨s, hp, hid, hs, hw⟩ | ⟨-, hs, -⟩ := exec_pays env t hn
  · have hshares := pays_sharesAddUp hn hp hs
    refine h.pays hs hw (fun s' hs' he => ?_) hshares (fun tenantId => ?_) (journal_refers s _)
    · exact (hn.settlements.lt hs').ne (he.trans hid)
    · exact journal_toEntry s _ hshares.total
  · obtain ⟨s, -, hs', -⟩ | ⟨-, hw⟩ := exec_writesExpected env t hn
    · rw [hs] at hs'
      exact absurd (congrArg List.length hs') (by simp)
    · exact h.congr hs hw

/-! ## What a reconciliation finds -/

theorem referenceText_eq {r : Option ReferenceType} :
    r.map referenceText = some "wallet_settlement" ↔ r = some .wallet_settlement := by
  rcases r with - | - | - <;> decide

theorem transactionRow_refersTo :
    (transactionRow tenantId x).RefersTo tenantId s.id ↔ ReferredTo x s.id := by
  rw [WalletTransactionRow.RefersTo, ReferredTo]
  simp only [transactionRow, referenceText_eq, true_and]

theorem IsSlice.ledger {all : BillingDb} (h : IsSlice tenantId all db) :
    ledger all tenantId s.id = (rowsOf db s).map (transactionRow tenantId) := by
  have hrows : Billing.ledger all tenantId s.id =
      (all.transactions.filter fun r => r.tenantId = tenantId).filter
        fun r => r.RefersTo tenantId s.id := by
    rw [Billing.ledger, List.filter_filter]
    refine List.filter_congr fun r _ => ?_
    by_cases hr : r.RefersTo tenantId s.id
    · simp [hr, hr.1]
    · simp [hr]
  rw [hrows, h.2, List.filter_map, rowsOf]
  refine congrArg _ (List.filter_congr fun x _ => ?_)
  exact decide_eq_decide.2 transactionRow_refersTo

theorem Booked.idle {all : BillingDb} (h : Booked db) (hslice : IsSlice tenantId all db) :
    ReconciliationIdle tenantId all := by
  have hledgers : ∀ s ∈ getSettlementsByTenant all tenantId,
      isLedgerConsistent (Billing.ledger all tenantId s.id) s := by
    intro r hr
    obtain ⟨hmem, ht⟩ := mem_getSettlementsByTenant.1 hr
    have hrow : r ∈ db.settlements.map (settlementRow tenantId) := by
      rw [← hslice.1]
      exact List.mem_filter.2 ⟨hmem, decide_eq_true ht⟩
    obtain ⟨s, hs, rfl⟩ := List.mem_map.1 hrow
    have hledger : Billing.ledger all tenantId (settlementRow tenantId s).id = _ :=
      hslice.ledger
    rw [hledger, isLedgerConsistent_iff, List.map_map]
    exact .of_eq ((h.expected s hs).2 tenantId)
  have horphans : ∀ r ∈ all.transactions, ¬ r.Orphan all tenantId := by
    rintro r hr ⟨ht, htype, hnone⟩
    have hrow : r ∈ db.walletTransactions.map (transactionRow tenantId) := by
      rw [← hslice.2]
      exact List.mem_filter.2 ⟨hr, decide_eq_true ht⟩
    obtain ⟨x, hx, rfl⟩ := List.mem_map.1 hrow
    obtain ⟨s, hs, hid⟩ := h.known x hx (referenceText_eq.1 htype)
    have hsettled : settlementRow tenantId s ∈
        all.settlements.filter fun s => s.tenantId = tenantId := by
      rw [hslice.1]
      exact List.mem_map_of_mem hs
    have hreference : (transactionRow tenantId x).referenceId = some s.id := hid
    rw [hreference] at hnone
    exact hnone _ (List.mem_filter.1 hsettled).1 rfl rfl
  intro clock now
  have hp := reconcile_foldl_idle clock ⟨all, 0, 0, 0, 0, []⟩ hledgers
  obtain ⟨-, hdeleted, hinserted, hremoved⟩ :=
    reconcileTenant_idle clock now hledgers horphans
  refine ⟨?_, ?_, hdeleted, hinserted, hremoved⟩
  · rw [reconcileTenant, hp]
  · rw [reconcileTenant, hp]

end ChronoSynth.Billing

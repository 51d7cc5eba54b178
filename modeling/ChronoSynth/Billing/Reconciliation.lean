import ChronoSynth.Billing.Settlements

/-!
# What reconciliation repairs

After a reconciliation the journal of the tenant is to say what its settlements say, on their wallets,
and nothing else is to have changed (`Reconciles`).

A ledger is compared entry by entry, but an entry does not tell its wallet
(`WalletTransactionRow.toEntry`): a ledger with the right entries on a wrong wallet passes, and
reconciliation repairs everything exactly if there is none (`reconciles_iff`).
-/

namespace ChronoSynth.Billing

open Persona (Id Time WalletTransactionType)

variable {db db' : BillingDb} {tenantId : TenantId} {clock clock' : ℕ → Time} {now now' : Time}
  {settlement s : SettlementRow} {k : Id} {r : WalletTransactionRow}
  {rows rows' : List WalletTransactionRow}

def ledger (db : BillingDb) (tenantId : TenantId) (settlementId : Id) : List WalletTransactionRow :=
  db.transactions.filter fun r => r.RefersTo tenantId settlementId

def WalletTransactionRow.posting (r : WalletTransactionRow) : Id × ExpectedLedgerEntry :=
  (r.walletId, r.toEntry)

/-- The entries a settlement is to have, on its wallet. -/
def expectedPostings (settlement : SettlementRow) : List (Id × ExpectedLedgerEntry) :=
  (buildExpectedLedger settlement).map fun e => (settlement.walletId, e)

def WalletTransactionRow.Refers (r : WalletTransactionRow) : Prop :=
  r.referenceType = some "wallet_settlement" ∧ r.referenceId ≠ none

instance : DecidablePred WalletTransactionRow.Refers :=
  fun _ => inferInstanceAs (Decidable (_ ∧ _))

/-- A reconciliation of the tenant repairs its journal completely, leaves the rest alone, and leaves
nothing to be done for the next one. -/
structure Reconciles (clock clock' : ℕ → Time) (tenantId : TenantId) (now now' : Time)
    (db : BillingDb) : Prop where
  repaired : ∀ s ∈ db.settlements, s.tenantId = tenantId →
    ((ledger (reconcileTenant clock tenantId now db).1 tenantId s.id).map
      WalletTransactionRow.posting).Perm (expectedPostings s)
  referenced : ∀ r ∈ (reconcileTenant clock tenantId now db).1.transactions, ∀ k,
    r.RefersTo tenantId k → ∃ s ∈ db.settlements, s.tenantId = tenantId ∧ s.id = k
  untouched : (reconcileTenant clock tenantId now db).1.transactions.filter
      (fun r => r.tenantId ≠ tenantId ∨ ¬ r.Refers) =
    db.transactions.filter fun r => r.tenantId ≠ tenantId ∨ ¬ r.Refers
  settlements : (reconcileTenant clock tenantId now db).1.settlements = db.settlements
  idle : let first := (reconcileTenant clock tenantId now db).1
    let second := reconcileTenant clock' tenantId now' first
    second.1.transactions = first.transactions ∧ second.2.deletedTransactions = 0 ∧
      second.2.insertedTransactions = 0 ∧ second.2.orphanTransactionsRemoved = 0

/-! ## The comparison -/

theorem colon_notMem_toText (t : WalletTransactionType) : ':' ∉ t.toText.toList := by
  cases t <;> decide

theorem toText_inj {t t' : WalletTransactionType} : t.toText = t'.toText ↔ t = t' := by
  cases t <;> cases t' <;> decide

theorem toLedgerKey_injective : Function.Injective toLedgerKey := by
  rintro ⟨t, n, c⟩ ⟨t', n', c'⟩ h
  obtain ⟨ht, h⟩ := (append_colon_inj (colon_notMem_toText t) (colon_notMem_toText t')).1 h
  obtain ⟨hn, hc⟩ := (append_colon_inj (colon_notMem_toString n) (colon_notMem_toString n')).1 h
  cases toText_inj.1 ht
  cases toString_int_injective hn
  cases hc
  rfl

theorem isLedgerConsistent_iff : isLedgerConsistent rows settlement ↔
    (rows.map WalletTransactionRow.toEntry).Perm (buildExpectedLedger settlement) := by
  have hkeys : (countLedgerEntries (rows.map WalletTransactionRow.toEntry)).keys.length =
        (countLedgerEntries (buildExpectedLedger settlement)).keys.length ∧
      (∀ e ∈ (countLedgerEntries (buildExpectedLedger settlement)).entries,
        (countLedgerEntries (rows.map WalletTransactionRow.toEntry)).lookup e.1 = some e.2) ↔
      (rows.map WalletTransactionRow.toEntry).Perm (buildExpectedLedger settlement) := by
    rw [← List.map_perm_map_iff toLedgerKey_injective]
    exact tallies_agree_iff
  rw [isLedgerConsistent, ← hkeys]
  by_cases hlen : rows.length = (buildExpectedLedger settlement).length
  · rw [if_neg (not_not.2 hlen)]
    dsimp only
    split
    next hsize => exact iff_of_false nofun fun h => hsize h.1
    next hsize =>
      rw [List.all_eq_true]
      simp only [decide_eq_true_eq]
      exact ⟨fun h => ⟨not_not.1 hsize, h⟩, And.right⟩
  · rw [if_pos hlen]
    refine iff_of_false nofun fun h => hlen ?_
    simpa using (hkeys.1 h).length_eq

theorem isLedgerConsistent_perm (h : rows.Perm rows') :
    isLedgerConsistent rows settlement = isLedgerConsistent rows' settlement := by
  rw [Bool.eq_iff_iff, isLedgerConsistent_iff, isLedgerConsistent_iff]
  exact ⟨(h.map _).symm.trans, (h.map _).trans⟩

theorem getTransactionsBySettlement_perm :
    (getTransactionsBySettlement db tenantId k).Perm (ledger db tenantId k) :=
  List.mergeSort_perm _ _

/-! ## One settlement -/

/-- What the repair of one settlement does to the journal: the rows of the settlement go, the expected
ones come, and no other row changes. -/
structure Repairs (tenantId : TenantId) (settlement : SettlementRow) (db db' : BillingDb) : Prop where
  settlements : db'.settlements = db.settlements
  repaired : (ledger db' tenantId settlement.id).map WalletTransactionRow.posting =
    expectedPostings settlement
  others : ∀ (p : WalletTransactionRow → Prop) [DecidablePred p],
    (∀ r, p r → ¬ r.RefersTo tenantId settlement.id) →
      db'.transactions.filter (fun r => p r) = db.transactions.filter fun r => p r

theorem insertExpected_foldl (clock : ℕ → Time) (tenantId : TenantId) (settlement : SettlementRow)
    (p : Progress) (entries : List ExpectedLedgerEntry) :
    ∃ rows, (entries.foldl (insertExpected clock tenantId settlement) p).db.transactions =
        p.db.transactions ++ rows ∧
      (entries.foldl (insertExpected clock tenantId settlement) p).db.settlements =
        p.db.settlements ∧
      rows.map WalletTransactionRow.posting = entries.map (fun e => (settlement.walletId, e)) ∧
      ∀ r ∈ rows, r.RefersTo tenantId settlement.id := by
  induction entries generalizing p with
  | nil => exact ⟨[], by simp, rfl, rfl, nofun⟩
  | cons e entries ih =>
    obtain ⟨rows, htx, hset, hpost, hrefs⟩ := ih (insertExpected clock tenantId settlement p e)
    obtain ⟨row, hrow, hposting, hrefers⟩ : ∃ row,
        (insertExpected clock tenantId settlement p e).db.transactions = p.db.transactions ++ [row] ∧
        row.posting = (settlement.walletId, e) ∧ row.RefersTo tenantId settlement.id :=
      ⟨_, rfl, rfl, rfl, rfl, rfl⟩
    refine ⟨row :: rows, ?_, hset, ?_, fun r hr => ?_⟩
    · rw [List.foldl_cons, htx, hrow, List.append_assoc, List.singleton_append]
    · rw [List.map_cons, List.map_cons, hpost, hposting]
    · rcases List.mem_cons.1 hr with rfl | hr
      · exact hrefers
      · exact hrefs r hr

theorem WalletTransactionRow.RefersTo.unique {k k' : Id} (h : r.RefersTo tenantId k)
    (h' : r.RefersTo tenantId k') : k = k' :=
  Option.some.inj (h.2.2.symm.trans h'.2.2)

theorem repairSettlement_repairs (p : Progress)
    (h : ¬ isLedgerConsistent (ledger p.db tenantId settlement.id) settlement) :
    Repairs tenantId settlement p.db (repairSettlement clock tenantId settlement p).db := by
  rw [← isLedgerConsistent_perm getTransactionsBySettlement_perm] at h
  rw [repairSettlement, if_neg h]
  set deleted : Progress := { p with
    db := deleteSettlementTransactions p.db tenantId settlement.id
    deletedTransactions := p.deletedTransactions +
      (getTransactionsBySettlement p.db tenantId settlement.id).length }
  obtain ⟨rows, htx, hset, hpost, hrefs⟩ := insertExpected_foldl clock tenantId settlement deleted
    (buildExpectedLedger settlement)
  have hdeleted : deleted.db.transactions =
      p.db.transactions.filter fun r => ¬ r.RefersTo tenantId settlement.id := rfl
  refine ⟨hset, ?_, fun q _ hq => ?_⟩
  · -- nothing of the old ledger is left, and all that was inserted belongs to it
    rw [ledger, htx, List.filter_append, hdeleted, List.filter_filter,
      List.filter_eq_nil_iff.2 (by simp), List.nil_append,
      List.filter_eq_self.2 fun r hr => decide_eq_true (hrefs r hr), hpost]
    rfl
  · rw [htx, List.filter_append, hdeleted, List.filter_filter,
      List.filter_eq_nil_iff.2 fun r hr h => hq r (of_decide_eq_true h) (hrefs r hr),
      List.append_nil]
    refine List.filter_congr fun r _ => ?_
    by_cases hqr : q r
    · simp [hqr, hq r hqr]
    · simp [hqr]

theorem reconcileSettlement_cases (clock : ℕ → Time) (tenantId : TenantId)
    (settlement : SettlementRow) (p : Progress) :
    isLedgerConsistent (ledger p.db tenantId settlement.id) settlement ∧
      reconcileSettlement clock tenantId p settlement = p ∨
    ¬ isLedgerConsistent (ledger p.db tenantId settlement.id) settlement ∧
      Repairs tenantId settlement p.db (reconcileSettlement clock tenantId p settlement).db := by
  by_cases h : isLedgerConsistent (ledger p.db tenantId settlement.id) settlement
  · refine .inl ⟨h, ?_⟩
    rw [← isLedgerConsistent_perm getTransactionsBySettlement_perm] at h
    rw [reconcileSettlement, if_pos h]
  · refine .inr ⟨h, ?_⟩
    have hnot := h
    rw [← isLedgerConsistent_perm getTransactionsBySettlement_perm] at hnot
    rw [reconcileSettlement, if_neg hnot]
    exact repairSettlement_repairs
      { p with
        mismatchedSettlements := p.mismatchedSettlements + 1
        mismatchedSettlementIds := p.mismatchedSettlementIds ++ [settlement.id] } h

/-! ## All settlements -/

/-- What a settlement's ledger becomes: it stays if it is consistent, and has the expected entries
otherwise. -/
def LedgerRepaired (settlement : SettlementRow) (rows rows' : List WalletTransactionRow) : Prop :=
  if isLedgerConsistent rows settlement then rows' = rows
  else rows'.map WalletTransactionRow.posting = expectedPostings settlement

/-- **Loop lemma**: every ledger of the list is repaired, and no other row changes. -/
theorem reconcile_foldl (clock : ℕ → Time) (tenantId : TenantId) {settlements : List SettlementRow}
    (hkey : (settlements.map SettlementRow.id).Nodup) (p : Progress) :
    (settlements.foldl (reconcileSettlement clock tenantId) p).db.settlements =
      p.db.settlements ∧
    (∀ s ∈ settlements, LedgerRepaired s (ledger p.db tenantId s.id)
      (ledger (settlements.foldl (reconcileSettlement clock tenantId) p).db tenantId s.id)) ∧
    ∀ (q : WalletTransactionRow → Prop) [DecidablePred q],
      (∀ r, q r → ∀ s ∈ settlements, ¬ r.RefersTo tenantId s.id) →
        (settlements.foldl (reconcileSettlement clock tenantId) p).db.transactions.filter
          (fun r => q r) = p.db.transactions.filter fun r => q r := by
  induction settlements generalizing p with
  | nil => exact ⟨rfl, nofun, fun _ _ _ => rfl⟩
  | cons settlement settlements ih =>
    obtain ⟨hnot, hkey⟩ := List.nodup_cons.1 hkey
    obtain ⟨hset, hrepaired, hothers⟩ :=
      ih hkey (reconcileSettlement clock tenantId p settlement)
    have hne : ∀ s ∈ settlements, s.id ≠ settlement.id := fun s hs he =>
      hnot (List.mem_map.2 ⟨s, hs, he⟩)
    -- the settlements that follow leave the ledger of this one alone
    have hself := hothers (fun r => r.RefersTo tenantId settlement.id)
      fun r hr s hs hr' => hne s hs (hr'.unique hr)
    obtain ⟨hc, hsame⟩ | ⟨hc, hrep⟩ := reconcileSettlement_cases clock tenantId settlement p
    · rw [hsame] at hset hrepaired hothers hself
      rw [List.foldl_cons, hsame]
      refine ⟨hset, fun s hs => ?_, fun q _ hq => ?_⟩
      · rcases List.mem_cons.1 hs with rfl | hs
        · rw [LedgerRepaired, if_pos hc]
          exact hself
        · exact hrepaired s hs
      · exact hothers q fun r hr s hs => hq r hr s (List.mem_cons_of_mem _ hs)
    · rw [List.foldl_cons]
      refine ⟨hset.trans hrep.settlements, fun s hs => ?_, fun q _ hq => ?_⟩
      · rcases List.mem_cons.1 hs with rfl | hs
        · rw [LedgerRepaired, if_neg hc, ledger, hself]
          exact hrep.repaired
        · have hother : ledger (reconcileSettlement clock tenantId p settlement).db tenantId s.id =
              ledger p.db tenantId s.id :=
            hrep.others _ fun r hr hr' => hne s hs (hr.unique hr')
          rw [← hother]
          exact hrepaired s hs
      · rw [hothers q fun r hr s hs => hq r hr s (List.mem_cons_of_mem _ hs)]
        exact hrep.others q fun r hr => hq r hr settlement List.mem_cons_self

theorem reconcile_foldl_idle (clock : ℕ → Time) {settlements : List SettlementRow} (p : Progress)
    (h : ∀ s ∈ settlements, isLedgerConsistent (ledger p.db tenantId s.id) s) :
    settlements.foldl (reconcileSettlement clock tenantId) p = p := by
  induction settlements with
  | nil => rfl
  | cons settlement settlements ih =>
    have hhead := h settlement List.mem_cons_self
    obtain ⟨-, hsame⟩ | ⟨hc, -⟩ := reconcileSettlement_cases clock tenantId settlement p
    · rw [List.foldl_cons, hsame]
      exact ih fun s hs => h s (List.mem_cons_of_mem _ hs)
    · exact (hc hhead).elim

/-! ## The tenant -/

theorem mem_getSettlementsByTenant :
    s ∈ getSettlementsByTenant db tenantId ↔ s ∈ db.settlements ∧ s.tenantId = tenantId := by
  rw [getSettlementsByTenant, List.mem_mergeSort, List.mem_filter, decide_eq_true_eq]

theorem getSettlementsByTenant_key :
    ((getSettlementsByTenant db tenantId).map SettlementRow.id).Nodup := by
  have hperm := (List.mergeSort_perm (db.settlements.filter fun s => s.tenantId = tenantId)
    fun s s' => s.createdAt ≤ s'.createdAt).map SettlementRow.id
  exact hperm.nodup_iff.2 (db.settlements_key.sublist (List.filter_sublist.map _))

theorem orphan_congr (h : db'.settlements = db.settlements) :
    r.Orphan db' tenantId ↔ r.Orphan db tenantId := by
  rw [WalletTransactionRow.Orphan, WalletTransactionRow.Orphan, h]

/-- What a reconciliation does to the journal: each ledger of the tenant is repaired, and what is left of
the other rows are those that are no orphans. -/
theorem reconcileTenant_spec (clock : ℕ → Time) (tenantId : TenantId) (now : Time) (db : BillingDb) :
    (reconcileTenant clock tenantId now db).1.settlements = db.settlements ∧
    (∀ s ∈ getSettlementsByTenant db tenantId, LedgerRepaired s (ledger db tenantId s.id)
      (ledger (reconcileTenant clock tenantId now db).1 tenantId s.id)) ∧
    (∀ r ∈ (reconcileTenant clock tenantId now db).1.transactions, ¬ r.Orphan db tenantId) ∧
    ∀ (q : WalletTransactionRow → Prop) [DecidablePred q],
      (∀ r, q r → ∀ s ∈ getSettlementsByTenant db tenantId, ¬ r.RefersTo tenantId s.id) →
        (reconcileTenant clock tenantId now db).1.transactions.filter (fun r => q r) =
          db.transactions.filter fun r => q r ∧ ¬ r.Orphan db tenantId := by
  obtain ⟨hset, hrepaired, hothers⟩ := reconcile_foldl clock tenantId getSettlementsByTenant_key
    ⟨db, 0, 0, 0, 0, []⟩
  generalize hp : (getSettlementsByTenant db tenantId).foldl (reconcileSettlement clock tenantId)
    ⟨db, 0, 0, 0, 0, []⟩ = p at hset hrepaired hothers
  have hfirst : (reconcileTenant clock tenantId now db).1.transactions =
      p.db.transactions.filter fun r => ¬ r.Orphan db tenantId := by
    rw [reconcileTenant, hp]
    exact List.filter_congr fun r _ => by simp only [orphan_congr hset]
  refine ⟨?_, fun s hs => ?_, fun r hr => ?_, fun q _ hq => ?_⟩
  · rw [reconcileTenant, hp]
    exact hset
  · -- the rows of a settlement that is there are no orphans
    have hsame : ledger (reconcileTenant clock tenantId now db).1 tenantId s.id =
        ledger p.db tenantId s.id := by
      rw [ledger, hfirst, List.filter_filter]
      refine List.filter_congr fun r _ => ?_
      by_cases hr : r.RefersTo tenantId s.id
      · have hno : ¬ r.Orphan db tenantId := by
          rintro ⟨-, -, h⟩
          rw [hr.2.2] at h
          exact h s (mem_getSettlementsByTenant.1 hs).1 (mem_getSettlementsByTenant.1 hs).2 rfl
        simp [hr, hno]
      · simp [hr]
    rw [hsame]
    exact hrepaired s hs
  · rw [hfirst] at hr
    simpa using (List.mem_filter.1 hr).2
  · have hkept := hothers (fun r => q r ∧ ¬ r.Orphan db tenantId) fun r hr => hq r hr.1
    rw [hfirst, List.filter_filter, ← hkept]
    exact List.filter_congr fun r _ => (Bool.decide_and _ _).symm

/-- Every ledger of the tenant that passes the comparison is on the wallet of its settlement. -/
def LedgersOnWallet (tenantId : TenantId) (db : BillingDb) : Prop :=
  ∀ s ∈ db.settlements, s.tenantId = tenantId →
    isLedgerConsistent (ledger db tenantId s.id) s →
      ∀ r ∈ ledger db tenantId s.id, r.walletId = s.walletId

/-- If the tenant has no settlement, it has no row that refers to a settlement without naming one. -/
def NoNullReference (tenantId : TenantId) (db : BillingDb) : Prop :=
  (∀ s ∈ db.settlements, s.tenantId ≠ tenantId) → ∀ r ∈ db.transactions, r.tenantId = tenantId →
    r.referenceType = some "wallet_settlement" → r.referenceId ≠ none

theorem posting_perm_iff : (rows.map WalletTransactionRow.posting).Perm (expectedPostings settlement) ↔
    isLedgerConsistent rows settlement ∧ ∀ r ∈ rows, r.walletId = settlement.walletId := by
  rw [isLedgerConsistent_iff]
  constructor
  · intro h
    refine ⟨?_, fun r hr => ?_⟩
    · have hid : (expectedPostings settlement).map Prod.snd = buildExpectedLedger settlement := by
        rw [expectedPostings, List.map_map]
        exact List.map_id _
      have hsnd := h.map Prod.snd
      rwa [List.map_map, hid] at hsnd
    · obtain ⟨e, -, he⟩ := List.mem_map.1 (h.subset (List.mem_map_of_mem hr))
      exact (congrArg Prod.fst he).symm
  · rintro ⟨h, hwallet⟩
    have hrows : rows.map WalletTransactionRow.posting =
        (rows.map WalletTransactionRow.toEntry).map fun e => (settlement.walletId, e) := by
      rw [List.map_map]
      exact List.map_congr_left fun r hr => Prod.ext (hwallet r hr) rfl
    rw [hrows]
    exact h.map _

/-- After a reconciliation every ledger of the tenant passes the comparison. -/
theorem LedgerRepaired.consistent (h : LedgerRepaired settlement rows rows') :
    isLedgerConsistent rows' settlement := by
  rw [LedgerRepaired] at h
  split at h
  next hc => rwa [h]
  next => exact (posting_perm_iff.1 (h ▸ List.Perm.refl _)).1

theorem reconcileTenant_idle (clock : ℕ → Time) (now : Time)
    (h : ∀ s ∈ getSettlementsByTenant db tenantId, isLedgerConsistent (ledger db tenantId s.id) s)
    (ho : ∀ r ∈ db.transactions, ¬ r.Orphan db tenantId) :
    (reconcileTenant clock tenantId now db).1.transactions = db.transactions ∧
      (reconcileTenant clock tenantId now db).2.deletedTransactions = 0 ∧
      (reconcileTenant clock tenantId now db).2.insertedTransactions = 0 ∧
      (reconcileTenant clock tenantId now db).2.orphanTransactionsRemoved = 0 := by
  have hp := reconcile_foldl_idle clock ⟨db, 0, 0, 0, 0, []⟩ h
  rw [reconcileTenant, hp]
  refine ⟨List.filter_eq_self.2 fun r hr => ?_, rfl, rfl, List.countP_eq_zero.2 fun r hr => ?_⟩
  · exact decide_eq_true (ho r hr)
  · exact fun h => ho r hr (of_decide_eq_true h)

/-- **Reconciliation repairs everything** exactly if every ledger that passes the comparison is on the
wallet of its settlement, and a tenant without settlements has no row that refers to `NULL`. -/
theorem reconciles_iff (clock clock' : ℕ → Time) (tenantId : TenantId) (now now' : Time)
    (db : BillingDb) : Reconciles clock clock' tenantId now now' db ↔
      LedgersOnWallet tenantId db ∧ NoNullReference tenantId db := by
  obtain ⟨hset, hrepaired, horphans, hothers⟩ := reconcileTenant_spec clock tenantId now db
  have huntouched := hothers (fun r => r.tenantId ≠ tenantId ∨ ¬ r.Refers) fun r hr s _ hs =>
    hr.elim (fun h => h hs.1) fun h => h ⟨hs.2.1, by simp [hs.2.2]⟩
  constructor
  · intro h
    refine ⟨fun s hs ht hc => ?_, fun hnone r hr ht htype hnull => ?_⟩
    · have hrep := hrepaired s (mem_getSettlementsByTenant.2 ⟨hs, ht⟩)
      rw [LedgerRepaired, if_pos hc] at hrep
      have hperm := h.repaired s hs ht
      rw [hrep] at hperm
      exact (posting_perm_iff.1 hperm).2
    · have hmem : r ∈ db.transactions.filter fun r => r.tenantId ≠ tenantId ∨ ¬ r.Refers :=
        List.mem_filter.2 ⟨hr, decide_eq_true (.inr fun href => href.2 hnull)⟩
      rw [← h.untouched] at hmem
      refine horphans r (List.mem_filter.1 hmem).1 ⟨ht, htype, ?_⟩
      rw [hnull]
      exact hnone
  · rintro ⟨hwallet, hnull⟩
    refine ⟨fun s hs ht => ?_, fun r hr k hk => ?_, ?_, hset, ?_⟩
    · have hrep := hrepaired s (mem_getSettlementsByTenant.2 ⟨hs, ht⟩)
      rw [LedgerRepaired] at hrep
      split at hrep
      next hc =>
        rw [hrep]
        exact posting_perm_iff.2 ⟨hc, hwallet s hs ht hc⟩
      next => rw [hrep]
    · by_contra hno
      refine horphans r hr ⟨hk.1, hk.2.1, ?_⟩
      rw [hk.2.2]
      exact fun s hs ht he => hno ⟨s, hs, ht, he⟩
    · rw [huntouched]
      refine List.filter_congr fun r hr => decide_eq_decide.2 ⟨And.left, fun hu => ⟨hu, ?_⟩⟩
      rintro ⟨ht, htype, hid⟩
      have hnone : r.referenceId = none := by
        by_contra hne
        exact hu.elim (fun h => h ht) fun h => h ⟨htype, hne⟩
      rw [hnone] at hid
      exact hnull hid r hr ht htype hnone
    · refine reconcileTenant_idle clock' now' (fun s hs => ?_) fun r hr => ?_
      · rw [getSettlementsByTenant, hset] at hs
        exact (hrepaired s hs).consistent
      · rw [orphan_congr hset]
        exact horphans r hr

/-- The payment of a settlement is booked on another wallet than the one of the settlement. -/
def misbooked : BillingDb where
  settlements := [⟨0, "t", 1, 10, "CRED", 0, 0, 5⟩]
  settlements_key := by decide
  transactions := [⟨0, "t", 2, .task_payment, 10, "CRED", some "wallet_settlement", some 0, 5⟩]
  transactions_key := by decide
  runs := []

/-- A payment on a wrong wallet passes, and stays where it is. -/
theorem misbooked_stays : ¬ Reconciles (fun _ => 6) (fun _ => 7) "t" 6 7 misbooked := by
  intro h
  have hrepaired := h.repaired ⟨0, "t", 1, 10, "CRED", 0, 0, 5⟩ (by decide) rfl
  revert hrepaired
  decide +kernel

end ChronoSynth.Billing

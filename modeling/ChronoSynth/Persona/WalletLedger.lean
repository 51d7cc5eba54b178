import ChronoSynth.Lib.Ledger
import ChronoSynth.Persona.Calls

/-!
# Wallets and their journal

Three transactions change a balance: a settlement credits what the owner gets, a direct completion
what it pays, a payout debits. Each writes its journal rows in the same transaction, and these net
to the change. So in every run the balance of a wallet is what its journal says (`wallets_balanced`).
-/

namespace ChronoSynth.Persona

open Ledger

variable {env : Env} {t : Tx} {db : TenantDb}

/-- What the journal says about a wallet, in minor units. -/
def journalNet (db : TenantDb) (walletId : Id) : ℤ :=
  Ledger.net WalletTransaction.walletId WalletTransaction.amountMinor db.walletTransactions walletId

/-- Every wallet agrees with its journal and is not overdrawn, and every row of the journal has the
sign of its type. -/
structure WalletsBalanced (db : TenantDb) : Prop where
  balance_eq : ∀ w ∈ db.wallets, w.balance * 100 = journalNet db w.id
  /-- No wallet is overdrawn. -/
  nonneg : ∀ w ∈ db.wallets, 0 ≤ w.balance
  signs : ∀ x ∈ db.walletTransactions, SignOk x.transactionType x.amountMinor

/-- The balances as a ledger. -/
def Books (db : TenantDb) : Prop :=
  Ledger.Balanced PersonaWallet.id PersonaWallet.balance 100 WalletTransaction.walletId
    WalletTransaction.amountMinor db.wallets db.walletTransactions

/-- Every row of the journal has the right sign and belongs to a wallet. -/
def Journalled (db : TenantDb) : Prop :=
  ∀ x ∈ db.walletTransactions, SignOk x.transactionType x.amountMinor ∧
    ∃ w ∈ db.wallets, w.id = x.walletId

/-! ## Shares -/

section shares
variable (total : ℤ) {owner persona : ℤ} (platform : ℤ)

theorem computeSettlementSplit_sum (owner persona : ℤ) :
    (computeSettlementSplit total owner persona platform).ownerAmountMinor +
      (computeSettlementSplit total owner persona platform).personaAmountMinor +
      (computeSettlementSplit total owner persona platform).platformAmountMinor = total := by
  simp only [computeSettlementSplit]
  ring

/-- None of the shares of a positive total is negative: rounding down leaves the platform at least
its own. -/
theorem computeSettlementSplit_nonneg (ht : 0 ≤ total) (ho : 0 ≤ owner) (hp : 0 ≤ persona)
    (h : owner + persona ≤ 100) :
    0 ≤ (computeSettlementSplit total owner persona platform).ownerAmountMinor ∧
      0 ≤ (computeSettlementSplit total owner persona platform).personaAmountMinor ∧
      0 ≤ (computeSettlementSplit total owner persona platform).platformAmountMinor := by
  have ht' : (0 : ℚ) ≤ total := by exact_mod_cast ht
  have ho' : (0 : ℚ) ≤ owner := by exact_mod_cast ho
  have hp' : (0 : ℚ) ≤ persona := by exact_mod_cast hp
  have h' : (owner + persona : ℚ) ≤ 100 := by exact_mod_cast h
  have hfo : (⌊(total * owner / 100 : ℚ)⌋ : ℚ) ≤ total * owner / 100 := Int.floor_le _
  have hfp : (⌊(total * persona / 100 : ℚ)⌋ : ℚ) ≤ total * persona / 100 := Int.floor_le _
  have hmul : (total * owner / 100 + total * persona / 100 : ℚ) ≤ total := by
    have := mul_le_mul_of_nonneg_left h' ht'
    linarith
  refine ⟨Int.floor_nonneg.2 (by positivity), Int.floor_nonneg.2 (by positivity), ?_⟩
  have hle : ((⌊(total * owner / 100 : ℚ)⌋ + ⌊(total * persona / 100 : ℚ)⌋ : ℤ) : ℚ) ≤ total := by
    push_cast
    linarith
  have hle' := Int.cast_le.1 hle
  simp only [computeSettlementSplit]
  omega

end shares

theorem TaskWalletSettlement.journal_sum (s : TaskWalletSettlement) (n : ℕ)
    (hsum : s.ownerAmountMinor + s.personaAmountMinor + s.platformAmountMinor = s.totalAmountMinor)
    (hpersona : 0 ≤ s.personaAmountMinor) (hplatform : 0 ≤ s.platformAmountMinor) :
    ((s.journal env n).map WalletTransaction.amountMinor).sum = s.ownerAmountMinor := by
  simp only [TaskWalletSettlement.journal, WalletTransaction.create]
  split_ifs <;> simp <;> omega

theorem TaskWalletSettlement.journal_ok (s : TaskWalletSettlement) (n : ℕ)
    (htotal : 0 < s.totalAmountMinor) :
    ∀ x ∈ s.journal env n, x.walletId = s.walletId ∧ SignOk x.transactionType x.amountMinor := by
  intro x hx
  simp only [TaskWalletSettlement.journal, List.mem_cons, List.mem_append, List.mem_ite_nil_right,
    List.not_mem_nil, or_false] at hx
  rcases hx with rfl | ⟨h, rfl⟩ | ⟨h, rfl⟩
  · exact ⟨rfl, htotal⟩
  · exact ⟨rfl, neg_lt_zero.2 h⟩
  · exact ⟨rfl, neg_lt_zero.2 h⟩

/-! ## Postings -/

section postings
variable {w : PersonaWallet} {n : ℤ}

theorem PersonaWallet.settle_balance (now : Time) (hn : w.balance * 100 = n) (owner : ℤ) (personaAmount : ℚ) :
    (w.settle now (fromMinor owner) personaAmount).balance * 100 = (n + owner : ℤ) := by
  have hn' : (w.settle now (fromMinor owner) personaAmount).balance =
      ((n + owner : ℤ) : ℚ) / 100 := by
    have howner : (owner / 100 : ℚ) * 100 = owner := div_mul_cancel₀ _ (by norm_num)
    have hcast : ((n : ℚ) + owner) = ((n + owner : ℤ) : ℚ) := by push_cast; rfl
    rw [PersonaWallet.settle, fromMinor_eq]
    simp only [hn, howner, sqlRound_intCast, hcast, sqlRound_div_hundred]
  rw [hn', div_mul_cancel₀ _ (by norm_num)]

theorem PersonaWallet.debit_balance (now : Time) (hn : w.balance * 100 = n) (amount : ℤ) :
    (w.debit now amount).balance * 100 = (n - amount : ℤ) := by
  have hn' : (w.debit now amount).balance = ((n - amount : ℤ) : ℚ) / 100 := by
    have hcast : ((n : ℚ) - amount) = ((n - amount : ℤ) : ℚ) := by push_cast; rfl
    rw [PersonaWallet.debit]
    simp only [hn, sqlRound_intCast, hcast, sqlRound_div_hundred]
  rw [hn', div_mul_cancel₀ _ (by norm_num)]

end postings

/-- **Settlement.** -/
theorem books_settled {s : TaskWalletSettlement} (hb : Books db) (hn : db.Numbered)
    {wallet : PersonaWallet} (hw : wallet ∈ db.wallets) (hid : wallet.id = s.walletId)
    (hcur : wallet.currency = s.currency)
    (hsum : s.ownerAmountMinor + s.personaAmountMinor + s.platformAmountMinor = s.totalAmountMinor)
    (htotal : 0 < s.totalAmountMinor) (howner : 0 ≤ s.ownerAmountMinor)
    (hpersona : 0 ≤ s.personaAmountMinor) (hplatform : 0 ≤ s.platformAmountMinor) :
    Books (s.settled env db) := by
  refine hb.posted (fun w hmem => ⟨And.left, fun hk => ⟨hk, ?_⟩⟩) (fun _ => rfl)
    (fun x hx => (s.journal_ok _ htotal x hx).1) fun w hmem hk n hbal hpos => ?_
  · obtain rfl := hn.wallets.eq hmem hw (hk.trans hid.symm)
    exact hcur
  · rw [s.journal_sum _ hsum hpersona hplatform]
    refine ⟨PersonaWallet.settle_balance _ hbal _ _, ?_⟩
    have h : (0 : ℚ) ≤ (n + s.ownerAmountMinor : ℤ) := by
      have hn0 : (0 : ℚ) ≤ n := hbal ▸ by positivity
      have ho : (0 : ℚ) ≤ s.ownerAmountMinor := by exact_mod_cast howner
      push_cast
      linarith
    rw [← PersonaWallet.settle_balance _ hbal] at h
    linarith

theorem TaskCompletion.journal_ok (c : TaskCompletion) (n m : ℕ) :
    ∀ x ∈ (c.settlements env n).flatMap (·.journal env m),
      x.walletId = c.walletId ∧ SignOk x.transactionType x.amountMinor := by
  intro x hx
  rw [TaskCompletion.settlements] at hx
  split_ifs at hx with h
  · rw [List.flatMap_singleton, TaskCompletion.journal_settlement] at hx
    obtain rfl := List.mem_singleton.1 hx
    exact ⟨rfl, h⟩
  · cases hx

theorem TaskCompletion.journal_sum (c : TaskCompletion) (n m : ℕ) (h : 0 ≤ c.payoutMinor) :
    (((c.settlements env n).flatMap (·.journal env m)).map WalletTransaction.amountMinor).sum =
      c.payoutMinor := by
  rw [TaskCompletion.settlements]
  split_ifs with hpos
  · simp [TaskCompletion.journal_settlement, WalletTransaction.create]
  · simp only [List.flatMap_nil, List.map_nil, List.sum_nil]
    omega

/-- **Direct completion.** The wallets are matched by persona, the journal goes by wallet. -/
theorem books_completed {c : TaskCompletion} (hb : Books db) (ht : db.Tidy) (hc : c.Backed db) :
    Books (c.completed env db) := by
  obtain ⟨wallet, hw, hid, hp⟩ := hc.wallet
  refine hb.posted (fun w hmem => ⟨fun hk => ?_, fun hk => ?_⟩) (fun _ => rfl)
    (fun x hx => (c.journal_ok _ _ x hx).1) fun w hmem hk n hbal hpos => ?_
  · obtain rfl := ht.owned.1.eq hmem hw (hk.trans hp.symm)
    exact hid
  · obtain rfl := ht.numbered.wallets.eq hmem hw (hk.trans hid.symm)
    exact hp
  · have hnonneg : (0 : ℚ) ≤ c.payoutMinor := by exact_mod_cast hc.nonneg
    rw [c.journal_sum _ _ hc.nonneg]
    simp only [PersonaWallet.credit, hc.payout]
    refine ⟨?_, by positivity⟩
    push_cast
    rw [add_mul, hbal, div_mul_cancel₀ _ (by norm_num)]

/-- **Payout.** The debit tests the balance it changes. -/
theorem books_paid {p : WalletPayout} (hb : Books db) (hn : db.Numbered)
    (hcovered : db.wallets.countP p.Covered = 1) : Books (p.paid env db) := by
  obtain ⟨wallet, hw, hid, hle⟩ := hn.wallets.countP_eq_one.1 hcovered
  refine hb.posted (k := p.walletId) (fun w hmem => ⟨And.left, fun hk => ⟨hk, ?_⟩⟩) (fun _ => rfl)
    (by simp [WalletTransaction.create]) fun w hmem hk n hbal hpos => ?_
  · obtain rfl := hn.wallets.eq hmem hw (hk.trans hid.symm)
    exact hle
  · obtain rfl := hn.wallets.eq hmem hw (hk.trans hid.symm)
    rw [hbal, sqlRound_intCast] at hle
    have hsum : ([WalletTransaction.create p.walletId env.now db.walletTransactions.length
        .owner_payout (-p.amountMinor) p.currency .wallet_payout_request
        db.payoutRequests.length].map WalletTransaction.amountMinor).sum = -p.amountMinor := by
      simp [WalletTransaction.create]
    have hnew := PersonaWallet.debit_balance env.now hbal p.amountMinor
    rw [hsum, ← sub_eq_add_neg]
    refine ⟨hnew, ?_⟩
    have h : (0 : ℚ) ≤ (n - p.amountMinor : ℤ) := by
      push_cast
      linarith
    rw [← hnew] at h
    linarith

/-! ## Runs -/

/-- **Step lemma**: a backed transaction keeps the books. -/
theorem exec_books (ht : db.Tidy) (hback : t.Backed db) (hj : Journalled db) (hb : Books db) :
    Books (exec env t db).1 := by
  have ew : _ → _ = _ := exec_agree env t db .wallets
  have ej : _ → _ = _ := exec_agree env t db .walletTransactions
  cases t with
  | createPersona u =>
    refine hb.opened rfl fun x hx he => ?_
    obtain ⟨w, hw, hid⟩ := (hj x hx).2
    exact absurd (ht.numbered.wallets.lt hw) (by rw [hid, he]; exact lt_irrefl _)
  | completeTask c =>
    obtain ⟨e, -⟩ | ⟨-, -, e⟩ := exec_completeTask_cases env db c
    · rwa [e]
    · rw [e]
      exact books_completed hb ht hback
  | settleTaskPayment input =>
    obtain e | ⟨task, assignment, wallet, hs, -, hr, e⟩ := exec_settle_cases env db input
    · rwa [e]
    · rw [e]
      have hsplit := hr.split
      obtain ⟨howner, hpersona, hplatform⟩ := computeSettlementSplit_nonneg _
        input.split.platformPct hr.positive.le (Int.natCast_nonneg input.split.ownerPct)
        (Int.natCast_nonneg input.split.personaPct) (by omega)
      exact books_settled hb ht.numbered (Table.find_spec hs.wallet_eq).1 rfl hr.currency.symm
        (computeSettlementSplit_sum _ input.split.platformPct _ _) hr.positive howner hpersona hplatform
  | requestWalletPayout p =>
    obtain ⟨e, -⟩ | ⟨-, hc, -, e⟩ := exec_payout_cases env db p
    · rwa [e]
    · rw [e]
      exact books_paid hb ht.numbered hc
  | _ =>
    rw [Books, ew (by simp [Tx.writes]), ej (by simp [Tx.writes])]
    exact hb

/-- Every transaction writes rows with the right sign, to wallets that are there. -/
theorem exec_journalled (hback : t.Backed db) (hj : Journalled db) :
    Journalled (exec env t db).1 := by
  -- the wallets stay, so only the rows matter
  suffices h : ∀ x ∈ (exec env t db).1.walletTransactions,
      SignOk x.transactionType x.amountMinor ∧ ∃ w ∈ db.wallets, w.id = x.walletId by
    intro x hx
    obtain ⟨hs, w, hw, hid⟩ := h x hx
    obtain ⟨w', hw', he⟩ := (exec_grows env t db).wallets.stay w hw
    exact ⟨hs, w', hw', (congrArg Prod.fst he).trans hid⟩
  have ej : _ → _ = _ := exec_agree env t db .walletTransactions
  cases t with
  | completeTask c =>
    obtain ⟨e, -⟩ | ⟨-, -, e⟩ := exec_completeTask_cases env db c
    · rwa [e]
    · rw [e]
      intro x hx
      rcases List.mem_append.1 hx with hx | hx
      · exact hj x hx
      · obtain ⟨wallet, hw, hid, -⟩ := hback.wallet
        obtain ⟨hwallet, hs⟩ := c.journal_ok _ _ x hx
        exact ⟨hs, wallet, hw, hid.trans hwallet.symm⟩
  | settleTaskPayment input =>
    obtain e | ⟨task, assignment, wallet, hs, -, hr, e⟩ := exec_settle_cases env db input
    · rwa [e]
    · rw [e]
      intro x hx
      rcases List.mem_append.1 hx with hx | hx
      · exact hj x hx
      · obtain ⟨hwallet, hsign⟩ := TaskWalletSettlement.journal_ok _ _ hr.positive x hx
        exact ⟨hsign, wallet, (Table.find_spec hs.wallet_eq).1, hwallet.symm⟩
  | requestWalletPayout p =>
    obtain ⟨e, -⟩ | ⟨-, hc, hpos, e⟩ := exec_payout_cases env db p
    · rwa [e]
    · rw [e]
      intro x hx
      rcases List.mem_append.1 hx with hx | hx
      · exact hj x hx
      · obtain rfl := List.mem_singleton.1 hx
        obtain ⟨wallet, hw, hcov⟩ := List.countP_pos_iff.1 (hc ▸ Nat.one_pos)
        exact ⟨neg_lt_zero.2 hpos, wallet, hw, (of_decide_eq_true hcov).1⟩
  | _ => rwa [ej (by simp [Tx.writes])]

/-- **Balances.** In every run of all calls, in any order of their reads and transactions, the
balance of every wallet is what its journal says, no wallet is overdrawn, and every row of the
journal has the sign of its type. -/
theorem wallets_balanced (users : List Id) (ms : List PersonaMove) :
    Always PersonaPool.step (fun p => WalletsBalanced p.db) (PersonaPool.init users) ms := by
  have h : Always PersonaPool.step (fun p => p.Sound ∧ Books p.db ∧ Journalled p.db)
      (PersonaPool.init users) ms :=
    PersonaPool.always_of_keep (C := fun _ _ _ => True)
      (I := fun db => Books db ∧ Journalled db)
      ⟨by simp [Books, Ledger.Balanced, TenantDb.fresh], by simp [Journalled, TenantDb.fresh]⟩
      (fun _ _ _ ht hb h _ => ⟨exec_books ht hb h.2 h.1, exec_journalled hb h.2⟩)
      fun _ _ _ _ _ _ => trivial
  refine h.mono fun p hp => ⟨fun w hw => (hp.2.1 w hw).1, fun w hw => (hp.2.1 w hw).2,
    fun x hx => (hp.2.2 x hx).1⟩

end ChronoSynth.Persona

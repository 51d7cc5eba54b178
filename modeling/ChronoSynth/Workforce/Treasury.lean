import ChronoSynth.Lib.Ledger
import ChronoSynth.Workforce.Frames
import ChronoSynth.Workforce.Handovers
import ChronoSynth.Workforce.Roster

/-!
# The treasuries of the organisations

A settlement writes a row of its own, credits the wallet of the organisation with its part, and journals the
payment and the fee. So the balance of a wallet is what its journal says, and also what its settlements say
(`Treasury`). An acceptance takes the percentage of the platform unchecked: one outside 0 to 100 makes one of
the parts negative (`treasury_always_iff`).
-/

namespace ChronoSynth.Workforce

open Service Ledger

variable {s s' : Store} {e : Env}

/-! ## What is to hold -/

structure OrgWalletSettlement.InParts (t : OrgWalletSettlement) : Prop where
  total : t.platformAmountMinor + t.orgAmountMinor = t.totalAmountMinor
  platform : 0 ≤ t.platformAmountMinor
  org : 0 ≤ t.orgAmountMinor

/-- The wallets agree with the journal and with the settlements, the settlements are divided into parts of
the wallet's currency, and a task is settled at most once. -/
structure TreasuryHolds (s : Store) : Prop where
  journal : ∀ w ∈ s.wallets, w.balance = net (·.walletId) (·.amountMinor) s.walletTransactions w.id
  settled : ∀ w ∈ s.wallets, w.balance = net (·.walletId) (·.orgAmountMinor) s.settlements w.id
  parts : ∀ t ∈ s.settlements, t.InParts
  wallet : ∀ t ∈ s.settlements, ∃ w ∈ s.wallets,
    w.id = t.walletId ∧ w.orgId = t.orgId ∧ w.currency = t.currency
  one_wallet : (s.wallets.map (·.orgId)).Nodup
  once : (s.settlements.map (·.sourceMarketplaceTaskId)).Nodup

/-- The invariant: besides, the wallets are numbered, and a row of the journal belongs to one. -/
structure Treasury (s : Store) : Prop where
  drawn : ∀ w ∈ s.wallets, w.id ∈ s.drawn
  wallets_nodup : (s.wallets.map (·.id)).Nodup
  one_wallet : (s.wallets.map (·.orgId)).Nodup
  journal : Balanced (·.id) (fun w => (w.balance : ℚ)) 1 (·.walletId) (·.amountMinor)
    s.wallets s.walletTransactions
  settled : Balanced (·.id) (fun w => (w.balance : ℚ)) 1 (·.walletId) (·.orgAmountMinor)
    s.wallets s.settlements
  journal_wallet : ∀ x ∈ s.walletTransactions, ∃ w ∈ s.wallets, w.id = x.walletId
  parts : ∀ t ∈ s.settlements, t.InParts
  wallet : ∀ t ∈ s.settlements, ∃ w ∈ s.wallets,
    w.id = t.walletId ∧ w.orgId = t.orgId ∧ w.currency = t.currency
  once : (s.settlements.map (·.sourceMarketplaceTaskId)).Nodup

namespace Treasury

theorem empty : Treasury .empty := by
  constructor <;> simp [Store.empty, Ledger.Balanced]

theorem holds (h : Treasury s) : TreasuryHolds s where
  journal w hw := by
    have heq := (h.journal w hw).1
    dsimp only at heq
    rw [mul_one] at heq
    exact_mod_cast heq
  settled w hw := by
    have heq := (h.settled w hw).1
    dsimp only at heq
    rw [mul_one] at heq
    exact_mod_cast heq
  parts := h.parts
  wallet := h.wallet
  one_wallet := h.one_wallet
  once := h.once

theorem of_eq (h : Treasury s) (hdrawn : s.drawn ⊆ s'.drawn)
    (hrows : ∀ t ∈ settledTables, s'.rows t = s.rows t) : Treasury s' := by
  have hw : s'.wallets = s.wallets := hrows .wallets (by simp [settledTables])
  have ht : s'.settlements = s.settlements := hrows .settlements (by simp [settledTables])
  have hx : s'.walletTransactions = s.walletTransactions := hrows .walletTransactions (by simp [settledTables])
  constructor
  · rw [hw]
    exact fun w hw => hdrawn (h.drawn w hw)
  all_goals simp only [hw, ht, hx]
  · exact h.wallets_nodup
  · exact h.one_wallet
  · exact h.journal
  · exact h.settled
  · exact h.journal_wallet
  · exact h.parts
  · exact h.wallet
  · exact h.once

theorem sameOff (h : Treasury s) {T : List Tbl} (hT : ∀ t ∈ settledTables, t ∉ T) (hs : SameOff T s s') :
    Treasury s' :=
  h.of_eq hs.drawn fun t ht => hs.same t (hT t ht)

/-- **Opening** a wallet. -/
theorem opened (h : Treasury s) {w : OrgWallet} (hnew : w.id ∉ s.drawn) (hbalance : w.balance = 0)
    (horg : ∀ v ∈ s.wallets, v.orgId ≠ w.orgId) :
    Treasury { s with drawn := w.id :: s.drawn, wallets := s.wallets ++ [w] } := by
  have hfresh : ∀ v ∈ s.wallets, v.id ≠ w.id := fun v hv heq => hnew (heq ▸ h.drawn v hv)
  constructor
  · intro v hv
    rcases List.mem_append.1 hv with hv | hv
    · exact List.mem_cons_of_mem _ (h.drawn v hv)
    · obtain rfl := List.mem_singleton.1 hv
      exact List.mem_cons_self
  · rw [List.map_append]
    refine List.nodup_append'.2 ⟨h.wallets_nodup, List.nodup_singleton _, ?_⟩
    simpa [List.Disjoint] using fun v hv => hfresh v hv
  · rw [List.map_append]
    refine List.nodup_append'.2 ⟨h.one_wallet, List.nodup_singleton _, ?_⟩
    simpa [List.Disjoint] using fun v hv => horg v hv
  · refine h.journal.opened (by simp [hbalance]) fun x hx heq => ?_
    obtain ⟨v, hv, hid⟩ := h.journal_wallet x hx
    exact hfresh v hv (hid.trans heq)
  · refine h.settled.opened (by simp [hbalance]) fun t ht heq => ?_
    obtain ⟨v, hv, hid, -⟩ := h.wallet t ht
    exact hfresh v hv (hid.trans heq)
  · exact fun x hx => (h.journal_wallet x hx).imp fun v hv => ⟨List.mem_append_left _ hv.1, hv.2⟩
  · exact h.parts
  · exact fun t ht => (h.wallet t ht).imp fun v hv => ⟨List.mem_append_left _ hv.1, hv.2⟩
  · exact h.once

/-- **Posting** a settlement: its row, the credit and the two rows of the journal. -/
theorem posted (h : Treasury s) {wallet : OrgWallet} (hwallet : wallet ∈ s.wallets)
    (hactive : wallet.status = .active) {t : OrgWalletSettlement} (ht : t.InParts)
    (hid : wallet.id = t.walletId) (horg : wallet.orgId = t.orgId) (hcurrency : wallet.currency = t.currency)
    (hnew : ∀ u ∈ s.settlements, u.sourceMarketplaceTaskId ≠ t.sourceMarketplaceTaskId)
    {payment fee : OrgWalletTransaction} (hp : payment.walletId = wallet.id)
    (hp' : payment.amountMinor = t.totalAmountMinor) (hf : fee.walletId = wallet.id)
    (hf' : fee.amountMinor = -t.platformAmountMinor) (now : Time)
    (hwallets : s'.wallets = Table.update
      (fun w => w.orgId = wallet.orgId ∧ w.status = .active ∧ w.balance = wallet.balance)
      (fun w => { w with
        balance := wallet.balance + t.orgAmountMinor, lastSettledAt := some now, updatedAt := now })
      s.wallets)
    (hsettlements : s'.settlements = s.settlements ++ [t])
    (hjournal : s'.walletTransactions = s.walletTransactions ++ [payment, fee])
    (hdrawn : s.drawn ⊆ s'.drawn) : Treasury s' := by
  -- the update hits the wallet and no other
  have hhit : ∀ w ∈ s.wallets,
      (w.orgId = wallet.orgId ∧ w.status = .active ∧ w.balance = wallet.balance) ↔ w.id = wallet.id := by
    intro w hw
    constructor
    · rintro ⟨ho, -, -⟩
      rw [List.inj_on_of_nodup_map h.one_wallet hw hwallet ho]
    · intro hi
      obtain rfl := List.inj_on_of_nodup_map h.wallets_nodup hw hwallet hi
      exact ⟨rfl, hactive, rfl⟩
  have hbalance : ∀ w ∈ s.wallets, w.id = wallet.id → w.balance = wallet.balance := fun w hw hi =>
    ((hhit w hw).2 hi).2.2
  have hsum : t.orgAmountMinor = t.totalAmountMinor - t.platformAmountMinor := by
    have := ht.total
    omega
  have horgpart : (0 : ℚ) ≤ t.orgAmountMinor := by exact_mod_cast ht.org
  have hkept : ∀ {P : OrgWallet → Prop}, (∃ w ∈ s.wallets, P w) →
      (∀ (w : OrgWallet) balance lastSettledAt updatedAt,
        P w → P { w with balance, lastSettledAt, updatedAt }) → ∃ w ∈ s'.wallets, P w := by
    intro P hP hset
    rw [hwallets]
    exact Table.exists_mem_update hP fun w _ hw => hset w _ _ _ hw
  have hids : s'.wallets.map (·.id) = s.wallets.map (·.id) := by
    rw [hwallets]
    exact Table.map_update fun _ _ => rfl
  have horgs : s'.wallets.map (·.orgId) = s.wallets.map (·.orgId) := by
    rw [hwallets]
    exact Table.map_update fun _ _ => rfl
  constructor
  · intro w hw
    have hmem : w.id ∈ s.wallets.map (·.id) := hids ▸ List.mem_map_of_mem hw
    obtain ⟨v, hv, heq⟩ := List.mem_map.1 hmem
    exact hdrawn (heq ▸ h.drawn v hv)
  · exact hids ▸ h.wallets_nodup
  · exact horgs ▸ h.one_wallet
  · rw [hwallets, hjournal]
    refine h.journal.posted hhit (fun _ => rfl) (by simp [hp, hf]) fun w hw hi n hn hpos => ⟨?_, ?_⟩
    · rw [hbalance w hw hi] at hn
      simp only [List.map_cons, List.map_nil, List.sum_cons, List.sum_nil, hp', hf', hsum]
      push_cast
      linarith
    · rw [hbalance w hw hi] at hpos
      change (0 : ℚ) ≤ ((wallet.balance + t.orgAmountMinor : ℤ) : ℚ)
      push_cast
      exact add_nonneg hpos horgpart
  · rw [hwallets, hsettlements]
    refine h.settled.posted hhit (fun _ => rfl) (by simp [hid]) fun w hw hi n hn hpos => ⟨?_, ?_⟩
    · rw [hbalance w hw hi] at hn
      simp only [List.map_cons, List.map_nil, List.sum_cons, List.sum_nil]
      push_cast
      linarith
    · rw [hbalance w hw hi] at hpos
      change (0 : ℚ) ≤ ((wallet.balance + t.orgAmountMinor : ℤ) : ℚ)
      push_cast
      exact add_nonneg hpos horgpart
  · rw [hjournal]
    intro x hx
    rcases List.mem_append.1 hx with hx | hx
    · exact hkept (h.journal_wallet x hx) fun _ _ _ _ hw => hw
    · have hx : x.walletId = wallet.id := by
        simp only [List.mem_cons, List.not_mem_nil, or_false] at hx
        rcases hx with rfl | rfl
        · exact hp
        · exact hf
      exact hkept ⟨wallet, hwallet, hx.symm⟩ fun _ _ _ _ hw => hw
  · rw [hsettlements]
    intro u hu
    rcases List.mem_append.1 hu with hu | hu
    · exact h.parts u hu
    · obtain rfl := List.mem_singleton.1 hu
      exact ht
  · rw [hsettlements]
    intro u hu
    rcases List.mem_append.1 hu with hu | hu
    · exact hkept (h.wallet u hu) fun _ _ _ _ hw => hw
    · obtain rfl := List.mem_singleton.1 hu
      exact hkept ⟨wallet, hwallet, hid, horg, hcurrency⟩ fun _ _ _ _ hw => hw
  · rw [hsettlements, List.map_append]
    refine List.nodup_append'.2 ⟨h.once, List.nodup_singleton _, ?_⟩
    simpa [List.Disjoint] using fun u hu => hnew u hu

end Treasury

/-! ## A settlement -/

/-- The settlement of the input goes through: the task is not settled, and the wallet takes the payment. -/
def Store.Takes (s : Store) (input : SettleInput) : Prop :=
  s.getOrgWalletSettlementBySourceTask input.sourceMarketplaceTaskId = none ∧
    ∀ w ∈ s.getOrgWallet input.orgId, w.status = .active ∧ w.currency = input.currency

instance (s : Store) (input : SettleInput) : Decidable (s.Takes input) := inferInstanceAs (Decidable (_ ∧ _))

/-- The percentage leaves both parties their part. -/
def SettleInput.Divides (input : SettleInput) : Prop :=
  0 ≤ mathRound input.platformPct ∧
    mathRound input.totalAmountMinor * (mathRound input.platformPct - 100) < 100

instance (input : SettleInput) : Decidable input.Divides := inferInstanceAs (Decidable (_ ∧ _))

/-- The parts of a positive amount, the platform's rounded down. -/
theorem parts_nonneg_iff {total pct : ℤ} (h : 0 < total) :
    0 ≤ total * pct / 100 ∧ 0 ≤ total - total * pct / 100 ↔ 0 ≤ pct ∧ total * (pct - 100) < 100 := by
  have hpct : 0 ≤ total * pct ↔ 0 ≤ pct := mul_nonneg_iff_of_pos_left h
  rw [mul_sub, ← hpct]
  generalize total * pct = x
  omega

theorem getOrgWalletSettlementBySourceTask_none {taskId : Id}
    (h : s.getOrgWalletSettlementBySourceTask taskId = none) :
    ∀ u ∈ s.settlements, u.sourceMarketplaceTaskId ≠ taskId := by
  simpa [Store.getOrgWalletSettlementBySourceTask] using h

/-- **`getOrCreateOrgWallet`** returns the wallet there is, or opens one that takes any payment. -/
theorem getOrCreateOrgWallet_ensures (h : Treasury s) {orgId : OrgId} {currency : String} :
    Ensures (getOrCreateOrgWallet e orgId (s.fresh e) currency) { s with drawn := s.fresh e :: s.drawn }
      fun r s₁ => ∃ wallet, r = .ok wallet ∧ Treasury s₁ ∧ s₁.getOrgWallet orgId = some wallet ∧
        s₁.settlements = s.settlements ∧ (wallet.status = .active ∧ wallet.currency = currency ↔
          ∀ w ∈ s.getOrgWallet orgId, w.status = .active ∧ w.currency = currency) := by
  have heq : ({ s with drawn := s.fresh e :: s.drawn } : Store).getOrgWallet orgId = s.getOrgWallet orgId := rfl
  simp only [getOrCreateOrgWallet, ensures_bind, ensures_get, heq]
  cases hwallet : s.getOrgWallet orgId with
  | some wallet =>
    refine ⟨wallet, rfl, h.of_eq (List.subset_cons_self _ _) fun t _ => by cases t <;> rfl, ?_, rfl, ?_⟩
    · rw [heq, hwallet]
    · simp
  | none =>
    have hnone : ∀ v ∈ s.wallets, v.orgId ≠ orgId := by simpa [Store.getOrgWallet] using hwallet
    simp only [ensures_bind, ensures_set, ensures_pure]
    let wallet : OrgWallet := ⟨s.fresh e, orgId, 0, currency, .active, none, e.now, e.now⟩
    refine ⟨wallet, rfl, h.opened (w := wallet) Store.fresh_not_mem rfl hnone, ?_, trivial,
      iff_of_true ⟨rfl, rfl⟩ (by simp)⟩
    rw [Store.getOrgWallet, List.find?_append, ← Store.getOrgWallet, hwallet]
    simp [wallet]

theorem credited_ensures {orgId : OrgId} {wallet : OrgWallet} (h : s.getOrgWallet orgId = some wallet)
    (hactive : wallet.status = .active) {delta : ℤ} {now : Time} :
    Ensures (changed (·.creditOrgWallet orgId delta now)) s fun r s' => r = .ok true ∧
      s' = { s with
        wallets := Table.update
          (fun w => w.orgId = orgId ∧ w.status = .active ∧ w.balance = wallet.balance)
          (fun w => { w with balance := wallet.balance + delta, lastSettledAt := some now, updatedAt := now })
          s.wallets } := by
  simp only [changed, ensures_modifyGet, Store.creditOrgWallet, h, if_pos hactive, Option.isSome_some, and_self]

/-- A row of the journal. -/
theorem insertOrgWalletTransaction_ensures {walletId referenceId : Id}
    {transactionType : OrgWalletTransactionType} {amountMinor : ℤ} {currency : String} :
    Ensures (insertOrgWalletTransaction e walletId transactionType amountMinor currency referenceId) s
      fun r s' => r = .ok () ∧ ∃ x : OrgWalletTransaction, x.walletId = walletId ∧
        x.amountMinor = amountMinor ∧ s'.walletTransactions = s.walletTransactions ++ [x] ∧
        SameOff [.walletTransactions] s s' := by
  refine Ensures.mono (Ensures.and (Q := fun r s' => r = .ok () ∧ ∃ x : OrgWalletTransaction,
    x.walletId = walletId ∧ x.amountMinor = amountMinor ∧
      s'.walletTransactions = s.walletTransactions ++ [x]) ?_
    (keeps_insertOrgWalletTransaction (T := [.walletTransactions]) (by simp) s)) ?_
  · simp only [insertOrgWalletTransaction, idgen, ensures_bind, ensures_modifyGet, ensures_modify]
    exact ⟨trivial, ⟨_, walletId, transactionType, amountMinor, currency, referenceId, e.now⟩, rfl, rfl, rfl⟩
  · rintro r s' ⟨⟨rfl, x, hx, hx', hs⟩, hoff⟩
    exact ⟨rfl, x, hx, hx', hs, hoff⟩

/-- **`settleInTx`** returns the settlement there is, or makes one where the wallet takes it; the books stay
in order exactly where both parties get their part. -/
theorem settleInTx_ensures (h : Treasury s) {input : SettleInput}
    (htotal : 0 < mathRound input.totalAmountMinor) :
    Ensures (settleInTx e input) s fun r s' => match r with
      | .ok row => (s.getOrgWalletSettlementBySourceTask input.sourceMarketplaceTaskId = some row ∧ s' = s) ∨
          s.Takes input ∧ (input.Divides → Treasury s') ∧ (TreasuryHolds s' → input.Divides)
      | .error _ => ¬ s.Takes input := by
  unfold settleInTx
  simp only [ensures_bind, ensures_get]
  cases hsettled : s.getOrgWalletSettlementBySourceTask input.sourceMarketplaceTaskId with
  | some row => exact .inl ⟨rfl, rfl⟩
  | none =>
    dsimp only
    simp only [idgen, ensures_bind, ensures_modifyGet]
    refine (getOrCreateOrgWallet_ensures h).mono fun r s₁ hr => ?_
    obtain ⟨wallet, rfl, h₁, hwallet, hsettlements, htakes⟩ := hr
    obtain ⟨hmem, horg⟩ := Table.find_spec hwallet
    simp only [ensures_require]
    refine ⟨fun hactive => ⟨fun hcurrency => ?_, fun hne => ?_⟩, fun hne => ?_⟩
    · rw [ensures_modify]
      refine Ensures.mono (credited_ensures ?_ hactive) ?_
      · exact hwallet
      rintro r s₂ ⟨rfl, h₂⟩
      refine ⟨fun _ => ?_, fun hne => absurd rfl hne⟩
      refine insertOrgWalletTransaction_ensures.mono ?_
      rintro r s₃ ⟨rfl, payment, hp, hp', hs₃, hoff₃⟩
      refine insertOrgWalletTransaction_ensures.mono ?_
      rintro r s₄ ⟨rfl, fee, hf, hf', hs₄, hoff₄⟩
      have hoff := hoff₃.trans hoff₄
      have hset : s₄.settlements = s₁.settlements ++ [_] :=
        (hoff.same .settlements (by simp)).trans (congrArg Store.settlements h₂)
      refine .inr ⟨⟨hsettled, htakes.1 ⟨hactive, hcurrency⟩⟩, fun hd => ?_, fun hh => ?_⟩
      · have hparts := (parts_nonneg_iff htotal).2 hd
        refine h₁.posted hmem hactive ⟨add_sub_cancel _ _, hparts.1, hparts.2⟩ rfl horg hcurrency ?_ hp hp' hf hf'
          e.now ((hoff.same .wallets (by simp)).trans ?_) hset ?_ ?_
        · rw [hsettlements]
          exact getOrgWalletSettlementBySourceTask_none hsettled
        · rw [h₂, horg]
          rfl
        · rw [hs₄, hs₃, h₂, List.append_assoc]
          rfl
        · have hdrawn : s₂.drawn = s₁.fresh e :: s₁.drawn := congrArg Store.drawn h₂
          refine List.Subset.trans ?_ hoff.drawn
          rw [hdrawn]
          exact List.subset_cons_self _ _
      · have hp := hh.parts _ (hset ▸ List.mem_append_right _ (List.mem_singleton_self _))
        exact (parts_nonneg_iff htotal).1 ⟨hp.platform, hp.org⟩
    · exact fun ht => hne (htakes.2 ht.2).2
    · exact fun ht => hne (htakes.2 ht.2).1

theorem SettleInput.Valid.divides {input : SettleInput} (h : input.Valid) : input.Divides := by
  obtain ⟨htotal, hpos, hle⟩ := h
  refine ⟨hpos, ?_⟩
  have := mul_nonneg htotal.le (sub_nonneg.2 hle)
  linarith

/-! ## An acceptance -/

def AcceptInput.settle (input : AcceptInput) (task : MarketplaceTask) (assign : OrgTaskAssignment) :
    SettleInput where
  orgId := assign.orgId
  sourceMarketplaceTaskId := input.taskId
  goalId := assign.orgGoalId
  totalAmountMinor := mathRound (task.reward * 100)
  currency := task.currency
  platformPct := input.platformPct.getD 20

/-- The acceptance goes through and pays: the assignment is submitted, the task accepted and not settled, there
is a reward, and the wallet takes it. -/
def Store.Pays (s : Store) (input : AcceptInput) (task : MarketplaceTask) (assign : OrgTaskAssignment) : Prop :=
  (∃ a ∈ s.assignments, a.id = assign.id ∧ a.status = .submitted) ∧
    (∃ t ∈ s.marketplaceTasks, t.id = input.taskId ∧ t.status = .accepted) ∧
    0 < mathRound (task.reward * 100) ∧ s.Takes (input.settle task assign)

instance (s : Store) (input : AcceptInput) (task : MarketplaceTask) (assign : OrgTaskAssignment) :
    Decidable (s.Pays input task assign) := inferInstanceAs (Decidable (_ ∧ _ ∧ _ ∧ _))

theorem updateOrgTaskAssignmentStatus_isSome {id : Id} {now : Time}
    {fromStatus toStatus : OrgTaskAssignmentStatus} {goalId : Option Id} :
    (s.updateOrgTaskAssignmentStatus id now fromStatus toStatus goalId).1.isSome ↔
      ∃ a ∈ s.assignments, a.id = id ∧ a.status = fromStatus := by
  simp [Store.updateOrgTaskAssignmentStatus, List.find?_isSome]

theorem updateMarketplaceTask_isSome {taskId : Id} {fromStatus : MarketplaceTaskStatus}
    {g : MarketplaceTask → MarketplaceTask} : (s.updateMarketplaceTask taskId fromStatus g).1.isSome ↔
      ∃ t ∈ s.marketplaceTasks, t.id = taskId ∧ t.status = fromStatus := by
  simp [Store.updateMarketplaceTask, List.find?_isSome]

/-- What a transaction that settles does: the books stay in order exactly under the condition `C`; a task that
is settled already is not paid again, and outside the tables `T` nothing changes; a failure changes nothing. -/
structure Settling (C settled : Prop) (T : List Tbl) {α : Type} (s : Store) (r : Except WorkforceError α)
    (s' : Store) : Prop where
  keep : C → Treasury s'
  need : TreasuryHolds s' → C
  again : settled → SameOff T s s'
  failed : ∀ err, r = .error err → s' = s

theorem Settling.refused {C settled : Prop} {T : List Tbl} {α : Type} {err : WorkforceError} (h : Treasury s)
    (hC : C) : Settling C settled T s (.error err : Except WorkforceError α) s :=
  ⟨fun _ => h, fun _ => hC, fun _ => Std.Refl.refl s, fun _ _ => rfl⟩

theorem Settling.map {C settled : Prop} {T : List Tbl} {α β : Type} {p : Service α} {f : α → β}
    (h : Ensures p s (Settling C settled T s)) : Ensures (f <$> p) s (Settling C settled T s) := by
  refine ensures_map.2 (h.mono fun r s' hr => ?_)
  cases r with
  | ok a => exact ⟨hr.keep, hr.need, hr.again, nofun⟩
  | error err => exact ⟨hr.keep, hr.need, hr.again, fun _ _ => hr.failed err rfl⟩

/-- **`settleInTx`** in its own transaction. -/
theorem Treasury.settleInTx (h : Treasury s) {input : SettleInput}
    (htotal : 0 < mathRound input.totalAmountMinor) :
    Ensures (transaction (settleInTx e input)) s (Settling (s.Takes input → input.Divides)
      (s.getOrgWalletSettlementBySourceTask input.sourceMarketplaceTaskId ≠ none) [] s) := by
  refine ensures_transaction.2 ((settleInTx_ensures h htotal).mono fun r s' hr => ?_)
  cases r with
  | error err => exact .refused h fun ht => absurd ht hr
  | ok row =>
    rcases hr with ⟨hsettled, rfl⟩ | ⟨ht, hkeep, hneed⟩
    · have hnot : ¬ s'.Takes input := fun ht => absurd (ht.1.symm.trans hsettled) nofun
      exact ⟨fun _ => h, fun _ ht => absurd ht hnot, fun _ => Std.Refl.refl _, fun _ _ => rfl⟩
    · exact ⟨fun hC => hkeep (hC ht), fun hh _ => hneed hh, fun hsettled => absurd ht.1 hsettled, nofun⟩

/-- **`acceptOrgTaskInTx`** keeps the books in order exactly where it does not pay, or both parties get their
part. -/
theorem Treasury.acceptOrgTaskInTx (h : Treasury s) {input : AcceptInput} {task : MarketplaceTask}
    {assign : OrgTaskAssignment} :
    Ensures (transaction (acceptOrgTaskInTx e input task assign)) s
      (Settling (s.Pays input task assign → (input.settle task assign).Divides)
        (s.getOrgWalletSettlementBySourceTask input.taskId ≠ none) [.assignments, .marketplaceTasks] s) := by
  rw [ensures_transaction]
  simp only [Workforce.acceptOrgTaskInTx, ensures_bind, changed, ensures_modifyGet, ensures_require,
    Store.markMarketplaceTaskCompleted]
  rw [updateOrgTaskAssignmentStatus_isSome, updateMarketplaceTask_isSome]
  refine ⟨fun ha => ⟨fun ht => ?_, fun ht => ?_⟩, fun ha => ?_⟩
  · -- the assignment and the task have moved; the books have not
    generalize hs₂ : (Store.updateMarketplaceTask _ input.taskId .accepted _).2 = s₂
    have hoff : SameOff [.assignments, .marketplaceTasks] s s₂ := by
      rw [← hs₂]
      exact (SameOff.put .assignments (by simp) _).trans (.put .marketplaceTasks (by simp) _)
    have h₂ : Treasury s₂ := h.sameOff (by simp [settledTables]) hoff
    have hsettlements : s₂.settlements = s.settlements := hoff.same .settlements (by simp)
    have hwallets : s₂.wallets = s.wallets := hoff.same .wallets (by simp)
    have hfind : ∀ taskId, s₂.getOrgWalletSettlementBySourceTask taskId =
        s.getOrgWalletSettlementBySourceTask taskId := fun taskId => by
      simp only [Store.getOrgWalletSettlementBySourceTask, hsettlements]
    have htakes : ∀ settle, s₂.Takes settle ↔ s.Takes settle := fun settle => by
      simp only [Store.Takes, hfind, Store.getOrgWallet, hwallets]
    refine ensures_ite.2 ⟨fun hpos => ?_, fun hpos => ?_⟩
    · have htotal : 0 < mathRound (input.settle task assign).totalAmountMinor := by
        simpa [AcceptInput.settle] using hpos
      rw [ensures_bind]
      refine (@settleInTx_ensures _ _ h₂ (input.settle task assign) htotal).mono fun r s' hr => ?_
      cases r with
      | error err => exact .refused h fun hpays => absurd ((htakes _).2 hpays.2.2.2) hr
      | ok row =>
        rcases hr with ⟨hsettled, rfl⟩ | ⟨htake, hkeep, hneed⟩
        · have hnot : ¬ s.Pays input task assign := fun hpays => by
            rw [hfind] at hsettled
            cases hpays.2.2.2.1.symm.trans hsettled
          exact ⟨fun _ => h₂, fun _ hpays => absurd hpays hnot, fun _ => hoff, fun _ h => by cases h⟩
        · have hpays : s.Pays input task assign := ⟨ha, ht, hpos, (htakes _).1 htake⟩
          exact ⟨fun hC => hkeep (hC hpays), fun hh _ => hneed hh,
            fun hsettled => absurd hpays.2.2.2.1 hsettled, fun _ h => by cases h⟩
    · exact ⟨fun _ => h₂, fun _ hpays => absurd hpays.2.2.1 hpos, fun _ => hoff, fun _ h => by cases h⟩
  · exact .refused h fun hpays => absurd hpays.2.1 ht
  · exact .refused h fun hpays => absurd hpays.1 ha

/-! ## The commands -/

/-- The task a command settles, and the tables it writes to besides the books. -/
def Cmd.settles : Cmd → Option (Id × List Tbl)
  | .settleInTx input => some (input.sourceMarketplaceTaskId, [])
  | .acceptOrgTaskInTx input .. => some (input.taskId, [.assignments, .marketplaceTasks])
  | _ => none

/-- When a command keeps the books in order. -/
def TreasuryKeeps (s : Store) : Cmd → Prop
  | .acceptOrgTaskInTx input task assign => s.Pays input task assign → (input.settle task assign).Divides
  | _ => True

instance (s : Store) (cmd : Cmd) : Decidable (TreasuryKeeps s cmd) := by
  unfold TreasuryKeeps
  split <;> infer_instance

/-- A settlement repeated changes nothing, and neither does one that fails. -/
structure SettlesOnce (s : Store) (cmd : Cmd) (reply : Reply) (s' : Store) : Prop where
  again : ∀ x ∈ cmd.settles, s.getOrgWalletSettlementBySourceTask x.1 ≠ none → SameOff x.2 s s'
  failed : cmd.settles ≠ none → ∀ err, reply = .error err → s' = s

/-- **Step lemma.** -/
theorem Treasury.exec (h : Treasury s) {cmd : Cmd} (hvalid : ∀ input, cmd = .settleInTx input → input.Valid) :
    (TreasuryKeeps s cmd → Treasury (exec e cmd s).1) ∧
    (TreasuryHolds (Workforce.exec e cmd s).1 → TreasuryKeeps s cmd) ∧
    SettlesOnce s cmd (Workforce.exec e cmd s).2 (Workforce.exec e cmd s).1 := by
  have hother : cmd.settles = none → (∀ t ∈ settledTables, t ∉ cmd.tables) → TreasuryKeeps s cmd →
      (TreasuryKeeps s cmd → Treasury (Workforce.exec e cmd s).1) ∧
      (TreasuryHolds (Workforce.exec e cmd s).1 → TreasuryKeeps s cmd) ∧
      SettlesOnce s cmd (Workforce.exec e cmd s).2 (Workforce.exec e cmd s).1 := fun hnone hT hC =>
    ⟨fun _ => h.sameOff hT (exec_sameOff cmd s), fun _ => hC, ⟨by simp [hnone], fun hne => absurd hnone hne⟩⟩
  cases cmd with
  | settleInTx input =>
    have hr := Settling.map (f := fun row => Answer.settlement (some row))
      (h.settleInTx (e := e) (hvalid input rfl).1)
    rw [ensures_iff_runService] at hr
    refine ⟨fun _ => hr.keep fun _ => (hvalid input rfl).divides, fun _ => trivial, ⟨?_, fun _ => hr.failed⟩⟩
    rintro x ⟨⟩
    exact hr.again
  | acceptOrgTaskInTx input task assign =>
    have hr := Settling.map (f := Answer.settlement)
      (@Treasury.acceptOrgTaskInTx _ e h input task assign)
    rw [ensures_iff_runService] at hr
    refine ⟨hr.keep, hr.need, ⟨?_, fun _ => hr.failed⟩⟩
    rintro x ⟨⟩
    exact hr.again
  | _ => exact hother rfl (by simp [Cmd.tables, settledTables, migratedTables]) trivial

/-! ## The calls -/

def Call.Settles : Call → Prop
  | .settleOrgTaskPayment _ | .acceptOrgTask _ => True
  | _ => False

/-- A call that throws has had nothing executed that went through. -/
def Undone {α : Type} (l : List (Cmd × Reply)) (r : Except WorkforceError α) : Prop :=
  ∀ err, r = .error err → ∀ x ∈ l, ∃ err, x.2 = .error err

/-- Wherever the call starts, if it throws nothing has been done. -/
def Clean {α : Type} (q : WorkforceCall α) : Prop :=
  ∀ s, q.Meets .free exec (fun l r _ => Undone l r) [] s

namespace Clean

variable {α β : Type} {q : WorkforceCall α} {g : α → WorkforceCall β}

theorem ret {a : α} : Clean (.ret a) := fun _ _ _ _ _ h => by cases h

theorem throw {err : WorkforceError} : Clean (.throw err : WorkforceCall α) :=
  fun _ _ _ _ _ _ _ hx => (List.not_mem_nil hx).elim

theorem query {f : Store → α} (h : ∀ a, Clean (g a)) : Clean (Prog.query f >>= g) :=
  fun _ s' _ _ _ => h (f s') s'

theorem checking {c : Prop} [Decidable c] {err : WorkforceError} {g : Unit → WorkforceCall β}
    (h : Clean (g ())) : Clean (checking c err >>= g) := by
  unfold Workforce.checking
  split
  · exact h
  · exact throw

theorem ite {c : Prop} [Decidable c] {q q' : WorkforceCall α} (h : Clean q) (h' : Clean q') :
    Clean (if c then q else q') := by
  split
  · exact h
  · exact h'

/-- What is done with the result of a call does not matter. -/
theorem map {f : α → β} (h : Clean q) : Clean (q >>= fun a => return f a) := fun s => by
  refine .bind ((h s).mono fun l r s' _ hr => ?_)
  cases r with
  | ok a => exact fun _ _ _ _ he => by cases he
  | error err => exact fun _ he => hr err rfl

/-- The only command comes last. -/
theorem send {cmd : Cmd} : Clean (send cmd) := fun s => by
  refine .bind (.transaction fun s' _ _ => ⟨trivial, fun e _ => ?_⟩)
  cases hr : (exec e cmd s').2 with
  | ok a => exact fun _ _ _ _ _ _ _ he => by cases he
  | error err =>
    intro _ _ _ _ _ _ _ _ x hx
    exact ⟨err, by simp_all⟩

end Clean

theorem settleOrgTaskPayment_clean {input : SettleInput} : Clean (settleOrgTaskPayment input) := by
  refine .ite .ret (.query fun settled => ?_)
  cases settled with
  | some _ => exact .ret
  | none => exact .query fun _ => .ite .ret (.map .send)

theorem acceptOrgTask_clean {input : AcceptInput} : Clean (acceptOrgTask input) := by
  refine .query fun task => ?_
  cases task with
  | none => exact .throw
  | some task =>
    refine .checking (.query fun assign => ?_)
    cases assign with
    | none => exact .throw
    | some assign => exact .checking (.map .send)

variable {ports : Ports}

/-- What a call has done when it is over. -/
def Call.Leaves (c : Call) (l : List (Cmd × Reply)) (r : Except WorkforceError Outcome) : Prop :=
  c.Settles → Undone l r

theorem Call.leaves (c : Call) : (c.start ports).Meets .free exec (fun l r _ => c.Leaves l r) [] s := by
  cases c with
  | settleOrgTaskPayment input =>
    exact (Clean.map settleOrgTaskPayment_clean s).mono fun _ _ _ _ h _ => h
  | acceptOrgTask input => exact (Clean.map acceptOrgTask_clean s).mono fun _ _ _ _ h _ => h
  | _ => exact Prog.meets_free.mono fun _ _ _ _ _ h => h.elim

theorem Call.May.settle_valid {c : Call} {input : SettleInput} (h : c.May (.settleInTx input)) : input.Valid := by
  cases c with
  | settleOrgTaskPayment input' =>
    obtain ⟨heq, hvalid⟩ := h
    cases heq
    exact hvalid
  | method cmd =>
    have hw := cmd.2
    rw [← (h : _ = cmd.1)] at hw
    exact hw.elim
  | _ => simp [Call.May, ExecuteTaskInput.May, StartInput.May, DecidesAs, Cmd.Wakes, Cmd.Plans] at h

/-! ## Runs -/

/-- The books are in order, and a call that has settled nothing and thrown has left nothing. -/
def WorkforcePool.TreasuryHolds (p : WorkforcePool) : Prop :=
  Workforce.TreasuryHolds p.db ∧ ∀ th ∈ p.threads, th.call.Settles → ∀ err, th.prog = .throw err →
    ∀ x ∈ th.log, ∃ err, x.2 = .error err

/-- **The treasuries are conserved** exactly in the runs in which every acceptance that pays leaves both parties
their part. -/
theorem treasury_always_iff (ms : List WorkforceMove) :
    (Always (WorkforcePool.step ports) WorkforcePool.TreasuryHolds .init ms ∧
      Along (WorkforcePool.step ports) (Pool.AtCommit fun e cmd s =>
        SettlesOnce s cmd (exec e cmd s).2 (exec e cmd s).1) .init ms) ↔
    Along (WorkforcePool.step ports) (Pool.AtCommit fun _ cmd s => TreasuryKeeps s cmd) .init ms := by
  -- what a command does, once it is known which call has handed it over
  have hcommit : ∀ (p : WorkforcePool) (m : WorkforceMove), Treasury p.db → p.Uses Call.May → ∀ e cmd,
      p.committing m = some (e, cmd) →
      (TreasuryKeeps p.db cmd → Treasury (exec e cmd p.db).1) ∧
      (Workforce.TreasuryHolds (exec e cmd p.db).1 → TreasuryKeeps p.db cmd) ∧
      SettlesOnce p.db cmd (exec e cmd p.db).2 (exec e cmd p.db).1 := by
    intro p m h hu e cmd hm
    obtain ⟨c, hc⟩ := hu.committing hm
    refine h.exec fun input hcmd => ?_
    subst hcmd
    exact hc.settle_valid
  refine always_and_along_iff (I := fun p : WorkforcePool => Treasury p.db ∧ p.Uses Call.May ∧
    p.Sound .free exec fun c l r _ => c.Leaves l r)
    ⟨.empty, fun _ h => (List.not_mem_nil h).elim, .idle trivial⟩ (fun p h => ?_) (fun p m h hC => ?_)
    fun p m h hP _ e cmd hm => ?_
  · refine ⟨h.1.holds, fun th hth hs err herr => ?_⟩
    have hmeets := h.2.2.meets th hth
    rw [herr] at hmeets
    exact hmeets p.db trivial trivial hs err rfl
  · refine ⟨⟨?_, h.2.1.step Call.start_uses, h.2.2.step (fun _ _ _ _ _ _ => ⟨trivial, trivial⟩)
      (fun c _ _ => c.leaves) fun _ _ _ => trivial⟩, fun e cmd hm => (hcommit p m h.1 h.2.1 e cmd hm).2.2⟩
    obtain ⟨-, hdb⟩ | ⟨e, cmd, hm, hdb⟩ := Pool.step_db (Call.start ports) exec p m
    · exact hdb ▸ h.1
    · exact hdb ▸ (hcommit p m h.1 h.2.1 e cmd hm).1 (hC e cmd hm)
  · obtain ⟨hnone, -⟩ | ⟨e', cmd', hm', hdb⟩ := Pool.step_db (Call.start ports) exec p m
    · rw [hnone] at hm
      cases hm
    · obtain ⟨rfl, rfl⟩ : e' = e ∧ cmd' = cmd := by simpa [hm'] using hm
      exact (hcommit p m h.1 h.2.1 e' cmd' hm).2.1 (hdb ▸ hP.1)

theorem not_holds_of_negative {p : WorkforcePool} (h : ∃ t ∈ p.db.settlements, t.orgAmountMinor < 0) :
    ¬ p.TreasuryHolds := by
  obtain ⟨t, ht, hneg⟩ := h
  exact fun hp => absurd (hp.1.parts t ht).org (not_le.2 hneg)

/-- A publisher who accepts with 150 percent for the platform takes from the treasury. -/
theorem acceptance_overdrawn :
    let e : Env := ⟨0, id, fun _ => [],
      [("sale", ⟨1, fun _ _ => [⟨"clerk", "t", "draft", .low, false, "", []⟩]⟩)], .error ""⟩
    let go (i : ℕ) : List WorkforceMove := List.replicate 12 (.go i e)
    ¬ Always (WorkforcePool.step ⟨id, false, none, none, none, id, 3, 1000⟩) WorkforcePool.TreasuryHolds .init
      ([.call (.method ⟨.bootstrap "A" [⟨"ceo", "p", none, none⟩, ⟨"clerk", "q", some "ceo", none⟩], trivial⟩)]
        ++ go 0 ++ [.call (.method ⟨.publishMarketplaceTask ⟨"u", "t", "d", 1, "CRED"⟩, trivial⟩)] ++ go 1
        ++ [.call (.applyAsOrg 6 "A")] ++ go 2 ++ [.call (.confirmAssignToOrg 6 "A" "u")] ++ go 3
        ++ [.call (.startOrgTask ⟨6, "A", 1, "sale"⟩)] ++ go 4 ++ [.call (.submitOrgTask 6 "A")] ++ go 5
        ++ [.call (.acceptOrgTask ⟨6, "u", some 150⟩)] ++ go 6) := by
  intro e go h
  exact not_holds_of_negative (by decide +kernel) h.last

end ChronoSynth.Workforce

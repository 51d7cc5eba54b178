import ChronoSynth.Persona.Payments

/-!
# Death

A persona that is deceased is to stay so, with the owner it has and no more income, until a governance
action reinstates it (`DeathFinal`).

Most calls look at the status of the persona before their transaction, some do not look at it at all,
and no statement tests it. `Tx.Disturbs` names what each transaction does to a persona; death is final
in a run exactly if no transaction disturbs a persona that is deceased when it is executed.
-/

namespace ChronoSynth.Persona

variable {env : Env} {t : Tx} {db db' : TenantDb} {k : Id}

def Deceased (db : TenantDb) (k : Id) : Prop := ∃ pc ∈ db.personas, pc.id = k ∧ pc.status = .deceased

instance : Decidable (Deceased db k) := inferInstanceAs (Decidable (∃ pc ∈ db.personas, _))

def creditsOf (db : TenantDb) (walletId : Id) : List WalletTransaction :=
  db.walletTransactions.filter fun x =>
    WALLET_DIRECTION_MATRIX x.transactionType = .credit ∧ x.walletId = walletId

/-- The wallet of the persona has not been credited: it holds no more than before, and its journal
has no more credits. -/
def Uncredited (db db' : TenantDb) (k : Id) (w : PersonaWallet) : Prop :=
  (∃ w' ∈ db'.wallets, w'.id = w.id ∧ w'.personaId = k ∧ w'.balance ≤ w.balance ∧
    w'.tokenBalance ≤ w.tokenBalance) ∧ creditsOf db' w.id = creditsOf db w.id

instance (w : PersonaWallet) : Decidable (Uncredited db db' k w) :=
  inferInstanceAs (Decidable ((∃ w' ∈ db'.wallets, _) ∧ _ = _))

/-- If the persona is deceased, it stays so, its owner stays, and its wallet is not credited. -/
def StaysDeceased (k : Id) (db db' : TenantDb) : Prop :=
  ∀ pc ∈ db.personas, pc.id = k → pc.status = .deceased →
    (∃ pc' ∈ db'.personas, pc'.id = k ∧ pc'.status = .deceased ∧
      pc'.ownerUserId = pc.ownerUserId) ∧
    ∀ w ∈ db.wallets, w.personaId = k → Uncredited db db' k w

instance : Decidable (StaysDeceased k db db') :=
  inferInstanceAs (Decidable (∀ pc ∈ db.personas, pc.id = k → pc.status = .deceased →
    (∃ pc' ∈ db'.personas, _) ∧ ∀ w ∈ db.wallets, _))

/-- The persona a transaction reinstates, unless it is rolled back. -/
def Tx.reinstates (db : TenantDb) : Tx → Option Id
  | .applyGovernanceAction c p .reinstate _ _ _ _ =>
    if ∃ g ∈ db.cases, g.id = c ∧ g.status ≠ .resolved then some p else none
  | _ => none

/-- Until it is reinstated, a persona that is deceased stays so, with its owner and without income. -/
def DeathFinal (users : List Id) (ms : List PersonaMove) : Prop :=
  ∀ k, Between PersonaPool.step (Pool.AtCommit fun _ t db => t.reinstates db ≠ some k)
    (fun p p' => StaysDeceased k p.db p'.db) (PersonaPool.init users) ms

theorem StaysDeceased.refl (db : TenantDb) : StaysDeceased k db db :=
  fun pc hpc hid hs => ⟨⟨pc, hpc, hid, hs, rfl⟩, fun w hw hp => ⟨⟨w, hw, rfl, hp, le_rfl, le_rfl⟩, rfl⟩⟩

theorem StaysDeceased.trans {db'' : TenantDb} (h : StaysDeceased k db db')
    (h' : StaysDeceased k db' db'') : StaysDeceased k db db'' := by
  intro pc hpc hid hs
  obtain ⟨⟨pc', hpc', hid', hs', ho'⟩, hw⟩ := h pc hpc hid hs
  obtain ⟨⟨pc'', hpc'', hid'', hs'', ho''⟩, hw'⟩ := h' pc' hpc' hid' hs'
  refine ⟨⟨pc'', hpc'', hid'', hs'', ho''.trans ho'⟩, fun w hmem hp => ?_⟩
  obtain ⟨⟨w', hmem', hwid, hp', hb, htok⟩, hc⟩ := hw w hmem hp
  obtain ⟨⟨w'', hmem'', hwid', hp'', hb', htok'⟩, hc'⟩ := hw' w' hmem' hp'
  rw [hwid] at hwid' hc'
  exact ⟨⟨w'', hmem'', hwid', hp'', hb'.trans hb, htok'.trans htok⟩, hc'.trans hc⟩

/-! ## What disturbs a persona -/

/-- The transaction, unless it is rolled back, gives the persona another status than "deceased" or
another owner, or pays it. -/
def Tx.Disturbs (db : TenantDb) (k : Id) : Tx → Prop
  | .activatePersona p | .deactivatePersona p => p = k
  | .approveTransfer p x _ => p = k ∧ ∃ y ∈ db.transfers, y.id = x ∧ y.status = .pending_review
  | .addGovernanceEvent p _ _ next => p = k ∧ ∃ status, next = some status ∧ status ≠ .deceased
  | .applyGovernanceAction c p actionType _ _ next _ =>
    p = k ∧ actionType ≠ .reinstate ∧ next ≠ .deceased ∧
      ∃ g ∈ db.cases, g.id = c ∧ g.status ≠ .resolved
  | .acceptSubmittedTask a =>
    a.personaId = k ∧ ∃ x ∈ db.tasks, x.id = a.taskId ∧ x.status = .accepted
  | .completeTask c => c.personaId = k ∧ (∃ x ∈ db.tasks, x.id = c.taskId ∧ x.status = .accepted) ∧
    (0 < c.payoutMinor → ¬ ∃ s ∈ db.settlements, s.assignmentId = c.assignmentId)
  | .settleTaskPayment input =>
    (∃ a ∈ db.assignments, a.id = input.assignmentId ∧ a.personaId = k) ∧
      (Tx.settleTaskPayment input).Pays db input.taskId input.assignmentId
  | _ => False

section
variable {personas : List PersonaCore} {p owner : Id} {g : PersonaCore → PersonaCore}

theorem deceased_of_update (h : ∃ pc ∈ personas, pc.id = k ∧ pc.status = .deceased ∧
      pc.ownerUserId = owner)
    (hg : p = k → ∀ pc, (g pc).id = pc.id ∧ (pc.status = .deceased → (g pc).status = .deceased) ∧
      (g pc).ownerUserId = pc.ownerUserId) :
    ∃ pc ∈ Table.update (·.id = p) g personas, pc.id = k ∧ pc.status = .deceased ∧
      pc.ownerUserId = owner := by
  refine Table.exists_mem_update h fun pc hp hpc => ?_
  obtain ⟨hid, hs, ho⟩ := hg (hp.symm.trans hpc.1) pc
  exact ⟨hid.trans hpc.1, hs hpc.2.1, ho.trans hpc.2.2⟩

theorem not_deceased_of_update
    (h : ∃ pc ∈ Table.update (·.id = k) g personas, pc.id = k ∧ pc.status = .deceased)
    (hs : ∀ pc, (g pc).status ≠ .deceased) : False := by
  obtain ⟨pc', hpc', hid, hdead⟩ := h
  obtain ⟨pc, -, rfl⟩ := Table.mem_update.1 hpc'
  by_cases hp : pc.id = k
  · rw [if_pos hp] at hdead
    exact hs pc hdead
  · rw [if_neg hp] at hid
    exact hp hid

end

theorem exec_deceased (hr : t.reinstates db ≠ some k) (hd : ¬ t.Disturbs db k) (hn : db.Numbered)
    {owner : Id} (h : ∃ pc ∈ db.personas, pc.id = k ∧ pc.status = .deceased ∧
      pc.ownerUserId = owner) :
    ∃ pc ∈ (exec env t db).1.personas, pc.id = k ∧ pc.status = .deceased ∧
      pc.ownerUserId = owner := by
  have ep : _ → _ = _ := exec_agree env t db .personas
  cases t with
  | createPersona u =>
    obtain ⟨pc, hpc, hk⟩ := h
    exact ⟨pc, List.mem_append_left _ hpc, hk⟩
  | activatePersona p =>
    rw [exec_activatePersona]
    exact deceased_of_update h fun hp => (hd hp).elim
  | deactivatePersona p =>
    rw [exec_deactivatePersona]
    exact deceased_of_update h fun hp => (hd hp).elim
  | approveTransfer p x u =>
    rw [exec_approveTransfer]
    split
    next hc => exact deceased_of_update h fun hp => (hd ⟨hp, hn.transfers.countP_eq_one.1 hc⟩).elim
    next => exact h
  | addKnowledge p g r =>
    rw [exec_addKnowledge]
    exact deceased_of_update h fun _ _ => ⟨rfl, id, rfl⟩
  | addGovernanceEvent p r g next =>
    rw [exec_addGovernanceEvent]
    refine deceased_of_update h fun hp pc => ⟨rfl, fun hs => ?_, rfl⟩
    cases next with
    | none => exact hs
    | some status =>
      by_contra hne
      exact hd ⟨hp, status, rfl, hne⟩
  | applyGovernanceAction c p actionType dur actor next r =>
    rw [exec_applyGovernanceAction]
    split
    next hc =>
      refine deceased_of_update h fun hp pc => ⟨rfl, fun _ => ?_, rfl⟩
      by_contra hne
      have hopen := hn.cases.countP_eq_one.1 hc
      refine hd ⟨hp, fun ha => hr ?_, hne, hopen⟩
      rw [ha, ← hp]
      exact if_pos hopen
    next => exact h
  | acceptSubmittedTask a =>
    rw [exec_acceptSubmittedTask]
    split
    next hc => exact deceased_of_update h fun hp => (hd ⟨hp, hn.tasks.countP_eq_one.1 hc⟩).elim
    next => exact h
  | completeTask c =>
    obtain ⟨e, -⟩ | ⟨hc, hs, e⟩ := exec_completeTask_cases env db c
    · rwa [e]
    · rw [e]
      exact deceased_of_update h fun hp => (hd ⟨hp, hn.tasks.countP_eq_one.1 hc, hs⟩).elim
  | _ => rwa [ep (by simp [Tx.writes])]

/-! ## Income -/

theorem exists_sqlRound (x : ℚ) : ∃ m : ℤ, sqlRound x = m ∧ (m : ℚ) ≤ x + 1 / 2 := by
  rw [sqlRound]
  simp only [pow_zero, mul_one, div_one]
  split_ifs with h
  · exact ⟨⌊x + 1 / 2⌋, rfl, Int.floor_le _⟩
  · refine ⟨-⌊-x + 1 / 2⌋, by push_cast; rfl, ?_⟩
    have hfloor := Int.lt_floor_add_one (-x + 1 / 2)
    push_cast
    linarith

theorem PersonaWallet.debit_balance_le (w : PersonaWallet) (now : Time) {n : ℤ} (hn : 0 < n) :
    (w.debit now n).balance ≤ w.balance := by
  obtain ⟨m, hm, hle⟩ := exists_sqlRound (w.balance * 100)
  have hcast : ((m : ℚ) - n) = ((m - n : ℤ) : ℚ) := by push_cast; rfl
  have hpos : (1 : ℚ) ≤ n := by exact_mod_cast hn
  rw [PersonaWallet.debit]
  simp only [hm, hcast, sqlRound_div_hundred]
  push_cast
  linarith

theorem exec_creditsOf (hn : db.Numbered) {walletId : Id}
    (h : ∀ s, t.Pays db s.taskId s.assignmentId →
      (exec env t db).1.settlements = db.settlements ++ [s] → s.walletId ≠ walletId) :
    creditsOf (exec env t db).1 walletId = creditsOf db walletId := by
  have hcredit : ∀ db : TenantDb, creditsOf db walletId =
      (db.walletTransactions.filter fun x => x.transactionType = .task_payment).filter
        fun x => x.walletId = walletId := by
    intro db
    rw [creditsOf, List.filter_filter]
    refine List.filter_congr fun x _ => ?_
    cases x.transactionType <;> simp [WALLET_DIRECTION_MATRIX]
  rw [hcredit, hcredit]
  obtain ⟨s, hp, -, hs, hw⟩ | ⟨-, -, hw⟩ := exec_pays env t hn
  · rw [hw, List.filter_append, List.filter_append, s.payments_journal]
    simp [WalletTransaction.create, h s hp hs]
  · rw [hw]

theorem exec_wallet_le (hn : db.Numbered) (hd : ¬ t.Disturbs db k) {w : PersonaWallet}
    (hw : w ∈ db.wallets) (hp : w.personaId = k) :
    ∃ w' ∈ (exec env t db).1.wallets, w'.id = w.id ∧ w'.personaId = k ∧ w'.balance ≤ w.balance ∧
      w'.tokenBalance ≤ w.tokenBalance := by
  have ew : _ → _ = _ := exec_agree env t db .wallets
  have hsame : ∃ w' ∈ db.wallets, w'.id = w.id ∧ w'.personaId = k ∧ w'.balance ≤ w.balance ∧
      w'.tokenBalance ≤ w.tokenBalance := ⟨w, hw, rfl, hp, le_rfl, le_rfl⟩
  cases t with
  | createPersona u =>
    obtain ⟨w', hw', h⟩ := hsame
    exact ⟨w', List.mem_append_left _ hw', h⟩
  | completeTask c =>
    obtain ⟨e, -⟩ | ⟨hc, hs, e⟩ := exec_completeTask_cases env db c
    · rwa [e]
    · rw [e]
      refine Table.exists_mem_update hsame fun w' hpc h => ?_
      exact (hd ⟨hpc.symm.trans h.2.1, hn.tasks.countP_eq_one.1 hc, hs⟩).elim
  | settleTaskPayment input =>
    obtain e | ⟨task, assignment, wallet, hs, hfree, hr, e⟩ := exec_settle_cases env db input
    · rwa [e]
    · rw [e]
      refine Table.exists_mem_update hsame fun w' hpc h => ?_
      -- the wallet that is settled is the one of the persona of the assignment
      obtain ⟨ha, haid⟩ := Table.find_spec hs.assignment_eq
      obtain ⟨hmem, howner⟩ := Table.find_spec hs.wallet_eq
      obtain rfl := hn.wallets.eq hmem hw (hpc.1.symm.trans h.1)
      exact (hd ⟨⟨assignment, ha, haid, howner.symm.trans hp⟩, rfl, rfl,
        ⟨task, assignment, wallet, hs, hr⟩,
        getWalletSettlementByAssignmentId_eq_none.1 hfree⟩).elim
  | requestWalletPayout p =>
    obtain ⟨e, -⟩ | ⟨-, -, hpos, e⟩ := exec_payout_cases env db p
    · rwa [e]
    · rw [e]
      refine Table.exists_mem_update hsame fun w' _ h => ⟨h.1, h.2.1, ?_, h.2.2.2⟩
      exact (w'.debit_balance_le env.now hpos).trans h.2.2.1
  | _ => rwa [ew (by simp [Tx.writes])]

theorem Tx.Pays.disturbs (hn : db.Numbered) (hb : t.Backed db) {s : TaskWalletSettlement}
    (h : t.Pays db s.taskId s.assignmentId)
    (hs : (exec env t db).1.settlements = db.settlements ++ [s]) :
    ∃ w ∈ db.wallets, w.id = s.walletId ∧ t.Disturbs db w.personaId := by
  cases t with
  | completeTask c =>
    obtain ⟨w, hw, hid, hp⟩ := hb.wallet
    obtain ⟨htask, hassignment, hpos, hx, hfree⟩ := h
    rw [← htask] at hx
    rw [← hassignment] at hfree
    have e : exec env (.completeTask c) db = _ :=
      exec_completeTask_completed (hn.tasks.countP_eq_one.2 hx) fun _ => hfree
    rw [e] at hs
    simp only [TaskCompletion.completed, TaskCompletion.settlements, if_pos hpos] at hs
    obtain rfl := List.singleton_inj.1 (List.append_cancel_left hs)
    exact ⟨w, hw, hid, hp.symm, hx, fun _ => hfree⟩
  | settleTaskPayment input =>
    obtain ⟨htask, hassignment, ⟨task, assignment, wallet, hset, hr⟩, hfree⟩ := id h
    rw [← hassignment] at hfree
    have e : exec env (.settleTaskPayment input) db = _ :=
      exec_settle_paid hset (getWalletSettlementByAssignmentId_eq_none.2 hfree) hr
    rw [e] at hs
    obtain rfl := List.singleton_inj.1 (List.append_cancel_left hs)
    obtain ⟨ha, haid⟩ := Table.find_spec hset.assignment_eq
    obtain ⟨hmem, howner⟩ := Table.find_spec hset.wallet_eq
    exact ⟨wallet, hmem, rfl, ⟨assignment, ha, haid, howner.symm⟩, h⟩
  | _ => exact h.elim

/-! ## Runs -/

theorem Tx.Disturbs.not_staysDeceased (ht : db.Tidy) (hb : t.Backed db) (hd : t.Disturbs db k)
    (hk : Deceased db k) : ¬ StaysDeceased k db (exec env t db).1 := by
  intro h
  obtain ⟨pc, hpc, hid, hs⟩ := hk
  obtain ⟨⟨pc', hpc', hid', hs', -⟩, hw⟩ := h pc hpc hid hs
  have hdead : ∃ pc ∈ (exec env t db).1.personas, pc.id = k ∧ pc.status = .deceased :=
    ⟨pc', hpc', hid', hs'⟩
  have hn := ht.numbered
  cases t with
  | activatePersona p =>
    obtain rfl : p = k := hd
    rw [exec_activatePersona] at hdead
    exact not_deceased_of_update hdead fun _ h => by cases h
  | deactivatePersona p =>
    obtain rfl : p = k := hd
    rw [exec_deactivatePersona] at hdead
    exact not_deceased_of_update hdead fun _ h => by cases h
  | approveTransfer p x u =>
    obtain ⟨rfl, hx⟩ := hd
    rw [exec_approveTransfer, if_pos (hn.transfers.countP_eq_one.2 hx)] at hdead
    exact not_deceased_of_update hdead fun _ h => by cases h
  | addGovernanceEvent p r g next =>
    obtain ⟨rfl, status, rfl, hne⟩ := hd
    rw [exec_addGovernanceEvent] at hdead
    exact not_deceased_of_update hdead fun _ h => hne h
  | applyGovernanceAction c p actionType dur actor next r =>
    obtain ⟨rfl, -, hne, hg⟩ := hd
    rw [exec_applyGovernanceAction, if_pos (hn.cases.countP_eq_one.2 hg)] at hdead
    exact not_deceased_of_update hdead fun _ h => hne h
  | acceptSubmittedTask a =>
    obtain ⟨rfl, hx⟩ := hd
    rw [exec_acceptSubmittedTask, if_pos (hn.tasks.countP_eq_one.2 hx)] at hdead
    exact not_deceased_of_update hdead fun _ h => by cases h
  | completeTask c =>
    obtain ⟨rfl, hx, hfree⟩ := hd
    rw [exec_completeTask_completed (hn.tasks.countP_eq_one.2 hx) hfree] at hdead
    exact not_deceased_of_update hdead fun _ h => by cases h
  | settleTaskPayment input =>
    -- the payment is a credit
    obtain ⟨⟨a, ha, haid, hap⟩, hp⟩ := hd
    obtain ⟨-, -, ⟨task, assignment, wallet, hset, hr⟩, hfree⟩ := hp
    obtain ⟨ha', haid'⟩ := Table.find_spec hset.assignment_eq
    obtain rfl := hn.assignments.eq ha ha' (haid.trans haid'.symm)
    obtain ⟨hmem, howner⟩ := Table.find_spec hset.wallet_eq
    have hcredit := (hw wallet hmem (howner.trans hap)).2
    rw [exec_settle_paid hset (getWalletSettlementByAssignmentId_eq_none.2 hfree) hr] at hcredit
    have hlen := congrArg List.length hcredit
    simp [creditsOf, TaskWalletSettlement.settled, TaskWalletSettlement.journal,
      SettleTaskPaymentInput.settlement, WalletTransaction.create, WALLET_DIRECTION_MATRIX] at hlen
  | _ => exact hd.elim

/-- **Step lemma**: a transaction that does not reinstate the persona leaves it as it is if it is
deceased, exactly if it does not disturb it then. -/
theorem exec_staysDeceased_iff (ht : db.Tidy) (hb : t.Backed db) (hr : t.reinstates db ≠ some k) :
    StaysDeceased k db (exec env t db).1 ↔ (t.Disturbs db k → ¬ Deceased db k) := by
  constructor
  · exact fun h hd hk => hd.not_staysDeceased ht hb hk h
  · intro h pc hpc hid hs
    have hd : ¬ t.Disturbs db k := fun hd => h hd ⟨pc, hpc, hid, hs⟩
    refine ⟨exec_deceased hr hd ht.numbered ⟨pc, hpc, hid, hs, rfl⟩, fun w hw hp => ?_⟩
    refine ⟨exec_wallet_le ht.numbered hd hw hp, exec_creditsOf ht.numbered fun s hpay hset he => ?_⟩
    obtain ⟨w', hw', hwid, hd'⟩ := hpay.disturbs ht.numbered hb hset
    obtain rfl := ht.numbered.wallets.eq hw' hw (hwid.trans he)
    exact hd (hp ▸ hd')

/-- **Death is final.** In a run of all calls, a persona that is deceased stays so, with its owner and
without income, until it is reinstated — exactly if no other transaction disturbs a persona that is
deceased when it is executed. -/
theorem deathFinal_iff (users : List Id) (ms : List PersonaMove) :
    DeathFinal users ms ↔ Along PersonaPool.step
      (Pool.AtCommit fun _ t db => ∀ k, t.reinstates db ≠ some k → t.Disturbs db k → ¬ Deceased db k)
      (PersonaPool.init users) ms := by
  have hbetween : ∀ k, Between PersonaPool.step (Pool.AtCommit fun _ t db => t.reinstates db ≠ some k)
        (fun p p' => StaysDeceased k p.db p'.db) (PersonaPool.init users) ms ↔
      Along PersonaPool.step (Pool.AtCommit fun _ t db => t.reinstates db ≠ some k → t.Disturbs db k →
        ¬ Deceased db k) (PersonaPool.init users) ms := fun k =>
    PersonaPool.between_iff (E := fun _ t db => t.reinstates db ≠ some k) (fun db => .refl db)
      (fun _ _ _ h h' => h.trans h') fun env t db ht hb hr => exec_staysDeceased_iff ht hb hr
  rw [DeathFinal, forall_congr' hbetween, along_forall]
  exact ⟨fun h => h.mono fun p m hk o t hm k => hk k o t hm,
    fun h => h.mono fun p m hk k o t hm => hk o t hm k⟩

/-- A transfer that was requested before its persona died is approved afterwards: the persona lives
again, with another owner. -/
theorem death_undone_by_transfer :
    ¬ DeathFinal [1, 2]
      [.call (.createPersona ⟨1⟩), .go 0 (.ofTime 1), .call (.requestTransfer ⟨1, 0, 2⟩),
        .go 1 (.ofTime 2), .go 1 (.ofTime 2), .go 1 (.ofTime 2), .go 1 (.ofTime 2),
        .call (.markDeceased ⟨1, 0⟩), .go 2 (.ofTime 3), .go 2 (.ofTime 3),
        .call (.approveTransfer ⟨0, 0, 2⟩), .go 3 (.ofTime 4), .go 3 (.ofTime 4)] := by
  intro h
  have hstays := h 0 [.call (.createPersona ⟨1⟩), .go 0 (.ofTime 1),
      .call (.requestTransfer ⟨1, 0, 2⟩), .go 1 (.ofTime 2), .go 1 (.ofTime 2), .go 1 (.ofTime 2),
      .go 1 (.ofTime 2), .call (.markDeceased ⟨1, 0⟩), .go 2 (.ofTime 3), .go 2 (.ofTime 3)]
    [.call (.approveTransfer ⟨0, 0, 2⟩), .go 3 (.ofTime 4), .go 3 (.ofTime 4)]
    (List.prefix_refl _) (by decide +kernel)
  revert hstays
  decide +kernel

end ChronoSynth.Persona

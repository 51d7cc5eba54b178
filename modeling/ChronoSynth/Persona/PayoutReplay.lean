import Mathlib.Data.List.Pairwise
import ChronoSynth.Persona.Calls

/-!
# Replayed payouts

A payout that carries a key is to be made once: the same request with the same key is to return the
payout that exists and to change nothing, a different request with this key is to fail. The keys are
unique in every run (`payoutKeys_unique`), and a replay never pays again.

What it returns is computed in `replayAnswer`. The balance is tested before the key is looked at, so
a replay gets its payout back only as long as the wallet would cover it once more.
-/

namespace ChronoSynth.Persona

variable {env : Env} {t : Tx} {db : TenantDb}

/-! ## Keys -/

/-- No two payouts share a key. -/
def KeysUnique (db : TenantDb) : Prop :=
  db.payoutRequests.Pairwise fun r r' => ∀ key, r.idempotencyKey = some key →
    r'.idempotencyKey ≠ some key

/-- Every payout is of something. -/
def PayoutsPositive (db : TenantDb) : Prop := ∀ r ∈ db.payoutRequests, 0 < r.amountMinor

theorem KeysUnique.eq (h : KeysUnique db) {r r' : WalletPayoutRequest}
    (hr : r ∈ db.payoutRequests) (hr' : r' ∈ db.payoutRequests) {key : String}
    (hk : r.idempotencyKey = some key) (hk' : r'.idempotencyKey = some key) : r = r' := by
  by_contra hne
  have : Std.Symm fun r r' : WalletPayoutRequest => ∀ key, r.idempotencyKey = some key →
      r'.idempotencyKey ≠ some key := ⟨fun _ _ h key hk' hk => h key hk hk'⟩
  exact h.forall hr hr' hne key hk hk'

/-- **Step lemma**: the unique index refuses a key that is there. -/
theorem exec_payouts (h : KeysUnique db ∧ PayoutsPositive db) :
    KeysUnique (exec env t db).1 ∧ PayoutsPositive (exec env t db).1 := by
  have er : _ → _ = _ := exec_agree env t db .payoutRequests
  cases t with
  | requestWalletPayout p =>
    obtain ⟨e, -⟩ | ⟨hfree, -, hpos, e⟩ := exec_payout_cases env db p
    · rwa [e]
    · rw [e]
      refine ⟨List.pairwise_append.2 ⟨h.1, List.pairwise_singleton _ _, ?_⟩, ?_⟩
      · intro r hr r' hr' key hk hk'
        obtain rfl := List.mem_singleton.1 hr'
        have hp : p.idempotencyKey = some key := hk'
        exact hfree ⟨by simp [hp], r, hr, hk.trans hp.symm⟩
      · intro r hr
        rcases List.mem_append.1 hr with hr | hr
        · exact h.2 r hr
        · obtain rfl := List.mem_singleton.1 hr
          exact hpos
  | _ =>
    rw [KeysUnique, PayoutsPositive, er (by simp [Tx.writes])]
    exact h

/-- **Keys.** In no run two payouts share a key. -/
theorem payoutKeys_unique (users : List Id) (ms : List PersonaMove) :
    Always PersonaPool.step (fun p => KeysUnique p.db ∧ PayoutsPositive p.db)
      (PersonaPool.init users) ms := by
  refine (PersonaPool.always_of_keep (C := fun _ _ _ => True)
    (I := fun db => KeysUnique db ∧ PayoutsPositive db)
    ⟨by simp [KeysUnique, TenantDb.fresh], by simp [PayoutsPositive, TenantDb.fresh]⟩
    (fun _ _ _ _ _ h _ => exec_payouts h) fun _ _ _ _ _ _ => trivial).mono fun p hp => hp.2

/-! ## Replays -/

/-- The amount a payout is asked for, in minor units. -/
def RequestWalletPayoutInput.minor (input : RequestWalletPayoutInput) : ℤ :=
  max 0 (mathRound input.amountMinor)

/-- The payout a call asks for. -/
def RequestWalletPayoutInput.payout (input : RequestWalletPayoutInput) (wallet : PersonaWallet) :
    WalletPayout where
  walletId := input.walletId
  amountMinor := input.minor
  currency := wallet.currency
  ownerUserId := input.ownerUserId
  idempotencyKey := input.idempotencyKey

/-- The call gets past its checks before the transaction: the caller owns the wallet, which is
active and covers the amount. -/
def PassesChecks (db : TenantDb) (input : RequestWalletPayoutInput) : Prop :=
  ∃ wallet, getWalletByIdForOwner db input.ownerUserId input.walletId = some wallet ∧
    wallet.status = .active ∧ 0 < input.minor ∧ input.minor ≤ toMinor wallet.balance

/-- The payout is the one that is asked for. -/
def Matches (input : RequestWalletPayoutInput) (r : WalletPayoutRequest) : Prop :=
  r.amountMinor = input.minor ∧ r.walletId = input.walletId

instance (input : RequestWalletPayoutInput) : DecidablePred (Matches input) :=
  fun _ => inferInstanceAs (Decidable (_ ∧ _))

section
variable {input : RequestWalletPayoutInput} {key : String} {r : WalletPayoutRequest}

/-- A call that does not get past its checks returns `null`. -/
theorem solo_refused (h : ¬ PassesChecks db input) (os : ℕ → Env) :
    (requestWalletPayout input).solo exec os db = (db, .ok none) := by
  refine Prog.solo_query_bind.trans ?_
  cases hw : getWalletByIdForOwner db input.ownerUserId input.walletId with
  | none => rfl
  | some wallet =>
    dsimp only
    split
    · rfl
    next hactive =>
    change Prog.solo exec (if input.minor ≤ 0 ∨ input.minor > toMinor wallet.balance then _ else _)
      _ db = _
    split
    · rfl
    next hamount =>
    rw [not_or, not_le, not_lt] at hamount
    exact (h ⟨wallet, hw, not_not.1 hactive, hamount⟩).elim

/-- A call with a key that is taken, once it gets past its checks, runs into the index and looks the
payout up. -/
theorem solo_taken (h : PassesChecks db input) (hu : KeysUnique db) (hr : r ∈ db.payoutRequests)
    (hk : input.idempotencyKey = some key) (hkey : r.idempotencyKey = some key) (os : ℕ → Env) :
    (requestWalletPayout input).solo exec os db =
      (db, if key = "" then .error (.UniqueViolation .wallet_payout_idempotency)
        else if Matches input r then .ok (some r)
        else .error (.StateError "同一个 Idempotency-Key 不能用于不同请求")) := by
  obtain ⟨wallet, hw, hactive, hpos, hle⟩ := h
  refine Prog.solo_query_bind.trans ?_
  rw [hw]
  dsimp only
  rw [if_neg (not_not.2 hactive)]
  change Prog.solo exec (if input.minor ≤ 0 ∨ input.minor > toMinor wallet.balance then _ else _)
    _ db = _
  rw [if_neg (not_or.2 ⟨not_le.2 hpos, not_lt.2 hle⟩), Prog.solo_transaction_bind]
  have htaken : (input.payout wallet).KeyTaken db :=
    ⟨by simp [hk, RequestWalletPayoutInput.payout], r, hr, hkey.trans hk.symm⟩
  have hfind : findPayoutByIdempotencyKey db key = some r := by
    cases hf : findPayoutByIdempotencyKey db key with
    | none => simpa [hkey] using List.find?_eq_none.1 hf r hr
    | some r' => rw [hu.eq (Table.find_spec hf).1 hr (Table.find_spec hf).2 hkey]
  have hexec : ∀ env, exec env (.requestWalletPayout (input.payout wallet)) db =
      (db, .failed (.UniqueViolation .wallet_payout_idempotency)) :=
    fun env => exec_payout_taken htaken
  simp only [RequestWalletPayoutInput.payout, RequestWalletPayoutInput.minor] at hexec
  rw [hexec]
  by_cases hempty : key = ""
  · subst hempty
    simp only [hk, truthy]
    rfl
  · have htruthy : truthy (some key) = true ∧ PersonaError.UniqueViolation
        .wallet_payout_idempotency = .UniqueViolation .wallet_payout_idempotency :=
      ⟨by simp [truthy, hempty], rfl⟩
    rw [hk]
    dsimp only
    rw [if_pos htruthy, if_neg hempty, Prog.solo_query_bind, Option.getD_some, hfind]
    dsimp only
    by_cases hm : Matches input r
    · rw [if_pos hm, if_neg]
      · rfl
      · rw [not_or, not_not, not_not]
        exact hm
    · rw [if_neg hm, if_pos]
      · rfl
      · rw [← not_and_or]
        exact hm

end

/-! ## Runs -/

/-- What is asked of replays: a payout that exists is what the same request with the same key
returns, and nothing changes. -/
def PayoutsReplay (db : TenantDb) : Prop :=
  ∀ r ∈ db.payoutRequests, ∀ input : RequestWalletPayoutInput, r.idempotencyKey ≠ none →
    input.idempotencyKey = r.idempotencyKey → input.ownerUserId = r.requestedByUserId →
    Matches input r → ∀ os, (requestWalletPayout input).solo exec os db = (db, .ok (some r))

/-- **Replays.** In every state of every run: keys are unique; a request with a key that has been
used changes nothing, and does not succeed if it asks for another amount or another wallet; if it
asks for the same, it returns the payout exactly if the key is not empty and the wallet passes the
checks before the transaction once more. -/
theorem payouts_replayed (users : List Id) (ms : List PersonaMove) :
    Always PersonaPool.step
      (fun p => KeysUnique p.db ∧
        ∀ r ∈ p.db.payoutRequests, ∀ input : RequestWalletPayoutInput,
          r.idempotencyKey ≠ none → input.idempotencyKey = r.idempotencyKey → ∀ os,
            ((requestWalletPayout input).solo exec os p.db).1 = p.db ∧
            (¬ Matches input r →
              ∀ r', ((requestWalletPayout input).solo exec os p.db).2 ≠ .ok (some r')) ∧
            (Matches input r →
              (((requestWalletPayout input).solo exec os p.db).2 = .ok (some r) ↔
                input.idempotencyKey ≠ some "" ∧ PassesChecks p.db input)))
      (PersonaPool.init users) ms := by
  refine (payoutKeys_unique users ms).mono fun p hp =>
    ⟨hp.1, fun r hr input hsome hkey os => ?_⟩
  obtain ⟨key, hk⟩ := Option.ne_none_iff_exists'.1 hsome
  rw [hk] at hkey
  by_cases hc : PassesChecks p.db input
  · rw [solo_taken hc hp.1 hr hkey hk os]
    refine ⟨rfl, fun hm r' => ?_, fun hm => ?_⟩
    · rw [if_neg hm]
      split_ifs <;> simp
    · rw [if_pos hm]
      split_ifs with hempty
      · simp [hkey, hempty]
      · simp [hkey, hempty, hc]
  · rw [solo_refused hc os]
    exact ⟨rfl, fun _ _ => by simp, fun _ => by simp [hc]⟩

/-- A payout of everything that is in the wallet is refused when it is replayed. -/
theorem replay_refused_after_spending :
    ¬ Always PersonaPool.step (fun p => PayoutsReplay p.db) (PersonaPool.init [1, 2])
      [.call (.createPersona ⟨1⟩), .go 0 (.ofTime 1),
        .call (.publishTask ⟨2, 1, none⟩), .go 1 (.ofTime 2),
        .call (.acceptTask ⟨1, 0, 0, none⟩), .go 2 (.ofTime 3), .go 2 (.ofTime 3), .go 2 (.ofTime 3),
        .go 2 (.ofTime 3),
        .call (.completeTask ⟨1, 0, 1, none⟩), .go 3 (.ofTime 4), .go 3 (.ofTime 4),
        .go 3 (.ofTime 4), .go 3 (.ofTime 4), .go 3 (.ofTime 4), .go 3 (.ofTime 4),
        .call (.requestWalletPayout ⟨1, 0, 100, some "k"⟩), .go 4 (.ofTime 5), .go 4 (.ofTime 5),
        .go 4 (.ofTime 5)] := by
  intro h
  have hreplay := h.last ⟨0, 0, 100, "CRED", 1, 5, some 5, some "k"⟩ (by decide +kernel)
    ⟨1, 0, 100, some "k"⟩ (by decide) rfl rfl ⟨by decide +kernel, rfl⟩ fun _ => .ofTime 6
  exact absurd (congrArg Prod.snd hreplay) (by decide +kernel)

end ChronoSynth.Persona

import ChronoSynth.Lib.Tickets
import ChronoSynth.Metering.BillingOutbox

/-!
# Delivery

What is to hold of every run of enqueues and flushes: a row that is sent or has failed for good keeps its
status and is not claimed again, nothing is reported of a row that is sent, no counter of attempts goes down
or above `MAX_ATTEMPTS`, and only the worker that holds the claim of a row reports its outcome
(`DeliversOnce`).

The commands that report an outcome have no predicate, so a worker whose claim was requeued writes over what
has become of the row since. Delivery is as it is to be in exactly the runs in which no outcome comes too
late (`deliversOnce_iff`).
-/

namespace ChronoSynth.Metering

variable {shardOf : String → ℕ} {e : Env} {cmd : OutboxCmd} {db : OutboxState} {row row' : OutboxRow}
  {p : OutboxPool} {m : OutboxMove} {i j id : ℕ}

/-- What a command can do to a row. -/
inductive OutboxEffect (e : Env) (db : OutboxState) : OutboxCmd → OutboxRow → OutboxRow → Prop
  | same {cmd : OutboxCmd} {row : OutboxRow} : OutboxEffect e db cmd row row
  | requeued {shard : ℕ} {staleProcessingMs : ℤ} {row : OutboxRow} (hproc : row.status = .processing) :
    OutboxEffect e db (.requeueStale shard staleProcessingMs) row row.requeued
  | claimed {row : OutboxRow} (hpending : row.status = .pending) :
    OutboxEffect e db (.claim row.id) row (row.claimed e.dbNow db.claims)
  | sent {row : OutboxRow} {now : ℤ} : OutboxEffect e db (.markSent row.id now) row (row.markSent now)
  | failed {row : OutboxRow} {errorMessage : String} {maxAttempts : ℕ} :
    OutboxEffect e db (.markFailed row.id errorMessage maxAttempts) row
      (row.markFailed errorMessage maxAttempts)

theorem rewrite_effect : OutboxEffect e db cmd row (db.rewrite e cmd row) := by
  cases cmd with
  | nextFallback | enqueue | reportUsage => exact .same
  | requeueStale shard staleProcessingMs =>
    simp only [OutboxState.rewrite]
    split
    next h => exact .requeued h.2.1
    next => exact .same
  | claim id =>
    simp only [OutboxState.rewrite]
    split
    next h =>
      obtain ⟨rfl, hpending⟩ := h
      exact .claimed hpending
    next => exact .same
  | markSent | markFailed =>
    simp only [OutboxState.rewrite]
    split
    next h =>
      subst h
      constructor
    next => exact .same

/-! ## What is claimed -/

/-- What a row may become. -/
structure OutboxRow.Keeps (row row' : OutboxRow) : Prop where
  id : row'.id = row.id
  sent : row.status = .sent → row'.status = .sent
  failed : row.status = .failed → row'.status = .failed
  attempts : row.attempts ≤ row'.attempts

/-- Every row has stayed, as what it may become. -/
def OutboxState.Keeps (db db' : OutboxState) : Prop :=
  ∀ row ∈ db.rows, ∃ row' ∈ db'.rows, row.Keeps row'

/-- The `i`-th call has made the claim that the row is processed under. -/
def Holds (p : OutboxPool) (i id : ℕ) : Prop :=
  ∃ th, p.threads[i]? = some th ∧ ∃ row ∈ p.db.rows, row.id = id ∧
    ∃ reply, (OutboxCmd.claim id, reply) ∈ th.log ∧ row.claim = some reply.claim

/-- The row whose outcome a command reports. -/
def OutboxCmd.outcome : OutboxCmd → Option ℕ
  | .markSent id _ | .markFailed id _ _ => some id
  | _ => none

/-- The row whose usage a command reports to Stripe. -/
def OutboxCmd.reported : OutboxCmd → Option ℕ
  | .reportUsage id .. => some id
  | _ => none

/-- A claim of a row that is sent or has failed does not succeed. -/
def ClaimsOpen (e : Env) (cmd : OutboxCmd) (db : OutboxState) : Prop :=
  ∀ id, cmd = .claim id → ∀ row ∈ db.rows, row.id = id → row.status = .sent ∨ row.status = .failed →
    (exec e cmd db).2.rowsAffected = 0

/-- No usage of a row is reported that is sent. -/
def ReportsUnsent (_ : Env) (cmd : OutboxCmd) (db : OutboxState) : Prop :=
  ∀ id, cmd.reported = some id → ∀ row ∈ db.rows, row.id = id → row.status ≠ .sent

/-- A report of an outcome changes the status of a row only if the reporting call holds its claim. -/
def ByHolder (p : OutboxPool) (m : OutboxMove) : Prop :=
  ∀ i e cmd id, m = .go i e → p.committing m = some (e, cmd) → cmd.outcome = some id →
    ∀ row ∈ p.db.rows, row.id = id → (p.db.rewrite e cmd row).status ≠ row.status → Holds p i id

structure DeliversOnce (shardOf : String → ℕ) (ms : List OutboxMove) : Prop where
  keeps : Between (OutboxPool.step shardOf) (fun _ _ => True) (fun p p' => p.db.Keeps p'.db) .init ms
  attempts : Always (OutboxPool.step shardOf) (fun p => ∀ row ∈ p.db.rows, row.attempts ≤ MAX_ATTEMPTS)
    .init ms
  claims : Along (OutboxPool.step shardOf) (Pool.AtCommit ClaimsOpen) .init ms
  reports : Along (OutboxPool.step shardOf) (Pool.AtCommit ReportsUnsent) .init ms
  holder : Always (OutboxPool.step shardOf) (fun p => ∀ id i j, Holds p i id → Holds p j id → i = j)
    .init ms
  byHolder : Along (OutboxPool.step shardOf) ByHolder .init ms

/-! ## The condition -/

/-- The outcome may be reported by the `i`-th call: it holds the claim, or the row is sent already, or is
pending with attempts left. -/
def Takes (p : OutboxPool) (i : ℕ) (row : OutboxRow) : OutboxCmd → Prop
  | .markSent id _ => row.id = id → Holds p i id ∨ row.status = .sent
  | .markFailed id _ maxAttempts =>
    row.id = id → Holds p i id ∨ row.status = .pending ∧ row.attempts + 1 < maxAttempts
  | .reportUsage id .. => row.id = id → row.status ≠ .sent
  | _ => True

/-- What is reported does not come too late. -/
def InTime (p : OutboxPool) (m : OutboxMove) : Prop :=
  ∀ i e cmd, m = .go i e → p.committing m = some (e, cmd) → ∀ row ∈ p.db.rows, Takes p i row cmd

/-! ## The invariant -/

/-- A row is processed under a claim, and has attempts left while it is open. -/
structure OutboxRow.Sound (claims : ℕ) (row : OutboxRow) : Prop where
  claim : ∀ c ∈ row.claim, row.status = .processing ∧ c < claims
  opened : row.status = .pending ∨ row.status = .processing → row.attempts < MAX_ATTEMPTS
  failed : row.status = .failed → row.attempts = MAX_ATTEMPTS
  attempts : row.attempts ≤ MAX_ATTEMPTS

def claimNumber (x : OutboxCmd × OutboxReply) : Option ℕ :=
  match x.1 with
  | .claim _ => some x.2.claim
  | _ => none

/-- Failures are counted up to `MAX_ATTEMPTS`. -/
def OutboxCmd.Limited : OutboxCmd → Prop
  | .markFailed _ _ maxAttempts => maxAttempts = MAX_ATTEMPTS
  | _ => True

structure Sound (p : OutboxPool) : Prop where
  uses : p.Uses fun _ => OutboxCmd.Limited
  keyed : p.db.Keyed
  rows : ∀ row ∈ p.db.rows, row.Sound p.db.claims
  claims : p.Ticketed claimNumber OutboxState.claims

theorem sound_init : Sound .init :=
  ⟨fun _ h => (List.not_mem_nil h).elim, .nil, fun _ h => (List.not_mem_nil h).elim, .idle⟩

/-! ### Claims -/

theorem claims_exec : (exec e cmd db).1.claims = db.claims ∨
    (exec e cmd db).1.claims = db.claims + 1 := by
  cases cmd with
  | claim id => exact .inr rfl
  | enqueue =>
    simp only [exec]
    split <;> exact .inl rfl
  | _ => exact .inl rfl

theorem claims_le : db.claims ≤ (exec e cmd db).1.claims := by
  rcases @claims_exec e cmd db with h | h
  · exact h.ge
  · exact h ▸ Nat.le_succ _

theorem claims_drawn : Pool.Draws exec claimNumber OutboxState.claims := by
  refine ⟨fun _ _ _ => claims_le, fun e cmd db n hn => ?_⟩
  cases cmd with
  | claim id =>
    obtain rfl := Option.some.inj hn
    exact ⟨rfl, Nat.lt_succ_self _⟩
  | _ => cases hn

/-- A claim is held by one call. -/
theorem Sound.holder (h : Sound p) (hi : Holds p i id) (hj : Holds p j id) : i = j := by
  obtain ⟨th, hth, row, hrow, hid, reply, hlog, hc⟩ := hi
  obtain ⟨th', hth', row', hrow', hid', reply', hlog', hc'⟩ := hj
  obtain rfl := Table.Numbered.eq h.keyed hrow hrow' (hid.trans hid'.symm)
  exact h.claims.inj i j th th' hth hth' _ hlog _ hlog' reply.claim rfl (hc'.symm.trans hc)

/-! ### Rows -/

/-- An outcome comes to a row that it may come to. -/
def OutboxRow.Fits (row : OutboxRow) : OutboxCmd → Prop
  | .markSent id _ => row.id = id → row.status = .processing ∨ row.status = .sent
  | .markFailed id _ _ => row.id = id → row.status = .processing ∨ row.status = .pending
  | _ => True

theorem Holds.processing (h : Holds p i row.id) (hp : Sound p) (hrow : row ∈ p.db.rows) :
    row.status = .processing := by
  obtain ⟨-, -, row', hrow', hid, reply, -, hc⟩ := h
  obtain rfl := Table.Numbered.eq hp.keyed hrow hrow' hid.symm
  exact ((hp.rows row hrow).claim _ hc).1

theorem InTime.fits (h : InTime p m) (hp : Sound p) (hm : p.committing m = some (e, cmd))
    (hrow : row ∈ p.db.rows) : row.Fits cmd := by
  cases m with
  | call c => cases hm
  | go i o =>
    obtain ⟨rfl, -⟩ := Pool.committing_go hm
    have htakes := h i o cmd rfl hm row hrow
    cases cmd with
    | markSent id now =>
      rintro rfl
      exact (htakes rfl).imp_left fun hi => hi.processing hp hrow
    | markFailed id errorMessage maxAttempts =>
      rintro rfl
      exact (htakes rfl).imp (fun hi => hi.processing hp hrow) And.left
    | _ => trivial

theorem OutboxRow.Keeps.refl (row : OutboxRow) : row.Keeps row :=
  ⟨rfl, fun h => h, fun h => h, le_rfl⟩

theorem OutboxRow.Keeps.trans {row'' : OutboxRow} (h : row.Keeps row') (h' : row'.Keeps row'') :
    row.Keeps row'' :=
  ⟨h'.id.trans h.id, h'.sent ∘ h.sent, h'.failed ∘ h.failed, h.attempts.trans h'.attempts⟩

/-- What a row becomes when no outcome comes too late. -/
theorem OutboxRow.Fits.keeps (h : row.Fits cmd) : row.Keeps (db.rewrite e cmd row) := by
  have hfx : OutboxEffect e db cmd row (db.rewrite e cmd row) := rewrite_effect
  generalize db.rewrite e cmd row = row' at hfx
  cases hfx with
  | same => exact .refl row
  | requeued hst | claimed hst =>
    refine ⟨rfl, fun hs => ?_, fun hs => ?_, le_rfl⟩
    · cases hst.symm.trans hs
    · cases hst.symm.trans hs
  | sent =>
    refine ⟨rfl, fun _ => rfl, fun hs => ?_, le_rfl⟩
    rcases h rfl with hst | hst <;> cases hst.symm.trans hs
  | failed =>
    refine ⟨rfl, fun hs => ?_, fun hs => ?_, Nat.le_succ _⟩
    · rcases h rfl with hst | hst <;> cases hst.symm.trans hs
    · rcases h rfl with hst | hst <;> cases hst.symm.trans hs

theorem OutboxRow.Sound.rewrite (h : row.Sound db.claims) (hfits : row.Fits cmd) (hcmd : cmd.Limited) :
    (db.rewrite e cmd row).Sound (exec e cmd db).1.claims := by
  have hle : db.claims ≤ (exec e cmd db).1.claims := claims_le
  have hfx : OutboxEffect e db cmd row (db.rewrite e cmd row) := rewrite_effect
  generalize db.rewrite e cmd row = row' at hfx
  cases hfx with
  | same => exact ⟨fun c hc => (h.claim c hc).imp_right hle.trans_lt', h.opened, h.failed, h.attempts⟩
  | requeued hproc => exact ⟨nofun, fun _ => h.opened (.inr hproc), nofun, h.attempts⟩
  | claimed hpending =>
    refine ⟨fun c hc => ⟨rfl, ?_⟩, fun _ => h.opened (.inl hpending), nofun, h.attempts⟩
    obtain rfl := Option.some.inj hc
    exact Nat.lt_succ_self _
  | sent =>
    refine ⟨nofun, fun hs => ?_, nofun, h.attempts⟩
    rcases hs with hs | hs <;> cases hs
  | failed =>
    have hlt : row.attempts < MAX_ATTEMPTS := h.opened (hfits rfl).symm
    obtain rfl := hcmd
    refine ⟨nofun, fun hs => ?_, fun hs => ?_, hlt⟩
    · simp only [OutboxRow.markFailed] at hs ⊢
      split at hs
      · rcases hs with hs | hs <;> cases hs
      · omega
    · simp only [OutboxRow.markFailed] at hs ⊢
      split at hs
      · omega
      · cases hs

theorem inserted_sound {claims : ℕ} (h : row ∈ db.inserted cmd) : row.Sound claims := by
  obtain ⟨-, hstatus, hattempts, hclaim, -⟩ := OutboxState.inserted_spec h
  refine ⟨fun c hc => ?_, fun _ => ?_, fun hs => ?_, ?_⟩
  · cases hclaim.symm.trans hc
  · rw [hattempts]
    decide
  · cases hstatus.symm.trans hs
  · rw [hattempts]
    decide

/-! ### Steps -/

theorem flushRows_limited (rows : List OutboxRow) : (flushRows rows).Uses OutboxCmd.Limited := by
  induction rows with
  | nil => trivial
  | cons row rows ih =>
    refine Prog.Uses.bind (Prog.Uses.bind (.transaction trivial) fun result => ?_) fun r =>
      Prog.Uses.bind ih fun rest => trivial
    split
    · trivial
    · refine Prog.Uses.bind (.transaction trivial) fun reply => ?_
      split
      · exact fun _ _ => ⟨trivial, fun _ => trivial⟩
      · exact ⟨rfl, fun _ => trivial⟩

theorem flush_limited (batchSize : ℕ) (shards : List ℕ) : (flush batchSize shards).Uses OutboxCmd.Limited := by
  induction shards with
  | nil => trivial
  | cons shard shards ih =>
    refine Prog.Uses.bind (Prog.Uses.bind (.transaction trivial) fun _ => ?_) fun r =>
      Prog.Uses.bind ih fun rest => trivial
    exact fun _ _ => flushRows_limited _

theorem enqueue_limited (params : EnqueueParams) : (enqueue shardOf params).Uses OutboxCmd.Limited := by
  refine Prog.Uses.bind ?_ fun suffix => ?_
  · rw [keySuffix]
    split
    · trivial
    · exact ⟨trivial, fun _ => trivial⟩
  · exact fun _ _ => ⟨trivial, fun _ => trivial⟩

theorem OutboxCall.limited (call : OutboxCall) : (call.start shardOf).Uses OutboxCmd.Limited := by
  cases call with
  | enqueue params => exact Prog.Uses.bind (enqueue_limited params) fun _ => trivial
  | flush batchSize shards => exact Prog.Uses.bind (flush_limited batchSize shards) fun _ => trivial

/-- **Step lemma.** -/
theorem Sound.step (h : Sound p) (hm : InTime p m) : Sound (p.step shardOf m) := by
  refine ⟨h.uses.step fun call => call.limited, ?_, ?_, h.claims.step claims_drawn⟩
  · obtain ⟨-, hdb⟩ | ⟨e, cmd, -, hdb⟩ := Pool.step_db (OutboxCall.start shardOf) exec p m
    · rw [OutboxPool.step, hdb]
      exact h.keyed
    · rw [OutboxPool.step, hdb]
      exact h.keyed.exec
  · obtain ⟨-, hdb⟩ | ⟨e, cmd, hc, hdb⟩ := Pool.step_db (OutboxCall.start shardOf) exec p m
    · rw [OutboxPool.step, hdb]
      exact h.rows
    · rw [OutboxPool.step, hdb]
      obtain ⟨-, hlimited⟩ := h.uses.committing hc
      intro row' hrow'
      obtain ⟨row, hrow, rfl⟩ | hnew := OutboxState.mem_exec.1 hrow'
      · exact (h.rows row hrow).rewrite (hm.fits h hc hrow) hlimited
      · exact inserted_sound hnew

theorem InTime.keeps (hm : InTime p m) (h : Sound p) : p.db.Keeps (p.step shardOf m).db := by
  intro row hrow
  obtain ⟨-, hdb⟩ | ⟨e, cmd, hc, hdb⟩ := Pool.step_db (OutboxCall.start shardOf) exec p m
  · rw [OutboxPool.step, hdb]
    exact ⟨row, hrow, .refl row⟩
  · rw [OutboxPool.step, hdb]
    exact ⟨_, OutboxState.rewrite_mem hrow, (hm.fits h hc hrow).keeps⟩

theorem claimsOpen (h : db.Keyed) : ClaimsOpen e cmd db := by
  rintro id rfl row hrow rfl hst
  refine List.countP_eq_zero.2 fun other hother hboth => ?_
  obtain ⟨hid, hpending⟩ := of_decide_eq_true hboth
  obtain rfl := Table.Numbered.eq h hother hrow hid
  rw [hpending] at hst
  rcases hst with hst | hst <;> cases hst

theorem InTime.byHolder (hm : InTime p m) : ByHolder p m := by
  rintro i e cmd id rfl hc hout row hrow rfl hne
  have htakes := hm i e cmd rfl hc row hrow
  cases cmd with
  | markSent id' now =>
    obtain rfl := Option.some.inj hout
    refine (htakes rfl).resolve_right fun hsent => hne ?_
    rw [OutboxState.rewrite, if_pos rfl, hsent]
    rfl
  | markFailed id' errorMessage maxAttempts =>
    obtain rfl := Option.some.inj hout
    refine (htakes rfl).resolve_right fun hleft => hne ?_
    rw [OutboxState.rewrite, if_pos rfl, hleft.1]
    exact if_neg (not_le.2 hleft.2)
  | _ => cases hout

theorem InTime.reportsUnsent (hm : InTime p m) : p.AtCommit ReportsUnsent m := by
  intro e cmd hc id hrep row hrow hid
  cases m with
  | call c => cases hc
  | go i o =>
    obtain ⟨rfl, -⟩ := Pool.committing_go hc
    have htakes := hm i o cmd rfl hc row hrow
    cases cmd with
    | reportUsage id' =>
      obtain rfl := Option.some.inj hrep
      exact htakes hid
    | _ => cases hrep

/-- What comes too late is seen. -/
theorem Sound.inTime (h : Sound p)
    (hattempts : ∀ row ∈ (p.step shardOf m).db.rows, row.attempts ≤ MAX_ATTEMPTS)
    (hrep : p.AtCommit ReportsUnsent m) (hby : ByHolder p m) : InTime p m := by
  rintro i e cmd rfl hc row hrow
  have hdb : (p.step shardOf (.go i e)).db = (exec e cmd p.db).1 := by
    obtain ⟨hnone, -⟩ | ⟨e', cmd', hc', hdb⟩ := Pool.step_db (OutboxCall.start shardOf) exec p (.go i e)
    · cases hnone.symm.trans hc
    · obtain ⟨rfl, rfl⟩ := Prod.mk.inj (Option.some.inj (hc'.symm.trans hc))
      exact hdb
  cases cmd with
  | markSent id now =>
    rintro rfl
    by_cases hsent : row.status = .sent
    · exact .inr hsent
    · refine .inl (hby i e _ row.id rfl hc rfl row hrow rfl ?_)
      rw [OutboxState.rewrite, if_pos rfl]
      exact Ne.symm hsent
  | markFailed id errorMessage maxAttempts =>
    rintro rfl
    by_cases hst : (p.db.rewrite e (.markFailed row.id errorMessage maxAttempts) row).status = row.status
    · -- the status is the old one: pending, for a row that has failed would be counted too far
      right
      have hle := hattempts _ (hdb ▸ OutboxState.rewrite_mem hrow)
      rw [OutboxState.rewrite, if_pos rfl] at hst hle
      simp only [OutboxRow.markFailed] at hst hle
      split at hst
      next =>
        have hmax := (h.rows row hrow).failed hst.symm
        omega
      next hlt => exact ⟨hst.symm, not_le.1 hlt⟩
    · exact .inl (hby i e _ row.id rfl hc rfl row hrow rfl hst)
  | reportUsage id =>
    exact fun hid => hrep e _ hc id rfl row hrow hid
  | _ => trivial

/-! ## Whole runs -/

theorem OutboxState.Keeps.refl (db : OutboxState) : db.Keeps db := fun row hrow => ⟨row, hrow, .refl row⟩

theorem OutboxState.Keeps.trans {db' db'' : OutboxState} (h : db.Keeps db') (h' : db'.Keeps db'') :
    db.Keeps db'' := by
  intro row hrow
  obtain ⟨row', hrow', hkeep⟩ := h row hrow
  obtain ⟨row'', hrow'', hkeep'⟩ := h' row' hrow'
  exact ⟨row'', hrow'', hkeep.trans hkeep'⟩

/-- **Delivery, exactly.** In a run of any calls of any number of processes, rows that are sent or have failed
stay so and are not touched again, attempts are counted up to `MAX_ATTEMPTS`, and outcomes are reported under
the claim they belong to, if and only if nothing is reported too late. -/
theorem deliversOnce_iff (shardOf : String → ℕ) (ms : List OutboxMove) :
    DeliversOnce shardOf ms ↔ Along (OutboxPool.step shardOf) InTime .init ms := by
  constructor
  · intro h
    refine (always_and_along_iff (I := Sound) (P := fun p => ∀ row ∈ p.db.rows, row.attempts ≤ MAX_ATTEMPTS)
      (R := fun p m => p.AtCommit ReportsUnsent m ∧ ByHolder p m) sound_init
      (fun p hp row hrow => (hp.rows row hrow).attempts)
      (fun p m hp hm => ⟨hp.step hm, hm.reportsUnsent, hm.byHolder⟩)
      fun p m hp hle hR => hp.inTime hle hR.1 hR.2).1 ⟨h.attempts, ?_⟩
    exact fun pre m hpre => ⟨h.reports pre m hpre, h.byHolder pre m hpre⟩
  · intro h
    have hI : Always (OutboxPool.step shardOf) Sound .init ms :=
      Always.of_step sound_init (fun p m hp hm => hp.step hm) h
    have hpre : ∀ pre m, pre ++ [m] <+: ms → Sound (run (OutboxPool.step shardOf) .init pre) :=
      fun pre m hpre => hI pre ((List.prefix_append _ _).trans hpre)
    refine ⟨?_, hI.mono fun p hp row hrow => (hp.rows row hrow).attempts, ?_, ?_, ?_, ?_⟩
    · refine (between_iff_along (fun p => .refl p.db) fun _ _ _ h h' => h.trans h').2 ?_
      exact fun pre m hm _ => (h pre m hm).keeps (hpre pre m hm)
    · exact fun pre m hm e cmd _ => claimsOpen (hpre pre m hm).keyed
    · exact h.mono fun p m hm => hm.reportsUnsent
    · exact hI.mono fun p hp id i j hi hj => hp.holder hi hj
    · exact h.mono fun p m hm => hm.byHolder

/-- The report of a worker takes longer than its claim lasts. Another worker requeues the row, claims it and
sends it. -/
def overtaken : List OutboxMove :=
  [.call (.enqueue ⟨0, "t", "c", "simulation", 1, some "s", 0⟩), .call (.flush 50 [0]), .go 0 (.at 0),
    .go 0 (.at 0), .go 1 (.at 0), .go 1 (.at 0), .go 1 (.at 0),
    .go 1 { Env.at 0 with failure := some "timeout" }, .call (.flush 50 [0]), .go 2 (.at 300001),
    .go 2 (.at 300001), .go 2 (.at 300001), .go 2 (.at 300001), .go 2 (.at 300001), .go 2 (.at 300001)]

/-- The first worker then notes that its report has failed: the row that is sent is pending again. -/
theorem sent_row_pending : ¬ ∀ shardOf ms, DeliversOnce shardOf ms := by
  intro h
  have hk := (h (fun _ => 0) (overtaken ++ [.go 1 (.at 300002)])).keeps overtaken [.go 1 (.at 300002)]
    (List.prefix_refl _) fun _ _ _ => trivial
  obtain ⟨row, hrow, hsent⟩ : ∃ row ∈ (run (OutboxPool.step fun _ => 0) .init overtaken).db.rows,
    row.status = .sent := by decide +kernel
  obtain ⟨row', hrow', hkeep⟩ := hk row hrow
  have hnone : ∀ row ∈ (run (OutboxPool.step fun _ => 0) .init (overtaken ++ [.go 1 (.at 300002)])).db.rows,
    row.status ≠ .sent := by decide +kernel
  exact hnone row' hrow' (hkeep.sent hsent)

end ChronoSynth.Metering

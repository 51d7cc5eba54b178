import ChronoSynth.Lease.PersonaLeaseStore

/-!
# Leases exclude one another

A log beside the table says what the database has granted to which token, what each token has been granted
and has not given back, and which handles have been returned. The leases are **exclusive** if at most one
token has an unexpired one in a scope, and a handle is **backed** if its expiry is no later than one that
was granted to its token (`LeasesHold`).

The table keeps the first part by itself. A handle, though, is completed by a second command, and until
then the lease may have expired, been taken over and given back: the handle then shows the expiry of
another holder's lease, or one by the caller's clock. Leases hold in exactly the runs in which this does
not happen (`leasesHold_iff`).
-/

namespace ChronoSynth.Lease

/-! ## The log of a run -/

structure LeaseLog where
  /-- The tokens with the expiries the database has granted to them. -/
  granted : List (ℕ × ℚ)
  /-- What a token has been granted last in a scope, if it has not been given back. -/
  held : LeaseScope → ℕ → Option ℚ
  /-- The handles that have been returned. -/
  issued : List LeaseHandle

namespace LeaseLog

def empty : LeaseLog := ⟨[], fun _ _ => none, []⟩

def grant (log : LeaseLog) (scope : LeaseScope) (token : ℕ) (expiry : ℚ) : LeaseLog :=
  { log with
    granted := log.granted ++ [(token, expiry)]
    held := Function.update log.held scope (Function.update (log.held scope) token (some expiry)) }

def giveBack (log : LeaseLog) (scope : LeaseScope) (token : ℕ) : LeaseLog :=
  { log with held := Function.update log.held scope (Function.update (log.held scope) token none) }

/-- What a command that had an effect adds. -/
def note (log : LeaseLog) (db : LeaseDb) : LeaseCmd → LeaseLog
  | .acquire scope _ ttlMs =>
    if db.Free scope then log.grant scope db.tokens (db.expiry ttlMs) else log
  | .release scope token => if db.HeldBy scope token then log.giveBack scope token else log
  | .refresh scope token ttlMs =>
    if db.Live scope token then log.grant scope token (db.expiry ttlMs) else log
  | .get scope handle => { log with issued := log.issued ++ [handle.confirm (db.rows scope)] }

def write (log : LeaseLog) (elapsed : ℕ) (cmd : LeaseCmd) (db : LeaseDb) : LeaseLog :=
  log.note (db.wait elapsed) cmd

/-- Some expiry that was granted to the token is no earlier. -/
def Covers (log : LeaseLog) (token : ℕ) (expiry : ℚ) : Prop :=
  ∃ e, (token, e) ∈ log.granted ∧ expiry ≤ e

instance (log : LeaseLog) (token : ℕ) (expiry : ℚ) : Decidable (log.Covers token expiry) :=
  decidable_of_iff (∃ g ∈ log.granted, g.1 = token ∧ expiry ≤ g.2)
    ⟨fun ⟨g, hg, ht, hle⟩ => ⟨g.2, ht ▸ hg, hle⟩, fun ⟨e, he, hle⟩ => ⟨(token, e), he, rfl, hle⟩⟩

end LeaseLog

/-- The calls in progress, and the log. -/
abbrev LeaseRun := LeasePool × LeaseLog

def LeaseRun.step : LeaseRun → LeaseMove → LeaseRun :=
  noting (Pool.step LeaseCall.start exec) (Pool.logging LeaseLog.write)

def LeaseRun.init (clock : ℤ) : LeaseRun := (Pool.idle (.empty clock), .empty)

/-! ## What is claimed -/

/-- At most one token of a scope has an unexpired lease, and every handle is backed. -/
structure LeasesExclusive (db : LeaseDb) (log : LeaseLog) : Prop where
  exclusive : ∀ scope token token' expiry expiry', log.held scope token = some expiry →
    log.held scope token' = some expiry' → (db.clock : ℚ) < expiry → (db.clock : ℚ) < expiry' →
    token = token'
  backed : ∀ handle ∈ log.issued, log.Covers handle.holderToken handle.expiresAt

/-- An acquisition that succeeds finds no unexpired lease in its scope. -/
def AcquiresFree (log : LeaseLog) (elapsed : ℕ) (cmd : LeaseCmd) (db : LeaseDb) : Prop :=
  ∀ scope acquiredAt ttlMs, cmd = .acquire scope acquiredAt ttlMs →
    (exec elapsed cmd db).2.rowsAffected = 1 → ∀ token expiry, log.held scope token = some expiry →
      expiry ≤ (exec elapsed cmd db).1.clock

/-- A release or a refresh with a token leaves the leases of the other tokens alone. -/
def SparesOthers (_ : LeaseLog) (elapsed : ℕ) (cmd : LeaseCmd) (db : LeaseDb) : Prop :=
  ∀ scope token, (cmd = .release scope token ∨ ∃ ttlMs, cmd = .refresh scope token ttlMs) →
    ∀ scope' row, row.holderToken ≠ token → db.rows scope' = some row →
      (exec elapsed cmd db).1.rows scope' = some row

structure LeasesHold (clock : ℤ) (ms : List LeaseMove) : Prop where
  states : Always LeaseRun.step (fun x => LeasesExclusive x.1.db x.2) (.init clock) ms
  acquired : Along LeaseRun.step (fun x m => x.1.AtCommit (AcquiresFree x.2) m) (.init clock) ms
  others : Along LeaseRun.step (fun x m => x.1.AtCommit (SparesOthers x.2) m) (.init clock) ms

/-- When a handle is completed, the lease that is read back is its own; or it is another holder's that
ends no later than one its token was granted before; or there is none, and neither does the caller's own
reckoning end later. -/
def ReadsBack (log : LeaseLog) (_ : ℕ) (cmd : LeaseCmd) (db : LeaseDb) : Prop :=
  match cmd with
  | .get scope handle =>
    match db.rows scope with
    | some row => row.holderToken = handle.holderToken ∨ log.Covers handle.holderToken row.expiresAt
    | none => log.Covers handle.holderToken handle.expiresAt
  | _ => True

/-! ## The invariant -/

variable {log : LeaseLog} {db : LeaseDb} {scope : LeaseScope} {token : ℕ} {expiry ttlMs : ℚ}
  {cmd : LeaseCmd}

/-- Whatever a token holds is in the table or has expired, and what is in the table was granted. -/
structure Recorded (db : LeaseDb) (log : LeaseLog) : Prop where
  row_token : ∀ scope row, db.rows scope = some row → row.holderToken < db.tokens
  held_token : ∀ scope token expiry, log.held scope token = some expiry → token < db.tokens
  held : ∀ scope token expiry, log.held scope token = some expiry →
    (∃ row, db.rows scope = some row ∧ row.holderToken = token ∧ row.expiresAt = expiry) ∨
      expiry ≤ db.clock
  granted : ∀ scope row, db.rows scope = some row → (row.holderToken, row.expiresAt) ∈ log.granted
  backed : ∀ handle ∈ log.issued, log.Covers handle.holderToken handle.expiresAt

theorem recorded_empty (clock : ℤ) : Recorded (.empty clock) .empty := by
  constructor <;> simp [LeaseDb.empty, LeaseLog.empty]

/-- Two unexpired leases of a scope are both the row. -/
theorem Recorded.exclusive (h : Recorded db log) : LeasesExclusive db log := by
  refine ⟨?_, h.backed⟩
  intro scope token token' expiry expiry' he he' hlt hlt'
  obtain ⟨row, hrow, rfl, -⟩ | hle := h.held scope token expiry he
  · obtain ⟨row', hrow', rfl, -⟩ | hle' := h.held scope token' expiry' he'
    · rw [hrow] at hrow'
      rw [Option.some.inj hrow']
    · exact absurd hlt' (not_lt.2 hle')
  · exact absurd hlt (not_lt.2 hle)

/-- Time passes. -/
theorem Recorded.wait (h : Recorded db log) (elapsed : ℕ) : Recorded (db.wait elapsed) log := by
  refine ⟨h.row_token, h.held_token, ?_, h.granted, h.backed⟩
  intro scope token expiry he
  refine (h.held scope token expiry he).imp_right fun hle => hle.trans ?_
  exact_mod_cast le_add_of_nonneg_right (Int.natCast_nonneg elapsed)

theorem LeaseLog.Covers.grant (h : log.Covers token expiry) (scope : LeaseScope) (token' : ℕ)
    (expiry' : ℚ) : (log.grant scope token' expiry').Covers token expiry := by
  obtain ⟨e, he, hle⟩ := h
  exact ⟨e, List.mem_append_left _ he, hle⟩

/-- In a scope whose other leases have all expired, the row is replaced and what a token holds is what
is in the row. -/
theorem Recorded.grant (h : Recorded db log) {db' : LeaseDb} (row : PersonaLease)
    (htokens : db.tokens ≤ db'.tokens) (hclock : db'.clock = db.clock)
    (hrows : db'.rows = Function.update db.rows scope (some row)) (hlt : row.holderToken < db'.tokens)
    (hfree : ∀ r, db.rows scope = some r → r.holderToken ≠ row.holderToken → r.expiresAt ≤ db.clock) :
    Recorded db' (log.grant scope row.holderToken row.expiresAt) := by
  refine ⟨?_, ?_, ?_, ?_, ?_⟩
  · intro scope' r hr
    rw [hrows] at hr
    by_cases hs : scope' = scope
    · subst hs
      rw [Function.update_self] at hr
      rwa [← Option.some.inj hr]
    · rw [Function.update_of_ne hs] at hr
      exact (h.row_token scope' r hr).trans_le htokens
  · intro scope' token expiry he
    by_cases hs : scope' = scope
    · subst hs
      by_cases ht : token = row.holderToken
      · rwa [ht]
      · simp only [LeaseLog.grant, Function.update_self, Function.update_of_ne ht] at he
        exact (h.held_token scope' token expiry he).trans_le htokens
    · simp only [LeaseLog.grant, Function.update_of_ne hs] at he
      exact (h.held_token scope' token expiry he).trans_le htokens
  · intro scope' token expiry he
    rw [hrows, hclock]
    by_cases hs : scope' = scope
    · subst hs
      by_cases ht : token = row.holderToken
      · subst ht
        simp only [LeaseLog.grant, Function.update_self, Option.some.injEq] at he
        exact .inl ⟨row, by simp, rfl, he⟩
      · simp only [LeaseLog.grant, Function.update_self, Function.update_of_ne ht] at he
        obtain ⟨r, hr, rfl, rfl⟩ | hle := h.held scope' token expiry he
        · exact .inr (hfree r hr ht)
        · exact .inr hle
    · simp only [LeaseLog.grant, Function.update_of_ne hs] at he
      rw [Function.update_of_ne hs]
      exact h.held scope' token expiry he
  · intro scope' r hr
    rw [hrows] at hr
    by_cases hs : scope' = scope
    · subst hs
      rw [Function.update_self] at hr
      rw [← Option.some.inj hr]
      exact List.mem_append_right _ (List.mem_singleton_self _)
    · rw [Function.update_of_ne hs] at hr
      exact List.mem_append_left _ (h.granted scope' r hr)
  · intro handle hmem
    exact (h.backed handle hmem).grant _ _ _

theorem Recorded.release (h : Recorded db log) (hrow : db.HeldBy scope token) :
    Recorded (db.set scope none) (log.giveBack scope token) := by
  obtain ⟨row, hrow, htoken⟩ := hrow
  refine ⟨?_, ?_, ?_, ?_, h.backed⟩
  · intro scope' r hr
    by_cases hs : scope' = scope
    · simp [LeaseDb.set, hs] at hr
    · rw [LeaseDb.set_rows_of_ne hs] at hr
      exact h.row_token scope' r hr
  · intro scope' t expiry he
    by_cases hs : scope' = scope
    · subst hs
      by_cases ht : t = token
      · simp [LeaseLog.giveBack, ht] at he
      · simp only [LeaseLog.giveBack, Function.update_self, Function.update_of_ne ht] at he
        exact h.held_token scope' t expiry he
    · simp only [LeaseLog.giveBack, Function.update_of_ne hs] at he
      exact h.held_token scope' t expiry he
  · intro scope' t expiry he
    by_cases hs : scope' = scope
    · subst hs
      by_cases ht : t = token
      · simp [LeaseLog.giveBack, ht] at he
      · -- what another token holds here is not the row, and has expired
        simp only [LeaseLog.giveBack, Function.update_self, Function.update_of_ne ht] at he
        obtain ⟨r, hr, rfl, -⟩ | hle := h.held scope' t expiry he
        · rw [hrow] at hr
          obtain rfl := Option.some.inj hr
          exact absurd htoken ht
        · exact .inr hle
    · simp only [LeaseLog.giveBack, Function.update_of_ne hs] at he
      rw [LeaseDb.set_rows_of_ne hs]
      exact h.held scope' t expiry he
  · intro scope' r hr
    by_cases hs : scope' = scope
    · simp [LeaseDb.set, hs] at hr
    · rw [LeaseDb.set_rows_of_ne hs] at hr
      exact h.granted scope' r hr

theorem confirm_covered (h : Recorded db log) {handle : LeaseHandle} :
    log.Covers handle.holderToken (handle.confirm (db.rows scope)).expiresAt ↔
      ReadsBack log 0 (.get scope handle) db := by
  cases hrow : db.rows scope with
  | none => simp [ReadsBack, LeaseHandle.confirm, hrow]
  | some row =>
    simp only [ReadsBack, LeaseHandle.confirm, hrow, Option.map_some, Option.getD_some]
    refine ⟨.inr, fun hor => hor.elim (fun he => ?_) id⟩
    rw [← he]
    exact ⟨row.expiresAt, h.granted scope row hrow, le_rfl⟩

/-- **Step lemma**, at the time the clock shows. -/
theorem Recorded.apply (h : Recorded db log) (hr : ReadsBack log 0 cmd db) :
    Recorded (db.apply cmd).1 (log.note db cmd) := by
  cases cmd with
  | acquire scope acquiredAt ttlMs =>
    have hdrawn : Recorded { db with tokens := db.tokens + 1 } log :=
      ⟨fun s r hr => Nat.lt_succ_of_lt (h.row_token s r hr),
        fun s t e he => Nat.lt_succ_of_lt (h.held_token s t e he), h.held, h.granted, h.backed⟩
    simp only [LeaseDb.apply, LeaseLog.note]
    split
    next hfree =>
      exact h.grant ⟨db.tokens, acquiredAt, db.expiry ttlMs⟩ (Nat.le_succ _) rfl rfl
        (Nat.lt_succ_self _) fun r hr _ => hfree r hr
    next => exact hdrawn
  | release scope token =>
    simp only [LeaseDb.apply, LeaseLog.note]
    split
    next hrow => exact h.release hrow
    next => exact h
  | refresh scope token ttlMs =>
    simp only [LeaseDb.apply, LeaseLog.note]
    split
    next hlive =>
      obtain ⟨row, hrow, rfl, -⟩ := hlive
      refine h.grant { row with expiresAt := db.expiry ttlMs } le_rfl rfl ?_
        (h.row_token scope row hrow) ?_
      · rw [LeaseDb.set, hrow]
        rfl
      · intro r hr hne
        rw [hrow] at hr
        exact absurd (Option.some.inj hr ▸ rfl) hne
    next => exact h
  | get scope handle =>
    refine ⟨h.row_token, h.held_token, h.held, h.granted, ?_⟩
    intro handle' hmem
    rcases List.mem_append.1 hmem with hmem | hmem
    · exact h.backed handle' hmem
    · rw [List.mem_singleton.1 hmem]
      exact (confirm_covered h).2 hr

theorem Recorded.acquiresFree (h : Recorded db log) {elapsed : ℕ} :
    AcquiresFree log elapsed cmd db := by
  rintro scope acquiredAt ttlMs rfl hone token expiry he
  simp only [exec, LeaseDb.apply] at hone ⊢
  split at hone
  next hfree =>
    rw [if_pos hfree]
    obtain ⟨row, hrow, -, rfl⟩ | hle := (h.wait elapsed).held scope token expiry he
    · exact hfree row hrow
    · exact hle
  next => cases hone

theorem sparesOthers (log : LeaseLog) (elapsed : ℕ) (cmd : LeaseCmd) (db : LeaseDb) :
    SparesOthers log elapsed cmd db := by
  rintro scope token (rfl | ⟨ttlMs, rfl⟩) scope' row hne hrow
  · simp only [exec, LeaseDb.apply]
    split
    next hheld =>
      obtain ⟨r, hr, rfl⟩ := hheld
      have hs : scope' ≠ scope := by
        rintro rfl
        exact hne (congrArg PersonaLease.holderToken (Option.some.inj (hrow.symm.trans hr)))
      exact (LeaseDb.set_rows_of_ne hs).trans hrow
    next => exact hrow
  · simp only [exec, LeaseDb.apply]
    split
    next hlive =>
      obtain ⟨r, hr, rfl, -⟩ := hlive
      have hs : scope' ≠ scope := by
        rintro rfl
        exact hne (congrArg PersonaLease.holderToken (Option.some.inj (hrow.symm.trans hr)))
      exact (LeaseDb.set_rows_of_ne hs).trans hrow
    next => exact hrow

/-! ## Whole runs -/

/-- **Leases hold, exactly.** In a run of any holders' calls from the empty table, at most one token of a
scope ever has an unexpired lease, no acquisition succeeds beside one, releases and refreshes spare the
leases of other tokens, and every handle is backed, if and only if every handle is completed from its own
lease, or from an expiry no later than one granted to its token. -/
theorem leasesHold_iff (clock : ℤ) (ms : List LeaseMove) :
    LeasesHold clock ms ↔
      Along LeaseRun.step (fun x m => x.1.AtCommit (ReadsBack x.2) m) (.init clock) ms := by
  constructor
  · intro h
    refine (Pool.always_iff_log (C := ReadsBack) (recorded_empty clock) (fun _ _ h => h.exclusive)
      (fun elapsed _ _ _ h hr => (h.wait elapsed).apply hr) ?_).1 h.states
    intro elapsed cmd db log h hP
    cases cmd with
    | get scope handle =>
      -- the handle has just been returned
      have hb : log.Covers handle.holderToken (handle.confirm ((db.wait elapsed).rows scope)).expiresAt :=
        hP.backed (handle.confirm _) (List.mem_append_right _ (List.mem_singleton_self _))
      exact (confirm_covered (h.wait elapsed)).1 hb
    | _ => trivial
  · intro hC
    have hI : Always LeaseRun.step (fun x => Recorded x.1.db x.2) (.init clock) ms :=
      Pool.always_of_log (recorded_empty clock) (fun elapsed _ _ _ h hr => (h.wait elapsed).apply hr) hC
    refine ⟨hI.mono fun x h => h.exclusive, ?_, ?_⟩
    · intro pre m hpre elapsed cmd _
      exact (hI pre ((List.prefix_append _ _).trans hpre)).acquiresFree
    · intro pre m _ elapsed cmd _
      exact sparesOthers _ _ _ _

/-- A holder is held up between its acquisition and the reading back; its lease expires and is taken over:
the first handle shows the expiry of the second lease. -/
theorem handle_of_another_lease : ¬ ∀ clock ms, LeasesHold clock ms := by
  intro h
  have hb := (h 0 [.call (.acquire ⟨"t", "p", .earning⟩ 0 10), .call (.acquire ⟨"t", "p", .earning⟩ 10 50),
    .go 0 0, .go 1 10, .go 0 0]).states.last.backed ⟨⟨"t", "p", .earning⟩, 0, 60⟩ (by decide +kernel)
  exact absurd hb (by decide +kernel)

end ChronoSynth.Lease

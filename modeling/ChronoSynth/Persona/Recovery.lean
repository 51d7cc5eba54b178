import ChronoSynth.Persona.Sessions

/-!
# One retry for each expiry

Several replicas recover sessions at the same time. Each scans for sessions whose timeout has passed
and then updates them one by one, if they are still in the state it has seen. Every expiry is to be
answered at most once (`OneRetryPerExpiry`).

To say which expiry an update answers, the timeouts of a session are counted: `History.leases` is how
often the timeout of a session has been written, `History.scans` which of its timeouts a call has seen
expired, and `History.recoveries` lists the updates of the recovery that have found their session. A
retried session goes back to PLAN, where it can be seen expired in turn, so that the state does not tell
one timeout from the next: the updates are right exactly if none finds the state it expects after the
timeout has been written again (`ScanHolds`).
-/

namespace ChronoSynth.Persona

variable {env : Env} {t : Tx} {db db' : TenantDb} {s : RuntimeSession}

/-! ## The history of a run -/

/-- The session a transaction of the recovery is for, the state it expects, and whether it is to be
tried again. -/
def Tx.recovers : Tx → Option (Id × RuntimeSessionState × Bool)
  | .retryRuntimeSession k _ expectedState _ => some (k, expectedState, true)
  | .timeoutRuntimeSession k expectedState => some (k, expectedState, false)
  | _ => none

/-- The session whose timeout a transaction writes. -/
def Tx.leases (db : TenantDb) : Tx → Option Id
  | .completeRuntimeSession k => some k
  | .retryRuntimeSession k _ expectedState _ | .timeoutRuntimeSession k expectedState =>
    if ∃ s ∈ db.sessions, s.id = k ∧ s.state = expectedState then some k else none
  | t => t.renews.map fun r => r.1

/-- An update of the recovery that has found its session. -/
structure Recovery where
  session : Id
  /-- The timeout the scan of its call has seen expired. -/
  seen : Option ℕ
  /-- The timeout the session had when it was updated. -/
  found : ℕ
  /-- Whether the session is tried again, or given up. -/
  retried : Bool
  /-- The retries of the session so far. -/
  retryCount : ℕ
  /-- The retries its call allows. -/
  maxRetries : ℕ
  deriving DecidableEq, Repr

/-- What has happened to the timeouts of the sessions. -/
structure History where
  /-- How often the timeout of a session has been written. -/
  leases : Id → ℕ
  /-- The timeout of a session that a call has seen expired at its last read. -/
  scans : ℕ → Id → Option ℕ
  /-- The updates of the recovery, in their order. -/
  recoveries : List Recovery

/-- The timeout of a session has passed. -/
def Expired (env : Env) (db : TenantDb) (k : Id) : Prop :=
  ∃ s ∈ db.sessions, s.id = k ∧ s.timeoutAt.any fun t => t ≤ env.dbNow

instance (k : Id) : Decidable (Expired env db k) :=
  inferInstanceAs (Decidable (∃ s ∈ db.sessions, _))

namespace History

/-- The `i`-th call reads. -/
def scan (h : History) (env : Env) (db : TenantDb) (i : ℕ) : History :=
  { h with scans := Function.update h.scans i fun k =>
      if Expired env db k then some (h.leases k) else none }

/-- What the `i`-th call adds to the updates of the recovery. -/
def recovery (h : History) (db : TenantDb) (i : ℕ) (c : Call) (t : Tx) : Option Recovery :=
  match c, t.recovers with
  | .recoverTimedOutRuntimeSessions input, some (k, expectedState, retried) =>
    (db.sessions.find? fun s => s.id = k ∧ s.state = expectedState).map fun s =>
      ⟨k, h.scans i k, h.leases k, retried, s.retryCount, input.maxRetries⟩
  | _, _ => none

/-- The `i`-th call has a transaction executed. -/
def write (h : History) (db : TenantDb) (i : ℕ) (c : Call) (t : Tx) : History :=
  { h with
    leases := fun k => if t.leases db = some k then h.leases k + 1 else h.leases k
    recoveries := h.recoveries ++ (h.recovery db i c t).toList }

/-- One step of the calls is noted. -/
def note (p : PersonaPool) (h : History) : PersonaMove → History
  | .call _ => h
  | .go i env =>
    match p.threads[i]? with
    | some ⟨_, _, .read _⟩ => h.scan env p.db i
    | some ⟨c, _, .txn t _⟩ => h.write p.db i c t
    | _ => h

/-- Nothing has happened. -/
def empty : History := ⟨fun _ => 0, fun _ _ => none, []⟩

end History

/-- The calls in progress, and what has happened. -/
abbrev WatchedPool := PersonaPool × History

def WatchedPool.step : WatchedPool → PersonaMove → WatchedPool := noting PersonaPool.step History.note

def WatchedPool.init (users : List Id) : WatchedPool := (PersonaPool.init users, .empty)

/-- How often a session was tried again. -/
def retriesOf (recoveries : List Recovery) (k : Id) : ℕ :=
  recoveries.countP fun r => r.session = k ∧ r.retried

/-- Every expiry is answered at most once, a session whose timeout was renewed is left alone, the
retries of a session are the answers that retried it, and none is given up before it has been retried
as often as is allowed. -/
structure OneRetryPerExpiry (x : WatchedPool) : Prop where
  once : (x.2.recoveries.map fun r => (r.session, r.seen)).Nodup
  renewed : ∀ r ∈ x.2.recoveries, r.seen = some r.found
  retryCount : ∀ s ∈ x.1.db.sessions, s.retryCount = retriesOf x.2.recoveries s.id
  givenUp : ∀ r ∈ x.2.recoveries, ¬ r.retried → r.maxRetries ≤ r.retryCount

/-- An update of the recovery that finds the state it expects finds the timeout that its scan has seen
expired. -/
def ScanHolds (x : WatchedPool) : PersonaMove → Prop
  | .call _ => True
  | .go i env => ∀ o t, x.1.committing (.go i env) = some (o, t) →
    ∀ k state retried, t.recovers = some (k, state, retried) →
      (∃ s ∈ x.1.db.sessions, s.id = k ∧ s.state = state) → ∀ n ∈ x.2.scans i k, x.2.leases k = n

theorem watch_cases (x : WatchedPool) (m : PersonaMove) :
    (∃ c, x.step m = ({ x.1 with threads := x.1.threads ++ [⟨c, [], start c⟩] }, x.2)) ∨
    x.step m = x ∨
    (∃ i env c l f, m = .go i env ∧ x.1.threads[i]? = some ⟨c, l, .read f⟩ ∧
      x.step m = ({ x.1 with threads := x.1.threads.set i ⟨c, l, f env x.1.db⟩ },
        x.2.scan env x.1.db i)) ∨
    (∃ i env c l t k, m = .go i env ∧ x.1.threads[i]? = some ⟨c, l, .txn t k⟩ ∧
      x.1.committing m = some (env, t) ∧
      x.step m = (⟨(exec env t x.1.db).1, x.1.threads.set i
        ⟨c, l ++ [(t, (exec env t x.1.db).2)], k (exec env t x.1.db).2⟩⟩, x.2.write x.1.db i c t)) := by
  cases m with
  | call c => exact .inl ⟨c, rfl⟩
  | go i env =>
    have hstep : WatchedPool.step x (.go i env) = (x.1.step (.go i env), x.2.note x.1 (.go i env)) := rfl
    rw [hstep, PersonaPool.step, Pool.step, History.note, Pool.committing]
    cases hi : x.1.threads[i]? with
    | none => exact .inr (.inl rfl)
    | some th =>
      obtain ⟨c, l, q⟩ := th
      cases q with
      | ret a | throw e => exact .inr (.inl rfl)
      | read f => exact .inr (.inr (.inl ⟨i, env, c, l, f, rfl, hi, rfl⟩))
      | txn t k => exact .inr (.inr (.inr ⟨i, env, c, l, t, k, rfl, hi, rfl, rfl⟩))

/-! ## What a recovery does after its scan -/

/-- The `i`-th call only writes to sessions it has seen expired, and gives up only those that have been
tried again as often as is allowed. -/
def Follows (db : TenantDb) (scan : Id → Option ℕ) (input : RecoverInput) (t : Tx) : Prop :=
  ∀ k state retried, t.recovers = some (k, state, retried) → (scan k).isSome ∧
    (¬ retried → ∃ s ∈ db.sessions, s.id = k ∧ input.maxRetries ≤ s.retryCount)

theorem recoverSessions_follows (input : RecoverInput) {scan : Id → Option ℕ}
    {sessions : List RuntimeSession} (outcome : RecoverOutcome)
    (h : ∀ s ∈ sessions, s ∈ db.sessions ∧ (scan s.id).isSome) :
    (recoverSessions input sessions outcome).Blind (Follows db scan input) := by
  induction sessions generalizing outcome with
  | nil => trivial
  | cons session rest ih =>
    have hrest := fun outcome => ih outcome fun s hs => h s (List.mem_cons_of_mem _ hs)
    obtain ⟨hmem, hscan⟩ := h session List.mem_cons_self
    rw [recoverSessions]
    split
    next => exact hrest _
    next =>
    split
    next =>
      refine ⟨?_, fun r => ?_⟩
      · rintro _ _ _ ⟨⟩
        exact ⟨hscan, fun hr => absurd rfl hr⟩
      · dsimp only [Prog.bind]
        split
        · trivial
        · exact hrest _
        · exact hrest _
    next hretry =>
      refine ⟨?_, fun r => ?_⟩
      · rintro _ _ _ ⟨⟩
        refine ⟨hscan, fun _ => ⟨session, hmem, rfl, ?_⟩⟩
        simpa [shouldRetryRuntimeSession] using hretry
      · dsimp only [Prog.bind]
        split
        · trivial
        · exact hrest _
        · exact hrest _

theorem start_follows (input : RecoverInput) {h : History} {i : ℕ}
    {f : Env → TenantDb → ServiceCall Answer}
    (hf : start (.recoverTimedOutRuntimeSessions input) = .read f) :
    (f env db).Blind (Follows db ((h.scan env db i).scans i) input) := by
  cases hf
  have hrows : ∀ s ∈ getTimedOutRuntimeSessions env db (input.limit.getD 100),
      s ∈ db.sessions ∧ ((h.scan env db i).scans i s.id).isSome := by
    intro s hs
    have hs := List.mem_of_mem_take hs
    rw [List.mem_mergeSort, List.mem_filter, decide_eq_true_eq] at hs
    obtain ⟨hmem, hexpired, -⟩ := hs
    have hk : Expired env db s.id := ⟨s, hmem, rfl, hexpired⟩
    exact ⟨hmem, by simp [History.scan, hk]⟩
  have hrec := fun outcome => recoverSessions_follows input outcome hrows
  exact ((hrec _).bind (g := fun o => .ret (some o)) fun _ => trivial).bind fun _ => trivial

/-- Retries are not taken back. -/
theorem exec_retryCount_le {k : Id} {n : ℕ} (h : ∃ s ∈ db.sessions, s.id = k ∧ n ≤ s.retryCount) :
    ∃ s ∈ (exec env t db).1.sessions, s.id = k ∧ n ≤ s.retryCount := by
  have hw := exec_sessionWrite env t db
  generalize (exec env t db).1.sessions = rows at hw ⊢
  cases hw with
  | create p x a ms =>
    obtain ⟨s, hs, hk⟩ := h
    exact ⟨s, List.mem_append_left _ hs, hk⟩
  | renew | complete | timeout => exact Table.exists_mem_update h fun _ _ h => h
  | retry k' st st' ms =>
    exact Table.exists_mem_update h fun _ _ h => ⟨h.1, h.2.trans (Nat.le_succ _)⟩
  | none => exact h

/-! ## The invariant -/

/-- What always holds: each call that has made its scan follows it, and the recoveries account for the
retries. -/
structure Accounted (x : WatchedPool) : Prop where
  numbered : x.1.db.Numbered
  hands : x.1.Uses Call.MayHand
  follows : ∀ i input l q, x.1.threads[i]? = some ⟨.recoverTimedOutRuntimeSessions input, l, q⟩ →
    q = start (.recoverTimedOutRuntimeSessions input) ∨
      q.Blind (Follows x.1.db (x.2.scans i) input)
  known : ∀ r ∈ x.2.recoveries, ∃ s ∈ x.1.db.sessions, s.id = r.session
  retryCount : ∀ s ∈ x.1.db.sessions, s.retryCount = retriesOf x.2.recoveries s.id
  givenUp : ∀ r ∈ x.2.recoveries, ¬ r.retried → r.maxRetries ≤ r.retryCount

section
variable {h : History} {i : ℕ} {c : Call} {r : Recovery}

theorem History.recovery_spec (hr : h.recovery db i c t = some r) : ∃ input state,
    c = .recoverTimedOutRuntimeSessions input ∧ t.recovers = some (r.session, state, r.retried) ∧
    (∃ s ∈ db.sessions, s.id = r.session ∧ s.state = state ∧ s.retryCount = r.retryCount) ∧
    r.seen = h.scans i r.session ∧ r.found = h.leases r.session ∧
    r.maxRetries = input.maxRetries := by
  unfold History.recovery at hr
  split at hr
  next input k state retried ht =>
    obtain ⟨s, hs, rfl⟩ := Option.map_eq_some_iff.1 hr
    obtain ⟨hmem, hk, hstate⟩ := Table.find_spec hs
    exact ⟨input, state, rfl, ht, ⟨s, hmem, hk, hstate, rfl⟩, rfl, rfl, rfl⟩
  next => cases hr

theorem History.exists_recovery (hc : c.MayHand t) {k : Id} {state : RuntimeSessionState}
    {retried : Bool} (ht : t.recovers = some (k, state, retried))
    (hs : ∃ s ∈ db.sessions, s.id = k ∧ s.state = state) :
    ∃ r, h.recovery db i c t = some r ∧ r.session = k ∧ r.retried = retried := by
  obtain ⟨s, hmem, hk⟩ := hs
  have hfind : (db.sessions.find? fun s => s.id = k ∧ s.state = state).isSome :=
    List.find?_isSome.2 ⟨s, hmem, decide_eq_true hk⟩
  obtain ⟨s', hs'⟩ := Option.isSome_iff_exists.1 hfind
  obtain ⟨input, rfl⟩ : ∃ input, c = .recoverTimedOutRuntimeSessions input := by
    cases t <;> cases ht
    · exact hc.2.2
    · exact hc.2
  refine ⟨⟨k, h.scans i k, h.leases k, retried, s'.retryCount, input.maxRetries⟩, ?_, rfl, rfl⟩
  simp only [History.recovery, ht, hs', Option.map_some]

theorem Tx.recovers_eq_none {k : Id} {state : RuntimeSessionState} {ms : ℕ}
    (h : t.renews = some (k, state, ms)) : t.recovers = none := by
  cases t <;> first | rfl | cases h

theorem History.recovery_eq_none (ht : t.recovers = none) : h.recovery db i c t = none := by
  cases c <;> simp [History.recovery, ht]

theorem History.recovery_eq_none_of (ht : ∀ k state retried,
      t.recovers = some (k, state, retried) → ¬ ∃ s ∈ db.sessions, s.id = k ∧ s.state = state) :
    h.recovery db i c t = none := by
  cases hr : h.recovery db i c t with
  | none => rfl
  | some r =>
    obtain ⟨_, state, _, ht', ⟨s, hs, hk, hstate, _⟩, _⟩ := recovery_spec hr
    exact (ht _ _ _ ht' ⟨s, hs, hk, hstate⟩).elim

theorem retriesOf_append {rs : List Recovery} {k : Id} :
    retriesOf (rs ++ [r]) k = retriesOf rs k + if r.session = k ∧ r.retried then 1 else 0 := by
  simp [retriesOf, List.countP_append, List.countP_cons]

/-- The recoveries account for the retries after the transaction if they do before it. -/
theorem exec_retryCount (hn : db.Numbered) (hc : c.MayHand t)
    (hknown : ∀ r ∈ h.recoveries, ∃ s ∈ db.sessions, s.id = r.session)
    (hcount : ∀ s ∈ db.sessions, s.retryCount = retriesOf h.recoveries s.id) :
    ∀ s ∈ (exec env t db).1.sessions,
      s.retryCount = retriesOf (h.write db i c t).recoveries s.id := by
  have hw := exec_sessionWrite env t db
  generalize (exec env t db).1.sessions = rows at hw ⊢
  have hsame : h.recovery db i c t = none → (h.write db i c t).recoveries = h.recoveries := by
    intro hr
    rw [History.write, hr]
    exact List.append_nil _
  have hnew : ∀ r, h.recovery db i c t = some r →
      (h.write db i c t).recoveries = h.recoveries ++ [r] := by
    intro r hr
    rw [History.write, hr]
    rfl
  cases hw with
  | create p x a ms =>
    rw [hsame (History.recovery_eq_none rfl)]
    intro s hs
    rcases List.mem_append.1 hs with hs | hs
    · exact hcount s hs
    · obtain rfl := List.mem_singleton.1 hs
      refine (List.countP_eq_zero.2 fun r hr => ?_).symm
      obtain ⟨s, hs, hk⟩ := hknown r hr
      have hlt : r.session < db.sessions.length := hk ▸ hn.sessions.lt hs
      simp [RuntimeSession.create, hlt.ne]
  | renew ht =>
    rw [hsame (History.recovery_eq_none (Tx.recovers_eq_none ht))]
    exact Table.forall_mem_update hcount fun _ _ h => h
  | complete k =>
    rw [hsame (History.recovery_eq_none rfl)]
    exact Table.forall_mem_update hcount fun _ _ h => h
  | retry k st st' ms =>
    by_cases hs : ∃ s ∈ db.sessions, s.id = k ∧ s.state = st'
    · obtain ⟨r, hr, hk, hretried⟩ := History.exists_recovery (h := h) (i := i) hc rfl hs
      rw [hnew r hr]
      intro s' hs'
      obtain ⟨s, hmem, rfl⟩ := Table.mem_update.1 hs'
      rw [retriesOf_append, hk, hretried]
      split
      next hp =>
        rw [if_pos ⟨hp.1.symm, rfl⟩]
        exact congrArg (· + 1) (hcount s hmem)
      next hp =>
        -- only one session has this number
        have hne : k ≠ s.id := by
          rintro rfl
          obtain ⟨s₀, hs₀, hid, hstate⟩ := hs
          obtain rfl := hn.sessions.eq hs₀ hmem hid
          exact hp ⟨rfl, hstate⟩
        rw [if_neg fun h => hne h.1]
        exact hcount s hmem
    · have hnone : h.recovery db i c (.retryRuntimeSession k st st' ms) = none := by
        refine History.recovery_eq_none_of ?_
        rintro _ _ _ ⟨⟩
        exact hs
      rw [hsame hnone, Table.update_eq_self fun s hmem hp => hs ⟨s, hmem, hp⟩]
      exact hcount
  | timeout k st =>
    refine Table.forall_mem_update (fun s hmem => ?_) fun _ _ h => h
    cases hr : h.recovery db i c (.timeoutRuntimeSession k st) with
    | none =>
      rw [hsame hr]
      exact hcount s hmem
    | some r =>
      obtain ⟨_, _, _, ht, _⟩ := History.recovery_spec hr
      simp only [Tx.recovers, Option.some.injEq, Prod.mk.injEq] at ht
      rw [hnew r hr, retriesOf_append, ← ht.2.2]
      simpa using hcount s hmem
  | none ht =>
    have hrec : t.recovers = none := by
      cases t with
      | retryRuntimeSession | timeoutRuntimeSession => exact absurd (by simp [Tx.writes]) ht
      | _ => rfl
    rw [hsame (History.recovery_eq_none hrec)]
    exact hcount

end

theorem Accounted.init (users : List Id) : Accounted (.init users) where
  numbered := .fresh users
  hands := fun th hth => (List.not_mem_nil hth).elim
  follows := fun i input l q hi => by simp [WatchedPool.init, PersonaPool.init, Pool.idle] at hi
  known := fun r hr => (List.not_mem_nil hr).elim
  retryCount := fun s hs => (List.not_mem_nil hs).elim
  givenUp := fun r hr => (List.not_mem_nil hr).elim

/-- **Step lemma** for what always holds. -/
theorem Accounted.step {x : WatchedPool} (h : Accounted x) (m : PersonaMove) :
    Accounted (x.step m) := by
  have hhands : (x.1.step m).Uses Call.MayHand := h.hands.step start_hands
  obtain ⟨c, hx⟩ | hx | ⟨i, env, c, l, f, rfl, hi, hx⟩ | ⟨i, env, c, l, t, k, rfl, hi, hm, hx⟩ :=
    watch_cases x m
  · rw [hx]
    refine { h with hands := congrArg Prod.fst hx ▸ hhands, follows := fun j input l q hj => ?_ }
    rw [List.getElem?_append] at hj
    split at hj
    next => exact h.follows j input l q hj
    next =>
      have hnew := List.mem_singleton.1 (List.mem_of_getElem? hj)
      cases hnew
      exact .inl rfl
  · rw [hx]
    exact h
  · rw [hx]
    refine { h with hands := congrArg Prod.fst hx ▸ hhands, follows := fun j input l' q hj => ?_ }
    by_cases hij : i = j
    · subst hij
      rw [List.getElem?_set_self (List.getElem?_eq_some_iff.1 hi).1] at hj
      cases hj
      rcases h.follows i input l _ hi with hstart | hblind
      · exact .inr (start_follows input hstart.symm)
      · exact hblind.elim
    · rw [List.getElem?_set_ne hij] at hj
      have hscan : (x.2.scan env x.1.db i).scans j = x.2.scans j :=
        Function.update_of_ne (Ne.symm hij) _ _
      rw [hscan]
      exact h.follows j input l' q hj
  · rw [hx]
    have hc : c.MayHand t := (h.hands _ (List.mem_of_getElem? hi)).1
    -- a recovery that hands over a transaction has made its scan
    have hfollows : ∀ input, c = .recoverTimedOutRuntimeSessions input →
        (Prog.txn t k).Blind (Follows x.1.db (x.2.scans i) input) := by
      rintro input rfl
      exact (h.follows i input l _ hi).resolve_left nofun
    have hmono : ∀ scan input t', Follows x.1.db scan input t' →
        Follows (exec env t x.1.db).1 scan input t' := fun scan input t' ht' k st b hr =>
      ⟨(ht' k st b hr).1, fun hb => exec_retryCount_le ((ht' k st b hr).2 hb)⟩
    refine ⟨(exec_grows env t x.1.db).numbered_of h.numbered, congrArg Prod.fst hx ▸ hhands,
      fun j input l' q hj => ?_, fun r hr => ?_,
      exec_retryCount h.numbered hc h.known h.retryCount, fun r hr hgiven => ?_⟩
    · by_cases hij : i = j
      · subst hij
        rw [List.getElem?_set_self (List.getElem?_eq_some_iff.1 hi).1] at hj
        cases hj
        exact .inr (((hfollows input rfl).2 _).mono (hmono _ _))
      · rw [List.getElem?_set_ne hij] at hj
        exact (h.follows j input l' q hj).imp_right fun hb => hb.mono (hmono _ _)
    · have hold : ∃ s ∈ x.1.db.sessions, s.id = r.session := by
        rcases List.mem_append.1 hr with hr | hr
        · exact h.known r hr
        · obtain ⟨_, _, _, _, ⟨s, hs, hk, _⟩, _⟩ := History.recovery_spec (Option.mem_toList.1 hr)
          exact ⟨s, hs, hk⟩
      obtain ⟨s, hs, hk⟩ := hold
      obtain ⟨s', hs', hfixed⟩ := (exec_grows env t x.1.db).sessions.stay s hs
      exact ⟨s', hs', (congrArg Prod.fst hfixed).trans hk⟩
    · rcases List.mem_append.1 hr with hr | hr
      · exact h.givenUp r hr hgiven
      · obtain ⟨input, state, rfl, ht, ⟨s, hs, hk, -, hcount⟩, -, -, hmax⟩ :=
          History.recovery_spec (Option.mem_toList.1 hr)
        obtain ⟨s', hs', hk', hle⟩ := ((hfollows input rfl).1 _ _ _ ht).2 hgiven
        obtain rfl := h.numbered.sessions.eq hs' hs (hk'.trans hk.symm)
        rwa [hmax, ← hcount]

/-! ## Runs -/

/-- What holds as long as the scans do: each recovery has answered the timeout its scan has seen, which
has been written since, and no two have answered the same. -/
structure Answered (x : WatchedPool) : Prop where
  renewed : ∀ r ∈ x.2.recoveries, r.seen = some r.found
  past : ∀ r ∈ x.2.recoveries, r.found < x.2.leases r.session
  once : (x.2.recoveries.map fun r => (r.session, r.seen)).Nodup

theorem History.leases_of_recovery {h : History} {i : ℕ} {c : Call} {r : Recovery}
    (hr : h.recovery db i c t = some r) : t.leases db = some r.session := by
  obtain ⟨_, state, _, ht, ⟨s, hs, hk, hstate, _⟩, _⟩ := recovery_spec hr
  have hfound : ∃ s ∈ db.sessions, s.id = r.session ∧ s.state = state := ⟨s, hs, hk, hstate⟩
  cases t with
  | retryRuntimeSession k st st' ms =>
    simp only [Tx.recovers, Option.some.injEq, Prod.mk.injEq] at ht
    rw [Tx.leases, ht.1, ht.2.1, if_pos hfound]
  | timeoutRuntimeSession k st =>
    simp only [Tx.recovers, Option.some.injEq, Prod.mk.injEq] at ht
    rw [Tx.leases, ht.1, ht.2.1, if_pos hfound]
  | _ => cases ht

theorem Accounted.seen {x : WatchedPool} (h : Accounted x) {i : ℕ} {c : Call} {l : List (Tx × Reply)}
    {k : Reply → ServiceCall Answer} (hi : x.1.threads[i]? = some ⟨c, l, .txn t k⟩) {r : Recovery}
    (hr : x.2.recovery x.1.db i c t = some r) : ∃ n, r.seen = some n := by
  obtain ⟨input, state, rfl, ht, -, hseen, -⟩ := History.recovery_spec hr
  rcases h.follows i input l _ hi with hstart | hblind
  · cases hstart
  · obtain ⟨n, hn⟩ := Option.isSome_iff_exists.1 (hblind.1 _ _ _ ht).1
    exact ⟨n, hseen.trans hn⟩

/-- **Step lemma**: what is answered stays so as long as the scans hold. -/
theorem Answered.step {x : WatchedPool} {m : PersonaMove} (h : Answered x) (hx : Accounted x)
    (hm : ScanHolds x m) : Answered (x.step m) := by
  obtain ⟨c, hs⟩ | hs | ⟨i, env, c, l, f, rfl, hi, hs⟩ | ⟨i, env, c, l, t, k, rfl, hi, hc, hs⟩ :=
    watch_cases x m
  · rw [hs]
    exact { h with }
  · rwa [hs]
  · rw [hs]
    exact { h with }
  · rw [hs]
    have hle : ∀ k, x.2.leases k ≤ (x.2.write x.1.db i c t).leases k := by
      intro k
      dsimp only [History.write]
      split <;> omega
    cases hr : x.2.recovery x.1.db i c t with
    | none =>
      have hsame : (x.2.write x.1.db i c t).recoveries = x.2.recoveries := by
        rw [History.write, hr]
        exact List.append_nil _
      refine ⟨?_, ?_, ?_⟩
      all_goals rw [hsame]
      · exact h.renewed
      · exact fun r hr => (h.past r hr).trans_le (hle _)
      · exact h.once
    | some r =>
      have hnew : (x.2.write x.1.db i c t).recoveries = x.2.recoveries ++ [r] := by
        rw [History.write, hr]
        rfl
      -- the scan holds, so the timeout it has seen is the one that is there
      obtain ⟨n, hn⟩ := hx.seen hi hr
      obtain ⟨input, state, rfl, ht, ⟨s, hmem, hk, hstate, -⟩, hseen, hfound, -⟩ :=
        History.recovery_spec hr
      have hlease : x.2.leases r.session = n :=
        hm env t hc _ _ _ ht ⟨s, hmem, hk, hstate⟩ n (hseen.symm.trans hn)
      have hrenewed : r.seen = some r.found := by rw [hn, hfound, hlease]
      refine ⟨?_, ?_, ?_⟩
      all_goals rw [hnew]
      · intro r' hr'
        rcases List.mem_append.1 hr' with hr' | hr'
        · exact h.renewed r' hr'
        · rwa [List.mem_singleton.1 hr']
      · intro r' hr'
        rcases List.mem_append.1 hr' with hr' | hr'
        · exact (h.past r' hr').trans_le (hle _)
        · obtain rfl := List.mem_singleton.1 hr'
          simp [History.write, History.leases_of_recovery hr, hfound]
      · rw [List.map_append, List.map_singleton, List.nodup_append]
        refine ⟨h.once, List.nodup_singleton _, fun a ha b hb hab => ?_⟩
        obtain ⟨r', hr', rfl⟩ := List.mem_map.1 ha
        obtain rfl := List.mem_singleton.1 hb
        obtain ⟨hsession, hsame⟩ := Prod.mk.inj hab
        -- the earlier one has written the timeout since
        have hlt := h.past r' hr'
        rw [h.renewed r' hr', hrenewed, Option.some.injEq, hfound] at hsame
        rw [hsame, hsession] at hlt
        exact lt_irrefl _ hlt

/-- **Each expiry is answered once** in exactly the runs in which every update of the recovery that
finds the state it expects finds the timeout that its scan has seen. -/
theorem oneRetryPerExpiry_iff (users : List Id) (ms : List PersonaMove) :
    Always WatchedPool.step OneRetryPerExpiry (.init users) ms ↔
      Along WatchedPool.step ScanHolds (.init users) ms := by
  refine always_iff_along (I := fun x => Accounted x ∧ Answered x)
    ⟨.init users, nofun, nofun, List.nodup_nil⟩
    (fun x h => ⟨h.2.once, h.2.renewed, h.1.retryCount, h.1.givenUp⟩)
    (fun x m h hm => ⟨h.1.step m, h.2.step h.1 hm⟩) fun x m h hP => ?_
  cases m with
  | call c => trivial
  | go i env =>
    intro o t hc k state retried ht hfound n hn
    obtain ⟨rfl, c, l, q, hi⟩ := Pool.committing_go hc
    have hhands : c.MayHand t := (h.1.hands _ (List.mem_of_getElem? hi)).1
    obtain ⟨r, hr, hk, -⟩ := History.exists_recovery (h := x.2) (i := i) hhands ht hfound
    have hmem : r ∈ (x.step (.go i env)).2.recoveries := by
      have hnote : (x.step (.go i env)).2 = x.2.write x.1.db i c t := by
        change x.2.note x.1 (.go i env) = _
        rw [History.note, hi]
      rw [hnote]
      exact List.mem_append_right _ (Option.mem_toList.2 hr)
    obtain ⟨_, _, -, -, -, hseen, hlease, -⟩ := History.recovery_spec hr
    have hrenewed := hP.renewed r hmem
    rw [hseen, hlease, hk, hn] at hrenewed
    exact (Option.some.inj hrenewed).symm

/-- Two replicas scan a session whose timeout has passed in PLAN. The first retries it, which takes it
back to PLAN; the second retries it again. -/
theorem retried_twice :
    ¬ Always WatchedPool.step OneRetryPerExpiry (.init [1, 2])
      ([.call (.createPersona ⟨1⟩), .call (.publishTask ⟨2, 5, none⟩),
        .call (.acceptTask ⟨1, 0, 0, none⟩), .call (.createRuntimeSession ⟨1, 0, 0, 10⟩),
        .call (.recoverTimedOutRuntimeSessions ⟨10, 3, none⟩),
        .call (.recoverTimedOutRuntimeSessions ⟨10, 3, none⟩), .go 0 (.ofTime 1),
        .go 1 (.ofTime 2), .go 1 (.ofTime 2)] ++
      List.replicate 6 (.go 2 (.ofTime 3)) ++ List.replicate 6 (.go 3 (.ofTime 4)) ++
      [.go 4 (.ofTime 20), .go 5 (.ofTime 20), .go 4 (.ofTime 20), .go 5 (.ofTime 20)]) := by
  intro h
  have honce := h.last.once
  revert honce
  decide +kernel

end ChronoSynth.Persona

import ChronoSynth.Persona.Hands

/-!
# The end of a session

A session that is completed or timed out is to stay as it is, and the two timestamps of a session are
to say what its state says: then the recovery sees every session that is not over (`SessionsEnd`).

The updates of the recovery name the state they have read; those of the worker do not. A worker that
has read a session before it was over writes to it afterwards (`Tx.Overtaken`), and sessions end in a
run exactly if no transaction does so.
-/

namespace ChronoSynth.Persona

variable {env : Env} {t : Tx} {db db' : TenantDb} {s : RuntimeSession}

/-! ## Who writes to the sessions -/

/-- The session a step of its worker moves on, the state it moves it to, and the new timeout. -/
def Tx.renews : Tx → Option (Id × RuntimeSessionState × ℕ)
  | .planRuntimeSession k ms => some (k, .EXECUTE, ms)
  | .executeRuntimeSession k _ ms => some (k, .EVALUATE, ms)
  | .evaluateRuntimeSession k ms => some (k, .MEMORY_UPDATE, ms)
  | _ => none

/-- What a transaction does to the sessions: it adds one, a worker moves one on or completes it, the
recovery has one tried again or gives it up, or they stay. -/
inductive SessionWrite (env : Env) (rows : List RuntimeSession) : Tx → List RuntimeSession → Prop
  | create (p x a : Id) (ms : ℕ) : SessionWrite env rows (.createRuntimeSession p x a ms)
      (rows ++ [.create env rows.length p x a ms])
  | renew {t : Tx} {k : Id} {state : RuntimeSessionState} {ms : ℕ}
      (h : t.renews = some (k, state, ms)) :
      SessionWrite env rows t (Table.update (·.id = k) (·.renew env state ms) rows)
  | complete (k : Id) : SessionWrite env rows (.completeRuntimeSession k)
      (Table.update (·.id = k) (·.complete env) rows)
  | retry (k : Id) (state expectedState : RuntimeSessionState) (ms : ℕ) :
      SessionWrite env rows (.retryRuntimeSession k state expectedState ms)
        (Table.update (fun s => s.id = k ∧ s.state = expectedState) (·.retry env state ms) rows)
  | timeout (k : Id) (expectedState : RuntimeSessionState) :
      SessionWrite env rows (.timeoutRuntimeSession k expectedState)
        (Table.update (fun s => s.id = k ∧ s.state = expectedState) (·.timeout env) rows)
  | none {t : Tx} (h : .sessions ∉ t.writes) : SessionWrite env rows t rows

theorem exec_sessionWrite (env : Env) (t : Tx) (db : TenantDb) :
    SessionWrite env db.sessions t (exec env t db).1.sessions := by
  have es : _ → _ = _ := exec_agree env t db .sessions
  cases t with
  | createRuntimeSession p x a ms => exact .create p x a ms
  | planRuntimeSession k ms | evaluateRuntimeSession k ms => exact .renew rfl
  | executeRuntimeSession k a ms =>
    rw [exec_executeRuntimeSession]
    exact .renew rfl
  | completeRuntimeSession k => exact .complete k
  | retryRuntimeSession k st st' ms => exact .retry k st st' ms
  | timeoutRuntimeSession k st => exact .timeout k st
  | _ =>
    rw [es (by simp [Tx.writes])]
    exact .none (by simp [Tx.writes])

theorem Tx.active_of_renews {k : Id} {state : RuntimeSessionState} {ms : ℕ}
    (h : t.renews = some (k, state, ms)) : isRuntimeActiveState state := by
  cases t <;> simp only [Tx.renews, Option.some.injEq, Prod.mk.injEq, reduceCtorEq] at h
  all_goals
    obtain ⟨-, rfl, -⟩ := h
    rfl

/-! ## Being over -/

/-- Completed by its worker, or given up by the recovery. -/
def RuntimeSession.Over (s : RuntimeSession) : Prop := s.state = .COMPLETED ∨ s.state = .TIMEOUT

instance : Decidable s.Over := inferInstanceAs (Decidable (_ ∨ _))

/-- The time of completion is set exactly in the terminal states, the timeout in the active ones. -/
def RuntimeSession.Stamped (s : RuntimeSession) : Prop :=
  (s.completedAt ≠ none ↔ isRuntimeTerminalState s.state) ∧
    (s.timeoutAt ≠ none ↔ isRuntimeActiveState s.state)

/-- From some time on, a scan that is long enough finds the session. -/
def RuntimeSession.Visible (db : TenantDb) (s : RuntimeSession) : Prop :=
  ∃ T, ∀ env limit, T ≤ env.dbNow → db.sessions.length ≤ limit →
    s ∈ getTimedOutRuntimeSessions env db limit

def StaysOver (db db' : TenantDb) : Prop :=
  ∀ s ∈ db.sessions, s.Over → ∃ s' ∈ db'.sessions, s'.id = s.id ∧ s'.state = s.state ∧
    s'.completedAt = s.completedAt ∧ s'.timeoutAt = s.timeoutAt

instance : Decidable (StaysOver db db') :=
  inferInstanceAs (Decidable (∀ s ∈ db.sessions, s.Over → ∃ s' ∈ db'.sessions, _))

/-- Sessions that are over stay so, the timestamps follow the states, and what is not over can be
recovered. -/
def SessionsEnd (users : List Id) (ms : List PersonaMove) : Prop :=
  Between PersonaPool.step (Pool.AtCommit fun _ _ _ => True) (fun p p' => StaysOver p.db p'.db)
      (PersonaPool.init users) ms ∧
    Always PersonaPool.step (fun p => ∀ s ∈ p.db.sessions, s.Stamped ∧
      (¬ isRuntimeTerminalState s.state → s.Visible p.db)) (PersonaPool.init users) ms

theorem StaysOver.refl (db : TenantDb) : StaysOver db db := fun s hs _ => ⟨s, hs, rfl, rfl, rfl, rfl⟩

theorem StaysOver.trans {db'' : TenantDb} (h : StaysOver db db') (h' : StaysOver db' db'') :
    StaysOver db db'' := by
  intro s hs hover
  obtain ⟨s', hs', hid, hstate, hc, ht⟩ := h s hs hover
  have hover' : s'.Over := by rwa [RuntimeSession.Over, hstate]
  obtain ⟨s'', hs'', hid', hstate', hc', ht'⟩ := h' s' hs' hover'
  exact ⟨s'', hs'', hid'.trans hid, hstate'.trans hstate, hc'.trans hc, ht'.trans ht⟩

/-! ## What overtakes the end of a session -/

/-- The transaction finds a session that is over and, not testing this, writes something else. -/
def Tx.Overtaken (env : Env) (db : TenantDb) : Tx → Prop
  | .completeRuntimeSession k =>
    ∃ s ∈ db.sessions, s.id = k ∧ s.Over ∧
      ¬ (s.state = .COMPLETED ∧ s.completedAt = some env.now ∧ s.timeoutAt = none)
  | t => ∃ k state ms, t.renews = some (k, state, ms) ∧ ∃ s ∈ db.sessions, s.id = k ∧ s.Over

theorem Tx.overtaken_renews {k : Id} {state : RuntimeSessionState} {ms : ℕ}
    (h : t.renews = some (k, state, ms)) :
    t.Overtaken env db ↔ ∃ s ∈ db.sessions, s.id = k ∧ s.Over := by
  have hiff : (∃ k' state' ms', t.renews = some (k', state', ms') ∧
      ∃ s ∈ db.sessions, s.id = k' ∧ s.Over) ↔ ∃ s ∈ db.sessions, s.id = k ∧ s.Over := by
    rw [h]
    constructor
    · rintro ⟨_, _, _, ⟨⟩, hs⟩
      exact hs
    · exact fun hs => ⟨k, state, ms, rfl, hs⟩
  cases t with
  | completeRuntimeSession k' => cases h
  | _ => exact hiff

theorem Tx.not_overtaken (h : .sessions ∉ t.writes) : ¬ t.Overtaken env db := by
  cases t with
  | planRuntimeSession | executeRuntimeSession | evaluateRuntimeSession | completeRuntimeSession =>
    exact absurd (by simp [Tx.writes]) h
  | _ => rintro ⟨_, _, _, ⟨⟩, _⟩

section
variable {p : RuntimeSession → Prop} [DecidablePred p] {g : RuntimeSession → RuntimeSession}
  {rows : List RuntimeSession}

theorem staysOver_of_update (hdb' : db'.sessions = Table.update p g db.sessions)
    (hid : ∀ s, (g s).id = s.id) (h : ∀ s ∈ db.sessions, p s → s.Over →
      (g s).state = s.state ∧ (g s).completedAt = s.completedAt ∧ (g s).timeoutAt = s.timeoutAt) :
    StaysOver db db' := by
  intro s hs hover
  rw [hdb']
  by_cases hp : p s
  · exact ⟨g s, Table.mem_update_of hs hp, hid s, h s hs hp hover⟩
  · exact ⟨s, Table.mem_update_of_not hs hp, rfl, rfl, rfl, rfl⟩

theorem StaysOver.of_update (h : StaysOver db db') (hn : db.Numbered) {k : Id}
    (hdb' : db'.sessions = Table.update (·.id = k) g db.sessions) (hs : s ∈ db.sessions)
    (hk : s.id = k) (hover : s.Over) :
    (g s).state = s.state ∧ (g s).completedAt = s.completedAt ∧ (g s).timeoutAt = s.timeoutAt := by
  obtain ⟨s', hs', hid, hsame⟩ := h s hs hover
  rw [hdb'] at hs'
  obtain ⟨x, hx, rfl⟩ := Table.mem_update.1 hs'
  by_cases hxk : x.id = k
  · obtain rfl := hn.sessions.eq hx hs (hxk.trans hk.symm)
    rwa [if_pos hxk] at hsame
  · rw [if_neg hxk] at hid
    exact (hxk (hid.trans hk)).elim

/-- A session as the services make them: active or over, with the timestamps of its state. -/
def RuntimeSession.Proper (s : RuntimeSession) : Prop :=
  s.Stamped ∧ (isRuntimeActiveState s.state ∨ s.Over)

theorem proper_of_update (h : ∀ s ∈ rows, s.Proper) (hg : ∀ s ∈ rows, p s → s.Proper → (g s).Proper) :
    ∀ s ∈ Table.update p g rows, s.Proper := by
  intro s hs
  obtain ⟨x, hx, rfl⟩ := Table.mem_update.1 hs
  split
  next hp => exact hg x hx hp (h x hx)
  next => exact h x hx

end

theorem RuntimeSession.not_over (hactive : isRuntimeActiveState s.state) : ¬ s.Over := by
  rintro (h | h) <;> rw [h] at hactive <;> cases hactive

theorem RuntimeSession.Stamped.completedAt_eq (h : s.Stamped)
    (hactive : isRuntimeActiveState s.state) : s.completedAt = none := by
  by_contra hc
  have hterminal := h.1.1 hc
  cases hs : s.state <;> rw [hs] at hactive hterminal <;> cases hactive <;> cases hterminal

theorem RuntimeSession.Stamped.visible (h : s.Stamped) (hactive : isRuntimeActiveState s.state)
    (hs : s ∈ db.sessions) : s.Visible db := by
  obtain ⟨T, hT⟩ := Option.ne_none_iff_exists'.1 (h.2.2 hactive)
  refine ⟨T, fun env limit hle hlimit => ?_⟩
  have hlen := (List.length_filter_le (fun s : RuntimeSession =>
    (s.timeoutAt.any fun t => t ≤ env.dbNow) ∧ s.completedAt = none) db.sessions).trans hlimit
  rw [getTimedOutRuntimeSessions, List.take_of_length_le (by rwa [List.length_mergeSort]),
    List.mem_mergeSort, List.mem_filter]
  exact ⟨hs, by simp [hT, h.completedAt_eq hactive, hle]⟩

theorem RuntimeSession.proper_of_active (hactive : isRuntimeActiveState s.state)
    (hc : s.completedAt = none) (ht : s.timeoutAt ≠ none) : s.Proper := by
  refine ⟨⟨iff_of_false (not_not.2 hc) fun hterminal => ?_, iff_of_true ht hactive⟩, .inl hactive⟩
  cases hs : s.state <;> rw [hs] at hactive hterminal <;> cases hactive <;> cases hterminal

/-! ## What each transaction does -/

theorem exec_staysOver_iff (hn : db.Numbered) (hh : t.Handed) :
    StaysOver db (exec env t db).1 ↔ ¬ t.Overtaken env db := by
  have hw := exec_sessionWrite env t db
  obtain ⟨c, hc⟩ := hh
  generalize hdb' : (exec env t db).1 = db' at hw ⊢
  generalize hrows : db'.sessions = rows at hw
  cases hw with
  | create p x a ms =>
    refine iff_of_true (fun s hs hover => ⟨s, ?_, rfl, rfl, rfl, rfl⟩) ?_
    · rw [hrows]
      exact List.mem_append_left _ hs
    · rintro ⟨_, _, _, ⟨⟩, _⟩
  | renew h =>
    rw [Tx.overtaken_renews h]
    constructor
    · rintro hstays ⟨s, hs, hk, hover⟩
      obtain ⟨hstate, -⟩ := hstays.of_update hn hrows hs hk hover
      exact RuntimeSession.not_over (hstate ▸ Tx.active_of_renews h) hover
    · intro hno
      exact staysOver_of_update hrows (fun _ => rfl) fun s hs hk hover =>
        (hno ⟨s, hs, hk, hover⟩).elim
  | complete k =>
    constructor
    · rintro hstays ⟨s, hs, hk, hover, hne⟩
      obtain ⟨hstate, hcompleted, htimeout⟩ := hstays.of_update hn hrows hs hk hover
      exact hne ⟨hstate.symm, hcompleted.symm, htimeout.symm⟩
    · intro hno
      refine staysOver_of_update hrows (fun _ => rfl) fun s hs hk hover => ?_
      obtain ⟨hstate, hcompleted, htimeout⟩ := not_not.1 fun hne => hno ⟨s, hs, hk, hover, hne⟩
      exact ⟨hstate.symm, hcompleted.symm, htimeout.symm⟩
  | retry k st st' ms =>
    obtain ⟨-, hactive, -⟩ := hc
    refine iff_of_true (staysOver_of_update hrows (fun _ => rfl) fun s _ hp hover => ?_) ?_
    · exact (RuntimeSession.not_over (hp.2 ▸ hactive) hover).elim
    · rintro ⟨_, _, _, ⟨⟩, _⟩
  | timeout k st =>
    obtain ⟨hactive, -⟩ := hc
    refine iff_of_true (staysOver_of_update hrows (fun _ => rfl) fun s _ hp hover => ?_) ?_
    · exact (RuntimeSession.not_over (hp.2 ▸ hactive) hover).elim
    · rintro ⟨_, _, _, ⟨⟩, _⟩
  | none h =>
    exact iff_of_true (fun s hs _ => ⟨s, by rwa [hrows], rfl, rfl, rfl, rfl⟩) (Tx.not_overtaken h)

theorem exec_proper (hh : t.Handed) (ho : ¬ t.Overtaken env db)
    (h : ∀ s ∈ db.sessions, s.Proper) : ∀ s ∈ (exec env t db).1.sessions, s.Proper := by
  have hw := exec_sessionWrite env t db
  obtain ⟨c, hc⟩ := hh
  generalize (exec env t db).1.sessions = rows at hw ⊢
  cases hw with
  | create p x a ms =>
    intro s hs
    rcases List.mem_append.1 hs with hs | hs
    · exact h s hs
    · obtain rfl := List.mem_singleton.1 hs
      exact RuntimeSession.proper_of_active rfl rfl (by simp [RuntimeSession.create])
  | renew hr =>
    rw [Tx.overtaken_renews hr] at ho
    refine proper_of_update h fun s hs hk hproper => ?_
    have hactive := hproper.2.resolve_right fun hover => ho ⟨s, hs, hk, hover⟩
    exact RuntimeSession.proper_of_active (Tx.active_of_renews hr)
      (hproper.1.completedAt_eq hactive) (by simp [RuntimeSession.renew])
  | complete k =>
    refine proper_of_update h fun s hs hk hproper => ⟨?_, .inr (.inl rfl)⟩
    simp [RuntimeSession.Stamped, RuntimeSession.complete, isRuntimeTerminalState,
      isRuntimeActiveState]
  | retry k st st' ms =>
    obtain ⟨rfl, hactive, -⟩ := hc
    refine proper_of_update h fun s hs hp hproper => ?_
    exact RuntimeSession.proper_of_active rfl
      (hproper.1.completedAt_eq (hp.2 ▸ hactive)) (by simp [RuntimeSession.retry])
  | timeout k st =>
    refine proper_of_update h fun s hs hk hproper => ⟨?_, .inr (.inr rfl)⟩
    simp [RuntimeSession.Stamped, RuntimeSession.timeout, isRuntimeTerminalState,
      isRuntimeActiveState]
  | none => exact h

/-! ## Runs -/

/-- **Sessions end** in exactly the runs in which no worker writes to a session that is over. -/
theorem sessionsEnd_iff (users : List Id) (ms : List PersonaMove) :
    SessionsEnd users ms ↔
      Along PersonaPool.step (Pool.AtCommit fun env t db => ¬ t.Overtaken env db)
        (PersonaPool.init users) ms := by
  have hbetween : Between PersonaPool.step (Pool.AtCommit fun _ _ _ => True)
      (fun p p' => StaysOver p.db p'.db) (PersonaPool.init users) ms ↔ _ :=
    PersonaPool.between_iff_handed .refl (fun _ _ _ h h' => h.trans h') fun _ _ _ hn hh _ =>
      exec_staysOver_iff hn hh
  simp only [true_imp_iff] at hbetween
  constructor
  · rintro ⟨h, -⟩
    exact hbetween.1 h
  · intro hC
    refine ⟨hbetween.2 hC, ?_⟩
    have hproper := PersonaPool.always_of_handed (I := fun db => ∀ s ∈ db.sessions, s.Proper)
      (fun s hs => by simp [TenantDb.fresh] at hs)
      (fun env t db _ hh hI ho => exec_proper hh ho hI) hC
    refine hproper.mono fun p hp s hs => ⟨(hp.2 s hs).1, fun hnot => ?_⟩
    have hactive : isRuntimeActiveState s.state := (hp.2 s hs).2.resolve_right fun hover =>
      hnot (by rcases hover with h | h <;> rw [h] <;> rfl)
    exact (hp.2 s hs).1.visible hactive hs

/-- Between the read and the update of a worker the recovery gives the session up: it is executing
again, completed, and no scan will see it. -/
theorem stale_worker :
    ¬ SessionsEnd [1, 2]
      ([.call (.createPersona ⟨1⟩), .call (.publishTask ⟨2, 5, none⟩),
        .call (.acceptTask ⟨1, 0, 0, none⟩), .call (.createRuntimeSession ⟨1, 0, 0, 10⟩),
        .call (.planRuntimeSession ⟨1, 0, 10⟩),
        .call (.recoverTimedOutRuntimeSessions ⟨10, 0, none⟩), .go 0 (.ofTime 1),
        .go 1 (.ofTime 2), .go 1 (.ofTime 2)] ++
      List.replicate 6 (.go 2 (.ofTime 3)) ++ List.replicate 6 (.go 3 (.ofTime 4)) ++
      List.replicate 2 (.go 4 (.ofTime 5)) ++ List.replicate 2 (.go 5 (.ofTime 20)) ++
      [.go 4 (.ofTime 21)]) := by
  rintro ⟨-, h⟩
  have hstamped := (h.last ⟨0, 0, 0, some 0, .EXECUTE, 0, some 31, 4, 21, some 20⟩
    (by decide +kernel)).1
  exact absurd hstamped.1 (by decide)

end ChronoSynth.Persona

import Mathlib.Algebra.Order.Field.Rat
import Mathlib.Data.NNRat.Defs
import Mathlib.Tactic.SplitIfs
import ChronoSynth.Lib.Run

/-!
# The circuit breaker under overlapping calls

A breaker counts failures and is closed, open or half open. Its functions on a snapshot are pure; `execute` reads the clock
and the snapshot when a call starts, and writes to the snapshot that is there when the call ends, whatever has happened in
between. So the calls are run interleaved: a call starts, later it ends, and others start and end meanwhile (`Breaker.step`).

What the claims speak of and the breaker does not store is kept by an observer (`Watch`), which sees the breaker before and
after each step and which the breaker does not read: which half-open period this is, which calls are probes of which period,
how many were started in this one, when the breaker was opened, and how many failures came in a row.
-/

namespace ChronoSynth.Server

inductive CircuitState
  | closed | open_ | half_open
  deriving DecidableEq, Repr

structure CircuitBreakerOptions where
  failureThreshold : ℕ
  resetTimeoutMs : ℚ
  halfOpenMaxRequests : ℕ
  executionTimeoutMs : ℚ

def DEFAULT_CIRCUIT_BREAKER_OPTIONS : CircuitBreakerOptions where
  failureThreshold := 5
  resetTimeoutMs := 30000
  halfOpenMaxRequests := 1
  executionTimeoutMs := 30000

structure CircuitBreakerSnapshot where
  state : CircuitState
  consecutiveFailures : ℕ
  lastFailureTime : ℚ
  halfOpenRequests : ℕ
  deriving DecidableEq, Repr

def INITIAL_CIRCUIT_SNAPSHOT : CircuitBreakerSnapshot where
  state := .closed
  consecutiveFailures := 0
  lastFailureTime := 0
  halfOpenRequests := 0

def evaluateCircuitState (snapshot : CircuitBreakerSnapshot) (opts : CircuitBreakerOptions) (now : ℚ) :
    CircuitBreakerSnapshot :=
  if snapshot.state = .open_ then
    let elapsed := now - snapshot.lastFailureTime
    if opts.resetTimeoutMs ≤ elapsed then { snapshot with state := .half_open, halfOpenRequests := 0 } else snapshot
  else snapshot

def canExecute (snapshot : CircuitBreakerSnapshot) (opts : CircuitBreakerOptions) : Bool :=
  if snapshot.state = .open_ then false
  else if snapshot.state = .half_open ∧ opts.halfOpenMaxRequests ≤ snapshot.halfOpenRequests then false
  else true

def recordHalfOpenAttempt (snapshot : CircuitBreakerSnapshot) : CircuitBreakerSnapshot :=
  if snapshot.state = .half_open then { snapshot with halfOpenRequests := snapshot.halfOpenRequests + 1 } else snapshot

def recordSuccess (snapshot : CircuitBreakerSnapshot) : CircuitBreakerSnapshot :=
  if snapshot.state = .half_open then
    { snapshot with state := .closed, consecutiveFailures := 0, halfOpenRequests := 0 }
  else { snapshot with consecutiveFailures := 0 }

def recordFailure (snapshot : CircuitBreakerSnapshot) (opts : CircuitBreakerOptions) (now : ℚ) :
    CircuitBreakerSnapshot :=
  let consecutiveFailures := snapshot.consecutiveFailures + 1
  let lastFailureTime := now
  if snapshot.state = .half_open then { snapshot with state := .open_, consecutiveFailures, lastFailureTime }
  else
    let state := if opts.failureThreshold ≤ consecutiveFailures then .open_ else snapshot.state
    { snapshot with state, consecutiveFailures, lastFailureTime }

/-! ## Overlapping calls -/

inductive Outcome
  | success | failure | timeout
  deriving DecidableEq, Repr

inductive BreakerAct
  | getState
  /-- `execute` is called. -/
  | start
  /-- The call with the number ends. -/
  | settle (call : ℕ) (outcome : Outcome)
  deriving DecidableEq, Repr

/-- Some time passes, then something happens. -/
structure BreakerEvent where
  elapsed : ℚ≥0
  act : BreakerAct

/-- A breaker, the time, and the calls that have started and not ended, by their numbers. -/
structure Breaker where
  snapshot : CircuitBreakerSnapshot
  clock : ℚ
  started : ℕ
  calls : List ℕ

variable (opts : CircuitBreakerOptions)

/-- `execute`, up to the call of the function, or the message of the `CircuitOpenError`. -/
def Breaker.begin (b : Breaker) : Breaker × Option String :=
  let snapshot := evaluateCircuitState b.snapshot opts b.clock
  if canExecute snapshot opts then
    ({ b with snapshot := recordHalfOpenAttempt snapshot, started := b.started + 1, calls := b.calls ++ [b.started] }, none)
  else
    ({ b with snapshot },
      some (if snapshot.state = .open_ then "断路器已打开，请求被拒绝" else "断路器半开状态，探测请求已满"))

/-- `execute`, once the function has returned or thrown, or the time is over. -/
def Breaker.finish (b : Breaker) (call : ℕ) (outcome : Outcome) : Breaker :=
  let calls := b.calls.erase call
  match outcome with
  | .success => { b with snapshot := recordSuccess b.snapshot, calls }
  | .failure => { b with snapshot := recordFailure b.snapshot opts b.clock, calls }
  | .timeout =>
    if 0 < opts.executionTimeoutMs then { b with snapshot := recordFailure b.snapshot opts b.clock, calls } else b

def Breaker.step (b : Breaker) (e : BreakerEvent) : Breaker :=
  let b := { b with clock := b.clock + e.elapsed }
  match e.act with
  | .getState => { b with snapshot := evaluateCircuitState b.snapshot opts b.clock }
  | .start => (b.begin opts).1
  | .settle call outcome => if call ∈ b.calls then b.finish opts call outcome else b

/-! ## The observer -/

structure Watch where
  /-- The number of half-open periods so far. -/
  period : ℕ
  /-- The period that a call is a probe of. -/
  probeOf : ℕ → Option ℕ
  /-- How many probes were started in this period. -/
  probes : ℕ
  /-- When the breaker was opened. -/
  openedAt : ℚ
  /-- How many failures were recorded since the last success. -/
  streak : ℕ

/-- What is seen of a step. -/
def Watch.see (w : Watch) (b : Breaker) (e : BreakerEvent) (b' : Breaker) : Watch :=
  let entered := b.snapshot.state = .open_ ∧ b'.snapshot.state = .half_open
  let probed := b.started < b'.started ∧ b'.snapshot.state = .half_open
  let period := if entered then w.period + 1 else w.period
  { period
    probeOf := if b.started < b'.started then
        Function.update w.probeOf b.started (if probed then some period else none)
      else w.probeOf
    probes := (if entered then 0 else w.probes) + if probed then 1 else 0
    openedAt := if b.snapshot.state ≠ .open_ ∧ b'.snapshot.state = .open_ then b'.clock else w.openedAt
    streak :=
      if b'.calls.length < b.calls.length then
        match e.act with
        | .settle _ .success => 0
        | _ => w.streak + 1
      else w.streak }

/-- The breaker with its observer. -/
def watched : Breaker × Watch → BreakerEvent → Breaker × Watch :=
  noting (Breaker.step opts) fun b w e => w.see b e (b.step opts e)

/-- A breaker nobody has called. -/
def Breaker.fresh (clock : ℚ) : Breaker × Watch :=
  (⟨INITIAL_CIRCUIT_SNAPSHOT, clock, 0, []⟩, ⟨0, fun _ => none, 0, clock, 0⟩)

/-- What a step is to respect. -/
structure Lawful (x : Breaker × Watch) (e : BreakerEvent) (x' : Breaker × Watch) : Prop where
  waits : x.1.snapshot.state = .open_ → x.1.started < x'.1.started → opts.resetTimeoutMs ≤ x'.1.clock - x.2.openedAt
  slots : (x'.1.calls.countP fun call => x'.2.probeOf call = some x'.2.period) ≤ x'.2.probes ∧
    x'.2.probes ≤ opts.halfOpenMaxRequests
  closes : x.1.snapshot.state ≠ .closed → x'.1.snapshot.state = .closed →
    x.1.snapshot.state = .half_open ∧ ∃ call ∈ x.1.calls, e.act = .settle call .success ∧
      x.2.probeOf call = some x.2.period
  reopens : x.1.snapshot.state = .closed → x'.1.snapshot.state = .open_ → opts.failureThreshold ≤ x'.2.streak

/-- A success that arrives in a half-open period is that of one of its probes. -/
def Timely (x : Breaker × Watch) (e : BreakerEvent) : Prop :=
  x.1.snapshot.state = .half_open → ∀ call ∈ x.1.calls, e.act = .settle call .success →
    x.2.probeOf call = some x.2.period

/-! ## What a step can do -/

variable {opts} {snapshot : CircuitBreakerSnapshot} {now : ℚ} {b b' : Breaker} {w : Watch} {e : BreakerEvent}
  {x : Breaker × Watch}

theorem evaluateCircuitState_cases (snapshot : CircuitBreakerSnapshot) (opts : CircuitBreakerOptions) (now : ℚ) :
    evaluateCircuitState snapshot opts now = snapshot ∨
      snapshot.state = .open_ ∧ opts.resetTimeoutMs ≤ now - snapshot.lastFailureTime ∧
        evaluateCircuitState snapshot opts now = { snapshot with state := .half_open, halfOpenRequests := 0 } := by
  unfold evaluateCircuitState
  by_cases hopen : snapshot.state = .open_
  · rw [if_pos hopen]
    by_cases helapsed : opts.resetTimeoutMs ≤ now - snapshot.lastFailureTime
    · exact .inr ⟨hopen, helapsed, if_pos helapsed⟩
    · exact .inl (if_neg helapsed)
  · exact .inl (if_neg hopen)

def Breaker.looked (b : Breaker) (opts : CircuitBreakerOptions) (now : ℚ) : Breaker :=
  { b with clock := now, snapshot := evaluateCircuitState b.snapshot opts now }

/-- The breaker once a call has started. -/
def Breaker.admitted (b : Breaker) : Breaker :=
  { b with snapshot := recordHalfOpenAttempt b.snapshot, started := b.started + 1, calls := b.calls ++ [b.started] }

def Breaker.ended (b : Breaker) (call : ℕ) (snapshot : CircuitBreakerSnapshot) (now : ℚ) : Breaker :=
  { b with clock := now, snapshot, calls := b.calls.erase call }

/-- **Inversion.** What a step leaves. -/
inductive Moves (opts : CircuitBreakerOptions) (b : Breaker) (e : BreakerEvent) (now : ℚ) : Breaker → Prop
  | look : Moves opts b e now (b.looked opts now)
  | permit : canExecute (b.looked opts now).snapshot opts = true → Moves opts b e now (b.looked opts now).admitted
  | succeed (call : ℕ) : call ∈ b.calls → e.act = .settle call .success →
      Moves opts b e now (b.ended call (recordSuccess b.snapshot) now)
  | fail (call : ℕ) (outcome : Outcome) : call ∈ b.calls → e.act = .settle call outcome → outcome ≠ .success →
      Moves opts b e now (b.ended call (recordFailure b.snapshot opts now) now)
  | ignore : (∀ call ∈ b.calls, e.act ≠ .settle call .success) → Moves opts b e now { b with clock := now }

theorem step_moves (opts : CircuitBreakerOptions) (b : Breaker) (e : BreakerEvent) :
    Moves opts b e (b.clock + e.elapsed) (b.step opts e) := by
  obtain ⟨elapsed, act⟩ := e
  cases act with
  | getState => exact .look
  | start =>
    by_cases h : canExecute (evaluateCircuitState b.snapshot opts (b.clock + elapsed)) opts = true
    · simp only [Breaker.step, Breaker.begin, if_pos h]
      exact .permit h
    · simp only [Breaker.step, Breaker.begin, if_neg h]
      exact .look
  | settle call outcome =>
    simp only [Breaker.step]
    split_ifs with h
    · cases outcome with
      | success => exact .succeed call h rfl
      | failure => exact .fail call .failure h rfl nofun
      | timeout =>
        simp only [Breaker.finish]
        split_ifs
        · exact .fail call .timeout h rfl nofun
        · exact .ignore fun _ _ => nofun
    · refine .ignore fun other hother hact => ?_
      obtain ⟨rfl, -⟩ := BreakerAct.settle.inj hact
      exact h hother

/-! ## The invariant -/

/-- What the observer has seen agrees with what the breaker stores. -/
structure Inv (opts : CircuitBreakerOptions) (b : Breaker) (w : Watch) : Prop where
  opened : b.snapshot.state = .open_ → w.openedAt ≤ b.snapshot.lastFailureTime ∧ b.snapshot.lastFailureTime ≤ b.clock
  streak : w.streak = b.snapshot.consecutiveFailures
  requests : b.snapshot.state = .half_open → w.probes = b.snapshot.halfOpenRequests
  probes : w.probes ≤ opts.halfOpenMaxRequests
  inFlight : (b.calls.countP fun call => w.probeOf call = some w.period) ≤ w.probes
  period : ∀ call k, w.probeOf call = some k → k ≤ w.period
  numbers : ∀ call ∈ b.calls, call < b.started

theorem inv_fresh (opts : CircuitBreakerOptions) (clock : ℚ) : Inv opts (Breaker.fresh clock).1 (Breaker.fresh clock).2 where
  opened h := nomatch h
  streak := rfl
  requests h := nomatch h
  probes := Nat.zero_le _
  inFlight := le_rfl
  period := nofun
  numbers := nofun

/-! What is seen, by the kind of step. -/

theorem see_same (hstate : b'.snapshot.state = b.snapshot.state) (hstarted : b'.started = b.started)
    (hcalls : b'.calls = b.calls) : w.see b e b' = w := by
  have hentered : ¬ (b.snapshot.state = .open_ ∧ b'.snapshot.state = .half_open) := by
    rw [hstate]
    exact fun h => nomatch h.1.symm.trans h.2
  have hopened : ¬ (b.snapshot.state ≠ .open_ ∧ b'.snapshot.state = .open_) := by
    rw [hstate]
    exact fun h => h.1 h.2
  simp [Watch.see, hentered, hopened, hstarted, hcalls]

theorem see_wait : w.see b e { b with clock := now } = w := see_same rfl rfl rfl

theorem see_looked : w.see b e (b.looked opts now) =
    if b.snapshot.state = .open_ ∧ (b.looked opts now).snapshot.state = .half_open then
      { w with period := w.period + 1, probes := 0 }
    else w := by
  rcases evaluateCircuitState_cases b.snapshot opts now with heq | ⟨hopen, -, heq⟩
  · have hstate : (b.looked opts now).snapshot.state = b.snapshot.state := by rw [Breaker.looked, heq]
    rw [see_same hstate rfl rfl, hstate, if_neg fun h => nomatch h.1.symm.trans h.2]
  · simp [Watch.see, Breaker.looked, heq, hopen]

theorem see_admitted : w.see b e b.admitted = { w with
      probeOf := Function.update w.probeOf b.started (if b.snapshot.state = .half_open then some w.period else none)
      probes := w.probes + if b.snapshot.state = .half_open then 1 else 0 } := by
  have hstate : b.admitted.snapshot.state = b.snapshot.state := by
    simp only [Breaker.admitted, recordHalfOpenAttempt]
    split <;> rfl
  have hcalls : ¬ b.admitted.calls.length < b.calls.length := by simp [Breaker.admitted]
  have hstarted : b.admitted.started = b.started + 1 := rfl
  cases hb : b.snapshot.state <;> simp [Watch.see, hstate, hb, hstarted, hcalls]

theorem see_looked_admitted : w.see b e (b.looked opts now).admitted =
    (w.see b e (b.looked opts now)).see (b.looked opts now) e (b.looked opts now).admitted := by
  have hstate : (b.looked opts now).admitted.snapshot.state = (b.looked opts now).snapshot.state := by
    simp only [Breaker.admitted, recordHalfOpenAttempt]
    split <;> rfl
  have hcalls : ¬ (b.looked opts now).admitted.calls.length < b.calls.length := by simp [Breaker.admitted, Breaker.looked]
  have hstarted : (b.looked opts now).admitted.started = b.started + 1 := rfl
  have hstarted' : (b.looked opts now).started = b.started := rfl
  rw [see_admitted, see_looked]
  rcases evaluateCircuitState_cases b.snapshot opts now with heq | ⟨hopen, -, heq⟩
  · have hsame : (b.looked opts now).snapshot.state = b.snapshot.state := by rw [Breaker.looked, heq]
    cases hb : b.snapshot.state <;> simp [Watch.see, hstate, hsame, hb, hstarted, hstarted', hcalls]
  · have hhalf : (b.looked opts now).snapshot.state = .half_open := by rw [Breaker.looked, heq]
    simp [Watch.see, hstate, hhalf, hopen, hstarted, hstarted', hcalls]

theorem see_ended {call : ℕ} {outcome : Outcome} (hact : e.act = .settle call outcome) (hcall : call ∈ b.calls)
    (hstate : b.snapshot.state = .open_ → snapshot.state = .open_) :
    w.see b e (b.ended call snapshot now) = { w with
      openedAt := if b.snapshot.state ≠ .open_ ∧ snapshot.state = .open_ then now else w.openedAt
      streak := if outcome = .success then 0 else w.streak + 1 } := by
  have hentered : ¬ (b.snapshot.state = .open_ ∧ snapshot.state = .half_open) := fun h =>
    nomatch (hstate h.1).symm.trans h.2
  have hcalls : (b.calls.erase call).length < b.calls.length := by
    have hpos := List.length_pos_of_mem hcall
    rw [List.length_erase_of_mem hcall]
    omega
  cases outcome <;> simp [Watch.see, Breaker.ended, hentered, hcalls, hact] <;> congr

/-! What each kind of step keeps. -/

theorem Inv.wait (h : Inv opts b w) (hclock : b.clock ≤ now) : Inv opts { b with clock := now } w :=
  { h with opened := fun hopen => ⟨(h.opened hopen).1, (h.opened hopen).2.trans hclock⟩ }

theorem Inv.look (h : Inv opts b w) (hclock : b.clock ≤ now) (e : BreakerEvent) :
    Inv opts (b.looked opts now) (w.see b e (b.looked opts now)) := by
  rw [see_looked]
  rcases evaluateCircuitState_cases b.snapshot opts now with heq | ⟨hopen, -, heq⟩
  · have hlooked : b.looked opts now = { b with clock := now } := by rw [Breaker.looked, heq]
    rw [hlooked, if_neg fun h => nomatch h.1.symm.trans h.2]
    exact h.wait hclock
  · have hlooked : b.looked opts now =
        { b with clock := now, snapshot := { b.snapshot with state := .half_open, halfOpenRequests := 0 } } := by
      rw [Breaker.looked, heq]
    rw [hlooked, if_pos ⟨hopen, rfl⟩]
    -- a new period has no probes yet
    have hnone : (b.calls.countP fun call => w.probeOf call = some (w.period + 1)) = 0 := by
      rw [List.countP_eq_zero]
      intro call _ hprobe
      have hle := h.period call _ (of_decide_eq_true hprobe)
      omega
    exact ⟨nofun, h.streak, fun _ => rfl, Nat.zero_le _, hnone.le, fun call k hk =>
      (h.period call k hk).trans (Nat.le_succ _), h.numbers⟩

theorem Inv.permit (h : Inv opts b w) (hcan : canExecute b.snapshot opts = true) (e : BreakerEvent) :
    Inv opts b.admitted (w.see b e b.admitted) := by
  rw [see_admitted]
  have hcount : (b.calls.countP fun call => Function.update w.probeOf b.started
      (if b.snapshot.state = .half_open then some w.period else none) call = some w.period) =
        b.calls.countP fun call => w.probeOf call = some w.period :=
    List.countP_congr fun call hcall => by
      rw [Function.update_of_ne (h.numbers call hcall).ne]
  have hopen : b.snapshot.state ≠ .open_ := by
    intro heq
    simp [canExecute, heq] at hcan
  have hnumbers : ∀ call ∈ b.calls ++ [b.started], call < b.started + 1 :=
    List.forall_mem_append.2 ⟨fun call hcall => (h.numbers call hcall).trans (Nat.lt_succ_self _),
      List.forall_mem_singleton.2 (Nat.lt_succ_self _)⟩
  have hperiod : ∀ call k, Function.update w.probeOf b.started
      (if b.snapshot.state = .half_open then some w.period else none) call = some k → k ≤ w.period := by
    intro call k hk
    rw [Function.update_apply] at hk
    split_ifs at hk
    · exact (Option.some.inj hk).ge
    · exact h.period call k hk
  by_cases hhalf : b.snapshot.state = .half_open
  · have hroom : b.snapshot.halfOpenRequests < opts.halfOpenMaxRequests := by
      by_contra hfull
      simp [canExecute, hhalf, not_lt.1 hfull] at hcan
    have hrequests := h.requests hhalf
    have hinFlight := h.inFlight
    rw [Breaker.admitted, recordHalfOpenAttempt, if_pos hhalf]
    refine ⟨fun heq => absurd heq hopen, h.streak, fun _ => ?_, ?_, ?_, hperiod, hnumbers⟩
    · simp [hhalf, hrequests]
    · simp only [if_pos hhalf]
      omega
    · rw [List.countP_append, hcount]
      simp only [if_pos hhalf, List.countP_singleton, Function.update_self, decide_true, if_true]
      omega
  · have hinFlight := h.inFlight
    rw [Breaker.admitted, recordHalfOpenAttempt, if_neg hhalf]
    refine ⟨fun heq => absurd heq hopen, h.streak, fun heq => absurd heq hhalf, ?_, ?_, hperiod, hnumbers⟩
    · simpa [hhalf] using h.probes
    · rw [List.countP_append, hcount]
      simpa [hhalf] using hinFlight

theorem inFlight_erase (h : Inv opts b w) (call : ℕ) :
    ((b.calls.erase call).countP fun call => w.probeOf call = some w.period) ≤ w.probes :=
  List.erase_sublist.countP_le.trans h.inFlight

theorem recordSuccess_spec (snapshot : CircuitBreakerSnapshot) :
    (recordSuccess snapshot).lastFailureTime = snapshot.lastFailureTime ∧
      (recordSuccess snapshot).consecutiveFailures = 0 ∧ (recordSuccess snapshot).state ≠ .half_open ∧
      ((recordSuccess snapshot).state = .open_ ↔ snapshot.state = .open_) ∧
      (snapshot.state ≠ .closed → (recordSuccess snapshot).state = .closed → snapshot.state = .half_open) ∧
      (snapshot.state = .half_open → (recordSuccess snapshot).state = .closed) := by
  unfold recordSuccess
  cases hs : snapshot.state <;> simp

theorem Inv.succeed (h : Inv opts b w) (hclock : b.clock ≤ now) {call : ℕ} (hcall : call ∈ b.calls)
    (hact : e.act = .settle call .success) :
    Inv opts (b.ended call (recordSuccess b.snapshot) now) (w.see b e (b.ended call (recordSuccess b.snapshot) now)) := by
  have hinFlight := inFlight_erase h call
  have hnumbers : ∀ other ∈ b.calls.erase call, other < b.started := fun other hother =>
    h.numbers other (List.mem_of_mem_erase hother)
  obtain ⟨htime, hstreak, hhalf, hopen, -, -⟩ := recordSuccess_spec b.snapshot
  have hnew : ¬ (b.snapshot.state ≠ .open_ ∧ (recordSuccess b.snapshot).state = .open_) := fun h => h.1 (hopen.1 h.2)
  rw [see_ended hact hcall hopen.2, if_neg hnew, if_pos rfl]
  refine ⟨fun hnow => ?_, hstreak.symm, fun heq => absurd heq hhalf, h.probes, hinFlight, h.period, hnumbers⟩
  obtain ⟨hopened, hlast⟩ := h.opened (hopen.1 hnow)
  dsimp only [Breaker.ended]
  rw [htime]
  exact ⟨hopened, hlast.trans hclock⟩

theorem recordFailure_spec (snapshot : CircuitBreakerSnapshot) (opts : CircuitBreakerOptions) (now : ℚ) :
    (recordFailure snapshot opts now).lastFailureTime = now ∧
      (recordFailure snapshot opts now).consecutiveFailures = snapshot.consecutiveFailures + 1 ∧
      (recordFailure snapshot opts now).state ≠ .half_open ∧
      (snapshot.state = .open_ → (recordFailure snapshot opts now).state = .open_) ∧
      (snapshot.state ≠ .closed → (recordFailure snapshot opts now).state ≠ .closed) ∧
      (snapshot.state = .closed → (recordFailure snapshot opts now).state = .open_ →
        opts.failureThreshold ≤ snapshot.consecutiveFailures + 1) := by
  unfold recordFailure
  cases hs : snapshot.state <;> dsimp only <;> split_ifs <;> simp_all

theorem Inv.fail (h : Inv opts b w) (hclock : b.clock ≤ now) {call : ℕ} {outcome : Outcome} (hcall : call ∈ b.calls)
    (hact : e.act = .settle call outcome) (hne : outcome ≠ .success) :
    Inv opts (b.ended call (recordFailure b.snapshot opts now) now)
      (w.see b e (b.ended call (recordFailure b.snapshot opts now) now)) := by
  have hinFlight := inFlight_erase h call
  have hnumbers : ∀ other ∈ b.calls.erase call, other < b.started := fun other hother =>
    h.numbers other (List.mem_of_mem_erase hother)
  obtain ⟨htime, hstreak, hhalf, hopen, -, -⟩ := recordFailure_spec b.snapshot opts now
  rw [see_ended hact hcall hopen, if_neg hne]
  refine ⟨fun hnow => ⟨?_, htime.le⟩, ?_, fun heq => absurd heq hhalf, h.probes, hinFlight, h.period, hnumbers⟩
  · dsimp only [Breaker.ended] at hnow ⊢
    rw [htime]
    split_ifs with hnew
    · exact le_rfl
    · have hwas : b.snapshot.state = .open_ := by
        by_contra hnot
        exact hnew ⟨hnot, hnow⟩
      exact (h.opened hwas).1.trans ((h.opened hwas).2.trans hclock)
  · dsimp only [Breaker.ended]
    rw [hstreak, h.streak]

theorem clock_le (b : Breaker) (e : BreakerEvent) : b.clock ≤ b.clock + e.elapsed := le_add_of_nonneg_right e.elapsed.2

/-- **Step lemma.** -/
theorem inv_step (h : Inv opts b w) (e : BreakerEvent) : Inv opts (b.step opts e) (w.see b e (b.step opts e)) := by
  have hclock := clock_le b e
  have hmoves := step_moves opts b e
  generalize b.step opts e = b' at hmoves ⊢
  cases hmoves with
  | look => exact h.look hclock e
  | permit hcan =>
    rw [see_looked_admitted]
    exact (h.look hclock e).permit hcan e
  | succeed call hcall hact => exact h.succeed hclock hcall hact
  | fail call outcome hcall hact hne => exact h.fail hclock hcall hact hne
  | ignore hact =>
    rw [see_wait]
    exact h.wait hclock

/-! ## The law -/

theorem looked_state (b : Breaker) (opts : CircuitBreakerOptions) (now : ℚ) :
    (b.looked opts now).snapshot.state = b.snapshot.state ∨
      b.snapshot.state = .open_ ∧ opts.resetTimeoutMs ≤ now - b.snapshot.lastFailureTime ∧
        (b.looked opts now).snapshot.state = .half_open := by
  rcases evaluateCircuitState_cases b.snapshot opts now with heq | ⟨hopen, htime, heq⟩
  · exact .inl (by rw [Breaker.looked, heq])
  · exact .inr ⟨hopen, htime, by rw [Breaker.looked, heq]⟩

theorem admitted_state (b : Breaker) : b.admitted.snapshot.state = b.snapshot.state := by
  simp only [Breaker.admitted, recordHalfOpenAttempt]
  split <;> rfl

/-- **One step is lawful** exactly when it is timely. -/
theorem lawful_iff (h : Inv opts b w) (e : BreakerEvent) :
    Lawful opts (b, w) e (b.step opts e, w.see b e (b.step opts e)) ↔ Timely (b, w) e := by
  have hnext := inv_step h e
  constructor
  · intro hlawful hhalf call hcall hact
    have hstep : (b.step opts e).snapshot = recordSuccess b.snapshot := by
      simp [Breaker.step, hact, if_pos hcall, Breaker.finish]
    have hclosed : (b.step opts e).snapshot.state = .closed := by
      rw [hstep]
      exact (recordSuccess_spec b.snapshot).2.2.2.2.2 hhalf
    obtain ⟨-, call', -, hact', hprobe⟩ := hlawful.closes (by simp [show b.snapshot.state = _ from hhalf]) hclosed
    obtain ⟨rfl, -⟩ := BreakerAct.settle.inj (hact.symm.trans hact')
    exact hprobe
  · intro htimely
    have hmoves := step_moves opts b e
    generalize b.step opts e = b' at hmoves hnext ⊢
    have hlook := looked_state b opts (b.clock + e.elapsed)
    refine ⟨fun hopen hstarted => ?_, ⟨hnext.inFlight, hnext.probes⟩, fun hwas hnow => ?_, fun hwas hnow => ?_⟩
    · -- only an evaluation that begins a half-open period lets a call through
      dsimp only at hopen hstarted ⊢
      cases hmoves with
      | permit hcan =>
        rcases hlook with hsame | ⟨-, htime, -⟩
        · simp [canExecute, hsame, hopen] at hcan
        · exact htime.trans (sub_le_sub_left (h.opened hopen).1 _)
      | look | succeed | fail | ignore => exact absurd hstarted (lt_irrefl _)
    · dsimp only at hwas hnow ⊢
      cases hmoves with
      | look | permit =>
        have hnow' : (b.looked opts (b.clock + e.elapsed)).snapshot.state = .closed := by
          first | exact hnow | exact (admitted_state _).symm.trans hnow
        rcases hlook with hsame | ⟨-, -, hhalf⟩
        · exact absurd (hsame.symm.trans hnow') hwas
        · exact nomatch hhalf.symm.trans hnow'
      | succeed call hcall hact =>
        have hhalf := (recordSuccess_spec b.snapshot).2.2.2.2.1 hwas hnow
        exact ⟨hhalf, call, hcall, hact, htimely hhalf call hcall hact⟩
      | fail => exact absurd hnow ((recordFailure_spec b.snapshot opts _).2.2.2.2.1 hwas)
      | ignore => exact absurd hnow hwas
    · dsimp only at hwas hnow ⊢
      cases hmoves with
      | look | permit =>
        have hnow' : (b.looked opts (b.clock + e.elapsed)).snapshot.state = .open_ := by
          first | exact hnow | exact (admitted_state _).symm.trans hnow
        rcases hlook with hsame | ⟨-, -, hhalf⟩
        · exact nomatch hwas.symm.trans (hsame.symm.trans hnow')
        · exact nomatch hhalf.symm.trans hnow'
      | succeed => exact nomatch hwas.symm.trans ((recordSuccess_spec b.snapshot).2.2.2.1.1 hnow)
      | fail =>
        have hthreshold := (recordFailure_spec b.snapshot opts _).2.2.2.2.2 hwas hnow
        have hstreak := hnext.streak
        rw [hstreak]
        exact hthreshold.trans (recordFailure_spec b.snapshot opts _).2.1.ge
      | ignore => exact nomatch hwas.symm.trans hnow

/-- **Overlapping calls** respect the breaker's law in a run exactly when every success that arrives in a half-open period
is that of one of its probes. -/
theorem overlapping_lawful_iff (opts : CircuitBreakerOptions) (clock : ℚ) (es : List BreakerEvent) :
    Along (watched opts) (fun x e => Lawful opts x e (watched opts x e)) (Breaker.fresh clock) es ↔
      Along (watched opts) Timely (Breaker.fresh clock) es := by
  have hinv : Always (watched opts) (fun x => Inv opts x.1 x.2) (Breaker.fresh clock) es :=
    Always.of_inductive (inv_fresh opts clock) fun x e h => inv_step h e
  exact Along.congr hinv fun x e h => lawful_iff h e

/-- Two calls start, the second fails and opens the breaker, and a third is let through half a minute later. -/
def overtaken : List BreakerEvent :=
  [⟨0, .start⟩, ⟨0, .start⟩, ⟨0, .settle 1 .failure⟩, ⟨30000, .start⟩]

/-- The first call of all succeeds while the third is on its way, and the breaker closes. -/
theorem closed_by_an_old_call : ¬ ∀ (opts : CircuitBreakerOptions) (clock : ℚ) (es : List BreakerEvent),
    Along (watched opts) (fun x e => Lawful opts x e (watched opts x e)) (Breaker.fresh clock) es := by
  intro h
  have hlast := (h { DEFAULT_CIRCUIT_BREAKER_OPTIONS with failureThreshold := 1 } 0
    (overtaken ++ [⟨0, .settle 0 .success⟩])).last
  obtain ⟨-, call, -, hact, hprobe⟩ := hlast.closes (by decide +kernel) (by decide +kernel)
  obtain ⟨rfl, -⟩ := BreakerAct.settle.inj hact
  revert hprobe
  decide +kernel

end ChronoSynth.Server

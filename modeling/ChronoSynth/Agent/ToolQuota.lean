import ChronoSynth.Agent.AutoAuthorization
import ChronoSynth.Lib.Run

/-!
# Daily quotas of tools

`tool-invocation-pipeline.ts`: a call of a tool counts the successful calls of the last day in `tool_invocations`, then
calls the adapter, and inserts its own row when that has come back. Any number of processes share the table; of a call,
the count, the call of the adapter and the row are steps of their own.

* What a persona is permitted does not change here. What the authorisations, the permission's expiry and the store of
  confirmations answer is part of the step that asks them.
* The history of adapter calls is what the quota is about (`WithinQuota`). No step reads it.

`withinQuota` says which runs keep the quota: a call is counted while no other one is under way, and adapters succeed.
-/

namespace ChronoSynth.Agent

/-! ## The pipeline -/

inductive ToolInvocationStatus
  | success | failed | timeout | deniedPermission | deniedQuota | deniedBudget | deniedCircuitOpen | toolNotFound
  | pendingConfirmation
  deriving DecidableEq

/-- A row of `tool_invocations`. -/
structure ToolInvocation where
  key : PermissionKey
  status : ToolInvocationStatus
  costCents : ℤ
  invokedAt : ℤ

structure ToolAdapter extends ToolMetadata where
  defaultMaxPerDay : ℕ
  isHighRisk : List (String × Json) → Bool

structure InvokeRequest where
  key : PermissionKey
  arguments : List (String × Json)
  confirmationToken : Option String

/-- What other tables answer. -/
structure GateAnswers where
  authorized : Bool
  permitted : Bool
  tokenValid : Bool

def ONE_DAY_MS : ℤ := 24 * 60 * 60 * 1000

def extractTarget (arguments : List (String × Json)) : Option String :=
  ["recipient", "to", "target", "url", "calendarId"].findSome? fun name =>
    match arguments.lookup name with
    | some (.str value) => if value ≠ "" then some value else none
    | _ => none

def ToolConstraints.targetDenied (constraints : ToolConstraints) : Option String → Bool
  | none => false
  | some target =>
    (constraints.denyList.getD []).contains target ||
      !(constraints.allowList.getD []).isEmpty && !(constraints.allowList.getD []).contains target

def ToolAdapter.maxPerDay (adapter : ToolAdapter) (constraints : ToolConstraints) : ℕ :=
  constraints.maxActionsPerDay.getD adapter.defaultMaxPerDay

def ToolAdapter.requireConfirmation (adapter : ToolAdapter) (constraints : ToolConstraints)
    (arguments : List (String × Json)) : Bool :=
  adapter.highRisk || adapter.isHighRisk arguments || constraints.requireConfirmation == some true

/-- `handleConfirmation`, where it decides. -/
def InvokeRequest.handleConfirmation (request : InvokeRequest) (tokenValid : Bool) : Option ToolInvocationStatus :=
  match request.confirmationToken.filter (· ≠ "") with
  | some _ => if tokenValid then none else some .deniedPermission
  | none => some .pendingConfirmation

/-- The rows that both queries read. -/
def dailyRows (rows : List ToolInvocation) (key : PermissionKey) (sinceMs : ℤ) : List ToolInvocation :=
  rows.filter fun row => row.key = key ∧ sinceMs ≤ row.invokedAt ∧ row.status = .success

def dailyUsageCount (rows : List ToolInvocation) (key : PermissionKey) (now : ℤ) : ℕ :=
  (dailyRows rows key (now - ONE_DAY_MS)).length

def dailyCostCents (rows : List ToolInvocation) (key : PermissionKey) (now : ℤ) : ℤ :=
  (dailyRows rows key (now - ONE_DAY_MS)).foldl (fun cents row => cents + row.costCents) 0

/-- The tools, what the personas are permitted, and the calls that are made, by number. -/
structure ToolPipeline where
  registry : String → Option ToolAdapter
  permissions : PermissionKey → ToolConstraints
  requests : ℕ → InvokeRequest

namespace ToolPipeline

variable (p : ToolPipeline)

/-- The gates of `invoke`: how a call is refused before it comes to the circuit breaker. -/
def refusal (request : InvokeRequest) (answers : GateAnswers) (used : ℕ) (spentCents : ℤ) :
    Option ToolInvocationStatus :=
  match p.registry request.key.toolId with
  | none => some .toolNotFound
  | some adapter =>
    let constraints := p.permissions request.key
    if !answers.authorized then some .deniedPermission
    else if !answers.permitted then some .deniedPermission
    else if constraints.targetDenied (extractTarget request.arguments) then some .deniedPermission
    else if 0 < adapter.maxPerDay constraints ∧ adapter.maxPerDay constraints ≤ used then some .deniedQuota
    else if constraints.budgetLimitCents.any fun limit : ℕ => (limit : ℤ) ≤ spentCents then some .deniedBudget
    else if adapter.requireConfirmation constraints request.arguments then request.handleConfirmation answers.tokenValid
    else none

/-- The quota of a permission. -/
def maxPerDay (key : PermissionKey) : Option ℕ :=
  (p.registry key.toolId).map fun adapter => adapter.maxPerDay (p.permissions key)

end ToolPipeline

/-! ## Runs -/

/-- How far a call has come, with the time it was made at or has called the adapter at. -/
inductive ToolCallPhase
  | unmade
  | entered (now : ℤ)
  | admitted (now : ℤ)
  | running (startedAt : ℤ)
  | returned
  deriving DecidableEq

/-- The call has been counted for and may yet be an adapter call that has no row. -/
def ToolCallPhase.UnderWay : ToolCallPhase → Prop
  | admitted _ | running _ => True
  | unmade | entered _ | returned => False

/-- How an adapter call ends. -/
inductive AdapterOutcome
  | success (costCents : ℤ)
  | failed
  | timeout

structure ToolCalls where
  clock : ℤ
  rows : List ToolInvocation
  phase : ℕ → ToolCallPhase
  adapterCalls : List (PermissionKey × ℤ)

inductive ToolCallEvent
  | tick (elapsed : ℕ)
  | invoke (call : ℕ)
  | count (call : ℕ) (answers : GateAnswers)
  | start (call : ℕ) (circuitOpen : Bool)
  | finish (call : ℕ) (outcome : AdapterOutcome)

namespace ToolCalls

/-- No call has been made. -/
def new (clock : ℤ) : ToolCalls := ⟨clock, [], fun _ => .unmade, []⟩

def enter (s : ToolCalls) (call : ℕ) (phase : ToolCallPhase) : ToolCalls :=
  { s with phase := Function.update s.phase call phase }

/-- `recordInvocation`, after which the call returns. -/
def recordInvocation (s : ToolCalls) (call : ℕ) (row : ToolInvocation) : ToolCalls :=
  { s.enter call .returned with rows := s.rows ++ [row] }

/-- `adapter.invoke`. -/
def invokeAdapter (s : ToolCalls) (call : ℕ) (key : PermissionKey) : ToolCalls :=
  { s.enter call (.running s.clock) with adapterCalls := (key, s.clock) :: s.adapterCalls }

def adapterCallsIn (s : ToolCalls) (key : PermissionKey) (q : ℤ → Prop) [DecidablePred q] : ℕ :=
  s.adapterCalls.countP fun c => c.1 = key ∧ q c.2

/-- **The quota is kept**: in no 24 hours are there more adapter calls than it says. -/
def WithinQuota (m : ℕ) (key : PermissionKey) (s : ToolCalls) : Prop :=
  ∀ since, s.adapterCallsIn key (fun t => since ≤ t ∧ t ≤ since + ONE_DAY_MS) ≤ m

end ToolCalls

def AdapterOutcome.row (key : PermissionKey) (startedAt : ℤ) : AdapterOutcome → ToolInvocation
  | success costCents => ⟨key, .success, costCents, startedAt⟩
  | failed => ⟨key, .failed, 0, startedAt⟩
  | timeout => ⟨key, .timeout, 0, startedAt⟩

def AdapterOutcome.Success : AdapterOutcome → Prop
  | success _ => True
  | failed | timeout => False

namespace ToolPipeline

variable (p : ToolPipeline)

def key (call : ℕ) : PermissionKey := (p.requests call).key

def step (s : ToolCalls) : ToolCallEvent → ToolCalls
  | .tick elapsed => { s with clock := s.clock + elapsed }
  | .invoke call =>
    match s.phase call with
    | .unmade => s.enter call (.entered s.clock)
    | _ => s
  | .count call answers =>
    match s.phase call with
    | .entered now =>
      match p.refusal (p.requests call) answers (dailyUsageCount s.rows (p.key call) now)
          (dailyCostCents s.rows (p.key call) now) with
      | some status => s.recordInvocation call ⟨p.key call, status, 0, s.clock⟩
      | none => s.enter call (.admitted now)
    | _ => s
  | .start call circuitOpen =>
    match s.phase call with
    | .admitted _ =>
      if circuitOpen then s.recordInvocation call ⟨p.key call, .deniedCircuitOpen, 0, s.clock⟩
      else s.invokeAdapter call (p.key call)
    | _ => s
  | .finish call outcome =>
    match s.phase call with
    | .running startedAt => s.recordInvocation call (outcome.row (p.key call) startedAt)
    | _ => s

/-- A call that returns without having called the adapter leaves what is counted as it was. -/
def ConsumesNothing (s : ToolCalls) (e : ToolCallEvent) : Prop :=
  ∀ call, (∀ startedAt, s.phase call ≠ .running startedAt) → s.phase call ≠ .returned →
    (p.step s e).phase call = .returned → (p.step s e).adapterCalls = s.adapterCalls ∧
      ∀ key now, dailyRows (p.step s e).rows key now = dailyRows s.rows key now

/-- No other call of the key is under way when one counts, and adapter calls of the key succeed. -/
def OneAtATime (key : PermissionKey) (s : ToolCalls) : ToolCallEvent → Prop
  | .count call _ => p.key call = key → ∀ other, p.key other = key → ¬ (s.phase other).UnderWay
  | .finish call outcome => p.key call = key → outcome.Success
  | _ => True

end ToolPipeline

open ToolCalls

/-! ## What a run keeps -/

section
variable {p : ToolPipeline} {m : ℕ} {key : PermissionKey} {s : ToolCalls} {call : ℕ} {since now : ℤ}
  {q r : ℤ → Prop} [DecidablePred q] [DecidablePred r]

theorem dailyRows_append {rows : List ToolInvocation} {row : ToolInvocation} :
    dailyRows (rows ++ [row]) key since = dailyRows rows key since ++
      if row.key = key ∧ since ≤ row.invokedAt ∧ row.status = .success then [row] else [] := by
  rw [dailyRows, List.filter_append, List.filter_singleton, Bool.cond_decide]
  rfl

theorem dailyRows_append_of {rows : List ToolInvocation} {row : ToolInvocation}
    (h : row.key = key → row.status ≠ .success) :
    dailyRows (rows ++ [row]) key since = dailyRows rows key since := by
  rw [dailyRows_append, if_neg fun hand => h hand.1 hand.2.2, List.append_nil]

namespace ToolPipeline

theorem room_of_refusal {request : InvokeRequest} {answers : GateAnswers} {used : ℕ} {spentCents : ℤ}
    (hm : p.maxPerDay request.key = some m) (hpos : 0 < m) (h : p.refusal request answers used spentCents = none) :
    used < m := by
  rw [maxPerDay, Option.map_eq_some_iff] at hm
  obtain ⟨adapter, hadapter, rfl⟩ := hm
  rw [refusal, hadapter] at h
  by_contra hused
  simp only [hpos, Nat.not_lt.1 hused, and_self, if_true] at h
  split at h
  · cases h
  · split at h
    · cases h
    · split at h <;> cases h

theorem handleConfirmation_ne_success {request : InvokeRequest} {tokenValid : Bool} :
    request.handleConfirmation tokenValid ≠ some .success := by
  unfold InvokeRequest.handleConfirmation
  split
  · split <;> simp
  · simp

theorem refusal_ne_success {request : InvokeRequest} {answers : GateAnswers} {used : ℕ} {spentCents : ℤ} :
    p.refusal request answers used spentCents ≠ some .success := by
  unfold refusal
  split
  · simp
  · simp only
    split_ifs
    · simp
    · simp
    · simp
    · simp
    · simp
    · exact handleConfirmation_ne_success
    · simp

end ToolPipeline

namespace ToolCalls

theorem adapterCallsIn_mono (h : ∀ t, q t → r t) : s.adapterCallsIn key q ≤ s.adapterCallsIn key r :=
  List.countP_mono_left fun c _ hc => by
    rw [decide_eq_true_eq] at hc ⊢
    exact ⟨hc.1, h _ hc.2⟩

theorem adapterCallsIn_invokeAdapter {key' : PermissionKey} :
    (s.invokeAdapter call key').adapterCallsIn key q =
      s.adapterCallsIn key q + if key' = key ∧ q s.clock then 1 else 0 := by
  rw [adapterCallsIn, invokeAdapter, List.countP_cons]
  simp only [decide_eq_true_eq]
  rfl

/-- What the table counts is the adapter calls, but for the one that runs. Who is admitted finds room. -/
structure Kept (p : ToolPipeline) (m : ℕ) (key : PermissionKey) (s : ToolCalls) : Prop where
  within : s.WithinQuota m key
  times : ∀ call now, s.phase call = .entered now ∨ s.phase call = .admitted now → now ≤ s.clock
  alone : ∀ i j, p.key i = key → p.key j = key → (s.phase i).UnderWay → (s.phase j).UnderWay → i = j
  room : ∀ call now, p.key call = key → s.phase call = .admitted now → s.adapterCallsIn key (now - ONE_DAY_MS ≤ ·) < m
  counted : (∀ call startedAt, p.key call = key → s.phase call ≠ .running startedAt) →
    ∀ since, s.adapterCallsIn key (since ≤ ·) = (dailyRows s.rows key since).length
  running : ∀ call startedAt, p.key call = key → s.phase call = .running startedAt →
    ∀ since, s.adapterCallsIn key (since ≤ ·) = (dailyRows s.rows key since).length + if since ≤ startedAt then 1 else 0

theorem kept_new {clock : ℤ} : Kept p m key (new clock) where
  within _ := Nat.zero_le _
  times _ _ h := by rcases h with h | h <;> cases h
  alone _ _ _ _ h := h.elim
  room _ _ _ h := by cases h
  counted _ _ := rfl
  running _ _ _ h := by cases h

theorem Kept.tick (h : Kept p m key s) (elapsed : ℕ) : Kept p m key { s with clock := s.clock + elapsed } where
  within := h.within
  times call now hnow := (h.times call now hnow).trans (Int.le_add_of_nonneg_right (Int.natCast_nonneg _))
  alone := h.alone
  room := h.room
  counted := h.counted
  running := h.running

theorem Kept.enter (h : Kept p m key s) {phase : ToolCallPhase} {rows : List ToolInvocation}
    (hphase : p.key call = key → ¬ phase.UnderWay)
    (hbefore : p.key call = key → ∀ startedAt, s.phase call ≠ .running startedAt)
    (htime : ∀ now, phase = .entered now ∨ phase = .admitted now → now ≤ s.clock)
    (hrows : ∀ since, dailyRows rows key since = dailyRows s.rows key since) :
    Kept p m key { s.enter call phase with rows } := by
  have hold : ∀ i, p.key i = key → (Function.update s.phase call phase i).UnderWay →
      i ≠ call ∧ Function.update s.phase call phase i = s.phase i := by
    intro i hi hunder
    have hne : i ≠ call := by
      rintro rfl
      rw [Function.update_self] at hunder
      exact hphase hi hunder
    exact ⟨hne, Function.update_of_ne hne _ _⟩
  refine ⟨h.within, fun i now hi => ?_, fun i j hi hj hui huj => ?_, fun i now hi hphase' => ?_, fun hnone since => ?_,
    fun i startedAt hi hphase' since => ?_⟩
  · simp only [ToolCalls.enter, Function.update_apply] at hi
    split at hi
    · exact htime now hi
    · exact h.times i now hi
  · have hi' := hold i hi hui
    have hj' := hold j hj huj
    exact h.alone i j hi hj (hi'.2 ▸ hui) (hj'.2 ▸ huj)
  · have hi' := hold i hi (by rw [show Function.update s.phase call phase i = _ from hphase']; trivial)
    exact h.room i now hi (hi'.2 ▸ hphase')
  · rw [hrows]
    refine h.counted (fun i startedAt hi hrun => ?_) since
    have hne : i ≠ call := by
      rintro rfl
      exact hbefore hi startedAt hrun
    exact hnone i startedAt hi ((Function.update_of_ne hne _ _).trans hrun)
  · have hi' := hold i hi (by rw [show Function.update s.phase call phase i = _ from hphase']; trivial)
    rw [hrows]
    exact h.running i startedAt hi (hi'.2 ▸ hphase') since

theorem Kept.admit (h : Kept p m key s) (hphase : s.phase call = .entered now) (hkey : p.key call = key)
    (halone : ∀ other, p.key other = key → ¬ (s.phase other).UnderWay) (hroom : dailyUsageCount s.rows key now < m) :
    Kept p m key (s.enter call (.admitted now)) := by
  have hnone : ∀ i startedAt, p.key i = key → s.phase i ≠ .running startedAt := fun i startedAt hi hrun =>
    halone i hi (by rw [hrun]; trivial)
  have hcall : ∀ i, p.key i = key → (Function.update s.phase call (.admitted now) i).UnderWay → i = call := by
    intro i hi hunder
    by_contra hne
    rw [Function.update_of_ne hne] at hunder
    exact halone i hi hunder
  refine ⟨h.within, fun i now' hi => ?_, fun i j hi hj hui huj => (hcall i hi hui).trans (hcall j hj huj).symm,
    fun i now' hi hphase' => ?_, fun _ => h.counted hnone, fun i startedAt hi hphase' => ?_⟩
  · simp only [ToolCalls.enter, Function.update_apply] at hi
    split at hi
    · obtain rfl : now = now' := by simpa using hi
      exact h.times call now (.inl hphase)
    · exact h.times i now' hi
  · obtain rfl := hcall i hi (by rw [show Function.update s.phase call _ i = _ from hphase']; trivial)
    obtain rfl : now = now' := by simpa [ToolCalls.enter] using hphase'
    exact (h.counted hnone _).trans_lt hroom
  · obtain rfl := hcall i hi (by rw [show Function.update s.phase call _ i = _ from hphase']; trivial)
    simp [ToolCalls.enter] at hphase'

theorem Kept.invokeAdapter (h : Kept p m key s) (hphase : s.phase call = .admitted now) :
    Kept p m key (s.invokeAdapter call (p.key call)) := by
  by_cases hkey : p.key call = key
  · have hcall : ∀ i, p.key i = key → (s.phase i).UnderWay → i = call := fun i hi hunder =>
      h.alone i call hi hkey hunder (by rw [hphase]; trivial)
    have hcall' : ∀ i, p.key i = key → (Function.update s.phase call (.running s.clock) i).UnderWay → i = call := by
      intro i hi hunder
      by_contra hne
      rw [Function.update_of_ne hne] at hunder
      exact hne (hcall i hi hunder)
    have hnone : ∀ i startedAt, p.key i = key → s.phase i ≠ .running startedAt := by
      intro i startedAt hi hrun
      obtain rfl := hcall i hi (by rw [hrun]; trivial)
      rw [hphase] at hrun
      cases hrun
    refine ⟨fun since => ?_, fun i now' hi => ?_,
      fun i j hi hj hui huj => (hcall' i hi hui).trans (hcall' j hj huj).symm, fun i now' hi hphase' => ?_,
      fun hrun => absurd ?_ (hrun call s.clock hkey), fun i startedAt hi hphase' since => ?_⟩
    · rw [adapterCallsIn_invokeAdapter]
      split
      next hin =>
        -- all that is in these 24 hours has been counted
        have hbefore : s.adapterCallsIn key (fun t => since ≤ t ∧ t ≤ since + ONE_DAY_MS) ≤
            s.adapterCallsIn key (now - ONE_DAY_MS ≤ ·) := by
          have hnow := h.times call now (.inr hphase)
          exact adapterCallsIn_mono fun t ht => by omega
        exact Nat.succ_le_of_lt (hbefore.trans_lt (h.room call now hkey hphase))
      next => exact h.within since
    · simp only [ToolCalls.invokeAdapter, ToolCalls.enter, Function.update_apply] at hi
      split at hi
      · rcases hi with hi | hi <;> cases hi
      · exact h.times i now' hi
    · obtain rfl := hcall' i hi (by rw [show Function.update s.phase call _ i = _ from hphase']; trivial)
      simp [ToolCalls.invokeAdapter, ToolCalls.enter] at hphase'
    · exact Function.update_self ..
    · obtain rfl := hcall' i hi (by rw [show Function.update s.phase call _ i = _ from hphase']; trivial)
      obtain rfl : s.clock = startedAt := by simpa [ToolCalls.invokeAdapter, ToolCalls.enter] using hphase'
      rw [adapterCallsIn_invokeAdapter, h.counted hnone]
      simp [hkey, ToolCalls.invokeAdapter, ToolCalls.enter]
  · have hsame : ∀ (q : ℤ → Prop) [DecidablePred q],
        (s.invokeAdapter call (p.key call)).adapterCallsIn key q = s.adapterCallsIn key q := fun q _ => by
      rw [adapterCallsIn_invokeAdapter, if_neg fun hand => hkey hand.1]
      rfl
    have hentered : Kept p m key (s.enter call (.running s.clock)) := by
      refine h.enter (fun hk => absurd hk hkey) (fun hk => absurd hk hkey) (fun now' hnow => ?_) fun _ => rfl
      rcases hnow with hnow | hnow <;> cases hnow
    refine ⟨fun since => (hsame _).trans_le (hentered.within since), hentered.times, hentered.alone,
      fun i now' hi hphase' => (hsame _).trans_lt (hentered.room i now' hi hphase'),
      fun hnone since => (hsame _).trans (hentered.counted hnone since),
      fun i startedAt hi hphase' since => (hsame _).trans (hentered.running i startedAt hi hphase' since)⟩

theorem Kept.succeed (h : Kept p m key s) {startedAt costCents : ℤ} (hphase : s.phase call = .running startedAt)
    (hkey : p.key call = key) : Kept p m key (s.recordInvocation call ⟨key, .success, costCents, startedAt⟩) := by
  have hcall : ∀ i, p.key i = key → ¬ (Function.update s.phase call .returned i).UnderWay := by
    intro i hi hunder
    by_cases hne : i = call
    · rw [hne, Function.update_self] at hunder
      exact hunder
    · rw [Function.update_of_ne hne] at hunder
      exact hne (h.alone i call hi hkey hunder (by rw [hphase]; trivial))
  refine ⟨h.within, fun i now hi => ?_, fun i _ hi _ hui => absurd hui (hcall i hi),
    fun i now hi hphase' => absurd ?_ (hcall i hi), fun _ since => ?_,
    fun i startedAt hi hphase' => absurd ?_ (hcall i hi)⟩
  · simp only [recordInvocation, ToolCalls.enter, Function.update_apply] at hi
    split at hi
    · rcases hi with hi | hi <;> cases hi
    · exact h.times i now hi
  · rw [show Function.update s.phase call .returned i = _ from hphase']
    trivial
  · refine (h.running call startedAt hkey hphase since).trans ?_
    rw [recordInvocation, dailyRows_append, List.length_append]
    simp only [true_and, and_true]
    split <;> rfl
  · rw [show Function.update s.phase call .returned i = _ from hphase']
    trivial

end ToolCalls

namespace ToolPipeline

/-- **One step.** -/
theorem kept_step (hm : p.maxPerDay key = some m) (hpos : 0 < m) (h : ToolCalls.Kept p m key s) {e : ToolCallEvent}
    (hone : p.OneAtATime key s e) : ToolCalls.Kept p m key (p.step s e) := by
  have hreturned : ∀ now, ToolCallPhase.returned = .entered now ∨ ToolCallPhase.returned = .admitted now →
      now ≤ s.clock := by
    rintro now (hnow | hnow) <;> cases hnow
  cases e with
  | tick elapsed => exact h.tick elapsed
  | invoke call =>
    simp only [step]
    split
    next hphase =>
      refine h.enter (fun _ => id) (fun _ startedAt hrun => ?_) (fun now hnow => ?_) fun _ => rfl
      · rw [hphase] at hrun
        cases hrun
      · obtain rfl : s.clock = now := by simpa using hnow
        exact le_rfl
    next => exact h
  | count call answers =>
    simp only [step]
    split
    next now hphase =>
      have hbefore : ∀ startedAt, s.phase call ≠ .running startedAt := fun startedAt hrun => by
        rw [hphase] at hrun
        cases hrun
      split
      next status hrefused =>
        refine h.enter (fun _ => id) (fun _ => hbefore) hreturned fun since => dailyRows_append_of fun _ hstatus => ?_
        exact refusal_ne_success (hrefused.trans (congrArg some hstatus))
      next hadmitted =>
        by_cases hkey : p.key call = key
        · refine h.admit hphase hkey (hone hkey) ?_
          rw [← hkey]
          exact room_of_refusal (by rw [← hm, ← hkey]; rfl) hpos hadmitted
        · refine h.enter (fun hk => absurd hk hkey) (fun _ => hbefore) (fun now' hnow => ?_) fun _ => rfl
          obtain rfl : now = now' := by simpa using hnow
          exact h.times call now (.inl hphase)
    next => exact h
  | start call circuitOpen =>
    simp only [step]
    split
    next now hphase =>
      split
      · refine h.enter (fun _ => id) (fun _ startedAt hrun => ?_) hreturned fun since =>
          dailyRows_append_of fun _ hstatus => ?_
        · rw [hphase] at hrun
          cases hrun
        · cases hstatus
      · exact h.invokeAdapter hphase
    next => exact h
  | finish call outcome =>
    simp only [step]
    split
    next startedAt hphase =>
      by_cases hkey : p.key call = key
      · cases outcome with
        | success costCents =>
          rw [hkey]
          exact h.succeed hphase hkey
        | failed => exact (hone hkey).elim
        | timeout => exact (hone hkey).elim
      · refine h.enter (fun _ => id) (fun hk => absurd hk hkey) hreturned fun since =>
          dailyRows_append_of fun hrow => ?_
        cases outcome with
        | success costCents => exact absurd hrow hkey
        | failed => exact absurd hrow hkey
        | timeout => exact absurd hrow hkey
    next => exact h

/-- What is refused does not count. -/
theorem consumesNothing (e : ToolCallEvent) : p.ConsumesNothing s e := by
  intro i hrun hbefore hafter
  have hsame : ∀ {call : ℕ} {phase : ToolCallPhase}, phase ≠ .returned →
      Function.update s.phase call phase i ≠ .returned := by
    intro call phase hphase
    rw [Function.update_apply]
    split
    · exact hphase
    · exact hbefore
  have hother : ∀ {call : ℕ}, Function.update s.phase call .returned i = .returned → i = call := by
    intro call hcall
    by_contra hne
    rw [Function.update_of_ne hne] at hcall
    exact hbefore hcall
  cases e with
  | tick elapsed => exact absurd hafter hbefore
  | invoke call =>
    simp only [step] at hafter
    split at hafter
    · exact absurd hafter (hsame (by simp))
    · exact absurd hafter hbefore
  | count call answers =>
    simp only [step] at hafter ⊢
    split at hafter
    next now hphase =>
      split at hafter
      next status hrefused =>
        refine ⟨rfl, fun key now => dailyRows_append_of fun _ hstatus => ?_⟩
        exact refusal_ne_success (hrefused.trans (congrArg some hstatus))
      next => exact absurd hafter (hsame (by simp))
    next => exact absurd hafter hbefore
  | start call circuitOpen =>
    simp only [step] at hafter ⊢
    split at hafter
    next now hphase =>
      split at hafter
      next hopen =>
        simp only [hopen, if_true]
        exact ⟨rfl, fun key now => dailyRows_append_of fun _ hstatus => by cases hstatus⟩
      next => exact absurd hafter (hsame (by simp))
    next => exact absurd hafter hbefore
  | finish call outcome =>
    simp only [step] at hafter
    split at hafter
    next startedAt hphase => exact absurd (hother hafter ▸ hphase) (hrun startedAt)
    next => exact absurd hafter hbefore

/-- **The quota is kept**, and calls that are refused do not count, in a run in which no call counts while another is
under way and the adapter calls succeed. -/
theorem withinQuota (p : ToolPipeline) (key : PermissionKey) (m : ℕ) (hm : p.maxPerDay key = some m) (hpos : 0 < m)
    (clock : ℤ) (events : List ToolCallEvent) (h : Along p.step (p.OneAtATime key) (new clock) events) :
    Always p.step (WithinQuota m key) (new clock) events ∧ Along p.step p.ConsumesNothing (new clock) events :=
  ⟨(Always.of_step kept_new (fun _ _ hs hone => kept_step hm hpos hs hone) h).mono fun _ hs => hs.within,
    fun _ e _ => consumesNothing e⟩

end ToolPipeline

end

/-! ## Two calls of a tool that may be called once -/

namespace ToolPipeline

def search : PermissionKey := ⟨"t1", "p1", "web.search"⟩

def searchOnce : ToolPipeline where
  registry _ := some ⟨⟨"web.search", none, false⟩, 1, fun _ => false⟩
  permissions _ := ⟨none, none, none, none, none⟩
  requests _ := ⟨search, [], none⟩

def allowed : GateAnswers := ⟨true, true, false⟩

/-- One after the other, the second is refused. -/
theorem withinQuota_search :
    Always searchOnce.step (WithinQuota 1 search) (new 0)
      [.invoke 0, .count 0 allowed, .start 0 false, .finish 0 (.success 0), .invoke 1, .count 1 allowed] ∧
    Along searchOnce.step searchOnce.ConsumesNothing (new 0)
      [.invoke 0, .count 0 allowed, .start 0 false, .finish 0 (.success 0), .invoke 1, .count 1 allowed] := by
  refine withinQuota searchOnce search 1 rfl Nat.one_pos 0 _ ?_
  have hfirst : ∀ other, ¬ ((run searchOnce.step (new 0) [.invoke 0]).phase other).UnderWay := by
    rintro (_ | other) <;> exact id
  have hsecond : ∀ other, ¬ ((run searchOnce.step (new 0)
      [.invoke 0, .count 0 allowed, .start 0 false, .finish 0 (.success 0), .invoke 1]).phase other).UnderWay := by
    rintro (_ | _ | other) <;> exact id
  exact along_cons.2 ⟨trivial, along_cons.2 ⟨fun _ other _ => hfirst other, along_cons.2 ⟨trivial, along_cons.2
    ⟨fun _ => trivial, along_cons.2 ⟨trivial, along_cons.2 ⟨fun _ other _ => hsecond other, along_nil⟩⟩⟩⟩⟩⟩

/-- Side by side, both call the adapter. -/
theorem not_withinQuota : ¬ ∀ (p : ToolPipeline) (key : PermissionKey) (m : ℕ), p.maxPerDay key = some m →
    ∀ (clock : ℤ) (events : List ToolCallEvent), Always p.step (WithinQuota m key) (new clock) events ∧
      Along p.step p.ConsumesNothing (new clock) events := by
  intro h
  have hquota := (h searchOnce search 1 rfl 0
    [.invoke 0, .invoke 1, .count 0 allowed, .count 1 allowed, .start 0 false, .start 1 false]).1.last 0
  have htwo : (run searchOnce.step (new 0)
      [.invoke 0, .invoke 1, .count 0 allowed, .count 1 allowed, .start 0 false, .start 1 false]).adapterCallsIn search
        (fun t => 0 ≤ t ∧ t ≤ 0 + ONE_DAY_MS) = 2 := by decide
  omega

end ToolPipeline

end ChronoSynth.Agent

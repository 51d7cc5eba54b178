import Mathlib.Algebra.BigOperators.Group.List.Basic
import Mathlib.Algebra.Order.BigOperators.Group.List
import Mathlib.Data.List.Induction
import Mathlib.Logic.Function.Basic
import ChronoSynth.Lib.JsText

/-!
# Observability events and rollups

What an event adds to the rollup of its tenant (`toRollupDelta`), and the row of `observability_rollups` with
the statement that adds it. The columns that are sums are added up exactly.
-/

namespace ChronoSynth.Observability

inductive ObservabilityEventType
  | runtimeCompleted | taskOutcome | walletSettlementCompleted | governanceCaseOpened
  | governanceActionApplied | personaGrowthRecorded
  deriving DecidableEq, Repr

structure ObservabilityStoredEvent where
  id : ℕ
  tenantId : String
  eventType : ObservabilityEventType
  /-- The members of the payload. -/
  payload : List (String × Json)
  createdAt : ℤ

/-- The counters of a tenant; as a delta, what they grow by. -/
structure Counters where
  runtimeCompletedCount : ℤ
  runtimeDurationTotalMs : ℤ
  taskTerminalCount : ℤ
  taskSuccessCount : ℤ
  taskRejectedCount : ℤ
  taskDisputedCount : ℤ
  walletSettlementCount : ℤ
  walletSettlementTotalAmountMinor : ℤ
  walletSettlementLatencyTotalMs : ℤ
  governanceCaseOpenedCount : ℤ
  governanceCaseActiveCount : ℤ
  governanceActionAppliedCount : ℤ
  personaGrowthTotal : ℚ
  personaGrowthEventCount : ℤ
  personaReputationDeltaTotal : ℚ
  deriving DecidableEq, Repr

attribute [ext] Counters

/-- What `delta.… ?? 0` makes of a delta that sets nothing. -/
def Counters.zero : Counters := ⟨0, 0, 0, 0, 0, 0, 0, 0, 0, 0, 0, 0, 0, 0, 0⟩

/-- `observability_rollups.… + excluded.…`, in every column. -/
def Counters.add (a b : Counters) : Counters where
  runtimeCompletedCount := a.runtimeCompletedCount + b.runtimeCompletedCount
  runtimeDurationTotalMs := a.runtimeDurationTotalMs + b.runtimeDurationTotalMs
  taskTerminalCount := a.taskTerminalCount + b.taskTerminalCount
  taskSuccessCount := a.taskSuccessCount + b.taskSuccessCount
  taskRejectedCount := a.taskRejectedCount + b.taskRejectedCount
  taskDisputedCount := a.taskDisputedCount + b.taskDisputedCount
  walletSettlementCount := a.walletSettlementCount + b.walletSettlementCount
  walletSettlementTotalAmountMinor := a.walletSettlementTotalAmountMinor + b.walletSettlementTotalAmountMinor
  walletSettlementLatencyTotalMs := a.walletSettlementLatencyTotalMs + b.walletSettlementLatencyTotalMs
  governanceCaseOpenedCount := a.governanceCaseOpenedCount + b.governanceCaseOpenedCount
  governanceCaseActiveCount := a.governanceCaseActiveCount + b.governanceCaseActiveCount
  governanceActionAppliedCount := a.governanceActionAppliedCount + b.governanceActionAppliedCount
  personaGrowthTotal := a.personaGrowthTotal + b.personaGrowthTotal
  personaGrowthEventCount := a.personaGrowthEventCount + b.personaGrowthEventCount
  personaReputationDeltaTotal := a.personaReputationDeltaTotal + b.personaReputationDeltaTotal

/-- A row of `observability_rollups`, and a delta. -/
structure Rollup where
  counters : Counters
  updatedAt : ℚ
  deriving DecidableEq, Repr

/-- `INSERT … ON CONFLICT(tenant_id) DO UPDATE`: a delta is the first row of its tenant, or is added to it; a
sum of active cases below zero is taken for zero. -/
def Rollup.upsert (row : Option Rollup) (delta : Rollup) : Rollup :=
  match row with
  | none => delta
  | some row => {
      counters := { row.counters.add delta.counters with
        governanceCaseActiveCount :=
          max 0 (row.counters.governanceCaseActiveCount + delta.counters.governanceCaseActiveCount) }
      updatedAt := delta.updatedAt }

/-! ## Deltas -/

namespace ObservabilityStoredEvent

variable (event : ObservabilityStoredEvent)

/-- `event.payload.…`. -/
def member (name : String) : Option Json := (event.payload.find? fun m => m.1 = name).map Prod.snd

def numberValue (name : String) : Option ℚ :=
  match event.member name with
  | some (.num n) => some n.val
  | _ => none

def nonNegativeInt (name : String) : ℤ :=
  match event.numberValue name with
  | none => 0
  | some n => max 0 (mathRound n)

def stringValue (name : String) : Option String :=
  match event.member name with
  | some (.str s) => if 0 < s.length then some s else none
  | _ => none

/-- `event.payload.… === true`. -/
def isTrue (name : String) : Bool :=
  match event.member name with
  | some (.bool b) => b
  | _ => false

/-- A number that is 1 if the condition holds. -/
def flag (c : Prop) [Decidable c] : ℤ := if c then 1 else 0

def activeStatuses : List String := ["open", "appealed"]

/-- An action that takes a case out of the active ones. -/
def shouldCloseActiveCase : Prop :=
  ∃ previousStatus ∈ event.stringValue "previousStatus", ∃ nextStatus ∈ event.stringValue "caseStatus",
    previousStatus ∈ activeStatuses ∧ nextStatus ∉ activeStatuses

instance : Decidable event.shouldCloseActiveCase := by
  unfold shouldCloseActiveCase
  infer_instance

def isTerminal : Bool := (event.member "terminal").isNone || event.isTrue "terminal"

/-- `toRollupDelta`. -/
def toRollupDelta : Rollup where
  counters :=
    match event.eventType with
    | .runtimeCompleted => { Counters.zero with
        runtimeCompletedCount := 1, runtimeDurationTotalMs := event.nonNegativeInt "durationMs" }
    | .taskOutcome => { Counters.zero with
        taskTerminalCount := flag event.isTerminal
        taskSuccessCount := flag (event.isTerminal ∧ event.isTrue "success")
        taskRejectedCount := flag (event.isTerminal ∧ event.stringValue "outcome" = some "rejected")
        taskDisputedCount := flag (event.isTerminal ∧ event.stringValue "outcome" = some "disputed") }
    | .walletSettlementCompleted => { Counters.zero with
        walletSettlementCount := 1
        walletSettlementTotalAmountMinor := event.nonNegativeInt "totalAmountMinor"
        walletSettlementLatencyTotalMs := event.nonNegativeInt "latencyMs" }
    | .governanceCaseOpened => { Counters.zero with
        governanceCaseOpenedCount := 1, governanceCaseActiveCount := 1 }
    | .governanceActionApplied => { Counters.zero with
        governanceActionAppliedCount := 1
        governanceCaseActiveCount := - flag event.shouldCloseActiveCase }
    | .personaGrowthRecorded => { Counters.zero with
        personaGrowthTotal := (event.numberValue "growthDelta").getD 0
        personaGrowthEventCount := 1
        personaReputationDeltaTotal := (event.numberValue "reputationDelta").getD 0 }
  updatedAt := (event.numberValue "updatedAt").getD event.createdAt

def active : ℤ := event.toRollupDelta.counters.governanceCaseActiveCount

theorem active_cases : event.active = 0 ∨ event.active = 1 ∨ event.active = -1 := by
  simp only [active, toRollupDelta]
  cases event.eventType with
  | governanceCaseOpened => exact .inr (.inl rfl)
  | governanceActionApplied =>
    by_cases h : event.shouldCloseActiveCase
    · exact .inr (.inr (by simp only [flag, if_pos h]))
    · exact .inl (by simp only [flag, if_neg h, neg_zero])
  | _ => exact .inl rfl

end ObservabilityStoredEvent

/-! ## What events add up to -/

instance : Add Counters := ⟨Counters.add⟩

instance : Zero Counters := ⟨Counters.zero⟩

instance : AddCommMonoid Counters where
  add_assoc a b c := by
    ext <;> exact add_assoc _ _ _
  zero_add a := by
    ext <;> exact zero_add _
  add_zero a := by
    ext <;> exact add_zero _
  add_comm a b := by
    ext <;> exact add_comm _ _
  nsmul := nsmulRec

/-- The row of a tenant once the events have been applied, in this order. -/
def rollupOf (events : List ObservabilityStoredEvent) : Option Rollup :=
  events.foldl (fun row event => some (Rollup.upsert row event.toRollupDelta)) none

/-- The sum of all deltas. -/
def total (events : List ObservabilityStoredEvent) : Counters :=
  (events.map fun event => event.toRollupDelta.counters).sum

/-- What becomes of the active cases: each change after the first is cut off at zero. -/
def activeCases : List ℤ → ℤ
  | [] => 0
  | d :: ds => ds.foldl (fun n d => max 0 (n + d)) d

theorem activeCases_snoc (d : ℤ) (ds : List ℤ) (x : ℤ) :
    activeCases (d :: (ds ++ [x])) = max 0 (activeCases (d :: ds) + x) := by
  simp only [activeCases, List.foldl_append, List.foldl_cons, List.foldl_nil]

theorem rollupOf_snoc (events : List ObservabilityStoredEvent) (event : ObservabilityStoredEvent) :
    rollupOf (events ++ [event]) = some (Rollup.upsert (rollupOf events) event.toRollupDelta) := by
  simp only [rollupOf, List.foldl_append, List.foldl_cons, List.foldl_nil]

/-- **The rollup in closed form**: sums, but for the active cases, and the time of the last event. -/
theorem rollupOf_cons (first : ObservabilityStoredEvent) (events : List ObservabilityStoredEvent) :
    rollupOf (first :: events) = some {
      counters := { total (first :: events) with
        governanceCaseActiveCount := activeCases ((first :: events).map ObservabilityStoredEvent.active) }
      updatedAt := (events.getLastD first).toRollupDelta.updatedAt } := by
  induction events using List.reverseRecOn with
  | nil =>
    have hsum : total [first] = first.toRollupDelta.counters := by simp [total]
    rw [hsum]
    rfl
  | append_singleton events event ih =>
    have hsum : total (first :: (events ++ [event])) =
        (total (first :: events)).add event.toRollupDelta.counters := by
      rw [total, ← List.cons_append, List.map_append, List.sum_append, List.map_singleton, List.sum_singleton]
      rfl
    have hactive : activeCases ((first :: (events ++ [event])).map ObservabilityStoredEvent.active) =
        max 0 (activeCases ((first :: events).map ObservabilityStoredEvent.active) + event.active) := by
      rw [List.map_cons, List.map_append, List.map_singleton, activeCases_snoc, ← List.map_cons]
    have hlast : (events ++ [event]).getLastD first = event := by simp
    rw [← List.cons_append, rollupOf_snoc, ih, List.cons_append, hsum, hactive, hlast]
    rfl

/-! ## Orders -/

section
variable {ds : List ℤ}

/-- Where no sum of two or more changes is below zero, nothing is cut off. -/
theorem activeCases_eq_sum (h : ∀ pre, pre <+: ds → 2 ≤ pre.length → 0 ≤ pre.sum) : activeCases ds = ds.sum := by
  induction ds using List.reverseRecOn with
  | nil => rfl
  | append_singleton ds x ih =>
    have ih := ih fun pre hpre => h pre (hpre.trans (List.prefix_append _ _))
    cases ds with
    | nil => simp [activeCases]
    | cons d ds =>
      have hle := h _ (List.prefix_refl _) (by simp)
      rw [List.cons_append, activeCases_snoc, ih]
      simp only [List.sum_cons, List.cons_append, List.sum_append, List.sum_nil] at hle ⊢
      omega

/-- Where there is nothing to count, two or more changes leave nothing. -/
theorem activeCases_eq_zero (h : ∀ d ∈ ds, d ≤ 0) (hlen : 2 ≤ ds.length) : activeCases ds = 0 := by
  have hle : ∀ ds : List ℤ, (∀ d ∈ ds, d ≤ 0) → activeCases ds ≤ 0 := by
    intro ds h
    induction ds using List.reverseRecOn with
    | nil => exact le_rfl
    | append_singleton ds x ih =>
      have ih := ih fun d hd => h d (List.mem_append_left _ hd)
      have hx := h x (by simp)
      cases ds with
      | nil => simpa [activeCases] using hx
      | cons d ds =>
        rw [List.cons_append, activeCases_snoc]
        omega
  cases ds using List.reverseRecOn with
  | nil => simp at hlen
  | append_singleton ds x _ =>
    cases ds with
    | nil => simp at hlen
    | cons d ds =>
      have hds := hle (d :: ds) fun d hd => h d (List.mem_append_left _ hd)
      have hx := h x (by simp)
      rw [List.cons_append, activeCases_snoc]
      omega

/-- The changes are cases opened and closed, and others. -/
def Cases (ds : List ℤ) : Prop := ∀ d ∈ ds, d = 0 ∨ d = 1 ∨ d = -1

/-- No case is closed, or none is opened, or there is one that is closed and nothing else but cases opened. -/
def Commuting (ds : List ℤ) : Prop :=
  ds.count (-1) = 0 ∨ ds.count 1 = 0 ∨ ds.count (-1) = 1 ∧ ds.count 0 = 0

instance (ds : List ℤ) : Decidable (Commuting ds) := inferInstanceAs (Decidable (_ ∨ _))

theorem sum_eq_length_sub (h : ∀ d ∈ ds, d = 1 ∨ d = -1) : ds.sum = ds.length - 2 * ds.count (-1) := by
  induction ds with
  | nil => rfl
  | cons d ds ih =>
    have ih := ih fun x hx => h x (List.mem_cons_of_mem _ hx)
    rw [List.sum_cons, ih, List.length_cons]
    rcases h d List.mem_cons_self with rfl | rfl
    · rw [List.count_cons_of_ne (by decide)]
      push_cast
      ring
    · rw [List.count_cons_self]
      push_cast
      ring

theorem closed_counts (h : ∀ d ∈ ds, d = 0 ∨ d = -1) :
    ds.length = ds.count 0 + ds.count (-1) ∧ ds.sum = - ds.count (-1) := by
  induction ds with
  | nil => exact ⟨rfl, rfl⟩
  | cons d ds ih =>
    have ih := ih fun x hx => h x (List.mem_cons_of_mem _ hx)
    rw [List.sum_cons, List.length_cons, ih.1, ih.2]
    rcases h d List.mem_cons_self with rfl | rfl
    · rw [List.count_cons_self, List.count_cons_of_ne (by decide)]
      omega
    · rw [List.count_cons_self, List.count_cons_of_ne (by decide)]
      omega

theorem ne_of_count_eq_zero {x d : ℤ} (h : ds.count x = 0) (hd : d ∈ ds) : d ≠ x :=
  fun hdx => List.count_eq_zero.1 h (hdx ▸ hd)

/-- Nothing is cut off where no case is closed, or one where nothing else but cases opened. -/
theorem Cases.activeCases_eq_sum (hds : Cases ds)
    (h : ds.count (-1) = 0 ∨ ds.count (-1) = 1 ∧ ds.count 0 = 0) : activeCases ds = ds.sum := by
  refine Observability.activeCases_eq_sum fun pre hpre hlen => ?_
  rcases h with h | ⟨h, h0⟩
  · refine List.sum_nonneg fun d hd => ?_
    have hin := hpre.subset hd
    have hne := ne_of_count_eq_zero h hin
    rcases hds d hin with hd | hd | hd <;> omega
  · have hone : ∀ d ∈ pre, d = 1 ∨ d = -1 := fun d hd =>
      (hds d (hpre.subset hd)).resolve_left (ne_of_count_eq_zero h0 (hpre.subset hd))
    have hle : pre.count (-1) ≤ ds.count (-1) := hpre.sublist.count_le _
    rw [sum_eq_length_sub hone]
    omega

theorem activeCases_append {a b : List ℤ} (ha : a ≠ []) :
    activeCases (a ++ b) = b.foldl (fun n d => max 0 (n + d)) (activeCases a) := by
  cases a with
  | nil => exact absurd rfl ha
  | cons d ds => simp only [List.cons_append, activeCases, List.foldl_append]

theorem foldl_opened {n : ℤ} (h : ∀ d ∈ ds, d = 1) (hn : 0 ≤ n) :
    ds.foldl (fun n d => max 0 (n + d)) n = n + ds.length := by
  induction ds generalizing n with
  | nil => simp
  | cons d ds ih =>
    obtain rfl := h d List.mem_cons_self
    rw [List.foldl_cons, ih (fun x hx => h x (List.mem_cons_of_mem _ hx)) (by omega), List.length_cons]
    push_cast
    omega

/-- Where cases are only closed, the count is cut off once. -/
theorem foldl_closed {n : ℤ} (h : ∀ d ∈ ds, d ≤ 0) (hn : 0 ≤ n) :
    ds.foldl (fun n d => max 0 (n + d)) n = max 0 (n + ds.sum) := by
  induction ds generalizing n with
  | nil => simpa using hn
  | cons d ds ih =>
    have hds := fun x hx => h x (List.mem_cons_of_mem _ hx)
    have hd := h d List.mem_cons_self
    have hsum : ds.sum ≤ 0 := by
      have hle := List.sum_le_card_nsmul ds 0 hds
      rwa [nsmul_zero] at hle
    rw [List.foldl_cons, ih hds (by omega), List.sum_cons]
    omega

/-- **Orders.** The active cases come to the same in every order exactly if the changes commute. -/
theorem activeCases_perm_iff (hds : Cases ds) :
    (∀ ds', ds'.Perm ds → activeCases ds' = activeCases ds) ↔ Commuting ds := by
  constructor
  · intro h
    by_contra hne
    simp only [Commuting, not_or, not_and] at hne
    obtain ⟨hclosed, hopened, hmore⟩ := hne
    -- first all that are opened, or first all the others
    have hp := List.filter_append_perm (fun d => decide (d = 1)) ds
    have heq := (h _ hp).trans (h _ (List.perm_append_comm.trans hp)).symm
    generalize hopen : ds.filter (fun d => decide (d = 1)) = opened at hp heq
    generalize hother : ds.filter (fun d => !decide (d = 1)) = others at hp heq
    have ho : ∀ d ∈ opened, d = 1 := fun d hd => by
      rw [← hopen] at hd
      simpa using (List.mem_filter.1 hd).2
    have hr : ∀ d ∈ others, d = 0 ∨ d = -1 := fun d hd => by
      rw [← hother] at hd
      obtain ⟨hd, hd1⟩ := List.mem_filter.1 hd
      have hd1 : d ≠ 1 := by simpa using hd1
      rcases hds d hd with h | h | h
      · exact .inl h
      · exact absurd h hd1
      · exact .inr h
    have hr0 : ∀ d ∈ others, d ≤ 0 := fun d hd => by rcases hr d hd with h | h <;> omega
    have hcount : ∀ x : ℤ, ds.count x = opened.count x + others.count x := fun x => by
      rw [← hp.count_eq, List.count_append]
    have hone : ∀ x : ℤ, x ≠ 1 → opened.count x = 0 := fun x hx =>
      List.count_eq_zero.2 fun hin => hx (ho x hin)
    have hnone : others.count 1 = 0 := List.count_eq_zero.2 fun hin => absurd (hr0 1 hin) (by decide)
    rw [hcount, hone (-1) (by decide)] at hclosed hmore
    rw [hcount, hone 0 (by decide)] at hmore
    rw [hcount, hnone] at hopened
    obtain ⟨hlen, hsum⟩ := closed_counts hr
    have hpos : 0 < opened.length := (Nat.pos_of_ne_zero (by omega)).trans_le List.count_le_length
    have hfirst : activeCases (opened ++ others) = max 0 (opened.length + others.sum) := by
      cases opened with
      | nil => simp at hpos
      | cons d ds' =>
        obtain rfl := ho d List.mem_cons_self
        rw [activeCases_append (List.cons_ne_nil _ _), activeCases,
          foldl_opened (fun d hd => ho d (List.mem_cons_of_mem _ hd)) (by decide),
          foldl_closed hr0 (by omega), List.length_cons]
        push_cast
        rw [add_comm (1 : ℤ)]
    have hlast : activeCases (others ++ opened) = opened.length := by
      rw [activeCases_append (List.ne_nil_of_length_pos (by omega)),
        activeCases_eq_zero hr0 (by omega), foldl_opened ho le_rfl, zero_add]
    rw [hfirst, hlast, hsum] at heq
    omega
  · intro h ds' hp
    have hds' : Cases ds' := fun d hd => hds d (hp.subset hd)
    have hsums : (ds.count (-1) = 0 ∨ ds.count (-1) = 1 ∧ ds.count 0 = 0) →
        activeCases ds' = activeCases ds := by
      intro hs
      rw [hds.activeCases_eq_sum hs, hds'.activeCases_eq_sum (by rwa [hp.count_eq, hp.count_eq]), hp.sum_eq]
    rcases h with h | h | h
    · exact hsums (.inl h)
    · by_cases hlen : 2 ≤ ds.length
      · have hle : ∀ d ∈ ds, d ≤ 0 := fun d hd => by
          have hne := ne_of_count_eq_zero h hd
          rcases hds d hd with hd | hd | hd <;> omega
        rw [activeCases_eq_zero hle hlen,
          activeCases_eq_zero (fun d hd => hle d (hp.subset hd)) (hp.length_eq ▸ hlen)]
      · -- one change or none
        match ds, hlen with
        | [], _ => rw [List.perm_nil.1 hp]
        | [d], _ => rw [List.perm_singleton.1 hp]
        | _ :: _ :: _, hlen => simp at hlen
    · exact hsums (.inr h)

end

variable {events : List ObservabilityStoredEvent}

theorem cases_active : Cases (events.map ObservabilityStoredEvent.active) := by
  intro d hd
  obtain ⟨event, -, rfl⟩ := List.mem_map.1 hd
  exact event.active_cases

theorem exists_perm_active {ds : List ℤ} (h : ds.Perm (events.map ObservabilityStoredEvent.active)) :
    ∃ events' : List ObservabilityStoredEvent, events'.Perm events ∧
      events'.map ObservabilityStoredEvent.active = ds := by
  have hall : List.Forall₂ (fun d (event : ObservabilityStoredEvent) => d = event.active)
      (events.map ObservabilityStoredEvent.active) events := by
    rw [List.forall₂_map_left_iff]
    exact List.forall₂_same.2 fun _ _ => rfl
  obtain ⟨events', hds, hp⟩ := List.perm_comp_forall₂ h hall
  rw [← List.forall₂_map_right_iff (R := fun a b => a = b), List.forall₂_eq_eq_eq] at hds
  exact ⟨events', hp, hds.symm⟩

/-- The counters of a tenant once the events have been applied, in this order. -/
def countersOf (events : List ObservabilityStoredEvent) : Option Counters :=
  (rollupOf events).map Rollup.counters

theorem countersOf_eq (h : events ≠ []) : countersOf events = some { total events with
    governanceCaseActiveCount := activeCases (events.map ObservabilityStoredEvent.active) } := by
  cases events with
  | nil => exact absurd rfl h
  | cons first events => rw [countersOf, rollupOf_cons, Option.map_some]

theorem total_perm {events' : List ObservabilityStoredEvent} (h : events'.Perm events) :
    total events' = total events := (h.map _).sum_eq

/-- The counters come to the same in every order exactly if the active cases do. -/
theorem countersOf_perm_iff :
    (∀ events', events'.Perm events → countersOf events' = countersOf events) ↔
      Commuting (events.map ObservabilityStoredEvent.active) := by
  rw [← activeCases_perm_iff cases_active]
  by_cases hne : events = []
  · subst hne
    refine iff_of_true (fun events' h => ?_) fun ds h => ?_
    · rw [List.perm_nil.1 h]
    · rw [List.perm_nil.1 h, List.map_nil]
  constructor
  · intro h ds hds
    obtain ⟨events', hp, rfl⟩ := exists_perm_active hds
    have hne' : events' ≠ [] := fun h0 => hne (List.nil_perm.1 (h0 ▸ hp))
    have heq := h events' hp
    rw [countersOf_eq hne, countersOf_eq hne'] at heq
    exact congrArg Counters.governanceCaseActiveCount (Option.some.inj heq)
  · intro h events' hp
    have hne' : events' ≠ [] := fun h0 => hne (List.nil_perm.1 (h0 ▸ hp))
    rw [countersOf_eq hne, countersOf_eq hne', total_perm hp, h _ (hp.map _)]

end ChronoSynth.Observability

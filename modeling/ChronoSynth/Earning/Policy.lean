import Mathlib.Algebra.Order.Field.Rat
import Mathlib.Data.List.Sort
import ChronoSynth.Persona.Types

/-!
# The earning policy

`earning-policy.ts`: whether a task may be taken without a human, on economic grounds (`evaluateEarningAdmission`) and
by what the persona has taken in the last day (`evaluateAmlAggregate`). Pure functions of what the caller has counted.

Reasons are kept with the values they name; how they are put into words is left out. The category of a task is a
column that the marketplace model does not have: it is handed in beside the task.
-/

namespace ChronoSynth.Earning

open Persona (Id Time PersonaCoreStatus MarketplaceTask)

inductive MarketplaceTaskCategory
  | writing | coding | research | operations | general
  deriving DecidableEq, Repr

inductive EarningRiskLevel
  | low | medium | high | critical
  deriving DecidableEq, Repr

inductive EarningAdmission
  | autonomous | needs_human_review | forbidden
  deriving DecidableEq, Repr

inductive CategoryRouteMode
  | autonomous | human_review | blocked
  deriving DecidableEq, Repr

/-- What is known of the persona. -/
structure EarningPersonaSnapshot where
  status : PersonaCoreStatus
  reputation : ℚ
  openTaskCount : ℕ
  categoryCompletedCount : ℕ
  recentFailureStreak : ℕ

structure AmlAggregatePolicy where
  maxTasksPerPublisherPerWindow : ℕ
  maxPublisherRewardShare : ℚ
  concentrationMinTasks : ℕ
  maxIdenticalRewardRepeats : ℕ

structure EarningPolicyConfig where
  allowedCategories : List MarketplaceTaskCategory
  categoryRoutes : Option (MarketplaceTaskCategory → Option CategoryRouteMode) := none
  defaultCategoryRoute : Option CategoryRouteMode := none
  maxAutonomousReward : ℚ
  dailyRewardExposureCap : ℚ
  maxConcurrentTasks : ℕ
  failureStreakBreaker : ℕ
  minReputationForAutonomy : ℚ
  aml : AmlAggregatePolicy

def DEFAULT_AML_AGGREGATE_POLICY : AmlAggregatePolicy where
  maxTasksPerPublisherPerWindow := 5
  maxPublisherRewardShare := 8 / 10
  concentrationMinTasks := 4
  maxIdenticalRewardRepeats := 4

def DEFAULT_EARNING_POLICY : EarningPolicyConfig where
  allowedCategories := [.research, .writing]
  maxAutonomousReward := 50
  dailyRewardExposureCap := 200
  maxConcurrentTasks := 3
  failureStreakBreaker := 2
  minReputationForAutonomy := 0
  aml := DEFAULT_AML_AGGREGATE_POLICY

/-- Why a task is not taken, or is. -/
inductive EarningReason
  | selfPublished
  | cancelRate (publisherUserId : Id) (cancelled tasks : ℕ)
  | personaNotActive
  | failureStreak (streak breaker : ℕ)
  | categoryBlocked (category : MarketplaceTaskCategory)
  | openTasks (openTaskCount max : ℕ)
  | rewardExposure (exposure reward cap : ℚ)
  | categoryRouted (category : MarketplaceTaskCategory)
  | categoryNotAllowed (category : MarketplaceTaskCategory)
  | firstInCategory (category : MarketplaceTaskCategory)
  | newPublisher
  | rewardAboveMax (reward max : ℚ)
  | reputationBelowMin (reputation min : ℚ)
  | withinLimits
  | publisherRate (publisherUserId : Id) (tasks max : ℕ)
  | publisherShare (publisherUserId : Id) (pubReward totalReward share : ℚ)
  | identicalReward (publisherUserId : Id) (reward : ℚ) (count max : ℕ)
  | engineSkips
  | appliedByPipeline
  | pipelineDenied

structure EarningAdmissionInput where
  task : MarketplaceTask
  category : MarketplaceTaskCategory
  persona : EarningPersonaSnapshot
  config : EarningPolicyConfig
  todayRewardExposure : ℚ
  publisherIsNew : Bool

structure EarningAdmissionResult where
  admission : EarningAdmission
  risk : EarningRiskLevel
  reasons : List EarningReason

def resolveCategoryRoute (config : EarningPolicyConfig) (category : MarketplaceTaskCategory) : CategoryRouteMode :=
  match config.categoryRoutes with
  | some routes => (routes category <|> config.defaultCategoryRoute).getD .human_review
  | none => if category ∈ config.allowedCategories then .autonomous else .human_review

def RISK_ORDER : EarningRiskLevel → ℕ
  | .low => 0
  | .medium => 1
  | .high => 2
  | .critical => 3

def maxRisk (a b : EarningRiskLevel) : EarningRiskLevel := if RISK_ORDER b ≤ RISK_ORDER a then a else b

/-- The signals that raise the risk, in the order they are looked at, each with what it raises it to. -/
def escalations (input : EarningAdmissionInput) (categoryAllowed : Bool) : List (EarningRiskLevel × EarningReason) :=
  (if categoryAllowed then []
    else [(.high, if input.config.categoryRoutes.isSome then .categoryRouted input.category
      else .categoryNotAllowed input.category)]) ++
  (if input.persona.categoryCompletedCount = 0 then [(.medium, .firstInCategory input.category)] else []) ++
  (if input.publisherIsNew then [(.medium, .newPublisher)] else []) ++
  (if input.task.reward > input.config.maxAutonomousReward then
    [(.high, .rewardAboveMax input.task.reward input.config.maxAutonomousReward)] else []) ++
  (if input.persona.reputation < input.config.minReputationForAutonomy then
    [(.high, .reputationBelowMin input.persona.reputation input.config.minReputationForAutonomy)] else [])

/-- The risk of all signals together. -/
def gradeRisk (raised : List (EarningRiskLevel × EarningReason)) : EarningRiskLevel :=
  raised.foldl (fun risk e => maxRisk risk e.1) .low

/-- What becomes of a task that nothing forbids. -/
def gradeAdmission (input : EarningAdmissionInput) (categoryAllowed : Bool) : EarningAdmissionResult :=
  let raised := escalations input categoryAllowed
  let reasons := raised.map Prod.snd
  ⟨if gradeRisk raised = .low ∧ categoryAllowed then .autonomous else .needs_human_review, gradeRisk raised,
    if reasons.length = 0 then [.withinLimits] else reasons⟩

def evaluateEarningAdmission (input : EarningAdmissionInput) : EarningAdmissionResult :=
  if input.persona.status ≠ .active then ⟨.forbidden, .critical, [.personaNotActive]⟩
  else if input.persona.recentFailureStreak ≥ input.config.failureStreakBreaker then
    ⟨.forbidden, .critical,
      [.failureStreak input.persona.recentFailureStreak input.config.failureStreakBreaker]⟩
  else if resolveCategoryRoute input.config input.category = .blocked then
    ⟨.forbidden, .high, [.categoryBlocked input.category]⟩
  else if input.persona.openTaskCount ≥ input.config.maxConcurrentTasks then
    ⟨.forbidden, .high, [.openTasks input.persona.openTaskCount input.config.maxConcurrentTasks]⟩
  else if input.todayRewardExposure + input.task.reward > input.config.dailyRewardExposureCap then
    ⟨.needs_human_review, .high,
      [.rewardExposure input.todayRewardExposure input.task.reward input.config.dailyRewardExposureCap]⟩
  else gradeAdmission input (resolveCategoryRoute input.config input.category = .autonomous)

/-! ## What the persona has taken in the last day -/

structure AmlAggregateInput where
  candidatePublisherUserId : Id
  candidateReward : ℚ
  windowAcceptedTasks : List MarketplaceTask
  policy : AmlAggregatePolicy

structure AmlAggregateResult where
  blocked : Bool
  reasons : List EarningReason

def evaluateAmlAggregate (input : AmlAggregateInput) : AmlAggregateResult :=
  let pub := input.candidatePublisherUserId
  let policy := input.policy
  let fromPublisher := input.windowAcceptedTasks.filter fun t => t.publisherUserId = pub
  let rate := if fromPublisher.length + 1 ≥ policy.maxTasksPerPublisherPerWindow then
      [.publisherRate pub (fromPublisher.length + 1) policy.maxTasksPerPublisherPerWindow] else []
  let totalReward := (input.windowAcceptedTasks.map (·.reward)).sum
  let pubReward := (fromPublisher.map (·.reward)).sum
  let share := if input.windowAcceptedTasks.length ≥ policy.concentrationMinTasks ∧ totalReward > 0 ∧
      pubReward / totalReward ≥ policy.maxPublisherRewardShare then
      [.publisherShare pub pubReward totalReward policy.maxPublisherRewardShare] else []
  -- the candidate is counted with the tasks that pay the same
  let rewards := input.candidateReward :: fromPublisher.map (·.reward)
  let repeats := (rewards.dedup.insertionSort (· ≤ ·)).filterMap fun reward =>
    if rewards.count reward ≥ policy.maxIdenticalRewardRepeats then
      some (.identicalReward pub reward (rewards.count reward) policy.maxIdenticalRewardRepeats) else none
  let reasons := rate ++ share ++ repeats
  ⟨0 < reasons.length, reasons⟩

/-! ## What the gates let through -/

/-- What is taken without a human fits under the caps, as far as they have been counted. -/
theorem admitted {input : EarningAdmissionInput} (h : (evaluateEarningAdmission input).admission = .autonomous) :
    input.persona.openTaskCount < input.config.maxConcurrentTasks ∧
      input.todayRewardExposure + input.task.reward ≤ input.config.dailyRewardExposureCap := by
  unfold evaluateEarningAdmission at h
  split_ifs at h with hs hf hr ho he
  exact ⟨Nat.lt_of_not_le ho, not_lt.1 he⟩

theorem risk_le_grade {raised : List (EarningRiskLevel × EarningReason)} {e : EarningRiskLevel × EarningReason}
    (he : e ∈ raised) : RISK_ORDER e.1 ≤ RISK_ORDER (gradeRisk raised) := by
  have hmax : ∀ a b, RISK_ORDER a ≤ RISK_ORDER (maxRisk a b) ∧ RISK_ORDER b ≤ RISK_ORDER (maxRisk a b) := by
    intro a b
    unfold maxRisk
    split
    next h => exact ⟨le_rfl, h⟩
    next h => exact ⟨(not_le.1 h).le, le_rfl⟩
  have hfold : ∀ (l : List (EarningRiskLevel × EarningReason)) (a : EarningRiskLevel),
      RISK_ORDER a ≤ RISK_ORDER (l.foldl (fun risk e => maxRisk risk e.1) a) ∧
        ∀ e ∈ l, RISK_ORDER e.1 ≤ RISK_ORDER (l.foldl (fun risk e => maxRisk risk e.1) a) := by
    intro l
    induction l with
    | nil => exact fun a => ⟨le_rfl, fun e he => (List.not_mem_nil he).elim⟩
    | cons x l ih =>
      intro a
      obtain ⟨ha, hl⟩ := ih (maxRisk a x.1)
      refine ⟨(hmax a x.1).1.trans ha, fun e he => ?_⟩
      rcases List.mem_cons.1 he with rfl | he
      · exact (hmax a e.1).2.trans ha
      · exact hl e he
  exact (hfold raised .low).2 e he

theorem not_blocked {input : AmlAggregateInput} (h : (evaluateAmlAggregate input).blocked = false) :
    (input.windowAcceptedTasks.filter fun t => t.publisherUserId = input.candidatePublisherUserId).length + 1 <
      input.policy.maxTasksPerPublisherPerWindow := by
  by_contra hge
  simp [evaluateAmlAggregate, not_lt.1 hge] at h

end ChronoSynth.Earning

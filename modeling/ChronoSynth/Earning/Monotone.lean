import Mathlib.Algebra.Order.BigOperators.Group.List
import Mathlib.Data.List.Dedup
import Mathlib.Tactic.Linarith
import ChronoSynth.Earning.Policy

/-!
# More risk, no less strict

The admission of a task is monotone in the risk: raise what counts against it, or lower what counts for it, and the
decision is at least as strict. Admission is a cascade of early returns, but what it comes to are two conjunctions
(`forbidden_iff`, `autonomous_iff`), and each of their conditions is monotone.

The aggregate of the last day depends on the tasks as a multiset, and more tasks of the publisher of the candidate only
add to each of its signals.
-/

namespace ChronoSynth.Earning

open Persona (MarketplaceTask)

def EarningAdmission.strictness : EarningAdmission → ℕ
  | .autonomous => 0
  | .needs_human_review => 1
  | .forbidden => 2

def CategoryRouteMode.strictness : CategoryRouteMode → ℕ
  | .autonomous => 0
  | .human_review => 1
  | .blocked => 2

/-- The second input differs from the first in what counts against the task, if in anything. -/
structure Riskier (safe risky : EarningAdmissionInput) : Prop where
  status : risky.persona.status = safe.persona.status
  reward : safe.task.reward ≤ risky.task.reward
  exposure : safe.todayRewardExposure ≤ risky.todayRewardExposure
  openTasks : safe.persona.openTaskCount ≤ risky.persona.openTaskCount
  streak : safe.persona.recentFailureStreak ≤ risky.persona.recentFailureStreak
  reputation : risky.persona.reputation ≤ safe.persona.reputation
  completed : risky.persona.categoryCompletedCount ≤ safe.persona.categoryCompletedCount
  publisher : safe.publisherIsNew → risky.publisherIsNew
  route : (resolveCategoryRoute safe.config safe.category).strictness ≤
    (resolveCategoryRoute risky.config risky.category).strictness
  maxAutonomousReward : risky.config.maxAutonomousReward = safe.config.maxAutonomousReward
  dailyRewardExposureCap : risky.config.dailyRewardExposureCap = safe.config.dailyRewardExposureCap
  maxConcurrentTasks : risky.config.maxConcurrentTasks = safe.config.maxConcurrentTasks
  failureStreakBreaker : risky.config.failureStreakBreaker = safe.config.failureStreakBreaker
  minReputationForAutonomy : risky.config.minReputationForAutonomy = safe.config.minReputationForAutonomy

variable {input safe risky : EarningAdmissionInput}

/-! ## What the cascade comes to -/

theorem gradeRisk_eq_low {allowed : Bool} :
    gradeRisk (escalations input allowed) = .low ↔ escalations input allowed = [] := by
  constructor
  · intro h
    have hraised : ∀ e ∈ escalations input allowed, 1 ≤ RISK_ORDER e.1 := by
      intro e he
      simp only [escalations, List.mem_append] at he
      rcases he with (((he | he) | he) | he) | he <;> split at he <;> simp_all [RISK_ORDER]
    refine List.eq_nil_iff_forall_not_mem.2 fun e he => ?_
    have hle := risk_le_grade he
    rw [h] at hle
    exact absurd (hraised e he) (Nat.not_le.2 (Nat.lt_succ_of_le hle))
  · intro h
    rw [h]
    rfl

theorem gradeAdmission_ne_forbidden {allowed : Bool} : (gradeAdmission input allowed).admission ≠ .forbidden := by
  simp only [gradeAdmission]
  split_ifs <;> simp

theorem gradeAdmission_eq_autonomous {allowed : Bool} :
    (gradeAdmission input allowed).admission = .autonomous ↔ escalations input allowed = [] ∧ allowed := by
  rw [← gradeRisk_eq_low]
  simp only [gradeAdmission]
  split_ifs with h
  · exact iff_of_true rfl h
  · exact iff_of_false (by simp) h

theorem forbidden_iff : (evaluateEarningAdmission input).admission = .forbidden ↔
    input.persona.status ≠ .active ∨ input.config.failureStreakBreaker ≤ input.persona.recentFailureStreak ∨
      resolveCategoryRoute input.config input.category = .blocked ∨
      input.config.maxConcurrentTasks ≤ input.persona.openTaskCount := by
  unfold evaluateEarningAdmission
  split_ifs with hs hf hr ho he
  · simp [hs]
  · simp [hf]
  · simp [hr]
  · simp [ho]
  · simp_all
  · simp_all [gradeAdmission_ne_forbidden]

theorem autonomous_iff : (evaluateEarningAdmission input).admission = .autonomous ↔
    (input.persona.status = .active ∧ input.persona.recentFailureStreak < input.config.failureStreakBreaker ∧
      resolveCategoryRoute input.config input.category = .autonomous ∧
      input.persona.openTaskCount < input.config.maxConcurrentTasks ∧
      input.todayRewardExposure + input.task.reward ≤ input.config.dailyRewardExposureCap) ∧
    input.persona.categoryCompletedCount ≠ 0 ∧ input.publisherIsNew = false ∧
      input.task.reward ≤ input.config.maxAutonomousReward ∧
      input.config.minReputationForAutonomy ≤ input.persona.reputation := by
  unfold evaluateEarningAdmission
  split_ifs with hs hf hr ho he
  · simp [hs]
  · simp [hf]
  · simp [hr]
  · simp [ho]
  · simp [he]
  · rw [gradeAdmission_eq_autonomous]
    simp_all [escalations]

/-! ## Admission is monotone -/

theorem strictness_le_two (a : EarningAdmission) : a.strictness ≤ 2 := by
  cases a <;> decide

theorem Riskier.forbidden (h : Riskier safe risky) (hf : (evaluateEarningAdmission safe).admission = .forbidden) :
    (evaluateEarningAdmission risky).admission = .forbidden := by
  rw [forbidden_iff] at hf ⊢
  rw [h.status, h.failureStreakBreaker, h.maxConcurrentTasks]
  refine hf.imp_right (Or.imp h.streak.trans' (Or.imp (fun hr => ?_) h.openTasks.trans'))
  have hroute := h.route
  rw [hr] at hroute
  revert hroute
  cases resolveCategoryRoute risky.config risky.category <;> simp [CategoryRouteMode.strictness]

theorem Riskier.autonomous (h : Riskier safe risky) (ha : (evaluateEarningAdmission risky).admission = .autonomous) :
    (evaluateEarningAdmission safe).admission = .autonomous := by
  rw [autonomous_iff] at ha ⊢
  obtain ⟨⟨hs, hf, hr, ho, he⟩, hc, hp, hm, hrep⟩ := ha
  refine ⟨⟨h.status ▸ hs, ?_, ?_, ?_, ?_⟩, ?_, ?_, ?_, ?_⟩
  · exact (h.streak.trans_lt hf).trans_eq h.failureStreakBreaker
  · have hroute := h.route
    rw [hr] at hroute
    revert hroute
    cases resolveCategoryRoute safe.config safe.category <;> simp [CategoryRouteMode.strictness]
  · exact (h.openTasks.trans_lt ho).trans_eq h.maxConcurrentTasks
  · exact ((add_le_add h.exposure h.reward).trans he).trans_eq h.dailyRewardExposureCap
  · exact fun h0 => hc (Nat.le_zero.1 (h0 ▸ h.completed))
  · exact Bool.eq_false_iff.2 fun hnew => by simp [h.publisher hnew] at hp
  · exact (h.reward.trans hm).trans_eq h.maxAutonomousReward
  · exact h.minReputationForAutonomy.ge.trans (hrep.trans h.reputation)

theorem Riskier.strictness_le (h : Riskier safe risky) :
    (evaluateEarningAdmission safe).admission.strictness ≤ (evaluateEarningAdmission risky).admission.strictness := by
  cases hr : (evaluateEarningAdmission risky).admission with
  | forbidden => exact strictness_le_two _
  | autonomous => rw [h.autonomous hr]
  | needs_human_review =>
    cases hs : (evaluateEarningAdmission safe).admission with
    | forbidden =>
      rw [h.forbidden hs] at hr
      cases hr
    | _ => decide

/-! ## The aggregate of the last day -/

variable {pub : Persona.Id} {candidateReward : ℚ} {window window' added : List MarketplaceTask}
  {policy : AmlAggregatePolicy}

theorem evaluateAmlAggregate_perm (h : window.Perm window') :
    evaluateAmlAggregate ⟨pub, candidateReward, window, policy⟩ =
      evaluateAmlAggregate ⟨pub, candidateReward, window', policy⟩ := by
  have hfrom := h.filter fun t => t.publisherUserId = pub
  have hrewards := (hfrom.map (·.reward)).cons candidateReward
  have hsorted := List.Perm.eq_of_pairwise (fun a b _ _ hab hba => le_antisymm hab hba)
    (List.pairwise_insertionSort (· ≤ ·) _) (List.pairwise_insertionSort (· ≤ ·) _)
    (((List.perm_insertionSort (· ≤ ·) _).trans hrewards.dedup).trans (List.perm_insertionSort (· ≤ ·) _).symm)
  simp only [evaluateAmlAggregate, hfrom.length_eq, h.length_eq, (h.map (·.reward)).sum_eq,
    (hfrom.map (·.reward)).sum_eq, hsorted, hrewards.count_eq]

theorem blocked_iff : (evaluateAmlAggregate ⟨pub, candidateReward, window, policy⟩).blocked ↔
    policy.maxTasksPerPublisherPerWindow ≤ (window.filter fun t => t.publisherUserId = pub).length + 1 ∨
    (policy.concentrationMinTasks ≤ window.length ∧ 0 < (window.map (·.reward)).sum ∧
      policy.maxPublisherRewardShare ≤
        ((window.filter fun t => t.publisherUserId = pub).map (·.reward)).sum / (window.map (·.reward)).sum) ∨
    ∃ reward ∈ candidateReward :: (window.filter fun t => t.publisherUserId = pub).map (·.reward),
      policy.maxIdenticalRewardRepeats ≤
        (candidateReward :: (window.filter fun t => t.publisherUserId = pub).map (·.reward)).count reward := by
  simp only [evaluateAmlAggregate, decide_eq_true_eq, List.length_pos_iff, ne_eq, List.append_eq_nil_iff, not_and_or,
    or_assoc]
  refine or_congr ?_ (or_congr ?_ ?_)
  · split_ifs with hrate <;> simp_all
  · split_ifs with hshare <;> simp_all
  · rw [List.filterMap_eq_nil_iff]
    simp only [List.mem_insertionSort, List.mem_dedup, ge_iff_le, not_forall, exists_prop]
    refine exists_congr fun reward => and_congr_right fun _ => ?_
    split_ifs <;> simp_all

theorem sum_reward_nonneg {tasks : List MarketplaceTask} (h : ∀ t ∈ tasks, 0 ≤ t.reward) :
    0 ≤ (tasks.map (·.reward)).sum := by
  refine List.sum_nonneg fun r hr => ?_
  obtain ⟨t, ht, rfl⟩ := List.mem_map.1 hr
  exact h t ht

theorem sum_filter_le {tasks : List MarketplaceTask} (h : ∀ t ∈ tasks, 0 ≤ t.reward) :
    ((tasks.filter fun t => t.publisherUserId = pub).map (·.reward)).sum ≤ (tasks.map (·.reward)).sum :=
  (List.filter_sublist.map _).sum_le_sum fun r hr => by
    obtain ⟨t, ht, rfl⟩ := List.mem_map.1 hr
    exact h t ht

theorem share_le_share {part whole more : ℚ} (h : part ≤ whole) (hmore : 0 ≤ more) (hwhole : 0 < whole) :
    part / whole ≤ (part + more) / (whole + more) := by
  rw [div_le_div_iff₀ hwhole (by linarith)]
  nlinarith only [mul_le_mul_of_nonneg_right h hmore]

theorem blocked_append (hwindow : ∀ t ∈ window, 0 ≤ t.reward) (hadded : ∀ t ∈ added, 0 ≤ t.reward)
    (hpub : ∀ t ∈ added, t.publisherUserId = pub)
    (h : (evaluateAmlAggregate ⟨pub, candidateReward, window, policy⟩).blocked) :
    (evaluateAmlAggregate ⟨pub, candidateReward, window ++ added, policy⟩).blocked := by
  have hfilter : (window ++ added).filter (fun t => t.publisherUserId = pub) =
      (window.filter fun t => t.publisherUserId = pub) ++ added := by
    have hself : added.filter (fun t => t.publisherUserId = pub) = added :=
      List.filter_eq_self.2 fun t ht => by simpa using hpub t ht
    rw [List.filter_append, hself]
  rw [blocked_iff] at h ⊢
  rw [hfilter]
  simp only [List.map_append, List.sum_append, List.length_append]
  refine h.imp (fun hrate => by omega) (Or.imp ?_ ?_)
  · rintro ⟨hlen, htotal, hshare⟩
    have hmore := sum_reward_nonneg hadded
    exact ⟨by omega, by linarith, hshare.trans (share_le_share (sum_filter_le hwindow) hmore htotal)⟩
  · rintro ⟨reward, hmem, hcount⟩
    rw [← List.cons_append]
    refine ⟨reward, List.mem_append_left _ hmem, hcount.trans ?_⟩
    rw [List.count_append]
    exact Nat.le_add_right _ _

/-- A task of a publisher. -/
def offer (reward : ℚ) : MarketplaceTask :=
  ⟨1, 2, none, none, reward, "credit", .open, none, none, 0, none, none, 0⟩

end ChronoSynth.Earning

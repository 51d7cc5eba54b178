import Mathlib.Algebra.Order.Field.Rat
import Mathlib.Data.List.Sort
import Mathlib.Tactic.Linarith
import Mathlib.Tactic.Positivity
import ChronoSynth.Lib.Shares

/-!
# The resource allocator

`resource-allocator.ts`: how the computing resources are divided among the active versions of a persona. Numbers are
those of an ordered field, so arithmetic is exact; a fitness that is not finite is `none`, and so is every sum with
one. A division by zero is `none` (`divide`), so an allocation that is `some` made none.

Each strategy divides the whole in proportion to a weight: the same for all, the mean fitness, or the rank by age.
-/

namespace ChronoSynth.Persona

inductive AllocationStrategy
  | equal | fitness_weighted | priority_based
  deriving DecidableEq, Repr

structure ResourceAllocation (K : Type) where
  versionId : String
  quota : K
  strategy : AllocationStrategy
  allocatedAt : K

inductive VersionStatus
  | active | paused | completed | failed
  deriving DecidableEq, Repr

/-- What an allocation reads of a version; its results are their fitness scores. -/
structure AllocatablePersona (K : Type) where
  id : String
  status : VersionStatus
  createdAt : K
  results : List (Option K)

variable {K : Type} [Field K] [LinearOrder K]

local instance allocatorTwoAtLeastTwo : Nat.AtLeastTwo 2 := ⟨by decide⟩

def divide (a b : K) : Option K := if b = 0 then none else some (a / b)

def sumFinite (scores : List (Option K)) : Option K :=
  scores.foldl (fun s r => do return (← s) + (← r)) (some 0)

def allocateEqual (personas : List (AllocatablePersona K)) (now : K) : Option (List (ResourceAllocation K)) := do
  let quota ← divide 1 (personas.length : K)
  return personas.map fun p => ⟨p.id, quota, .equal, now⟩

/-- The fitness that a version is weighted with. -/
def avgFitness (p : AllocatablePersona K) : Option K :=
  if p.results.length = 0 then some (1 / 2)
  else
    match sumFinite p.results with
    | none => some (1 / 2)
    | some sum => do
      let raw ← divide sum (p.results.length : K)
      return max 0 (min 1 raw)

def allocateFitnessWeighted (personas : List (AllocatablePersona K)) (now : K) :
    Option (List (ResourceAllocation K)) := do
  let scores ← personas.mapM fun p => do return (p, ← avgFitness p)
  let totalFitness := (scores.map Prod.snd).foldl (· + ·) 0
  if totalFitness = 0 then allocateEqual personas now
  else
    scores.mapM fun score => do
      return ⟨score.1.id, max 0 (min 1 (← divide score.2 totalFitness)), .fitness_weighted, now⟩

def allocatePriorityBased (personas : List (AllocatablePersona K)) (now : K) :
    Option (List (ResourceAllocation K)) := do
  let sorted := personas.insertionSort fun a b => a.createdAt ≤ b.createdAt
  let weights : List K := (List.range sorted.length).map fun i : ℕ => (sorted.length : K) - i
  let totalWeight := weights.foldl (· + ·) 0
  (sorted.zip weights).mapM fun entry => do
    return ⟨entry.1.id, ← divide entry.2 totalWeight, .priority_based, now⟩

def allocateResources (now : K) (personas : List (AllocatablePersona K)) (strategy : AllocationStrategy) :
    Option (List (ResourceAllocation K)) :=
  let actives := personas.filter fun p => p.status = .active
  if actives.length = 0 then some []
  else
    match strategy with
    | .equal => allocateEqual actives now
    | .fitness_weighted => allocateFitnessWeighted actives now
    | .priority_based => allocatePriorityBased actives now

/-! ## Fair partitions -/

/-- The whole is divided among the active versions, each of which is allocated one share, `shares`. -/
structure FairPartition (personas : List (AllocatablePersona K)) (strategy : AllocationStrategy)
    (shares : List (AllocatablePersona K × K)) (allocations : List (ResourceAllocation K)) : Prop where
  allocated : allocations.map (fun a => (a.versionId, a.quota)) = shares.map fun share => (share.1.id, share.2)
  actives : (shares.map Prod.fst).Perm (personas.filter fun p => p.status = .active)
  quota : ∀ a ∈ allocations, 0 ≤ a.quota ∧ a.quota ≤ 1
  whole : (∃ p ∈ personas, p.status = .active) → (allocations.map fun a => a.quota).sum = 1
  priority : strategy = .priority_based → ∀ a ∈ shares, ∀ b ∈ shares, a.1.createdAt < b.1.createdAt → b.2 ≤ a.2
  fitness : strategy = .fitness_weighted → ∀ a ∈ shares, ∀ b ∈ shares, ∀ x y, avgFitness a.1 = some x →
    avgFitness b.1 = some y → x < y → a.2 ≤ b.2

variable [IsStrictOrderedRing K] {personas : List (AllocatablePersona K)} {p : AllocatablePersona K} {now : K}

theorem FairPartition.of_weights {strategy : AllocationStrategy} {weights : List (AllocatablePersona K × K)}
    {allocations : List (ResourceAllocation K)}
    (hactive : (weights.map Prod.fst).Perm (personas.filter fun p => p.status = .active))
    (hw : ∀ a ∈ weights, 0 ≤ a.2) (htotal : total weights ≠ 0)
    (hpriority : strategy = .priority_based → ∀ a ∈ weights, ∀ b ∈ weights, a.1.createdAt < b.1.createdAt →
      b.2 ≤ a.2)
    (hfitness : strategy = .fitness_weighted → ∀ a ∈ weights, ∀ b ∈ weights, ∀ x y, avgFitness a.1 = some x →
      avgFitness b.1 = some y → x < y → a.2 ≤ b.2)
    (h : allocations.map (fun a => (a.versionId, a.quota)) =
      (proportional weights).map fun share => (share.1.id, share.2)) :
    FairPartition personas strategy (proportional weights) allocations := by
  have hquota : allocations.map (fun a => a.quota) = (proportional weights).map Prod.snd := by
    simpa [Function.comp_def] using congrArg (List.map Prod.snd) h
  refine ⟨h, by rw [map_fst_proportional]; exact hactive, fun a ha => ?_, fun _ => ?_, fun hs a ha b hb hab => ?_,
    fun hs a ha b hb x y hx hy hxy => ?_⟩
  · obtain ⟨share, hshare, heq⟩ := List.mem_map.1 (hquota ▸ List.mem_map_of_mem ha)
    rw [← heq]
    exact share_mem_unit hw hshare
  · rw [hquota]
    exact total_proportional htotal
  · obtain ⟨v, hv, rfl⟩ := List.mem_map.1 ha
    obtain ⟨w, hw', rfl⟩ := List.mem_map.1 hb
    exact share_mono hw (hpriority hs v hv w hw' hab)
  · obtain ⟨v, hv, rfl⟩ := List.mem_map.1 ha
    obtain ⟨w, hw', rfl⟩ := List.mem_map.1 hb
    exact share_mono hw (hfitness hs v hv w hw' x y hx hy hxy)

omit [IsStrictOrderedRing K] in
theorem divide_of_ne {a b : K} (h : b ≠ 0) : divide a b = some (a / b) := if_neg h

theorem avgFitness_mem_unit (p : AllocatablePersona K) : ∃ avg, avgFitness p = some avg ∧ 0 ≤ avg ∧ avg ≤ 1 := by
  have hhalf : (0 : K) ≤ 1 / 2 ∧ (1 / 2 : K) ≤ 1 := ⟨by positivity, by linarith [half_lt_self (one_pos (α := K))]⟩
  unfold avgFitness
  split_ifs with hlen
  · exact ⟨_, rfl, hhalf⟩
  · have hne : (p.results.length : K) ≠ 0 := by exact_mod_cast hlen
    cases sumFinite p.results with
    | none => exact ⟨_, rfl, hhalf⟩
    | some sum =>
      simp only [divide_of_ne hne]
      exact ⟨_, rfl, le_max_left _ _, max_le zero_le_one (min_le_left _ _)⟩

/-! ## The strategies -/

theorem allocateEqual_fair {strategy : AllocationStrategy} (hs : strategy ≠ .priority_based)
    (hfit : strategy = .fitness_weighted → ∀ p ∈ personas, p.status = .active → ∀ q ∈ personas, q.status = .active →
      avgFitness p = avgFitness q)
    (hne : (personas.filter fun p => p.status = .active) ≠ []) :
    ∃ allocations, allocateEqual (personas.filter fun p => p.status = .active) now = some allocations ∧
      ∃ shares, FairPartition personas strategy shares allocations := by
  generalize hactives : (personas.filter fun p => p.status = .active) = actives at *
  have hlen : (actives.length : K) ≠ 0 := by exact_mod_cast fun h => hne (List.length_eq_zero_iff.1 h)
  set weights := actives.map fun p => (p, (1 : K)) with hweights
  have htotal : total weights = actives.length := by simp [hweights, total, Function.comp_def]
  have hmem : ∀ a ∈ weights, a.1 ∈ personas ∧ a.1.status = .active ∧ a.2 = 1 := by
    intro a ha
    obtain ⟨p, hp, rfl⟩ := List.mem_map.1 ha
    have hp' := List.mem_filter.1 (hactives ▸ hp)
    exact ⟨hp'.1, by simpa using hp'.2, rfl⟩
  refine ⟨_, by rw [allocateEqual, divide_of_ne hlen]; rfl, proportional weights, ?_⟩
  refine FairPartition.of_weights ?_ (fun a ha => ?_) (htotal ▸ hlen) (fun h => absurd h hs)
    (fun h a ha b hb x y hx hy hxy => ?_) ?_
  · rw [hactives]
    simp [hweights, Function.comp_def]
  · rw [(hmem a ha).2.2]
    exact zero_le_one
  · obtain ⟨hap, has, -⟩ := hmem a ha
    obtain ⟨hbp, hbs, -⟩ := hmem b hb
    rw [hfit h _ hap has _ hbp hbs, hy] at hx
    exact absurd (Option.some.inj hx) hxy.ne'
  · simp only [proportional, htotal]
    simp [hweights, Function.comp_def]

theorem mapM_some {α β : Type} {f : α → Option β} {g : α → β} (h : ∀ a, f a = some (g a)) (l : List α) :
    l.mapM f = some (l.map g) := by
  rw [show f = fun a => some (g a) from funext h]
  exact List.mapM_pure

theorem allocateFitnessWeighted_fair (hne : (personas.filter fun p => p.status = .active) ≠ []) :
    ∃ allocations, allocateFitnessWeighted (personas.filter fun p => p.status = .active) now = some allocations ∧
      ∃ shares, FairPartition personas .fitness_weighted shares allocations := by
  choose fit hfit hnonneg _ using avgFitness_mem_unit (K := K)
  obtain ⟨weights, hweights⟩ : ∃ weights, weights = (personas.filter fun p => p.status = .active).map fun p =>
    (p, fit p) := ⟨_, rfl⟩
  have hscores : (personas.filter fun p => p.status = .active).mapM (fun p => do return (p, ← avgFitness p)) =
      some weights := hweights ▸ mapM_some (fun p => by rw [hfit]; rfl) _
  have hw : ∀ a ∈ weights, 0 ≤ a.2 ∧ avgFitness a.1 = some a.2 := by
    intro a ha
    rw [hweights] at ha
    obtain ⟨p, -, rfl⟩ := List.mem_map.1 ha
    exact ⟨hnonneg p, hfit p⟩
  have htotal : (weights.map Prod.snd).foldl (· + ·) 0 = total weights := List.sum_eq_foldl.symm
  rw [allocateFitnessWeighted, hscores, Option.bind_eq_bind, Option.bind_some]
  simp only [htotal]
  split_ifs with h0
  · -- all are unfit, so no one is fitter than another
    refine allocateEqual_fair (by decide) (fun _ p hp hps q hq hqs => ?_) hne
    have hmem : ∀ p ∈ personas, p.status = .active → avgFitness p = some 0 := by
      intro p hp hps
      have hpw : (p, fit p) ∈ weights := by
        rw [hweights]
        exact List.mem_map_of_mem (List.mem_filter.2 ⟨hp, by simpa using hps⟩)
      rw [hfit]
      exact congrArg some (total_eq_zero (fun a ha => (hw a ha).1) h0 hpw)
    rw [hmem p hp hps, hmem q hq hqs]
  · refine ⟨_, mapM_some (fun a => by rw [divide_of_ne h0]; rfl) _, proportional weights, ?_⟩
    refine FairPartition.of_weights ?_ (fun a ha => (hw a ha).1) h0 nofun (fun _ a ha b hb x y hx hy hxy => ?_) ?_
    · simp [hweights, Function.comp_def]
    · rw [(hw a ha).2] at hx
      rw [(hw b hb).2] at hy
      rw [Option.some.inj hx, Option.some.inj hy]
      exact hxy.le
    · rw [proportional, List.map_map, List.map_map]
      refine List.map_congr_left fun a ha => ?_
      -- a share is in the unit interval, so it is not clamped
      have hmem : (a.1, a.2 / total weights) ∈ proportional weights := List.mem_map_of_mem ha
      have hshare := share_mem_unit (fun a ha => (hw a ha).1) hmem
      simp [min_eq_right hshare.2, max_eq_right hshare.1]

theorem allocatePriorityBased_fair (hne : (personas.filter fun p => p.status = .active) ≠ []) :
    ∃ allocations, allocatePriorityBased (personas.filter fun p => p.status = .active) now = some allocations ∧
      ∃ shares, FairPartition personas .priority_based shares allocations := by
  set sorted := (personas.filter fun p => p.status = .active).insertionSort fun a b => a.createdAt ≤ b.createdAt
    with hsorted
  set ranks : List K := (List.range sorted.length).map fun i : ℕ => (sorted.length : K) - i with hranks
  have hperm : sorted.Perm (personas.filter fun p => p.status = .active) := List.perm_insertionSort _ _
  have hpairwise : sorted.Pairwise fun a b => a.createdAt ≤ b.createdAt := List.pairwise_insertionSort _ _
  have hlen : ranks.length = sorted.length := by simp [hranks]
  have hpos : 0 < sorted.length := hperm.length_eq ▸ List.length_pos_iff.2 hne
  have htotal : ranks.foldl (· + ·) 0 = total (sorted.zip ranks) := by
    rw [total, List.map_snd_zip hlen.le]
    exact List.sum_eq_foldl.symm
  -- the version at place `i` has as many as come after it, and one more
  have hrank : ∀ a ∈ sorted.zip ranks, ∃ i, ∃ h : i < sorted.length, sorted[i] = a.1 ∧ a.2 = sorted.length - i := by
    intro a ha
    obtain ⟨i, hi, rfl⟩ := List.mem_iff_getElem.1 ha
    have hi' : i < sorted.length := by simpa [hlen] using hi
    exact ⟨i, hi', by simp, by simp [hranks]⟩
  have hw : ∀ a ∈ sorted.zip ranks, 0 ≤ a.2 := by
    intro a ha
    obtain ⟨i, hi, -, heq⟩ := hrank a ha
    rw [heq, sub_nonneg]
    exact_mod_cast hi.le
  have h0 : total (sorted.zip ranks) ≠ 0 := by
    intro h0
    have hfirst : (sorted[0], (sorted.length : K)) ∈ sorted.zip ranks := by
      refine List.mem_iff_getElem.2 ⟨0, by simpa [hlen] using hpos, ?_⟩
      simp [hranks]
    have hzero : (sorted.length : K) = 0 := total_eq_zero hw h0 hfirst
    exact hpos.ne' (by exact_mod_cast hzero)
  have hallocate : allocatePriorityBased (personas.filter fun p => p.status = .active) now =
      some ((sorted.zip ranks).map fun a =>
        ⟨a.1.id, a.2 / total (sorted.zip ranks), .priority_based, now⟩) := by
    simp only [allocatePriorityBased, ← hsorted, ← hranks, htotal]
    exact mapM_some (fun a => by rw [divide_of_ne h0]; rfl) _
  refine ⟨_, hallocate, proportional (sorted.zip ranks), ?_⟩
  refine FairPartition.of_weights ?_ hw h0 (fun _ a ha b hb hab => ?_) (fun h => by cases h) ?_
  · rw [List.map_fst_zip hlen.ge]
    exact hperm
  · obtain ⟨i, hi, hai, hawt⟩ := hrank a ha
    obtain ⟨j, hj, hbj, hbwt⟩ := hrank b hb
    have hij : i < j := by
      by_contra hji
      rcases (not_lt.1 hji).eq_or_lt with rfl | hlt
      · rw [← hai, ← hbj] at hab
        exact lt_irrefl _ hab
      · have hle := List.pairwise_iff_getElem.1 hpairwise j i hj hi hlt
        rw [hai, hbj] at hle
        exact absurd hab hle.not_gt
    rw [hawt, hbwt, sub_le_sub_iff_left]
    exact_mod_cast hij.le
  · simp [proportional, Function.comp_def]

/-- **Quotas are a fair partition**: whatever the versions, their fitness and the strategy, an allocation divides by
nothing that is zero and partitions the whole among the active versions. -/
theorem allocateResources_fair (now : K) (personas : List (AllocatablePersona K)) (strategy : AllocationStrategy) :
    ∃ allocations, allocateResources now personas strategy = some allocations ∧
      ∃ shares, FairPartition personas strategy shares allocations := by
  unfold allocateResources
  simp only
  split_ifs with hlen
  · -- no version is active
    have hnil := List.length_eq_zero_iff.1 hlen
    refine ⟨[], rfl, [], rfl, hnil ▸ List.Perm.refl _, nofun, ?_, nofun, nofun⟩
    rintro ⟨p, hp, hps⟩
    have hmem : p ∈ personas.filter fun p => p.status = .active := List.mem_filter.2 ⟨hp, by simpa using hps⟩
    rw [hnil] at hmem
    exact absurd hmem List.not_mem_nil
  · have hne : (personas.filter fun p => p.status = .active) ≠ [] := fun h => hlen (by rw [h]; rfl)
    cases strategy with
    | equal => exact allocateEqual_fair (by decide) nofun hne
    | fitness_weighted => exact allocateFitnessWeighted_fair hne
    | priority_based => exact allocatePriorityBased_fair hne

theorem allocateResources_fair_two :
    ∃ allocations, allocateResources (0 : ℚ) [⟨"v1", .active, 1, []⟩, ⟨"v2", .active, 2, [some 1]⟩] .priority_based =
        some allocations ∧
      ∃ shares, FairPartition [⟨"v1", .active, 1, []⟩, ⟨"v2", .active, 2, [some 1]⟩] .priority_based shares
        allocations :=
  allocateResources_fair 0 [⟨"v1", .active, 1, []⟩, ⟨"v2", .active, 2, [some 1]⟩] .priority_based

end ChronoSynth.Persona

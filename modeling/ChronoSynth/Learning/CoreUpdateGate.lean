import Mathlib.Tactic.Linarith
import Mathlib.Tactic.NormNum
import ChronoSynth.Learning.Artifacts

/-!
# The core update gate

`core-update-gate.ts`: whether a change of the core is applied or has to be confirmed. One policy serves two families
of sources: the deterministic ones are gated by the size of the change, the distilled ones by their evidence as well,
with a confidence that rises with the distance of the source. `canAutoCompile` is this gate on an artifact
(`canAutoCompile_iff`).

The gate is **monotone**: what it does not apply it does not apply either when the source is less trusted, the change
larger, the evidence less or more of the budget used (`decideCoreUpdateGate_mono`).
-/

namespace ChronoSynth.Learning

inductive CoreUpdateLayer
  | L0 | L1 | L2 | L3 | Narrative | Rule | Template | MemoryGraph
  deriving DecidableEq, Repr

inductive CoreUpdateSourceClass
  | deterministic | distilled
  deriving DecidableEq, Repr

/-- A request; a field that is not given is `none`. -/
structure CoreUpdateGateInput where
  layer : CoreUpdateLayer
  sourceClass : CoreUpdateSourceClass
  delta : Option ℚ
  confidence : Option ℚ
  patternAgrees : Option Bool
  evidenceCount : Option ℕ
  provenance : Option ArtifactSource
  unverifiedGrowthInWindow : Option ℤ
  deriving DecidableEq

inductive CoreUpdateDecision
  | auto | confirm
  deriving DecidableEq, Repr

/-- Why, with the values that are named. -/
inductive CoreUpdateReason
  | l0Confirmed | l0NotGated
  | deltaExceeds (mag max : ℚ)
  | deltaWithin (mag : ℚ)
  | deterministicLayer (layer : CoreUpdateLayer)
  | valueShiftMeets (tier : GrowthTrustTier)
  | valueShiftFails
  | memoryEdgeMeets (tier : GrowthTrustTier)
  | memoryEdgeFails
  | distilledLayer (layer : CoreUpdateLayer)
  | budgetReached (used budget : ℤ)
  deriving DecidableEq

structure CoreUpdateGateResult where
  decision : CoreUpdateDecision
  reason : CoreUpdateReason
  deriving DecidableEq

structure CoreUpdateGatePolicy where
  deterministicL0RequiresConfirmation : Bool
  deterministicL1MaxAutoDelta : ℚ
  distilledValueShiftMinConfidence : ℚ
  distilledValueShiftMaxDelta : ℚ
  distilledMemoryEdgeMinConfidence : ℚ
  distilledMemoryEdgeMinEvidence : ℕ
  trustTierConfidenceMultiplier : GrowthTrustTier → ℚ
  unverifiedGrowthBudgetPerWindow : ℤ

def DEFAULT_CORE_UPDATE_GATE_POLICY : CoreUpdateGatePolicy where
  deterministicL0RequiresConfirmation := true
  deterministicL1MaxAutoDelta := 15 / 100
  distilledValueShiftMinConfidence := 8 / 10
  distilledValueShiftMaxDelta := 5 / 100
  distilledMemoryEdgeMinConfidence := 75 / 100
  distilledMemoryEdgeMinEvidence := 2
  trustTierConfidenceMultiplier := GrowthTrustTier.confidenceMultiplier
  unverifiedGrowthBudgetPerWindow := MAX_SAFE_INTEGER

def auto (reason : CoreUpdateReason) : CoreUpdateGateResult := ⟨.auto, reason⟩

def confirm (reason : CoreUpdateReason) : CoreUpdateGateResult := ⟨.confirm, reason⟩

def CoreUpdateGateInput.tier (input : CoreUpdateGateInput) : GrowthTrustTier :=
  match input.provenance with
  | some provenance => trustTierOf provenance
  | none => .internal

/-- The budget: an automatic update is to be confirmed once it is used up. -/
def chargeBudget (input : CoreUpdateGateInput) (policy : CoreUpdateGatePolicy) (gateResult : CoreUpdateGateResult) :
    CoreUpdateGateResult :=
  match input.unverifiedGrowthInWindow with
  | none => gateResult
  | some used =>
    if gateResult.decision = .auto ∧ used ≥ policy.unverifiedGrowthBudgetPerWindow then
      confirm (.budgetReached used policy.unverifiedGrowthBudgetPerWindow)
    else gateResult

def decideCoreUpdateGate (input : CoreUpdateGateInput) (policy : CoreUpdateGatePolicy) : CoreUpdateGateResult :=
  match input.sourceClass with
  | .deterministic =>
    match input.layer with
    | .L0 => if policy.deterministicL0RequiresConfirmation then confirm .l0Confirmed else auto .l0NotGated
    | .L1 =>
      let mag := |input.delta.getD 0|
      if mag > policy.deterministicL1MaxAutoDelta then
        confirm (.deltaExceeds mag policy.deterministicL1MaxAutoDelta)
      else auto (.deltaWithin mag)
    | layer => confirm (.deterministicLayer layer)
  | .distilled =>
    let tier := input.tier
    let confMul := policy.trustTierConfidenceMultiplier tier
    match input.layer with
    | .L1 =>
      let minConf := clampConfidence (policy.distilledValueShiftMinConfidence * confMul)
      let okConfidence := input.confidence.getD 0 ≥ minConf
      let okPattern := input.patternAgrees = some true
      -- a change that is not given is taken to be unbounded
      let okDelta := ∃ delta ∈ input.delta, |delta| ≤ policy.distilledValueShiftMaxDelta
      chargeBudget input policy
        (if okConfidence ∧ okPattern ∧ okDelta then auto (.valueShiftMeets tier) else confirm .valueShiftFails)
    | .MemoryGraph =>
      let minConf := clampConfidence (policy.distilledMemoryEdgeMinConfidence * confMul)
      let okConfidence := input.confidence.getD 0 ≥ minConf
      let okEvidence := input.evidenceCount.getD 0 ≥ policy.distilledMemoryEdgeMinEvidence
      chargeBudget input policy
        (if okConfidence ∧ okEvidence then auto (.memoryEdgeMeets tier) else confirm .memoryEdgeFails)
    | layer => confirm (.distilledLayer layer)

/-! ## The gate of the distillation -/

def distillationPolicyToGatePolicy (policy : DistillationPolicy) : CoreUpdateGatePolicy :=
  { DEFAULT_CORE_UPDATE_GATE_POLICY with
    distilledValueShiftMinConfidence := policy.valueShiftMinConfidence
    distilledValueShiftMaxDelta := policy.valueShiftMaxDelta
    distilledMemoryEdgeMinConfidence := policy.memoryEdgeMinConfidence
    distilledMemoryEdgeMinEvidence := policy.memoryEdgeMinEvidence }

/-- The request that an artifact makes, if it is of a kind that is ever compiled without a review. -/
def DistilledArtifact.gateInput (a : DistilledArtifact) : Option CoreUpdateGateInput :=
  match a.payload with
  | .valueShift _ _ _ delta patternAgrees =>
    some ⟨.L1, .distilled, some delta, some a.confidence, some patternAgrees, none, some a.source, none⟩
  | .memoryEdge .. =>
    some ⟨.MemoryGraph, .distilled, none, some a.confidence, none, some a.evidence.length, some a.source, none⟩
  | _ => none

/-- `canAutoCompile` leaves a valid candidate to the gate. -/
theorem canAutoCompile_iff {a : DistilledArtifact} {policy : DistillationPolicy} :
    canAutoCompile a policy ↔ validateArtifact a = [] ∧ a.status = .candidate ∧
      ∃ input ∈ a.gateInput,
        (decideCoreUpdateGate input (distillationPolicyToGatePolicy policy)).decision = .auto := by
  refine and_congr_right fun _ => and_congr_right fun _ => ?_
  obtain ⟨id, source, payload, confidence, evidence, status, createdAt, reason, compiledAt, via⟩ := a
  cases payload with
  | valueShift valueId current suggested delta agrees =>
    simp only [MeetsGate, DistilledArtifact.gateInput, Option.mem_some_iff, exists_eq_left', decideCoreUpdateGate,
      chargeBudget, Option.getD_some, Option.some.injEq]
    split_ifs with h
    · exact iff_of_true h rfl
    · exact iff_of_false h (by rintro ⟨⟩)
  | memoryEdge sourceId targetId relation strength =>
    simp only [MeetsGate, DistilledArtifact.gateInput, Option.mem_some_iff, exists_eq_left', decideCoreUpdateGate,
      chargeBudget, Option.getD_some]
    split_ifs with h
    · exact iff_of_true h rfl
    · exact iff_of_false h (by rintro ⟨⟩)
  | _ => simp [MeetsGate, DistilledArtifact.gateInput]

/-! ## The gate is monotone -/

/-- How far from the persona a source is. -/
def GrowthTrustTier.distance : GrowthTrustTier → ℕ
  | internal => 0
  | semi => 1
  | external => 2

/-- The confidence that is asked for rises with the distance, from what is not negative. -/
structure CoreUpdateGatePolicy.Graded (policy : CoreUpdateGatePolicy) : Prop where
  internal : policy.trustTierConfidenceMultiplier .internal ≤ policy.trustTierConfidenceMultiplier .semi
  semi : policy.trustTierConfidenceMultiplier .semi ≤ policy.trustTierConfidenceMultiplier .external
  valueShift : 0 ≤ policy.distilledValueShiftMinConfidence
  memoryEdge : 0 ≤ policy.distilledMemoryEdgeMinConfidence

/-- The second request differs from the first in what counts against it, if in anything. -/
structure RiskierUpdate (safe risky : CoreUpdateGateInput) : Prop where
  layer : risky.layer = safe.layer
  sourceClass : risky.sourceClass = safe.sourceClass
  provenance : safe.tier.distance ≤ risky.tier.distance
  confidence : risky.confidence.getD 0 ≤ safe.confidence.getD 0
  delta : risky.delta = safe.delta ∨ ∃ d ∈ safe.delta, ∃ d' ∈ risky.delta, |d| ≤ |d'|
  evidence : risky.evidenceCount.getD 0 ≤ safe.evidenceCount.getD 0
  pattern : risky.patternAgrees = some true → safe.patternAgrees = some true
  window : ∀ used ∈ safe.unverifiedGrowthInWindow, ∃ used' ∈ risky.unverifiedGrowthInWindow, used ≤ used'

variable {safe risky input : CoreUpdateGateInput} {policy : CoreUpdateGatePolicy}

theorem clampConfidence_mono {v w : ℚ} (h : v ≤ w) : clampConfidence v ≤ clampConfidence w := by
  unfold clampConfidence
  split_ifs <;> linarith

theorem CoreUpdateGatePolicy.Graded.multiplier_le (h : policy.Graded) {t t' : GrowthTrustTier}
    (ht : t.distance ≤ t'.distance) :
    policy.trustTierConfidenceMultiplier t ≤ policy.trustTierConfidenceMultiplier t' := by
  have := h.internal
  have := h.semi
  cases t <;> cases t' <;> first | linarith | simp [GrowthTrustTier.distance] at ht

theorem RiskierUpdate.minConf_le (h : RiskierUpdate safe risky) (hp : policy.Graded) {least : ℚ} (hleast : 0 ≤ least) :
    clampConfidence (least * policy.trustTierConfidenceMultiplier safe.tier) ≤
      clampConfidence (least * policy.trustTierConfidenceMultiplier risky.tier) :=
  clampConfidence_mono (mul_le_mul_of_nonneg_left (hp.multiplier_le h.provenance) hleast)

theorem decision_chargeBudget {r : CoreUpdateGateResult} : (chargeBudget input policy r).decision = .auto ↔
    r.decision = .auto ∧ ∀ used ∈ input.unverifiedGrowthInWindow, used < policy.unverifiedGrowthBudgetPerWindow := by
  unfold chargeBudget
  cases input.unverifiedGrowthInWindow with
  | none => simp
  | some used =>
    simp only [Option.mem_some_iff, forall_eq']
    split_ifs with h
    · exact iff_of_false nofun fun h' => absurd h.2 (not_le.2 h'.2)
    · rw [not_and, ge_iff_le, not_le] at h
      exact ⟨fun hr => ⟨hr, h hr⟩, And.left⟩

theorem RiskierUpdate.window_lt (h : RiskierUpdate safe risky)
    (hr : ∀ used ∈ risky.unverifiedGrowthInWindow, used < policy.unverifiedGrowthBudgetPerWindow) :
    ∀ used ∈ safe.unverifiedGrowthInWindow, used < policy.unverifiedGrowthBudgetPerWindow := by
  intro used hused
  obtain ⟨used', hused', hle⟩ := h.window used hused
  exact hle.trans_lt (hr used' hused')

theorem decision_ite {c : Prop} [Decidable c] {r r' : CoreUpdateReason} :
    (if c then auto r else confirm r').decision = .auto ↔ c := by
  split_ifs with h
  · exact iff_of_true rfl h
  · exact iff_of_false nofun h

/-- **The gate is monotone**: what it applies it would have applied with less risk. -/
theorem decideCoreUpdateGate_mono (hp : policy.Graded) (h : RiskierUpdate safe risky)
    (hr : (decideCoreUpdateGate risky policy).decision = .auto) :
    (decideCoreUpdateGate safe policy).decision = .auto := by
  unfold decideCoreUpdateGate at hr ⊢
  rw [h.sourceClass, h.layer] at hr
  cases hs : safe.sourceClass with
  | deterministic =>
    rw [hs] at hr
    cases hl : safe.layer with
    | L0 =>
      rw [hl] at hr
      exact hr
    | L1 =>
      simp only [hl] at hr ⊢
      have hwithin : ∀ d : CoreUpdateGateInput,
          (if |d.delta.getD 0| > policy.deterministicL1MaxAutoDelta then
              confirm (.deltaExceeds |d.delta.getD 0| policy.deterministicL1MaxAutoDelta)
            else auto (.deltaWithin |d.delta.getD 0|)).decision = .auto ↔
          |d.delta.getD 0| ≤ policy.deterministicL1MaxAutoDelta := by
        intro d
        split_ifs with hd
        · exact iff_of_false nofun (not_le.2 hd)
        · exact iff_of_true rfl (not_lt.1 hd)
      rw [hwithin] at hr ⊢
      rcases h.delta with heq | ⟨d, hd, d', hd', hle⟩
      · rwa [← heq]
      · rw [Option.mem_def] at hd hd'
        rw [hd'] at hr
        rw [hd]
        exact hle.trans hr
    | _ =>
      rw [hl] at hr
      cases hr
  | distilled =>
    rw [hs] at hr
    cases hl : safe.layer with
    | L1 =>
      simp only [hl, decision_chargeBudget, decision_ite] at hr ⊢
      obtain ⟨⟨hconf, hpattern, d', hd', hmax⟩, hwindow⟩ := hr
      refine ⟨⟨(h.minConf_le hp hp.valueShift).trans (hconf.trans h.confidence), h.pattern hpattern, ?_⟩,
        h.window_lt hwindow⟩
      rcases h.delta with heq | ⟨d, hd, e, he, hle⟩
      · exact ⟨d', heq ▸ hd', hmax⟩
      · rw [Option.mem_unique hd' he] at hmax
        exact ⟨d, hd, hle.trans hmax⟩
    | MemoryGraph =>
      simp only [hl, decision_chargeBudget, decision_ite] at hr ⊢
      obtain ⟨⟨hconf, hevidence⟩, hwindow⟩ := hr
      exact ⟨⟨(h.minConf_le hp hp.memoryEdge).trans (hconf.trans h.confidence), hevidence.trans h.evidence⟩,
        h.window_lt hwindow⟩
    | _ =>
      rw [hl] at hr
      cases hr

/-! ## Artifacts -/

/-- The second payload asks for a larger change, or has lost the agreement of the pattern, if it differs. -/
def RiskierPayload : Payload → Payload → Prop
  | .valueShift valueId current suggested delta agrees, .valueShift valueId' current' suggested' delta' agrees' =>
    (valueId', current', suggested') = (valueId, current, suggested) ∧ |delta| ≤ |delta'| ∧ (agrees' → agrees)
  | .memoryEdge sourceId targetId relation strength, .memoryEdge sourceId' targetId' relation' strength' =>
    (sourceId', targetId', relation', strength') = (sourceId, targetId, relation, strength)
  | _, _ => False

/-- The second artifact differs from the first in what counts against it, if in anything. -/
structure RiskierArtifact (safe risky : DistilledArtifact) : Prop where
  id : risky.id = safe.id
  status : risky.status = safe.status
  createdAt : risky.createdAt = safe.createdAt
  compiledAt : risky.compiledAt = safe.compiledAt
  payload : RiskierPayload safe.payload risky.payload
  source : (trustTierOf safe.source).distance ≤ (trustTierOf risky.source).distance
  confidence : risky.confidence ≤ safe.confidence
  evidence : risky.evidence.Sublist safe.evidence

theorem GrowthTrustTier.one_le_multiplier (t : GrowthTrustTier) : 1 ≤ t.confidenceMultiplier := by
  cases t <;> norm_num [confidenceMultiplier]

theorem GrowthTrustTier.multiplier_le {t t' : GrowthTrustTier} (h : t.distance ≤ t'.distance) :
    t.confidenceMultiplier ≤ t'.confidenceMultiplier := by
  cases t <;> cases t' <;> first | (norm_num [confidenceMultiplier]; done) | simp [distance] at h

/-- A confidence that is enough for a source further off is enough, whatever the least confidence: one that is
negative asks for nothing. -/
theorem minConfidence_le {least confidence : ℚ} {source source' : ArtifactSource} (h0 : 0 ≤ confidence)
    (h : (trustTierOf source).distance ≤ (trustTierOf source').distance)
    (hc : minConfidence least source' ≤ confidence) : minConfidence least source ≤ confidence := by
  rcases le_total 0 least with hleast | hleast
  · exact (clampConfidence_mono (mul_le_mul_of_nonneg_left (GrowthTrustTier.multiplier_le h) hleast)).trans hc
  · have hone := (trustTierOf source).one_le_multiplier
    have hneg : least * (trustTierOf source).confidenceMultiplier ≤ 0 :=
      mul_nonpos_of_nonpos_of_nonneg hleast (zero_le_one.trans hone)
    refine (clampConfidence_mono hneg).trans ?_
    rwa [clampConfidence, if_neg (by norm_num)]

theorem inUnitRange_of_valid {a : DistilledArtifact} (h : validateArtifact a = []) : InUnitRange a.confidence := by
  simp only [validateArtifact, List.append_eq_nil_iff] at h
  have hconf := h.1.1.2
  unfold problemIf at hconf
  split_ifs at hconf with hc
  exact hc

theorem canAutoCompile_mono {safe risky : DistilledArtifact} {policy : DistillationPolicy}
    (h : RiskierArtifact safe risky) (hvalid : validateArtifact safe = []) (hr : canAutoCompile risky policy) :
    canAutoCompile safe policy := by
  obtain ⟨-, hstatus, hgate⟩ := hr
  refine ⟨hvalid, h.status ▸ hstatus, ?_⟩
  have hpayload := h.payload
  have h0 : 0 ≤ safe.confidence := (inUnitRange_of_valid hvalid).1
  cases hs : safe.payload with
  | valueShift valueId current suggested delta agrees =>
    cases hrp : risky.payload with
    | valueShift valueId' current' suggested' delta' agrees' =>
      rw [hs, hrp] at hpayload
      rw [hrp] at hgate
      obtain ⟨-, hdelta, hagrees⟩ := hpayload
      obtain ⟨hconf, hpattern, hmax⟩ := hgate
      exact ⟨minConfidence_le h0 h.source (hconf.trans h.confidence), hagrees hpattern, hdelta.trans hmax⟩
    | _ =>
      rw [hs, hrp] at hpayload
      exact hpayload.elim
  | memoryEdge sourceId targetId relation strength =>
    cases hrp : risky.payload with
    | memoryEdge sourceId' targetId' relation' strength' =>
      rw [hrp] at hgate
      obtain ⟨hconf, hevidence⟩ := hgate
      exact ⟨minConfidence_le h0 h.source (hconf.trans h.confidence), hevidence.trans h.evidence.length_le⟩
    | _ =>
      rw [hs, hrp] at hpayload
      exact hpayload.elim
  | _ =>
    rw [hs] at hpayload
    exact hpayload.elim

def shiftRequest (delta confidence : ℚ) (provenance : ArtifactSource) : CoreUpdateGateInput :=
  ⟨.L1, .distilled, some delta, some confidence, some true, none, some provenance, none⟩

/-- An artifact that shifts a value from `1 / 2`. -/
def shiftArtifact (suggested delta : ℚ) : DistilledArtifact :=
  ⟨"artifact", .reflection, .valueShift "value" (1 / 2) suggested delta true, 9 / 10, [⟨.pattern, "evidence", 1⟩],
    .candidate, 0, none, none, none⟩

end ChronoSynth.Learning

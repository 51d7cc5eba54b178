import Mathlib.Algebra.Order.Field.Rat
import Mathlib.Data.List.Basic
import ChronoSynth.Lib.Utf16

/-!
# Distilled artifacts

`distilled-artifact-types.ts` and `core-update-gate.ts`: what a teacher's output is before it becomes part of the core,
when it is well formed, which states it goes through and when it may be compiled without a review.

* A payload is read by the shape its kind asks for; one without this shape is `malformed`, with the problems that are
  reported.
* A number is the finite number it prints.
-/

namespace ChronoSynth.Learning

/-! ## Types -/

inductive ArtifactKind
  | rule | value_shift | memory_edge | decision_style_patch | cognitive_model_patch | response_template
  | narrative_patch
  deriving DecidableEq, Repr

inductive ArtifactSource
  | reflection | conversation | knowledge_import | onboarding | perception
  deriving DecidableEq, Repr

inductive ArtifactStatus
  | candidate | approved | compiled | rejected | rolled_back
  deriving DecidableEq, Repr

inductive EvidenceType
  | memory | conversation | knowledge | pattern | test
  deriving DecidableEq, Repr

structure ArtifactEvidence where
  type : EvidenceType
  id : String
  score : ℚ
  deriving DecidableEq, Repr

inductive CompiledVia
  | auto | approved
  deriving DecidableEq, Repr

inductive RuleAction
  | prefer | avoid
  deriving DecidableEq, Repr

inductive DecisionStyleField
  | riskAppetite | timeHorizon | explorationBias | lossAversion | deliberationDepth | regretSensitivity
  deriving DecidableEq, Repr

inductive CognitiveScalar
  | attributionStyle | growthMindset | ambiguityTolerance | analyticalIntuitive
  deriving DecidableEq, Repr

inductive CognitiveMap
  | beliefs | biasWeights
  deriving DecidableEq, Repr

/-- The payload of an artifact. The fields of a patch are those that are given. -/
inductive Payload
  | valueShift (valueId : String) (currentWeight suggestedWeight delta : ℚ) (patternAgrees : Bool)
  | memoryEdge (sourceId targetId relation : String) (strength : ℚ)
  | responseTemplate (intent template : Text)
  | rule (ruleId condition : Text) (action : RuleAction) (weight : ℚ)
  | narrativePatch (narrative : Text)
  | decisionStylePatch (fields : List (DecisionStyleField × ℚ))
  | cognitiveModelPatch (scalars : List (CognitiveScalar × ℚ)) (maps : List (CognitiveMap × List (String × ℚ)))
  | malformed (kind : ArtifactKind) (problem : String) (others : List String)
  deriving DecidableEq, Repr

def ArtifactKind.name : ArtifactKind → String
  | rule => "rule"
  | value_shift => "value_shift"
  | memory_edge => "memory_edge"
  | decision_style_patch => "decision_style_patch"
  | cognitive_model_patch => "cognitive_model_patch"
  | response_template => "response_template"
  | narrative_patch => "narrative_patch"

def Payload.kind : Payload → ArtifactKind
  | .valueShift .. => .value_shift
  | .memoryEdge .. => .memory_edge
  | .responseTemplate .. => .response_template
  | .rule .. => .rule
  | .narrativePatch _ => .narrative_patch
  | .decisionStylePatch _ => .decision_style_patch
  | .cognitiveModelPatch .. => .cognitive_model_patch
  | .malformed kind _ _ => kind

def NEEDS_REPAIR_REASON_PREFIX : String := "NEEDS_REPAIR: "

/-- The note on a status: one of the texts of the service, or a text of a caller. -/
inductive StatusReason
  | manuallyApproved | autoApproved
  | compiled (applied : String)
  | needsRepair (why : String)
  | rolledBack (why : String)
  | given (text : Text)
  deriving DecidableEq, Repr

def StatusReason.text : StatusReason → Text
  | manuallyApproved => units "manually approved"
  | autoApproved => units "auto-approved"
  | compiled applied => units ("compiled: " ++ applied)
  | needsRepair why => units (NEEDS_REPAIR_REASON_PREFIX ++ why)
  | rolledBack why => units ("rolled back: " ++ why)
  | given text => text

structure DistilledArtifact where
  id : String
  source : ArtifactSource
  payload : Payload
  confidence : ℚ
  evidence : List ArtifactEvidence
  status : ArtifactStatus
  createdAt : ℤ
  reason : Option StatusReason
  compiledAt : Option ℤ
  compiledVia : Option CompiledVia
  deriving DecidableEq, Repr

def DistilledArtifact.kind (a : DistilledArtifact) : ArtifactKind := a.payload.kind

/-! ## Validation -/

/-- A problem if the condition holds. -/
def problemIf (c : Prop) [Decidable c] (problem : String) : List String := if c then [problem] else []

def InUnitRange (v : ℚ) : Prop := 0 ≤ v ∧ v ≤ 1

instance : DecidablePred InUnitRange := fun _ => inferInstanceAs (Decidable (_ ∧ _))

def DecisionStyleField.name : DecisionStyleField → String
  | riskAppetite => "riskAppetite"
  | timeHorizon => "timeHorizon"
  | explorationBias => "explorationBias"
  | lossAversion => "lossAversion"
  | deliberationDepth => "deliberationDepth"
  | regretSensitivity => "regretSensitivity"

/-- `DECISION_STYLE_CONSTRAINTS`. -/
def DecisionStyleField.Allows : DecisionStyleField → ℚ → Prop
  | lossAversion, v => 1 ≤ v
  | deliberationDepth, v => v.den = 1 ∧ 1 ≤ v ∧ v ≤ 5
  | _, v => InUnitRange v

instance : ∀ (f : DecisionStyleField) (v : ℚ), Decidable (f.Allows v)
  | .lossAversion, _ => inferInstanceAs (Decidable (_ ≤ _))
  | .deliberationDepth, _ => inferInstanceAs (Decidable (_ ∧ _ ∧ _))
  | .riskAppetite, v | .timeHorizon, v | .explorationBias, v | .regretSensitivity, v =>
    inferInstanceAs (Decidable (InUnitRange v))

def CognitiveScalar.name : CognitiveScalar → String
  | attributionStyle => "attributionStyle"
  | growthMindset => "growthMindset"
  | ambiguityTolerance => "ambiguityTolerance"
  | analyticalIntuitive => "analyticalIntuitive"

def CognitiveMap.name : CognitiveMap → String
  | beliefs => "beliefs"
  | biasWeights => "biasWeights"

def validatePayloadShape : Payload → List String
  | .valueShift valueId currentWeight suggestedWeight delta _ =>
    if valueId = "" then ["value_shift payload requires non-empty valueId"]
    else
      problemIf (¬ InUnitRange currentWeight) "value_shift currentWeight must be within [0,1]" ++
      problemIf (¬ InUnitRange suggestedWeight) "value_shift suggestedWeight must be within [0,1]" ++
      problemIf (InUnitRange currentWeight ∧ InUnitRange suggestedWeight ∧
        |suggestedWeight - currentWeight - delta| > 1 / 10 ^ 9)
        "value_shift delta must equal suggestedWeight - currentWeight"
  | .memoryEdge sourceId targetId relation strength =>
    problemIf (sourceId = targetId) "memory_edge sourceId and targetId must differ" ++
    problemIf (relation = "") "memory_edge requires non-empty relation" ++
    problemIf (¬ InUnitRange strength) "memory_edge strength must be within [0,1]"
  | .responseTemplate intent template =>
    problemIf (intent.trim = [] ∨ template.trim = [])
      "response_template payload requires non-empty intent and template"
  | .rule ruleId condition _ weight =>
    problemIf (ruleId.trim = []) "rule payload requires non-empty ruleId" ++
    problemIf (condition.trim = []) "rule payload requires non-empty condition" ++
    problemIf (¬ InUnitRange weight) "rule weight must be within [0,1]"
  | .narrativePatch narrative =>
    problemIf (narrative.trim = []) "narrative_patch payload requires non-empty narrative"
  | .decisionStylePatch fields =>
    fields.flatMap (fun f =>
      problemIf (¬ f.1.Allows f.2) ("decision_style_patch " ++ f.1.name ++ " violates its domain constraint")) ++
    problemIf (fields = []) "decision_style_patch requires at least one calibration field"
  | .cognitiveModelPatch scalars maps =>
    scalars.flatMap (fun f =>
      problemIf (¬ InUnitRange f.2) ("cognitive_model_patch " ++ f.1.name ++ " must be within [0,1]")) ++
    maps.flatMap (fun m =>
      problemIf (∃ e ∈ m.2, ¬ InUnitRange e.2)
        ("cognitive_model_patch " ++ m.1.name ++ " values must be within [0,1]")) ++
    problemIf (scalars = [] ∧ maps = []) "cognitive_model_patch requires at least one field"
  | .malformed _ problem others => problem :: others

def validateEvidence (e : ArtifactEvidence) : List String :=
  if e.id = "" then ["evidence requires non-empty id"]
  else problemIf (¬ InUnitRange e.score) ("evidence " ++ e.id ++ " score must be within [0,1]")

/-- The problems of an artifact. -/
def validateArtifact (a : DistilledArtifact) : List String :=
  problemIf (a.id = "") "missing id" ++
  problemIf (¬ InUnitRange a.confidence) "confidence must be within [0,1]" ++
  (if a.evidence = [] then ["evidence must not be empty"] else a.evidence.flatMap validateEvidence) ++
  validatePayloadShape a.payload

/-! ## States -/

def ArtifactStatus.next : ArtifactStatus → List ArtifactStatus
  | candidate => [approved, rejected]
  | approved => [compiled, rejected]
  | compiled => [rolled_back]
  | rejected => []
  | rolled_back => []

def canTransition (s t : ArtifactStatus) : Prop := t ∈ s.next

instance (s t : ArtifactStatus) : Decidable (canTransition s t) := inferInstanceAs (Decidable (_ ∈ _))

/-! ## The gate -/

inductive GrowthTrustTier
  | internal | semi | external
  deriving DecidableEq, Repr

def trustTierOf : ArtifactSource → GrowthTrustTier
  | .reflection | .onboarding => .internal
  | .conversation | .knowledge_import => .semi
  | .perception => .external

/-- `trustTierConfidenceMultiplier`. -/
def GrowthTrustTier.confidenceMultiplier : GrowthTrustTier → ℚ
  | internal => 1
  | semi => 11 / 10
  | external => 125 / 100

def clampConfidence (v : ℚ) : ℚ := if v > 1 then 1 else v

structure DistillationPolicy where
  valueShiftMinConfidence : ℚ
  valueShiftMaxDelta : ℚ
  memoryEdgeMinConfidence : ℚ
  memoryEdgeMinEvidence : ℕ
  unverifiedGrowthWindowMs : ℤ
  /-- The budget of those personas that have none of their own. -/
  unverifiedGrowthBudgetPerWindow : ℤ

def MAX_SAFE_INTEGER : ℤ := 9007199254740991

def DEFAULT_DISTILLATION_POLICY : DistillationPolicy :=
  ⟨8 / 10, 5 / 100, 75 / 100, 2, 86400000, MAX_SAFE_INTEGER⟩

def minConfidence (least : ℚ) (source : ArtifactSource) : ℚ :=
  clampConfidence (least * (trustTierOf source).confidenceMultiplier)

/-- The gate: whether a payload of this confidence and evidence needs no review. -/
def MeetsGate (policy : DistillationPolicy) (source : ArtifactSource) (confidence : ℚ) (evidence : ℕ) : Payload → Prop
  | .valueShift _ _ _ delta patternAgrees =>
    minConfidence policy.valueShiftMinConfidence source ≤ confidence ∧ patternAgrees = true ∧
      |delta| ≤ policy.valueShiftMaxDelta
  | .memoryEdge .. =>
    minConfidence policy.memoryEdgeMinConfidence source ≤ confidence ∧ policy.memoryEdgeMinEvidence ≤ evidence
  | .responseTemplate .. | .rule .. | .narrativePatch _ | .decisionStylePatch _ | .cognitiveModelPatch ..
  | .malformed .. => False

instance {policy : DistillationPolicy} {source : ArtifactSource} {confidence : ℚ} {evidence : ℕ} :
    ∀ p, Decidable (MeetsGate policy source confidence evidence p)
  | .valueShift .. => inferInstanceAs (Decidable (_ ∧ _ ∧ _))
  | .memoryEdge .. => inferInstanceAs (Decidable (_ ∧ _))
  | .responseTemplate .. | .rule .. | .narrativePatch _ | .decisionStylePatch _ | .cognitiveModelPatch ..
  | .malformed .. => inferInstanceAs (Decidable False)

/-- Whether a candidate is compiled without a review. -/
def canAutoCompile (a : DistilledArtifact) (policy : DistillationPolicy) : Prop :=
  validateArtifact a = [] ∧ a.status = .candidate ∧
    MeetsGate policy a.source a.confidence a.evidence.length a.payload

instance (a : DistilledArtifact) (policy : DistillationPolicy) : Decidable (canAutoCompile a policy) :=
  inferInstanceAs (Decidable (_ ∧ _ ∧ _))

end ChronoSynth.Learning

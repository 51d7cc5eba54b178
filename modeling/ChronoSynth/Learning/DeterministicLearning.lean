import ChronoSynth.Learning.Artifacts
import ChronoSynth.Learning.Exam
import Mathlib.Tactic.FieldSimp
import Mathlib.Tactic.Linarith

/-!
# Learning material without a teacher

`deterministic-learning.ts`: from the capability and the evidence of a request come the key words, a narrative that says
them and an exam that asks for them. It is passed by an answer that has all of them (`passed_iff_of_plain`).
-/

namespace ChronoSynth.Learning

def MAX_KEYPOINTS : ℕ := 4

def MIN_KEYPOINTS : ℕ := 2

local instance keywordLawfulBEq : LawfulBEq (List ℕ) := inferInstance

section
variable (js : Js)

/-- A key word is trimmed and neither short nor long; one that is there already but for its case is left out. -/
def pushKeyword (out : List Text) (raw : Text) : List Text :=
  let t := raw.trim
  if t.length < 2 ∨ t.length > 80 then out
  else if js.casing.lower t ∈ out.map js.casing.lower then out
  else out ++ [t]

/-- `/[，,、；;。\n]/`. -/
def isSeparator (c : ℕ) : Bool := c ∈ units "，,、；;。\n"

def pushEvidence (evidence : Text) (out : List Text) : List Text :=
  (evidence.splitOnP isSeparator).foldl
    (fun out part => if out.length ≥ MAX_KEYPOINTS then out else pushKeyword js out part) out

def placeholderBase (capability : Text) : Text := if capability.length > 60 then capability.take 60 else capability

/-- Where too few were found, the first of the numbered ones. -/
def pushPlaceholders (capability : Text) (out : List Text) : List Text :=
  (List.range' 1 (MIN_KEYPOINTS * 4)).foldl
    (fun out i => if out.length < MIN_KEYPOINTS then
      pushKeyword js out (placeholderBase capability ++ units "的要点" ++ units (toString i)) else out) out

def extractKeypoints (capability evidence : Text) : List Text :=
  (pushPlaceholders js capability (pushEvidence js evidence (pushKeyword js [] capability))).take MAX_KEYPOINTS

end

structure DeterministicLearningInput where
  learningRequestId : String
  capability : Text
  evidence : Text
  now : ℤ

structure DeterministicLearningOutput where
  candidate : DistilledArtifact
  examSpec : ExamSpec

def learnedNarrative (capability : Text) (keywords : List Text) : Text :=
  units "我学会了「" ++ capability ++ units "」，掌握了" ++ Text.join (units "、") keywords ++ units "。"

def learnedQuestion (capability : Text) : Text := units "你学会了什么关于「" ++ capability ++ units "」的能力？"

def keywordPoint (kw : Text) (idx : ℕ) : ExamKeypoint := ⟨"kp-" ++ toString idx, 1, [kw], []⟩

def generateDeterministicLearning (js : Js) (input : DeterministicLearningInput) : DeterministicLearningOutput :=
  let keywords := extractKeypoints js input.capability input.evidence
  { candidate :=
      { id := "dart-learn-" ++ input.learningRequestId
        source := .knowledge_import
        payload := .narrativePatch (learnedNarrative input.capability keywords)
        confidence := 95 / 100
        evidence := [⟨.knowledge, "lr-" ++ input.learningRequestId, 9 / 10⟩]
        status := .candidate
        createdAt := input.now
        reason := some (.given (units "确定性进修：" ++ input.capability))
        compiledAt := none
        compiledVia := none }
    examSpec :=
      { examId := "exam-" ++ input.learningRequestId
        capability := input.capability
        questions := [⟨"q1", learnedQuestion input.capability⟩]
        keypoints := keywords.mapIdx fun idx kw => keywordPoint kw idx
        forbiddenClaims := []
        structuredFields := []
        negativeCases :=
          [⟨"n1", [], units "空答案无要点"⟩, ⟨"n2", units "我不知道", units "泛答案不含任何要点关键词"⟩,
            ⟨"n3", units "还没学会", units "否定答案无要点"⟩]
        scorerVersion := EXAM_SCORER_VERSION
        normalizerVersion := EXAM_NORMALIZER_VERSION
        tokenizerVersion := EXAM_TOKENIZER_VERSION } }

variable {js : Js} {w answer : Text}

/-! ## Passing -/

/-- The key word is found in the answer. -/
def Found (js : Js) (w answer : Text) : Prop := normalizeAnswer js w <:+: normalizeAnswer js answer

/-- More than nine tenths of four is all of them. -/
theorem le_filter_div_iff {α : Type*} {l : List α} {p : α → Bool} (hl : l ≠ []) (h4 : l.length ≤ 4) :
    EXAM_PASS_THRESHOLD ≤ ((l.filter p).length : ℚ) / l.length ↔ ∀ a ∈ l, p a := by
  have hpos : 0 < l.length := List.length_pos_iff.2 hl
  have hposQ : (0 : ℚ) < l.length := by exact_mod_cast hpos
  rw [le_div_iff₀ hposQ, EXAM_PASS_THRESHOLD, ← List.length_filter_eq_length_iff]
  constructor
  · intro h
    by_contra hne
    have hlt : (l.filter p).length + 1 ≤ l.length := by
      have := List.length_filter_le p l
      omega
    have hltQ : ((l.filter p).length : ℚ) + 1 ≤ l.length := by exact_mod_cast hlt
    have h4Q : (l.length : ℚ) ≤ 4 := by exact_mod_cast h4
    linarith
  · intro h
    rw [h]
    linarith

theorem map_mapIdx_keywordPoint {α : Type*} (f : ExamKeypoint → α) (g : Text → α)
    (h : ∀ i kw, f (keywordPoint kw i) = g kw) (keywords : List Text) :
    (keywords.mapIdx fun idx kw => keywordPoint kw idx).map f = keywords.map g := by
  rw [List.mapIdx_eq_zipIdx_map, List.map_map]
  conv_rhs => rw [← List.zipIdx_map_fst 0 keywords, List.map_map]
  exact List.map_congr_left fun x _ => h x.2 x.1

instance : Decidable (Found js w answer) := inferInstanceAs (Decidable (_ <:+: _))

theorem keypointHit_keywordPoint {i : ℕ} :
    keypointHit js (normalizeAnswer js answer) (keywordPoint w i) =
      decide (normalizeAnswer js w ≠ [] ∧ Found js w answer) := by
  rw [Bool.eq_iff_iff, decide_eq_true_iff]
  simp [keypointHit, ruleHits, keywordPoint, Found]

theorem passed_iff_of_plain {spec : ExamSpec} {keywords : List Text} (hne : keywords ≠ []) (h4 : keywords.length ≤ 4)
    (hk : spec.keypoints = keywords.mapIdx fun idx kw => keywordPoint kw idx) (hf : spec.forbiddenClaims = [])
    (hs : spec.structuredFields = []) :
    (scoreExam js spec answer).passed = true ↔
      ∀ w ∈ keywords, normalizeAnswer js w ≠ [] ∧ Found js w answer := by
  let hits := spec.keypoints.map fun kp =>
    (⟨kp.id, kp.weight, keypointHit js (normalizeAnswer js answer) kp⟩ : KeypointHit)
  let F : Text → Bool := fun w => decide (normalizeAnswer js w ≠ [] ∧ Found js w answer)
  have hpairs : hits.map (fun h => (h.hit, h.weight)) = keywords.map fun w => (F w, (1 : ℚ)) := by
    rw [List.map_map, hk]
    exact map_mapIdx_keywordPoint _ _ (fun i kw => Prod.ext keypointHit_keywordPoint rfl) _
  have htotal : (hits.map (·.weight)).sum = (keywords.length : ℚ) := by
    have h := congrArg (fun l => (l.map Prod.snd).sum) hpairs
    simpa [Function.comp_def] using h
  have hhit : ((hits.filter (·.hit)).map (·.weight)).sum = ((keywords.filter F).length : ℚ) := by
    have h := congrArg (fun l => ((l.filter Prod.fst).map Prod.snd).sum) hpairs
    simpa [List.filter_map, Function.comp_def] using h
  have hpos : (0 : ℚ) < keywords.length := by exact_mod_cast List.length_pos_iff.2 hne
  have hpass : (scoreExam js spec answer).passed = decide (EXAM_PASS_THRESHOLD ≤
      ((keywords.filter F).length : ℚ) / keywords.length) := by
    unfold scoreExam
    simp only [hf, hs, List.filter_nil, List.map_nil, List.sum_nil, add_zero, and_true, ge_iff_le]
    rw [htotal, hhit, if_pos hpos]
  rw [hpass, decide_eq_true_eq, le_filter_div_iff hne h4]
  simp only [F, decide_eq_true_eq]

end ChronoSynth.Learning

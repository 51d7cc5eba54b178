import Mathlib.Algebra.BigOperators.Group.List.Basic
import Mathlib.Algebra.Order.Field.Rat
import ChronoSynth.Lib.Utf16

/-!
# Exams

`exam-types.ts`, `exam-scorer.ts` and `exam-lint.ts`: an exam is frozen with its key points, and an answer is scored by
finding them in it.

* `Js` is what is used of the language's library: lower case, and whether a regular expression with the flag `i`
  matches a text (`none` if its source does not compile).
* A weight is the number it prints. The wording of a violation is left out; its code and the item it is about are kept.
-/

namespace ChronoSynth.Learning

/-- What is used of the language's library. -/
structure Js where
  casing : LowerCasing
  /-- `new RegExp(source, 'i').test(text)`. -/
  regexTest : Text → Text → Option Bool
  /-- `a.localeCompare(b) <= 0`. -/
  localeLe : String → String → Bool

/-! ## Types -/

structure ExamKeypoint where
  id : String
  weight : ℚ
  aliases : List Text
  patterns : List Text
  deriving DecidableEq

structure ExamForbiddenClaim where
  id : String
  aliases : List Text
  patterns : List Text
  deriving DecidableEq

structure ExamStructuredField where
  key : Text
  expected : Text
  weight : ℚ
  deriving DecidableEq

structure ExamQuestion where
  id : String
  question : Text
  deriving DecidableEq

structure ExamNegativeCase where
  id : String
  answer : Text
  reason : Text
  deriving DecidableEq

structure ExamSpec where
  examId : String
  capability : Text
  questions : List ExamQuestion
  keypoints : List ExamKeypoint
  forbiddenClaims : List ExamForbiddenClaim
  structuredFields : List ExamStructuredField
  negativeCases : List ExamNegativeCase
  scorerVersion : String
  normalizerVersion : String
  tokenizerVersion : String
  deriving DecidableEq

structure KeypointHit where
  keypointId : String
  weight : ℚ
  hit : Bool
  deriving DecidableEq

structure ExamResult where
  coverage : ℚ
  passed : Bool
  keypointHits : List KeypointHit
  forbiddenHits : List String
  structuredHits : List Text
  scorerVersion : String
  deriving DecidableEq

def EXAM_SCORER_VERSION : String := "v1"

def EXAM_NORMALIZER_VERSION : String := "v1"

def EXAM_TOKENIZER_VERSION : String := "v1"

def EXAM_PASS_THRESHOLD : ℚ := 95 / 100

/-! ## Scoring -/

section scoring
variable (js : Js)

def normalizeAnswer (raw : Text) : Text := js.casing.folded raw.trim

def ruleHits (normalizedAnswer : Text) (aliases patterns : List Text) : Bool :=
  aliases.any (fun a => let na := normalizeAnswer js a; na ≠ [] ∧ na <:+: normalizedAnswer) ∨
    patterns.any fun p => js.regexTest p normalizedAnswer = some true

def keypointHit (normalizedAnswer : Text) (kp : ExamKeypoint) : Bool :=
  ruleHits js normalizedAnswer kp.aliases kp.patterns

def forbiddenHit (normalizedAnswer : Text) (fc : ExamForbiddenClaim) : Bool :=
  ruleHits js normalizedAnswer fc.aliases fc.patterns

/-- The characters that have a meaning in a regular expression get a backslash. -/
def escapeRegex (s : Text) : Text :=
  s.flatMap fun c => if c ∈ units ".*+?^$\x7b\x7d()|[]\\" then [0x5C, c] else [c]

def structuredFieldHit (normalizedAnswer rawKey rawExpected : Text) : Bool :=
  let k := normalizeAnswer js rawKey
  let v := normalizeAnswer js rawExpected
  k ≠ [] ∧ v ≠ [] ∧
    js.regexTest (escapeRegex k ++ units "\\s*[\"']?\\s*[:=]\\s*[\"']?\\s*" ++ escapeRegex v) normalizedAnswer =
      some true

def scoreExam (spec : ExamSpec) (answer : Text) : ExamResult :=
  let normalized := normalizeAnswer js answer
  let keypointHits := spec.keypoints.map fun kp => (⟨kp.id, kp.weight, keypointHit js normalized kp⟩ : KeypointHit)
  let structuredHits :=
    (spec.structuredFields.filter fun f => structuredFieldHit js normalized f.key f.expected).map (·.key)
  let totalWeight := (keypointHits.map (·.weight)).sum + (spec.structuredFields.map (·.weight)).sum
  let hitWeight := ((keypointHits.filter (·.hit)).map (·.weight)).sum +
    ((spec.structuredFields.filter (·.key ∈ structuredHits)).map (·.weight)).sum
  let coverage := if totalWeight > 0 then hitWeight / totalWeight else 0
  let forbiddenHits := (spec.forbiddenClaims.filter (forbiddenHit js normalized)).map (·.id)
  { coverage
    passed := coverage ≥ EXAM_PASS_THRESHOLD ∧ forbiddenHits = []
    keypointHits, forbiddenHits, structuredHits
    scorerVersion := if spec.scorerVersion = "" then EXAM_SCORER_VERSION else spec.scorerVersion }

def failedKeypoints (result : ExamResult) : List String :=
  (result.keypointHits.filter fun k => ¬ k.hit).map (·.keypointId)

end scoring

/-! ## Lint -/

structure ExamLintLimits where
  maxAliasesPerKeypoint : ℕ
  maxAliasLength : ℕ
  minAliasLength : ℕ
  maxSingleItemWeightRatio : ℚ
  minNegativeCases : ℕ
  maxRegexLength : ℕ
  minStructuredFieldLength : ℕ
  maxStructuredFieldLength : ℕ

def EXAM_LINT_LIMITS : ExamLintLimits := ⟨12, 80, 2, 6 / 10, 3, 120, 1, 80⟩

inductive ExamLintCode
  | no_scoring_items | weight_nonpositive | keypoint_no_rule | too_many_aliases | alias_too_short | alias_too_long
  | regex_too_broad | structured_field_too_short | structured_field_too_long | weight_concentrated
  | too_few_negatives | negative_case_passed
  deriving DecidableEq, Repr

structure ExamLintViolation where
  code : ExamLintCode
  /-- The item it is about: its identifier, or the key of the field. -/
  item : Text
  deriving DecidableEq

/-- `\x7b\d*,\x7d` somewhere in the source. -/
def hasUnbounded : Text → Bool
  | [] => false
  | c :: s => (c = 0x7B ∧ [0x2C, 0x7D] <+: s.dropWhile fun d => 0x30 ≤ d ∧ d ≤ 0x39) ∨ hasUnbounded s

/-- One of the characters follows the text somewhere in the source. -/
def hasFollowed (lead : Text) (next : ℕ → Bool) : Text → Bool
  | [] => false
  | c :: s => (lead <+: c :: s ∧ ((c :: s).drop lead.length).head?.any next) ∨ hasFollowed lead next s

/-- Whether the source is refused. -/
def validateRestrictedRegex (js : Js) (source : Text) : Bool :=
  source.length > EXAM_LINT_LIMITS.maxRegexLength ∨
  units ".*" <:+: source ∨ units ".+" <:+: source ∨
  hasUnbounded source ∨
  hasFollowed (units "(?") (fun c => c ∈ units "=!<") source ∨
  hasFollowed (units "\\") (fun c => 0x30 ≤ c ∧ c ≤ 0x39) source ∨
  hasFollowed (units ")") (fun c => c ∈ units "*+?\x7b") source ∨
  js.regexTest source [] = none

section lint
variable (js : Js)

/-- A violation if the condition holds. -/
def violationIf (c : Prop) [Decidable c] (code : ExamLintCode) (item : Text) : List ExamLintViolation :=
  if c then [⟨code, item⟩] else []

theorem violationIf_eq_nil {c : Prop} [Decidable c] {code : ExamLintCode} {item : Text} :
    violationIf c code item = [] ↔ ¬ c := by
  unfold violationIf
  split
  next h => simp [h]
  next h => simp [h]

def checkPatterns (patterns : List Text) (item : Text) : List ExamLintViolation :=
  patterns.flatMap fun p => violationIf (validateRestrictedRegex js p) .regex_too_broad item

def lintKeypoint (kp : ExamKeypoint) : List ExamLintViolation :=
  let L := EXAM_LINT_LIMITS
  let id := units kp.id
  violationIf (¬ kp.weight > 0) .weight_nonpositive id ++
  violationIf (kp.aliases = [] ∧ kp.patterns = []) .keypoint_no_rule id ++
  violationIf (kp.aliases.length > L.maxAliasesPerKeypoint) .too_many_aliases id ++
  kp.aliases.flatMap (fun a =>
    violationIf (a.trim.length < L.minAliasLength) .alias_too_short id ++
    violationIf (a.trim.length > L.maxAliasLength) .alias_too_long id) ++
  checkPatterns js kp.patterns id

def lintStructuredField (f : ExamStructuredField) : List ExamLintViolation :=
  let L := EXAM_LINT_LIMITS
  let kt := f.key.trim
  let et := f.expected.trim
  violationIf (¬ f.weight > 0) .weight_nonpositive f.key ++
  violationIf (kt.length < L.minStructuredFieldLength ∨ et.length < L.minStructuredFieldLength)
    .structured_field_too_short f.key ++
  violationIf (kt.length > L.maxStructuredFieldLength ∨ et.length > L.maxStructuredFieldLength)
    .structured_field_too_long f.key

def scoredItems (spec : ExamSpec) : List (Text × ℚ) :=
  spec.keypoints.map (fun kp => (units kp.id, kp.weight)) ++ spec.structuredFields.map fun f => (f.key, f.weight)

def lintWeights (spec : ExamSpec) : List ExamLintViolation :=
  let totalWeight := ((scoredItems spec).map fun it => if it.2 > 0 then it.2 else 0).sum
  if totalWeight > 0 then
    (scoredItems spec).flatMap fun it =>
      violationIf (it.2 > 0 ∧ it.2 / totalWeight > EXAM_LINT_LIMITS.maxSingleItemWeightRatio) .weight_concentrated it.1
  else []

/-- The violations; an exam without any may be frozen. -/
def lintExamSpec (spec : ExamSpec) : List ExamLintViolation :=
  violationIf (spec.keypoints = [] ∧ spec.structuredFields = []) .no_scoring_items [] ++
  spec.keypoints.flatMap (lintKeypoint js) ++
  spec.structuredFields.flatMap lintStructuredField ++
  spec.forbiddenClaims.flatMap (fun fc => checkPatterns js fc.patterns (units fc.id)) ++
  lintWeights spec ++
  violationIf (spec.negativeCases.length < EXAM_LINT_LIMITS.minNegativeCases) .too_few_negatives [] ++
  spec.negativeCases.flatMap fun nc =>
    violationIf (scoreExam js spec nc.answer).passed .negative_case_passed (units nc.id)

end lint

end ChronoSynth.Learning

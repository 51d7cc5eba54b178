import ChronoSynth.Learning.Exam
import Mathlib.Data.List.Sort

/-!
# The offline responder

`offline-conversation-responder.ts` in Chinese, with `stance.ts` and what it takes from `companion-locale.ts`: the answer
is put together from the persona's narrative, the memories that were found and fixed sentences around them.

* Mood, variants of the fixed sentences, a follow-up and other languages are inputs that an exam does not give; they are
  left out.
* There is no matcher of boundaries, so a topic is looked for in the text.
* The alternatives of a regular expression are texts to look for.
-/

namespace ChronoSynth.Learning

/-! ## Types -/

structure RelevantKnowledge where
  id : String
  title : Text
  content : Text
  relevance : ℚ
  isAssociation : Bool
  deriving DecidableEq

inductive BehaviorRule
  | never_discuss | always_escalate | require_confirmation
  deriving DecidableEq, Repr

structure BehaviorBoundary where
  rule : BehaviorRule
  topic : Text
  deriving DecidableEq

inductive Stance
  | confident | tentative | opinion
  deriving DecidableEq, Repr

structure OfflineResponderInput where
  narrative : Text
  boundaries : List BehaviorBoundary
  userInput : Text
  relevantKnowledge : List RelevantKnowledge

inductive OfflineResponseKind
  | boundary_block | boundary_escalate | knowledge_grounded | honest_offline
  deriving DecidableEq, Repr

structure OfflineResponse where
  content : Text
  kind : OfflineResponseKind
  shouldEscalate : Bool
  confidence : ℚ
  deriving DecidableEq

def KNOWLEDGE_SNIPPET_CAP : ℕ := 280

def MAX_KNOWLEDGE_ITEMS : ℕ := 3

def MAX_ASSOCIATION_ITEMS : ℕ := 2

def MIN_USEFUL_RELEVANCE : ℚ := 1 / 10

def MIN_ASSOCIATION_RELEVANCE : ℚ := 2 / 100

def WEAK_RELEVANCE : ℚ := 12 / 100

def OPINION_STRONG_RELEVANCE : ℚ := 5 / 10

/-! ## The sentences -/

def NEVER_DISCUSS_RESPONSE : Text := units "该话题超出我的服务范围，需要人工处理。"

namespace zhCN

def associationLeadIn : Text := units "由此我联想到（不太确定，仅供参考）："

/-- The first of the variants. -/
def offlineNote : Text := units "（当前离线，以上基于已学习的内容；联网后我可以补充更多。）"

def honestOffline : Text :=
  units "我现在处于离线状态，还无法就这个新话题学习或展开。我已经把它记下，等联网后会一起整理再回应你。"

def coldStartIntro : Text :=
  units ("你好，我是你的数字人——我刚刚诞生，对这个世界、对你都还很陌生。我还没有属于自己的记忆和想法，但我会记住我们聊过的每一件事，" ++
    "并慢慢长成更懂你的样子。跟我聊聊你自己吧，或者点「让 TA 听」给我讲一段你的经历，我会用我的视角记住它。")

def humanFollowUp : Text := units "（已记录为需要人工跟进）"

def stancePrefix : Stance → Text
  | .tentative => units "我记得好像是这样，不过我也不太确定——"
  | .opinion => units "我觉得，"
  | .confident => []

/-- One of the texts occurs. -/
def includesAny (texts : List String) (s : Text) : Bool := texts.any fun t => units t <:+: s

/-- `/吗[?？]?$|会不会|是不是|有没有/`. -/
def asksWhether (q : Text) : Bool :=
  units "吗" <:+ q ∨ units "吗?" <:+ q ∨ units "吗？" <:+ q ∨ includesAny ["会不会", "是不是", "有没有"] q

def knowledgeLeadIn (userInput : Text) : Text :=
  let q := userInput.trim
  if asksWhether q then units "关于这个，我记得："
  else if includesAny ["怎么", "如何", "什么", "为什么", "哪些", "怎样"] q then units "这个我有印象："
  else units "根据我已经记住的内容："

/-- `opinionQuestionPatterns`. -/
def opinionQuestionTexts : List String :=
  ["你觉得", "你认为", "你怎么看", "你怎么想", "你喜欢", "你讨厌", "你爱", "你偏好", "你看好", "好不好", "好喝吗", "好吃吗", "好用吗",
    "值不值", "值得吗", "该不该", "要不要", "应不应该", "对不对", "行不行", "靠谱吗", "在你看来", "依你看", "你的看法", "你的观点"]

end zhCN

def isOpinionQuestion (userInput : Text) : Bool := zhCN.includesAny zhCN.opinionQuestionTexts userInput.trim

def classifyStance (opinionQuestion : Bool) (topRelevance : ℚ) (count : ℕ) : Stance :=
  if count = 0 then .tentative
  else if opinionQuestion then
    if count ≥ 2 ∨ topRelevance ≥ OPINION_STRONG_RELEVANCE then .opinion else .tentative
  else if topRelevance < WEAK_RELEVANCE then .tentative
  else .confident

/-! ## The answer -/

section
variable (js : Js)

def matchOne (text : Text) (boundary : BehaviorBoundary) : Bool :=
  let topic := js.casing.lower boundary.topic.trim
  topic ≠ [] ∧ topic <:+: js.casing.lower text

def matchesBoundary (text : Text) (boundaries : List BehaviorBoundary) (rule : BehaviorRule) : Bool :=
  boundaries.any fun b => b.rule = rule ∧ matchOne js text b

def moreRelevant (a b : RelevantKnowledge) : Prop :=
  b.relevance < a.relevance ∨ (b.relevance = a.relevance ∧ js.localeLe a.id b.id)

instance : DecidableRel (moreRelevant js) := fun _ _ => inferInstanceAs (Decidable (_ ∨ _))

/-- The direct hits. -/
def selectDirect (items : List RelevantKnowledge) : List RelevantKnowledge :=
  ((items.filter fun k => k.content.trim ≠ [] ∧ ¬ k.isAssociation ∧ k.relevance ≥ MIN_USEFUL_RELEVANCE).insertionSort
    (moreRelevant js)).take MAX_KNOWLEDGE_ITEMS

def selectAssociations (items : List RelevantKnowledge) : List RelevantKnowledge :=
  ((items.filter fun k => k.content.trim ≠ [] ∧ k.isAssociation ∧ k.relevance ≥ MIN_ASSOCIATION_RELEVANCE).insertionSort
    (moreRelevant js)).take MAX_ASSOCIATION_ITEMS

def selectUsableKnowledge (items : List RelevantKnowledge) : List RelevantKnowledge :=
  let direct := selectDirect js items
  direct ++ if direct = [] then [] else selectAssociations js items

def snippet (k : RelevantKnowledge) : Text := units "· " ++ k.content.trim.take KNOWLEDGE_SNIPPET_CAP

/-- The lines of an answer from what was found. -/
def composeFromKnowledge (narrative : Text) (knowledge : List RelevantKnowledge) (escalate : Bool) (userInput : Text)
    (stance : Stance) : Text :=
  let direct := knowledge.filter fun k => ¬ k.isAssociation
  let associations := knowledge.filter fun k => k.isAssociation
  Text.join (units "\n") <|
    (if narrative ≠ [] then [narrative] else []) ++
    (if direct ≠ [] then (zhCN.stancePrefix stance ++ zhCN.knowledgeLeadIn userInput) :: direct.map snippet else []) ++
    (if associations ≠ [] then zhCN.associationLeadIn :: associations.map snippet else []) ++
    [zhCN.offlineNote] ++
    (if escalate then [zhCN.humanFollowUp] else [])

def composeHonestOffline (narrative : Text) (escalate : Bool) : Text :=
  if narrative = [] ∧ ¬ escalate then zhCN.coldStartIntro
  else
    (if narrative ≠ [] then narrative ++ units "\n" else []) ++ zhCN.honestOffline ++
      if escalate then units "\n" ++ zhCN.humanFollowUp else []

def blockResponse : OfflineResponse := ⟨NEVER_DISCUSS_RESPONSE, .boundary_block, false, 9 / 10⟩

/-- An answer that must not be given is not. -/
def unlessLeaking (boundaries : List BehaviorBoundary) (response : OfflineResponse) : OfflineResponse :=
  if matchesBoundary js response.content boundaries .never_discuss then blockResponse else response

def respond (input : OfflineResponderInput) : OfflineResponse :=
  let narrative := input.narrative.trim
  if matchesBoundary js input.userInput input.boundaries .never_discuss then blockResponse
  else
    let escalate := matchesBoundary js input.userInput input.boundaries .always_escalate
    match selectUsableKnowledge js input.relevantKnowledge with
    | top :: rest =>
      let stance := if escalate then .confident
        else classifyStance (isOpinionQuestion input.userInput) top.relevance (rest.length + 1)
      unlessLeaking js input.boundaries
        { content := composeFromKnowledge narrative (top :: rest) escalate input.userInput stance
          kind := if escalate then .boundary_escalate else .knowledge_grounded
          shouldEscalate := escalate
          confidence := min (7 / 10) (3 / 10 + top.relevance * (4 / 10)) }
    | [] =>
      unlessLeaking js input.boundaries
        { content := composeHonestOffline narrative escalate
          kind := if escalate then .boundary_escalate else .honest_offline
          shouldEscalate := escalate
          confidence := 2 / 10 }

end

end ChronoSynth.Learning

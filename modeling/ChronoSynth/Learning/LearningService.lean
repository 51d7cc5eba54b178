import ChronoSynth.Learning.ArtifactGate
import ChronoSynth.Learning.DeterministicLearning
import ChronoSynth.Learning.OfflineResponder
import ChronoSynth.Lib.Balance

/-!
# Learning requests

`learning-request-service.ts`, `deterministic-learning-service.ts` and `learning-orchestrator-l6.ts` over the ledger of the
requests, the database of distillation and the bus, which any number of processes share.

* Each statement is one step, those of the calls of distillation too. The transaction of a shadow exam is one step, which
  changes nothing as it is rolled back.
* The ledger has a unique index: of the requests of a persona for a capability, one is pending or learning.
* What the teachers say is an oracle of the step.
* The reasons of a refusal are kept as far as they tell the branch.

Each call keeps to `Allowed`, whatever the others do (`LearningCall.follows`). In every run, then, requests and artifacts
only move on (`requests_onward`), one request for a capability is active (`active_unique`), what is compiled has passed
the gate (`compiled_gated`), what counts as learned has passed an exam and been compiled (`passed_learned`), and it is
told once (`learned_told_once`).
-/

namespace ChronoSynth.Learning

/-!
## Shadow exams

`shadow-exam-verifier.ts`: a candidate is compiled into a shadow of the core, the shadow answers the questions of the exam,
and all of it is rolled back. What is compiled there is compiled in a copy of the database.

Which memories are found for a question is left open.
-/

def ShadowVerifiable : ArtifactKind → Prop
  | .narrative_patch | .value_shift | .memory_edge | .decision_style_patch | .cognitive_model_patch => True
  | .response_template | .rule => False

instance : DecidablePred ShadowVerifiable
  | .narrative_patch | .value_shift | .memory_edge | .decision_style_patch | .cognitive_model_patch =>
    inferInstanceAs (Decidable True)
  | .response_template | .rule => inferInstanceAs (Decidable False)

inductive ShadowRefusal
  | kind | invalid (problems : List String) | rubric (violations : List ExamLintViolation)
  | lease_busy | compile | threw (message : String)
  deriving DecidableEq

inductive ShadowExamResult
  | examined (examResult : ExamResult) (failedKeypoints : List String)
  | refused (reason : ShadowRefusal)
  deriving DecidableEq

structure ShadowExamVerifier where
  js : Js
  tenantId : String
  /-- `retrieveMemoriesDeterministic`. -/
  retrieve : Text → List MemoryNode → List MemoryEdge → List RelevantKnowledge
  boundaries : List BehaviorBoundary

def SHADOW_COMPILE_LEASE_TTL_MS : ℚ := 60000

namespace ShadowExamVerifier

variable (v : ShadowExamVerifier)

def answer (core : CoreState) (question : Text) : Text :=
  (respond v.js
    { narrative := core.narrative, boundaries := v.boundaries, userInput := question
      relevantKnowledge := v.retrieve question core.memories core.edges }).content

def answers (core : CoreState) (spec : ExamSpec) : Text :=
  Text.join (units "\n") (spec.questions.map fun q => v.answer core q.question)

def examine (personaId : String) (spec : ExamSpec) (candidate : DistilledArtifact) (db : DistillDb) : ShadowExamResult :=
  match db.compile personaId candidate with
  | none => .refused .compile
  | some shadow =>
    let examResult := scoreExam v.js spec (v.answers (shadow.cores personaId) spec)
    .examined examResult (failedKeypoints examResult)

end ShadowExamVerifier

/-! ## The ledger -/

inductive LearningRequestStatus
  | pending | learning | passed | failed | cancelled
  deriving DecidableEq, Repr

/-- `ACTIVE_LEARNING_STATUSES`. -/
def LearningRequestStatus.Active (s : LearningRequestStatus) : Prop := s = .pending ∨ s = .learning

instance : DecidablePred LearningRequestStatus.Active := fun _ => inferInstanceAs (Decidable (_ ∨ _))

structure LearningRequest where
  id : String
  personaId : String
  capability : Text
  evidence : Text
  status : LearningRequestStatus
  createdAt : ℤ
  updatedAt : ℤ
  deriving DecidableEq, Repr

/-- The request holds the slot of the persona for the capability. -/
def LearningRequest.Holds (r : LearningRequest) (personaId : String) (capability : Text) : Prop :=
  r.personaId = personaId ∧ r.capability = capability ∧ r.status.Active

instance {personaId : String} {capability : Text} : DecidablePred fun r : LearningRequest => r.Holds personaId capability :=
  fun _ => inferInstanceAs (Decidable (_ ∧ _))

/-- `capability-learned`. -/
structure CapabilityLearned where
  personaId : String
  capability : Text
  learningRequestId : String
  examScore : ℚ
  learnedAt : ℤ
  tenantId : String
  deriving DecidableEq, Repr

structure LearningDb where
  distill : DistillDb
  requests : RowMap LearningRequest.id
  /-- What has been emitted, the last first. -/
  events : List CapabilityLearned

namespace LearningDb

variable (db : LearningDb)

def now : ℤ := db.distill.now

def getById (id : String) : Option LearningRequest := db.requests.get? id

/-- `ORDER BY created_at ASC, id ASC`. -/
def ordered (rows : List LearningRequest) : List LearningRequest :=
  rows.insertionSort fun a b => a.createdAt < b.createdAt ∨ (a.createdAt = b.createdAt ∧ a.id ≤ b.id)

def listByStatus (status : LearningRequestStatus) : List LearningRequest :=
  ordered (db.requests.rows.filter (·.status = status))

def findActive (personaId : String) (capability : Text) : Option LearningRequest :=
  (ordered (db.requests.rows.filter (·.Holds personaId capability))).head?

/-- The row is refused where one has its identifier or, by the unique index, its slot. -/
def insert (request : LearningRequest) : LearningDb × Bool :=
  if ∃ r ∈ db.requests.rows, r.id = request.id ∨ (r.Holds request.personaId request.capability ∧ request.status.Active) then
    (db, false)
  else ({ db with requests := db.requests.set request }, true)

/-- The status is moved on, if it is what the caller takes it to be. -/
def transitionStatus (id : String) (fromStatus toStatus : LearningRequestStatus) (updatedAt : ℤ) : LearningDb × Bool :=
  match (db.requests.get? id).filter fun r => r.status = fromStatus with
  | some r => ({ db with requests := db.requests.set { r with status := toStatus, updatedAt } }, true)
  | none => (db, false)

end LearningDb

/-! ## Steps -/

inductive LearningCmd
  | insert (request : LearningRequest)
  | transitionStatus (id : String) (fromStatus toStatus : LearningRequestStatus) (updatedAt : ℤ)
  | examine (personaId : String) (spec : ExamSpec) (candidate : DistilledArtifact)
  | distill (cmd : DistillCmd)
  | emit (event : CapabilityLearned)

inductive LearningReply
  /-- Whether a row was inserted or changed. -/
  | changed (b : Bool)
  | exam (r : ShadowExamResult)
  | distill (r : DistillReply)
  | emitted
  | threw (message : String)

/-- The decision of the teachers. -/
inductive TeacherReview
  | approved | refused
  | throws (message : String)
  deriving DecidableEq

/-- What is left open about a step. -/
structure LearningEnv extends DistillEnv where
  review : TeacherReview

/-- What the services are constructed with. -/
structure LearningDeps where
  verifier : ShadowExamVerifier
  distillation : DistillationDeps
  tenantId : String

variable (d : LearningDeps)

def LearningDb.wait (db : LearningDb) (elapsed : ℕ) : LearningDb :=
  { db with distill := { db.distill with now := db.distill.now + elapsed } }

/-- A statement on the requests, or the transaction of an exam. -/
def ledgerStep (o : LearningEnv) (f : LearningDb → LearningDb × LearningReply) (db : LearningDb) :
    LearningDb × LearningReply :=
  let db := db.wait o.elapsed
  match o.fault with
  | .throws message => (db, .threw message)
  | .none | .fails => f db

def learningExec (o : LearningEnv) (cmd : LearningCmd) (db : LearningDb) : LearningDb × LearningReply :=
  match cmd with
  | .insert request => ledgerStep o (fun db => ((db.insert request).1, .changed (db.insert request).2)) db
  | .transitionStatus id fromStatus toStatus updatedAt =>
    ledgerStep o (fun db =>
      let (db, b) := db.transitionStatus id fromStatus toStatus updatedAt
      (db, .changed b)) db
  | .examine personaId spec candidate =>
    ledgerStep o (fun db => (db, .exam (d.verifier.examine personaId spec candidate db.distill))) db
  | .distill cmd =>
    let (distill, r) := DistillDb.exec o.toDistillEnv cmd db.distill
    ({ db with distill }, .distill r)
  | .emit event => ({ db.wait o.elapsed with events := event :: db.events }, .emitted)

abbrev LearningProg := Prog LearningDb LearningCmd LearningReply LearningEnv String

/-- A call of distillation, or of its lease. -/
def distilled {α : Type} (p : DistillProg α) : LearningProg α :=
  p.embed LearningDb.distill (fun o _ => o.toDistillEnv) .distill
    (fun r => match r with
      | .distill r => r
      | _ => .threw "")
    id

/-- A query, which may throw. -/
def ledgerQuery {α : Type} (f : LearningDb → α) : LearningProg α :=
  .read fun o db => match o.fault with
    | .throws message => .throw message
    | .none | .fails => .ret (f db)

/-- A step that throws ends the call. -/
def perform (cmd : LearningCmd) : LearningProg LearningReply := do
  match ← Prog.transaction cmd with
  | .threw message => .throw message
  | reply => return reply

def transitionStatus (id : String) (fromStatus toStatus : LearningRequestStatus) : LearningProg Bool := do
  let now ← Prog.query LearningDb.now
  match ← perform (.transitionStatus id fromStatus toStatus now) with
  | .changed b => return b
  | _ => return false

/-- `fail`. -/
def failRequest (id : String) : LearningProg Unit := do
  let _ ← transitionStatus id .learning .failed
  return ()

/-- `verify`: what is thrown during the exam is its result; the lease is released first. -/
def verifyExam (personaId : String) (spec : ExamSpec) (candidate : DistilledArtifact) : LearningProg ShadowExamResult := do
  if ¬ ShadowVerifiable candidate.kind then return .refused .kind
  else if validateArtifact candidate ≠ [] then return .refused (.invalid (validateArtifact candidate))
  else if lintExamSpec d.verifier.js spec ≠ [] then return .refused (.rubric (lintExamSpec d.verifier.js spec))
  else
    let now ← Prog.query LearningDb.now
    match ← distilled (leaseCall (Lease.acquire ⟨d.verifier.tenantId, personaId, .compile⟩ now SHADOW_COMPILE_LEASE_TTL_MS)) with
    | none => return .refused .lease_busy
    | some handle =>
      let reply ← Prog.transaction (.examine personaId spec candidate)
      let _ ← distilled (leaseCall (Lease.release handle))
      match reply with
      | .exam r => return r
      | .threw message => return .refused (.threw message)
      | _ => .throw ""

/-- `land`: a candidate that is left pending is approved. -/
def land (personaId : String) (candidate : DistilledArtifact) : LearningProg Bool := do
  match ← distilled (d.distillation.ingest personaId
      ⟨candidate.source, candidate.payload, candidate.confidence, candidate.evidence⟩) with
  | .compiled _ => return true
  | .rejected .. => return false
  | .pending a =>
    match ← distilled (d.distillation.approve personaId a.id) with
    | .ok _ => return true
    | .refused _ => return false

def emitLearned (req : LearningRequest) (examScore : ℚ) (learnedAt : ℤ) : LearningProg Unit := do
  let _ ← Prog.transaction (.emit ⟨req.personaId, req.capability, req.id, examScore, learnedAt, d.tenantId⟩)
  return ()

/-! ## Registration -/

inductive RegisterGapOutcome
  | registered (request : LearningRequest)
  | deduped (request : LearningRequest)
  deriving DecidableEq

/-- An insertion that is refused is taken for one by another call, if there is such. -/
def registerGap (personaId : String) (capability evidence : Text) : LearningProg RegisterGapOutcome := do
  match ← ledgerQuery fun db => db.findActive personaId capability with
  | some existing => return .deduped existing
  | none =>
    let ts ← Prog.query LearningDb.now
    let id ← Prog.queryAny fun o _ => o.id
    let request : LearningRequest := ⟨id, personaId, capability, evidence, .pending, ts, ts⟩
    match ← perform (.insert request) with
    | .changed true => return .registered request
    | _ =>
      match ← ledgerQuery fun db => db.findActive personaId capability with
      | some won => return .deduped won
      | none => .throw "UNIQUE constraint failed"

/-! ## The deterministic service -/

inductive LearnFailure
  | refused (reason : ShadowRefusal)
  | notReached (coverage : ℚ)
  | notLanded | notMarked
  deriving DecidableEq

inductive LearnSkip
  | unknown | notPending
  deriving DecidableEq

inductive LearnResult
  | learned (learningRequestId personaId : String) (capability : Text) (examScore : ℚ)
  | failed (learningRequestId : String) (reason : LearnFailure)
  | skipped (learningRequestId : String) (reason : LearnSkip)
  deriving DecidableEq

/-- From the landing on. -/
def settleLearned (req : LearningRequest) (candidate : DistilledArtifact) (coverage : ℚ) : LearningProg LearnResult := do
  if ← land d req.personaId candidate then
    let learnedAt ← Prog.query LearningDb.now
    if ← transitionStatus req.id .learning .passed then
      emitLearned d req coverage learnedAt
      return .learned req.id req.personaId req.capability coverage
    else return .failed req.id .notMarked
  else
    failRequest req.id
    return .failed req.id .notLanded

def learnOne (learningRequestId : String) : LearningProg LearnResult := do
  match ← ledgerQuery fun db => db.getById learningRequestId with
  | none => return .skipped learningRequestId .unknown
  | some req =>
    if ← transitionStatus req.id .pending .learning then
      let now ← Prog.query LearningDb.now
      let material := generateDeterministicLearning d.verifier.js ⟨req.id, req.capability, req.evidence, now⟩
      match ← verifyExam d req.personaId material.examSpec material.candidate with
      | .refused reason =>
        failRequest req.id
        return .failed req.id (.refused reason)
      | .examined examResult _ =>
        if examResult.passed then settleLearned d req material.candidate examResult.coverage
        else
          failRequest req.id
          return .failed req.id (.notReached examResult.coverage)
    else return .skipped req.id .notPending

structure DriveStats where
  considered : ℕ
  learned : ℕ
  failed : ℕ
  skipped : ℕ
  deriving DecidableEq, Repr

def DriveStats.count (s : DriveStats) : LearnResult → DriveStats
  | .learned .. => { s with learned := s.learned + 1 }
  | .failed .. => { s with failed := s.failed + 1 }
  | .skipped .. => { s with skipped := s.skipped + 1 }

def driveAll : List LearningRequest → DriveStats → LearningProg DriveStats
  | [], s => return s
  | req :: rest, s => do driveAll rest (s.count (← learnOne d req.id))

def driveOnce : LearningProg DriveStats := do
  let pending ← ledgerQuery fun db => db.listByStatus .pending
  driveAll d pending ⟨pending.length, 0, 0, 0⟩

/-! ## The orchestrator -/

structure LearnOrchestrationInput where
  learningRequestId : String
  candidate : DistilledArtifact
  examSpec : ExamSpec

inductive LearnFailStage
  | precheck | exam_mismatch | l5_review | l4_exam | l6_ingest
  deriving DecidableEq, Repr

inductive LearnOrchestrationOutcome
  | ok (personaId : String) (capability : Text) (examScore : ℚ) (learnedAt : ℤ)
  | skipped
  | failed (stage : LearnFailStage)
  deriving DecidableEq

def failedAt (req : LearningRequest) (stage : LearnFailStage) : LearningProg LearnOrchestrationOutcome := do
  failRequest req.id
  return .failed stage

/-- The teachers are awaited. -/
def review : LearningProg Bool :=
  .read fun o _ => match o.review with
    | .approved => .ret true
    | .refused => .ret false
    | .throws message => .throw message

def settleOrchestrated (req : LearningRequest) (candidate : DistilledArtifact) (coverage : ℚ) :
    LearningProg LearnOrchestrationOutcome := do
  if ← land d req.personaId candidate then
    let learnedAt ← Prog.query LearningDb.now
    if ← transitionStatus req.id .learning .passed then
      emitLearned d req coverage learnedAt
      return .ok req.personaId req.capability coverage learnedAt
    else return .failed .l6_ingest
  else failedAt req .l6_ingest

def orchestrateBody (req : LearningRequest) (input : LearnOrchestrationInput) : LearningProg LearnOrchestrationOutcome := do
  if input.examSpec.capability ≠ req.capability then failedAt req .exam_mismatch
  else if ← review then
    match ← verifyExam d req.personaId input.examSpec input.candidate with
    | .refused _ => failedAt req .l4_exam
    | .examined examResult _ =>
      if examResult.passed then settleOrchestrated d req input.candidate examResult.coverage
      else failedAt req .l4_exam
  else failedAt req .l5_review

/-- What is thrown on the way makes the request fail. -/
def orchestrate (input : LearnOrchestrationInput) : LearningProg LearnOrchestrationOutcome := do
  match ← ledgerQuery fun db => db.getById input.learningRequestId with
  | none => return .failed .precheck
  | some req =>
    if ← transitionStatus req.id .pending .learning then
      match ← (orchestrateBody d req input).attempt (δ := String) with
      | .ok outcome => return outcome
      | .error _ => failedAt req .l6_ingest
    else return .skipped

/-! ## What becomes of a request -/

/-- The status that a request may get next. -/
def LearningRequestStatus.Next : LearningRequestStatus → LearningRequestStatus → Prop
  | .pending, s => s = .learning
  | .learning, s => s = .passed ∨ s = .failed
  | .passed, _ | .failed, _ | .cancelled, _ => False

theorem LearningRequestStatus.Next.active {s s' : LearningRequestStatus} (h : s.Next s') : s.Active := by
  cases s with
  | pending => exact .inl rfl
  | learning => exact .inr rfl
  | passed | failed | cancelled => exact h.elim

/-- The request is still what it was, and its status has moved on. -/
def LearningRequest.Becomes (r r' : LearningRequest) : Prop :=
  r'.personaId = r.personaId ∧ r'.capability = r.capability ∧
    Relation.ReflTransGen LearningRequestStatus.Next r.status r'.status

namespace LearningDb

variable {db db' db'' : LearningDb} {id : String} {req : LearningRequest}

/-- No artifact and no request is lost, and all only move on. -/
def Onward (db db' : LearningDb) : Prop :=
  db.distill.Onward db'.distill ∧
    ∀ id r, db.getById id = some r → ∃ r', db'.getById id = some r' ∧ r.Becomes r'

theorem Onward.refl (db : LearningDb) : db.Onward db := ⟨.refl _, fun _ r h => ⟨r, h, rfl, rfl, .refl⟩⟩

theorem Onward.trans (h : db.Onward db') (h' : db'.Onward db'') : db.Onward db'' := by
  refine ⟨h.1.trans h'.1, fun id r hr => ?_⟩
  obtain ⟨r₁, hr₁, hp₁, hc₁, hs₁⟩ := h.2 id r hr
  obtain ⟨r₂, hr₂, hp₂, hc₂, hs₂⟩ := h'.2 id r₁ hr₁
  exact ⟨r₂, hr₂, hp₂.trans hp₁, hc₂.trans hc₁, hs₁.trans hs₂⟩

theorem onward_of_requests (h : db.distill.Onward db'.distill) (h' : db'.requests = db.requests) : db.Onward db' :=
  ⟨h, fun id r hr => ⟨r, (congrArg (fun rows => rows.get? id) h').trans hr, rfl, rfl, .refl⟩⟩

/-- The request is in the ledger, with this persona and this capability. -/
def Has (db : LearningDb) (req : LearningRequest) : Prop :=
  ∃ r, db.getById req.id = some r ∧ r.personaId = req.personaId ∧ r.capability = req.capability

theorem has_of_getById (h : db.getById id = some req) : db.Has req :=
  ⟨req, by rw [RowMap.key_of_get? h, h], rfl, rfl⟩

theorem Has.onward (h : db.Has req) (hext : db.Onward db') : db'.Has req := by
  obtain ⟨r, hr, hp, hc⟩ := h
  obtain ⟨r', hr', hp', hc', -⟩ := hext.2 _ r hr
  exact ⟨r', hr', hp'.trans hp, hc'.trans hc⟩

/-- Of the requests of a persona for a capability, one is active. -/
def ActiveUnique (db : LearningDb) : Prop :=
  ∀ r ∈ db.requests.rows, ∀ r' ∈ db.requests.rows, r.status.Active → r'.Holds r.personaId r.capability → r.id = r'.id

end LearningDb

abbrev LearningLog := List (LearningCmd × LearningReply)

/-- A candidate has passed an exam on the capability of the request, and an artifact like it has been compiled into the
core of the request's persona. -/
def Learned (l : LearningLog) (id : String) (db : LearningDb) : Prop :=
  ∃ r spec candidate examResult failed a, db.getById id = some r ∧ spec.capability = r.capability ∧
    (LearningCmd.examine r.personaId spec candidate, .exam (.examined examResult failed)) ∈ l ∧ examResult.passed = true ∧
    a.payload = candidate.payload ∧ db.distill.Reached r.personaId a .compiled

/-- The call has just moved the request to `passed`. -/
def JustPassed (id : String) (l : LearningLog) : Prop :=
  ∃ updatedAt, l.getLast? = some (.transitionStatus id .learning .passed updatedAt, .changed true)

/-- What a call may have executed after the log `l`. -/
def Allowed (d : LearningDeps) (l : LearningLog) (cmd : LearningCmd) (db : LearningDb) : Prop :=
  match cmd with
  | .insert request => request.status = .pending
  | .transitionStatus id fromStatus toStatus _ => fromStatus.Next toStatus ∧ (toStatus = .passed → Learned l id db)
  | .examine .. => True
  | .distill cmd => DistillDb.Gated d.distillation.policy cmd db.distill
  | .emit e => JustPassed e.learningRequestId l ∧ e.tenantId = d.tenantId ∧
      ∃ r, db.getById e.learningRequestId = some r ∧ r.personaId = e.personaId ∧ r.capability = e.capability

section
variable {d : LearningDeps} {db db' : LearningDb} {l : LearningLog} {cmd : LearningCmd} {o : LearningEnv} {id : String}
  {fromStatus toStatus : LearningRequestStatus} {updatedAt : ℤ} {request : LearningRequest}

theorem wait_onward {elapsed : ℕ} : db.Onward (db.wait elapsed) :=
  LearningDb.onward_of_requests (DistillDb.onward_of_artifacts rfl) rfl

/-- What a step does to the requests. -/
theorem ledgerStep_cases (o : LearningEnv) (f : LearningDb → LearningDb × LearningReply) (db : LearningDb) :
    ledgerStep o f db = f (db.wait o.elapsed) ∨
      ∃ message, ledgerStep o f db = (db.wait o.elapsed, .threw message) := by
  unfold ledgerStep
  cases o.fault with
  | throws message => exact .inr ⟨message, rfl⟩
  | none | fails => exact .inl rfl

theorem ledgerStep_keeps {P : LearningDb → Prop} {f : LearningDb → LearningDb × LearningReply}
    (h : P (db.wait o.elapsed)) (hf : ∀ db', P db' → P (f db').1) : P (ledgerStep o f db).1 := by
  obtain he | ⟨message, he⟩ := ledgerStep_cases o f db
  · rw [he]
    exact hf _ h
  · rwa [he]

theorem onward_insert : db.Onward (db.insert request).1 := by
  unfold LearningDb.insert
  split_ifs with hc
  · exact .refl db
  · refine ⟨.refl _, fun id r hr => ⟨r, ?_, rfl, rfl, .refl⟩⟩
    change (db.requests.set request).get? id = some r
    rw [RowMap.get?_set, if_neg, ← hr]
    · rfl
    · rintro rfl
      exact hc ⟨r, (RowMap.get?_eq_some.1 hr).1, .inl (RowMap.key_of_get? hr)⟩

theorem onward_transitionStatus (h : fromStatus.Next toStatus) :
    db.Onward (db.transitionStatus id fromStatus toStatus updatedAt).1 := by
  unfold LearningDb.transitionStatus
  split
  next r₀ h₀ =>
    obtain ⟨hr₀, hs₀⟩ := Option.filter_eq_some_iff.1 h₀
    refine ⟨.refl _, fun id' r hr => ?_⟩
    change ∃ r', (db.requests.set _).get? id' = some r' ∧ _
    rw [RowMap.get?_set]
    have hkey : r₀.id = id := RowMap.key_of_get? hr₀
    split_ifs with hid
    · obtain rfl : id' = id := hid.trans hkey
      obtain rfl := Option.some.inj (hr₀.symm.trans hr)
      exact ⟨_, rfl, rfl, rfl, of_decide_eq_true hs₀ ▸ .single h⟩
    · exact ⟨r, hr, rfl, rfl, .refl⟩
  · exact .refl db

/-- **One step.** -/
theorem Allowed.onward (h : Allowed d l cmd db) (o : LearningEnv) : db.Onward (learningExec d o cmd db).1 := by
  cases cmd with
  | insert request => exact ledgerStep_keeps wait_onward fun _ h' => h'.trans onward_insert
  | transitionStatus id fromStatus toStatus updatedAt =>
    exact ledgerStep_keeps wait_onward fun _ h' => h'.trans (onward_transitionStatus h.1)
  | examine personaId spec candidate => exact ledgerStep_keeps wait_onward fun _ h' => h'
  | distill cmd => exact LearningDb.onward_of_requests (DistillDb.Gated.onward h o.toDistillEnv) rfl
  | emit e => exact wait_onward

/-! ## One active request -/

theorem activeUnique_of_requests (h : db.ActiveUnique) (h' : db'.requests = db.requests) : db'.ActiveUnique := by
  unfold LearningDb.ActiveUnique
  rwa [h']

theorem activeUnique_insert (h : db.ActiveUnique) (hs : request.status = .pending) : (db.insert request).1.ActiveUnique := by
  unfold LearningDb.insert
  split_ifs with hc
  · exact h
  · have hfree : ∀ r ∈ db.requests.rows, ¬ r.Holds request.personaId request.capability :=
      fun r hr hh => hc ⟨r, hr, .inr ⟨hh, .inl hs⟩⟩
    intro r hr r' hr' ha hh
    obtain heq | ⟨hmem, -⟩ := RowMap.mem_set.1 hr
    · obtain heq' | ⟨hmem', -⟩ := RowMap.mem_set.1 hr'
      · rw [heq, heq']
      · exact absurd (heq ▸ hh) (hfree r' hmem')
    · obtain heq' | ⟨hmem', -⟩ := RowMap.mem_set.1 hr'
      · exact absurd ⟨heq' ▸ hh.1.symm, heq' ▸ hh.2.1.symm, ha⟩ (hfree r hmem)
      · exact h r hmem r' hmem' ha hh

theorem activeUnique_transitionStatus (h : db.ActiveUnique) (hn : fromStatus.Next toStatus) :
    (db.transitionStatus id fromStatus toStatus updatedAt).1.ActiveUnique := by
  unfold LearningDb.transitionStatus
  split
  next r₀ h₀ =>
    obtain ⟨hr₀, hs₀⟩ := Option.filter_eq_some_iff.1 h₀
    have hactive : r₀.status.Active := of_decide_eq_true hs₀ ▸ hn.active
    have hold := (RowMap.get?_eq_some.1 hr₀).1
    intro r hr r' hr' ha hh
    obtain heq | ⟨hmem, -⟩ := RowMap.mem_set.1 hr
    · obtain heq' | ⟨hmem', -⟩ := RowMap.mem_set.1 hr'
      · rw [heq, heq']
      · subst heq
        exact h r₀ hold r' hmem' hactive hh
    · obtain heq' | ⟨hmem', -⟩ := RowMap.mem_set.1 hr'
      · subst heq'
        exact h r hmem r₀ hold ha ⟨hh.1, hh.2.1, hactive⟩
      · exact h r hmem r' hmem' ha hh
  · exact h

/-- **One step**: a request that is moved on does not become active by that. -/
theorem Allowed.activeUnique (h : Allowed d l cmd db) (hu : db.ActiveUnique) (o : LearningEnv) :
    (learningExec d o cmd db).1.ActiveUnique := by
  have hwait : (db.wait o.elapsed).ActiveUnique := hu
  cases cmd with
  | insert request => exact ledgerStep_keeps hwait fun _ hu => activeUnique_insert hu h
  | transitionStatus id fromStatus toStatus updatedAt =>
    exact ledgerStep_keeps hwait fun _ hu => activeUnique_transitionStatus hu h.1
  | examine personaId spec candidate => exact ledgerStep_keeps hwait fun _ hu => hu
  | distill cmd => exact activeUnique_of_requests hu rfl
  | emit e => exact hu

end

/-! ## What the calls keep to -/

def learningDiscipline : Discipline LearningDb LearningCmd LearningEnv where
  inv _ := True
  ext := LearningDb.Onward
  guar _ _ := True
  may _ _ _ := True
  ext_refl := .refl
  ext_trans := .trans

/-- The call only has executed what it may. -/
def Follows {α : Type} (d : LearningDeps) (l : LearningLog) (p : LearningProg α) (db : LearningDb) : Prop :=
  p.Traces learningDiscipline (learningExec d) (Allowed d) (fun _ _ _ => True) l db

section
variable {α β : Type} {d : LearningDeps} {db : LearningDb} {l : LearningLog} {p : LearningProg α} {g : α → LearningProg β}
  {cmd : LearningCmd} {id personaId : String} {spec : ExamSpec} {candidate : DistilledArtifact} {req : LearningRequest}

theorem Follows.ret {a : α} : Follows d l (.ret a) db := fun _ _ _ => trivial

theorem Follows.throw {e : String} : Follows d l (.throw e : LearningProg α) db := fun _ _ _ => trivial

theorem Follows.bind (h : Follows d l p db) (hg : ∀ a l db, Follows d l (g a) db) : Follows d l (p >>= g) db := by
  refine Prog.Traces.bind (h.mono (fun _ _ _ _ h => h) fun l' r db' _ _ => ?_)
  cases r with
  | ok a => exact hg a l' db'
  | error e => trivial

theorem Follows.query {f : LearningDb → α} (h : ∀ db', db.Onward db' → Follows d l (g (f db')) db') :
    Follows d l (Prog.query f >>= g) db :=
  fun db' h' _ _ => h db' h'

theorem Follows.ledgerQuery {f : LearningDb → α} (h : ∀ db', db.Onward db' → Follows d l (g (f db')) db') :
    Follows d l (ledgerQuery f >>= g) db := by
  intro db' h' _ o
  change Follows d l ((match o.fault with | .throws message => .throw message | .none | .fails => .ret (f db')) >>= g) db'
  cases o.fault with
  | throws message => exact .throw
  | none | fails => exact h db' h'

theorem Follows.review {f : Bool → LearningProg α} (hf : ∀ b db', db.Onward db' → Follows d l (f b) db') :
    Follows d l (review >>= f) db := by
  intro db' h' _ o
  dsimp only
  cases o.review with
  | approved | refused => exact hf _ db' h'
  | throws message => exact Follows.throw

theorem Follows.attempt (h : Follows d l p db) : Follows d l (p.attempt : LearningProg (Except String α)) db :=
  Prog.Traces.attempt h

theorem Follows.transaction {f : LearningReply → LearningProg α} (hcmd : ∀ db', db.Onward db' → Allowed d l cmd db')
    (hf : ∀ o db', db.Onward db' → Follows d (l ++ [(cmd, (learningExec d o cmd db').2)]) (f (learningExec d o cmd db').2)
      (learningExec d o cmd db').1) : Follows d l (Prog.transaction cmd >>= f) db :=
  fun db' h' _ => ⟨hcmd db' h', fun o => hf o db' h'⟩

/-- A step that throws ends the call. -/
theorem Follows.perform {f : LearningReply → LearningProg α} (hcmd : ∀ db', db.Onward db' → Allowed d l cmd db')
    (hf : ∀ o db', db.Onward db' → Follows d (l ++ [(cmd, (learningExec d o cmd db').2)]) (f (learningExec d o cmd db').2)
      (learningExec d o cmd db').1) : Follows d l (perform cmd >>= f) db := by
  refine .transaction hcmd fun o db' h' => ?_
  have hrest := hf o db' h'
  cases hr : (learningExec d o cmd db').2 with
  | threw message => exact Follows.throw
  | changed b | exam r | distill r | emitted =>
    rw [hr] at hrest
    exact hrest

theorem Follows.transition {fromStatus toStatus : LearningRequestStatus} {f : Bool → LearningProg α}
    (hcmd : ∀ t db', db.Onward db' → Allowed d l (.transitionStatus id fromStatus toStatus t) db')
    (hf : ∀ t r b db', db.Onward db' → (b = true → r = .changed true) →
      Follows d (l ++ [(.transitionStatus id fromStatus toStatus t, r)]) (f b) db') :
    Follows d l (transitionStatus id fromStatus toStatus >>= f) db := by
  unfold transitionStatus
  rw [Prog.bind_assoc]
  refine .query fun db₁ h₁ => ?_
  rw [Prog.bind_assoc]
  refine .perform (fun db' h' => hcmd _ db' (h₁.trans h')) fun o db₂ h₂ => ?_
  have hext := h₁.trans (h₂.trans ((hcmd db₁.now db₂ (h₁.trans h₂)).onward o))
  cases hr : (learningExec d o (.transitionStatus id fromStatus toStatus db₁.now) db₂).2 with
  | changed b => exact hf _ _ b _ hext fun h => by rw [h]
  | exam r | distill r | emitted | threw message => exact hf _ _ false _ hext nofun

/-- A request that fails, whatever follows. -/
theorem Follows.fail {f : Unit → LearningProg α} (hf : ∀ l db, Follows d l (f ()) db) :
    Follows d l (failRequest id >>= f) db := by
  unfold failRequest
  rw [Prog.bind_assoc]
  exact .transition (fun _ _ _ => ⟨.inr rfl, nofun⟩) fun _ _ _ _ _ _ => hf _ _

/-- A call of distillation leaves here what it leaves there. -/
theorem Follows.distilled {R : α → DistillDb → Prop} {p : DistillProg α} {f : α → LearningProg β}
    (h : Keeps d.distillation.policy R p db.distill)
    (hf : ∀ a l' db', l <+: l' → db.Onward db' → R a db'.distill → Follows d l' (f a) db') :
    Follows d l (distilled p >>= f) db := by
  have htrace : (Learning.distilled p).Traces learningDiscipline (learningExec d) (Allowed d)
      (Prog.Leaves fun a db' => R a db'.distill) l db :=
    Prog.Traces.embed (h []) (fun _ _ h => h.1) (fun _ _ => trivial) (fun _ _ _ h => h)
      fun o cmd db₁ => ⟨o.toDistillEnv, rfl⟩
  refine Prog.Traces.bind ((htrace.extending (fun _ _ _ o hcmd => hcmd.onward o) (List.prefix_refl l)
    (.refl db)).mono (fun _ _ _ _ h => h) fun l' r db' _ hr => ?_)
  obtain ⟨hR, hl, hext⟩ := hr
  cases r with
  | ok a => exact hf a l' db' hl hext (hR a rfl)
  | error e => trivial

theorem Follows.lease {p : Lease.LeaseProg α} {f : α → LearningProg β}
    (hf : ∀ a l' db', l <+: l' → db.Onward db' → Follows d l' (f a) db') :
    Follows d l (Learning.distilled (leaseCall p) >>= f) db :=
  .distilled (keeps_of_uses (leaseCall_uses p)) fun a l' db' hl h' _ => hf a l' db' hl h'

attribute [local irreducible] leaseCall Learning.distilled in
theorem Follows.verify {f : ShadowExamResult → LearningProg α}
    (hf : ∀ r l' db', l <+: l' → db.Onward db' →
      (∀ examResult failed, r = .examined examResult failed → (.examine personaId spec candidate, .exam r) ∈ l') →
      Follows d l' (f r) db') : Follows d l (verifyExam d personaId spec candidate >>= f) db := by
  have hrefused : ∀ reason l' db', l <+: l' → db.Onward db' → Follows d l' (f (.refused reason)) db' :=
    fun reason l' db' hl h' => hf _ l' db' hl h' nofun
  unfold verifyExam
  split_ifs
  · exact hrefused _ l db (List.prefix_refl l) (.refl db)
  · exact hrefused _ l db (List.prefix_refl l) (.refl db)
  · rw [Prog.bind_assoc]
    refine .query fun db₁ h₁ => ?_
    rw [Prog.bind_assoc]
    refine .lease fun handle l₂ db₂ hl₂ h₂ => ?_
    have h₂' := h₁.trans h₂
    cases handle with
    | none => exact hrefused _ l₂ db₂ hl₂ h₂'
    | some handle =>
      dsimp only
      rw [Prog.bind_assoc]
      refine .transaction (fun _ _ => trivial) fun o db₃ h₃ => ?_
      rw [Prog.bind_assoc]
      refine .lease fun _ l₄ db₄ hl₄ h₄ => ?_
      have hexam := hl₄.subset (List.mem_append_right l₂ (List.mem_singleton_self _))
      have hl := hl₂.trans ((List.prefix_append _ _).trans hl₄)
      have hallowed : Allowed d l₂ (.examine personaId spec candidate) db₃ := trivial
      have hext := h₂'.trans ((h₃.trans (hallowed.onward o)).trans h₄)
      cases hr : (learningExec d o (.examine personaId spec candidate) db₃).2 with
      | exam r =>
        rw [hr] at hexam
        exact hf r l₄ db₄ hl hext fun _ _ _ => hexam
      | threw message => exact hrefused _ l₄ db₄ hl hext
      | changed b | distill r | emitted => exact Follows.throw
  · exact hrefused _ l db (List.prefix_refl l) (.refl db)

/-- The candidate, or an artifact like it, is part of the core when it has landed. -/
theorem Follows.land {f : Bool → LearningProg α}
    (hf : ∀ l' b db', l <+: l' → db.Onward db' →
      (b = true → ∃ a, a.payload = candidate.payload ∧ db'.distill.Reached personaId a .compiled) →
      Follows d l' (f b) db') : Follows d l (land d personaId candidate >>= f) db := by
  unfold Learning.land
  rw [Prog.bind_assoc]
  refine .distilled d.distillation.ingest_keeps fun r l₁ db₁ hl₁ h₁ hr => ?_
  obtain ⟨hcompiled, hpending⟩ := hr
  cases r with
  | compiled a => exact hf l₁ true db₁ hl₁ h₁ fun _ => ⟨a, hcompiled a rfl⟩
  | rejected reason problems => exact hf l₁ false db₁ hl₁ h₁ nofun
  | pending a =>
    obtain ⟨hpayload, hcandidate⟩ := hpending a rfl
    dsimp only
    rw [Prog.bind_assoc]
    refine .distilled d.distillation.approve_keeps fun r l₂ db₂ hl₂ h₂ hr => ?_
    have hl := hl₁.trans hl₂
    cases r with
    | ok a' =>
      obtain ⟨hid, hreached⟩ := hr a' rfl
      exact hf l₂ true db₂ hl (h₁.trans h₂) fun _ => ⟨a, hpayload, (hcandidate.onward h₂.1).same hreached hid⟩
    | refused reason => exact hf l₂ false db₂ hl (h₁.trans h₂) nofun

/-- The request is marked, and if this works what has been learned is told. -/
theorem Follows.pass {coverage : ℚ} {x : ℤ → α} {y : α} (hhas : db.Has req)
    (hlearned : ∀ db', db.Onward db' → Learned l req.id db') :
    Follows d l (do
      let learnedAt ← Prog.query LearningDb.now
      if ← transitionStatus req.id .learning .passed then
        emitLearned d req coverage learnedAt
        return x learnedAt
      else return y) db := by
  refine .query fun db₁ h₁ => .transition (fun t db' h' => ⟨.inl rfl, fun _ => hlearned _ (h₁.trans h')⟩)
    fun t r b db₂ h₂ hb => ?_
  cases b with
  | true =>
    obtain rfl := hb rfl
    refine fun db₃ h₃ _ => ⟨⟨⟨t, List.getLast?_concat⟩, rfl, ?_⟩, fun o => Follows.ret⟩
    exact hhas.onward (h₁.trans (h₂.trans h₃))
  | false => exact Follows.ret

theorem Follows.settle {examResult : ExamResult} {failed : List String} {x : ℤ → α} {y z : α} (hhas : db.Has req)
    (hcapability : spec.capability = req.capability) (hpassed : examResult.passed = true)
    (hexam : (LearningCmd.examine req.personaId spec candidate, .exam (.examined examResult failed)) ∈ l) :
    Follows d l (do
      if ← Learning.land d req.personaId candidate then
        let learnedAt ← Prog.query LearningDb.now
        if ← transitionStatus req.id .learning .passed then
          emitLearned d req examResult.coverage learnedAt
          return x learnedAt
        else return y
      else
        failRequest req.id
        return z) db := by
  refine .land fun l' b db' hl h' hb => ?_
  cases b with
  | true =>
    obtain ⟨a, hpayload, ha⟩ := hb rfl
    refine Follows.pass (hhas.onward h') fun db'' h'' => ?_
    obtain ⟨r, hr, hp, hc⟩ := hhas.onward (h'.trans h'')
    exact ⟨r, spec, candidate, examResult, failed, a, hr, hcapability.trans hc.symm, hp ▸ hl.subset hexam, hpassed,
      hpayload, hp ▸ ha.onward h''.1⟩
  | false => exact Follows.fail fun _ _ => .ret

/-! ## The calls -/

theorem registerGap_follows {capability evidence : Text} : Follows d l (registerGap personaId capability evidence) db := by
  refine .ledgerQuery fun db₁ _ => ?_
  cases db₁.findActive personaId capability with
  | some existing => exact Follows.ret
  | none =>
    refine .query fun ts _ => Prog.Traces.queryAny fun db₂ _ _ o => Follows.perform (fun _ _ => rfl) fun o' db₃ _ => ?_
    split
    · exact Follows.ret
    · refine .ledgerQuery fun db₄ _ => ?_
      cases db₄.findActive personaId capability with
      | some won => exact Follows.ret
      | none => exact Follows.throw

theorem learnOne_follows : Follows d l (learnOne d id) db := by
  refine .ledgerQuery fun db₁ _ => ?_
  cases hget : db₁.getById id with
  | none => exact Follows.ret
  | some req =>
    have hhas := LearningDb.has_of_getById hget
    refine .transition (fun _ _ _ => ⟨rfl, nofun⟩) fun t r b db₂ h₂ _ => ?_
    cases b with
    | false => exact Follows.ret
    | true =>
      refine .query fun db₃ h₃ => .verify fun r l' db₄ _ h₄ hr => ?_
      cases r with
      | refused reason => exact Follows.fail fun _ _ => .ret
      | examined examResult failed =>
        by_cases hpassed : examResult.passed = true
        · simp only [hpassed, if_true]
          exact .settle (hhas.onward (h₂.trans (h₃.trans h₄))) rfl hpassed (hr _ _ rfl)
        · simp only [hpassed]
          exact Follows.fail fun _ _ => .ret

theorem driveAll_follows {reqs : List LearningRequest} {s : DriveStats} : Follows d l (driveAll d reqs s) db := by
  induction reqs generalizing l db s with
  | nil => exact Follows.ret
  | cons req reqs ih => exact learnOne_follows.bind fun r _ _ => ih

theorem failedAt_follows {stage : LearnFailStage} : Follows d l (failedAt req stage) db :=
  .fail fun _ _ => .ret

theorem orchestrateBody_follows {input : LearnOrchestrationInput} (hhas : db.Has req) :
    Follows d l (orchestrateBody d req input) db := by
  unfold orchestrateBody
  split_ifs with hcapability
  · exact failedAt_follows
  · refine .review fun approved db₁ h₁ => ?_
    cases approved with
    | false => exact failedAt_follows
    | true =>
      refine .verify fun r l' db₂ _ h₂ hr => ?_
      cases r with
      | refused reason => exact failedAt_follows
      | examined examResult failed =>
        by_cases hpassed : examResult.passed = true
        · simp only [hpassed, if_true]
          exact .settle (hhas.onward (h₁.trans h₂)) (not_not.1 hcapability) hpassed (hr _ _ rfl)
        · simp only [hpassed]
          exact failedAt_follows

theorem orchestrate_follows {input : LearnOrchestrationInput} : Follows d l (orchestrate d input) db := by
  refine .ledgerQuery fun db₁ _ => ?_
  cases hget : db₁.getById input.learningRequestId with
  | none => exact Follows.ret
  | some req =>
    refine .transition (fun _ _ _ => ⟨rfl, nofun⟩) fun t r b db₂ h₂ _ => ?_
    cases b with
    | false => exact Follows.ret
    | true =>
      refine (orchestrateBody_follows ((LearningDb.has_of_getById hget).onward h₂)).attempt.bind fun result _ _ => ?_
      cases result with
      | ok outcome => exact Follows.ret
      | error message => exact failedAt_follows

end

/-! ## Runs -/

/-- The calls of the services, those of distillation by an operator among them. -/
inductive LearningCall
  | registerGap (personaId : String) (capability evidence : Text)
  | learnOne (learningRequestId : String)
  | driveOnce
  | orchestrate (input : LearnOrchestrationInput)
  | ingest (personaId : String) (input : CandidateInput)
  | approve (personaId artifactId : String)
  | reject (personaId artifactId : String) (reason : Text)

/-- What a call does, its result apart. -/
def LearningCall.prog (d : LearningDeps) : LearningCall → LearningProg Unit
  | .registerGap personaId capability evidence => do let _ ← Learning.registerGap personaId capability evidence
  | .learnOne learningRequestId => do let _ ← Learning.learnOne d learningRequestId
  | .driveOnce => do let _ ← Learning.driveOnce d
  | .orchestrate input => do let _ ← Learning.orchestrate d input
  | .ingest personaId input => do let _ ← distilled (d.distillation.ingest personaId input)
  | .approve personaId artifactId => do let _ ← distilled (d.distillation.approve personaId artifactId)
  | .reject personaId artifactId reason => do let _ ← distilled (DistillationDeps.reject personaId artifactId reason)

variable {d : LearningDeps} {db : LearningDb} {ms : List (Move LearningCall LearningEnv)}

theorem LearningCall.follows (c : LearningCall) {l : LearningLog} : Follows d l (c.prog d) db := by
  cases c with
  | registerGap personaId capability evidence => exact registerGap_follows.bind fun _ _ _ => .ret
  | learnOne learningRequestId => exact learnOne_follows.bind fun _ _ _ => .ret
  | driveOnce => exact Follows.bind (.ledgerQuery fun _ _ => driveAll_follows) fun _ _ _ => .ret
  | orchestrate input => exact orchestrate_follows.bind fun _ _ _ => .ret
  | ingest personaId input => exact .distilled d.distillation.ingest_keeps fun _ _ _ _ _ _ => .ret
  | approve personaId artifactId => exact .distilled d.distillation.approve_keeps fun _ _ _ _ _ _ => .ret
  | reject personaId artifactId reason =>
    exact .distilled (keeps_of_uses d.distillation.reject_uses) fun _ _ _ _ _ _ => .ret

abbrev LearningPool := Pool LearningCall LearningDb LearningCmd LearningReply LearningEnv String Unit

namespace LearningPool

abbrev step (d : LearningDeps) : LearningPool → Move LearningCall LearningEnv → LearningPool :=
  Pool.step (LearningCall.prog d) (learningExec d)

/-- Every call keeps to what it may do. -/
def Following (d : LearningDeps) (p : LearningPool) : Prop :=
  p.Traced learningDiscipline (learningExec d) (fun _ => Allowed d) fun _ _ _ _ => True

theorem following_always :
    Always (step d) (fun p => p.Following d ∧ ∀ m, p.db.Onward (p.step d m).db) (Pool.idle db) ms :=
  Pool.traced_always (fun _ => trivial) (fun _ _ o _ _ h => h.onward o) fun c _ => c.follows

/-- What is executed in a run is what some call may do. -/
theorem allowed_along : Along (step d) (fun p m => ∀ o cmd, p.committing m = some (o, cmd) →
    ∃ th ∈ p.threads, Allowed d th.log cmd p.db) (Pool.idle db) ms :=
  fun pre _ h _ _ hm =>
    (following_always pre ((List.prefix_append _ _).trans h)).1.allowed trivial hm

end LearningPool

/-- The request has just been moved to `passed`, and this is still to be told. -/
def due (id : String) (l : LearningLog) : ℤ :=
  match l.getLast? with
  | some (.transitionStatus id' .learning .passed _, .changed true) => if id' = id then 1 else 0
  | _ => 0

def PassedAt (id : String) (db : LearningDb) : Prop := ∃ r, db.getById id = some r ∧ r.status = .passed

/-- The events for the request, with `n` calls that are about to tell it. -/
def Counted (id : String) (n : ℤ) (db : LearningDb) : Prop :=
  (db.events.countP fun e => e.learningRequestId = id : ℕ) + n ≤ 1 ∧
    (0 < (db.events.countP fun e => e.learningRequestId = id : ℕ) + n → PassedAt id db)

/-- What is told of a request is about it. -/
def Told (d : LearningDeps) (db : LearningDb) : Prop :=
  ∀ e ∈ db.events, e.tenantId = d.tenantId ∧
    ∃ r, db.getById e.learningRequestId = some r ∧ r.personaId = e.personaId ∧ r.capability = e.capability

section
variable {db' : LearningDb} {o : LearningEnv} {id : String} {t : ℤ} {l : LearningLog} {cmd : LearningCmd} {n : ℤ}

theorem due_nonneg : 0 ≤ due id l := by
  unfold due
  split
  · split_ifs <;> decide
  · decide

theorem PassedAt.onward (h : PassedAt id db) (hext : db.Onward db') : PassedAt id db' := by
  obtain ⟨r, hr, hs⟩ := h
  obtain ⟨r', hr', -, -, hs'⟩ := hext.2 id r hr
  rw [hs] at hs'
  obtain h | ⟨s, h, -⟩ := hs'.cases_head
  · exact ⟨r', hr', h.symm⟩
  · exact h.elim

/-- Who is told that the request has been moved is the first. -/
theorem changed_passed (h : (learningExec d o (.transitionStatus id .learning .passed t) db).2 = .changed true) :
    ¬ PassedAt id db ∧ PassedAt id (learningExec d o (.transitionStatus id .learning .passed t) db).1 := by
  unfold learningExec at h ⊢
  dsimp only at h ⊢
  obtain he | ⟨message, he⟩ := ledgerStep_cases o (fun db => ((db.transitionStatus id .learning .passed t).1,
    .changed (db.transitionStatus id .learning .passed t).2)) db
  · rw [he] at h ⊢
    simp only [LearningDb.transitionStatus] at h ⊢
    split at h
    next r₀ h₀ =>
      obtain ⟨hr₀, hs₀⟩ := Option.filter_eq_some_iff.1 h₀
      have hkey : r₀.id = id := RowMap.key_of_get? hr₀
      refine ⟨?_, _, RowMap.get?_set.trans (if_pos hkey.symm), rfl⟩
      rintro ⟨r, hr, hs⟩
      obtain rfl := Option.some.inj (hr₀.symm.trans hr)
      rw [hs] at hs₀
      exact absurd hs₀ (by decide)
    · cases h
  · rw [he] at h
    cases h

/-- Only `emit` tells anything. -/
theorem events_eq (h : ∀ e, cmd ≠ .emit e) : (learningExec d o cmd db).1.events = db.events := by
  cases cmd with
  | insert request =>
    refine ledgerStep_keeps (P := fun db' => db'.events = db.events) rfl fun db' h' => ?_
    rw [← h', LearningDb.insert]
    split_ifs <;> rfl
  | transitionStatus id fromStatus toStatus t =>
    refine ledgerStep_keeps (P := fun db' => db'.events = db.events) rfl fun db' h' => ?_
    have hsame : (db'.transitionStatus id fromStatus toStatus t).1.events = db'.events := by
      unfold LearningDb.transitionStatus
      split <;> rfl
    exact hsame.trans h'
  | examine personaId spec candidate => exact ledgerStep_keeps (P := fun db' => db'.events = db.events) rfl fun _ h' => h'
  | distill cmd => rfl
  | emit e => exact absurd rfl (h e)

/-- **One step**: what a call tells it was about to tell, and only one gets there. -/
theorem Counted.exec (hn : Counted id n db) (h : Allowed d l cmd db) (o : LearningEnv) (hl : due id l ≤ n) :
    Counted id (n + (due id (l ++ [(cmd, (learningExec d o cmd db).2)]) - due id l)) (learningExec d o cmd db).1 := by
  obtain ⟨hle, hpassed⟩ := hn
  have hext := h.onward o
  have hnonneg : 0 ≤ due id l := due_nonneg
  -- a step that tells nothing and is not the move to `passed`
  have hidle : (∀ e, cmd ≠ .emit e) → due id (l ++ [(cmd, (learningExec d o cmd db).2)]) = 0 →
      Counted id (n + (due id (l ++ [(cmd, (learningExec d o cmd db).2)]) - due id l)) (learningExec d o cmd db).1 := by
    intro hemit hdue
    unfold Counted
    rw [events_eq hemit, hdue]
    exact ⟨by omega, fun h => (hpassed (by omega)).onward hext⟩
  cases cmd with
  | insert request => exact hidle nofun (by simp [due])
  | examine personaId spec candidate => exact hidle nofun (by simp [due])
  | distill cmd => exact hidle nofun (by simp [due])
  | transitionStatus id' fromStatus toStatus t =>
    by_cases hmoved : id' = id ∧ fromStatus = .learning ∧ toStatus = .passed ∧
        (learningExec d o (.transitionStatus id' fromStatus toStatus t) db).2 = .changed true
    · obtain ⟨rfl, rfl, rfl, hr⟩ := hmoved
      obtain ⟨hnot, hnow⟩ := changed_passed hr
      have hevents : (learningExec d o (.transitionStatus id' .learning .passed t) db).1.events = db.events :=
        events_eq nofun
      unfold Counted
      rw [hevents, hr]
      have hzero : ¬ 0 < (db.events.countP fun e => e.learningRequestId = id' : ℕ) + n := fun h => hnot (hpassed h)
      have hdue : due id' (l ++ [(.transitionStatus id' .learning .passed t, .changed true)]) = 1 := by simp [due]
      rw [hdue]
      exact ⟨by omega, fun _ => hnow⟩
    · refine hidle nofun ?_
      unfold due
      rw [List.getLast?_concat]
      split
      next heq =>
        obtain ⟨hcmd, hr⟩ := Prod.mk.inj (Option.some.inj heq)
        obtain ⟨rfl, rfl, rfl, rfl⟩ := LearningCmd.transitionStatus.inj hcmd
        exact if_neg fun hid => hmoved ⟨hid, rfl, rfl, hr⟩
      · rfl
  | emit e =>
    obtain ⟨⟨t, hlast⟩, -⟩ := h
    have hdue : due id l = if e.learningRequestId = id then 1 else 0 := by simp [due, hlast]
    have hnew : due id (l ++ [(.emit e, (learningExec d o (.emit e) db).2)]) = 0 := by simp [due]
    have hcount : ((learningExec d o (.emit e) db).1.events.countP fun e => e.learningRequestId = id) =
        (db.events.countP fun e => e.learningRequestId = id) + if e.learningRequestId = id then 1 else 0 := by
      change (e :: db.events).countP _ = _
      rw [List.countP_cons]
      simp
    unfold Counted
    rw [hcount, hnew, hdue]
    rw [hdue] at hl
    split_ifs at hl ⊢ <;> exact ⟨by omega, fun h => (hpassed (by omega)).onward hext⟩

theorem Told.exec (ht : Told d db) (h : Allowed d l cmd db) (o : LearningEnv) : Told d (learningExec d o cmd db).1 := by
  have hext := h.onward o
  have hold : (∀ e, cmd ≠ .emit e) → Told d (learningExec d o cmd db).1 := by
    intro hemit e he
    obtain ⟨htenant, hhas⟩ := ht e (events_eq hemit ▸ he)
    obtain ⟨r, hr, hpersona, hcapability⟩ := hhas
    obtain ⟨r', hr', hpersona', hcapability', -⟩ := hext.2 _ r hr
    exact ⟨htenant, r', hr', hpersona'.trans hpersona, hcapability'.trans hcapability⟩
  cases cmd with
  | emit e =>
    intro e' he'
    rcases List.mem_cons.1 he' with rfl | he'
    · exact h.2
    · exact ht e' he'
  | insert request | transitionStatus id fromStatus toStatus t | examine personaId spec candidate | distill cmd =>
    exact hold nofun

end

namespace LearningPool

/-- How many calls are about to tell it. -/
def dues (id : String) (p : LearningPool) : ℤ := (p.threads.map fun th => due id th.log).sum

theorem dues_nonneg {id : String} {p : LearningPool} : 0 ≤ p.dues id := by
  refine List.sum_nonneg fun n hn => ?_
  obtain ⟨th, -, rfl⟩ := List.mem_map.1 hn
  exact due_nonneg

/-- **One move.** -/
theorem counted_step {p : LearningPool} {m : Move LearningCall LearningEnv} (hp : p.Following d)
    (h : (∀ id, Counted id (p.dues id) p.db) ∧ Told d p.db) :
    (∀ id, Counted id ((p.step d m).dues id) (p.step d m).db) ∧ Told d (p.step d m).db := by
  obtain ⟨c, -, -, hs⟩ | ⟨-, hs⟩ | ⟨i, o, c, l, f, hi, -, hs⟩ | ⟨i, o, c, l, cmd, k, hi, -, hs⟩ :=
    Pool.step_cases (LearningCall.prog d) (learningExec d) p m
  · rw [step, hs]
    refine ⟨fun id => ?_, h.2⟩
    have hdue : due id [] = 0 := rfl
    simpa [dues, hdue] using h.1 id
  · rwa [step, hs]
  · rw [step, hs]
    refine ⟨fun id => ?_, h.2⟩
    unfold dues
    rw [sum_set_int (fun th => due id th.log) hi, sub_self, add_zero]
    exact h.1 id
  · have hallowed := hp.committing trivial hi
    rw [step, hs]
    refine ⟨fun id => ?_, h.2.exec hallowed o⟩
    have hl : due id l ≤ p.dues id :=
      le_sum_int (fun th => due id th.log) (fun _ _ => due_nonneg) (List.mem_of_getElem? hi)
    have hn := (h.1 id).exec hallowed o hl
    unfold dues at hn ⊢
    rwa [sum_set_int (fun th => due id th.log) hi]

end LearningPool

/-- **What has been learned is told once**, in every run: there is at most one event for a request, and this request has
been moved to `passed`. -/
theorem learned_told_once (d : LearningDeps) (db : LearningDb) (ms : List (Move LearningCall LearningEnv)) :
    Always (LearningPool.step d) (fun p =>
      (p.db.events.map (·.learningRequestId)).Nodup ∧ ∀ e ∈ p.db.events, e.tenantId = d.tenantId ∧
        ∃ r, p.db.getById e.learningRequestId = some r ∧ r.status = .passed ∧ r.personaId = e.personaId ∧
          r.capability = e.capability) (Pool.idle { db with events := [] }) ms := by
  have hall : Always (LearningPool.step d) (fun p => p.Following d ∧ (∀ id, Counted id (p.dues id) p.db) ∧ Told d p.db)
      (Pool.idle { db with events := [] }) ms := by
    refine Always.of_step (C := fun p m => p.db.Onward (p.step d m).db)
      ⟨.idle, fun id => by simp [Counted, LearningPool.dues, Pool.idle], nofun⟩ (fun p m hp hext => ?_) fun pre m h => ?_
    · exact ⟨hp.1.step trivial hext fun c _ _ => c.follows, LearningPool.counted_step hp.1 hp.2⟩
    · exact (LearningPool.following_always pre ((List.prefix_append _ _).trans h)).2 m
  refine hall.mono fun p hp => ?_
  obtain ⟨-, hcounted, htold⟩ := hp
  refine ⟨List.nodup_iff_count_le_one.2 fun id => ?_, fun e he => ?_⟩
  · have hle := (hcounted id).1
    have hdues : 0 ≤ p.dues id := LearningPool.dues_nonneg
    rw [List.count_eq_countP, List.countP_map]
    change (p.db.events.countP fun e => e.learningRequestId == id) ≤ 1
    simp only [beq_eq_decide]
    omega
  · have hpos : 0 < p.db.events.countP fun e' => e'.learningRequestId = e.learningRequestId :=
      List.countP_pos_iff.2 ⟨e, he, by simp⟩
    have hdues : 0 ≤ p.dues e.learningRequestId := LearningPool.dues_nonneg
    obtain ⟨r, hr, hs⟩ := (hcounted e.learningRequestId).2 (by omega)
    obtain ⟨ht, r', hr', hp, hc⟩ := htold e he
    obtain rfl := Option.some.inj (hr.symm.trans hr')
    exact ⟨ht, r, hr, hs, hp, hc⟩

end ChronoSynth.Learning

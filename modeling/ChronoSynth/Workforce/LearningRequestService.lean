import ChronoSynth.Lib.Interleave
import ChronoSynth.Workforce.Commands
import Mathlib.Data.List.Lex

/-!
# Calls of the workforce, and learning

`WorkforceCall` is a call that reads the database and hands over commands, with the calls of others in
between. Here are those about capabilities: `LearningRequestService` registers what a worker's persona still
has to learn, and `CapabilityAssignmentService` looks for a colleague who has learned it.
-/

namespace ChronoSynth.Workforce

abbrev WorkforceCall := Prog Store Cmd Reply Env WorkforceError

/-- A command that throws ends the call. -/
def send (cmd : Cmd) : WorkforceCall Answer := do
  match ← Prog.transaction cmd with
  | .ok answer => pure answer
  | .error err => .throw err

/-- Whether a statement has changed a row. -/
def Answer.changed : Answer → Bool
  | .hit changed => changed
  | .task row => row.isSome
  | .approval row => row.isSome
  | .assignment row => row.isSome
  | _ => true

/-- The identifier of a new row. -/
def Answer.id? : Answer → Option Id
  | .id n => some n
  | _ => none

/-- A statement, and whether it has changed a row. -/
def hits (cmd : Cmd) : WorkforceCall Bool := do return (← send cmd).changed

def checking (c : Prop) [Decidable c] (err : WorkforceError) : WorkforceCall Unit :=
  if c then pure () else .throw err

/-! ## What is plugged in -/

/-- The fields of a task that the rules of a tool may use. -/
structure TaskFields where
  taskId : Id
  title : String
  taskType : String
  acceptanceCriteria : String
  riskLevel : RiskLevel
  goalId : Id
  deriving DecidableEq, Repr

/-- `ToolCompileResult`. -/
inductive ToolCompileResult
  | ok (arguments : Args)
  | refused (code reason : String)
  deriving DecidableEq, Repr

/-- The compiler of tool arguments, with the tools whose schema is registered. -/
structure ToolCompiler where
  registered : String → Bool
  compile : PersonaId → String → String → TaskFields → ToolCompileResult

/-- What the services are constructed with. -/
structure Ports where
  /-- `String.prototype.toLowerCase`. -/
  toLowerCase : String → String
  /-- Whether capabilities are checked before a task is executed. -/
  learning : Bool
  /-- Whether gaps are disposed of, and if so whether a task may be degraded. -/
  disposition : Option Bool
  compiler : Option ToolCompiler
  riskDeriver : Option (String → Args → Option DeclaredRiskSignals → DeclaredRiskSignals)
  /-- The fingerprint of arguments that an approval may be bound to. -/
  hashArguments : Args → String
  maxResumeAttempts : ℕ
  learningTimeoutMs : ℤ

variable (ports : Ports)

/-! ## Capabilities -/

/-- Runs of white space become one underscore. -/
def underscored : Bool → List Char → List Char
  | _, [] => []
  | inSpace, c :: cs =>
    if isSpace c then (if inSpace then underscored true cs else '_' :: underscored true cs)
    else c :: underscored false cs

def normalizeCapability (raw : String) : String :=
  String.ofList (underscored false (ports.toLowerCase (trim raw)).toList)

def codeUnits (c : Char) : List ℕ :=
  let n := c.val.toNat
  if n < 0x10000 then [n]
  else [0xD800 + (n - 0x10000) / 0x400, 0xDC00 + (n - 0x10000) % 0x400]

/-- The default order of `Array.prototype.sort`. -/
def sortTexts (texts : List String) : List String :=
  texts.insertionSort fun a b => a.toList.flatMap codeUnits ≤ b.toList.flatMap codeUnits

def normalizeCapabilities (raw : List String) : List String :=
  sortTexts ((raw.map (normalizeCapability ports)).filter (· ≠ "")).dedup

def detectCapabilityGaps (requiredCapabilities personaLearnedCapabilities : List String) : List String :=
  (normalizeCapabilities ports requiredCapabilities).filter
    (· ∉ normalizeCapabilities ports personaLearnedCapabilities)

/-- `listLearnedCapabilities`. -/
def listLearnedCapabilities (personaId : PersonaId) : WorkforceCall (List String) :=
  Prog.queryAny fun e _ => e.learned personaId

/-- `RegisterGapOutcome`: a new request, or an active one that was there. -/
structure RegisterGapOutcome where
  capability : String
  registered : Bool
  deriving DecidableEq, Repr

/-- `registerGap`. -/
def registerGap (orgId : OrgId) (personaId : PersonaId) (taskId : Id) (capability : String) :
    WorkforceCall RegisterGapOutcome := do
  match ← Prog.query (·.findActive personaId capability) with
  | some _ => return ⟨capability, false⟩
  | none =>
    match ← Prog.transaction (.insertLearningRequest orgId personaId capability (some taskId)) with
    | .ok _ => return ⟨capability, true⟩
    | .error err =>
      -- another call has registered it in between
      match ← Prog.query (·.findActive personaId capability) with
      | some _ => return ⟨capability, false⟩
      | none => .throw err

def registerGaps (orgId : OrgId) (personaId : PersonaId) (taskId : Id) :
    List String → WorkforceCall (List RegisterGapOutcome)
  | [] => return []
  | capability :: gaps => do
    let outcome ← registerGap orgId personaId taskId capability
    return outcome :: (← registerGaps orgId personaId taskId gaps)

/-- `detectAndRegister`. -/
def detectAndRegister (orgId : OrgId) (personaId : PersonaId) (requiredCapabilities : List String)
    (taskId : Id) : WorkforceCall (List RegisterGapOutcome) := do
  let learned ← listLearnedCapabilities personaId
  registerGaps orgId personaId taskId (detectCapabilityGaps ports requiredCapabilities learned)

/-! ## A capable colleague -/

def firstCapable (need : List String) (excludeWorkerId : Id) :
    List DigitalWorker → WorkforceCall (Option DigitalWorker)
  | [] => return none
  | worker :: workers =>
    if worker.id = excludeWorkerId ∨ worker.employmentStatus ≠ .active then
      firstCapable need excludeWorkerId workers
    else do
      let learned ← listLearnedCapabilities worker.personaId
      if ∀ capability ∈ need, capability ∈ learned.map (normalizeCapability ports) then
        return some worker
      else firstCapable need excludeWorkerId workers

/-- `findCapableColleague`. -/
def findCapableColleague (orgId : OrgId) (requiredCapabilities : List String) (excludeWorkerId : Id) :
    WorkforceCall (Option DigitalWorker) := do
  if requiredCapabilities = [] then return none
  else
    let workers ← Prog.query (·.listWorkers orgId)
    firstCapable ports (requiredCapabilities.map (normalizeCapability ports)) excludeWorkerId workers

end ChronoSynth.Workforce

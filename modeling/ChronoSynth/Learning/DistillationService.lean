import ChronoSynth.Learning.Artifacts
import ChronoSynth.Lease.PersonaLeaseStore
import ChronoSynth.Lib.Embed
import ChronoSynth.Lib.RowMap

/-!
# The distillation service

`distillation-service.ts` with `artifact-compiler.ts`, the store of artifacts, the compile lease and the snapshots of a
core, over the database of one tenant that all instances share.

* There is one clock, and some time passes before each statement.
* A statement may throw, and then has changed nothing. A compilation or a restoration may also report that it has failed.
* `CoreState.applied` is no data of the program: it says which artifacts have been compiled into the core, and is saved
  and restored with it. The rows of the templates and the rules name their artifacts.
* What exactly a compilation reports to have applied is left out, and so are its reasons to fail.
* The events of the bus are left out; its listeners cannot throw into the caller.
-/

namespace ChronoSynth.Learning

open Lease (LeaseDb LeaseCmd LeaseReply LeaseScope LeaseHandle)

/-! ## The database -/

structure MemoryNode where
  id : String
  content : Text
  deriving DecidableEq, Repr

structure MemoryEdge where
  source : String
  target : String
  relation : String
  strength : ℚ
  deriving DecidableEq, Repr

/-- What a snapshot of a persona holds. -/
structure CoreState where
  /-- The weights of the values. -/
  values : List (String × ℚ)
  memories : List MemoryNode
  edges : List MemoryEdge
  narrative : Text
  decisionStyle : DecisionStyleField → ℚ
  cognitiveScalars : CognitiveScalar → ℚ
  cognitiveMaps : CognitiveMap → List (String × ℚ)
  applied : List String

/-- A row of the templates or of the rules, which are kept in versions. -/
structure VersionedRow where
  personaId : String
  /-- The intent, or the rule. -/
  key : Text
  version : ℕ
  artifactId : String
  payload : Payload
  deriving DecidableEq, Repr

structure ArtifactRow where
  personaId : String
  artifact : DistilledArtifact
  deriving DecidableEq, Repr

def ArtifactRow.id (row : ArtifactRow) : String := row.artifact.id

structure DistillDb where
  now : ℤ
  artifacts : RowMap ArtifactRow.id
  leases : LeaseDb
  cores : String → CoreState
  /-- The snapshots, each with the persona it is of. -/
  snapshots : List (String × CoreState)
  templates : List VersionedRow
  rules : List VersionedRow

/-! ## The compiler -/

/-- `UPDATE` of one weight. -/
def setWeight (valueId : String) (weight : ℚ) (values : List (String × ℚ)) : List (String × ℚ) :=
  values.map fun v => if v.1 = valueId then (v.1, weight) else v

/-- The entries of a patch are laid over those that are there. -/
def mergeEntries (current patch : List (String × ℚ)) : List (String × ℚ) :=
  current.filter (fun e => e.1 ∉ patch.map Prod.fst) ++ patch

/-- The edge is inserted, or takes the place of the one between the same memories. -/
def upsertEdge (e : MemoryEdge) (edges : List MemoryEdge) : List MemoryEdge :=
  edges.filter (fun e' => ¬ (e'.source = e.source ∧ e'.target = e.target ∧ e'.relation = e.relation)) ++ [e]

/-- A field that is given replaces the current one. -/
def patched {φ : Type} [DecidableEq φ] (fields : List (φ × ℚ)) (current : φ → ℚ) : φ → ℚ := fun f =>
  ((fields.find? fun g => g.1 = f).map Prod.snd).getD (current f)

def patchedMaps (maps : List (CognitiveMap × List (String × ℚ))) (current : CognitiveMap → List (String × ℚ)) :
    CognitiveMap → List (String × ℚ) := fun f =>
  mergeEntries (current f) (((maps.find? fun g => g.1 = f).map Prod.snd).getD [])

/-- What compiling a payload makes of a core, unless it is refused. Templates and rules are not part of the core. -/
def CoreState.compilePayload (core : CoreState) : Payload → Option CoreState
  | .valueShift valueId _ suggestedWeight _ _ =>
    if valueId ∈ core.values.map Prod.fst then
      some { core with values := setWeight valueId suggestedWeight core.values }
    else none
  | .memoryEdge sourceId targetId relation strength =>
    if sourceId ∈ core.memories.map (·.id) ∧ targetId ∈ core.memories.map (·.id) then
      some { core with edges := upsertEdge ⟨sourceId, targetId, relation, strength⟩ core.edges }
    else none
  | .narrativePatch narrative => if narrative.trim = [] then none else some { core with narrative }
  | .decisionStylePatch fields => some { core with decisionStyle := patched fields core.decisionStyle }
  | .cognitiveModelPatch scalars maps =>
    some { core with
      cognitiveScalars := patched scalars core.cognitiveScalars
      cognitiveMaps := patchedMaps maps core.cognitiveMaps }
  | .responseTemplate .. | .rule .. => some core
  | .malformed .. => none

/-- `appendVersion`. -/
def appendVersion (personaId : String) (key : Text) (artifactId : String) (payload : Payload) (rows : List VersionedRow) :
    List VersionedRow :=
  let versions := (rows.filter fun r => r.personaId = personaId ∧ r.key = key).map (·.version)
  rows ++ [⟨personaId, key, versions.foldr max 0 + 1, artifactId, payload⟩]

namespace DistillDb

variable (db : DistillDb)

def leaseDb : LeaseDb := { db.leases with clock := db.now }

def setCore (personaId : String) (core : CoreState) : DistillDb :=
  { db with cores := Function.update db.cores personaId core }

/-- `ArtifactCompiler.compile`. -/
def compile (personaId : String) (a : DistilledArtifact) : Option DistillDb :=
  match a.payload with
  | .responseTemplate intent _ =>
    some { db with templates := appendVersion personaId intent a.id a.payload db.templates }
  | .rule ruleId _ _ _ => some { db with rules := appendVersion personaId ruleId a.id a.payload db.rules }
  | payload =>
    ((db.cores personaId).compilePayload payload).map fun core =>
      db.setCore personaId { core with applied := a.id :: core.applied }

def getById (personaId id : String) : Option DistilledArtifact :=
  ((db.artifacts.get? id).filter fun row => row.personaId = personaId).map (·.artifact)

def countAutoCompiledSince (personaId : String) (since : ℤ) : ℕ :=
  db.artifacts.rows.countP fun row =>
    row.personaId = personaId ∧ row.artifact.status = .compiled ∧ row.artifact.compiledVia = some .auto ∧
      ∃ at' ∈ row.artifact.compiledAt, since ≤ at'

end DistillDb

/-! ## Statements -/

inductive DistillCmd
  | insert (personaId : String) (a : DistilledArtifact)
  | setStatus (personaId id : String) (expectedStatus next : ArtifactStatus) (reason : Option StatusReason)
      (compiledAt : Option ℤ) (compiledVia : Option CompiledVia)
  | snapshot (personaId : String)
  | compile (personaId : String) (a : DistilledArtifact)
  | rollback (snapshotId : ℕ)
  | lease (cmd : LeaseCmd)

inductive DistillReply
  | done
  /-- Whether a row was changed, or the work was done. -/
  | hit (b : Bool)
  | snapshot (id : ℕ)
  | lease (r : LeaseReply)
  | threw (message : String)

inductive Fault
  | none | fails
  | throws (message : String)
  deriving DecidableEq, Repr

/-- What is left open about a step. -/
structure DistillEnv where
  elapsed : ℕ
  /-- The random identifier that is drawn, if one is. -/
  id : String
  fault : Fault

/-- `UPDATE distilled_artifacts SET …`: a reason and a way that are not given are left. -/
def ArtifactRow.withStatus (row : ArtifactRow) (next : ArtifactStatus) (reason : Option StatusReason)
    (compiledAt : Option ℤ) (compiledVia : Option CompiledVia) : ArtifactRow :=
  { row with artifact := { row.artifact with
      status := next, reason := reason.or row.artifact.reason, compiledAt,
      compiledVia := compiledVia.or row.artifact.compiledVia } }

namespace DistillDb

variable (db : DistillDb)

def setStatus (personaId id : String) (expectedStatus next : ArtifactStatus) (reason : Option StatusReason)
    (compiledAt : Option ℤ) (compiledVia : Option CompiledVia) : DistillDb × DistillReply :=
  match (db.artifacts.get? id).filter fun row => row.personaId = personaId ∧ row.artifact.status = expectedStatus with
  | some row => ({ db with artifacts := db.artifacts.set (row.withStatus next reason compiledAt compiledVia) }, .hit true)
  | none => (db, .hit false)

/-- `restoreFromSnapshot(…, { coreSelfOnly: true })`. -/
def rollback (snapshotId : ℕ) : DistillDb × DistillReply :=
  match db.snapshots[snapshotId]? with
  | some (personaId, core) => (db.setCore personaId core, .hit true)
  | none => (db, .hit false)

/-- A statement that is executed. -/
def apply : DistillCmd → DistillDb × DistillReply
  | .insert personaId a =>
    match db.artifacts.get? a.id with
    | some _ => (db, .threw "UNIQUE constraint failed")
    | none => ({ db with artifacts := db.artifacts.set ⟨personaId, a⟩ }, .done)
  | .setStatus personaId id expectedStatus next reason compiledAt compiledVia =>
    db.setStatus personaId id expectedStatus next reason compiledAt compiledVia
  | .snapshot personaId =>
    ({ db with snapshots := db.snapshots ++ [(personaId, db.cores personaId)] }, .snapshot db.snapshots.length)
  | .compile personaId a =>
    match db.compile personaId a with
    | some db' => (db', .hit true)
    | none => (db, .hit false)
  | .rollback snapshotId => db.rollback snapshotId
  | .lease cmd =>
    let (leases, r) := Lease.exec 0 cmd db.leaseDb
    ({ db with leases }, .lease r)

/-- The statements whose failure is a reply. -/
def Reports : DistillCmd → Prop
  | .compile .. | .rollback _ => True
  | _ => False

instance : DecidablePred Reports
  | .compile .. | .rollback _ => inferInstanceAs (Decidable True)
  | .insert .. | .setStatus .. | .snapshot _ | .lease _ => inferInstanceAs (Decidable False)

def exec (o : DistillEnv) (cmd : DistillCmd) (db : DistillDb) : DistillDb × DistillReply :=
  let db := { db with now := db.now + o.elapsed }
  match o.fault with
  | .none => db.apply cmd
  | .fails => if Reports cmd then (db, .hit false) else db.apply cmd
  -- what the compiler or the restoration throws is caught where it is reported
  | .throws message => if Reports cmd then (db, .hit false) else (db, .threw message)

end DistillDb

abbrev DistillProg := Prog DistillDb DistillCmd DistillReply DistillEnv String

/-- A statement that throws ends the call. -/
def send (cmd : DistillCmd) : DistillProg DistillReply := do
  match ← Prog.transaction cmd with
  | .threw message => .throw message
  | reply => return reply

/-- A statement, and whether it has changed a row or done its work. -/
def hits (cmd : DistillCmd) : DistillProg Bool := do
  match ← send cmd with
  | .hit b => return b
  | _ => return true

/-- A query, which may throw. -/
def fetch {α : Type} (f : DistillDb → α) : DistillProg α :=
  .read fun o db => match o.fault with
    | .throws message => .throw message
    | .none | .fails => .ret (f db)

/-- A call of the lease store; a statement of it that throws ends the call. -/
def leaseCall {α : Type} : Lease.LeaseProg α → DistillProg α
  | .ret a => .ret a
  | .throw e => .throw e
  | .read f => .read fun _ db => leaseCall (f 0 db.leaseDb)
  | .txn t k => .txn (.lease t) fun r => match r with
    | .lease r => leaseCall (k r)
    | .threw message => .throw message
    | _ => .throw ""

/-! ## The service -/

def COMPILE_LEASE_TTL_MS : ℚ := 60000

structure CandidateInput where
  source : ArtifactSource
  payload : Payload
  confidence : ℚ
  evidence : List ArtifactEvidence

/-- The candidate that is put down for an input. -/
def CandidateInput.artifact (input : CandidateInput) (id : String) (now : ℤ) : DistilledArtifact :=
  { input with id, status := .candidate, createdAt := now, reason := none, compiledAt := none, compiledVia := none }

inductive IngestResult
  | compiled (a : DistilledArtifact)
  | pending (a : DistilledArtifact)
  | rejected (reason : String) (problems : List String)
  deriving DecidableEq, Repr

inductive ReviewResult
  | ok (a : DistilledArtifact)
  | refused (reason : Text)
  deriving DecidableEq, Repr

/-- What compiling under the lease has come to. -/
inductive CompileResult
  | compiled (a : DistilledArtifact)
  | lease_busy | budget_exceeded
  /-- `undefined`. -/
  | failed
  deriving DecidableEq, Repr

def ArtifactStatus.name : ArtifactStatus → String
  | candidate => "candidate"
  | approved => "approved"
  | compiled => "compiled"
  | rejected => "rejected"
  | rolled_back => "rolled_back"

/-- What the service is constructed with. -/
structure DistillationDeps where
  tenantId : String
  policy : DistillationPolicy
  budgetResolver : String → Option ℤ

namespace DistillationDeps

variable (d : DistillationDeps) (personaId : String)

def budget : ℤ := (d.budgetResolver personaId).getD d.policy.unverifiedGrowthBudgetPerWindow

def compileScope : LeaseScope := ⟨d.tenantId, personaId, .compile⟩

def unverifiedGrowthBudgetExceeded : DistillProg Bool := do
  if d.budget personaId ≥ MAX_SAFE_INTEGER then return false
  else
    let now ← Prog.query DistillDb.now
    let count ← fetch fun db => db.countAutoCompiledSince personaId (now - d.policy.unverifiedGrowthWindowMs)
    return (count : ℤ) ≥ d.budget personaId

/-- The core is restored, if the lease has not been lost, and the artifact is marked. -/
def compensateAfterCompile (artifactId : String) (snapshotId : ℕ) (why : String) (handle : LeaseHandle) :
    DistillProg Unit := do
  let now ← Prog.query DistillDb.now
  match ← leaseCall (Lease.refresh d.tenantId handle now COMPILE_LEASE_TTL_MS) with
  | none => return ()
  | some _ =>
    if ← hits (.rollback snapshotId) then
      let _ ← (hits (.setStatus personaId artifactId .approved .rejected (some (.rolledBack why)) none none)).attempt
        (δ := String)
      return ()
    else
      let _ ← (hits (.setStatus personaId artifactId .approved .approved (some (.needsRepair why)) none none)).attempt
        (δ := String)
      return ()

/-- The artifact is approved by now, unless the call that goes on is none. -/
def advanceCandidate (a : DistilledArtifact) : DistillProg (Option DistilledArtifact) := do
  if a.status = .candidate then
    if ← hits (.setStatus personaId a.id .candidate .approved (some .autoApproved) none none) then
      return some { a with status := .approved }
    else return none
  else return some a

def compileSnapshotted (approved : DistilledArtifact) (via : CompiledVia) (handle : LeaseHandle) :
    DistillProg CompileResult := do
  match ← send (.snapshot personaId) with
  | .snapshot snapshotId =>
    if ← hits (.compile personaId approved) then
      let compiledAt ← Prog.query DistillDb.now
      match ← (hits (.setStatus personaId approved.id .approved .compiled (some (.compiled approved.kind.name))
          (some compiledAt) (some via))).attempt with
      | .ok true => return .compiled { approved with status := .compiled, compiledAt := some compiledAt }
      | .ok false =>
        d.compensateAfterCompile personaId approved.id snapshotId "status advance not applied (concurrent change)" handle
        return .failed
      | .error message =>
        d.compensateAfterCompile personaId approved.id snapshotId ("status advance threw: " ++ message) handle
        return .failed
    else
      d.compensateAfterCompile personaId approved.id snapshotId "compile failed" handle
      return .failed
  | _ => return .failed

def compileApprovedLocked (a : DistilledArtifact) (via : CompiledVia) (checkBudget : Bool) (handle : LeaseHandle) :
    DistillProg CompileResult := do
  let exceeded ← if checkBudget then d.unverifiedGrowthBudgetExceeded personaId else pure false
  if exceeded then return .budget_exceeded
  else
    match ← advanceCandidate personaId a with
    | none => return .failed
    | some approved => d.compileSnapshotted personaId approved via handle

/-- The lease is released however the work ends. -/
def compileApproved (a : DistilledArtifact) (via : CompiledVia) (checkBudget : Bool) : DistillProg CompileResult := do
  let now ← Prog.query DistillDb.now
  match ← leaseCall (Lease.acquire (d.compileScope personaId) now COMPILE_LEASE_TTL_MS) with
  | none => return .lease_busy
  | some handle =>
    let result ← (d.compileApprovedLocked personaId a via checkBudget handle).attempt
    let _ ← leaseCall (Lease.release handle)
    match result with
    | .ok r => return r
    | .error e => .throw e

def finishCompile : CompileResult → ReviewResult
  | .budget_exceeded => .refused <| units "compile skipped: uncertainty budget exceeded"
  | .lease_busy => .refused <| units "compile lease busy; artifact left approved for retry"
  | .compiled a => .ok a
  | .failed => .refused <| units "compile failed and rolled back"

/-- `artifact.reason?.startsWith(NEEDS_REPAIR_REASON_PREFIX)`. -/
def needsRepair : Option StatusReason → Bool
  | some (.needsRepair _) => true
  | some (.given text) => units NEEDS_REPAIR_REASON_PREFIX <+: text
  | _ => false

def invalid (a : DistilledArtifact) : ReviewResult :=
  .refused <| units ("invalid artifact: " ++ "; ".intercalate (validateArtifact a))

def approve (artifactId : String) : DistillProg ReviewResult := do
  match ← fetch fun db => db.getById personaId artifactId with
  | none => return .refused <| units "artifact not found"
  | some a =>
    if a.status = .approved then
      if needsRepair a.reason then
        return .refused <| units
          "artifact needs repair (prior compensation rollback failed); manual repair required before recompile: " ++
            (a.reason.map StatusReason.text).getD []
      else if validateArtifact a ≠ [] then return invalid a
      else return finishCompile (← d.compileApproved personaId a .approved false)
    else if a.status ≠ .candidate then return .refused <| units ("cannot approve from status " ++ a.status.name)
    else if validateArtifact a ≠ [] then return invalid a
    else if ← hits (.setStatus personaId artifactId .candidate .approved (some .manuallyApproved) none none) then
      return finishCompile (← d.compileApproved personaId { a with status := .approved } .approved false)
    else return .refused <| units "status changed concurrently"

def reject (artifactId : String) (reason : Text) : DistillProg ReviewResult := do
  match ← fetch fun db => db.getById personaId artifactId with
  | none => return .refused <| units "artifact not found"
  | some a =>
    if ¬ canTransition a.status .rejected then return .refused <| units ("cannot reject from status " ++ a.status.name)
    else if ← hits (.setStatus personaId artifactId a.status .rejected (some (.given reason)) none none) then
      return .ok { a with status := .rejected }
    else return .refused <| units "status changed concurrently"

def ingest (input : CandidateInput) : DistillProg IngestResult := do
  let id ← Prog.queryAny fun (o : DistillEnv) _ => o.id
  let now ← Prog.query DistillDb.now
  let a := input.artifact id now
  if validateArtifact a ≠ [] then return .rejected "validation failed" (validateArtifact a)
  else
    let _ ← send (.insert personaId a)
    if canAutoCompile a d.policy then
      if ← d.unverifiedGrowthBudgetExceeded personaId then return .pending a
      else
        match ← d.compileApproved personaId a .auto true with
        | .lease_busy | .budget_exceeded => return .pending a
        | .compiled compiled => return .compiled compiled
        | .failed => return .rejected "auto-compile failed and rolled back" []
    else return .pending a

end DistillationDeps

end ChronoSynth.Learning

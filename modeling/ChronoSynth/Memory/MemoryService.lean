import Mathlib.Algebra.Order.Floor.Defs
import Mathlib.Data.List.Sort
import ChronoSynth.Lib.Shuffle
import ChronoSynth.Memory.MemoryTables

/-!
# The memory service

What the cognitive memory graph of a persona does, over the commands of its tables. The exponential, the
logarithm and the encryption of contents are parameters (`MemoryPorts`). The operations that consist of
several commands are transactions, except the two deletions (`MemOp.Transactional`).

Numbers that may be missing or not finite in a snapshot are `none` (`MemoryInput`).
-/

namespace ChronoSynth.Memory

variable {K : Type}

structure MemoryPorts (K : Type) where
  exp : K → K
  log : K → K
  encrypt : String → String
  decrypt : String → String

structure MemoryCognitionConfig (K : Type) where
  baseLambda : K
  valenceWeight : K
  accessBoost : K
  kindFactors : MemoryKind → Option K
  baseActivation : K
  damping : K
  maxDepth : ℕ
  capacity : ℕ
  recencyDecay : K
  accessThreshold : K
  minSalience : K
  salienceFloor : K
  maxMemoryNodes : ℤ
  capacityTargetRatio : K
  deleteConsolidatedSources : Bool
  batchSize : ℕ

def DEFAULT_COGNITION_CONFIG [Field K] : MemoryCognitionConfig K where
  baseLambda := 1 / 10000
  valenceWeight := 3 / 10
  accessBoost := 1 / 2
  kindFactors
    | .episodic => some 1
    | .semantic => some (1 / 2)
    | .procedural => some (3 / 10)
  baseActivation := 1 / 10
  damping := 1 / 2
  maxDepth := 2
  capacity := 7
  recencyDecay := 1 / 10000
  accessThreshold := 5
  minSalience := 3 / 10
  salienceFloor := 1 / 100
  maxMemoryNodes := 10000
  capacityTargetRatio := 9 / 10
  deleteConsolidatedSources := true
  batchSize := 1000

structure MemoryInput (K : Type) where
  id : String
  kind : MemoryKind
  content : String
  valence : K
  salience : K
  createdAt : K
  lastAccessedAt : Option K
  accessCount : Option K
  decayLambda : Option K
  lastDecayedAt : Option K
  consolidatedFrom : Option String

inductive EvictionReason
  | salience_floor | capacity_overflow
  deriving DecidableEq, Repr

structure EvictionResult (K : Type) where
  memoryId : String
  reason : EvictionReason
  salience : K

structure DecayResult (K : Type) where
  memoryId : String
  oldSalience : K
  newSalience : K

structure ActivationResult (K : Type) where
  memoryId : String
  delta : K
  path : List String

structure ConsolidationResult where
  originalId : String
  consolidatedId : String
  newKind : MemoryKind
  deriving DecidableEq, Repr

variable [Field K] [LinearOrder K]

/-! ## Dynamics -/

def computeLambda (config : MemoryCognitionConfig K) (kind : MemoryKind) (valence accessCount : K) : K :=
  let raw := config.baseLambda * (1 - config.valenceWeight * |valence|) *
    (config.kindFactors kind).getD 1 / (1 + config.accessBoost * accessCount)
  if 0 < raw then raw else 0

def computeWorkingMemoryScore (ports : MemoryPorts K) (config : MemoryCognitionConfig K)
    (mem : MemoryRow K) (now : K) : K :=
  mem.salience * ports.exp (-config.recencyDecay * (now - mem.lastAccessedAt)) *
    (1 + ports.log (1 + mem.accessCount))

def applyDecay (ports : MemoryPorts K) (salience lambda dt : K) : K :=
  if dt ≤ 0 ∨ lambda ≤ 0 then salience
  else
    let result := salience * ports.exp (-lambda * dt)
    if result < 0 then 0 else result

/-! ## Queries -/

abbrev MemProg (K : Type) [Field K] [LinearOrder K] :=
  Prog (MemoryDb K) (MemCmd K) MemReply (Env K) String

def now : MemProg K K := Prog.queryAny fun e _ => e.now

def uuid : MemProg K String := Prog.queryAny fun e _ => e.uuid

/-- A command; one that violates a constraint is an error of the caller. -/
def execute (cmd : MemCmd K) : MemProg K ℕ := do
  match ← Prog.transaction cmd with
  | some rowsAffected => return rowsAffected
  | none => .throw "constraint failed"

def memById (id personaId : String) : MemProg K (Option (MemoryRow K)) :=
  Prog.query fun db => db.byId id personaId

def memAll (personaId : String) : MemProg K (List (MemoryRow K)) :=
  Prog.queryAny fun e db => shuffle e.tie (db.nodesOf personaId)

def memBatch (ids : List String) (personaId : String) : MemProg K (List (MemoryRow K)) :=
  Prog.query fun db => (db.nodesOf personaId).filter fun row => row.id ∈ ids

def memCount (personaId : String) : MemProg K ℕ := Prog.query fun db => (db.nodesOf personaId).length

def memConsolidationCandidates (personaId : String) (accessThreshold minSalience : K) :
    MemProg K (List String) :=
  Prog.queryAny fun e db =>
    let candidates := (db.nodesOf personaId).filter fun row =>
      row.kind = .episodic ∧ accessThreshold ≤ row.accessCount ∧ minSalience ≤ row.salience ∧
        row.consolidatedFrom = none ∧
        ¬ ∃ other ∈ db.nodes, other.consolidatedFrom = some row.id ∧ other.personaId = personaId
    (shuffle e.tie candidates).map fun row => row.id

def memConsolidatedFrom (id personaId : String) : MemProg K (Option String) :=
  Prog.queryAny fun e db =>
    let found := (db.nodesOf personaId).filter fun row => row.consolidatedFrom = some id
    (Table.pick e.tie found).map fun row => row.id

/-- `ORDER BY salience ASC, last_accessed_at ASC LIMIT limit`. -/
def memLowestSalience (limit : ℕ) (personaId : String) : MemProg K (List (MemoryRow K)) :=
  Prog.queryAny fun e db =>
    ((shuffle e.tie (db.nodesOf personaId)).insertionSort fun a b =>
      a.salience < b.salience ∨ a.salience = b.salience ∧ a.lastAccessedAt ≤ b.lastAccessedAt).take limit

def memEdgesForNode (id personaId : String) : MemProg K (List (EdgeRow K)) :=
  Prog.queryAny fun e db =>
    shuffle e.tie ((db.edgesOf personaId).filter fun edge => edge.source = id ∨ edge.target = id)

def memWmSlots (personaId : String) : MemProg K (List (WorkingMemorySlot K)) :=
  Prog.queryAny fun e db => (shuffle e.tie (db.slotsOf personaId)).insertionSort fun a b => b.score ≤ a.score

def memWmById (memoryId personaId : String) : MemProg K (Option (WorkingMemorySlot K)) :=
  Prog.query fun db => (db.slotsOf personaId).find? fun slot => slot.memoryId = memoryId

def memWmCount (personaId : String) : MemProg K ℕ := Prog.query fun db => (db.slotsOf personaId).length

/-- `ORDER BY score ASC LIMIT 1`. -/
def memWmLowest (personaId : String) : MemProg K (Option (WorkingMemorySlot K)) :=
  Prog.queryAny fun e db =>
    let slots := db.slotsOf personaId
    Table.pick e.tie (slots.filter fun slot => ∀ other ∈ slots, slot.score ≤ other.score)

def memWmAllRaw (personaId : String) : MemProg K (List (WorkingMemorySlot K)) :=
  Prog.queryAny fun e db => shuffle e.tie (db.slotsOf personaId)

/-! ## Operations -/

variable (ports : MemoryPorts K) (config : MemoryCognitionConfig K) (personaId : String)

def assertValence (valence : K) : MemProg K Unit :=
  if valence < -1 ∨ 1 < valence then .throw "情感色调必须在 -1 到 1 之间" else return

def assertSalience (salience : K) : MemProg K Unit :=
  if salience < 0 ∨ 1 < salience then .throw "重要性必须在 0-1 之间" else return

def assertStrength (strength : K) : MemProg K Unit :=
  if strength < 0 ∨ 1 < strength then .throw "关联强度必须在 0-1 之间" else return

def addMemory (kind : MemoryKind) (content : String) (valence salience : K) :
    MemProg K (MemoryNode K) := do
  assertValence valence
  assertSalience salience
  let id ← uuid
  let now ← now
  let node : MemoryNode K := {
    id, kind, content := ports.encrypt content, valence, salience, createdAt := now, lastAccessedAt := now,
    accessCount := 0, decayLambda := computeLambda config kind valence 0, lastDecayedAt := now,
    consolidatedFrom := none }
  let _ ← execute (.insert { node with personaId })
  return { node with content }

def accessMemory (id : String) : MemProg K (Option (MemoryNode K)) := do
  match ← memById id personaId with
  | none => return none
  | some node =>
    let now ← now
    let salience := applyDecay ports node.salience node.decayLambda (now - node.lastDecayedAt)
    let accessCount := node.accessCount + 1
    let decayLambda := computeLambda config node.kind node.valence accessCount
    let _ ← execute (.updateAccess id personaId salience now accessCount decayLambda now)
    return some { node.toMemoryNode with
      content := ports.decrypt node.content, salience, lastAccessedAt := now, accessCount, decayLambda,
      lastDecayedAt := now }

def addEdge (source target relation : String) (strength : K) : MemProg K (MemoryEdge K) := do
  assertStrength strength
  let edge : MemoryEdge K := ⟨source, target, strength, relation⟩
  let _ ← execute (.edgeUpsert { edge with personaId })
  return edge

def deleteMemoryInternal (id : String) : MemProg K ℕ := do
  let _ ← execute (.edgeDeleteForNode id personaId)
  let _ ← execute (.wmDelete id personaId)
  execute (.delete id personaId)

def deleteMemory (id : String) : MemProg K Bool := do
  let rowsAffected ← deleteMemoryInternal personaId id
  return rowsAffected > 0

def deleteAllMemories : MemProg K Unit := do
  let _ ← execute (.wmDeleteAll personaId)
  let _ ← execute (.edgeDeleteAll personaId)
  let _ ← execute (.deleteAll personaId)

/-- The row that `insertMemory` writes. -/
def MemoryInput.toRow (mem : MemoryInput K) : MemoryRow K :=
  let accessCount := mem.accessCount.getD 0
  let lastAccessedAt := mem.lastAccessedAt.getD mem.createdAt
  { id := mem.id, kind := mem.kind, content := ports.encrypt mem.content, valence := mem.valence,
    salience := mem.salience, createdAt := mem.createdAt, lastAccessedAt, accessCount,
    decayLambda :=
      match mem.decayLambda with
      | some lambda =>
        if 0 < lambda then lambda else computeLambda config mem.kind mem.valence accessCount
      | none => computeLambda config mem.kind mem.valence accessCount
    lastDecayedAt := mem.lastDecayedAt.getD lastAccessedAt, consolidatedFrom := mem.consolidatedFrom,
    personaId }

def insertMemory (mem : MemoryInput K) : MemProg K Unit := do
  let _ ← execute (.upsert (mem.toRow ports config personaId))

/-- The loop of `decayAll`. -/
def decayNodes (now : K) :
    List (MemoryRow K) → MemProg K (List (DecayResult K) × List (EvictionResult K))
  | [] => return ([], [])
  | node :: nodes => do
    let dt := now - node.lastDecayedAt
    let newSalience := applyDecay ports node.salience node.decayLambda dt
    if dt ≤ 0 ∨ node.decayLambda ≤ 0 ∨ |node.salience - newSalience| < 1 / 10 ^ 6 then
      decayNodes now nodes
    else if 0 < config.salienceFloor ∧ newSalience < config.salienceFloor then
      let _ ← deleteMemoryInternal personaId node.id
      let (decayed, evicted) ← decayNodes now nodes
      return (decayed, ⟨node.id, .salience_floor, newSalience⟩ :: evicted)
    else
      let _ ← execute (.updateSalience node.id personaId newSalience now)
      let (decayed, evicted) ← decayNodes now nodes
      return (⟨node.id, node.salience, newSalience⟩ :: decayed, evicted)

def decayAll : MemProg K (List (DecayResult K) × List (EvictionResult K)) := do
  let now ← now
  let nodes ← memAll personaId
  decayNodes ports config personaId now nodes

/-! ### Activation -/

structure Frontier (K : Type) where
  id : String
  cumulativeStrength : K
  path : List String

/-- The variables of `spreadActivation`. -/
structure Spread (K : Type) where
  visited : List String
  results : List (ActivationResult K)
  nextFrontier : List (Frontier K)

/-- The loop over the edges of a node. -/
def spreadEdges (depth : ℕ) (current : Frontier K) :
    List (EdgeRow K) → Spread K → MemProg K (Spread K)
  | [], state => return state
  | edge :: edges, state => do
    let neighborId := if edge.source = current.id then edge.target else edge.source
    if neighborId ∈ state.visited then spreadEdges depth current edges state
    else
      let state := { state with visited := state.visited ++ [neighborId] }
      let pathStrength := current.cumulativeStrength * edge.strength
      let delta := config.baseActivation * pathStrength * ports.exp (-config.damping * depth)
      if delta < 1 / 10 ^ 6 then spreadEdges depth current edges state
      else
        let path := current.path ++ [neighborId]
        let _ ← execute (.updateSalienceDelta neighborId personaId delta)
        spreadEdges depth current edges
          { state with
            results := state.results ++ [⟨neighborId, delta, path⟩]
            nextFrontier := state.nextFrontier ++ [⟨neighborId, pathStrength, path⟩] }

/-- The loop over the nodes at one depth. -/
def spreadFrontier (depth : ℕ) : List (Frontier K) → Spread K → MemProg K (Spread K)
  | [], state => return state
  | current :: frontier, state => do
    let edges ← memEdgesForNode current.id personaId
    let state ← spreadEdges ports config personaId depth current edges state
    spreadFrontier depth frontier state

/-- The loop over the depths, of which `rounds` are left. -/
def spreadDepths : ℕ → ℕ → Spread K → MemProg K (Spread K)
  | 0, _, state => return state
  | rounds + 1, depth, state => do
    let state ← spreadFrontier ports config personaId depth state.nextFrontier
      { state with nextFrontier := [] }
    spreadDepths rounds (depth + 1) state

def spreadActivation (sourceId : String) : MemProg K (List (ActivationResult K)) := do
  let state ← spreadDepths ports config personaId config.maxDepth 1
    ⟨[sourceId], [], [⟨sourceId, 1, [sourceId]⟩]⟩
  return state.results

/-! ### Working memory -/

def admitToWorkingMemory (memoryId : String) : MemProg K (Bool × Option String) := do
  match ← memById memoryId personaId with
  | none => return (false, none)
  | some mem =>
    let score := computeWorkingMemoryScore ports config mem (← now)
    match ← memWmById memoryId personaId with
    | some _ =>
      let _ ← execute (.wmUpdateScore memoryId score personaId)
      return (true, none)
    | none =>
      let count ← memWmCount personaId
      if count < config.capacity then
        let _ ← execute (.wmInsert personaId memoryId score (← now))
        return (true, none)
      else
        match ← memWmLowest personaId with
        | none => return (false, none)
        | some lowest =>
          if lowest.score < score then
            let _ ← execute (.wmDelete lowest.memoryId personaId)
            let _ ← execute (.wmInsert personaId memoryId score (← now))
            return (true, some lowest.memoryId)
          else return (false, none)

/-- The loop of `refreshWorkingMemory`. -/
def refreshSlots (memories : List (MemoryRow K)) : List (WorkingMemorySlot K) → MemProg K Unit
  | [] => return
  | slot :: slots => do
    match memories.find? fun mem => mem.id = slot.memoryId with
    | none =>
      let _ ← execute (.wmDelete slot.memoryId personaId)
      refreshSlots memories slots
    | some mem =>
      let newScore := computeWorkingMemoryScore ports config mem (← now)
      let _ ← execute (.wmUpdateScore slot.memoryId newScore personaId)
      refreshSlots memories slots

def refreshWorkingMemory : MemProg K (List (WorkingMemorySlot K)) := do
  let slots ← memWmAllRaw personaId
  let memories ← memBatch (slots.map fun slot => slot.memoryId) personaId
  refreshSlots ports config personaId memories slots
  memWmSlots personaId

def removeFromWorkingMemory (memoryId : String) : MemProg K Bool := do
  let rowsAffected ← execute (.wmDelete memoryId personaId)
  return rowsAffected > 0

/-! ### Consolidation -/

def EdgeRow.moved (memoryId newId : String) (edge : EdgeRow K) : EdgeRow K :=
  { edge with
    source := if edge.source = memoryId then newId else edge.source
    target := if edge.target = memoryId then newId else edge.target }

/-- The loop over the edges of the consolidated memory. -/
def moveEdges (memoryId newId : String) : List (EdgeRow K) → MemProg K Unit
  | [] => return
  | edge :: edges => do
    let _ ← execute (.edgeUpsert { edge.moved memoryId newId with personaId })
    moveEdges memoryId newId edges

def MemoryRow.consolidated (node : MemoryRow K) (newId : String) (now : K) : MemoryRow K :=
  { id := newId, kind := .semantic, content := node.content, valence := node.valence,
    salience := min 1 (node.salience * (12 / 10)), createdAt := now, lastAccessedAt := now,
    accessCount := 0, decayLambda := computeLambda config .semantic node.valence 0, lastDecayedAt := now,
    consolidatedFrom := some node.id, personaId }

def consolidateMemory (memoryId : String) : MemProg K (Option ConsolidationResult) := do
  match ← memById memoryId personaId with
  | none => return none
  | some node =>
    if node.kind ≠ .episodic then return none
    else
      match ← memConsolidatedFrom memoryId personaId with
      | some _ => return none
      | none =>
        let now ← now
        let newId ← uuid
        let _ ← execute (.insert (node.consolidated config personaId newId now))
        let edges ← memEdgesForNode memoryId personaId
        moveEdges personaId memoryId newId edges
        if config.deleteConsolidatedSources then
          let _ ← deleteMemoryInternal personaId memoryId
        return some ⟨memoryId, newId, .semantic⟩

/-- The loop of `consolidateAll`. -/
def consolidateEach : List String → MemProg K (List ConsolidationResult)
  | [] => return []
  | id :: ids => do
    let result ← consolidateMemory config personaId id
    let results ← consolidateEach ids
    return result.toList ++ results

def consolidateAll : MemProg K (List ConsolidationResult) := do
  let candidates ← memConsolidationCandidates personaId config.accessThreshold config.minSalience
  consolidateEach config personaId candidates

/-! ### Eviction -/

/-- The loop over the rows of one batch. -/
def evictRows : List (MemoryRow K) → MemProg K (List (EvictionResult K))
  | [] => return []
  | row :: rows => do
    let _ ← deleteMemoryInternal personaId row.id
    let evicted ← evictRows rows
    return ⟨row.id, .capacity_overflow, row.salience⟩ :: evicted

/-- The loop over the batches. Each evicts at least one memory, so as many rounds are enough as there are
to evict. -/
def evictRounds : ℕ → ℤ → MemProg K (List (EvictionResult K))
  | 0, _ => return []
  | rounds + 1, toEvict => do
    if toEvict ≤ 0 then return []
    else
      let rows ← memLowestSalience (min toEvict.toNat config.batchSize) personaId
      if rows.length = 0 then return []
      else
        let evicted ← evictRows personaId rows
        let rest ← evictRounds rounds (toEvict - rows.length)
        return evicted ++ rest

def evictExcess [FloorRing K] : MemProg K (List (EvictionResult K)) := do
  if config.maxMemoryNodes < 0 then return []
  else
    let count ← memCount personaId
    if count ≤ config.maxMemoryNodes then return []
    else
      let toEvict := count - ⌊(config.maxMemoryNodes : K) * config.capacityTargetRatio⌋
      evictRounds config personaId toEvict.toNat toEvict

/-! ## The graph -/

inductive MemOp (K : Type)
  | addMemory (kind : MemoryKind) (content : String) (valence salience : K)
  | accessMemory (id : String)
  | insertMemory (mem : MemoryInput K)
  | addEdge (source target relation : String) (strength : K)
  | decayAll
  | spreadActivation (sourceId : String)
  | admitToWorkingMemory (memoryId : String)
  | refreshWorkingMemory
  | removeFromWorkingMemory (memoryId : String)
  | consolidateMemory (memoryId : String)
  | consolidateAll
  | evictExcess
  | deleteMemory (id : String)
  | deleteAllMemories

/-- The operations that the graph runs in a transaction. -/
def MemOp.Transactional : MemOp K → Bool
  | .decayAll | .spreadActivation _ | .admitToWorkingMemory _ | .refreshWorkingMemory
  | .consolidateMemory _ | .consolidateAll | .evictExcess => true
  | _ => false

/-- An operation of the graph of a persona, with the oracles for its steps. -/
structure MemCall (K : Type) where
  personaId : String
  op : MemOp K
  oracle : ℕ → Env K

def MemCall.body [FloorRing K] (call : MemCall K) : MemProg K Unit :=
  match call.op with
  | .addMemory kind content valence salience => do
    let _ ← addMemory ports config call.personaId kind content valence salience
  | .accessMemory id => do let _ ← accessMemory ports config call.personaId id
  | .insertMemory mem => insertMemory ports config call.personaId mem
  | .addEdge source target relation strength => do
    let _ ← addEdge call.personaId source target relation strength
  | .decayAll => do let _ ← decayAll ports config call.personaId
  | .spreadActivation sourceId => do let _ ← spreadActivation ports config call.personaId sourceId
  | .admitToWorkingMemory memoryId => do
    let _ ← admitToWorkingMemory ports config call.personaId memoryId
  | .refreshWorkingMemory => do let _ ← refreshWorkingMemory ports config call.personaId
  | .removeFromWorkingMemory memoryId => do let _ ← removeFromWorkingMemory call.personaId memoryId
  | .consolidateMemory memoryId => do let _ ← consolidateMemory config call.personaId memoryId
  | .consolidateAll => do let _ ← consolidateAll config call.personaId
  | .evictExcess => do let _ ← evictExcess config call.personaId
  | .deleteMemory id => do let _ ← deleteMemory call.personaId id
  | .deleteAllMemories => deleteAllMemories call.personaId

/-- One call after another; a transaction that fails is undone. -/
def MemoryDb.step [FloorRing K] (db : MemoryDb K) (call : MemCall K) : MemoryDb K :=
  let (db', result) := (call.body ports config).solo exec call.oracle db
  match result with
  | .ok _ => db'
  | .error _ => if call.op.Transactional then db else db'

end ChronoSynth.Memory

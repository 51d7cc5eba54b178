import Mathlib.Algebra.Order.Field.Basic
import ChronoSynth.Lib.Solo
import ChronoSynth.Lib.Table

/-!
# The memory tables

`memory_nodes`, `memory_edges` and `working_memory` with the constraints of their schema, and the commands
on them. Numbers are those of an ordered field `K`, so arithmetic is exact.

* The constraints are part of the type of a database (`MemoryDb`): a command whose result would violate one
  fails and changes nothing.
* A slot of the working memory has no persona of its own; it belongs to the one its memory belongs to.
* Deleting a memory deletes its slot (`ON DELETE CASCADE`), sets `consolidated_from` to null in what was
  consolidated from it (`ON DELETE SET NULL`), and fails while an edge ends in it.
-/

namespace ChronoSynth.Memory

inductive MemoryKind
  | episodic | semantic | procedural
  deriving DecidableEq, Repr

structure MemoryNode (K : Type) where
  id : String
  kind : MemoryKind
  content : String
  valence : K
  salience : K
  createdAt : K
  lastAccessedAt : K
  accessCount : K
  decayLambda : K
  lastDecayedAt : K
  consolidatedFrom : Option String
  deriving DecidableEq

structure MemoryRow (K : Type) extends MemoryNode K where
  personaId : String
  deriving DecidableEq

structure MemoryEdge (K : Type) where
  source : String
  target : String
  strength : K
  relation : String
  deriving DecidableEq

structure EdgeRow (K : Type) extends MemoryEdge K where
  personaId : String
  deriving DecidableEq

structure WorkingMemorySlot (K : Type) where
  memoryId : String
  score : K
  enteredAt : K
  deriving DecidableEq

structure MemoryTables (K : Type) where
  nodes : List (MemoryRow K)
  edges : List (EdgeRow K)
  slots : List (WorkingMemorySlot K)
  deriving DecidableEq

variable {K : Type} [Field K] [LinearOrder K]

/-! ## Constraints -/

/-- Primary keys, checks and references. -/
structure Constraints (t : MemoryTables K) : Prop where
  node_key : (t.nodes.map fun row => row.id).Nodup
  valence : ∀ row ∈ t.nodes, -1 ≤ row.valence ∧ row.valence ≤ 1
  salience : ∀ row ∈ t.nodes, 0 ≤ row.salience ∧ row.salience ≤ 1
  consolidatedFrom : ∀ row ∈ t.nodes, ∀ source, row.consolidatedFrom = some source →
    source ∈ t.nodes.map fun row => row.id
  edge_key : (t.edges.map fun edge => (edge.source, edge.target)).Nodup
  strength : ∀ edge ∈ t.edges, 0 ≤ edge.strength ∧ edge.strength ≤ 1
  ends : ∀ edge ∈ t.edges,
    (edge.source ∈ t.nodes.map fun row => row.id) ∧ edge.target ∈ t.nodes.map fun row => row.id
  slot_key : (t.slots.map fun slot => slot.memoryId).Nodup
  memory : ∀ slot ∈ t.slots, slot.memoryId ∈ t.nodes.map fun row => row.id

instance (t : MemoryTables K) : Decidable (Constraints t) :=
  decidable_of_iff
    ((t.nodes.map fun row => row.id).Nodup ∧
      (∀ row ∈ t.nodes, -1 ≤ row.valence ∧ row.valence ≤ 1) ∧
      (∀ row ∈ t.nodes, 0 ≤ row.salience ∧ row.salience ≤ 1) ∧
      (∀ row ∈ t.nodes, ∀ source, row.consolidatedFrom = some source →
        source ∈ t.nodes.map fun row => row.id) ∧
      (t.edges.map fun edge => (edge.source, edge.target)).Nodup ∧
      (∀ edge ∈ t.edges, 0 ≤ edge.strength ∧ edge.strength ≤ 1) ∧
      (∀ edge ∈ t.edges,
        (edge.source ∈ t.nodes.map fun row => row.id) ∧ edge.target ∈ t.nodes.map fun row => row.id) ∧
      (t.slots.map fun slot => slot.memoryId).Nodup ∧
      ∀ slot ∈ t.slots, slot.memoryId ∈ t.nodes.map fun row => row.id)
    ⟨fun ⟨h₁, h₂, h₃, h₄, h₅, h₆, h₇, h₈, h₉⟩ => ⟨h₁, h₂, h₃, h₄, h₅, h₆, h₇, h₈, h₉⟩,
      fun ⟨h₁, h₂, h₃, h₄, h₅, h₆, h₇, h₈, h₉⟩ => ⟨h₁, h₂, h₃, h₄, h₅, h₆, h₇, h₈, h₉⟩⟩

/-- Tables that satisfy the constraints. -/
structure MemoryDb (K : Type) [Field K] [LinearOrder K] extends
    MemoryTables K where
  sound : Constraints toMemoryTables

def MemoryDb.empty : MemoryDb K := ⟨⟨[], [], []⟩, by constructor <;> simp⟩

/-! ## Commands -/

inductive MemCmd (K : Type)
  | insert (row : MemoryRow K)
  | upsert (row : MemoryRow K)
  | updateAccess (id personaId : String) (salience lastAccessedAt accessCount decayLambda lastDecayedAt : K)
  | updateSalience (id personaId : String) (salience lastDecayedAt : K)
  | updateSalienceDelta (id personaId : String) (delta : K)
  | delete (id personaId : String)
  | deleteAll (personaId : String)
  | edgeUpsert (edge : EdgeRow K)
  | edgeDeleteForNode (id personaId : String)
  | edgeDeleteAll (personaId : String)
  | wmInsert (personaId memoryId : String) (score enteredAt : K)
  | wmUpdateScore (memoryId : String) (score : K) (personaId : String)
  | wmDelete (memoryId personaId : String)
  | wmDeleteAll (personaId : String)

namespace MemoryTables

variable (t : MemoryTables K)

/-- A memory with the identifier belongs to the persona. -/
def Owns (personaId id : String) : Prop := ∃ row ∈ t.nodes, row.id = id ∧ row.personaId = personaId

instance (personaId id : String) : Decidable (t.Owns personaId id) :=
  inferInstanceAs (Decidable (∃ row ∈ t.nodes, _))

def nodesOf (personaId : String) : List (MemoryRow K) :=
  t.nodes.filter fun row => row.personaId = personaId

def edgesOf (personaId : String) : List (EdgeRow K) :=
  t.edges.filter fun edge => edge.personaId = personaId

def slotsOf (personaId : String) : List (WorkingMemorySlot K) :=
  t.slots.filter fun slot => t.Owns personaId slot.memoryId

def byId (id personaId : String) : Option (MemoryRow K) :=
  t.nodes.find? fun row => row.id = id ∧ row.personaId = personaId

/-! What the commands do to the tables. -/

def updateNodes (p : MemoryRow K → Prop) [DecidablePred p] (g : MemoryRow K → MemoryRow K) :
    MemoryTables K :=
  { t with nodes := Table.update p g t.nodes }

def addNode (row : MemoryRow K) : MemoryTables K := { t with nodes := t.nodes ++ [row] }

/-- The memories are deleted, with their slots; what was consolidated from them stays. -/
def dropNodes (p : MemoryRow K → Prop) [DecidablePred p] : MemoryTables K :=
  let dropped := (t.nodes.filter fun row => p row).map fun row => row.id
  { t with
    nodes := Table.update (fun row => ∃ source ∈ row.consolidatedFrom, source ∈ dropped)
      (fun row => { row with consolidatedFrom := none }) (t.nodes.filter fun row => ¬ p row)
    slots := t.slots.filter fun slot => slot.memoryId ∉ dropped }

def putEdge (edge : EdgeRow K) : MemoryTables K :=
  if ∃ e ∈ t.edges, e.source = edge.source ∧ e.target = edge.target then
    { t with
      edges := Table.update (fun e => e.source = edge.source ∧ e.target = edge.target) (fun _ => edge)
        t.edges }
  else { t with edges := t.edges ++ [edge] }

def dropEdges (p : EdgeRow K → Prop) [DecidablePred p] : MemoryTables K :=
  { t with edges := t.edges.filter fun edge => ¬ p edge }

def updateSlots (p : WorkingMemorySlot K → Prop) [DecidablePred p]
    (g : WorkingMemorySlot K → WorkingMemorySlot K) : MemoryTables K :=
  { t with slots := Table.update p g t.slots }

def dropSlots (p : WorkingMemorySlot K → Prop) [DecidablePred p] : MemoryTables K :=
  { t with slots := t.slots.filter fun slot => ¬ p slot }

end MemoryTables

/-- The tables after a command, and how many rows it affects, if no constraint is violated. -/
def MemCmd.effect (t : MemoryTables K) : MemCmd K → MemoryTables K × ℕ
  | .insert row => (t.addNode row, 1)
  | .upsert row =>
    if ∃ old ∈ t.nodes, old.id = row.id then (t.updateNodes (fun old => old.id = row.id) fun _ => row, 1)
    else (t.addNode row, 1)
  | .updateAccess id personaId salience lastAccessedAt accessCount decayLambda lastDecayedAt =>
    (t.updateNodes (fun row => row.id = id ∧ row.personaId = personaId) fun row =>
      { row with salience, lastAccessedAt, accessCount, decayLambda, lastDecayedAt },
      t.nodes.countP fun row => row.id = id ∧ row.personaId = personaId)
  | .updateSalience id personaId salience lastDecayedAt =>
    (t.updateNodes (fun row => row.id = id ∧ row.personaId = personaId) fun row =>
      { row with salience, lastDecayedAt },
      t.nodes.countP fun row => row.id = id ∧ row.personaId = personaId)
  | .updateSalienceDelta id personaId delta =>
    (t.updateNodes (fun row => row.id = id ∧ row.personaId = personaId) fun row =>
      { row with salience := min 1 (row.salience + delta) },
      t.nodes.countP fun row => row.id = id ∧ row.personaId = personaId)
  | .delete id personaId =>
    (t.dropNodes fun row => row.id = id ∧ row.personaId = personaId,
      t.nodes.countP fun row => row.id = id ∧ row.personaId = personaId)
  | .deleteAll personaId => (t.dropNodes fun row => row.personaId = personaId, 0)
  | .edgeUpsert edge => (t.putEdge edge, 1)
  | .edgeDeleteForNode id personaId =>
    (t.dropEdges fun edge => edge.personaId = personaId ∧ (edge.source = id ∨ edge.target = id),
      t.edges.countP fun edge => edge.personaId = personaId ∧ (edge.source = id ∨ edge.target = id))
  | .edgeDeleteAll personaId => (t.dropEdges fun edge => edge.personaId = personaId, 0)
  | .wmInsert personaId memoryId score enteredAt =>
    if t.Owns personaId memoryId then ({ t with slots := t.slots ++ [⟨memoryId, score, enteredAt⟩] }, 1)
    else (t, 0)
  | .wmUpdateScore memoryId score personaId =>
    (t.updateSlots (fun slot => slot.memoryId = memoryId ∧ t.Owns personaId slot.memoryId) fun slot =>
      { slot with score },
      t.slots.countP fun slot => slot.memoryId = memoryId ∧ t.Owns personaId slot.memoryId)
  | .wmDelete memoryId personaId =>
    (t.dropSlots fun slot => slot.memoryId = memoryId ∧ t.Owns personaId slot.memoryId,
      t.slots.countP fun slot => slot.memoryId = memoryId ∧ t.Owns personaId slot.memoryId)
  | .wmDeleteAll personaId => (t.dropSlots fun slot => t.Owns personaId slot.memoryId, 0)

/-- What is open about a step: the clock, a random identifier, and the order of rows where none is asked
for. -/
structure Env (K : Type) where
  now : K
  uuid : String
  tie : ℕ

/-- The number of rows affected, or `none` where a constraint is violated. -/
abbrev MemReply := Option ℕ

def exec (_ : Env K) (cmd : MemCmd K) (db : MemoryDb K) : MemoryDb K × MemReply :=
  if h : Constraints (cmd.effect db.toMemoryTables).1 then
    (⟨_, h⟩, some (cmd.effect db.toMemoryTables).2)
  else (db, none)

end ChronoSynth.Memory

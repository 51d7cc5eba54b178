import Mathlib.Analysis.SpecialFunctions.Log.Basic
import ChronoSynth.Memory.GraphInvariant

/-!
# Runs of the memory graph

Starting from empty tables, any personas' operations follow one another. Every operation but two only hands
over commands that keep to its persona. `addEdge` and `insertMemory` hand over upserts that do not ask whose
the memories are: the graph stays sound and the others stay untouched in every run in which these two do not
reach across (`graphKept`).
-/

set_option linter.unusedSectionVars false

namespace ChronoSynth.Memory

variable {K : Type} [Field K] [LinearOrder K]

/-! ## What is claimed -/

section
variable [FloorRing K] (ports : MemoryPorts K) (config : MemoryCognitionConfig K)

structure GraphKept (calls : List (MemCall K)) : Prop where
  states : Always (MemoryDb.step ports config)
    (fun db => GraphSound config.capacity db.toMemoryTables) .empty calls
  others : Along (MemoryDb.step ports config) (fun db call => ∀ p, p ≠ call.personaId →
    Untouched p db.toMemoryTables (db.step ports config call).toMemoryTables) .empty calls

/-- An edge that the schema accepts joins memories of the persona. A memory that the schema accepts has a
new identifier or one of the persona's, and if it is consolidated, its source is no other persona's and no
other memory of the persona is consolidated from it. -/
def KeepsToPersona (db : MemoryDb K) (call : MemCall K) : Prop :=
  match call.op with
  | .addEdge source target relation strength =>
    Constraints ((MemCmd.edgeUpsert ⟨⟨source, target, strength, relation⟩, call.personaId⟩).effect
      db.toMemoryTables).1 →
    db.Owns call.personaId source ∧ db.Owns call.personaId target
  | .insertMemory mem =>
    Constraints ((MemCmd.upsert (mem.toRow ports config call.personaId)).effect db.toMemoryTables).1 →
    (∀ row ∈ db.nodes, row.id = mem.id → row.personaId = call.personaId) ∧
      ∀ source, mem.consolidatedFrom = some source →
        (∀ row ∈ db.nodes, row.id = source → row.personaId = call.personaId) ∧
          ∀ row ∈ db.nodes, row.personaId = call.personaId → row.consolidatedFrom = some source →
            row.id = mem.id
  | _ => True

end

/-! ## Operations that keep to their persona -/

/-- A command that keeps to the persona whatever the tables are. -/
def Safe (p : String) (cmd : MemCmd K) : Prop :=
  match cmd with
  | .insert row => row.personaId = p ∧ row.consolidatedFrom = none
  | .upsert _ | .edgeUpsert _ | .wmInsert .. => False
  | .updateAccess _ personaId .. | .updateSalience _ personaId .. | .updateSalienceDelta _ personaId _
  | .delete _ personaId | .deleteAll personaId | .edgeDeleteForNode _ personaId
  | .edgeDeleteAll personaId | .wmUpdateScore _ _ personaId | .wmDelete _ personaId
  | .wmDeleteAll personaId => personaId = p

variable {ports : MemoryPorts K} {config : MemoryCognitionConfig K} {p : String} {capacity : ℕ}
  {db db₀ : MemoryDb K} {cmd : MemCmd K} {α : Type}

theorem Safe.allowed {t : MemoryTables K} (h : Safe p cmd) : Allowed capacity p cmd t := by
  cases cmd with
  | insert row =>
    refine ⟨h.1, fun source hsource => ?_⟩
    rw [h.2] at hsource
    cases hsource
  | upsert | edgeUpsert | wmInsert => exact h.elim
  | _ => exact h

theorem execute_uses {S : MemCmd K → Prop} (h : S cmd) : (execute cmd).Uses S := by
  refine Prog.Uses.bind (.transaction h) fun reply => ?_
  cases reply <;> trivial

theorem now_uses {S : MemCmd K → Prop} : (now : MemProg K K).Uses S := Prog.Uses.queryAny

theorem deleteMemoryInternal_safe (id : String) : (deleteMemoryInternal p id : MemProg K ℕ).Uses (Safe p) :=
  Prog.Uses.bind (execute_uses rfl) fun _ =>
    Prog.Uses.bind (execute_uses rfl) fun _ => execute_uses rfl

theorem addMemory_safe (kind : MemoryKind) (content : String) (valence salience : K) :
    (addMemory ports config p kind content valence salience).Uses (Safe p) := by
  refine Prog.Uses.bind ?_ fun _ => Prog.Uses.bind ?_ fun _ => Prog.Uses.bind .queryAny fun id =>
    Prog.Uses.bind now_uses fun now => ?_
  · rw [assertValence]
    split <;> trivial
  · rw [assertSalience]
    split <;> trivial
  · exact Prog.Uses.bind (execute_uses ⟨rfl, rfl⟩) fun _ => trivial

theorem accessMemory_safe (id : String) : (accessMemory ports config p id).Uses (Safe p) := by
  refine Prog.Uses.bind .query fun found => ?_
  cases found with
  | none => trivial
  | some node =>
    exact Prog.Uses.bind now_uses fun _ => Prog.Uses.bind (execute_uses rfl) fun _ => trivial

theorem decayNodes_safe (now : K) (nodes : List (MemoryRow K)) :
    (decayNodes ports config p now nodes).Uses (Safe p) := by
  induction nodes with
  | nil => trivial
  | cons node nodes ih =>
    simp only [decayNodes]
    split
    · exact ih
    · split
      · exact Prog.Uses.bind (deleteMemoryInternal_safe _) fun _ => Prog.Uses.bind ih fun _ => trivial
      · exact Prog.Uses.bind (execute_uses rfl) fun _ => Prog.Uses.bind ih fun _ => trivial

theorem spreadEdges_safe (depth : ℕ) (current : Frontier K) (edges : List (EdgeRow K)) (state : Spread K) :
    (spreadEdges ports config p depth current edges state).Uses (Safe p) := by
  induction edges generalizing state with
  | nil => trivial
  | cons edge edges ih =>
    simp only [spreadEdges]
    generalize (if edge.source = current.id then edge.target else edge.source) = neighborId
    split
    · exact ih _
    · split
      · exact ih _
      · exact Prog.Uses.bind (execute_uses rfl) fun _ => ih _

theorem spreadFrontier_safe (depth : ℕ) (frontier : List (Frontier K)) (state : Spread K) :
    (spreadFrontier ports config p depth frontier state).Uses (Safe p) := by
  induction frontier generalizing state with
  | nil => trivial
  | cons current frontier ih =>
    exact Prog.Uses.bind .queryAny fun edges =>
      Prog.Uses.bind (spreadEdges_safe depth current edges state) fun state => ih state

theorem spreadDepths_safe (rounds depth : ℕ) (state : Spread K) :
    (spreadDepths ports config p rounds depth state).Uses (Safe p) := by
  induction rounds generalizing depth state with
  | zero => trivial
  | succ rounds ih => exact Prog.Uses.bind (spreadFrontier_safe _ _ _) fun state => ih _ state

theorem refreshSlots_safe (memories : List (MemoryRow K)) (slots : List (WorkingMemorySlot K)) :
    (refreshSlots ports config p memories slots).Uses (Safe p) := by
  induction slots with
  | nil => trivial
  | cons slot slots ih =>
    simp only [refreshSlots]
    split
    · exact Prog.Uses.bind (execute_uses rfl) fun _ => ih
    · exact Prog.Uses.bind now_uses fun _ => Prog.Uses.bind (execute_uses rfl) fun _ => ih

theorem evictRows_safe (rows : List (MemoryRow K)) : (evictRows p rows).Uses (Safe p) := by
  induction rows with
  | nil => trivial
  | cons row rows ih =>
    exact Prog.Uses.bind (deleteMemoryInternal_safe _) fun _ => Prog.Uses.bind ih fun _ => trivial

theorem evictRounds_safe (rounds : ℕ) (toEvict : ℤ) :
    (evictRounds config p rounds toEvict).Uses (Safe p) := by
  induction rounds generalizing toEvict with
  | zero => trivial
  | succ rounds ih =>
    simp only [evictRounds]
    split
    · trivial
    · refine Prog.Uses.bind .queryAny fun rows => ?_
      split
      · trivial
      · exact Prog.Uses.bind (evictRows_safe rows) fun _ => Prog.Uses.bind (ih _) fun _ => trivial

/-! ## Operations that look before they write -/

/-- The change since `db₀` keeps to the persona. -/
def Held (capacity : ℕ) (p : String) (db₀ db : MemoryDb K) : Prop :=
  Keeps capacity p db₀.toMemoryTables db.toMemoryTables

theorem Held.applied (h : Held capacity p db₀ db) (hcmd : Allowed capacity p cmd db.toMemoryTables)
    (e : Env K) : Held capacity p db₀ (exec e cmd db).1 :=
  Keeps.trans h (exec_keeps h.inv hcmd)

theorem Held.safe {prog : MemProg K α} (h : Held capacity p db₀ db) (hsafe : prog.Uses (Safe p)) :
    prog.Ensures exec (fun _ => Held capacity p db₀) db :=
  .of_uses hsafe (fun e _ _ h hcmd => h.applied hcmd.allowed e) h

theorem execute_ensures {Q : Except String ℕ → MemoryDb K → Prop}
    (hok : ∀ hs : Constraints (cmd.effect db.toMemoryTables).1,
      Q (.ok (cmd.effect db.toMemoryTables).2) ⟨(cmd.effect db.toMemoryTables).1, hs⟩)
    (herror : Q (.error "constraint failed") db) : (execute cmd).Ensures exec Q db := by
  intro e
  simp only [exec]
  split
  next hs => exact hok hs
  next => exact herror

theorem Held.executed (h : Held capacity p db₀ db)
    (hcmd : Constraints (cmd.effect db.toMemoryTables).1 → Allowed capacity p cmd db.toMemoryTables) :
    (execute cmd).Ensures exec (fun _ => Held capacity p db₀) db :=
  execute_ensures (fun hs => h.trans (effect_keeps h.inv db.sound hs (hcmd hs))) h

theorem Held.admission (h : Held config.capacity p db₀ db) (memoryId : String) :
    (admitToWorkingMemory ports config p memoryId).Ensures exec
      (fun _ => Held config.capacity p db₀) db := by
  refine .query ?_
  cases db.byId memoryId p with
  | none => exact h
  | some mem =>
    refine .queryAny fun e => .query ?_
    cases (db.slotsOf p).find? fun slot => slot.memoryId = memoryId with
    | some slot => exact .seq (h.executed fun _ => rfl) fun _ _ h => h
    | none =>
      refine .query ?_
      split
      next hroom =>
        exact .queryAny fun e => .seq (h.executed fun _ => ⟨rfl, hroom⟩) fun _ _ h => h
      next =>
        refine .queryAny fun e => ?_
        cases hlow : Table.pick e.tie ((db.slotsOf p).filter fun slot =>
          ∀ other ∈ db.slotsOf p, slot.score ≤ other.score) with
        | none =>
          dsimp only
          exact h
        | some lowest =>
          have hmem : lowest ∈ db.slotsOf p := List.mem_of_mem_filter (Table.pick_mem hlow)
          dsimp only
          split
          next =>
            refine .bind (execute_ensures (fun hs => ?_) h)
            refine .queryAny fun e => .seq (Held.executed ?_ fun _ => ⟨rfl, ?_⟩) fun _ _ h => h
            · exact h.trans (effect_keeps h.inv db.sound hs rfl)
            · -- the slot that is given up was one of the persona
              have howns : db.Owns p lowest.memoryId := by simpa using (List.mem_filter.1 hmem).2
              exact (slotsOf_dropSlots_lt hmem ⟨rfl, howns⟩).trans_le (h.inv.capacity p)
          next => exact h

theorem Held.moveEdges (h : Held capacity p db₀ db) {memoryId newId : String} {edges : List (EdgeRow K)}
    (hends : ∀ edge ∈ edges, db.Owns p (edge.moved memoryId newId).source ∧
      db.Owns p (edge.moved memoryId newId).target) :
    (moveEdges p memoryId newId edges).Ensures exec (fun _ => Held capacity p db₀) db := by
  induction edges generalizing db with
  | nil => exact h
  | cons edge edges ih =>
    have hedge := hends edge List.mem_cons_self
    have hcmd : Allowed capacity p (.edgeUpsert { edge.moved memoryId newId with personaId := p })
        db.toMemoryTables := ⟨rfl, hedge⟩
    refine .bind (execute_ensures (fun hs => ?_) h)
    -- the memories are the same, so the rest of the edges still joins memories of the persona
    refine ih (h.trans (effect_keeps h.inv db.sound hs hcmd)) fun other hother => ?_
    have hnodes : (db.putEdge { edge.moved memoryId newId with personaId := p }).nodes = db.nodes := by
      rw [MemoryTables.putEdge]
      split <;> rfl
    have howns : ∀ id, db.Owns p id →
        (db.putEdge { edge.moved memoryId newId with personaId := p }).Owns p id := by
      intro id ho
      rwa [MemoryTables.Owns, hnodes]
    exact (hends other (List.mem_cons_of_mem _ hother)).imp (howns _) (howns _)

theorem byId_owns {row : MemoryRow K} {id : String} (h : db.byId id p = some row) :
    row ∈ db.nodes ∧ row.id = id ∧ row.personaId = p :=
  Table.find_spec h

theorem Held.consolidate (h : Held config.capacity p db₀ db) (memoryId : String) :
    (consolidateMemory config p memoryId).Ensures exec (fun _ => Held config.capacity p db₀) db := by
  refine .query ?_
  cases hby : db.byId memoryId p with
  | none => exact h
  | some node =>
    obtain ⟨hnode, rfl, rfl⟩ := byId_owns hby
    dsimp only
    split
    next => exact h
    next =>
      refine .queryAny fun eFound => ?_
      cases hfound : Table.pick eFound.tie ((db.nodesOf node.personaId).filter fun row =>
        row.consolidatedFrom = some node.id) with
      | some found =>
        simp only [hfound, Option.map_some]
        exact h
      | none =>
        simp only [hfound, Option.map_none]
        have hfirst : ∀ r ∈ db.nodes, r.personaId = node.personaId → r.consolidatedFrom ≠ some node.id := by
          intro r hr hp hc
          have hmem : r ∈ (db.nodesOf node.personaId).filter fun row =>
              row.consolidatedFrom = some node.id :=
            List.mem_filter.2 ⟨List.mem_filter.2 ⟨hr, by simpa using hp⟩, by simpa using hc⟩
          rw [Table.pick_eq_none hfound] at hmem
          cases hmem
        refine .queryAny fun eNow => .queryAny fun eId => ?_
        have hcmd : Allowed config.capacity node.personaId
            (.insert (node.consolidated config node.personaId eId.uuid eNow.now)) db.toMemoryTables := by
          refine ⟨rfl, ?_⟩
          rintro source hsource
          obtain rfl := Option.some.inj hsource
          exact ⟨fun r hr hid => by rw [db.sound.node_eq hr hnode hid], hfirst⟩
        refine .bind (execute_ensures (fun hs => ?_) h)
        have hheld : Held config.capacity node.personaId db₀ ⟨_, hs⟩ :=
          h.trans (effect_keeps h.inv db.sound hs hcmd)
        refine .queryAny fun eEdges => .seq (Held.moveEdges hheld fun edge hedge => ?_) fun _ db' h' => ?_
        · -- the edges of the memory join memories of the persona, and so does the new one
          obtain ⟨hmem, -⟩ := List.mem_filter.1 (mem_shuffle.1 hedge)
          obtain ⟨hedges, hp⟩ := List.mem_filter.1 hmem
          have hold := hheld.inv.edges edge hedges
          rw [show edge.personaId = node.personaId by simpa using hp] at hold
          have hnew : (db.addNode (node.consolidated config node.personaId eId.uuid eNow.now)).Owns
              node.personaId eId.uuid := owns_addNode.2 (.inr ⟨rfl, rfl⟩)
          simp only [EdgeRow.moved]
          constructor
          · split
            · exact hnew
            · exact hold.1
          · split
            · exact hnew
            · exact hold.2
        · split
          · exact .seq (Held.safe h' (deleteMemoryInternal_safe _)) fun _ _ h => h
          · exact h'

theorem Held.consolidateEach (h : Held config.capacity p db₀ db) (ids : List String) :
    (consolidateEach config p ids).Ensures exec (fun _ => Held config.capacity p db₀) db := by
  induction ids generalizing db with
  | nil => exact h
  | cons id ids ih =>
    exact .seq (h.consolidate id) fun _ _ h => .seq (ih h) fun _ _ h => h

/-! ## Every operation -/

section
variable [FloorRing K] {call : MemCall K}

theorem Held.body (h : Held config.capacity call.personaId db₀ db)
    (hcall : KeepsToPersona ports config db call) :
    (call.body ports config).Ensures exec (fun _ => Held config.capacity call.personaId db₀) db := by
  obtain ⟨p, op, oracle⟩ := call
  cases op with
  | addMemory => exact .seq (h.safe (addMemory_safe _ _ _ _)) fun _ _ h => h
  | accessMemory => exact .seq (h.safe (accessMemory_safe _)) fun _ _ h => h
  | insertMemory mem =>
    refine .seq (h.executed fun hs => ?_) fun _ _ h => h
    obtain ⟨hid, hsource⟩ := hcall hs
    exact ⟨rfl, hid, hsource⟩
  | addEdge source target relation strength =>
    refine .seq (.bind ?_) fun _ _ h => h
    rw [assertStrength]
    split
    · exact h
    · exact .seq (h.executed fun hs => ⟨rfl, hcall hs⟩) fun _ _ h => h
  | decayAll =>
    refine .seq (h.safe (Prog.Uses.bind now_uses fun _ => Prog.Uses.bind .queryAny fun _ =>
      decayNodes_safe _ _)) fun _ _ h => h
  | spreadActivation =>
    exact .seq (h.safe (Prog.Uses.bind (spreadDepths_safe _ _ _) fun _ => trivial)) fun _ _ h => h
  | admitToWorkingMemory => exact .seq (h.admission _) fun _ _ h => h
  | refreshWorkingMemory =>
    refine .seq (h.safe (Prog.Uses.bind .queryAny fun _ => Prog.Uses.bind .query fun _ =>
      Prog.Uses.bind (refreshSlots_safe _ _) fun _ => .queryAny)) fun _ _ h => h
  | removeFromWorkingMemory =>
    exact .seq (h.safe (Prog.Uses.bind (execute_uses rfl) fun _ => trivial)) fun _ _ h => h
  | consolidateMemory => exact .seq (h.consolidate _) fun _ _ h => h
  | consolidateAll => exact .seq (.queryAny fun _ => h.consolidateEach _) fun _ _ h => h
  | evictExcess =>
    refine .seq (h.safe ?_) fun _ _ h => h
    rw [evictExcess]
    split
    · trivial
    · refine Prog.Uses.bind .query fun count => ?_
      split
      · trivial
      · exact evictRounds_safe _ _
  | deleteMemory =>
    exact .seq (h.safe (Prog.Uses.bind (deleteMemoryInternal_safe _) fun _ => trivial)) fun _ _ h => h
  | deleteAllMemories =>
    exact h.safe (Prog.Uses.bind (execute_uses rfl) fun _ => Prog.Uses.bind (execute_uses rfl) fun _ =>
      Prog.Uses.bind (execute_uses rfl) fun _ => trivial)

/-- **Step lemma.** -/
theorem step_keeps (h : Inv config.capacity db.toMemoryTables)
    (hcall : KeepsToPersona ports config db call) :
    Keeps config.capacity call.personaId db.toMemoryTables
      (db.step ports config call).toMemoryTables := by
  have hheld : Held config.capacity call.personaId db db := .refl h
  have hsolo := (hheld.body hcall).solo call.oracle
  simp only [MemoryDb.step]
  split
  · exact hsolo
  · split
    · exact .refl h
    · exact hsolo

end

/-! ## Whole runs -/

theorem inv_empty : Inv capacity (MemoryDb.empty : MemoryDb K).toMemoryTables := by
  refine ⟨⟨fun _ => Nat.zero_le _, ?_, ?_, ?_, ?_⟩, ?_⟩ <;> simp [MemoryDb.empty]

/-- **The memory graph is kept.** In a run in which no edge and no inserted memory reaches across to
another persona, and no two memories of a persona are inserted with one source, the graph is sound in every
state and every operation leaves the other personas untouched. -/
theorem graphKept [FloorRing K] (ports : MemoryPorts K) (config : MemoryCognitionConfig K)
    (calls : List (MemCall K))
    (hC : Along (MemoryDb.step ports config) (KeepsToPersona ports config) .empty calls) :
    GraphKept ports config calls := by
  have hI : Always (MemoryDb.step ports config)
      (fun db => Inv config.capacity db.toMemoryTables) .empty calls :=
    Always.of_step inv_empty (fun _ _ h hcall => (step_keeps h hcall).inv) hC
  refine ⟨hI.mono fun db h => h.toGraphSound, ?_⟩
  intro pre call hpre
  exact (step_keeps (hI pre ((List.prefix_append _ _).trans hpre)) (hC pre call hpre)).others

/-! ## Two runs -/

theorem execute_ok {Q : Except String ℕ → MemoryDb K → Prop}
    (hs : Constraints (cmd.effect db.toMemoryTables).1)
    (hQ : Q (.ok (cmd.effect db.toMemoryTables).2) ⟨_, hs⟩) : (execute cmd).Ensures exec Q db := by
  intro e
  simp only [exec, dif_pos hs]
  exact hQ

section
variable [FloorRing K] {oracle : ℕ → Env K} {mem : MemoryInput K} {source target relation : String}
  {strength : K} {call : MemCall K} {db' : MemoryDb K}

theorem step_eq (h : (call.body ports config).Ensures exec (fun r s => r = .ok () ∧ s = db') db) :
    db.step ports config call = db' := by
  obtain ⟨hr, hs⟩ := h.solo call.oracle
  simp only [MemoryDb.step, hr, hs]

theorem step_insertMemory
    (hs : Constraints ((MemCmd.upsert (mem.toRow ports config p)).effect db.toMemoryTables).1) :
    db.step ports config ⟨p, .insertMemory mem, oracle⟩ = ⟨_, hs⟩ :=
  step_eq (.bind (execute_ok hs ⟨rfl, rfl⟩))

theorem step_addEdge (hstrength : 0 ≤ strength ∧ strength ≤ 1)
    (hs : Constraints ((MemCmd.edgeUpsert ⟨⟨source, target, strength, relation⟩, p⟩).effect
      db.toMemoryTables).1) :
    db.step ports config ⟨p, .addEdge source target relation strength, oracle⟩ = ⟨_, hs⟩ := by
  refine step_eq (.bind (.bind ?_))
  rw [assertStrength, if_neg (by simpa using hstrength)]
  exact .bind (execute_ok hs ⟨rfl, rfl⟩)

end

/-- The ports with the exponential and the logarithm of the reals, and no encryption. -/
noncomputable def realPorts : MemoryPorts ℝ := ⟨Real.exp, Real.log, id, id⟩

/-- A memory without salience. -/
def plainMemory (id : String) : MemoryInput ℝ where
  id
  kind := .episodic
  content := ""
  valence := 0
  salience := 0
  createdAt := 0
  lastAccessedAt := none
  accessCount := none
  decayLambda := some 1
  lastDecayedAt := none
  consolidatedFrom := none

/-- The tables with a memory of one persona and an edge of another. -/
noncomputable def crossed (owner linker : String) : MemoryTables ℝ where
  nodes := [(plainMemory "m").toRow realPorts DEFAULT_COGNITION_CONFIG owner]
  edges := [⟨⟨"m", "m", 0, "self"⟩, linker⟩]
  slots := []

theorem constraints_crossed (owner linker : String) : Constraints (crossed owner linker) := by
  constructor <;> simp [crossed, MemoryInput.toRow, plainMemory]

/-- One persona inserts a memory, and the other links it. -/
noncomputable def crossing (oracle : ℕ → Env ℝ) (owner linker : String) : List (MemCall ℝ) :=
  [⟨owner, .insertMemory (plainMemory "m"), oracle⟩, ⟨linker, .addEdge "m" "m" "self" 0, oracle⟩]

theorem constraints_inserted (owner linker : String) :
    Constraints { crossed owner linker with edges := [] } := by
  constructor <;> simp [crossed, MemoryInput.toRow, plainMemory]

theorem crossing_insert (oracle : ℕ → Env ℝ) (owner linker : String) :
    MemoryDb.empty.step realPorts DEFAULT_COGNITION_CONFIG
      ⟨owner, .insertMemory (plainMemory "m"), oracle⟩ =
        ⟨{ crossed owner linker with edges := [] }, constraints_inserted owner linker⟩ := by
  have heffect : ((MemCmd.upsert ((plainMemory "m").toRow realPorts DEFAULT_COGNITION_CONFIG owner)).effect
      (MemoryDb.empty : MemoryDb ℝ).toMemoryTables).1 = { crossed owner linker with edges := [] } := by
    simp [MemCmd.effect, MemoryDb.empty, MemoryTables.addNode, crossed]
  rw [step_insertMemory (heffect ▸ constraints_inserted owner linker)]
  simp only [heffect]

theorem crossing_run (oracle : ℕ → Env ℝ) (owner linker : String) :
    run (MemoryDb.step realPorts DEFAULT_COGNITION_CONFIG) .empty (crossing oracle owner linker) =
      ⟨crossed owner linker, constraints_crossed owner linker⟩ := by
  have heffect : ((MemCmd.edgeUpsert ⟨⟨"m", "m", 0, "self"⟩, linker⟩).effect
      { crossed owner linker with edges := [] }).1 = crossed owner linker := by
    simp [MemCmd.effect, MemoryTables.putEdge, crossed]
  rw [crossing, run_cons, crossing_insert _ owner linker, run_cons,
    step_addEdge ⟨le_rfl, zero_le_one⟩ (by rw [heffect]; exact constraints_crossed _ _), run_nil]
  simp only [heffect]

/-- A persona inserts a memory and links it. -/
theorem graphKept_linked : GraphKept realPorts DEFAULT_COGNITION_CONFIG
    (crossing (fun _ => ⟨0, "", 0⟩) "p" "p") := by
  refine graphKept _ _ _ ?_
  rw [crossing, along_cons, along_cons, crossing_insert _ "p" "p"]
  refine ⟨fun _ => ⟨by simp [MemoryDb.empty], fun source hsource => ?_⟩, fun _ => ?_, along_nil⟩
  · simp [plainMemory] at hsource
  · have howns : ({ crossed "p" "p" with edges := [] } : MemoryTables ℝ).Owns "p" "m" :=
      ⟨_, List.mem_singleton_self _, rfl, rfl⟩
    exact ⟨howns, howns⟩

/-- One persona links a memory of another. -/
theorem edge_across_personas : ¬ ∀ config calls, GraphKept realPorts config calls := by
  intro h
  have hsound := (h DEFAULT_COGNITION_CONFIG (crossing (fun _ => ⟨0, "", 0⟩) "p" "q")).states.last
  rw [crossing_run] at hsound
  obtain ⟨row, hrow, -, hp⟩ := (hsound.edges _ (List.mem_singleton_self _)).1
  rw [List.mem_singleton.1 hrow] at hp
  exact absurd hp (by decide)

end ChronoSynth.Memory

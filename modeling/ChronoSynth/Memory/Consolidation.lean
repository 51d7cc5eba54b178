import Mathlib.Algebra.Order.BigOperators.Group.List
import Mathlib.Data.Rat.Floor
import Mathlib.Tactic.NormNum
import ChronoSynth.Memory.Deletion

/-!
# Consolidation loses nothing

`consolidateAll` copies every eligible memory into a semantic one, gives the copy the edges of the memory, and deletes the
memory, if it is configured so. One memory after another is worked on, so an edge between two of them is moved twice: the
second time it is the edge of the first one's copy. With identifiers that are new (`FreshUuids`) no two edges are put in one
place. The deletion fails where an edge of another persona ends in the memory.
-/

set_option linter.unusedSectionVars false

namespace ChronoSynth.Memory

variable {K : Type} [Field K] [LinearOrder K]

local instance consolidationTenAtLeastTwo : Nat.AtLeastTwo 10 := ⟨by decide⟩

local instance consolidationTwelveAtLeastTwo : Nat.AtLeastTwo 12 := ⟨by decide⟩

/-! ## What is claimed -/

/-- The memories that are eligible. -/
def MemoryTables.candidates (t : MemoryTables K) (config : MemoryCognitionConfig K) (p : String) : List (MemoryRow K) :=
  (t.nodesOf p).filter fun row =>
    row.kind = .episodic ∧ config.accessThreshold ≤ row.accessCount ∧ config.minSalience ≤ row.salience ∧
      row.consolidatedFrom = none ∧ ¬ ∃ other ∈ t.nodes, other.consolidatedFrom = some row.id ∧ other.personaId = p

/-- The memories that are deleted. -/
def dropped (config : MemoryCognitionConfig K) (results : List ConsolidationResult) : List String :=
  if config.deleteConsolidatedSources then results.map fun r => r.originalId else []

/-- What stands in an edge of the copy where `x` stands in an edge of the memory. -/
def Stands (config : MemoryCognitionConfig K) (results : List ConsolidationResult) (r : ConsolidationResult)
    (x y : String) : Prop :=
  if x = r.originalId then y = r.consolidatedId
  else if x ∈ dropped config results then ∃ r' ∈ results, r'.originalId = x ∧ r'.consolidatedId = y
  else y = x

def MemoryRow.CopyOf (copy node : MemoryRow K) : Prop :=
  copy.kind = .semantic ∧ copy.content = node.content ∧ copy.valence = node.valence ∧
    copy.salience = min 1 (node.salience * (12 / 10))

/-- Nothing is lost and nothing is there twice. -/
structure Consolidates (config : MemoryCognitionConfig K) (p : String) (t t' : MemoryTables K)
    (results : List ConsolidationResult) : Prop where
  each : (results.map fun r => r.originalId).Perm ((t.candidates config p).map fun row => row.id)
  distinct : (results.map fun r => r.consolidatedId).Nodup
  copies : ∀ r ∈ results, r.newKind = .semantic ∧ ∃ node ∈ t.candidates config p, node.id = r.originalId ∧
    ∃ copy ∈ t'.nodesOf p, copy.id = r.consolidatedId ∧ copy.CopyOf node
  memories : ∀ x, (x ∈ t'.nodes.map fun row => row.id) ↔
    (x ∈ t.nodes.map fun row => row.id) ∧ x ∉ dropped config results ∨
      (x ∉ t.nodes.map fun row => row.id) ∧ x ∈ results.map fun r => r.consolidatedId
  edges : ∀ edge ∈ t.edges, edge.source ∉ dropped config results → edge.target ∉ dropped config results →
    edge ∈ t'.edges
  counterparts : ∀ r ∈ results, ∀ edge ∈ t.edgesOf p, edge.source = r.originalId ∨ edge.target = r.originalId →
    ∃ edge' ∈ t'.edgesOf p, edge'.strength = edge.strength ∧ edge'.relation = edge.relation ∧
      Stands config results r edge.source edge'.source ∧ Stands config results r edge.target edge'.target

/-- Oracles whose identifiers are new, where so many are used. -/
structure Fresh (used : List String) (os : ℕ → Env K) : Prop where
  unused : ∀ n, (os n).uuid ∉ used
  distinct : Function.Injective fun n => (os n).uuid

/-- Oracles whose identifiers are not those of memories that are stored. -/
structure FreshUuids (db : MemoryDb K) where
  oracle : ℕ → Env K
  fresh : Fresh (db.nodes.map fun row => row.id) oracle

/-- What the consolidation is for: run again, it finds nothing to do. -/
def ConsolidatesAll (config : MemoryCognitionConfig K) (p : String) (db : MemoryDb K)
    (r : Except String (List ConsolidationResult)) (db' : MemoryDb K) : Prop :=
  ∃ results, r = .ok results ∧ Consolidates config p db.toMemoryTables db'.toMemoryTables results ∧
    ∀ os, (consolidateAll config p).solo exec os db' = (db', .ok [])

variable {config : MemoryCognitionConfig K} {p c newId x : String} {db db' : MemoryDb K} {t t' : MemoryTables K}
  {node : MemoryRow K} {edges : List (EdgeRow K)} {edge : EdgeRow K} {os : ℕ → Env K}

/-! ## Edges that are moved -/

theorem putEdge_of_new (h : (edge.source, edge.target) ∉ t.edges.map fun e => (e.source, e.target)) :
    t.putEdge edge = { t with edges := t.edges ++ [edge] } := by
  rw [MemoryTables.putEdge, if_neg]
  rintro ⟨e, he, hs, ht⟩
  exact h (List.mem_map.2 ⟨e, he, by rw [hs, ht]⟩)

theorem Constraints.addEdge (h : Constraints t) (hkey : (edge.source, edge.target) ∉ t.edges.map fun e => (e.source, e.target))
    (hstrength : 0 ≤ edge.strength ∧ edge.strength ≤ 1)
    (hends : (edge.source ∈ t.nodes.map fun row => row.id) ∧ edge.target ∈ t.nodes.map fun row => row.id) :
    Constraints { t with edges := t.edges ++ [edge] } :=
  { h with
    edge_key := by
      rw [List.map_append, List.nodup_append]
      refine ⟨h.edge_key, List.nodup_singleton _, fun k hk k' hk' heq => ?_⟩
      rw [heq, List.mem_singleton.1 hk'] at hk
      exact hkey hk
    strength := List.forall_mem_append.2 ⟨h.strength, List.forall_mem_singleton.2 hstrength⟩
    ends := List.forall_mem_append.2 ⟨h.ends, List.forall_mem_singleton.2 hends⟩ }

theorem moveEdges_ensures (hp : ∀ e ∈ edges, e.personaId = p) (hstrength : ∀ e ∈ edges, 0 ≤ e.strength ∧ e.strength ≤ 1)
    (hends : ∀ e ∈ edges, ((e.moved c newId).source ∈ db.nodes.map fun row => row.id) ∧
      (e.moved c newId).target ∈ db.nodes.map fun row => row.id)
    (hkeys : ((db.edges ++ edges.map fun e => e.moved c newId).map fun e => (e.source, e.target)).Nodup) :
    (moveEdges p c newId edges).Ensures exec (fun r db' => r = .ok () ∧ db'.toMemoryTables =
      { db.toMemoryTables with edges := db.edges ++ edges.map fun e => e.moved c newId }) db := by
  induction edges generalizing db with
  | nil => exact ⟨rfl, by simp⟩
  | cons e edges ih =>
    obtain ⟨hpe, hp⟩ := List.forall_mem_cons.1 hp
    obtain ⟨hse, hstrength⟩ := List.forall_mem_cons.1 hstrength
    obtain ⟨hee, hends⟩ := List.forall_mem_cons.1 hends
    have hsame : ({ e.moved c newId with personaId := p } : EdgeRow K) = e.moved c newId := by rw [← hpe]; rfl
    have hnew : ((e.moved c newId).source, (e.moved c newId).target) ∉ db.edges.map fun e => (e.source, e.target) := by
      rw [List.map_append, List.nodup_append] at hkeys
      exact fun hmem => hkeys.2.2 _ hmem _ (List.mem_map_of_mem List.mem_cons_self) rfl
    have heffect : (MemCmd.edgeUpsert { e.moved c newId with personaId := p }).effect db.toMemoryTables =
        ((⟨_, db.sound.addEdge hnew hse hee⟩ : MemoryDb K).toMemoryTables, 1) := by
      rw [hsame]
      exact Prod.ext (putEdge_of_new hnew) rfl
    rw [moveEdges, Prog.ensures_bind_iff, execute_ensures_iff heffect]
    have hrest : (((db.edges ++ [e.moved c newId]) ++ edges.map fun e => e.moved c newId).map fun e =>
        (e.source, e.target)).Nodup := by
      rw [List.append_assoc]
      exact hkeys
    refine (@ih ⟨_, db.sound.addEdge hnew hse hee⟩ hp hstrength hends hrest).mono ?_
    rintro r db' ⟨rfl, hdb'⟩
    exact ⟨rfl, by simpa using hdb'⟩

/-- An edge at a memory, as a key: with a new identifier no two edges are moved to one place, and none to a place that is
taken. -/
theorem moved_keys (h : Constraints t) (hnew : newId ∉ t.nodes.map fun row => row.id) (hsub : ∀ e ∈ edges, e ∈ t.edges)
    (hat : ∀ e ∈ edges, e.source = c ∨ e.target = c) (hnodup : edges.Nodup) :
    ((t.edges ++ edges.map fun e => e.moved c newId).map fun e => (e.source, e.target)).Nodup := by
  have hne : ∀ e ∈ t.edges, e.source ≠ newId ∧ e.target ≠ newId := fun e he =>
    ⟨fun heq => hnew (heq ▸ (h.ends e he).1), fun heq => hnew (heq ▸ (h.ends e he).2)⟩
  rw [List.map_append, List.map_map, List.nodup_append]
  refine ⟨h.edge_key, ?_, ?_⟩
  · refine (List.nodup_map_iff_inj_on hnodup).2 fun e he e' he' heq => ?_
    refine List.inj_on_of_nodup_map h.edge_key (hsub e he) (hsub e' he') ?_
    obtain ⟨hs, ht⟩ := hne e (hsub e he)
    obtain ⟨hs', ht'⟩ := hne e' (hsub e' he')
    simp only [Function.comp_apply, EdgeRow.moved, Prod.mk.injEq] at heq ⊢
    grind
  · intro k hk k' hk' heq
    obtain ⟨e, he, rfl⟩ := List.mem_map.1 hk
    obtain ⟨e', he', rfl⟩ := List.mem_map.1 hk'
    obtain ⟨hs, ht⟩ := hne e he
    simp only [Function.comp_apply, EdgeRow.moved, Prod.mk.injEq] at heq
    rcases hat e' he' with hc | hc
    · rw [if_pos hc] at heq
      exact hs heq.1
    · rw [if_pos hc] at heq
      exact ht heq.2

/-! ## One memory -/

def MemoryTables.extended (t : MemoryTables K) (copy : MemoryRow K) (edges : List (EdgeRow K)) : MemoryTables K :=
  { nodes := t.nodes ++ [copy], edges := t.edges ++ edges, slots := t.slots }

/-- A memory that is to be consolidated. -/
structure Eligible (db : MemoryDb K) (p : String) (node : MemoryRow K) : Prop where
  mem : node ∈ db.nodesOf p
  kind : node.kind = .episodic
  first : ∀ other ∈ db.nodesOf p, other.consolidatedFrom ≠ some node.id

/-- What the consolidation of a memory does: it is copied with its edges, and deleted if it is configured so. -/
def Consolidated (config : MemoryCognitionConfig K) (p : String) (t t' : MemoryTables K) (node : MemoryRow K)
    (newId : String) : Prop :=
  ∃ (now : K) (edges : List (EdgeRow K)), edges.Perm ((t.edgesOf p).filter fun e => e.source = node.id ∨ e.target = node.id) ∧
    t' = (t.extended (node.consolidated config p newId now) (edges.map fun e => e.moved node.id newId)).without
      (dropped config [⟨node.id, newId, .semantic⟩])

theorem Eligible.byId (h : Eligible db p node) : db.byId node.id p = some node := by
  obtain ⟨hmem, hp⟩ := List.mem_filter.1 h.mem
  cases hby : db.byId node.id p with
  | none =>
    rw [MemoryTables.byId, List.find?_eq_none] at hby
    exact absurd (hby node hmem) (by simpa using hp)
  | some found =>
    obtain ⟨hfound, hid, -⟩ := Table.find_spec hby
    rw [db.sound.node_eq hfound hmem hid]

theorem Eligible.none_from (h : Eligible db p node) (tie : ℕ) :
    (Table.pick tie ((db.nodesOf p).filter fun row => row.consolidatedFrom = some node.id)) = none := by
  have hnil : ((db.nodesOf p).filter fun row => row.consolidatedFrom = some node.id) = [] :=
    List.filter_eq_nil_iff.2 fun row hrow => by simpa using h.first row hrow
  rw [hnil]
  rfl

section
variable [IsStrictOrderedRing K]

theorem Constraints.addCopy (config : MemoryCognitionConfig K) (p : String) (h : Constraints t) (hnode : node ∈ t.nodes) (hnew : newId ∉ t.nodes.map fun row => row.id)
    (now : K) : Constraints (t.addNode (node.consolidated config p newId now)) := by
  have hids : (t.addNode (node.consolidated config p newId now)).nodes.map (fun row => row.id) =
      (t.nodes.map fun row => row.id) ++ [newId] := by simp [MemoryTables.addNode, MemoryRow.consolidated]
  have hkept : ∀ y, (y ∈ t.nodes.map fun row => row.id) →
      y ∈ (t.addNode (node.consolidated config p newId now)).nodes.map fun row => row.id := fun y hy => by
    rw [hids]
    exact List.mem_append_left _ hy
  have hsalience := h.salience node hnode
  refine ⟨?_, ?_, ?_, ?_, h.edge_key, h.strength, fun e he => ?_, h.slot_key, fun slot hslot => hkept _ (h.memory slot hslot)⟩
  · rw [hids, List.nodup_append]
    refine ⟨h.node_key, List.nodup_singleton _, fun a ha b hb heq => hnew ?_⟩
    rwa [← List.mem_singleton.1 hb, ← heq]
  · exact List.forall_mem_append.2 ⟨h.valence, List.forall_mem_singleton.2 (h.valence node hnode)⟩
  · refine List.forall_mem_append.2 ⟨h.salience, List.forall_mem_singleton.2 ⟨?_, min_le_left _ _⟩⟩
    exact le_min zero_le_one (mul_nonneg hsalience.1 (div_nonneg (Nat.ofNat_nonneg 12) (Nat.ofNat_nonneg 10)))
  · intro row hrow source hsource
    refine hkept _ ?_
    rcases List.mem_append.1 hrow with hold | hcopy
    · exact h.consolidatedFrom row hold source hsource
    · rw [List.mem_singleton.1 hcopy] at hsource
      obtain rfl := Option.some.inj hsource
      exact List.mem_map_of_mem hnode
  · exact ⟨hkept _ (h.ends e he).1, hkept _ (h.ends e he).2⟩

/-- Once an identifier is used, the oracles that are left still have new ones. -/
theorem Fresh.after {used : List String} (h : Fresh used os) {j k : ℕ} (hjk : j < k) :
    Fresh ((os j).uuid :: used) fun n => os (n + k) := by
  refine ⟨fun n hmem => ?_, fun _ _ hab => Nat.add_right_cancel (h.distinct hab)⟩
  rcases List.mem_cons.1 hmem with hj | hold
  · have hsame := h.distinct hj
    omega
  · exact h.unused _ hold

theorem moved_ends {copy : MemoryRow K} (h : (edge.source ∈ t.nodes.map fun row => row.id) ∧
    edge.target ∈ t.nodes.map fun row => row.id) :
    ((edge.moved c copy.id).source ∈ (t.addNode copy).nodes.map fun row => row.id) ∧
      (edge.moved c copy.id).target ∈ (t.addNode copy).nodes.map fun row => row.id := by
  have hids : (t.addNode copy).nodes.map (fun row => row.id) = (t.nodes.map fun row => row.id) ++ [copy.id] := by
    simp [MemoryTables.addNode]
  simp only [hids, EdgeRow.moved, List.mem_append, List.mem_singleton]
  constructor
  · split
    · exact .inr rfl
    · exact .inl h.1
  · split
    · exact .inr rfl
    · exact .inl h.2

theorem foreign_extended {copy : MemoryRow K} (hp : ∀ e ∈ edges, e.personaId = p) :
    (t.extended copy edges).Foreign p x ↔ t.Foreign p x := by
  constructor
  · rintro ⟨e, he, hne, hend⟩
    rcases List.mem_append.1 he with he | he
    · exact ⟨e, he, hne, hend⟩
    · exact absurd (hp e he) hne
  · rintro ⟨e, he, hrest⟩
    exact ⟨e, List.mem_append_left _ he, hrest⟩

theorem copy_ensures (config : MemoryCognitionConfig K) (h : Eligible db p node)
    (hnew : newId ∉ db.nodes.map fun row => row.id) (now : K) {α : Type} {g : MemProg K α}
    {Q : Except String α → MemoryDb K → Prop}
    (hg : ∀ (edges : List (EdgeRow K)) (db' : MemoryDb K),
      edges.Perm ((db.edgesOf p).filter fun e => e.source = node.id ∨ e.target = node.id) →
      db'.toMemoryTables = db.toMemoryTables.extended (node.consolidated config p newId now)
        (edges.map fun e => e.moved node.id newId) → g.Ensures exec Q db') :
    (do
      let _ ← execute (.insert (node.consolidated config p newId now))
      let edges ← memEdgesForNode node.id p
      moveEdges p node.id newId edges
      g).Ensures exec Q db := by
  have hmem := (List.mem_filter.1 h.mem).1
  have hinsert : (MemCmd.insert (node.consolidated config p newId now)).effect db.toMemoryTables =
      ((⟨_, db.sound.addCopy config p hmem hnew now⟩ : MemoryDb K).toMemoryTables, 1) := rfl
  rw [Prog.ensures_bind_iff, execute_ensures_iff hinsert]
  refine .queryAny fun e => ?_
  change (moveEdges p node.id newId (shuffle e.tie ((db.edgesOf p).filter fun e =>
    e.source = node.id ∨ e.target = node.id)) >>= fun _ => g).Ensures exec Q _
  obtain ⟨edges, hedges⟩ : ∃ edges, edges = shuffle e.tie ((db.edgesOf p).filter fun e =>
    e.source = node.id ∨ e.target = node.id) := ⟨_, rfl⟩
  have hperm := shuffle_perm e.tie ((db.edgesOf p).filter fun e => e.source = node.id ∨ e.target = node.id)
  rw [← hedges] at hperm ⊢
  have hat : ∀ e ∈ edges, e ∈ db.edges ∧ e.personaId = p ∧ (e.source = node.id ∨ e.target = node.id) := by
    intro e he
    obtain ⟨he, hat⟩ := List.mem_filter.1 (hperm.mem_iff.1 he)
    obtain ⟨he, hp⟩ := List.mem_filter.1 he
    exact ⟨he, by simpa using hp, by simpa using hat⟩
  have hkeys : ((db.edges ++ edges.map fun e => e.moved node.id newId).map fun e => (e.source, e.target)).Nodup :=
    moved_keys db.sound hnew (fun e he => (hat e he).1) (fun e he => (hat e he).2.2)
      (hperm.nodup_iff.2 (((List.Nodup.of_map _ db.sound.edge_key).filter _).filter _))
  refine .bind ((@moveEdges_ensures K _ _ p node.id newId ⟨_, db.sound.addCopy config p hmem hnew now⟩ edges
    (fun e he => (hat e he).2.1) (fun e he => db.sound.strength e (hat e he).1)
    (fun e he => moved_ends (db.sound.ends e (hat e he).1)) hkeys).mono ?_)
  rintro r db' ⟨rfl, hdb'⟩
  exact hg edges db' hperm hdb'

theorem delete_ensures (config : MemoryCognitionConfig K) (ho : db.Owns p node.id) {a : Option ConsolidationResult} :
    (if config.deleteConsolidatedSources then do
        let _ ← deleteMemoryInternal p node.id
        return a
      else return a : MemProg K _).Ensures exec (fun r db' => match r with
      | .ok result => result = a ∧ (config.deleteConsolidatedSources = true → ¬ db.Foreign p node.id) ∧
          db'.toMemoryTables = db.toMemoryTables.without (if config.deleteConsolidatedSources then [node.id] else [])
      | .error _ => config.deleteConsolidatedSources = true ∧ db.Foreign p node.id) db := by
  by_cases hdelete : config.deleteConsolidatedSources = true
  · rw [if_pos hdelete, if_pos hdelete, Prog.ensures_bind_iff, deleteMemoryInternal_ensures_iff ho]
    split_ifs with hf
    · exact ⟨hdelete, hf⟩
    · exact ⟨rfl, fun _ => hf, rfl⟩
  · rw [if_neg hdelete, if_neg hdelete]
    exact ⟨rfl, fun h => absurd h hdelete, without_nil.symm⟩

/-- The memory has been consolidated into one of this identifier, or may not be deleted. -/
def ConsolidatedAs (config : MemoryCognitionConfig K) (p : String) (db : MemoryDb K) (node : MemoryRow K) (newId : String) :
    Except String (Option ConsolidationResult) → MemoryDb K → Prop
  | .ok result, db' => result = some ⟨node.id, newId, .semantic⟩ ∧
      (config.deleteConsolidatedSources = true → ¬ db.Foreign p node.id) ∧
      Consolidated config p db.toMemoryTables db'.toMemoryTables node newId
  | .error _, _ => config.deleteConsolidatedSources = true ∧ db.Foreign p node.id

/-- **One consolidation**, with an identifier that is new. -/
theorem consolidateMemory_produces {used : List String} (h : Eligible db p node) (hos : Fresh used os)
    (hused : ∀ y, (y ∈ db.nodes.map fun row => row.id) → y ∈ used) :
    (consolidateMemory config p node.id).Produces exec (fun r db' os' => match r with
      | .ok result => ∃ newId, newId ∉ used ∧ result = some ⟨node.id, newId, .semantic⟩ ∧
          (config.deleteConsolidatedSources = true → ¬ db.Foreign p node.id) ∧
          Consolidated config p db.toMemoryTables db'.toMemoryTables node newId ∧ Fresh (newId :: used) os'
      | .error _ => config.deleteConsolidatedSources = true ∧ db.Foreign p node.id) db os := by
  -- the memory is found, nothing is consolidated from it, and the clock and an identifier are read
  rw [consolidateMemory, memById, Prog.produces_query, h.byId]
  dsimp only
  rw [if_neg (not_not.2 h.kind)]
  rw [memConsolidatedFrom, Prog.produces_queryAny]
  dsimp only
  rw [h.none_from]
  dsimp only [Option.map_none]
  change (execute (.insert (node.consolidated config p (os 3).uuid (os 2).now)) >>= fun _ => _ : MemProg K _).Produces
    exec _ db fun n => os (n + 1 + 1 + 1 + 1)
  refine ((copy_ensures config h (fun hmem => hos.unused 3 (hused _ hmem)) (os 2).now
    (Q := ConsolidatedAs config p db node (os 3).uuid) fun edges db₂ hperm hdb₂ => ?_).produces
      fun n => os (n + 1 + 1 + 1 + 1)).mono ?_
  · have hmem := (List.mem_filter.1 h.mem).1
    have hown : db₂.Owns p node.id := by
      rw [hdb₂]
      exact ⟨node, List.mem_append_left _ hmem, rfl, by simpa using (List.mem_filter.1 h.mem).2⟩
    have hforeign : db₂.Foreign p node.id ↔ db.Foreign p node.id := by
      rw [hdb₂]
      refine foreign_extended fun e he => ?_
      obtain ⟨old, hold, rfl⟩ := List.mem_map.1 he
      have hp := (List.mem_filter.1 (List.mem_filter.1 (hperm.mem_iff.1 hold)).1).2
      exact of_decide_eq_true hp
    refine (delete_ensures config hown).mono fun r db' hr => ?_
    rw [hforeign] at hr
    cases r with
    | error e => exact hr
    | ok result =>
      obtain ⟨rfl, hfree, hdb'⟩ := hr
      refine ⟨rfl, hfree, (os 2).now, edges, hperm, ?_⟩
      rw [hdb', hdb₂]
      rfl
  · rintro r db' os' ⟨hr, k, rfl⟩
    cases r with
    | error e => exact hr
    | ok result =>
      obtain ⟨rfl, hfree, hdone⟩ := hr
      exact ⟨_, hos.unused 3, rfl, hfree, hdone, hos.after (show 3 < k + 4 by omega)⟩

end

/-! ## One after the other -/

def renamed (config : MemoryCognitionConfig K) (done : List ConsolidationResult) (x : String) : String :=
  if config.deleteConsolidatedSources then
    done.foldl (fun x r => if x = r.originalId then r.consolidatedId else x) x
  else x

/-- The edge as it is left. -/
def EdgeRow.renamed (config : MemoryCognitionConfig K) (done : List ConsolidationResult) (edge : EdgeRow K) : EdgeRow K :=
  { edge with source := Memory.renamed config done edge.source, target := Memory.renamed config done edge.target }

/-- **The invariant** of the loop. -/
structure Worked (config : MemoryCognitionConfig K) (p : String) (t₀ : MemoryTables K) (done : List ConsolidationResult)
    (t : MemoryTables K) : Prop where
  originals : (done.map fun r => r.originalId).Nodup
  distinct : (done.map fun r => r.consolidatedId).Nodup
  new : ∀ r ∈ done, r.consolidatedId ∉ t₀.nodes.map fun row => row.id
  copies : ∀ r ∈ done, r.newKind = .semantic ∧ ∃ node ∈ t₀.candidates config p, node.id = r.originalId ∧
    ∃ now, (node.consolidated config p r.consolidatedId now).forgetting (dropped config done) ∈ t.nodes
  old : ∀ row ∈ t₀.nodes, row.id ∉ dropped config done → row.forgetting (dropped config done) ∈ t.nodes
  only : ∀ row ∈ t.nodes,
    (∃ old ∈ t₀.nodes, old.id ∉ dropped config done ∧ row = old.forgetting (dropped config done)) ∨
      ∃ r ∈ done, ∃ node ∈ t₀.candidates config p, node.id = r.originalId ∧
        ∃ now, row = (node.consolidated config p r.consolidatedId now).forgetting (dropped config done)
  free : ∀ x ∈ dropped config done, ¬ t₀.Foreign p x
  others : ∀ e ∈ t₀.edges, e.personaId ≠ p → e ∈ t.edges
  foreign : ∀ x, t.Foreign p x → t₀.Foreign p x
  edges : ∀ e ∈ t₀.edgesOf p, e.renamed config done ∈ t.edges
  linked : config.deleteConsolidatedSources = false → ∀ r ∈ done, ∀ e ∈ t₀.edgesOf p,
    e.source = r.originalId ∨ e.target = r.originalId → e.moved r.originalId r.consolidatedId ∈ t.edges

variable {t₀ : MemoryTables K} {done : List ConsolidationResult} {r : ConsolidationResult}

theorem dropped_nil : dropped config [] = [] := by
  unfold dropped
  split <;> rfl

theorem dropped_append : dropped config (done ++ [r]) = dropped config done ++ dropped config [r] := by
  unfold dropped
  split
  · simp
  · rfl

theorem dropped_sub (h : x ∈ dropped config done) : x ∈ done.map fun r => r.originalId := by
  unfold dropped at h
  split at h
  · exact h
  · cases h

theorem Worked.start : Worked config p t [] t where
  originals := .nil
  distinct := .nil
  new := nofun
  copies := nofun
  old row hrow _ := by rwa [dropped_nil, forgetting_nil]
  only row hrow := .inl ⟨row, hrow, by rw [dropped_nil]; exact List.not_mem_nil, by rw [dropped_nil, forgetting_nil]⟩
  free x hx := by
    rw [dropped_nil] at hx
    cases hx
  others e he _ := he
  foreign _ h := h
  edges e he := by
    have hsame : ∀ x, renamed config [] x = x := fun x => by
      unfold renamed
      split <;> rfl
    rw [EdgeRow.renamed, hsame, hsame]
    exact (List.mem_filter.1 he).1
  linked _ := nofun

theorem mem_candidates (h : node ∈ t.candidates config p) : node ∈ t.nodesOf p ∧ node.kind = .episodic ∧
    node.consolidatedFrom = none ∧ ∀ other ∈ t.nodes, other.consolidatedFrom = some node.id → other.personaId ≠ p := by
  obtain ⟨hmem, hrest⟩ := List.mem_filter.1 h
  obtain ⟨hkind, -, -, hfrom, hnone⟩ := of_decide_eq_true hrest
  exact ⟨hmem, hkind, hfrom, fun other hother hc hp => hnone ⟨other, hother, hc, hp⟩⟩

theorem forgetting_of_none {ids : List String} (h : node.consolidatedFrom = none) : node.forgetting ids = node := by
  simp [MemoryRow.forgetting, h]

/-- The identifiers in the loop. -/
theorem Worked.ids (h : Worked config p t₀ done t) {y : String} (hy : y ∈ t.nodes.map fun row => row.id) :
    (y ∈ t₀.nodes.map fun row => row.id) ∨ y ∈ done.map fun r => r.consolidatedId := by
  obtain ⟨row, hrow, rfl⟩ := List.mem_map.1 hy
  rcases h.only row hrow with ⟨old, hold, -, rfl⟩ | ⟨r, hr, node, -, -, now, rfl⟩
  · exact .inl (by simpa using ⟨old, hold, rfl⟩)
  · exact .inr (by simpa using ⟨r, hr, rfl⟩)

theorem Worked.eligible (h : Worked config p t₀ done db.toMemoryTables) (hnode : node ∈ t₀.candidates config p)
    (hleft : node.id ∉ done.map fun r => r.originalId) : Eligible db p node := by
  obtain ⟨hmem, hkind, hfrom, hnone⟩ := mem_candidates hnode
  obtain ⟨hmem, hp⟩ := List.mem_filter.1 hmem
  have hold := h.old node hmem fun hd => hleft (dropped_sub hd)
  rw [forgetting_of_none hfrom] at hold
  refine ⟨List.mem_filter.2 ⟨hold, hp⟩, hkind, fun other hother hc => ?_⟩
  obtain ⟨hother, hp'⟩ := List.mem_filter.1 hother
  rcases h.only other hother with ⟨old, hold, -, rfl⟩ | ⟨r, hr, src, -, hsrc, now, rfl⟩
  · exact hnone old hold (forgetting_consolidatedFrom.1 hc).1 (by simpa using hp')
  · have hsame : src.id = node.id := Option.some.inj (forgetting_consolidatedFrom.1 hc).1
    exact hleft (List.mem_map.2 ⟨r, hr, hsrc.symm.trans hsame⟩)

theorem mem_without_edges {ids : List String} : edge ∈ (t.without ids).edges ↔
    edge ∈ t.edges ∧ edge.source ∉ ids ∧ edge.target ∉ ids := by
  simp [MemoryTables.without]

theorem mem_dropped_singleton : x ∈ dropped config [r] ↔ config.deleteConsolidatedSources = true ∧ x = r.originalId := by
  unfold dropped
  split_ifs with h <;> simp [h]

theorem renamed_append : renamed config (done ++ [r]) x =
    if config.deleteConsolidatedSources ∧ renamed config done x = r.originalId then r.consolidatedId
    else renamed config done x := by
  unfold renamed
  by_cases h : config.deleteConsolidatedSources = true
  · simp [h, List.foldl_append]
  · simp [h]

theorem Worked.edges_next (h : Worked config p t₀ done t) (hne : newId ≠ node.id)
    (hperm : edges.Perm ((t.edgesOf p).filter fun e => e.source = node.id ∨ e.target = node.id)) (copy : MemoryRow K)
    {e : EdgeRow K} (he : e ∈ t₀.edgesOf p) : e.renamed config (done ++ [⟨node.id, newId, .semantic⟩]) ∈
      ((t.extended copy (edges.map fun e => e.moved node.id newId)).without
        (dropped config [⟨node.id, newId, .semantic⟩])).edges := by
  have hold := h.edges e he
  have hp : (e.renamed config done).personaId = p := of_decide_eq_true (List.mem_filter.1 he).2
  rw [mem_without_edges]
  by_cases hdelete : config.deleteConsolidatedSources = true
  · have hsame : e.renamed config (done ++ [⟨node.id, newId, .semantic⟩]) = (e.renamed config done).moved node.id newId := by
      simp only [EdgeRow.renamed, EdgeRow.moved, renamed_append, hdelete, true_and]
      congr
    have hends : ∀ y : String, (if y = node.id then newId else y) ∉ dropped config [⟨node.id, newId, .semantic⟩] := by
      intro y hy
      rw [mem_dropped_singleton] at hy
      split_ifs at hy with hyn
      · exact hne hy.2
      · exact hyn hy.2
    refine ⟨?_, by rw [hsame]; exact ⟨hends _, hends _⟩⟩
    by_cases hat : (e.renamed config done).source = node.id ∨ (e.renamed config done).target = node.id
    · rw [hsame]
      refine List.mem_append_right _ (List.mem_map_of_mem (hperm.mem_iff.2 ?_))
      exact List.mem_filter.2 ⟨List.mem_filter.2 ⟨hold, by simpa using hp⟩, by simpa using hat⟩
    · have hstays : (e.renamed config done).moved node.id newId = e.renamed config done := by
        rw [not_or] at hat
        simp [EdgeRow.moved, hat.1, hat.2]
      rw [hsame, hstays]
      exact List.mem_append_left _ hold
  · have hsame : e.renamed config (done ++ [⟨node.id, newId, .semantic⟩]) = e.renamed config done := by
      simp [EdgeRow.renamed, renamed_append, hdelete]
    have hends : ∀ y, y ∉ dropped config [⟨node.id, newId, .semantic⟩] := fun y hy => hdelete (mem_dropped_singleton.1 hy).1
    exact ⟨hsame ▸ List.mem_append_left _ hold, hends _, hends _⟩

/-- **One more** memory is worked on. -/
theorem Worked.next (h : Worked config p t₀ done t) (hnode : node ∈ t₀.candidates config p)
    (hleft : node.id ∉ done.map fun r => r.originalId) (hnew : newId ∉ t₀.nodes.map fun row => row.id)
    (hnew' : newId ∉ done.map fun r => r.consolidatedId)
    (hfree : config.deleteConsolidatedSources = true → ¬ t.Foreign p node.id) (hc : Consolidated config p t t' node newId) :
    Worked config p t₀ (done ++ [⟨node.id, newId, .semantic⟩]) t' := by
  obtain ⟨now, edges, hperm, rfl⟩ := hc
  have hmem : node.id ∈ t₀.nodes.map fun row => row.id :=
    List.mem_map_of_mem (List.mem_filter.1 (mem_candidates hnode).1).1
  have hne : newId ≠ node.id := fun heq => hnew (heq ▸ hmem)
  have hkept : ∀ y, (y ∉ t₀.nodes.map fun row => row.id) → y ∉ dropped config [⟨node.id, newId, .semantic⟩] :=
    fun y hy hd => hy ((mem_dropped_singleton.1 hd).2 ▸ hmem)
  have hcopy : (node.consolidated config p newId now).forgetting (dropped config [⟨node.id, newId, .semantic⟩]) =
      (node.consolidated config p newId now).forgetting (dropped config (done ++ [⟨node.id, newId, .semantic⟩])) := by
    have hstays : (node.consolidated config p newId now).forgetting (dropped config done) =
        node.consolidated config p newId now := by
      rw [MemoryRow.forgetting, if_neg]
      rintro ⟨source, hsource, hd⟩
      obtain rfl := Option.some.inj hsource
      exact hleft (dropped_sub hd)
    rw [dropped_append, ← forgetting_forgetting, hstays]
  constructor
  · rw [List.map_append, List.nodup_append]
    refine ⟨h.originals, List.nodup_singleton _, fun a ha b hb heq => hleft ?_⟩
    rwa [heq, List.mem_singleton.1 hb] at ha
  · rw [List.map_append, List.nodup_append]
    refine ⟨h.distinct, List.nodup_singleton _, fun a ha b hb heq => hnew' ?_⟩
    rwa [heq, List.mem_singleton.1 hb] at ha
  · exact List.forall_mem_append.2 ⟨h.new, List.forall_mem_singleton.2 hnew⟩
  · refine List.forall_mem_append.2 ⟨fun r hr => ?_, List.forall_mem_singleton.2 ⟨rfl, node, hnode, rfl, now, ?_⟩⟩
    · obtain ⟨hkind, src, hsrc, hid, now', hold⟩ := h.copies r hr
      refine ⟨hkind, src, hsrc, hid, now', ?_⟩
      rw [dropped_append, ← forgetting_forgetting]
      refine mem_without_nodes.2 ⟨_, List.mem_append_left _ hold, ?_, rfl⟩
      rw [forgetting_id]
      exact hkept _ (h.new r hr)
    · rw [← hcopy]
      exact mem_without_nodes.2 ⟨_, List.mem_append_right _ (List.mem_singleton_self _), hkept _ hnew, rfl⟩
  · intro row hrow hd
    rw [dropped_append, List.mem_append, not_or] at hd
    rw [dropped_append, ← forgetting_forgetting]
    exact mem_without_nodes.2 ⟨_, List.mem_append_left _ (h.old row hrow hd.1), by simpa using hd.2, rfl⟩
  · intro row hrow
    obtain ⟨old, hold, hd, rfl⟩ := mem_without_nodes.1 hrow
    rcases List.mem_append.1 hold with hold | hcopied
    · rcases h.only old hold with ⟨first, hfirst, hd', rfl⟩ | ⟨r, hr, src, hsrc, hid, now', rfl⟩
      · refine .inl ⟨first, hfirst, ?_, by rw [dropped_append, forgetting_forgetting]⟩
        rw [dropped_append, List.mem_append, not_or]
        exact ⟨hd', by simpa using hd⟩
      · exact .inr ⟨r, List.mem_append_left _ hr, src, hsrc, hid, now', by rw [dropped_append, forgetting_forgetting]⟩
    · rw [List.mem_singleton.1 hcopied, hcopy]
      exact .inr ⟨_, List.mem_append_right _ (List.mem_singleton_self _), node, hnode, rfl, now, rfl⟩
  · intro x hx
    rw [dropped_append, List.mem_append] at hx
    rcases hx with hx | hx
    · exact h.free x hx
    · obtain ⟨hdelete, rfl⟩ := mem_dropped_singleton.1 hx
      rintro ⟨e, he, hp, hend⟩
      exact hfree hdelete ⟨e, h.others e he hp, hp, hend⟩
  · intro e he hp
    have hends : ∀ y, e.source = y ∨ e.target = y → y ∉ dropped config [⟨node.id, newId, .semantic⟩] := by
      intro y hy hd
      obtain ⟨hdelete, rfl⟩ := mem_dropped_singleton.1 hd
      exact hfree hdelete ⟨e, h.others e he hp, hp, hy⟩
    exact mem_without_edges.2 ⟨List.mem_append_left _ (h.others e he hp), hends _ (.inl rfl), hends _ (.inr rfl)⟩
  · rintro x ⟨e, he, hp, hend⟩
    rcases List.mem_append.1 (mem_without_edges.1 he).1 with hold | hmoved
    · exact h.foreign x ⟨e, hold, hp, hend⟩
    · obtain ⟨old, hold, rfl⟩ := List.mem_map.1 hmoved
      exact absurd (of_decide_eq_true (List.mem_filter.1 (List.mem_filter.1 (hperm.mem_iff.1 hold)).1).2) hp
  · exact fun e he => h.edges_next hne hperm _ he
  · intro hdelete
    have hstays : ∀ e ∈ (t.extended (node.consolidated config p newId now) (edges.map fun e => e.moved node.id newId)).edges,
        e ∈ ((t.extended (node.consolidated config p newId now) (edges.map fun e => e.moved node.id newId)).without
          (dropped config [⟨node.id, newId, .semantic⟩])).edges := by
      intro e he
      have hends : ∀ y, y ∉ dropped config [⟨node.id, newId, .semantic⟩] := fun y hy => by
        simp [(mem_dropped_singleton.1 hy).1] at hdelete
      exact mem_without_edges.2 ⟨he, hends _, hends _⟩
    refine List.forall_mem_append.2 ⟨fun r hr e he hat => ?_, List.forall_mem_singleton.2 fun e he hat => ?_⟩
    · exact hstays _ (List.mem_append_left _ (h.linked hdelete r hr e he hat))
    · have hsame : e.renamed config done = e := by simp [EdgeRow.renamed, Memory.renamed, hdelete]
      have hold := h.edges e he
      rw [hsame] at hold
      refine hstays _ (List.mem_append_right _ (List.mem_map_of_mem (hperm.mem_iff.2 ?_)))
      exact List.mem_filter.2 ⟨List.mem_filter.2 ⟨hold, (List.mem_filter.1 he).2⟩, by simpa using hat⟩

section
variable [IsStrictOrderedRing K]

/-- **The loop.** -/
theorem consolidateEach_produces {used : List String} (nodes : List (MemoryRow K))
    (hnodes : ∀ node ∈ nodes, node ∈ t₀.candidates config p)
    (hnodup : ((done.map fun r => r.originalId) ++ nodes.map fun node => node.id).Nodup)
    (hw : Worked config p t₀ done db.toMemoryTables) (hos : Fresh used os)
    (hused : ∀ y, (y ∈ t₀.nodes.map fun row => row.id) ∨ (y ∈ done.map fun r => r.consolidatedId) → y ∈ used) :
    (consolidateEach config p (nodes.map fun node => node.id)).Produces exec (fun r db' _ => match r with
      | .ok results => Worked config p t₀ (done ++ results) db'.toMemoryTables ∧
          (results.map fun r => r.originalId) = nodes.map fun node => node.id
      | .error _ => config.deleteConsolidatedSources = true ∧ ∃ node ∈ nodes, t₀.Foreign p node.id) db os := by
  induction nodes generalizing db done used os with
  | nil => exact ⟨by simpa using hw, rfl⟩
  | cons node nodes ih =>
    obtain ⟨hnode, hrest⟩ := List.forall_mem_cons.1 hnodes
    have hleft : node.id ∉ done.map fun r => r.originalId := by
      rw [List.nodup_append] at hnodup
      exact fun hmem => hnodup.2.2 _ hmem _ (List.mem_map_of_mem List.mem_cons_self) rfl
    rw [List.map_cons, consolidateEach]
    refine .bind ((consolidateMemory_produces (hw.eligible hnode hleft) hos fun y hy => hused y (hw.ids hy)).mono ?_)
    rintro r db' os' hr
    cases r with
    | error e =>
      exact ⟨hr.1, node, List.mem_cons_self, hw.foreign _ hr.2⟩
    | ok result =>
      obtain ⟨newId, hnew, rfl, hfree, hdone, hos'⟩ := hr
      have hnext := hw.next hnode hleft (fun hmem => hnew (hused _ (.inl hmem))) (fun hmem => hnew (hused _ (.inr hmem)))
        hfree hdone
      have hnodup' : (((done ++ [(⟨node.id, newId, .semantic⟩ : ConsolidationResult)]).map fun r => r.originalId) ++
          nodes.map fun node => node.id).Nodup := by simpa using hnodup
      refine .bind ((ih hrest hnodup' hnext hos' fun y hy => ?_).mono ?_)
      · rcases hy with hy | hy
        · exact List.mem_cons_of_mem _ (hused y (.inl hy))
        · rw [List.map_append, List.mem_append] at hy
          rcases hy with hy | hy
          · exact List.mem_cons_of_mem _ (hused y (.inr hy))
          · exact List.mem_cons.2 (.inl (List.mem_singleton.1 hy))
      · rintro r db'' os'' hr
        cases r with
        | error e =>
          obtain ⟨hdelete, other, hother, hforeign⟩ := hr
          exact ⟨hdelete, other, List.mem_cons_of_mem _ hother, hforeign⟩
        | ok results =>
          obtain ⟨hworked, hids⟩ := hr
          refine ⟨by simpa using hworked, ?_⟩
          rw [Option.toList_some, List.singleton_append, List.map_cons, hids]

end

/-! ## All of them -/

theorem foldl_of_not_mem (h : x ∉ done.map fun r => r.originalId) :
    done.foldl (fun x r => if x = r.originalId then r.consolidatedId else x) x = x := by
  induction done with
  | nil => rfl
  | cons r done ih =>
    rw [List.map_cons, List.mem_cons, not_or] at h
    rw [List.foldl_cons, if_neg h.1, ih h.2]

theorem foldl_of_mem (hnodup : (done.map fun r => r.originalId).Nodup)
    (hnew : ∀ r ∈ done, r.consolidatedId ∉ done.map fun r => r.originalId) (hr : r ∈ done) :
    done.foldl (fun x r => if x = r.originalId then r.consolidatedId else x) r.originalId = r.consolidatedId := by
  induction done with
  | nil => cases hr
  | cons first done ih =>
    rw [List.map_cons, List.nodup_cons] at hnodup
    rw [List.foldl_cons]
    rcases List.mem_cons.1 hr with rfl | hr
    · rw [if_pos rfl]
      exact foldl_of_not_mem fun hmem => hnew r List.mem_cons_self (List.mem_cons_of_mem _ hmem)
    · have hne : r.originalId ≠ first.originalId := fun heq => hnodup.1 (List.mem_map.2 ⟨r, hr, heq⟩)
      rw [if_neg hne]
      exact ih hnodup.2 (fun r' hr' hmem => hnew r' (List.mem_cons_of_mem _ hr') (List.mem_cons_of_mem _ hmem)) hr

/-- What stands in the place of a memory in the edges that are left. -/
theorem stands_renamed (hdelete : config.deleteConsolidatedSources = true)
    (hnodup : (done.map fun r => r.originalId).Nodup)
    (hnew : ∀ r ∈ done, r.consolidatedId ∉ done.map fun r => r.originalId) (hr : r ∈ done) :
    Stands config done r x (renamed config done x) := by
  unfold Stands renamed dropped
  rw [if_pos hdelete, if_pos hdelete]
  split_ifs with hx hd
  · rw [hx]
    exact foldl_of_mem hnodup hnew hr
  · obtain ⟨r', hr', rfl⟩ := List.mem_map.1 hd
    exact ⟨r', hr', rfl, (foldl_of_mem hnodup hnew hr').symm⟩
  · exact foldl_of_not_mem hd

theorem renamed_of_not_dropped (h : x ∉ dropped config done) : renamed config done x = x := by
  unfold renamed
  split_ifs with hdelete
  · unfold dropped at h
    rw [if_pos hdelete] at h
    exact foldl_of_not_mem h
  · rfl

theorem Worked.copy_ne (h : Worked config p t₀ done t) (hr : r ∈ done) :
    r.consolidatedId ∉ done.map fun r => r.originalId := by
  intro hmem
  obtain ⟨r', hr', heq⟩ := List.mem_map.1 hmem
  obtain ⟨-, node, hnode, hid, -⟩ := h.copies r' hr'
  refine h.new r hr ?_
  rw [← heq, ← hid]
  exact List.mem_map_of_mem (List.mem_filter.1 (mem_candidates hnode).1).1

/-- **What the loop leaves.** -/
theorem Worked.consolidates (h : Worked config p t₀ done t)
    (hall : (done.map fun r => r.originalId).Perm ((t₀.candidates config p).map fun row => row.id)) :
    Consolidates config p t₀ t done where
  each := hall
  distinct := h.distinct
  copies r hr := by
    obtain ⟨hkind, node, hnode, hid, now, hcopy⟩ := h.copies r hr
    refine ⟨hkind, node, hnode, hid, _, List.mem_filter.2 ⟨hcopy, ?_⟩, ?_, ?_⟩
    · simp [MemoryRow.consolidated]
    · rw [forgetting_id]
      rfl
    · simp [MemoryRow.CopyOf, MemoryRow.consolidated]
  memories x := by
    constructor
    · intro hx
      obtain ⟨row, hrow, rfl⟩ := List.mem_map.1 hx
      rcases h.only row hrow with ⟨old, hold, hd, rfl⟩ | ⟨r, hr, node, -, -, now, rfl⟩
      · rw [forgetting_id]
        exact .inl ⟨List.mem_map_of_mem hold, hd⟩
      · rw [forgetting_id]
        exact .inr ⟨h.new r hr, List.mem_map_of_mem hr⟩
    · rintro (⟨hx, hd⟩ | ⟨-, hx⟩)
      · obtain ⟨row, hrow, rfl⟩ := List.mem_map.1 hx
        exact List.mem_map.2 ⟨_, h.old row hrow hd, forgetting_id⟩
      · obtain ⟨r, hr, rfl⟩ := List.mem_map.1 hx
        obtain ⟨-, node, -, -, now, hcopy⟩ := h.copies r hr
        exact List.mem_map.2 ⟨_, hcopy, forgetting_id⟩
  edges e he hs ht := by
    by_cases hp : e.personaId = p
    · have hleft := h.edges e (List.mem_filter.2 ⟨he, by simpa using hp⟩)
      rwa [EdgeRow.renamed, renamed_of_not_dropped hs, renamed_of_not_dropped ht] at hleft
    · exact h.others e he hp
  counterparts r hr e he hat := by
    have hp := (List.mem_filter.1 he).2
    by_cases hdelete : config.deleteConsolidatedSources = true
    · have hstands : ∀ x, Stands config done r x (renamed config done x) := fun x =>
        stands_renamed hdelete h.originals (fun r' hr' => h.copy_ne hr') hr
      exact ⟨e.renamed config done, List.mem_filter.2 ⟨h.edges e he, hp⟩, rfl, rfl, hstands _, hstands _⟩
    · have hlinked := h.linked (by simpa using hdelete) r hr e he hat
      have hstands : ∀ x, Stands config done r x (if x = r.originalId then r.consolidatedId else x) := by
        intro x
        unfold Stands dropped
        rw [if_neg hdelete]
        split_ifs <;> first | rfl | contradiction
      exact ⟨_, List.mem_filter.2 ⟨hlinked, hp⟩, rfl, rfl, hstands _, hstands _⟩

/-- **Nothing is left to do.** -/
theorem Worked.candidates_nil (h : Worked config p t₀ done t) (hs : Constraints t₀)
    (hall : ∀ node ∈ t₀.candidates config p, node.id ∈ done.map fun r => r.originalId) : t.candidates config p = [] := by
  refine List.eq_nil_iff_forall_not_mem.2 fun row hrow => ?_
  obtain ⟨hmem, hkind, hfrom, hnone⟩ := mem_candidates hrow
  obtain ⟨hmem, hp⟩ := List.mem_filter.1 hmem
  have hp := of_decide_eq_true hp
  rcases h.only row hmem with ⟨old, hold, hd, rfl⟩ | ⟨r, -, node, -, -, now, rfl⟩
  · by_cases hcand : old ∈ t₀.candidates config p
    · -- it was a candidate, so it is deleted or there is a copy of it
      obtain ⟨r, hr, hid⟩ := List.mem_map.1 (hall old hcand)
      by_cases hdelete : config.deleteConsolidatedSources = true
      · refine hd ?_
        rw [dropped, if_pos hdelete, ← hid]
        exact List.mem_map_of_mem hr
      · obtain ⟨-, node, -, hid', now, hcopy⟩ := h.copies r hr
        have hnil : dropped config done = [] := by rw [dropped, if_neg hdelete]
        rw [hnil, forgetting_nil] at hcopy
        refine hnone _ hcopy ?_ rfl
        rw [forgetting_id, ← hid, ← hid']
        rfl
    · -- it was none, and what kept it from being one is still there
      refine hcand (List.mem_filter.2 ⟨List.mem_filter.2 ⟨hold, by simpa using hp⟩, ?_⟩)
      obtain ⟨-, hrest⟩ := List.mem_filter.1 hrow
      obtain ⟨-, haccess, hsalience, -, -⟩ := of_decide_eq_true hrest
      refine decide_eq_true ⟨by simpa using hkind, by simpa using haccess, by simpa using hsalience, ?_, ?_⟩
      · cases hc : old.consolidatedFrom with
        | none => rfl
        | some source =>
          have hsource : source ∈ dropped config done := by
            by_contra hnot
            rw [forgetting_consolidatedFrom.2 ⟨hc, hnot⟩] at hfrom
            cases hfrom
          obtain ⟨r, hr, rfl⟩ := List.mem_map.1 (dropped_sub hsource)
          obtain ⟨-, node, hnode, hid, -⟩ := h.copies r hr
          exact absurd (by simpa using hp) ((mem_candidates hnode).2.2.2 old hold (hid ▸ hc))
      · rintro ⟨other, hother, hc, hpo⟩
        have hkeep : other.id ∉ dropped config done := by
          intro hdo
          obtain ⟨r, hr, hid⟩ := List.mem_map.1 (dropped_sub hdo)
          obtain ⟨-, node, hnode, hid', -⟩ := h.copies r hr
          obtain ⟨hnmem, -, hnfrom, -⟩ := mem_candidates hnode
          have hsame : node = other := hs.node_eq (List.mem_filter.1 hnmem).1 hother (hid'.trans hid)
          rw [hsame, hc] at hnfrom
          cases hnfrom
        refine hnone _ (h.old other hother hkeep) ?_ (by simpa using hpo)
        rw [forgetting_id]
        exact forgetting_consolidatedFrom.2 ⟨hc, hd⟩
  · simp [MemoryRow.consolidated] at hkind

theorem consolidateAll_ensures_nil (h : db.toMemoryTables.candidates config p = []) (os : ℕ → Env K) :
    (consolidateAll config p).solo exec os db = (db, .ok []) := by
  change (consolidateEach config p ((shuffle (os 0).tie (db.toMemoryTables.candidates config p)).map fun row => row.id)).solo
    exec (fun n => os (n + 1)) db = _
  rw [h]
  rfl

section
variable [IsStrictOrderedRing K]

theorem consolidateAll_solo (config : MemoryCognitionConfig K) (p : String) (db : MemoryDb K) (os : FreshUuids db) :
    (∃ results, ((consolidateAll config p).solo exec os.oracle db).2 = .ok results ∧
      Worked config p db.toMemoryTables results ((consolidateAll config p).solo exec os.oracle db).1.toMemoryTables ∧
      (results.map fun r => r.originalId).Perm ((db.toMemoryTables.candidates config p).map fun row => row.id)) ∨
    ((∃ e, ((consolidateAll config p).solo exec os.oracle db).2 = .error e) ∧ config.deleteConsolidatedSources = true ∧
      ∃ node ∈ db.toMemoryTables.candidates config p, db.Foreign p node.id) := by
  have hperm := shuffle_perm (os.oracle 0).tie (db.toMemoryTables.candidates config p)
  have hsolo : (consolidateAll config p).solo exec os.oracle db =
      (consolidateEach config p ((shuffle (os.oracle 0).tie (db.toMemoryTables.candidates config p)).map
        fun row => row.id)).solo exec (fun n => os.oracle (n + 1)) db := rfl
  have hnodup : ((([] : List ConsolidationResult).map fun r => r.originalId) ++
      (shuffle (os.oracle 0).tie (db.toMemoryTables.candidates config p)).map fun row => row.id).Nodup :=
    (hperm.map fun row : MemoryRow K => row.id).nodup_iff.2 ((List.filter_sublist.map _).nodup nodesOf_nodup)
  have hfresh : Fresh (db.nodes.map fun row => row.id) fun n => os.oracle (n + 1) :=
    ⟨fun n => os.fresh.unused (n + 1), fun _ _ hab => Nat.add_right_cancel (os.fresh.distinct hab)⟩
  have hrun := (consolidateEach_produces (shuffle (os.oracle 0).tie (db.toMemoryTables.candidates config p))
    (fun node hnode => mem_shuffle.1 hnode) hnodup Worked.start hfresh
    fun y hy => hy.resolve_right List.not_mem_nil).solo
  rw [hsolo]
  generalize Prog.solo exec _ _ db = done at hrun ⊢
  obtain ⟨db', r⟩ := done
  cases r with
  | ok results =>
    obtain ⟨hworked, hids⟩ := hrun
    exact .inl ⟨results, rfl, hworked, by rw [hids]; exact hperm.map fun row => row.id⟩
  | error e =>
    obtain ⟨hdelete, node, hnode, hforeign⟩ := hrun
    exact .inr ⟨⟨e, rfl⟩, hdelete, node, mem_shuffle.1 hnode, hforeign⟩

/-- Identifiers that are longer than all that are used, no two of the same length. -/
def FreshUuids.longer (db : MemoryDb K) : FreshUuids db where
  oracle n := ⟨0, String.ofList (List.replicate (((db.nodes.map fun row => row.id).map String.length).sum + 1 + n) 'x'), 0⟩
  fresh := by
    refine ⟨fun n hmem => ?_, fun a b hab => ?_⟩
    · have hle := List.single_le_sum (fun _ _ => Nat.zero_le _) _ (List.mem_map_of_mem (f := String.length) hmem)
      rw [String.length_ofList, List.length_replicate] at hle
      omega
    · have hlength := congrArg String.length hab
      simp only [String.length_ofList, List.length_replicate] at hlength
      omega

/-- **Consolidation loses nothing and duplicates nothing**, unless it is to delete a memory in which an edge of another
persona ends. -/
theorem consolidateAll_iff (config : MemoryCognitionConfig K) (p : String) (db : MemoryDb K) :
    (∀ os : FreshUuids db, ConsolidatesAll config p db ((consolidateAll config p).solo exec os.oracle db).2
        ((consolidateAll config p).solo exec os.oracle db).1) ↔
      (config.deleteConsolidatedSources = true →
        ∀ node ∈ db.toMemoryTables.candidates config p, ¬ db.Foreign p node.id) := by
  constructor
  · intro h hdelete node hnode hforeign
    rcases consolidateAll_solo config p db (.longer db) with ⟨results, -, hworked, hperm⟩ | ⟨⟨e, he⟩, -⟩
    · refine hworked.free node.id ?_ hforeign
      rw [dropped, if_pos hdelete]
      exact hperm.mem_iff.2 (List.mem_map_of_mem hnode)
    · obtain ⟨results, hok, -⟩ := h (.longer db)
      rw [he] at hok
      cases hok
  · intro hfree os
    rcases consolidateAll_solo config p db os with ⟨results, hok, hworked, hperm⟩ | ⟨-, hdelete, node, hnode, hforeign⟩
    · refine ⟨results, hok, hworked.consolidates hperm, consolidateAll_ensures_nil ?_⟩
      exact hworked.candidates_nil db.sound fun node hnode => hperm.mem_iff.2 (List.mem_map_of_mem hnode)
    · exact absurd hforeign (hfree hdelete node hnode)

end

/-! ## Two neighbours -/

/-- Two memories with edges in both directions, and an edge of the given persona from the first to itself. -/
def neighbours (linker : String) : MemoryDb ℚ where
  nodes :=
    [⟨⟨"a", .episodic, "", 0, 1 / 2, 0, 0, 5, 1, 0, none⟩, "p"⟩,
      ⟨⟨"b", .episodic, "", 0, 1 / 2, 0, 0, 5, 1, 0, none⟩, "p"⟩]
  edges := [⟨⟨"a", "b", 1 / 2, "then"⟩, "p"⟩, ⟨⟨"b", "a", 1, "before"⟩, "p"⟩, ⟨⟨"a", "a", 1, "self"⟩, linker⟩]
  slots := []
  sound := by
    constructor <;> norm_num
    · decide
    · exact nofun
    · decide

/-- Both are consolidated, with all their edges. -/
theorem consolidateAll_iff_neighbours : ConsolidatesAll DEFAULT_COGNITION_CONFIG "p" (neighbours "p")
    ((consolidateAll DEFAULT_COGNITION_CONFIG "p").solo exec (FreshUuids.longer (neighbours "p")).oracle (neighbours "p")).2
    ((consolidateAll DEFAULT_COGNITION_CONFIG "p").solo exec (FreshUuids.longer (neighbours "p")).oracle
      (neighbours "p")).1 :=
  (consolidateAll_iff DEFAULT_COGNITION_CONFIG "p" (neighbours "p")).2 (fun _ => by decide +kernel) _

/-- An edge of another persona holds a memory, and none is consolidated. -/
theorem held_memory_not_consolidated : ¬ ∀ (config : MemoryCognitionConfig ℚ) (p : String) (db : MemoryDb ℚ)
    (os : FreshUuids db), ConsolidatesAll config p db ((consolidateAll config p).solo exec os.oracle db).2
      ((consolidateAll config p).solo exec os.oracle db).1 := by
  intro h
  obtain ⟨results, hok, -⟩ := h DEFAULT_COGNITION_CONFIG "p" (neighbours "q") (.longer _)
  have hfails : ((consolidateAll DEFAULT_COGNITION_CONFIG "p").solo exec (FreshUuids.longer (neighbours "q")).oracle
      (neighbours "q")).2.toBool = false := by decide +kernel
  rw [hok] at hfails
  cases hfails

end ChronoSynth.Memory

import ChronoSynth.Lib.Layers
import ChronoSynth.Memory.MemoryService

/-!
# Related memories

`getRelatedMemories` lists the memories near one of a persona's: those that a path of a few edges leads to. It goes out
from the memory layer by layer, with one query for the edges of a whole frontier. An edge both of whose ends are in the
frontier is taken from its source, which is harmless: its target has been seen as well.

What it lists is the **ball** around the memory (`Ball`): every existing memory within the distance once, the nearer
ones first, where a path leads over existing memories.
-/

set_option linter.unusedSectionVars false

namespace ChronoSynth.Memory

variable {K : Type} [Field K] [LinearOrder K]

/-! ## The search -/

def memEdgesForNodes (ids : List String) (personaId : String) : MemProg K (List (EdgeRow K)) :=
  Prog.queryAny fun e db =>
    if ids.length = 0 then []
    else shuffle e.tie ((db.edgesOf personaId).filter fun edge => edge.source ∈ ids ∨ edge.target ∈ ids)

/-- What the callers of the service see of a memory. -/
def MemoryRow.decrypted (ports : MemoryPorts K) (row : MemoryRow K) : MemoryNode K :=
  { row.toMemoryNode with content := ports.decrypt row.content }

def getMemoryBatch (ports : MemoryPorts K) (personaId : String) (ids : List String) :
    MemProg K (List (MemoryNode K)) := do
  if ids.length = 0 then return []
  else
    let nodes ← memBatch ids personaId
    return nodes.map fun n => n.decrypted ports

/-- The loop over the edges of a frontier, with the nodes that have been visited and the neighbours found. -/
def collectNeighbors (frontier : List String) : List (EdgeRow K) → List String × List String → List String × List String
  | [], found => found
  | edge :: edges, (visited, neighborIds) =>
    let nodeId := if edge.source ∈ frontier then edge.target else edge.source
    if nodeId ∈ visited then collectNeighbors frontier edges (visited, neighborIds)
    else collectNeighbors frontier edges (visited ++ [nodeId], neighborIds ++ [nodeId])

/-- The loop over the depths, of which `rounds` are left. -/
def relatedRounds (ports : MemoryPorts K) (personaId : String) :
    ℕ → List String → List String → List (MemoryNode K) → MemProg K (List (MemoryNode K))
  | 0, _, _, related => return related
  | rounds + 1, visited, frontier, related => do
    if frontier.length = 0 then return related
    else
      let edges ← memEdgesForNodes frontier personaId
      let (visited, neighborIds) := collectNeighbors frontier edges (visited, [])
      let memories ← getMemoryBatch ports personaId neighborIds
      let found := neighborIds.filterMap fun nid => memories.find? fun mem => mem.id = nid
      relatedRounds ports personaId rounds visited (found.map fun mem => mem.id) (related ++ found)

def getRelatedMemories (ports : MemoryPorts K) (personaId id : String) (maxDepth : ℕ) :
    MemProg K (List (MemoryNode K)) :=
  relatedRounds ports personaId maxDepth [id] [id] []

/-! ## The ball -/

/-- An edge of the persona joins the two. -/
def MemoryTables.Joined (t : MemoryTables K) (personaId a b : String) : Prop :=
  ∃ edge ∈ t.edgesOf personaId, edge.source = a ∧ edge.target = b ∨ edge.source = b ∧ edge.target = a

/-- A path of `n` edges leads from one to the other over memories of the persona. -/
def MemoryTables.Near (t : MemoryTables K) (personaId id : String) (n : ℕ) (x : String) : Prop :=
  Reaches (t.Joined personaId) (t.Owns personaId) id n x

structure Ball (ports : MemoryPorts K) (t : MemoryTables K) (personaId id : String) (radius : ℕ)
    (related : List (MemoryNode K)) : Prop where
  once : (related.map fun mem => mem.id).Nodup
  mem : ∀ x, (x ∈ related.map fun mem => mem.id) ↔ x ≠ id ∧ t.Owns personaId x ∧ ∃ n ≤ radius, t.Near personaId id n x
  stored : ∀ mem ∈ related, ∃ row ∈ t.nodesOf personaId, mem = row.decrypted ports
  nearer : related.Pairwise fun a b => ∀ n, t.Near personaId id n b.id → ∃ m ≤ n, t.Near personaId id m a.id

variable {ports : MemoryPorts K} {personaId id : String} {db : MemoryDb K}

/-! ## One round -/

/-- The end of an edge that a frontier is extended by. -/
def EdgeRow.beyond (frontier : List String) (edge : EdgeRow K) : String :=
  if edge.source ∈ frontier then edge.target else edge.source

theorem collectNeighbors_spec {frontier : List String} (edges : List (EdgeRow K)) (visited found : List String) :
    ∃ fresh, collectNeighbors frontier edges (visited, found) = (visited ++ fresh, found ++ fresh) ∧ fresh.Nodup ∧
      ∀ x, x ∈ fresh ↔ x ∉ visited ∧ ∃ edge ∈ edges, edge.beyond frontier = x := by
  induction edges generalizing visited found with
  | nil => exact ⟨[], by simp [collectNeighbors], .nil, by simp⟩
  | cons edge edges ih =>
    rw [collectNeighbors]
    change ∃ fresh, (if edge.beyond frontier ∈ visited then _ else collectNeighbors frontier edges
      (visited ++ [edge.beyond frontier], found ++ [edge.beyond frontier])) = _ ∧ _
    split_ifs with hseen
    · obtain ⟨fresh, heq, hnodup, hmem⟩ := ih visited found
      refine ⟨fresh, heq, hnodup, fun x => ?_⟩
      rw [hmem, List.exists_mem_cons_iff]
      refine and_congr_right fun hx => (or_iff_right ?_).symm
      rintro rfl
      exact hx hseen
    · obtain ⟨fresh, heq, hnodup, hmem⟩ := ih (visited ++ [edge.beyond frontier]) (found ++ [edge.beyond frontier])
      refine ⟨edge.beyond frontier :: fresh, by simpa using heq, List.nodup_cons.2 ⟨fun h => ?_, hnodup⟩, fun x => ?_⟩
      · exact ((hmem _).1 h).1 (List.mem_append_right _ (List.mem_singleton_self _))
      · rw [List.mem_cons, hmem, List.exists_mem_cons_iff, List.mem_append, List.mem_singleton, not_or]
        by_cases hx : x = edge.beyond frontier
        · subst hx
          simp [hseen]
        · simp [hx, Ne.symm hx]

theorem beyond_iff {t : MemoryTables K} {frontier visited : List String} (hsub : ∀ x ∈ frontier, x ∈ visited) {x : String}
    (hx : x ∉ visited) {edges : List (EdgeRow K)}
    (hedges : ∀ edge, edge ∈ edges ↔ edge ∈ t.edgesOf personaId ∧ (edge.source ∈ frontier ∨ edge.target ∈ frontier)) :
    (∃ edge ∈ edges, edge.beyond frontier = x) ↔ ∃ b ∈ frontier, t.Joined personaId b x := by
  constructor
  · rintro ⟨edge, hmem, rfl⟩
    obtain ⟨hmem, hend⟩ := (hedges edge).1 hmem
    unfold EdgeRow.beyond
    split_ifs with hsource
    · exact ⟨edge.source, hsource, edge, hmem, .inl ⟨rfl, rfl⟩⟩
    · exact ⟨edge.target, hend.resolve_left hsource, edge, hmem, .inr ⟨rfl, rfl⟩⟩
  · rintro ⟨b, hb, edge, hmem, ⟨rfl, rfl⟩ | ⟨rfl, rfl⟩⟩
    · exact ⟨edge, (hedges edge).2 ⟨hmem, .inl hb⟩, if_pos hb⟩
    · exact ⟨edge, (hedges edge).2 ⟨hmem, .inr hb⟩, if_neg fun h => hx (hsub _ h)⟩

/-- The memory with the identifier, as callers see it. -/
def MemoryTables.memory (t : MemoryTables K) (ports : MemoryPorts K) (personaId x : String) : Option (MemoryNode K) :=
  ((t.nodesOf personaId).find? fun row => row.id = x).map fun row => row.decrypted ports

theorem memory_some {t : MemoryTables K} {x : String} {mem : MemoryNode K} (h : t.memory ports personaId x = some mem) :
    mem.id = x ∧ ∃ row ∈ t.nodesOf personaId, mem = row.decrypted ports := by
  obtain ⟨row, hrow, rfl⟩ := Option.map_eq_some_iff.1 h
  exact ⟨by simpa [MemoryRow.decrypted] using List.find?_some hrow, row, List.mem_of_find?_eq_some hrow, rfl⟩

theorem memory_isSome {t : MemoryTables K} {x : String} : (t.memory ports personaId x).isSome ↔ t.Owns personaId x := by
  simp [MemoryTables.memory, MemoryTables.Owns, MemoryTables.nodesOf, and_comm]

theorem find_batch {t : MemoryTables K} {ids : List String} {x : String} (hx : x ∈ ids) :
    ((((t.nodesOf personaId).filter fun row => row.id ∈ ids).map fun row => row.decrypted ports).find? fun mem =>
      mem.id = x) = t.memory ports personaId x := by
  rw [List.find?_map, List.find?_filter, MemoryTables.memory]
  congr 2
  funext row
  by_cases h : row.id = x <;> simp [MemoryRow.decrypted, h, hx]

theorem ids_found {t : MemoryTables K} (fresh : List String) :
    (fresh.filterMap fun x => t.memory ports personaId x).map (fun mem => mem.id) =
      fresh.filter fun x => t.Owns personaId x := by
  induction fresh with
  | nil => rfl
  | cons x fresh ih =>
    cases h : t.memory ports personaId x with
    | none =>
      have hnot : ¬ t.Owns personaId x := by
        rw [← @memory_isSome _ _ _ ports, h]
        nofun
      simp [h, ih, hnot]
    | some mem =>
      have ho : t.Owns personaId x := memory_isSome.1 (by rw [h]; rfl)
      simp [h, ih, ho, (memory_some h).1]

/-! ## The whole search -/

theorem Ball.zero {t : MemoryTables K} : Ball ports t personaId id 0 [] := by
  refine ⟨.nil, fun x => ⟨nofun, ?_⟩, nofun, .nil⟩
  rintro ⟨hx, -, n, hn, hnear⟩
  obtain rfl := Nat.le_zero.1 hn
  exact absurd (reaches_zero.1 hnear) hx

/-- **The round**: the ball grows by the existing memories among the neighbours of the last layer. -/
theorem Ball.next {t : MemoryTables K} {d : ℕ} {seen frontier fresh : List String} {related found : List (MemoryNode K)}
    (h : Ball ports t personaId id d related)
    (hlayer : Layer (t.Joined personaId) (t.Owns personaId) id d seen frontier) (hnodup : fresh.Nodup)
    (hfresh : ∀ x, x ∈ fresh ↔ x ∉ seen ∧ ∃ b ∈ frontier, t.Joined personaId b x)
    (hfound : found = fresh.filterMap fun x => t.memory ports personaId x) :
    Ball ports t personaId id (d + 1) (related ++ found) := by
  have hids : found.map (fun mem => mem.id) = fresh.filter fun x => t.Owns personaId x := by rw [hfound, ids_found]
  have hmem : ∀ x, (x ∈ found.map fun mem => mem.id) ↔ x ∈ fresh ∧ t.Owns personaId x := fun x => by simp [hids]
  have hstart : id ∈ seen := (hlayer.seen id).2 ⟨0, Nat.zero_le _, .start⟩
  have hold : ∀ mem ∈ related, ∃ n ≤ d, t.Near personaId id n mem.id := fun mem hm =>
    ((h.mem mem.id).1 (List.mem_map_of_mem hm)).2.2
  -- what is new is one step further off than all that has been seen
  have hnew : ∀ mem ∈ found, mem.id ∉ seen := fun mem hm => ((hfresh _).1 ((hmem _).1 (List.mem_map_of_mem hm)).1).1
  have hfar : ∀ mem ∈ found, ∀ n, t.Near personaId id n mem.id → d < n := fun mem hm n hn =>
    not_le.1 fun hle => hnew mem hm ((hlayer.seen _).2 ⟨n, hle, hn⟩)
  refine ⟨?_, fun x => ?_, fun mem hm => ?_, ?_⟩
  · rw [List.map_append, List.nodup_append]
    refine ⟨h.once, hids ▸ hnodup.filter _, fun x hx y hy hxy => ?_⟩
    subst hxy
    obtain ⟨-, -, n, hn, hnear⟩ := (h.mem x).1 hx
    exact ((hfresh x).1 ((hmem x).1 hy).1).1 ((hlayer.seen x).2 ⟨n, hn, hnear⟩)
  · rw [List.map_append, List.mem_append, h.mem, hmem, hfresh]
    have hreach : (∃ n ≤ d + 1, t.Near personaId id n x) ↔ x ∈ seen ∨ ∃ b ∈ frontier, t.Joined personaId b x :=
      hlayer.reaches_succ
    rw [hreach]
    have hseen : (∃ n ≤ d, t.Near personaId id n x) ↔ x ∈ seen := (hlayer.seen x).symm
    rw [hseen]
    constructor
    · rintro (⟨hne, ho, hx⟩ | ⟨⟨hx, hb⟩, ho⟩)
      · exact ⟨hne, ho, .inl hx⟩
      · exact ⟨fun heq => hx (heq ▸ hstart), ho, .inr hb⟩
    · rintro ⟨hne, ho, hx⟩
      by_cases hold : x ∈ seen
      · exact .inl ⟨hne, ho, hold⟩
      · exact .inr ⟨⟨hold, hx.resolve_left hold⟩, ho⟩
  · rcases List.mem_append.1 hm with hm | hm
    · exact h.stored mem hm
    · rw [hfound] at hm
      obtain ⟨x, -, hx⟩ := List.mem_filterMap.1 hm
      exact (memory_some hx).2
  · rw [List.pairwise_append]
    refine ⟨h.nearer, ?_, fun a ha b hb n hn => ?_⟩
    · refine List.pairwise_iff_forall_sublist.2 fun {a b} hab n hn => ?_
      have ha : a ∈ found := hab.subset (by simp)
      have hb : b ∈ found := hab.subset (by simp)
      obtain ⟨hseen, c, hc, hjoined⟩ := (hfresh a.id).1 ((hmem a.id).1 (List.mem_map_of_mem ha)).1
      obtain ⟨hreach, -, hopen⟩ := (hlayer.frontier c).1 hc
      exact ⟨d + 1, hfar b hb n hn, .step hreach hopen hjoined⟩
    · obtain ⟨m, hm, hnear⟩ := hold a ha
      exact ⟨m, hm.trans (hfar b hb n hn).le, hnear⟩

theorem getMemoryBatch_ensures {ids : List String} {Q : Except String (List (MemoryNode K)) → MemoryDb K → Prop}
    (h : Q (.ok (((db.nodesOf personaId).filter fun row => row.id ∈ ids).map fun row => row.decrypted ports)) db) :
    (getMemoryBatch ports personaId ids).Ensures exec Q db := by
  unfold getMemoryBatch
  split_ifs with hlen
  · obtain rfl := List.length_eq_zero_iff.1 hlen
    have hnil : Q (.ok []) db := by simpa using h
    exact hnil
  · exact .query h

theorem relatedRounds_ensures (rounds : ℕ) {d : ℕ} {seen frontier : List String} {related : List (MemoryNode K)}
    (h : Ball ports db.toMemoryTables personaId id d related)
    (hlayer : Layer (db.Joined personaId) (db.Owns personaId) id d seen frontier) :
    (relatedRounds ports personaId rounds seen frontier related).Ensures exec (fun r db' => db' = db ∧
      ∃ related, r = .ok related ∧ Ball ports db.toMemoryTables personaId id (d + rounds) related) db := by
  induction rounds generalizing d seen frontier related with
  | zero => exact ⟨rfl, related, rfl, h⟩
  | succ rounds ih =>
    rw [relatedRounds]
    split_ifs with hlen
    · -- nothing more is reached
      obtain rfl := List.length_eq_zero_iff.1 hlen
      refine ⟨rfl, related, rfl, h.once, fun x => ?_, h.stored, h.nearer⟩
      rw [h.mem]
      have hstop := (hlayer.stop (rounds + 1)).seen x
      rw [hlayer.seen] at hstop
      exact and_congr_right fun _ => and_congr_right fun _ => hstop
    · refine .queryAny fun e => ?_
      rw [if_neg hlen]
      generalize hedges : shuffle e.tie _ = edges
      have hmem : ∀ edge, edge ∈ edges ↔ edge ∈ db.edgesOf personaId ∧
          (edge.source ∈ frontier ∨ edge.target ∈ frontier) := fun edge => by simp [← hedges]
      have hsub : ∀ x ∈ frontier, x ∈ seen := fun x hx => (hlayer.seen x).2 ⟨d, le_rfl, ((hlayer.frontier x).1 hx).1⟩
      obtain ⟨fresh, hcollect, hnodup, hfresh⟩ := @collectNeighbors_spec _ _ _ frontier edges seen []
      have hfresh' : ∀ x, x ∈ fresh ↔ x ∉ seen ∧ ∃ b ∈ frontier, db.Joined personaId b x := fun x => by
        rw [hfresh]
        exact and_congr_right fun hx => beyond_iff hsub hx hmem
      simp only [hcollect, List.nil_append]
      have hfound : (fresh.filterMap fun nid => (((db.nodesOf personaId).filter fun row => row.id ∈ fresh).map fun row =>
          row.decrypted ports).find? fun mem => mem.id = nid) = fresh.filterMap fun x => db.memory ports personaId x :=
        List.filterMap_congr fun x hx => find_batch hx
      refine .bind (getMemoryBatch_ensures ?_)
      change Prog.Ensures exec _ (relatedRounds ports personaId rounds (seen ++ fresh) _ _) db
      rw [hfound, ← Nat.add_assoc, Nat.add_right_comm]
      exact ih (h.next hlayer hnodup hfresh' rfl) (hlayer.next hfresh' fun x => by rw [ids_found]; simp)

end ChronoSynth.Memory

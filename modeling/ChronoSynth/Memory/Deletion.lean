import ChronoSynth.Memory.GraphInvariant

/-!
# What a deletion leaves

Decay, consolidation and eviction delete memories with `deleteMemoryInternal`: its edges, its slot, the memory. What is
left (`MemoryTables.without`) is everything else, and the memories that were consolidated from what is deleted forget
their source. The deletion sees the edges of one persona only: while an edge of another persona ends in the memory
(`MemoryTables.Foreign`) the memory cannot be deleted, and the call fails.
-/

set_option linter.unusedSectionVars false

namespace ChronoSynth.Memory

variable {K : Type} [Field K] [LinearOrder K]

/-- The memory without its source, if the source is among the deleted. -/
def MemoryRow.forgetting (ids : List String) (row : MemoryRow K) : MemoryRow K :=
  if ∃ source ∈ row.consolidatedFrom, source ∈ ids then { row with consolidatedFrom := none } else row

/-- What the deletion of memories leaves. -/
def MemoryTables.without (t : MemoryTables K) (ids : List String) : MemoryTables K where
  nodes := (t.nodes.filter fun row => row.id ∉ ids).map fun row => row.forgetting ids
  edges := t.edges.filter fun edge => edge.source ∉ ids ∧ edge.target ∉ ids
  slots := t.slots.filter fun slot => slot.memoryId ∉ ids

/-- An edge of another persona ends in the memory. -/
def MemoryTables.Foreign (t : MemoryTables K) (personaId id : String) : Prop :=
  ∃ edge ∈ t.edges, edge.personaId ≠ personaId ∧ (edge.source = id ∨ edge.target = id)

instance (t : MemoryTables K) (personaId id : String) : Decidable (t.Foreign personaId id) :=
  inferInstanceAs (Decidable (∃ edge ∈ t.edges, _))

variable {t : MemoryTables K} {ids ids' : List String} {row : MemoryRow K} {p id x : String} {db : MemoryDb K}

/-! ## Forgetting -/

@[simp] theorem forgetting_id : (row.forgetting ids).id = row.id := by
  unfold MemoryRow.forgetting
  split <;> rfl

@[simp] theorem forgetting_personaId : (row.forgetting ids).personaId = row.personaId := by
  unfold MemoryRow.forgetting
  split <;> rfl

@[simp] theorem forgetting_salience : (row.forgetting ids).salience = row.salience := by
  unfold MemoryRow.forgetting
  split <;> rfl

@[simp] theorem forgetting_lastAccessedAt : (row.forgetting ids).lastAccessedAt = row.lastAccessedAt := by
  unfold MemoryRow.forgetting
  split <;> rfl

@[simp] theorem forgetting_valence : (row.forgetting ids).valence = row.valence := by
  unfold MemoryRow.forgetting
  split <;> rfl

@[simp] theorem forgetting_kind : (row.forgetting ids).kind = row.kind := by
  unfold MemoryRow.forgetting
  split <;> rfl

@[simp] theorem forgetting_content : (row.forgetting ids).content = row.content := by
  unfold MemoryRow.forgetting
  split <;> rfl

@[simp] theorem forgetting_accessCount : (row.forgetting ids).accessCount = row.accessCount := by
  unfold MemoryRow.forgetting
  split <;> rfl

theorem forgetting_consolidatedFrom {source : String} :
    (row.forgetting ids).consolidatedFrom = some source ↔ row.consolidatedFrom = some source ∧ source ∉ ids := by
  unfold MemoryRow.forgetting
  split_ifs with h
  · obtain ⟨s, hs, hmem⟩ := h
    refine ⟨nofun, fun ⟨hsource, hnot⟩ => ?_⟩
    rw [Option.mem_def, hsource] at hs
    exact absurd (Option.some.inj hs ▸ hmem) hnot
  · exact ⟨fun hs => ⟨hs, fun hmem => h ⟨source, hs, hmem⟩⟩, And.left⟩

@[simp] theorem forgetting_nil : row.forgetting [] = row := by simp [MemoryRow.forgetting]

theorem forgetting_forgetting : (row.forgetting ids).forgetting ids' = row.forgetting (ids ++ ids') := by
  cases hc : row.consolidatedFrom with
  | none => simp [MemoryRow.forgetting, hc]
  | some source =>
    by_cases h : source ∈ ids
    · simp [MemoryRow.forgetting, hc, h]
    · by_cases h' : source ∈ ids' <;> simp [MemoryRow.forgetting, hc, h, h']

/-! ## Without some memories -/

@[simp] theorem without_nil : t.without [] = t := by simp [MemoryTables.without]

theorem without_without : (t.without ids).without ids' = t.without (ids ++ ids') := by
  simp only [MemoryTables.without, List.filter_map, List.filter_filter, List.map_map]
  congr 1
  · rw [List.filter_congr (q := fun row : MemoryRow K => decide (row.id ∉ ids ++ ids'))]
    · exact List.map_congr_left fun row _ => forgetting_forgetting
    · intro row _
      simp [Bool.and_comm]
  · refine List.filter_congr fun edge _ => ?_
    simp only [List.mem_append, not_or, ← Bool.decide_and]
    exact decide_eq_decide.2 ⟨fun h => ⟨⟨h.2.1, h.1.1⟩, h.2.2, h.1.2⟩, fun h => ⟨⟨h.1.2, h.2.2⟩, h.1.1, h.2.1⟩⟩
  · refine List.filter_congr fun slot _ => ?_
    simp [Bool.and_comm]

theorem mem_without_nodes : row ∈ (t.without ids).nodes ↔
    ∃ old ∈ t.nodes, old.id ∉ ids ∧ row = old.forgetting ids := by
  simp only [MemoryTables.without, List.mem_map, List.mem_filter, decide_eq_true_eq]
  exact exists_congr fun old => ⟨fun ⟨⟨h, h'⟩, heq⟩ => ⟨h, h', heq.symm⟩, fun ⟨h, h', heq⟩ => ⟨⟨h, h'⟩, heq.symm⟩⟩

theorem owns_without : (t.without ids).Owns p x ↔ t.Owns p x ∧ x ∉ ids := by
  constructor
  · rintro ⟨row, hrow, rfl, rfl⟩
    obtain ⟨old, hold, hnot, rfl⟩ := mem_without_nodes.1 hrow
    exact ⟨⟨old, hold, by simp⟩, by simpa using hnot⟩
  · rintro ⟨⟨row, hrow, rfl, rfl⟩, hnot⟩
    exact ⟨row.forgetting ids, mem_without_nodes.2 ⟨row, hrow, hnot, rfl⟩, by simp⟩

theorem nodesOf_without : (t.without ids).nodesOf p =
    ((t.nodesOf p).filter fun row => row.id ∉ ids).map fun row => row.forgetting ids := by
  simp only [MemoryTables.nodesOf, MemoryTables.without, List.filter_map, List.filter_filter]
  congr 1
  refine List.filter_congr fun row _ => ?_
  simp [Bool.and_comm]

/-- The edges of other personas are left, where none of them ends in what is deleted. -/
theorem foreign_without (hids : ∀ y ∈ ids, ¬ t.Foreign p y) :
    (t.without ids).Foreign p x ↔ t.Foreign p x := by
  constructor
  · rintro ⟨edge, hedge, hrest⟩
    exact ⟨edge, (List.mem_filter.1 hedge).1, hrest⟩
  · rintro ⟨edge, hedge, hp, hend⟩
    have hleft : ∀ y, edge.source = y ∨ edge.target = y → y ∉ ids := fun y hy hmem => hids y hmem ⟨edge, hedge, hp, hy⟩
    exact ⟨edge, List.mem_filter.2 ⟨hedge, by simpa using ⟨hleft _ (.inl rfl), hleft _ (.inr rfl)⟩⟩, hp, hend⟩

theorem Constraints.without (h : Constraints t) (ids : List String) : Constraints (t.without ids) := by
  have hkept : ∀ y, y ∈ (t.nodes.map fun row => row.id) → y ∉ ids → y ∈ (t.without ids).nodes.map fun row => row.id := by
    intro y hy hnot
    obtain ⟨row, hrow, rfl⟩ := List.mem_map.1 hy
    exact List.mem_map.2 ⟨_, mem_without_nodes.2 ⟨row, hrow, hnot, rfl⟩, forgetting_id⟩
  have hids : (t.without ids).nodes.map (fun row => row.id) =
      (t.nodes.filter fun row => row.id ∉ ids).map fun row => row.id := by
    simp [MemoryTables.without, Function.comp_def]
  constructor
  · rw [hids]
    exact (List.filter_sublist.map _).nodup h.node_key
  · intro row hrow
    obtain ⟨old, hold, -, rfl⟩ := mem_without_nodes.1 hrow
    simpa using h.valence old hold
  · intro row hrow
    obtain ⟨old, hold, -, rfl⟩ := mem_without_nodes.1 hrow
    simpa using h.salience old hold
  · intro row hrow source hsource
    obtain ⟨old, hold, -, rfl⟩ := mem_without_nodes.1 hrow
    obtain ⟨hs, hnot⟩ := forgetting_consolidatedFrom.1 hsource
    exact hkept source (h.consolidatedFrom old hold source hs) hnot
  · exact (List.filter_sublist.map _).nodup h.edge_key
  · exact fun edge hedge => h.strength edge (List.mem_filter.1 hedge).1
  · intro edge hedge
    obtain ⟨hmem, hnot⟩ := List.mem_filter.1 hedge
    obtain ⟨hsource, htarget⟩ := h.ends edge hmem
    simp only [decide_eq_true_eq] at hnot
    exact ⟨hkept _ hsource hnot.1, hkept _ htarget hnot.2⟩
  · exact (List.filter_sublist.map _).nodup h.slot_key
  · intro slot hslot
    obtain ⟨hmem, hnot⟩ := List.mem_filter.1 hslot
    exact hkept _ (h.memory slot hmem) (by simpa using hnot)

/-- What the deletion of memories leaves, as a database. -/
def MemoryDb.without (db : MemoryDb K) (ids : List String) : MemoryDb K :=
  ⟨db.toMemoryTables.without ids, db.sound.without ids⟩

theorem without_without_db {ids ids' : List String} : (db.without ids).without ids' = db.without (ids ++ ids') := by
  simp only [MemoryDb.without, without_without]

theorem nodesOf_nodup : ((db.nodesOf p).map fun row => row.id).Nodup :=
  (List.filter_sublist.map _).nodup db.sound.node_key

theorem owns_of_mem (h : row ∈ db.nodesOf p) : db.Owns p row.id := by
  obtain ⟨hmem, hp⟩ := List.mem_filter.1 h
  exact ⟨row, hmem, rfl, by simpa using hp⟩

theorem mem_nodesOf_without {ids : List String} : row ∈ (db.without ids).nodesOf p ↔
    ∃ old ∈ db.nodesOf p, old.id ∉ ids ∧ row = old.forgetting ids := by
  change row ∈ (db.toMemoryTables.without ids).nodesOf p ↔ _
  rw [nodesOf_without]
  simp only [List.mem_map, List.mem_filter, decide_eq_true_eq, and_assoc]
  exact exists_congr fun old => and_congr_right fun _ => and_congr_right fun _ => eq_comm

/-! ## The deletion -/

instance : Nonempty (Env K) := ⟨⟨0, "", 0⟩⟩

theorem ensures_transaction {cmd : MemCmd K} {α : Type} {g : Option ℕ → MemProg K α} {Q : Except String α → MemoryDb K → Prop} :
    ((Prog.transaction cmd : MemProg K (Option ℕ)) >>= g).Ensures exec Q db ↔
      ∀ e, (g (exec e cmd db).2).Ensures exec Q (exec e cmd db).1 :=
  Iff.rfl

/-- A command that no constraint forbids. -/
theorem execute_ensures_iff {cmd : MemCmd K} {Q : Except String ℕ → MemoryDb K → Prop} {db' : MemoryDb K} {n : ℕ}
    (h : cmd.effect db.toMemoryTables = (db'.toMemoryTables, n)) :
    (execute cmd).Ensures exec Q db ↔ Q (.ok n) db' := by
  have hexec : ∀ e, exec e cmd db = (db', some n) := by
    intro e
    have hs : Constraints (cmd.effect db.toMemoryTables).1 := by
      rw [h]
      exact db'.sound
    rw [exec, dif_pos hs]
    simp [h]
  rw [execute, ensures_transaction]
  simp only [hexec]
  exact forall_const _

theorem execute_ensures_iff_of_not {cmd : MemCmd K} {Q : Except String ℕ → MemoryDb K → Prop}
    (h : ¬ Constraints (cmd.effect db.toMemoryTables).1) :
    (execute cmd).Ensures exec Q db ↔ Q (.error "constraint failed") db := by
  have hexec : ∀ e, exec e cmd db = (db, none) := fun e => by rw [exec, dif_neg h]
  rw [execute, ensures_transaction]
  simp only [hexec]
  exact forall_const _

theorem Constraints.dropEdges (h : Constraints t) (f : EdgeRow K → Prop) [DecidablePred f] :
    Constraints (t.dropEdges f) :=
  { h with
    edge_key := (List.filter_sublist.map _).nodup h.edge_key
    strength := fun edge hedge => h.strength edge (List.mem_filter.1 hedge).1
    ends := fun edge hedge => h.ends edge (List.mem_filter.1 hedge).1 }

theorem Constraints.dropSlots (h : Constraints t) (f : WorkingMemorySlot K → Prop) [DecidablePred f] :
    Constraints (t.dropSlots f) :=
  { h with
    slot_key := (List.filter_sublist.map _).nodup h.slot_key
    memory := fun slot hslot => h.memory slot (List.mem_filter.1 hslot).1 }

/-- The database once the edges of a persona at a memory are deleted, and its slot. -/
def MemoryDb.detached (db : MemoryDb K) (p id : String) : MemoryDb K :=
  ⟨(db.dropEdges fun edge => edge.personaId = p ∧ (edge.source = id ∨ edge.target = id)).dropSlots fun slot =>
    slot.memoryId = id ∧ db.Owns p slot.memoryId, (db.sound.dropEdges _).dropSlots _⟩

theorem dropNodes_detached (ho : db.Owns p id) (hf : ¬ db.Foreign p id) :
    ((db.detached p id).dropNodes fun row => row.id = id ∧ row.personaId = p) = db.toMemoryTables.without [id] := by
  have hrow : ∀ row ∈ db.nodes, row.id = id ↔ row.id = id ∧ row.personaId = p := fun row hrow =>
    ⟨fun h => ⟨h, db.sound.owner_unique ⟨row, hrow, h, rfl⟩ ho⟩, And.left⟩
  have hdropped : ((db.nodes.filter fun row => row.id = id ∧ row.personaId = p).map fun row => row.id) = [id] := by
    obtain ⟨row, hmem, rfl, -⟩ := ho
    rw [List.filter_congr fun r hr => decide_eq_decide.2 (hrow r hr).symm,
      filter_key_eq_singleton db.sound.node_key hmem]
    rfl
  have hleft : ∀ row ∈ db.nodes, decide (¬ (row.id = id ∧ row.personaId = p)) = decide (row.id ∉ [id]) :=
    fun row hmem => decide_eq_decide.2 (by rw [← hrow row hmem, List.mem_singleton])
  simp only [MemoryTables.dropNodes, MemoryDb.detached, MemoryTables.dropSlots, MemoryTables.dropEdges,
    MemoryTables.without, hdropped, Table.update]
  congr 1
  · rw [List.filter_congr hleft]
    rfl
  · refine List.filter_congr fun edge hedge => decide_eq_decide.2 ?_
    simp only [List.mem_singleton, not_and, not_or]
    constructor
    · intro h
      by_cases hp : edge.personaId = p
      · exact h hp
      · exact ⟨fun he => hf ⟨edge, hedge, hp, .inl he⟩, fun he => hf ⟨edge, hedge, hp, .inr he⟩⟩
    · exact fun h _ => h
  · rw [List.filter_filter]
    refine List.filter_congr fun slot _ => ?_
    by_cases h : slot.memoryId = id <;> simp [h]

/-- An edge of another persona that is left holds the memory. -/
theorem not_constraints_of_foreign (ho : db.Owns p id) (hf : db.Foreign p id) :
    ¬ Constraints ((db.detached p id).dropNodes fun row => row.id = id ∧ row.personaId = p) := by
  intro hs
  obtain ⟨edge, hedge, hp, hend⟩ := hf
  have hleft : edge ∈ (db.detached p id).edges := List.mem_filter.2 ⟨hedge, by simp [hp]⟩
  obtain ⟨hsource, htarget⟩ := hs.ends edge hleft
  have hid : id ∈ ((db.detached p id).dropNodes fun row => row.id = id ∧ row.personaId = p).nodes.map
      fun row => row.id := by
    rcases hend with rfl | rfl
    · exact hsource
    · exact htarget
  obtain ⟨row', hrow', hid'⟩ := List.mem_map.1 hid
  obtain ⟨row, hrow, hnot, hrid, -⟩ := mem_dropNodes hrow'
  have hrowid : row.id = id := hrid.symm.trans hid'
  exact hnot ⟨hrowid, db.sound.owner_unique ⟨row, hrow, hrowid, rfl⟩ ho⟩

/-- **The deletion** of a memory leaves what is without it, and fails where an edge of another persona ends in it. -/
theorem deleteMemoryInternal_ensures_iff {Q : Except String ℕ → MemoryDb K → Prop} (ho : db.Owns p id) :
    (deleteMemoryInternal p id).Ensures exec Q db ↔
      if db.Foreign p id then Q (.error "constraint failed") (db.detached p id) else Q (.ok 1) (db.without [id]) := by
  have hdrop : (MemCmd.edgeDeleteForNode (K := K) id p).effect db.toMemoryTables =
      ((⟨_, db.sound.dropEdges fun edge => edge.personaId = p ∧ (edge.source = id ∨ edge.target = id)⟩ :
        MemoryDb K).toMemoryTables, _) := rfl
  have hslot : (MemCmd.wmDelete (K := K) id p).effect
      (db.dropEdges fun edge => edge.personaId = p ∧ (edge.source = id ∨ edge.target = id)) =
      ((db.detached p id).toMemoryTables, _) := rfl
  rw [deleteMemoryInternal, Prog.ensures_bind_iff, execute_ensures_iff hdrop]
  change Prog.Ensures exec _ _ _ ↔ _
  rw [Prog.ensures_bind_iff, execute_ensures_iff hslot]
  change Prog.Ensures exec _ _ _ ↔ _
  split_ifs with hf
  · exact execute_ensures_iff_of_not (not_constraints_of_foreign ho hf)
  · have hdelete : (MemCmd.delete (K := K) id p).effect (db.detached p id).toMemoryTables =
        ((db.without [id]).toMemoryTables, 1) :=
      Prod.ext (dropNodes_detached ho hf) ((countP_key_eq_one db.sound.node_key).2 ho)
    exact execute_ensures_iff hdelete

end ChronoSynth.Memory

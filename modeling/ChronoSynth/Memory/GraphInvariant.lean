import ChronoSynth.Memory.MemoryService

/-!
# What the memory tables keep

The graph is **sound** if no persona has more slots than the capacity, edges join memories of their own
persona, and of a persona at most one memory is consolidated from each source (`GraphSound`; that slots
belong to memories and saliences lie in the unit interval is in the schema). A persona is **untouched** by a
change if its memories, edges and slots are the same.

Most commands carry the persona in their condition. Two do not: the upserts, whose conflicts are on keys
without the persona. `Allowed` says when a command handed over for a persona keeps the graph sound and the
other personas untouched, and `exec_keeps` that it then does.
-/

set_option linter.unusedSectionVars false

namespace ChronoSynth.Memory

variable {K : Type} [Field K] [LinearOrder K]

structure GraphSound (capacity : ℕ) (t : MemoryTables K) : Prop where
  capacity : ∀ personaId, (t.slotsOf personaId).length ≤ capacity
  slots : ∀ slot ∈ t.slots, ∃ row ∈ t.nodes, row.id = slot.memoryId
  edges : ∀ edge ∈ t.edges, t.Owns edge.personaId edge.source ∧ t.Owns edge.personaId edge.target
  salience : ∀ row ∈ t.nodes, 0 ≤ row.salience ∧ row.salience ≤ 1
  consolidated : ∀ a ∈ t.nodes, ∀ b ∈ t.nodes, ∀ source, a.personaId = b.personaId →
    a.consolidatedFrom = some source → b.consolidatedFrom = some source → a = b

structure Untouched (personaId : String) (t t' : MemoryTables K) : Prop where
  nodes : t'.nodesOf personaId = t.nodesOf personaId
  edges : t'.edgesOf personaId = t.edgesOf personaId
  slots : t'.slotsOf personaId = t.slotsOf personaId

/-- A sound graph in which memories are consolidated from memories of the same persona. -/
structure Inv (capacity : ℕ) (t : MemoryTables K) : Prop extends GraphSound capacity t where
  sources : ∀ row ∈ t.nodes, ∀ source, row.consolidatedFrom = some source → t.Owns row.personaId source

/-- A change on behalf of a persona. -/
structure Keeps (capacity : ℕ) (personaId : String) (t t' : MemoryTables K) : Prop where
  inv : Inv capacity t'
  others : ∀ p, p ≠ personaId → Untouched p t t'

variable {t t' t'' : MemoryTables K} {capacity : ℕ} {p q id : String}

theorem Untouched.refl : Untouched p t t := ⟨rfl, rfl, rfl⟩

theorem Untouched.trans (h : Untouched p t t') (h' : Untouched p t' t'') : Untouched p t t'' :=
  ⟨h'.nodes.trans h.nodes, h'.edges.trans h.edges, h'.slots.trans h.slots⟩

theorem Keeps.refl (h : Inv capacity t) : Keeps capacity p t t := ⟨h, fun _ _ => .refl⟩

theorem Keeps.trans (h : Keeps capacity p t t') (h' : Keeps capacity p t' t'') :
    Keeps capacity p t t'' :=
  ⟨h'.inv, fun q hq => (h.others q hq).trans (h'.others q hq)⟩

/-! ## Owners -/

theorem Constraints.owner_unique (hs : Constraints t) (h : t.Owns p id) (h' : t.Owns q id) : p = q := by
  obtain ⟨a, ha, rfl, rfl⟩ := h
  obtain ⟨b, hb, hid, rfl⟩ := h'
  rw [List.inj_on_of_nodup_map hs.node_key hb ha hid]

theorem Constraints.node_eq (hs : Constraints t) {a b : MemoryRow K} (ha : a ∈ t.nodes) (hb : b ∈ t.nodes)
    (hid : a.id = b.id) : a = b :=
  List.inj_on_of_nodup_map hs.node_key ha hb hid

theorem slotsOf_congr (hslots : t'.slots = t.slots)
    (howns : ∀ slot ∈ t.slots, t'.Owns p slot.memoryId ↔ t.Owns p slot.memoryId) :
    t'.slotsOf p = t.slotsOf p := by
  rw [MemoryTables.slotsOf, hslots]
  exact List.filter_congr fun slot hslot => decide_eq_decide.2 (howns slot hslot)

section
variable {f : MemoryRow K → Prop} [DecidablePred f] {g : MemoryRow K → MemoryRow K}

theorem owns_updateNodes (hg : ∀ row ∈ t.nodes, f row → (g row).id = row.id ∧
    (g row).personaId = row.personaId) : (t.updateNodes f g).Owns p id ↔ t.Owns p id := by
  constructor
  · rintro ⟨row', hrow', rfl, rfl⟩
    obtain ⟨row, hrow, rfl⟩ := Table.mem_update.1 hrow'
    split
    next hf =>
      obtain ⟨hid, hp⟩ := hg row hrow hf
      exact ⟨row, hrow, hid.symm, hp.symm⟩
    next => exact ⟨row, hrow, rfl, rfl⟩
  · rintro ⟨row, hrow, rfl, rfl⟩
    by_cases hf : f row
    · obtain ⟨hid, hp⟩ := hg row hrow hf
      exact ⟨g row, Table.mem_update_of hrow hf, hid, hp⟩
    · exact ⟨row, Table.mem_update_of_not hrow hf, rfl, rfl⟩

theorem owns_addNode {row : MemoryRow K} :
    (t.addNode row).Owns p id ↔ t.Owns p id ∨ row.id = id ∧ row.personaId = p := by
  constructor
  · rintro ⟨r, hr, hid, hp⟩
    rcases List.mem_append.1 hr with hr | hr
    · exact .inl ⟨r, hr, hid, hp⟩
    · obtain rfl := List.mem_singleton.1 hr
      exact .inr ⟨hid, hp⟩
  · rintro (⟨r, hr, hid, hp⟩ | ⟨hid, hp⟩)
    · exact ⟨r, List.mem_append_left _ hr, hid, hp⟩
    · exact ⟨row, List.mem_append_right _ (List.mem_singleton_self _), hid, hp⟩

/-- What is left of the memories: the others, perhaps with their source forgotten. -/
theorem mem_dropNodes {row' : MemoryRow K} (h : row' ∈ (t.dropNodes f).nodes) :
    ∃ row ∈ t.nodes, ¬ f row ∧ row'.id = row.id ∧ row'.personaId = row.personaId ∧
      row'.salience = row.salience ∧
      (row'.consolidatedFrom = none ∨ row' = row) := by
  obtain ⟨row, hrow, rfl⟩ := Table.mem_update.1 h
  obtain ⟨hmem, hf⟩ := List.mem_filter.1 hrow
  refine ⟨row, hmem, by simpa using hf, ?_⟩
  split
  · exact ⟨rfl, rfl, rfl, .inl rfl⟩
  · exact ⟨rfl, rfl, rfl, .inr rfl⟩

theorem owns_dropNodes :
    (t.dropNodes f).Owns p id ↔ ∃ row ∈ t.nodes, ¬ f row ∧ row.id = id ∧ row.personaId = p := by
  constructor
  · rintro ⟨row', hrow', rfl, rfl⟩
    obtain ⟨row, hrow, hf, hid, hp, -⟩ := mem_dropNodes hrow'
    exact ⟨row, hrow, hf, hid.symm, hp.symm⟩
  · rintro ⟨row, hrow, hf, rfl, rfl⟩
    have hkept : row ∈ t.nodes.filter fun row => ¬ f row := List.mem_filter.2 ⟨hrow, by simpa using hf⟩
    by_cases hc : ∃ source ∈ row.consolidatedFrom, source ∈ (t.nodes.filter fun row => f row).map fun row => row.id
    · exact ⟨_, Table.mem_update_of hkept hc, rfl, rfl⟩
    · exact ⟨row, Table.mem_update_of_not hkept hc, rfl, rfl⟩

end

/-! ## Changes of the memories -/

section
variable {f : MemoryRow K → Prop} [DecidablePred f] {g : MemoryRow K → MemoryRow K}

theorem Inv.updateNodes (h : Inv capacity t) (hs' : Constraints (t.updateNodes f g))
    (hg : ∀ row ∈ t.nodes, f row → row.personaId = p ∧ (g row).id = row.id ∧ (g row).personaId = p)
    (hcons : ∀ a ∈ (t.updateNodes f g).nodes, ∀ b ∈ (t.updateNodes f g).nodes, ∀ source,
      a.personaId = b.personaId → a.consolidatedFrom = some source → b.consolidatedFrom = some source →
      a = b)
    (hsrc : ∀ row ∈ t.nodes, f row → ∀ source, (g row).consolidatedFrom = some source →
      t.Owns p source) : Keeps capacity p t (t.updateNodes f g) := by
  have howns : ∀ q id, (t.updateNodes f g).Owns q id ↔ t.Owns q id := fun q id =>
    owns_updateNodes fun row hrow hf =>
      ⟨(hg row hrow hf).2.1, (hg row hrow hf).2.2.trans (hg row hrow hf).1.symm⟩
  have hslots : ∀ q, (t.updateNodes f g).slotsOf q = t.slotsOf q := fun q =>
    slotsOf_congr rfl fun slot _ => howns q slot.memoryId
  refine ⟨⟨⟨fun q => (hslots q).symm ▸ h.capacity q, ?_, ?_, hs'.salience, hcons⟩, ?_⟩, ?_⟩
  · intro slot hslot
    obtain ⟨row, hrow, hid⟩ := h.slots slot hslot
    obtain ⟨row', hrow', hid', -⟩ := (howns _ _).2 ⟨row, hrow, hid, rfl⟩
    exact ⟨row', hrow', hid'⟩
  · intro edge hedge
    exact (h.edges edge hedge).imp (howns _ _).2 (howns _ _).2
  · intro row' hrow' source hsource
    rw [howns]
    obtain ⟨row, hrow, rfl⟩ := Table.mem_update.1 hrow'
    split at hsource
    next hf =>
      rw [if_pos hf, (hg row hrow hf).2.2]
      exact hsrc row hrow hf source hsource
    next hf =>
      rw [if_neg hf]
      exact h.sources row hrow source hsource
  · intro q hq
    refine ⟨Table.filter_update_of_not fun row hrow hf => ?_, rfl, hslots q⟩
    rw [(hg row hrow hf).1, (hg row hrow hf).2.2]
    exact ⟨hq.symm, hq.symm⟩

theorem Inv.updateNodes_same (h : Inv capacity t) (hs' : Constraints (t.updateNodes f g))
    (hg : ∀ row ∈ t.nodes, f row → row.personaId = p ∧ (g row).id = row.id ∧ (g row).personaId = p ∧
      (g row).consolidatedFrom = row.consolidatedFrom) : Keeps capacity p t (t.updateNodes f g) := by
  have hback : ∀ a ∈ (t.updateNodes f g).nodes, ∃ row ∈ t.nodes, a = (if f row then g row else row) ∧
      a.id = row.id ∧ a.personaId = row.personaId ∧ a.consolidatedFrom = row.consolidatedFrom := by
    intro a ha
    obtain ⟨row, hrow, rfl⟩ := Table.mem_update.1 ha
    refine ⟨row, hrow, rfl, ?_⟩
    split
    next hf =>
      obtain ⟨hp, hid, hp', hc⟩ := hg row hrow hf
      exact ⟨hid, hp'.trans hp.symm, hc⟩
    next => exact ⟨rfl, rfl, rfl⟩
  refine h.updateNodes hs' (fun row hrow hf => ?_) ?_ ?_
  · obtain ⟨hp, hid, hp', -⟩ := hg row hrow hf
    exact ⟨hp, hid, hp'⟩
  · intro a ha b hb source hab hca hcb
    obtain ⟨ra, hra, -, hida, hpa, hsa⟩ := hback a ha
    obtain ⟨rb, hrb, -, hidb, hpb, hsb⟩ := hback b hb
    have heq : ra = rb := h.consolidated ra hra rb hrb source (hpa.symm.trans (hab.trans hpb))
      (hsa.symm.trans hca) (hsb.symm.trans hcb)
    exact hs'.node_eq ha hb (by rw [hida, hidb, heq])
  · intro row hrow hf source hsource
    obtain ⟨hp, -, -, hc⟩ := hg row hrow hf
    rw [hc] at hsource
    exact hp ▸ h.sources row hrow source hsource

theorem Inv.addNode (h : Inv capacity t) {row : MemoryRow K} (hs : Constraints t)
    (hs' : Constraints (t.addNode row)) (hp : row.personaId = p)
    (hsrc : ∀ source, row.consolidatedFrom = some source →
      (∀ r ∈ t.nodes, r.id = source → r.personaId = p) ∧
        ∀ r ∈ t.nodes, r.personaId = p → r.consolidatedFrom ≠ some source) :
    Keeps capacity p t (t.addNode row) := by
  have hnew : ∀ r ∈ t.nodes, r.id ≠ row.id := by
    intro r hr hid
    have hkey : ((t.nodes ++ [row]).map fun row => row.id).Nodup := hs'.node_key
    rw [List.map_append, List.nodup_append] at hkey
    exact hkey.2.2 r.id (List.mem_map_of_mem hr) row.id (by simp) hid
  have hslots : ∀ q, (t.addNode row).slotsOf q = t.slotsOf q := by
    intro q
    refine slotsOf_congr rfl fun slot hslot => ?_
    rw [owns_addNode]
    refine or_iff_left fun hrow => ?_
    obtain ⟨r, hr, hid⟩ := List.mem_map.1 (hs.memory slot hslot)
    exact hnew r hr (hid.trans hrow.1.symm)
  refine ⟨⟨⟨fun q => (hslots q).symm ▸ h.capacity q, ?_, ?_, hs'.salience, ?_⟩, ?_⟩, ?_⟩
  · intro slot hslot
    obtain ⟨r, hr, hid⟩ := h.slots slot hslot
    exact ⟨r, List.mem_append_left _ hr, hid⟩
  · intro edge hedge
    exact (h.edges edge hedge).imp (fun ho => owns_addNode.2 (.inl ho)) fun ho => owns_addNode.2 (.inl ho)
  · intro a ha b hb source hab hca hcb
    rcases List.mem_append.1 ha with ha | ha
    · rcases List.mem_append.1 hb with hb | hb
      · exact h.consolidated a ha b hb source hab hca hcb
      · rw [List.mem_singleton.1 hb] at hab hcb
        exact absurd hca ((hsrc source hcb).2 a ha (hab.trans hp))
    · rw [List.mem_singleton.1 ha] at hab hca ⊢
      rcases List.mem_append.1 hb with hb | hb
      · exact absurd hcb ((hsrc source hca).2 b hb (hab.symm.trans hp))
      · exact (List.mem_singleton.1 hb).symm
  · intro r hr source hsource
    rcases List.mem_append.1 hr with hr | hr
    · exact owns_addNode.2 (.inl (h.sources r hr source hsource))
    · obtain rfl := List.mem_singleton.1 hr
      rw [hp, owns_addNode]
      -- the source exists: it is another memory, or the new one itself
      obtain ⟨s, hsmem, hid⟩ := List.mem_map.1
        (hs'.consolidatedFrom r (List.mem_append_right _ (List.mem_singleton_self _)) source hsource)
      rcases List.mem_append.1 hsmem with hsmem | hsmem
      · exact .inl ⟨s, hsmem, hid, (hsrc source hsource).1 s hsmem hid⟩
      · obtain rfl := List.mem_singleton.1 hsmem
        exact .inr ⟨hid, hp⟩
  · intro q hq
    refine ⟨?_, rfl, hslots q⟩
    have hother : [row].filter (fun row => row.personaId = q) = [] := by simp [hp, hq.symm]
    rw [MemoryTables.nodesOf, MemoryTables.addNode, List.filter_append, hother, List.append_nil]
    rfl

theorem Inv.dropNodes (h : Inv capacity t) (hs : Constraints t) (hs' : Constraints (t.dropNodes f))
    (hf : ∀ row ∈ t.nodes, f row → row.personaId = p) : Keeps capacity p t (t.dropNodes f) := by
  have hkeep : ∀ q id, id ∉ ((t.nodes.filter fun row => f row).map fun row => row.id) →
      ((t.dropNodes f).Owns q id ↔ t.Owns q id) := by
    intro q id hid
    rw [owns_dropNodes]
    constructor
    · rintro ⟨row, hrow, -, hrest⟩
      exact ⟨row, hrow, hrest⟩
    · rintro ⟨row, hrow, rfl, hq⟩
      refine ⟨row, hrow, fun hfr => hid ?_, rfl, hq⟩
      exact List.mem_map.2 ⟨row, List.mem_filter.2 ⟨hrow, by simpa using hfr⟩, rfl⟩
  have hslots : ∀ q, (t.dropNodes f).slotsOf q =
      (t.slotsOf q).filter fun slot => slot.memoryId ∉ (t.nodes.filter fun row => f row).map fun row => row.id := by
    intro q
    rw [MemoryTables.slotsOf, MemoryTables.slotsOf, List.filter_comm]
    refine List.filter_congr fun slot hslot => ?_
    have hmem := (List.mem_filter.1 hslot).2
    exact decide_eq_decide.2 (hkeep q slot.memoryId (by simpa using hmem))
  refine ⟨⟨⟨fun q => ?_, ?_, ?_, hs'.salience, ?_⟩, ?_⟩, ?_⟩
  · rw [hslots q]
    exact (List.length_filter_le _ _).trans (h.capacity q)
  · intro slot hslot
    obtain ⟨row, hrow, hid⟩ := List.mem_map.1 (hs'.memory slot hslot)
    exact ⟨row, hrow, hid⟩
  · intro edge hedge
    -- the ends of the edges that are left are memories that are left
    have hends := hs'.ends edge hedge
    have hold := h.edges edge hedge
    have hleft : ∀ q id, (id ∈ (t.dropNodes f).nodes.map fun row => row.id) → t.Owns q id →
        (t.dropNodes f).Owns q id := by
      intro q id hid ho
      obtain ⟨row', hrow', rfl⟩ := List.mem_map.1 hid
      obtain ⟨row, hrow, -, hid', hp', -⟩ := mem_dropNodes hrow'
      refine ⟨row', hrow', rfl, ?_⟩
      exact hp'.trans (hs.owner_unique ⟨row, hrow, hid'.symm, rfl⟩ ho)
    exact ⟨hleft _ _ hends.1 hold.1, hleft _ _ hends.2 hold.2⟩
  · intro a ha b hb source hab hca hcb
    obtain ⟨ra, hra, -, -, hpa, -, hna | rfl⟩ := mem_dropNodes ha
    · rw [hna] at hca
      cases hca
    · obtain ⟨rb, hrb, -, -, hpb, -, hnb | rfl⟩ := mem_dropNodes hb
      · rw [hnb] at hcb
        cases hcb
      · exact h.consolidated _ hra _ hrb source hab hca hcb
  · intro row' hrow' source hsource
    obtain ⟨s, hsmem, hid⟩ := List.mem_map.1 (hs'.consolidatedFrom row' hrow' source hsource)
    obtain ⟨row, hrow, -, -, -, -, hn | rfl⟩ := mem_dropNodes hrow'
    · rw [hn] at hsource
      cases hsource
    · obtain ⟨s₀, hs₀, -, hid₀, hp₀, -⟩ := mem_dropNodes hsmem
      refine ⟨s, hsmem, hid, ?_⟩
      have ho := h.sources _ hrow source hsource
      exact hp₀.trans (hs.owner_unique ⟨s₀, hs₀, hid₀.symm.trans hid, rfl⟩ ho)
  · intro q hq
    refine ⟨?_, rfl, ?_⟩
    · -- what others have was not consolidated from what is deleted
      rw [MemoryTables.nodesOf, MemoryTables.dropNodes, Table.filter_update_of_not,
        Table.filter_delete_of_not]
      · rfl
      · intro row hrow hqr hfr
        exact hq (hqr.symm.trans (hf row hrow hfr))
      · rintro row hrow ⟨source, hsource, hdrop⟩
        have hmem := (List.mem_filter.1 hrow).1
        obtain ⟨s, hsm, rfl⟩ := List.mem_map.1 hdrop
        obtain ⟨hsmem, hfs⟩ := List.mem_filter.1 hsm
        have hps := hf s hsmem (by simpa using hfs)
        have ho := hs.owner_unique (h.sources row hmem s.id hsource) ⟨s, hsmem, rfl, hps⟩
        exact ⟨fun hqr => hq (hqr.symm.trans ho), fun hqr => hq (hqr.symm.trans ho)⟩
    · rw [hslots q]
      refine List.filter_eq_self.2 fun slot hslot => ?_
      have ho : t.Owns q slot.memoryId := by simpa using (List.mem_filter.1 hslot).2
      simp only [decide_eq_true_eq]
      intro hdrop
      obtain ⟨s, hsm, hid⟩ := List.mem_map.1 hdrop
      obtain ⟨hsmem, hfs⟩ := List.mem_filter.1 hsm
      exact hq (hs.owner_unique ho ⟨s, hsmem, hid, hf s hsmem (by simpa using hfs)⟩)

theorem Inv.replaceNode (h : Inv capacity t) {row : MemoryRow K}
    (hs' : Constraints (t.updateNodes (fun old => old.id = row.id) fun _ => row)) (hp : row.personaId = p)
    (hold : ∀ r ∈ t.nodes, r.id = row.id → r.personaId = p)
    (hsrc : ∀ source, row.consolidatedFrom = some source →
      (∀ r ∈ t.nodes, r.id = source → r.personaId = p) ∧
        ∀ r ∈ t.nodes, r.personaId = p → r.consolidatedFrom = some source → r.id = row.id) :
    Keeps capacity p t (t.updateNodes (fun old => old.id = row.id) fun _ => row) := by
  refine h.updateNodes hs' (fun old hmem hid => ⟨hold old hmem hid, hid.symm, hp⟩) ?_ ?_
  · -- a memory that is left alone shares no source with the new one
    intro a ha b hb source hab hca hcb
    obtain ⟨ra, hra, rfl⟩ := Table.mem_update.1 ha
    obtain ⟨rb, hrb, rfl⟩ := Table.mem_update.1 hb
    split_ifs at hab hca hcb ⊢ with hida hidb hidb
    · rfl
    · exact absurd ((hsrc source hca).2 rb hrb (hab.symm.trans hp) hcb) hidb
    · exact absurd ((hsrc source hcb).2 ra hra (hab.trans hp) hca) hida
    · exact h.consolidated ra hra rb hrb source hab hca hcb
  · intro old hmem hid source hsource
    have hold' : row ∈ (t.updateNodes (fun old => old.id = row.id) fun _ => row).nodes :=
      Table.mem_update_of hmem hid
    obtain ⟨s, hsmem, hids⟩ := List.mem_map.1 (hs'.consolidatedFrom row hold' source hsource)
    obtain ⟨s₀, hs₀, rfl⟩ := Table.mem_update.1 hsmem
    split at hids
    next hsid => exact ⟨s₀, hs₀, hsid.trans hids, (hsrc source hsource).1 s₀ hs₀ (hsid.trans hids)⟩
    next => exact ⟨s₀, hs₀, hids, (hsrc source hsource).1 s₀ hs₀ hids⟩

end

/-! ## Changes of the edges and the slots -/

theorem Inv.setEdges (h : Inv capacity t) {edges : List (EdgeRow K)}
    (hends : ∀ edge ∈ edges, t.Owns edge.personaId edge.source ∧ t.Owns edge.personaId edge.target)
    (hothers : ∀ q, q ≠ p → (edges.filter fun edge => edge.personaId = q) = t.edgesOf q) :
    Keeps capacity p t { t with edges := edges } :=
  ⟨⟨⟨h.capacity, h.slots, hends, h.salience, h.consolidated⟩, h.sources⟩, fun q hq =>
    ⟨rfl, hothers q hq, rfl⟩⟩

theorem Inv.dropEdges (h : Inv capacity t) {f : EdgeRow K → Prop} [DecidablePred f]
    (hf : ∀ edge, f edge → edge.personaId = p) : Keeps capacity p t (t.dropEdges f) := by
  refine h.setEdges (fun edge hedge => h.edges edge (List.mem_of_mem_filter hedge)) fun q hq => ?_
  exact Table.filter_delete_of_not fun edge _ hq' hfe => hq (hq'.symm.trans (hf edge hfe))

theorem Inv.putEdge (h : Inv capacity t) (hs : Constraints t) {edge : EdgeRow K}
    (hp : edge.personaId = p) (hsource : t.Owns p edge.source) (htarget : t.Owns p edge.target) :
    Keeps capacity p t (t.putEdge edge) := by
  rw [MemoryTables.putEdge]
  split
  · refine h.setEdges ?_ fun q hq => ?_
    · refine Table.forall_mem_update h.edges fun old _ _ => ?_
      rw [hp]
      exact ⟨hsource, htarget⟩
    · -- an edge between the same memories is one of the persona
      refine Table.filter_update_of_not fun old hold hkey => ⟨fun hqo => ?_, fun hqe => ?_⟩
      · have howner := (h.edges old hold).1
        rw [hkey.1, hqo] at howner
        exact hq (hs.owner_unique howner hsource)
      · exact hq (hqe.symm.trans hp)
  · refine h.setEdges ?_ fun q hq => ?_
    · intro e he
      rcases List.mem_append.1 he with he | he
      · exact h.edges e he
      · rw [List.mem_singleton.1 he, hp]
        exact ⟨hsource, htarget⟩
    · have hother : [edge].filter (fun e => e.personaId = q) = [] := by simp [hp, hq.symm]
      rw [List.filter_append, hother, List.append_nil]
      rfl

theorem Inv.setSlots (h : Inv capacity t) {slots : List (WorkingMemorySlot K)}
    (hs' : Constraints { t with slots := slots })
    (hothers : ∀ q, q ≠ p → (slots.filter fun slot => t.Owns q slot.memoryId) = t.slotsOf q)
    (hcap : (slots.filter fun slot => t.Owns p slot.memoryId).length ≤ capacity) :
    Keeps capacity p t { t with slots := slots } := by
  refine ⟨⟨⟨fun q => ?_, ?_, h.edges, h.salience, h.consolidated⟩, h.sources⟩, fun q hq =>
    ⟨rfl, rfl, hothers q hq⟩⟩
  · by_cases hq : q = p
    · rw [hq]
      exact hcap
    · have hcap' := h.capacity q
      rw [← hothers q hq] at hcap'
      exact hcap'
  · intro slot hslot
    obtain ⟨row, hrow, hid⟩ := List.mem_map.1 (hs'.memory slot hslot)
    exact ⟨row, hrow, hid⟩

theorem Inv.dropSlots (h : Inv capacity t) (hs : Constraints t) {f : WorkingMemorySlot K → Prop}
    [DecidablePred f] (hs' : Constraints (t.dropSlots f)) (hf : ∀ slot, f slot → t.Owns p slot.memoryId) :
    Keeps capacity p t (t.dropSlots f) := by
  refine h.setSlots hs' (fun q hq => ?_) ?_
  · exact Table.filter_delete_of_not fun slot _ ho hfs => hq (hs.owner_unique ho (hf slot hfs))
  · rw [List.filter_comm]
    exact (List.length_filter_le _ _).trans (h.capacity p)

theorem slotsOf_dropSlots_lt {f : WorkingMemorySlot K → Prop} [DecidablePred f]
    {slot : WorkingMemorySlot K} (hslot : slot ∈ t.slotsOf p) (hf : f slot) :
    ((t.dropSlots f).slotsOf p).length < (t.slotsOf p).length := by
  have hsame : (t.dropSlots f).slotsOf p = (t.slotsOf p).filter fun slot => ¬ f slot :=
    List.filter_comm _ _ _
  rw [hsame, List.length_filter_lt_length_iff_exists]
  exact ⟨slot, hslot, by simpa using hf⟩

theorem Inv.updateSlots (h : Inv capacity t) (hs : Constraints t) {f : WorkingMemorySlot K → Prop}
    [DecidablePred f] {g : WorkingMemorySlot K → WorkingMemorySlot K}
    (hs' : Constraints (t.updateSlots f g)) (hf : ∀ slot, f slot → t.Owns p slot.memoryId)
    (hg : ∀ slot, (g slot).memoryId = slot.memoryId) : Keeps capacity p t (t.updateSlots f g) := by
  refine h.setSlots hs' (fun q hq => ?_) ?_
  · refine Table.filter_update_of_not fun slot _ hfs => ?_
    rw [hg slot, and_self]
    exact fun ho => hq (hs.owner_unique ho (hf slot hfs))
  · have hlen : ((Table.update f g t.slots).filter fun slot => t.Owns p slot.memoryId).length =
        (t.slotsOf p).length := by
      rw [MemoryTables.slotsOf, ← List.countP_eq_length_filter, ← List.countP_eq_length_filter,
        Table.update, List.countP_map]
      refine List.countP_congr fun slot _ => ?_
      simp only [Function.comp_apply]
      split
      · rw [hg slot]
      · rfl
    rw [hlen]
    exact h.capacity p

theorem Inv.addSlot (h : Inv capacity t) (hs : Constraints t) {slot : WorkingMemorySlot K}
    (hs' : Constraints { t with slots := t.slots ++ [slot] }) (ho : t.Owns p slot.memoryId)
    (hroom : (t.slotsOf p).length < capacity) :
    Keeps capacity p t { t with slots := t.slots ++ [slot] } := by
  refine h.setSlots hs' (fun q hq => ?_) ?_
  · have hother : ¬ t.Owns q slot.memoryId := fun ho' => hq (hs.owner_unique ho' ho)
    have hnil : [slot].filter (fun slot => t.Owns q slot.memoryId) = [] := by simp [hother]
    rw [List.filter_append, hnil, List.append_nil]
    rfl
  · rw [List.filter_append, List.length_append]
    have hone : ([slot].filter fun slot => t.Owns p slot.memoryId).length ≤ 1 := List.length_filter_le _ _
    have hlen : (t.slots.filter fun slot => t.Owns p slot.memoryId).length = (t.slotsOf p).length := rfl
    omega

/-! ## Commands -/

/-- A command that is handed over for a persona keeps to it. -/
def Allowed (capacity : ℕ) (p : String) (cmd : MemCmd K) (t : MemoryTables K) : Prop :=
  match cmd with
  | .insert row => row.personaId = p ∧ ∀ source, row.consolidatedFrom = some source →
      (∀ r ∈ t.nodes, r.id = source → r.personaId = p) ∧
        ∀ r ∈ t.nodes, r.personaId = p → r.consolidatedFrom ≠ some source
  | .upsert row => row.personaId = p ∧ (∀ r ∈ t.nodes, r.id = row.id → r.personaId = p) ∧
      ∀ source, row.consolidatedFrom = some source →
        (∀ r ∈ t.nodes, r.id = source → r.personaId = p) ∧
          ∀ r ∈ t.nodes, r.personaId = p → r.consolidatedFrom = some source → r.id = row.id
  | .edgeUpsert edge => edge.personaId = p ∧ t.Owns p edge.source ∧ t.Owns p edge.target
  | .wmInsert personaId .. => personaId = p ∧ (t.slotsOf p).length < capacity
  | .updateAccess _ personaId .. | .updateSalience _ personaId .. | .updateSalienceDelta _ personaId _
  | .delete _ personaId | .deleteAll personaId | .edgeDeleteForNode _ personaId
  | .edgeDeleteAll personaId | .wmUpdateScore _ _ personaId | .wmDelete _ personaId
  | .wmDeleteAll personaId => personaId = p

/-- **What a command does**, unless a constraint forbids it. -/
theorem effect_keeps (h : Inv capacity t) (hs : Constraints t) {cmd : MemCmd K}
    (hs' : Constraints (cmd.effect t).1) (hcmd : Allowed capacity p cmd t) :
    Keeps capacity p t (cmd.effect t).1 := by
  cases cmd with
  | insert row => exact h.addNode hs hs' hcmd.1 hcmd.2
  | upsert row =>
    obtain ⟨hp, hold, hsrc⟩ := hcmd
    simp only [MemCmd.effect] at hs' ⊢
    split at hs'
    next hex =>
      rw [if_pos hex]
      exact h.replaceNode hs' hp hold hsrc
    next hex =>
      rw [if_neg hex]
      refine h.addNode hs hs' hp fun source hsource => ⟨(hsrc source hsource).1, fun r hr hrp hrc => ?_⟩
      exact hex ⟨r, hr, (hsrc source hsource).2 r hr hrp hrc⟩
  | updateAccess | updateSalience | updateSalienceDelta =>
    obtain rfl := hcmd
    exact h.updateNodes_same hs' fun row _ hf => ⟨hf.2, rfl, hf.2, rfl⟩
  | delete =>
    obtain rfl := hcmd
    exact h.dropNodes hs hs' fun row _ hf => hf.2
  | deleteAll =>
    obtain rfl := hcmd
    exact h.dropNodes hs hs' fun row _ hf => hf
  | edgeUpsert edge => exact h.putEdge hs hcmd.1 hcmd.2.1 hcmd.2.2
  | edgeDeleteForNode =>
    obtain rfl := hcmd
    exact h.dropEdges fun edge hf => hf.1
  | edgeDeleteAll =>
    obtain rfl := hcmd
    exact h.dropEdges fun edge hf => hf
  | wmInsert personaId memoryId =>
    obtain ⟨rfl, hroom⟩ := hcmd
    simp only [MemCmd.effect] at hs' ⊢
    split at hs'
    next ho =>
      rw [if_pos ho]
      exact h.addSlot hs hs' ho hroom
    next ho =>
      rw [if_neg ho]
      exact .refl h
  | wmUpdateScore =>
    obtain rfl := hcmd
    exact h.updateSlots hs hs' (fun slot hf => hf.2) fun _ => rfl
  | wmDelete =>
    obtain rfl := hcmd
    exact h.dropSlots hs hs' fun slot hf => hf.2
  | wmDeleteAll =>
    obtain rfl := hcmd
    exact h.dropSlots hs hs' fun slot hf => hf

theorem exec_keeps {e : Env K} {cmd : MemCmd K} {db : MemoryDb K}
    (h : Inv capacity db.toMemoryTables) (hcmd : Allowed capacity p cmd db.toMemoryTables) :
    Keeps capacity p db.toMemoryTables (exec e cmd db).1.toMemoryTables := by
  simp only [exec]
  split
  next hs' => exact effect_keeps h db.sound hs' hcmd
  next => exact .refl h

end ChronoSynth.Memory

import Mathlib.Data.Set.Insert
import Mathlib.Tactic.NormNum
import ChronoSynth.Memory.Deletion
import ChronoSynth.Memory.GraphRuns

/-!
# Spreading activation

`spreadActivation` goes out from a memory, one round for each depth. A memory is activated by the first edge that leads
to it, and it counts as visited from then on, also where the activation is too little to be worth anything. Which edge
that is depends on the order in which the edges of a node come.

What is reached at a depth does not: the memories that edges lead to from the last layer are the **candidates** of the
next one (`wave`). The orders make no difference as long as the candidates for a memory agree on what it gets
(`Unambiguous`).
-/

set_option linter.unusedSectionVars false

namespace ChronoSynth.Memory

variable {K : Type} [Field K] [LinearOrder K]

local instance spreadTenAtLeastTwo : Nat.AtLeastTwo 10 := ⟨by decide⟩

local instance spreadTwoAtLeastTwo : Nat.AtLeastTwo 2 := ⟨by decide⟩

/-! ## The graph -/

/-- The node at the other end of an edge. -/
def EdgeRow.neighborId (edge : EdgeRow K) (id : String) : String :=
  if edge.source = id then edge.target else edge.source

def MemoryTables.edgesAt (t : MemoryTables K) (p id : String) : List (EdgeRow K) :=
  (t.edgesOf p).filter fun edge => edge.source = id ∨ edge.target = id

inductive Route (t : MemoryTables K) (p source : String) : String → List String → List (EdgeRow K) → Prop
  | here : Route t p source source [source] []
  | along {last : String} {path : List String} {edges : List (EdgeRow K)} {edge : EdgeRow K}
      (h : Route t p source last path edges) (hedge : edge ∈ t.edgesAt p last) :
      Route t p source (edge.neighborId last) (path ++ [edge.neighborId last]) (edges ++ [edge])

section
variable (ports : MemoryPorts K) (config : MemoryCognitionConfig K) (t : MemoryTables K) (p source : String)

def activation (depth : ℕ) (pathStrength : K) : K :=
  config.baseActivation * pathStrength * ports.exp (-config.damping * depth)

/-- What has been reached, and the last layer with the strengths of the paths that lead there. -/
structure Wave (K : Type) where
  seen : List String
  layer : List (String × K)

/-- What the edges lead to from the last layer. -/
def Wave.candidates (w : Wave K) : List (String × K) :=
  w.layer.flatMap fun node => ((t.edgesAt p node.1).filter fun edge => edge.neighborId node.1 ∉ w.seen).map fun edge =>
    (edge.neighborId node.1, node.2 * edge.strength)

def wave : ℕ → Wave K
  | 0 => ⟨[source], [(source, 1)]⟩
  | d + 1 =>
    let candidates := (wave d).candidates t p
    ⟨(wave d).seen ++ candidates.map fun c => c.1,
      candidates.filter fun c => 1 / 10 ^ 6 ≤ activation ports config (d + 1) c.2⟩

/-- Worth the same at a depth, or both too little. -/
def Alike (depth : ℕ) (a b : K) : Prop :=
  activation ports config depth a = activation ports config depth b ∨
    activation ports config depth a < 1 / 10 ^ 6 ∧ activation ports config depth b < 1 / 10 ^ 6

/-- The candidates of a depth agree. -/
def AgreeAt (d : ℕ) : Prop :=
  ∀ c ∈ (wave ports config t p source d).candidates t p, ∀ c' ∈ (wave ports config t p source d).candidates t p,
    c.1 = c'.1 → Alike ports config (d + 1) c.2 c'.2

/-- Wherever several paths of a length first lead to a memory, it gets the same by each of them. -/
def Unambiguous : Prop := ∀ d < config.maxDepth, AgreeAt ports config t p source d

instance (depth : ℕ) (a b : K) : Decidable (Alike ports config depth a b) := inferInstanceAs (Decidable (_ ∨ _))

instance (d : ℕ) : Decidable (AgreeAt ports config t p source d) :=
  inferInstanceAs (Decidable (∀ c ∈ (wave ports config t p source d).candidates t p, _))

instance : Decidable (Unambiguous ports config t p source) := inferInstanceAs (Decidable (∀ d < config.maxDepth, _))

/-- Every memory is activated at most once, along a simple route of at most so many edges whose strengths it gets. -/
structure Traced (results : List (ActivationResult K)) : Prop where
  once : (results.map fun r => r.memoryId).Nodup
  route : ∀ r ∈ results, r.memoryId ≠ source ∧ ∃ edges, Route t p source r.memoryId r.path edges ∧ r.path.Nodup ∧
    edges.length ≤ config.maxDepth ∧
    r.delta = config.baseActivation * (edges.map fun edge => edge.strength).prod *
      ports.exp (-config.damping * edges.length)

end

/-- What a run tells of a memory. -/
def ActivationResult.pair (r : ActivationResult K) : String × K := (r.memoryId, r.delta)

/-- The activation of a run is traced, and in all runs the same memories get the same and the saliences end the same. -/
structure Determined (ports : MemoryPorts K) (config : MemoryCognitionConfig K) (p source : String) (db : MemoryDb K) :
    Prop where
  traced : ∀ os, ∃ results, ((spreadActivation ports config p source).solo exec os db).2 = .ok results ∧
    Traced ports config db.toMemoryTables p source results
  same : ∀ os os' results results',
    ((spreadActivation ports config p source).solo exec os db).2 = .ok results →
    ((spreadActivation ports config p source).solo exec os' db).2 = .ok results' →
    (∀ x, x ∈ results.map ActivationResult.pair ↔ x ∈ results'.map ActivationResult.pair) ∧
      ((spreadActivation ports config p source).solo exec os db).1 =
        ((spreadActivation ports config p source).solo exec os' db).1

variable {ports : MemoryPorts K} {config : MemoryCognitionConfig K} {t : MemoryTables K} {p source : String}
  {db : MemoryDb K} {d depth : ℕ} {state state' : Spread K} {current : Frontier K} {edge : EdgeRow K} {v x : String}

theorem Wave.mem_candidates {w : Wave K} {c : String × K} : c ∈ w.candidates t p ↔ ∃ node ∈ w.layer,
    ∃ edge ∈ t.edgesAt p node.1, edge.neighborId node.1 ∉ w.seen ∧
      c = (edge.neighborId node.1, node.2 * edge.strength) := by
  simp only [Wave.candidates, List.mem_flatMap, List.mem_map, List.mem_filter, decide_eq_true_eq]
  constructor
  · rintro ⟨node, hnode, edge, ⟨hedge, hnew⟩, rfl⟩
    exact ⟨node, hnode, edge, hedge, hnew, rfl⟩
  · rintro ⟨node, hnode, edge, hedge, hnew, rfl⟩
    exact ⟨node, hnode, edge, ⟨hedge, hnew⟩, rfl⟩

/-! ## The runs

A run is the visits it makes. `Spreads d state`: some order of the edges leads to the state after `d` rounds.
-/

section
variable (ports config t p source)

def visitEdge (depth : ℕ) (current : Frontier K) (state : Spread K) (edge : EdgeRow K) : Spread K :=
  let neighborId := edge.neighborId current.id
  let pathStrength := current.cumulativeStrength * edge.strength
  let delta := activation ports config depth pathStrength
  let path := current.path ++ [neighborId]
  if neighborId ∈ state.visited then state
  else if delta < 1 / 10 ^ 6 then { state with visited := state.visited ++ [neighborId] }
  else ⟨state.visited ++ [neighborId], state.results ++ [⟨neighborId, delta, path⟩],
    state.nextFrontier ++ [⟨neighborId, pathStrength, path⟩]⟩

inductive Visits (depth : ℕ) : List (Frontier K) → Spread K → Spread K → Prop
  | nil {state : Spread K} : Visits depth [] state state
  | cons {current : Frontier K} {frontier : List (Frontier K)} {edges : List (EdgeRow K)} {state state' : Spread K}
      (hedges : edges.Perm (t.edgesAt p current.id))
      (h : Visits depth frontier (edges.foldl (visitEdge ports config depth current) state) state') :
      Visits depth (current :: frontier) state state'

def Spread.start (source : String) : Spread K := ⟨[source], [], [⟨source, 1, [source]⟩]⟩

inductive Spreads : ℕ → Spread K → Prop
  | zero : Spreads 0 (.start source)
  | succ {d : ℕ} {state state' : Spread K} (h : Spreads d state)
      (hvisits : Visits ports config t p (d + 1) state.nextFrontier { state with nextFrontier := [] } state') :
      Spreads (d + 1) state'

end

/-- What a visit or more adds: what has been visited stays so, and what is activated anew had not been visited. -/
structure Spread.Grows (state state' : Spread K) : Prop where
  visited : ∀ x ∈ state.visited, x ∈ state'.visited
  results : ∃ fresh, state'.results = state.results ++ fresh ∧ ∀ r ∈ fresh, r.memoryId ∉ state.visited

theorem Spread.Grows.refl : state.Grows state := ⟨fun _ hx => hx, [], by simp, nofun⟩

theorem Spread.Grows.trans {state'' : Spread K} (h : state.Grows state') (h' : state'.Grows state'') :
    state.Grows state'' := by
  obtain ⟨fresh, hfresh, hnew⟩ := h.results
  obtain ⟨fresh', hfresh', hnew'⟩ := h'.results
  refine ⟨fun x hx => h'.visited x (h.visited x hx), fresh ++ fresh', by rw [hfresh', hfresh, List.append_assoc], ?_⟩
  intro r hr hvisited
  rcases List.mem_append.1 hr with hr | hr
  · exact hnew r hr hvisited
  · exact hnew' r hr (h.visited _ hvisited)

theorem visitEdge_grows : state.Grows (visitEdge ports config depth current state edge) := by
  unfold visitEdge
  dsimp only
  split_ifs with hseen hlow
  · exact .refl
  · exact ⟨fun x hx => List.mem_append_left _ hx, [], by simp, nofun⟩
  · refine ⟨fun x hx => List.mem_append_left _ hx, _, rfl, fun r hr => ?_⟩
    rw [List.mem_singleton.1 hr]
    exact hseen

theorem visitEdge_next : state.nextFrontier <+: (visitEdge ports config depth current state edge).nextFrontier := by
  unfold visitEdge
  dsimp only
  split_ifs
  · exact List.prefix_rfl
  · exact List.prefix_rfl
  · exact List.prefix_append _ _

theorem foldl_visitEdge_grows (edges : List (EdgeRow K)) :
    state.Grows (edges.foldl (visitEdge ports config depth current) state) ∧
      state.nextFrontier <+: (edges.foldl (visitEdge ports config depth current) state).nextFrontier := by
  induction edges generalizing state with
  | nil => exact ⟨.refl, List.prefix_rfl⟩
  | cons edge edges ih => exact ⟨visitEdge_grows.trans ih.1, visitEdge_next.trans ih.2⟩

theorem Visits.grows {frontier : List (Frontier K)} (h : Visits ports config t p depth frontier state state') :
    state.Grows state' ∧ state.nextFrontier <+: state'.nextFrontier := by
  induction h with
  | nil => exact ⟨.refl, List.prefix_rfl⟩
  | cons hedges h ih =>
    obtain ⟨hgrows, hnext⟩ := @foldl_visitEdge_grows _ _ _ ports config _ _ _ _
    exact ⟨hgrows.trans ih.1, hnext.trans ih.2⟩

theorem Visits.exists_end (frontier : List (Frontier K)) (state : Spread K) :
    ∃ state', Visits ports config t p depth frontier state state' := by
  induction frontier generalizing state with
  | nil => exact ⟨state, .nil⟩
  | cons current frontier ih =>
    obtain ⟨state', h⟩ := ih _
    exact ⟨state', .cons (.refl _) h⟩

/-- A run may go on for as many rounds as there are to be, and changes nothing of what has been visited. -/
theorem Spreads.extend (h : Spreads ports config t p source d state) (n : ℕ) :
    ∃ state', Spreads ports config t p source (d + n) state' ∧ state.Grows state' := by
  induction n with
  | zero => exact ⟨state, h, .refl⟩
  | succ n ih =>
    obtain ⟨mid, hmid, hgrows⟩ := ih
    obtain ⟨state', hvisits⟩ := @Visits.exists_end _ _ _ ports config t p (d + n + 1) mid.nextFrontier
      { mid with nextFrontier := [] }
    have hreset : mid.Grows { mid with nextFrontier := [] } := ⟨fun _ hx => hx, [], by simp, nofun⟩
    exact ⟨state', .succ hmid hvisits, hgrows.trans (hreset.trans hvisits.grows.1)⟩

/-! ## What holds of every run -/

/-- A node of a frontier: a simple route over visited nodes leads there. -/
def Walked (t : MemoryTables K) (p source : String) (d : ℕ) (visited : List String) (node : Frontier K) : Prop :=
  ∃ edges, Route t p source node.id node.path edges ∧ node.path.Nodup ∧ (∀ x ∈ node.path, x ∈ visited) ∧
    edges.length = d ∧ node.cumulativeStrength = (edges.map fun edge => edge.strength).prod

theorem Walked.mono {visited visited' : List String} {node : Frontier K} (h : Walked t p source d visited node)
    (hsub : ∀ x ∈ visited, x ∈ visited') : Walked t p source d visited' node := by
  obtain ⟨edges, hroute, hnodup, hpath, hlen, hstrength⟩ := h
  exact ⟨edges, hroute, hnodup, fun x hx => hsub x (hpath x hx), hlen, hstrength⟩

/-- What is activated up to a depth. -/
structure Sound (ports : MemoryPorts K) (config : MemoryCognitionConfig K) (t : MemoryTables K) (p source : String)
    (d : ℕ) (state : Spread K) : Prop where
  source_mem : source ∈ state.visited
  seen : ∀ r ∈ state.results, r.memoryId ∈ state.visited
  once : (state.results.map fun r => r.memoryId).Nodup
  route : ∀ r ∈ state.results, r.memoryId ≠ source ∧ ∃ edges, Route t p source r.memoryId r.path edges ∧ r.path.Nodup ∧
    edges.length ≤ d ∧
    r.delta = config.baseActivation * (edges.map fun edge => edge.strength).prod *
      ports.exp (-config.damping * edges.length)
  next : ∀ node ∈ state.nextFrontier, Walked t p source d state.visited node

theorem Sound.start : Sound ports config t p source 0 (.start source) where
  source_mem := List.mem_singleton_self _
  seen := nofun
  once := .nil
  route := nofun
  next node hnode := by
    rw [List.mem_singleton.1 hnode]
    exact ⟨[], .here, List.nodup_singleton _, fun x hx => hx, rfl, rfl⟩

theorem Sound.visitEdge (h : Sound ports config t p source (d + 1) state)
    (hcurrent : Walked t p source d state.visited current) (hedge : edge ∈ t.edgesAt p current.id) :
    Sound ports config t p source (d + 1) (visitEdge ports config (d + 1) current state edge) := by
  unfold Memory.visitEdge
  dsimp only
  split_ifs with hseen hlow
  · exact h
  · exact
      { h with
        source_mem := List.mem_append_left _ h.source_mem
        seen := fun r hr => List.mem_append_left _ (h.seen r hr)
        next := fun node hnode => (h.next node hnode).mono fun x hx => List.mem_append_left _ hx }
  · obtain ⟨edges, hroute, hnodup, hpath, hlen, hstrength⟩ := hcurrent
    have hsimple : (current.path ++ [edge.neighborId current.id]).Nodup := by
      rw [List.nodup_append]
      refine ⟨hnodup, List.nodup_singleton _, fun x hx y hy hxy => ?_⟩
      rw [hxy, List.mem_singleton.1 hy] at hx
      exact hseen (hpath _ hx)
    have hprod : current.cumulativeStrength * edge.strength =
        ((edges ++ [edge]).map fun edge => edge.strength).prod := by
      rw [hstrength, List.map_append, List.prod_append, List.map_singleton, List.prod_singleton]
    refine ⟨List.mem_append_left _ h.source_mem, ?_, ?_, ?_, ?_⟩
    · rintro r hr
      rcases List.mem_append.1 hr with hr | hr
      · exact List.mem_append_left _ (h.seen r hr)
      · rw [List.mem_singleton.1 hr]
        exact List.mem_append_right _ (List.mem_singleton_self _)
    · rw [List.map_append, List.nodup_append]
      refine ⟨h.once, List.nodup_singleton _, fun x hx y hy hxy => ?_⟩
      obtain ⟨r, hr, rfl⟩ := List.mem_map.1 hx
      rw [List.map_singleton, List.mem_singleton] at hy
      have hr' : r.memoryId = edge.neighborId current.id := hxy.trans hy
      exact hseen (hr' ▸ h.seen r hr)
    · rintro r hr
      rcases List.mem_append.1 hr with hr | hr
      · exact h.route r hr
      · rw [List.mem_singleton.1 hr]
        have hne : edge.neighborId current.id ≠ source := fun heq => hseen (heq ▸ h.source_mem)
        refine ⟨hne, edges ++ [edge], hroute.along hedge, hsimple, by simp [hlen], ?_⟩
        rw [← hprod, List.length_append, List.length_singleton, hlen, activation]
    · rintro node hnode
      rcases List.mem_append.1 hnode with hnode | hnode
      · exact (h.next node hnode).mono fun x hx => List.mem_append_left _ hx
      · rw [List.mem_singleton.1 hnode]
        refine ⟨edges ++ [edge], hroute.along hedge, hsimple, fun x hx => ?_, by simp [hlen], hprod⟩
        rcases List.mem_append.1 hx with hx | hx
        · exact List.mem_append_left _ (hpath x hx)
        · exact List.mem_append_right _ hx

theorem Sound.foldl (edges : List (EdgeRow K)) (h : Sound ports config t p source (d + 1) state)
    (hcurrent : Walked t p source d state.visited current) (hedges : ∀ edge ∈ edges, edge ∈ t.edgesAt p current.id) :
    Sound ports config t p source (d + 1) (edges.foldl (Memory.visitEdge ports config (d + 1) current) state) := by
  induction edges generalizing state with
  | nil => exact h
  | cons edge edges ih =>
    obtain ⟨hedge, hedges⟩ := List.forall_mem_cons.1 hedges
    exact ih (h.visitEdge hcurrent hedge) (hcurrent.mono visitEdge_grows.visited) hedges

theorem Sound.visits {frontier : List (Frontier K)} (hv : Visits ports config t p (d + 1) frontier state state')
    (h : Sound ports config t p source (d + 1) state)
    (hwalked : ∀ node ∈ frontier, Walked t p source d state.visited node) :
    Sound ports config t p source (d + 1) state' := by
  induction hv with
  | nil => exact h
  | @cons current frontier edges state state' hedges hv ih =>
    obtain ⟨hcurrent, hrest⟩ := List.forall_mem_cons.1 hwalked
    refine ih (h.foldl edges hcurrent fun edge hedge => hedges.mem_iff.1 hedge) fun node hnode =>
      (hrest node hnode).mono ?_
    exact (foldl_visitEdge_grows edges).1.visited

theorem Spreads.sound (h : Spreads ports config t p source d state) : Sound ports config t p source d state := by
  induction h with
  | zero => exact .start
  | succ h hv ih =>
    refine Sound.visits hv { ih with route := fun r hr => ?_, next := nofun } ih.next
    obtain ⟨hne, edges, hroute, hnodup, hlen, hdelta⟩ := ih.route r hr
    exact ⟨hne, edges, hroute, hnodup, Nat.le_succ_of_le hlen, hdelta⟩

/-! ## Where the candidates agree -/

def Frontier.pair (node : Frontier K) : String × K := (node.id, node.cumulativeStrength)

/-- The candidates that the edges of a node give. -/
def Wave.taken (w : Wave K) (node : Frontier K) (edges : List (EdgeRow K)) : Set (String × K) :=
  {c | ∃ edge ∈ edges, edge.neighborId node.id ∉ w.seen ∧
    c = (edge.neighborId node.id, node.cumulativeStrength * edge.strength)}

/-- In the middle of a round, when the candidates `T` have been looked at. -/
structure Mid (ports : MemoryPorts K) (config : MemoryCognitionConfig K) (depth : ℕ) (w : Wave K)
    (before : List (ActivationResult K)) (T : Set (String × K)) (state : Spread K) : Prop where
  visited : ∀ x, x ∈ state.visited ↔ x ∈ w.seen ∨ ∃ s, (x, s) ∈ T
  next : ∀ c, c ∈ state.nextFrontier.map Frontier.pair ↔ c ∈ T ∧ 1 / 10 ^ 6 ≤ activation ports config depth c.2
  results : ∀ c, c ∈ state.results.map ActivationResult.pair ↔ c ∈ before.map ActivationResult.pair ∨
    ∃ s, (c.1, s) ∈ T ∧ 1 / 10 ^ 6 ≤ activation ports config depth s ∧ c.2 = activation ports config depth s

/-- After a round, whatever the orders were. -/
structure Follows (ports : MemoryPorts K) (config : MemoryCognitionConfig K) (t : MemoryTables K) (p source : String)
    (d : ℕ) (state : Spread K) : Prop where
  visited : ∀ x, x ∈ state.visited ↔ x ∈ (wave ports config t p source d).seen
  next : ∀ c, c ∈ state.nextFrontier.map Frontier.pair ↔ c ∈ (wave ports config t p source d).layer
  results : ∀ c, c ∈ state.results.map ActivationResult.pair ↔
    ∃ k < d, ∃ s, (c.1, s) ∈ (wave ports config t p source (k + 1)).layer ∧ c.2 = activation ports config (k + 1) s

variable {w : Wave K} {before : List (ActivationResult K)} {T C : Set (String × K)}

theorem Wave.taken_cons {edges : List (EdgeRow K)} :
    w.taken current (edge :: edges) = w.taken current [edge] ∪ w.taken current edges := by
  ext c
  simp [Wave.taken]

theorem exists_mem_insert {c : String × K} : (∃ s, (x, s) ∈ insert c T) ↔ (∃ s, (x, s) ∈ T) ∨ x = c.1 := by
  constructor
  · rintro ⟨s, heq | hs⟩
    · exact .inr (congrArg Prod.fst heq)
    · exact .inl ⟨s, hs⟩
  · rintro (⟨s, hs⟩ | rfl)
    · exact ⟨s, .inr hs⟩
    · exact ⟨c.2, .inl rfl⟩

section
variable [IsStrictOrderedRing K]

/-- What is worth the same, and enough, is the same. -/
theorem activation_inj {a b : K} (h : activation ports config depth a = activation ports config depth b)
    (ha : 1 / 10 ^ 6 ≤ activation ports config depth a) : a = b := by
  have hpos : 0 < activation ports config depth a := lt_of_lt_of_le (one_div_pos.2 (pow_pos (by norm_num) 6)) ha
  have hne : config.baseActivation * a * ports.exp (-config.damping * depth) ≠ 0 := hpos.ne'
  have hexp : ports.exp (-config.damping * depth) ≠ 0 := right_ne_zero_of_mul hne
  have hbase : config.baseActivation ≠ 0 := left_ne_zero_of_mul (left_ne_zero_of_mul hne)
  exact mul_left_cancel₀ hbase (mul_right_cancel₀ hexp h)

/-- A candidate for a memory that has been visited in this round changes nothing. -/
theorem Mid.again {c : String × K} (h : Mid ports config depth w before T state) (hT : ∀ c ∈ T, c ∈ C) (hc : c ∈ C)
    (hagree : ∀ c ∈ C, ∀ c' ∈ C, c.1 = c'.1 → Alike ports config depth c.2 c'.2) (hseen : ∃ s, (c.1, s) ∈ T) :
    Mid ports config depth w before (insert c T) state := by
  obtain ⟨s, hs⟩ := hseen
  have hin : 1 / 10 ^ 6 ≤ activation ports config depth c.2 → c ∈ T := fun henough => by
    rcases hagree c hc _ (hT _ hs) rfl with heq | ⟨hlow, -⟩
    · have hstrength : c.2 = s := activation_inj heq henough
      rw [← hstrength] at hs
      exact hs
    · exact absurd henough (not_le.2 hlow)
  refine ⟨fun x => ?_, fun c' => ?_, fun c' => ?_⟩
  · rw [h.visited, exists_mem_insert]
    refine or_congr_right (or_iff_left_of_imp ?_).symm
    rintro rfl
    exact ⟨s, hs⟩
  · rw [h.next]
    refine and_congr_left fun henough => ⟨.inr, ?_⟩
    rintro (rfl | hmem)
    · exact hin henough
    · exact hmem
  · rw [h.results]
    refine or_congr_right ⟨fun ⟨s', hs', hrest⟩ => ⟨s', .inr hs', hrest⟩, ?_⟩
    rintro ⟨s', rfl | hs', henough, heq⟩
    · exact ⟨s', hin henough, henough, heq⟩
    · exact ⟨s', hs', henough, heq⟩

/-- **A visit** looks at one candidate more. -/
theorem Mid.visitEdge (h : Mid ports config depth w before T state) (hT : ∀ c ∈ T, c ∈ C)
    (htaken : ∀ c ∈ w.taken current [edge], c ∈ C)
    (hagree : ∀ c ∈ C, ∀ c' ∈ C, c.1 = c'.1 → Alike ports config depth c.2 c'.2) :
    Mid ports config depth w before (T ∪ w.taken current [edge]) (visitEdge ports config depth current state edge) := by
  by_cases hold : edge.neighborId current.id ∈ w.seen
  · have hempty : w.taken current [edge] = ∅ := Set.eq_empty_of_forall_notMem fun c ⟨e, he, hnew, _⟩ =>
      hnew (List.mem_singleton.1 he ▸ hold)
    rw [Memory.visitEdge, if_pos ((h.visited _).2 (.inl hold)), hempty, Set.union_empty]
    exact h
  · set c : String × K := (edge.neighborId current.id, current.cumulativeStrength * edge.strength) with hc
    have hone : w.taken current [edge] = {c} := by
      ext c'
      simp [Wave.taken, hold, hc]
    have hcC : c ∈ C := htaken c (by rw [hone]; rfl)
    rw [hone, Set.union_singleton, Memory.visitEdge]
    split_ifs with hseen hlow
    · exact h.again hT hcC hagree (((h.visited _).1 hseen).resolve_left hold)
    · -- the memory counts as visited, though it is not activated
      refine ⟨fun x => ?_, fun c' => ?_, fun c' => ?_⟩
      · rw [List.mem_append, h.visited, List.mem_singleton, or_assoc, exists_mem_insert]
      · rw [h.next]
        refine and_congr_left fun henough => ⟨.inr, ?_⟩
        rintro (rfl | hmem)
        · exact absurd hlow (not_lt.2 henough)
        · exact hmem
      · rw [h.results]
        refine or_congr_right ⟨fun ⟨s, hs, hrest⟩ => ⟨s, .inr hs, hrest⟩, ?_⟩
        rintro ⟨s, heq | hs, henough, hrest⟩
        · rw [show s = c.2 from congrArg Prod.snd heq] at henough
          exact absurd hlow (not_lt.2 henough)
        · exact ⟨s, hs, henough, hrest⟩
    · refine ⟨fun x => ?_, fun c' => ?_, fun c' => ?_⟩
      · rw [List.mem_append, h.visited, List.mem_singleton, or_assoc, exists_mem_insert]
      · rw [List.map_append, List.mem_append, h.next, List.map_singleton, List.mem_singleton]
        constructor
        · rintro (⟨hmem, henough⟩ | rfl)
          · exact ⟨.inr hmem, henough⟩
          · exact ⟨.inl rfl, not_lt.1 hlow⟩
        · rintro ⟨rfl | hmem, henough⟩
          · exact .inr rfl
          · exact .inl ⟨hmem, henough⟩
      · rw [List.map_append, List.mem_append, h.results, List.map_singleton, List.mem_singleton, or_assoc]
        refine or_congr_right ⟨?_, ?_⟩
        · rintro (⟨s, hs, hrest⟩ | rfl)
          · exact ⟨s, .inr hs, hrest⟩
          · exact ⟨c.2, .inl rfl, not_lt.1 hlow, rfl⟩
        · rintro ⟨s, heq | hs, henough, hrest⟩
          · obtain ⟨hid, hstrength⟩ := Prod.ext_iff.1 heq
            rw [show s = c.2 from hstrength] at hrest
            exact .inr (Prod.ext hid hrest)
          · exact .inl ⟨s, hs, henough, hrest⟩

theorem Mid.foldl (edges : List (EdgeRow K)) (h : Mid ports config depth w before T state) (hT : ∀ c ∈ T, c ∈ C)
    (htaken : ∀ c ∈ w.taken current edges, c ∈ C)
    (hagree : ∀ c ∈ C, ∀ c' ∈ C, c.1 = c'.1 → Alike ports config depth c.2 c'.2) :
    Mid ports config depth w before (T ∪ w.taken current edges)
      (edges.foldl (Memory.visitEdge ports config depth current) state) := by
  induction edges generalizing T state with
  | nil =>
    have hempty : w.taken current [] = ∅ := by simp [Wave.taken]
    rw [hempty, Set.union_empty]
    exact h
  | cons edge edges ih =>
    rw [Wave.taken_cons] at htaken ⊢
    rw [← Set.union_assoc]
    refine ih (h.visitEdge hT (fun c hc => htaken c (.inl hc)) hagree) ?_ fun c hc => htaken c (.inr hc)
    rintro c (hc | hc)
    · exact hT c hc
    · exact htaken c (.inl hc)

/-- The candidates that the nodes of a frontier give. -/
def Wave.given (t : MemoryTables K) (p : String) (w : Wave K) (frontier : List (Frontier K)) : Set (String × K) :=
  {c | ∃ node ∈ frontier, c ∈ w.taken node (t.edgesAt p node.id)}

theorem Mid.visits {frontier : List (Frontier K)} (hv : Visits ports config t p depth frontier state state')
    (h : Mid ports config depth w before T state) (hT : ∀ c ∈ T, c ∈ C) (hgiven : ∀ c ∈ w.given t p frontier, c ∈ C)
    (hagree : ∀ c ∈ C, ∀ c' ∈ C, c.1 = c'.1 → Alike ports config depth c.2 c'.2) :
    Mid ports config depth w before (T ∪ w.given t p frontier) state' := by
  induction hv generalizing T with
  | nil =>
    have hempty : w.given t p [] = ∅ := by simp [Wave.given]
    rw [hempty, Set.union_empty]
    exact h
  | @cons current frontier edges state state' hedges hv ih =>
    have hsplit : w.given t p (current :: frontier) = w.taken current edges ∪ w.given t p frontier := by
      ext c
      simp [Wave.given, Wave.taken, hedges.mem_iff]
    rw [hsplit] at hgiven ⊢
    rw [← Set.union_assoc]
    refine ih (h.foldl edges hT (fun c hc => hgiven c (.inl hc)) hagree) ?_ fun c hc => hgiven c (.inr hc)
    rintro c (hc | hc)
    · exact hT c hc
    · exact hgiven c (.inl hc)

theorem Follows.start : Follows ports config t p source 0 (.start source) where
  visited _ := Iff.rfl
  next _ := Iff.rfl
  results c := by simp [Spread.start]

theorem Follows.mem_given (h : Follows ports config t p source d state) {c : String × K} :
    c ∈ (wave ports config t p source d).given t p state.nextFrontier ↔
      c ∈ (wave ports config t p source d).candidates t p := by
  rw [Wave.mem_candidates]
  constructor
  · rintro ⟨node, hnode, edge, hedge, hnew, rfl⟩
    exact ⟨node.pair, (h.next _).1 (List.mem_map_of_mem hnode), edge, hedge, hnew, rfl⟩
  · rintro ⟨pair, hpair, edge, hedge, hnew, rfl⟩
    obtain ⟨node, hnode, rfl⟩ := List.mem_map.1 ((h.next _).2 hpair)
    exact ⟨node, hnode, edge, hedge, hnew, rfl⟩

/-- **The round**: where the candidates agree, the orders make no difference. -/
theorem Follows.round (h : Follows ports config t p source d state) (hagree : AgreeAt ports config t p source d)
    (hv : Visits ports config t p (d + 1) state.nextFrontier { state with nextFrontier := [] } state') :
    Follows ports config t p source (d + 1) state' := by
  have hfirst : Mid ports config (d + 1) (wave ports config t p source d) state.results ∅
      { state with nextFrontier := [] } := ⟨fun x => by simp [h.visited], fun c => by simp, fun c => by simp⟩
  have hmid := hfirst.visits (C := {c | c ∈ (wave ports config t p source d).candidates t p}) hv nofun
    (fun c hc => h.mem_given.1 hc) hagree
  rw [Set.empty_union] at hmid
  have hlayer : ∀ c, c ∈ (wave ports config t p source (d + 1)).layer ↔
      c ∈ (wave ports config t p source d).candidates t p ∧ 1 / 10 ^ 6 ≤ activation ports config (d + 1) c.2 :=
    fun c => by simp [wave]
  refine ⟨fun x => ?_, fun c => ?_, fun c => ?_⟩
  · rw [hmid.visited]
    simp only [h.mem_given, wave, List.mem_append, List.mem_map, Prod.exists]
    refine or_congr_right ⟨fun ⟨s, hs⟩ => ⟨x, s, hs, rfl⟩, ?_⟩
    rintro ⟨_, s, hs, rfl⟩
    exact ⟨s, hs⟩
  · rw [hmid.next, h.mem_given, hlayer]
  · rw [hmid.results, h.results]
    simp only [h.mem_given]
    constructor
    · rintro (⟨k, hk, hrest⟩ | ⟨s, hs, henough, heq⟩)
      · exact ⟨k, Nat.lt_succ_of_lt hk, hrest⟩
      · exact ⟨d, Nat.lt_succ_self d, s, (hlayer _).2 ⟨hs, henough⟩, heq⟩
    · rintro ⟨k, hk, s, hs, heq⟩
      rcases Nat.lt_succ_iff_lt_or_eq.1 hk with hk | rfl
      · exact .inl ⟨k, hk, s, hs, heq⟩
      · obtain ⟨hc, henough⟩ := (hlayer _).1 hs
        exact .inr ⟨s, hc, henough, heq⟩

theorem Spreads.follows (h : Spreads ports config t p source d state)
    (hagree : ∀ k < d, AgreeAt ports config t p source k) : Follows ports config t p source d state := by
  induction h with
  | zero => exact .start
  | @succ d state state' h hv ih =>
    exact (ih fun k hk => hagree k (Nat.lt_succ_of_lt hk)).round (hagree d (Nat.lt_succ_self d)) hv

/-! ## Where they do not -/

theorem Spreads.exists_along {first : Frontier K} {rest : List (Frontier K)}
    (h : Spreads ports config t p source d state) (hnext : state.nextFrontier = first :: rest)
    (hedge : edge ∈ t.edgesAt p first.id) :
    ∃ state', Spreads ports config t p source (d + 1) state' ∧
      (visitEdge ports config (d + 1) first { state with nextFrontier := [] } edge).Grows state' ∧
      (visitEdge ports config (d + 1) first { state with nextFrontier := [] } edge).nextFrontier <+:
        state'.nextFrontier := by
  set edges := (t.edgesAt p first.id).erase edge with hedges
  set mid := edges.foldl (visitEdge ports config (d + 1) first)
    (visitEdge ports config (d + 1) first { state with nextFrontier := [] } edge) with hmid
  obtain ⟨state', hv⟩ := @Visits.exists_end _ _ _ ports config t p (d + 1) rest mid
  obtain ⟨hgrows, hprefix⟩ := @foldl_visitEdge_grows _ _ _ ports config (d + 1)
    (visitEdge ports config (d + 1) first { state with nextFrontier := [] } edge) first edges
  refine ⟨state', h.succ ?_, hgrows.trans hv.grows.1, hprefix.trans hv.grows.2⟩
  rw [hnext]
  exact .cons (List.perm_cons_erase hedge).symm hv

theorem mem_visited_visitEdge :
    edge.neighborId current.id ∈ (visitEdge ports config depth current state edge).visited := by
  unfold visitEdge
  dsimp only
  split_ifs with hseen
  · exact hseen
  · exact List.mem_append_right _ (List.mem_singleton_self _)
  · exact List.mem_append_right _ (List.mem_singleton_self _)

theorem exists_first (hagree : ∀ k < d, AgreeAt ports config t p source k) {node : String × K}
    (hnode : node ∈ (wave ports config t p source d).layer) :
    ∃ state, Spreads ports config t p source d state ∧
      ∃ first rest, state.nextFrontier = first :: rest ∧ first.pair = node := by
  induction d generalizing node with
  | zero =>
    refine ⟨.start source, .zero, _, [], rfl, ?_⟩
    exact (List.mem_singleton.1 hnode).symm
  | succ d ih =>
    have hbefore : ∀ k < d, AgreeAt ports config t p source k := fun k hk => hagree k (Nat.lt_succ_of_lt hk)
    obtain ⟨hcandidate, henough⟩ := List.mem_filter.1 hnode
    obtain ⟨parent, hparent, edge, hedge, hnew, rfl⟩ := Wave.mem_candidates.1 hcandidate
    obtain ⟨state, hstate, first, rest, hnext, rfl⟩ := ih hbefore hparent
    -- its parent comes first, and of the edges of its parent the one that leads to it
    obtain ⟨state', hstate', -, suffix, hsuffix⟩ := hstate.exists_along hnext hedge
    have hunseen : edge.neighborId first.id ∉ state.visited := ((hstate.follows hbefore).visited _).not.2 hnew
    have hlow : ¬ activation ports config (d + 1) (first.cumulativeStrength * edge.strength) < 1 / 10 ^ 6 :=
      not_lt.2 (of_decide_eq_true henough)
    rw [visitEdge, if_neg hunseen, if_neg hlow] at hsuffix
    exact ⟨state', hstate', _, suffix, hsuffix.symm, rfl⟩

theorem exists_decided (hagree : ∀ k < d, AgreeAt ports config t p source k) {c : String × K}
    (hc : c ∈ (wave ports config t p source d).candidates t p) (n : ℕ) :
    ∃ state, Spreads ports config t p source (d + 1 + n) state ∧ ∀ a,
      (c.1, a) ∈ state.results.map ActivationResult.pair ↔
        1 / 10 ^ 6 ≤ activation ports config (d + 1) c.2 ∧ a = activation ports config (d + 1) c.2 := by
  obtain ⟨parent, hparent, edge, hedge, hnew, rfl⟩ := Wave.mem_candidates.1 hc
  obtain ⟨state, hstate, first, rest, hnext, rfl⟩ := exists_first hagree hparent
  obtain ⟨mid, hmid, hgrows, -⟩ := hstate.exists_along hnext hedge
  obtain ⟨last, hlast, hgrows'⟩ := hmid.extend n
  have hunseen : edge.neighborId first.id ∉ state.visited := ((hstate.follows hagree).visited _).not.2 hnew
  have hbefore : ∀ a, (edge.neighborId first.id, a) ∉ state.results.map ActivationResult.pair := by
    intro a ha
    obtain ⟨r, hr, hpair⟩ := List.mem_map.1 ha
    have hid : r.memoryId = edge.neighborId first.id := congrArg Prod.fst hpair
    exact hunseen (hid ▸ hstate.sound.seen r hr)
  -- once it is visited, nothing is activated for it any more
  have hall := hgrows.trans hgrows'
  obtain ⟨fresh, hfresh, hlater⟩ := hall.results
  have hafter : ∀ a, (edge.neighborId first.id, a) ∉ fresh.map ActivationResult.pair := by
    intro a ha
    obtain ⟨r, hr, hpair⟩ := List.mem_map.1 ha
    have hid : r.memoryId = edge.neighborId first.id := congrArg Prod.fst hpair
    refine hlater r hr ?_
    rw [hid]
    exact mem_visited_visitEdge
  refine ⟨last, hlast, fun a => ?_⟩
  change (edge.neighborId first.id, a) ∈ last.results.map ActivationResult.pair ↔
    1 / 10 ^ 6 ≤ activation ports config (d + 1) (first.cumulativeStrength * edge.strength) ∧
      a = activation ports config (d + 1) (first.cumulativeStrength * edge.strength)
  rw [hfresh, List.map_append, List.mem_append, or_iff_left (hafter a)]
  rw [visitEdge, if_neg hunseen]
  split_ifs with hlow
  · exact ⟨fun h => absurd h (hbefore a), fun h => absurd hlow (not_lt.2 h.1)⟩
  · rw [List.map_append, List.mem_append, or_iff_right (hbefore a)]
    rw [List.map_singleton, List.mem_singleton, and_iff_right (not_lt.1 hlow), ActivationResult.pair]
    exact ⟨fun h => (Prod.ext_iff.1 h).2, fun h => Prod.ext rfl h⟩

/-- **The orders make no difference to any run exactly where the candidates agree.** -/
theorem unambiguous_iff : Unambiguous ports config t p source ↔
    ∀ state state', Spreads ports config t p source config.maxDepth state →
      Spreads ports config t p source config.maxDepth state' →
      ∀ c, c ∈ state.results.map ActivationResult.pair ↔ c ∈ state'.results.map ActivationResult.pair := by
  constructor
  · intro hagree state state' h h' c
    rw [(h.follows hagree).results, (h'.follows hagree).results]
  · intro hsame d
    induction d using Nat.strong_induction_on with
    | _ d ih =>
    intro hd c hc c' hc' hid
    have hbefore : ∀ k < d, AgreeAt ports config t p source k := fun k hk => ih k hk (hk.trans hd)
    obtain ⟨n, hn⟩ := Nat.exists_eq_add_of_le hd
    obtain ⟨state, hstate, hgets⟩ := exists_decided hbefore hc n
    obtain ⟨state', hstate', hgets'⟩ := exists_decided hbefore hc' n
    rw [← hid] at hgets'
    have heq : ∀ a, (1 / 10 ^ 6 ≤ activation ports config (d + 1) c.2 ∧ a = activation ports config (d + 1) c.2) ↔
        1 / 10 ^ 6 ≤ activation ports config (d + 1) c'.2 ∧ a = activation ports config (d + 1) c'.2 := fun a => by
      rw [← hgets, ← hgets']
      exact hsame state state' (hn ▸ hstate) (hn ▸ hstate') _
    by_cases henough : 1 / 10 ^ 6 ≤ activation ports config (d + 1) c.2
    · exact .inl ((heq _).1 ⟨henough, rfl⟩).2
    · refine .inr ⟨not_le.1 henough, not_le.1 fun henough' => henough ?_⟩
      exact ((heq _).2 ⟨henough', rfl⟩).1

end

/-! ## The saliences -/

/-- The tables once the memories are activated. -/
def MemoryTables.activated (t : MemoryTables K) (p : String) (results : List (ActivationResult K)) : MemoryTables K :=
  results.foldl (fun t r => ((MemCmd.updateSalienceDelta r.memoryId p r.delta).effect t).1) t

/-- What a memory is worth once it is activated. -/
def MemoryRow.boosted (p : String) (results : List (ActivationResult K)) (row : MemoryRow K) : MemoryRow K :=
  match results.find? fun r => r.memoryId = row.id ∧ row.personaId = p with
  | none => row
  | some r => { row with salience := min 1 (row.salience + r.delta) }

/-- **What the activation does to a memory** depends on what it gets alone. -/
theorem activated_eq {results : List (ActivationResult K)} (h : (results.map fun r => r.memoryId).Nodup) :
    t.activated p results = { t with nodes := t.nodes.map fun row => row.boosted p results } := by
  induction results generalizing t with
  | nil =>
    have hid : (t.nodes.map fun row => row.boosted p []) = t.nodes := by simp [MemoryRow.boosted]
    rw [hid]
    rfl
  | cons r results ih =>
    obtain ⟨hnew, hrest⟩ := List.nodup_cons.1 h
    rw [MemoryTables.activated, List.foldl_cons]
    change MemoryTables.activated _ p results = _
    rw [ih hrest]
    simp only [MemCmd.effect, MemoryTables.updateNodes, Table.update, List.map_map]
    congr 1
    refine List.map_congr_left fun row _ => ?_
    rw [Function.comp_apply]
    by_cases hrow : row.id = r.memoryId ∧ row.personaId = p
    · have hfirst : r.memoryId = row.id ∧ row.personaId = p := ⟨hrow.1.symm, hrow.2⟩
      have hnone : results.find? (fun r' => r'.memoryId = row.id ∧ row.personaId = p) = none := by
        refine List.find?_eq_none.2 fun r' hr' => ?_
        rw [decide_eq_true_eq]
        rintro ⟨heq, -⟩
        exact hnew (List.mem_map.2 ⟨r', hr', heq.trans hrow.1⟩)
      rw [if_pos hrow, MemoryRow.boosted, MemoryRow.boosted, List.find?_cons_of_pos (by simpa using hfirst)]
      dsimp only
      rw [hnone]
    · have hskip : ¬ (r.memoryId = row.id ∧ row.personaId = p) := fun h => hrow ⟨h.1.symm, h.2⟩
      rw [if_neg hrow, MemoryRow.boosted, MemoryRow.boosted, List.find?_cons_of_neg (by simpa using hskip)]

/-- The same amounts for the same memories. -/
theorem boosted_congr {results results' : List (ActivationResult K)} (h : (results.map fun r => r.memoryId).Nodup)
    (hsame : ∀ c, c ∈ results.map ActivationResult.pair ↔ c ∈ results'.map ActivationResult.pair) (row : MemoryRow K) :
    row.boosted p results' = row.boosted p results := by
  unfold MemoryRow.boosted
  cases hfind : results'.find? fun r => r.memoryId = row.id ∧ row.personaId = p with
  | none =>
    have hnone : results.find? (fun r => r.memoryId = row.id ∧ row.personaId = p) = none := by
      refine List.find?_eq_none.2 fun r hr => ?_
      obtain ⟨r', hr', hpair⟩ := List.mem_map.1 ((hsame _).1 (List.mem_map_of_mem hr))
      have hid : r'.memoryId = r.memoryId := congrArg Prod.fst hpair
      have hnot := List.find?_eq_none.1 hfind r' hr'
      rwa [hid] at hnot
    rw [hnone]
  | some r' =>
    have hp := List.find?_some hfind
    obtain ⟨r, hr, hpair⟩ := List.mem_map.1 ((hsame _).2 (List.mem_map_of_mem (List.mem_of_find?_eq_some hfind)))
    obtain ⟨hid, hdelta⟩ := Prod.ext_iff.1 hpair
    have hid : r.memoryId = r'.memoryId := hid
    have hdelta : r.delta = r'.delta := hdelta
    have hfound : results.find? (fun r => r.memoryId = row.id ∧ row.personaId = p) = some r := by
      cases hfind' : results.find? fun r => r.memoryId = row.id ∧ row.personaId = p with
      | none =>
        have hnot := List.find?_eq_none.1 hfind' r hr
        rw [hid] at hnot
        exact absurd hp hnot
      | some s =>
        have hs := List.find?_some hfind'
        rw [decide_eq_true_eq] at hp hs
        exact congrArg some (List.inj_on_of_nodup_map h (List.mem_of_find?_eq_some hfind') hr
          (hs.1.trans (hp.1.symm.trans hid.symm)))
    rw [hfound]
    dsimp only
    rw [hdelta]

section
variable [IsStrictOrderedRing K]

theorem Constraints.activate (h : Constraints t) {id : String} {delta : K} (hd : 0 ≤ delta) :
    Constraints ((MemCmd.updateSalienceDelta id p delta).effect t).1 := by
  have hids : (((MemCmd.updateSalienceDelta id p delta).effect t).1).nodes.map (fun row => row.id) =
      t.nodes.map fun row => row.id := Table.map_update fun _ _ => rfl
  exact
    { node_key := hids ▸ h.node_key
      valence := Table.forall_mem_update h.valence fun _ _ hv => hv
      salience := Table.forall_mem_update h.salience fun _ _ hs =>
        ⟨le_min zero_le_one (add_nonneg hs.1 hd), min_le_left _ _⟩
      consolidatedFrom := fun row hrow source hsource => by
        rw [hids]
        obtain ⟨old, hold, rfl⟩ := Table.mem_update.1 hrow
        refine h.consolidatedFrom old hold source ?_
        split at hsource <;> exact hsource
      edge_key := h.edge_key
      strength := h.strength
      ends := fun edge hedge => hids ▸ h.ends edge hedge
      slot_key := h.slot_key
      memory := fun slot hslot => hids ▸ h.memory slot hslot }

/-! ## The call -/

theorem spreadEdges_cons (edges : List (EdgeRow K)) :
    spreadEdges ports config p depth current (edge :: edges) state =
      let neighborId := edge.neighborId current.id
      let pathStrength := current.cumulativeStrength * edge.strength
      let delta := activation ports config depth pathStrength
      let path := current.path ++ [neighborId]
      if neighborId ∈ state.visited then spreadEdges ports config p depth current edges state
      else if delta < 1 / 10 ^ 6 then
        spreadEdges ports config p depth current edges { state with visited := state.visited ++ [neighborId] }
      else execute (.updateSalienceDelta neighborId p delta) >>= fun _ =>
        spreadEdges ports config p depth current edges
          ⟨state.visited ++ [neighborId], state.results ++ [⟨neighborId, delta, path⟩],
            state.nextFrontier ++ [⟨neighborId, pathStrength, path⟩]⟩ := rfl

theorem activated_append {results : List (ActivationResult K)} {r : ActivationResult K} :
    t.activated p (results ++ [r]) =
      ((MemCmd.updateSalienceDelta r.memoryId p r.delta).effect (t.activated p results)).1 := by
  rw [MemoryTables.activated, List.foldl_append]
  rfl

/-- Of the loop over the edges of a node nothing is open. -/
theorem spreadEdges_ensures (edges : List (EdgeRow K)) {Q : Except String (Spread K) → MemoryDb K → Prop}
    (h : db.toMemoryTables = t.activated p state.results)
    (hQ : ∀ db' : MemoryDb K, db'.toMemoryTables =
        t.activated p (edges.foldl (visitEdge ports config depth current) state).results →
      Q (.ok (edges.foldl (visitEdge ports config depth current) state)) db') :
    (spreadEdges ports config p depth current edges state).Ensures exec Q db := by
  induction edges generalizing state db with
  | nil => exact hQ db h
  | cons edge edges ih =>
    rw [List.foldl_cons, visitEdge] at hQ
    rw [spreadEdges_cons]
    dsimp only at hQ ⊢
    split_ifs at hQ ⊢ with hseen hlow
    · exact ih h hQ
    · exact ih h hQ
    · have hdelta := (one_div_pos.2 (pow_pos (by norm_num) 6)).le.trans (not_lt.1 hlow)
      have heffect : (MemCmd.updateSalienceDelta (edge.neighborId current.id) p
          (activation ports config depth (current.cumulativeStrength * edge.strength))).effect db.toMemoryTables =
            ((⟨_, db.sound.activate hdelta⟩ : MemoryDb K).toMemoryTables, _) := rfl
      rw [Prog.ensures_bind_iff, execute_ensures_iff heffect]
      refine ih ?_ hQ
      rw [activated_append, ← h]

theorem edgesOf_activated (results : List (ActivationResult K)) : (t.activated p results).edges = t.edges := by
  induction results generalizing t with
  | nil => rfl
  | cons r results ih => exact ih

theorem spreadFrontier_ensures (frontier : List (Frontier K)) {Q : Except String (Spread K) → MemoryDb K → Prop}
    (h : db.toMemoryTables = t.activated p state.results)
    (hQ : ∀ state', Visits ports config t p depth frontier state state' → ∀ db' : MemoryDb K,
      db'.toMemoryTables = t.activated p state'.results → Q (.ok state') db') :
    (spreadFrontier ports config p depth frontier state).Ensures exec Q db := by
  induction frontier generalizing state db with
  | nil => exact hQ state .nil db h
  | cons current frontier ih =>
    refine .queryAny fun e => .bind (spreadEdges_ensures _ h fun db' h' =>
      ih h' fun state' hv => hQ state' (.cons ?_ hv))
    have hedges : db.edges = t.edges := by rw [h, edgesOf_activated]
    rw [MemoryTables.edgesOf, hedges]
    exact shuffle_perm _ _

theorem spreadDepths_ensures (rounds : ℕ) {Q : Except String (Spread K) → MemoryDb K → Prop}
    (hs : Spreads ports config t p source d state) (h : db.toMemoryTables = t.activated p state.results)
    (hQ : ∀ state', Spreads ports config t p source (d + rounds) state' → ∀ db' : MemoryDb K,
      db'.toMemoryTables = t.activated p state'.results → Q (.ok state') db') :
    (spreadDepths ports config p rounds (d + 1) state).Ensures exec Q db := by
  induction rounds generalizing d state db with
  | zero => exact hQ state hs db h
  | succ rounds ih =>
    refine .bind (spreadFrontier_ensures _ h fun mid hv db' h' => ih (hs.succ hv) h' fun state' hs' => hQ state' ?_)
    rwa [Nat.add_assoc, Nat.add_comm 1] at hs'

/-- **Every run is one of those.** -/
theorem spreadActivation_ensures :
    (spreadActivation ports config p source).Ensures exec (fun r db' => ∃ state,
      Spreads ports config db.toMemoryTables p source config.maxDepth state ∧ r = .ok state.results ∧
        db'.toMemoryTables = db.activated p state.results) db := by
  refine .bind (@spreadDepths_ensures _ _ _ ports config _ p source db 0 (.start source) _ config.maxDepth _ .zero rfl
    fun state hs db' h => ⟨state, ?_, rfl, h⟩)
  rwa [Nat.zero_add] at hs

/-- Some order of the edges is that of a run. -/
theorem spreadFrontier_mayEnd {frontier : List (Frontier K)} {Q : Except String (Spread K) → MemoryDb K → Prop}
    (hv : Visits ports config t p depth frontier state state') (h : db.toMemoryTables = t.activated p state.results)
    (hQ : ∀ db' : MemoryDb K, db'.toMemoryTables = t.activated p state'.results → Q (.ok state') db') :
    (spreadFrontier ports config p depth frontier state).MayEnd exec Q db := by
  induction hv generalizing db with
  | nil => exact hQ db h
  | @cons current frontier edges state state' hedges hv ih =>
    have hsame : (db.edgesOf p).filter (fun edge => edge.source = current.id ∨ edge.target = current.id) =
        t.edgesAt p current.id := by
      rw [MemoryTables.edgesOf, h, edgesOf_activated]
      rfl
    obtain ⟨n, hn⟩ := exists_shuffle hedges
    refine .queryAny ⟨0, "", n⟩ ?_
    rw [hsame, hn]
    exact .bind (spreadEdges_ensures edges h fun db' h' => ih h' hQ).mayEnd

theorem spreadDepths_mayEnd {Q : Except String (Spread K) → MemoryDb K → Prop}
    (hs : Spreads ports config db.toMemoryTables p source d state) {rounds : ℕ}
    (hQ : ∀ db' : MemoryDb K, db'.toMemoryTables = db.activated p state.results →
      (spreadDepths ports config p rounds (d + 1) state).MayEnd exec Q db') :
    (spreadDepths ports config p (d + rounds) 1 (.start source)).MayEnd exec Q db := by
  induction hs generalizing rounds with
  | zero =>
    rw [Nat.zero_add]
    exact hQ db rfl
  | @succ d before state hs hv ih =>
    rw [Nat.add_assoc, Nat.add_comm 1]
    exact ih fun db' h => .bind (spreadFrontier_mayEnd hv h hQ)

/-- **Every one of those is a run.** -/
theorem Spreads.exists_solo (hs : Spreads ports config db.toMemoryTables p source config.maxDepth state) :
    ∃ os, ((spreadActivation ports config p source).solo exec os db).2 = .ok state.results := by
  refine Prog.MayEnd.exists_solo (Q := fun r _ => r = .ok state.results) (.bind ?_)
  exact @spreadDepths_mayEnd _ _ _ ports config p source db config.maxDepth state _ _ hs 0 fun _ _ => rfl

theorem db_eq {db' : MemoryDb K} (h : db.toMemoryTables = db'.toMemoryTables) : db = db' := by
  cases db
  cases db'
  cases h
  rfl

theorem Determined.unambiguous (h : Determined ports config p source db) :
    Unambiguous ports config db.toMemoryTables p source := by
  refine unambiguous_iff.2 fun state state' hs hs' => ?_
  obtain ⟨os, hos⟩ := hs.exists_solo
  obtain ⟨os', hos'⟩ := hs'.exists_solo
  exact (h.same os os' _ _ hos hos').1

theorem Unambiguous.determined (h : Unambiguous ports config db.toMemoryTables p source) :
    Determined ports config p source db := by
  have hrun : ∀ os, ∃ state, Spreads ports config db.toMemoryTables p source config.maxDepth state ∧
      ((spreadActivation ports config p source).solo exec os db).2 = .ok state.results ∧
      ((spreadActivation ports config p source).solo exec os db).1.toMemoryTables = db.activated p state.results :=
    fun os => spreadActivation_ensures.solo os
  refine ⟨fun os => ?_, fun os os' results results' hr hr' => ?_⟩
  · obtain ⟨state, hs, hr, -⟩ := hrun os
    exact ⟨state.results, hr, hs.sound.once, hs.sound.route⟩
  · obtain ⟨state, hs, hr₁, hdb⟩ := hrun os
    obtain ⟨state', hs', hr₂, hdb'⟩ := hrun os'
    obtain rfl : state.results = results := Except.ok.inj (hr₁.symm.trans hr)
    obtain rfl : state'.results = results' := Except.ok.inj (hr₂.symm.trans hr')
    have hsame := unambiguous_iff.1 h state state' hs hs'
    refine ⟨hsame, db_eq ?_⟩
    rw [hdb, hdb', activated_eq hs.sound.once, activated_eq hs'.sound.once]
    congr 1
    exact List.map_congr_left fun row _ => (boosted_congr hs.sound.once hsame row).symm

/-- **Spreading activation is a function of the graph** exactly where it is unambiguous. -/
theorem spreadActivation_iff (ports : MemoryPorts K) (config : MemoryCognitionConfig K) (p source : String)
    (db : MemoryDb K) :
    Determined ports config p source db ↔ Unambiguous ports config db.toMemoryTables p source :=
  ⟨Determined.unambiguous, Unambiguous.determined⟩

end

/-! ## Two memories -/

noncomputable def twoMemories (edges : List (EdgeRow ℝ)) : MemoryTables ℝ where
  nodes := ["a", "b"].map fun id => ⟨⟨id, .episodic, "", 0, 1 / 2, 0, 0, 0, 0, 0, none⟩, "p"⟩
  edges
  slots := []

/-- One edge joins the two. -/
noncomputable def joinedOnce : MemoryDb ℝ where
  toMemoryTables := twoMemories [⟨⟨"a", "b", 1, ""⟩, "p"⟩]
  sound := by
    have hhalf : (2⁻¹ : ℝ) ≤ 1 := by norm_num
    constructor <;> simp [twoMemories, hhalf]

/-- A strong edge leads from the first to the second, and a weak one back. -/
noncomputable def joinedTwice : MemoryDb ℝ where
  toMemoryTables := twoMemories [⟨⟨"a", "b", 1, ""⟩, "p"⟩, ⟨⟨"b", "a", 1 / 2, ""⟩, "p"⟩]
  sound := by
    have hhalf : (2⁻¹ : ℝ) ≤ 1 := by norm_num
    constructor <;> simp [twoMemories, hhalf]

theorem spreadActivation_iff_joinedOnce : Determined realPorts DEFAULT_COGNITION_CONFIG "p" "a" joinedOnce := by
  refine (spreadActivation_iff realPorts DEFAULT_COGNITION_CONFIG "p" "a" joinedOnce).2 fun d hd c hc c' hc' hid => ?_
  have hcases : d = 0 ∨ d = 1 := by
    have hd' : d < 2 := hd
    omega
  have hfirst : (wave realPorts DEFAULT_COGNITION_CONFIG joinedOnce.toMemoryTables "p" "a" 0).candidates
      joinedOnce.toMemoryTables "p" = [("b", 1)] := by
    simp [Wave.candidates, wave, MemoryTables.edgesAt, MemoryTables.edgesOf, joinedOnce, twoMemories,
      EdgeRow.neighborId]
  rcases hcases with rfl | rfl
  · rw [hfirst, List.mem_singleton] at hc hc'
    rw [hc, hc']
    exact .inl rfl
  · -- nothing is left to be reached
    obtain ⟨node, -, edge, hedge, hnew, -⟩ := Wave.mem_candidates.1 hc
    refine absurd ?_ hnew
    rw [wave, hfirst]
    obtain rfl : edge = ⟨⟨"a", "b", 1, ""⟩, "p"⟩ := by
      simpa [joinedOnce, twoMemories] using (List.mem_filter.1 (List.mem_filter.1 hedge).1).1
    unfold EdgeRow.neighborId
    split_ifs <;> simp [wave]

/-- Which of the two edges comes first decides how much the second memory gets. -/
theorem order_decides : ¬ ∀ (config : MemoryCognitionConfig ℝ) (p source : String) (db : MemoryDb ℝ),
    Determined realPorts config p source db := by
  intro h
  have hagree := (h DEFAULT_COGNITION_CONFIG "p" "a" joinedTwice).unambiguous 0 (by decide)
  have hfirst : (wave realPorts DEFAULT_COGNITION_CONFIG joinedTwice.toMemoryTables "p" "a" 0).candidates
      joinedTwice.toMemoryTables "p" = [("b", 1), ("b", 1 / 2)] := by
    simp [Wave.candidates, wave, MemoryTables.edgesAt, MemoryTables.edgesOf, joinedTwice, twoMemories,
      EdgeRow.neighborId]
  have halike := hagree ("b", 1) (by simp [hfirst]) ("b", 1 / 2) (by simp [hfirst]) rfl
  have hexp := Real.add_one_le_exp (-(1 / 2) * 1 : ℝ)
  rcases halike with heq | ⟨hlow, -⟩
  · simp [activation, realPorts, DEFAULT_COGNITION_CONFIG] at heq
  · simp [activation, realPorts, DEFAULT_COGNITION_CONFIG] at hlow
    norm_num at hlow hexp
    linarith

end ChronoSynth.Memory

import ChronoSynth.Workforce.Absorb
import ChronoSynth.Workforce.Bootstrap
import ChronoSynth.Workforce.Frames

/-!
# The chart is a tree

The reporting edges of an organisation are a single rooted tree over its workers (`OrgTree`). Hiring,
moving and taking out of service always keep it. `bootstrap` and `absorb` do so where the organisation is
new, and where `findRoot` finds the root of the source.
-/

namespace ChronoSynth.Workforce

open Service

variable {s s' : Store} {e : Env} {orgId orgId' : OrgId} {workerId v p m : Id}

/-- The reporting edges of an organisation form a single rooted tree over its workers. -/
structure OrgTree (s : Store) (orgId : OrgId) : Prop where
  one_edge : ∀ v ∈ s.Members orgId,
    s.edges.countP (fun edge => edge.orgId = orgId ∧ edge.reportWorkerId = v) = 1
  member : ∀ edge ∈ s.edges, edge.orgId = orgId →
    edge.reportWorkerId ∈ s.Members orgId ∧ ∀ m ∈ edge.managerWorkerId, m ∈ s.Members orgId
  /-- Exactly one worker has no manager. -/
  one_root : ∃! r, r ∈ s.Members orgId ∧ ∀ m, ¬ s.ReportsTo orgId r m
  /-- Following managers from any worker one gets to the root. -/
  reach : ∀ v ∈ s.Members orgId, ∀ r ∈ s.Members orgId, (∀ m, ¬ s.ReportsTo orgId r m) →
    Relation.ReflTransGen (s.ReportsTo orgId) v r

/-- What holds of the chart: it is a tree wherever there are workers, and only there there are positions. -/
structure Charted (s : Store) : Prop extends Roster s, Positions s where
  /-- A position belongs to an organisation with workers. -/
  staffed : ∀ p ∈ s.positions, (s.Members p.orgId).Nonempty
  placed : ∀ orgId, ∀ v ∈ s.Members orgId,
    ∃ edge ∈ s.edges, edge.orgId = orgId ∧ edge.reportWorkerId = v
  /-- The edges of an organisation are a tree. -/
  tree : ∀ orgId, (s.Members orgId).Nonempty →
    ∃ root, RootedTree (s.Members orgId) (s.ReportsTo orgId) root

namespace Charted

theorem empty : Charted .empty where
  toRoster := .empty
  toPositions := ⟨by simp [Store.empty], by simp [Store.empty]⟩
  staffed := by simp [Store.empty]
  placed := by simp [Store.empty, Store.Members]
  tree := by simp [Store.empty, Store.Members]

theorem orgTree (h : Charted s) (hne : (s.Members orgId).Nonempty) : OrgTree s orgId := by
  obtain ⟨root, htree⟩ := h.tree orgId hne
  refine ⟨fun v hv => ?_, fun edge hedge ho => ?_, ⟨root, ⟨htree.root_mem, htree.root_top⟩, ?_⟩,
    fun v hv r hr htop => ?_⟩
  · obtain ⟨edge, hedge, ho, hr⟩ := h.placed orgId v hv
    have hfilter : s.edges.filter (fun edge => edge.orgId = orgId ∧ edge.reportWorkerId = v) =
        s.edges.filter (fun f => f.reportWorkerId = edge.reportWorkerId) := by
      refine List.filter_congr fun f hf => ?_
      simp only [decide_eq_decide]
      refine ⟨fun hf' => hf'.2.trans hr.symm, fun hf' => ?_⟩
      rw [h.edge_eq hf hedge hf']
      exact ⟨ho, hr⟩
    rw [List.countP_eq_length_filter, hfilter, filter_key_eq_singleton h.edges_nodup hedge]
    rfl
  · exact ⟨ho ▸ h.report_member edge hedge, ho ▸ h.manager_member edge hedge⟩
  · rintro r ⟨hr, htop⟩
    exact htree.eq_root hr htop
  · rw [htree.eq_root hr htop]
    exact htree.reach v hv

/-- The chart only looks at three tables, and of the workers only at who is where; more numbers may have
been drawn. -/
theorem of_workers (h : Charted s) (hdrawn : s.drawn ⊆ s'.drawn) (hpositions : s'.positions = s.positions)
    {q : DigitalWorker → Prop} [DecidablePred q] {g : DigitalWorker → DigitalWorker}
    (hworkers : s'.workers = Table.update q g s.workers)
    (hg : ∀ w, (g w).id = w.id ∧ (g w).orgId = w.orgId) (hedges : s'.edges = s.edges) : Charted s' := by
  have hmembers : s'.Members = s.Members := by
    funext org
    exact Store.members_update hworkers hg
  have hreports : s'.ReportsTo = s.ReportsTo := by
    funext org v p
    simp [Store.ReportsTo, hedges]
  have hids : s'.workers.map (·.id) = s.workers.map (·.id) := by
    rw [hworkers]
    exact Table.map_update fun w _ => (hg w).1
  refine ⟨⟨?_, hids ▸ h.workers_nodup, hpositions ▸ h.roles_nodup, hedges ▸ h.edges_nodup, ?_, ?_⟩,
    ⟨?_, ?_⟩, ?_, ?_, ?_⟩
  · rw [hworkers]
    exact Table.forall_mem_update (fun w hw => hdrawn (h.drawn w hw)) fun w _ hw => (hg w).1 ▸ hw
  · rw [hedges, hmembers]
    exact h.report_member
  · rw [hedges, hmembers]
    exact h.manager_member
  · rw [hpositions]
    exact fun p hp => hdrawn (h.positions_drawn p hp)
  · rw [hpositions]
    exact h.positions_nodup
  · rw [hpositions, hmembers]
    exact h.staffed
  · rw [hmembers, hedges]
    exact h.placed
  · rw [hmembers, hreports]
    exact h.tree

theorem of_eq (h : Charted s) (hdrawn : s.drawn ⊆ s'.drawn) (hpositions : s'.positions = s.positions)
    (hworkers : s'.workers = s.workers) (hedges : s'.edges = s.edges) : Charted s' :=
  h.of_workers (q := fun _ => False) (g := id) hdrawn hpositions
    (hworkers.trans (Table.update_eq_self fun _ _ => id).symm) (fun _ => ⟨rfl, rfl⟩) hedges

/-! ## Another manager -/

/-- A worker who is moved where `reparent` allows it. -/
theorem reparentWorker (h : Charted s) (hr : Reparentable s orgId workerId m) {now : Time} :
    Charted (s.reparentWorker orgId workerId (some m) now).2 := by
  set s' := (s.reparentWorker orgId workerId (some m) now).2 with hs'
  have hmembers : ∀ org, s'.Members org = s.Members org := fun org => Store.members_reparentWorker
  have hreports : ∀ org v p, s'.ReportsTo org v p ↔
      (s.ReportsTo org v p ∧ ¬ (org = orgId ∧ v = workerId)) ∨
        (org = orgId ∧ v = workerId ∧ some m = some p ∧
          ∃ edge ∈ s.edges, edge.orgId = orgId ∧ edge.reportWorkerId = workerId) :=
    fun org v p => Store.reportsTo_reparentWorker
  refine ⟨h.toRoster.reparentWorker hr.manager_member, ⟨h.positions_drawn, h.positions_nodup⟩,
    fun p hp => ?_, fun org v hv => ?_, fun org hne => ?_⟩
  · rw [hmembers]
    exact h.staffed p hp
  · rw [hmembers] at hv
    exact Table.exists_mem_update
      (P := fun edge : ReportingEdge => edge.orgId = org ∧ edge.reportWorkerId = v) (h.placed org v hv)
      fun _ _ hf => hf
  · rw [hmembers] at hne ⊢
    obtain ⟨root, htree⟩ := h.tree org hne
    refine ⟨root, ?_⟩
    by_cases horg : org = orgId
    · subst horg
      refine htree.move hr.manager_member
        (Store.not_below_of_isInSubtree (fun v p hv => h.member_of_reportsTo hv) hr.member hr.above)
        (fun p => ?_) fun v _ hne p => ?_
      · rw [hreports]
        constructor
        · rintro (⟨-, hn⟩ | ⟨-, -, hp, -⟩)
          · exact absurd ⟨rfl, rfl⟩ hn
          · exact (Option.some.inj hp).symm
        · rintro rfl
          exact .inr ⟨rfl, rfl, rfl, hr.edge⟩
      · simp [hreports, hne]
    · exact htree.congr fun v _ p => by simp [hreports, horg]

/-- **`reparent`** keeps the chart a tree, and has done nothing when it throws. -/
theorem reparent (h : Charted s) : Ensures (Workforce.reparent e orgId workerId m) s fun r s' =>
    match r with
    | .ok _ => Charted s'
    | .error _ => s' = s := by
  refine reparent_ensures.mono fun r s' hr => ?_
  cases r with
  | ok _ =>
    obtain ⟨hr, rfl⟩ := hr
    exact h.reparentWorker hr
  | error _ =>
    rcases hr with rfl | ⟨hmember, hnone, -⟩
    · rfl
    · obtain ⟨edge, hedge, ho, hw⟩ := h.placed orgId workerId hmember
      exact absurd hw (hnone edge hedge ho)

/-! ## A new worker -/

/-- **`hireWorker`** adds a leaf. -/
theorem hireWorker (h : Charted s) {spec : HireSpec} :
    Ensures (Workforce.hireWorker e orgId spec) s fun r s' =>
      match r with
      | .ok _ => Charted s'
      | .error _ => s' = s := by
  refine (hireWorker_ensures h.toRoster).mono fun r s' hr => ?_
  cases r with
  | error _ => exact hr.1
  | ok workerId =>
    obtain ⟨hm, hfree, hnew, positionId, hposition, edgeId, rfl⟩ := hr
    set s' := (s.hired orgId spec.roleCode spec.personaId e.now positionId workerId).withEdge
      ⟨edgeId, orgId, some spec.managerWorkerId, workerId, spec.edgeType.getD .solid, e.now⟩ with hs'
    have hmembers : ∀ org, s'.Members org = s.Members org ∪ {i | orgId = org ∧ i = workerId} :=
      fun org => @Store.members_hired _ _ org _ spec.roleCode _ _ _
    have hreports : ∀ org v p, s'.ReportsTo org v p ↔ s.ReportsTo org v p ∨
        (orgId = org ∧ workerId = v ∧ some spec.managerWorkerId = some p) :=
      fun org v p => Store.reportsTo_withEdge
    have hother : ∀ org, ∀ v ∈ s.Members org, v ≠ workerId := by
      rintro org v ⟨w, hw, -, rfl⟩ rfl
      exact hnew (h.drawn w hw)
    refine ⟨h.toRoster.hiredUnder hm hfree hnew, ?_, fun p hp => ?_, fun org v hv => ?_, fun org hne => ?_⟩
    · have hp := @Positions.hired _ orgId workerId h.toPositions spec.roleCode spec.personaId e.now _
        hposition
      exact ⟨fun p hmem => List.mem_cons_of_mem _ (hp.positions_drawn p hmem), hp.positions_nodup⟩
    · rw [hmembers]
      rcases List.mem_append.1 hp with hp | hp
      · exact (h.staffed p hp).mono Set.subset_union_left
      · obtain rfl := List.mem_singleton.1 hp
        exact ⟨workerId, .inr ⟨rfl, rfl⟩⟩
    · rw [hmembers] at hv
      rcases hv with hv | ⟨rfl, rfl⟩
      · obtain ⟨edge, hedge, hrest⟩ := h.placed org v hv
        exact ⟨edge, List.mem_append_left _ hedge, hrest⟩
      · exact ⟨_, List.mem_append_right _ (List.mem_singleton_self _), rfl, rfl⟩
    · rw [hmembers] at hne ⊢
      by_cases horg : orgId = org
      · subst horg
        obtain ⟨root, htree⟩ := h.tree orgId ⟨_, hm⟩
        have hset : s.Members orgId ∪ {i | orgId = orgId ∧ i = workerId} =
            insert workerId (s.Members orgId) := by
          ext i
          simp
        rw [hset]
        refine ⟨root, htree.leaf hm (fun p => ?_) fun v hv p => ?_⟩
        · rw [hreports]
          constructor
          · rintro (hv | ⟨-, -, hp⟩)
            · exact absurd rfl (hother orgId _ (h.member_of_reportsTo hv))
            · exact (Option.some.inj hp).symm
          · rintro rfl
            exact .inr ⟨rfl, rfl, rfl⟩
        · simp [hreports, (hother orgId v hv).symm]
      · have hset : s.Members org ∪ {i | orgId = org ∧ i = workerId} = s.Members org := by
          simp [horg]
        rw [hset] at hne ⊢
        obtain ⟨root, htree⟩ := h.tree org hne
        exact ⟨root, htree.congr fun v _ p => by simp [hreports, horg]⟩

/-! ## Out of service -/

theorem settleReports (h : Charted s) {input : OffboardInput} {reports : List Id} :
    Ensures (Workforce.settleReports e input reports) s fun r s' =>
      match r with
      | .ok _ => Charted s'
      | .error _ => True := by
  unfold Workforce.settleReports
  simp only [ensures_ite, ensures_pure]
  refine ⟨fun _ => h, fun _ => ?_⟩
  split
  · trivial
  · simp only [ensures_bind, ensures_get, ensures_require]
    refine ⟨fun _ => ensures_forM (fun _ s => Charted s) h (fun i rest s hs => ?_) fun s hs => hs,
      fun _ => trivial⟩
    refine hs.reparent.mono fun r s' hr => ?_
    cases r with
    | ok _ => exact hr
    | error _ => trivial

/-- **`offboard`** keeps the chart a tree, and has done nothing when it throws. -/
theorem offboard (h : Charted s) {input : OffboardInput} :
    Ensures (Workforce.offboard e input) s fun r s' =>
      match r with
      | .ok _ => Charted s'
      | .error _ => s' = s := by
  unfold Workforce.offboard
  simp only [ensures_bind, ensures_get, ensures_require, ensures_transaction]
  refine ⟨fun _ => ⟨fun _ => ?_, fun _ => trivial⟩, fun _ => trivial⟩
  refine h.settleReports.mono fun r s₁ hr => ?_
  cases r with
  | error _ => trivial
  | ok _ =>
    refine (keeps_settleTasks (T := [.tasks]) (by simp) s₁).mono fun r s₂ hframe => ?_
    cases r with
    | error _ => trivial
    | ok _ =>
      have h₂ : Charted s₂ := hr.of_eq hframe.drawn (hframe.same .positions (by simp))
        (hframe.same .workers (by simp)) (hframe.same .edges (by simp))
      simp only [changed, ensures_modifyGet]
      exact ⟨fun _ => h₂.of_workers (List.Subset.refl _) rfl rfl (fun _ => ⟨rfl, rfl⟩) rfl, fun _ => trivial⟩

end Charted

end ChronoSynth.Workforce

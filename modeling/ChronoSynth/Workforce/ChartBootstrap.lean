import ChronoSynth.Workforce.ChartTree

/-!
# Setting up a chart

`bootstrap` adds a copy of the tree of role codes to the chart, or throws. In an organisation that has
workers already the first makes a second root, and the second may leave a part of the new workers
(`Charted.bootstrap`).
-/

namespace ChronoSynth.Workforce

open Service

variable {s s' s₁ : Store} {e : Env} {orgId orgId' : OrgId} {workerId v p m : Id} {specs : List WorkerSpec}

/-- The tables of the chart. -/
def Store.chart (s : Store) : List OrgPosition × List DigitalWorker × List ReportingEdge :=
  (s.positions, s.workers, s.edges)

/-! ## Setting up an organisation -/

/-- `bootstrap` is refused at once, or sets up a new organisation. -/
def BootstrapKeeps (s : Store) (orgId : OrgId) (specs : List WorkerSpec) : Prop :=
  specs = [] ∨ validateStructure specs ≠ .ok () ∨ (∀ w ∈ s.workers, w.orgId ≠ orgId) ∨
    ∃ spec ∈ specs.head?, ¬ s.RoleFree orgId spec.roleCode

/-- What `bootstrap` leaves when it goes through: a copy of the tree of role codes, by `f`. -/
structure Booted (s s' : Store) (orgId : OrgId) (specs : List WorkerSpec) (f : String → Id) : Prop where
  roster : Roster s'
  positions : Positions s'
  inj : Set.InjOn f (WorkerSpec.Roles specs)
  fresh : ∀ r ∈ WorkerSpec.Roles specs, f r ∉ s.drawn
  members : ∀ org v, v ∈ s'.Members org ↔
    v ∈ s.Members org ∨ org = orgId ∧ v ∈ f '' WorkerSpec.Roles specs
  reports : ∀ org v p, s'.ReportsTo org v p ↔ s.ReportsTo org v p ∨
    org = orgId ∧ ∃ r ∈ WorkerSpec.Roles specs, f r = v ∧ ∃ m, WorkerSpec.Under specs r m ∧ f m = p
  placed : ∀ r ∈ WorkerSpec.Roles specs,
    ∃ edge ∈ s'.edges, edge.orgId = orgId ∧ edge.reportWorkerId = f r
  kept : ∀ edge ∈ s.edges, edge ∈ s'.edges
  staffed : ∀ p ∈ s'.positions, p ∈ s.positions ∨ p.orgId = orgId

theorem Roster.withEdges (h : Roster s) {edges : List ReportingEdge} {d : List Id} (hd : s.drawn ⊆ d)
    (hnodup : (edges.map (·.reportWorkerId)).Nodup)
    (hnew : ∀ edge ∈ edges, ∀ f ∈ s.edges, f.reportWorkerId ≠ edge.reportWorkerId)
    (hreport : ∀ edge ∈ edges, edge.reportWorkerId ∈ s.Members edge.orgId)
    (hmanager : ∀ edge ∈ edges, ∀ q ∈ edge.managerWorkerId, q ∈ s.Members edge.orgId) :
    Roster { s with drawn := d, edges := s.edges ++ edges } := by
  refine ⟨fun w hw => hd (h.drawn w hw), h.workers_nodup, h.roles_nodup, ?_, ?_, ?_⟩
  · rw [List.map_append]
    refine List.Nodup.append h.edges_nodup hnodup fun i hi hi' => ?_
    obtain ⟨f, hf, rfl⟩ := List.mem_map.1 hi
    obtain ⟨edge, hedge, heq⟩ := List.mem_map.1 hi'
    exact hnew edge hedge f hf heq.symm
  · intro f hf
    rcases List.mem_append.1 hf with hf | hf
    · exact h.report_member f hf
    · exact hreport f hf
  · intro f hf
    rcases List.mem_append.1 hf with hf | hf
    · exact h.manager_member f hf
    · exact hmanager f hf

theorem Staffed.ids_nodup {staff : List (OrgPosition × DigitalWorker)}
    (hstaff : Staffed s s₁ orgId staff) : (staff.map (·.2.id)).Nodup := by
  have hall := hstaff.roster.workers_nodup
  rw [hstaff.store, List.map_append, List.map_map] at hall
  exact hall.of_append_right

section staff

variable {staff : List (OrgPosition × DigitalWorker)} {byRole : List (String × Id)} {r : String}
  (hnodup : (specs.map (·.roleCode)).Nodup)
  (hbyRole : byRole = staff.map fun x => (x.1.roleCode, x.2.id))
  (hroles : staff.map (·.1.roleCode) = specs.map (·.roleCode))
include hnodup hbyRole hroles

theorem lookup_role {x : OrgPosition × DigitalWorker} (hx : x ∈ staff) :
    byRole.lookup x.1.roleCode = some x.2.id := by
  rw [hbyRole]
  exact lookup_map (hroles ▸ hnodup) hx

theorem exists_of_role (hr : r ∈ WorkerSpec.Roles specs) :
    ∃ x ∈ staff, x.1.roleCode = r ∧ byRole.lookup r = some x.2.id ∧ workerOf byRole r = x.2.id := by
  have hr' : r ∈ staff.map (·.1.roleCode) := by
    rw [hroles]
    exact hr
  obtain ⟨x, hx, rfl⟩ := List.mem_map.1 hr'
  have hl := lookup_role hnodup hbyRole hroles hx
  exact ⟨x, hx, rfl, hl, by rw [workerOf, hl]; rfl⟩

theorem workers_of_specs :
    (specs.map fun spec => workerOf byRole spec.roleCode) = staff.map (·.2.id) := by
  have hmap := congrArg (List.map (workerOf byRole)) hroles
  rw [List.map_map, List.map_map] at hmap
  refine hmap.symm.trans (List.map_congr_left fun x hx => ?_)
  rw [Function.comp_apply, workerOf, lookup_role hnodup hbyRole hroles hx]
  rfl

theorem manager_of_spec {root : String}
    (htree : RootedTree (WorkerSpec.Roles specs) (WorkerSpec.Under specs) root) {spec : WorkerSpec}
    (hspec : spec ∈ specs) : spec.managerRoleCode.bind (byRole.lookup ·) = some p ↔
      ∃ m, WorkerSpec.Under specs spec.roleCode m ∧ workerOf byRole m = p := by
  have hunder : ∀ m, WorkerSpec.Under specs spec.roleCode m ↔ spec.managerRoleCode = some m := fun m => by
    rw [WorkerSpec.Under, WorkerSpec.managerOf_eq hnodup hspec]
  rw [Option.bind_eq_some_iff]
  refine exists_congr fun m => ?_
  rw [hunder]
  refine and_congr_right fun hm => ?_
  have hin := htree.closed spec.roleCode (List.mem_map_of_mem hspec) m ((hunder m).2 hm)
  obtain ⟨x, -, -, hl, hf⟩ := exists_of_role hnodup hbyRole hroles hin
  rw [hl, hf, Option.some.injEq]

theorem Staffed.members (hstaff : Staffed s s₁ orgId staff) : v ∈ s₁.Members orgId' ↔
    v ∈ s.Members orgId' ∨ orgId' = orgId ∧ v ∈ workerOf byRole '' WorkerSpec.Roles specs := by
  have hworkers : s₁.workers = s.workers ++ staff.map (·.2) := by rw [hstaff.store]
  constructor
  · rintro ⟨w, hw, ho, hv⟩
    rw [hworkers] at hw
    rcases List.mem_append.1 hw with hw | hw
    · exact .inl ⟨w, hw, ho, hv⟩
    · obtain ⟨x, hx, rfl⟩ := List.mem_map.1 hw
      refine .inr ⟨ho.symm.trans (hstaff.row x hx).2.1, x.1.roleCode, ?_, ?_⟩
      · have hx' := List.mem_map_of_mem (f := fun x : OrgPosition × DigitalWorker => x.1.roleCode) hx
        rw [hroles] at hx'
        exact hx'
      · rw [workerOf, lookup_role hnodup hbyRole hroles hx]
        exact hv
  · rintro (⟨w, hw, ho, hv⟩ | ⟨rfl, r, hr, rfl⟩)
    · exact ⟨w, hworkers ▸ List.mem_append_left _ hw, ho, hv⟩
    · obtain ⟨x, hx, -, -, hf⟩ := exists_of_role hnodup hbyRole hroles hr
      exact ⟨x.2, hworkers ▸ List.mem_append_right _ (List.mem_map_of_mem hx), (hstaff.row x hx).2.1,
        hf.symm⟩

/-- The edges of a chart whose workers have been added make it a copy of the tree of role codes. -/
theorem Staffed.booted {s₂ : Store} {edges : List ReportingEdge} (h : Roster s) (hp : Positions s)
    (hstaff : Staffed s s₁ orgId staff) {root : String}
    (htree : RootedTree (WorkerSpec.Roles specs) (WorkerSpec.Under specs) root)
    (hdrawn : s₁.drawn ⊆ s₂.drawn) (hs₂ : s₂ = { s₁ with drawn := s₂.drawn, edges := s₁.edges ++ edges })
    (hlinks : edges.map (·.link) = specs.map (·.link orgId byRole)) :
    Booted s s₂ orgId specs (workerOf byRole) := by
  have hedges : s₁.edges = s.edges := by rw [hstaff.store]
  have hedge : ∀ edge ∈ edges, ∃ spec ∈ specs, spec.link orgId byRole = edge.link := fun edge hedge =>
    List.mem_map.1 (hlinks ▸ List.mem_map_of_mem hedge)
  have hspec : ∀ spec ∈ specs, ∃ edge ∈ edges, edge.link = spec.link orgId byRole := fun spec hspec =>
    List.mem_map.1 (hlinks ▸ List.mem_map_of_mem hspec)
  have hfresh : ∀ r ∈ WorkerSpec.Roles specs, workerOf byRole r ∉ s.drawn := by
    intro r hr
    obtain ⟨x, hx, -, -, hf⟩ := exists_of_role hnodup hbyRole hroles hr
    exact hf ▸ (hstaff.row x hx).2.2.2
  have hroster : Roster s₂ := by
    rw [hs₂]
    refine hstaff.roster.withEdges hdrawn ?_ ?_ ?_ ?_
    · have hreports := congrArg (List.map fun x : OrgId × Id × Option Id => x.2.1) hlinks
      rw [List.map_map, List.map_map] at hreports
      have hids := hstaff.ids_nodup
      rw [← workers_of_specs hnodup hbyRole hroles] at hids
      exact (congrArg List.Nodup hreports).mpr hids
    · intro edge hmem f hf heq
      obtain ⟨spec, hspec, hlink⟩ := hedge edge hmem
      obtain ⟨w, hw, -, hid⟩ := h.report_member f (hedges ▸ hf)
      have hr : workerOf byRole spec.roleCode = edge.reportWorkerId := congrArg (·.2.1) hlink
      exact hfresh spec.roleCode (List.mem_map_of_mem hspec) (hr ▸ heq ▸ hid ▸ h.drawn w hw)
    · intro edge hmem
      obtain ⟨spec, hspec, hlink⟩ := hedge edge hmem
      rw [hstaff.members hnodup hbyRole hroles]
      exact .inr ⟨congrArg (·.1) hlink.symm, spec.roleCode, List.mem_map_of_mem hspec,
        congrArg (·.2.1) hlink⟩
    · intro edge hmem q hq
      obtain ⟨spec, hspec, hlink⟩ := hedge edge hmem
      have hm : spec.managerRoleCode.bind (byRole.lookup ·) = edge.managerWorkerId :=
        congrArg (·.2.2) hlink
      obtain ⟨m, hunder, rfl⟩ := (manager_of_spec hnodup hbyRole hroles htree hspec).1 (hm.trans hq)
      rw [hstaff.members hnodup hbyRole hroles]
      exact .inr ⟨congrArg (·.1) hlink.symm, m,
        htree.closed _ (List.mem_map_of_mem hspec) m hunder, rfl⟩
  have hmembers : ∀ org, s₂.Members org = s₁.Members org := fun org => by rw [hs₂]; rfl
  have hedges₂ : s₂.edges = s.edges ++ edges := by rw [hs₂, hedges]
  refine ⟨hroster, ?_, ?_, hfresh, fun org v => ?_, fun org v p => ?_, fun r hr => ?_, fun edge hmem => ?_,
    fun p hp => ?_⟩
  · have hp₁ := hstaff.positions hp
    have hpositions : s₂.positions = s₁.positions := by rw [hs₂]
    exact ⟨hpositions ▸ fun p hp => hdrawn (hp₁.positions_drawn p hp), hpositions ▸ hp₁.positions_nodup⟩
  · intro r hr r' hr' heq
    obtain ⟨x, hx, rfl, -, hf⟩ := exists_of_role hnodup hbyRole hroles hr
    obtain ⟨x', hx', rfl, -, hf'⟩ := exists_of_role hnodup hbyRole hroles hr'
    rw [List.inj_on_of_nodup_map (hstaff.ids_nodup) hx hx'
      (hf.symm.trans (heq.trans hf'))]
  · rw [hmembers, hstaff.members hnodup hbyRole hroles]
  · simp only [Store.ReportsTo, hedges₂, List.mem_append]
    constructor
    · rintro ⟨edge, hmem | hmem, ho, hr, hm⟩
      · exact .inl ⟨edge, hmem, ho, hr, hm⟩
      · obtain ⟨spec, hspec, hlink⟩ := hedge edge hmem
        have hmgr : spec.managerRoleCode.bind (byRole.lookup ·) = edge.managerWorkerId :=
          congrArg (·.2.2) hlink
        obtain ⟨m, hunder, hp⟩ := (manager_of_spec hnodup hbyRole hroles htree hspec).1 (hmgr.trans hm)
        exact .inr ⟨ho.symm.trans (congrArg (·.1) hlink.symm), spec.roleCode,
          List.mem_map_of_mem hspec, (congrArg (·.2.1) hlink).trans hr, m, hunder, hp⟩
    · rintro (⟨edge, hmem, hrest⟩ | ⟨rfl, r, hr, rfl, m, hunder, rfl⟩)
      · exact ⟨edge, .inl hmem, hrest⟩
      · obtain ⟨spec, hmem, rfl⟩ := List.mem_map.1 hr
        obtain ⟨edge, hedge, hlink⟩ := hspec spec hmem
        refine ⟨edge, .inr hedge, congrArg (·.1) hlink, congrArg (·.2.1) hlink, ?_⟩
        exact (congrArg (·.2.2) hlink).trans
          ((manager_of_spec hnodup hbyRole hroles htree hmem).2 ⟨m, hunder, rfl⟩)
  · obtain ⟨spec, hmem, rfl⟩ := List.mem_map.1 hr
    obtain ⟨edge, hedge, hlink⟩ := hspec spec hmem
    exact ⟨edge, hedges₂ ▸ List.mem_append_right _ hedge, congrArg (·.1) hlink, congrArg (·.2.1) hlink⟩
  · exact hedges₂ ▸ List.mem_append_left _ hmem
  · have hpositions : s₂.positions = s.positions ++ staff.map (·.1) := by rw [hs₂, hstaff.store]
    rw [hpositions] at hp
    rcases List.mem_append.1 hp with hp | hp
    · exact .inl hp
    · obtain ⟨x, hx, rfl⟩ := List.mem_map.1 hp
      exact .inr (hstaff.row x hx).1

end staff

/-- **`bootstrap`**: a tree is added, or a part of its positions and workers, or nothing. -/
theorem bootstrap_ensures (h : Roster s) (hp : Positions s) :
    Ensures (bootstrap e orgId specs) s fun r s' =>
      match r with
      | .ok _ => specs ≠ [] ∧ validateStructure specs = .ok () ∧
          (∀ spec ∈ specs, s.RoleFree orgId spec.roleCode) ∧ ∃ f, Booted s s' orgId specs f
      | .error _ => ((specs = [] ∨ validateStructure specs ≠ .ok ()) ∧ s' = s) ∨
          validateStructure specs = .ok () ∧ ∃ staff, Staffed s s' orgId staff ∧ s'.edges = s.edges ∧
            ¬ (∀ spec ∈ specs, s.RoleFree orgId spec.roleCode) ∧
            ∃ spec ∈ specs.head?, s.RoleFree orgId spec.roleCode ↔ staff ≠ [] := by
  unfold bootstrap
  simp only [ensures_bind, ensures_require]
  refine ⟨fun hne => ?_, fun hne => .inl ⟨.inl (not_not.1 hne), trivial⟩⟩
  cases hvalid : validateStructure specs with
  | error err => exact .inl ⟨.inr (by simp), rfl⟩
  | ok u =>
    obtain ⟨hnodup, root, htree⟩ := validateStructure_tree hvalid
    simp only [ensures_bind]
    refine (bootstrapWorkers_ensures h).mono fun r s₁ hr => ?_
    obtain ⟨staff, hstaff, hr⟩ := hr
    cases r with
    | error _ =>
      obtain ⟨spec, rest, rfl⟩ := List.exists_cons_of_ne_nil hne
      refine .inr ⟨trivial, staff, hstaff, ?_, fun hfree => hr.1 ⟨hnodup, hfree⟩, spec, rfl, hr.2 spec rfl⟩
      rw [hstaff.store]
    | ok byRole =>
      obtain ⟨hbyRole, hroles⟩ := hr
      have hids : (specs.map fun spec => workerOf byRole spec.roleCode).Nodup := by
        rw [workers_of_specs hnodup hbyRole hroles]
        exact hstaff.ids_nodup
      have hedges : s₁.edges = s.edges := by rw [hstaff.store]
      refine (bootstrapEdges_ensures hids fun spec hspec f hf heq => ?_).mono fun r s₂ hr => ?_
      · obtain ⟨x, hx, -, -, hf'⟩ := exists_of_role hnodup hbyRole hroles (List.mem_map_of_mem hspec)
        obtain ⟨w, hw, -, hid⟩ := h.report_member f (hedges ▸ hf)
        exact (hstaff.row x hx).2.2.2 (hf' ▸ heq ▸ hid ▸ h.drawn w hw)
      · obtain ⟨rfl, edges, hdrawn, hs₂, hlinks⟩ := hr
        refine ⟨hne, trivial, fun spec hspec q hq ho hrole => ?_, _,
          hstaff.booted hnodup hbyRole hroles h hp htree hdrawn hs₂ hlinks⟩
        obtain ⟨x, hx, hxr, -⟩ := exists_of_role hnodup hbyRole hroles (List.mem_map_of_mem hspec)
        have hall := hstaff.roster.roles_nodup
        rw [hstaff.store, List.map_append] at hall
        exact (List.disjoint_of_nodup_append hall) (List.mem_map_of_mem hq)
          (List.mem_map.2 ⟨x.1, List.mem_map_of_mem hx,
            Prod.ext ((hstaff.row x hx).1.trans ho.symm) (hxr.trans hrole.symm)⟩)

/-- Every organisation with workers is a tree. -/
def AllTrees (s : Store) : Prop := ∀ orgId, (s.Members orgId).Nonempty → OrgTree s orgId

theorem Charted.allTrees (h : Charted s) : AllTrees s := fun _ => h.orgTree

/-- A new organisation that is set up is a tree. -/
theorem Booted.charted (h : Charted s) {f : String → Id} (hb : Booted s s' orgId specs f)
    (hvalid : validateStructure specs = .ok ()) (hnone : ∀ w ∈ s.workers, w.orgId ≠ orgId) :
    Charted s' := by
  obtain ⟨-, root, htree⟩ := validateStructure_tree hvalid
  have hempty : ∀ v, v ∉ s.Members orgId := fun v ⟨w, hw, ho, _⟩ => hnone w hw ho
  have hother : ∀ org, org ≠ orgId → s'.Members org = s.Members org := fun org hne => by
    ext v
    simp [hb.members, hne]
  have hnew : s'.Members orgId = f '' WorkerSpec.Roles specs := by
    ext v
    simp [hb.members, hempty]
  refine ⟨hb.roster, hb.positions, fun p hp => ?_, fun org v hv => ?_, fun org hne => ?_⟩
  · rcases hb.staffed p hp with hp | rfl
    · obtain ⟨v, hv⟩ := h.staffed p hp
      exact ⟨v, (hb.members _ v).2 (.inl hv)⟩
    · exact ⟨f root, by rw [hnew]; exact ⟨root, htree.root_mem, rfl⟩⟩
  · rcases (hb.members org v).1 hv with hv | ⟨rfl, r, hr, rfl⟩
    · obtain ⟨edge, hedge, hrest⟩ := h.placed org v hv
      exact ⟨edge, hb.kept edge hedge, hrest⟩
    · exact hb.placed r hr
  · by_cases horg : org = orgId
    · subst horg
      rw [hnew]
      refine ⟨f root, htree.image fun r hr q => ?_⟩
      rw [hb.reports]
      constructor
      · rintro (hq | ⟨-, r', hr', heq, m, hm, rfl⟩)
        · exact absurd (h.member_of_reportsTo hq) (hempty _)
        · obtain rfl := hb.inj hr' hr heq
          exact ⟨m, hm, rfl⟩
      · rintro ⟨m, hm, rfl⟩
        exact .inr ⟨rfl, r, hr, rfl, m, hm, rfl⟩
    · rw [hother org horg] at hne ⊢
      obtain ⟨root, htree⟩ := h.tree org hne
      exact ⟨root, htree.congr fun v _ p => by simp [hb.reports, horg]⟩

/-- An organisation that had a root has two when it is set up again. -/
theorem Booted.not_allTrees (h : Charted s) {f : String → Id} (hb : Booted s s' orgId specs f)
    (hvalid : validateStructure specs = .ok ()) {w : DigitalWorker} (hw : w ∈ s.workers)
    (ho : w.orgId = orgId) : ¬ AllTrees s' := by
  obtain ⟨-, root, htree⟩ := validateStructure_tree hvalid
  obtain ⟨old, hold⟩ := h.tree orgId ⟨w.id, w, hw, ho, rfl⟩
  have hdrawn : old ∈ s.drawn := by
    obtain ⟨w, hw, -, rfl⟩ := hold.root_mem
    exact h.drawn w hw
  intro htrees
  have hmember : old ∈ s'.Members orgId := (hb.members _ _).2 (.inl hold.root_mem)
  have heq : old = f root := (htrees orgId ⟨old, hmember⟩).one_root.unique
    ⟨hmember, fun m hm => ?_⟩
    ⟨(hb.members _ _).2 (.inr ⟨rfl, root, htree.root_mem, rfl⟩), fun m hm => ?_⟩
  · exact hb.fresh root htree.root_mem (heq ▸ hdrawn)
  · rcases (hb.reports _ _ _).1 hm with hm | ⟨-, r, hr, rfl, -⟩
    · exact hold.root_top m hm
    · exact hb.fresh r hr hdrawn
  · rcases (hb.reports _ _ _).1 hm with hm | ⟨-, r, hr, heq, m', hunder, -⟩
    · obtain ⟨w, hw, -, hid⟩ := h.member_of_reportsTo hm
      exact hb.fresh root htree.root_mem (hid ▸ h.drawn w hw)
    · obtain rfl := hb.inj hr htree.root_mem heq
      exact htree.root_top m' hunder

/-- A command that throws leaves the chart as it was. -/
def Restored {α : Type} (s : Store) (r : Except WorkforceError α) (s' : Store) : Prop :=
  (∃ err, r = .error err) → s'.chart = s.chart

/-- **`bootstrap`** keeps the chart exactly where it may. -/
theorem Charted.bootstrap (h : Charted s) : Ensures (bootstrap e orgId specs) s fun r s' =>
    (BootstrapKeeps s orgId specs → Charted s' ∧ Restored s r s') ∧
    (AllTrees s' → Restored s r s' → BootstrapKeeps s orgId specs) := by
  refine (bootstrap_ensures h.toRoster h.toPositions).mono fun r s' hr => ?_
  cases r with
  | ok _ =>
    obtain ⟨hne, hvalid, hfree, f, hb⟩ := hr
    have hrestored : Restored s (Except.ok () : Except WorkforceError Unit) s' := fun ⟨_, he⟩ => by cases he
    refine ⟨fun hk => ⟨?_, hrestored⟩, fun htree _ => ?_⟩
    · rcases hk with hk | hk | hk | ⟨spec, hspec, hk⟩
      · exact absurd hk hne
      · exact absurd hvalid hk
      · exact hb.charted h hvalid hk
      · exact absurd (hfree spec (List.mem_of_mem_head? hspec)) hk
    · by_contra hk
      simp only [BootstrapKeeps, not_or, not_forall, not_not] at hk
      obtain ⟨-, -, ⟨w, hw, ho⟩, -⟩ := hk
      exact hb.not_allTrees h hvalid hw ho htree
  | error err =>
    rcases hr with ⟨hinvalid, rfl⟩ | ⟨hvalid, staff, hstaff, hedges, htaken, spec, hspec, hfirst⟩
    · refine ⟨fun _ => ⟨h, fun _ => rfl⟩, fun _ _ => ?_⟩
      rcases hinvalid with hnil | hvalid
      · exact .inl hnil
      · exact .inr (.inl hvalid)
    · have hchart : s'.chart = s.chart ↔ staff = [] := by
        rw [hstaff.store, Store.chart, Store.chart]
        simp
      refine ⟨fun hk => ?_, fun _ hrestored => ?_⟩
      · have hnil : staff = [] := by
          rcases hk with hk | hk | hk | ⟨spec', hspec', hk⟩
          · simp [hk] at hspec
          · exact absurd hvalid hk
          · refine absurd (fun spec _ q hq ho _ => ?_) htaken
            obtain ⟨v, w, hw, hwo, -⟩ := h.staffed q hq
            exact hk w hw (hwo.trans ho)
          · obtain rfl : spec = spec' := Option.some.inj (hspec.symm.trans hspec')
            exact not_not.1 (mt hfirst.2 hk)
        refine ⟨h.of_eq hstaff.drawn ?_ ?_ hedges, fun _ => hchart.2 hnil⟩
        · rw [hstaff.store, hnil]
          simp
        · rw [hstaff.store, hnil]
          simp
      · have hnil := hchart.1 (hrestored ⟨err, rfl⟩)
        exact .inr (.inr (.inr ⟨spec, hspec, fun hfree => hfirst.1 hfree hnil⟩))

end ChronoSynth.Workforce

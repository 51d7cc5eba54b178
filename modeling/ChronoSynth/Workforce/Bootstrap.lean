import ChronoSynth.Workforce.ChartSteps

/-!
# Setting up an organisation

A list of specifications that passes `validateStructure` is a tree of role codes
(`validateStructure_tree`). What `bootstrap` leaves of it: positions, workers and edges that copy the tree
when it goes through, and a part of the positions and workers when it does not.
-/

namespace ChronoSynth.Workforce

open Service

/-! ## The tree of role codes -/

namespace WorkerSpec

variable {specs : List WorkerSpec} {spec : WorkerSpec}

def Roles (specs : List WorkerSpec) : Set String := {r | r ∈ specs.map (·.roleCode)}

/-- A role code and that of its manager. -/
def Under (specs : List WorkerSpec) (r m : String) : Prop := managerOf specs r = some m

theorem managerOf_eq (hnodup : (specs.map (·.roleCode)).Nodup) (hspec : spec ∈ specs) :
    managerOf specs spec.roleCode = spec.managerRoleCode := by
  have hfind : specs.find? (fun x => x.roleCode = spec.roleCode) = some spec := by
    cases hf : specs.find? (fun x => x.roleCode = spec.roleCode) with
    | none => simpa using List.find?_eq_none.1 hf spec hspec
    | some x =>
      obtain ⟨hx, hr⟩ := Table.find_spec hf
      rw [List.inj_on_of_nodup_map hnodup hx hspec hr]
  rw [managerOf, hfind]
  rfl

/-- A way up that meets no role code twice ends at one without a manager. -/
theorem reach_of_cycleAt {n : ℕ} {cur : String} {seen : List String}
    (h : cycleAt specs n (some cur) seen = none) :
    ∃ top, Relation.ReflTransGen (Under specs) cur top ∧ managerOf specs top = none := by
  induction n generalizing cur seen with
  | zero => simp [cycleAt] at h
  | succ n ih =>
    rw [cycleAt] at h
    split at h
    next => cases h
    next =>
      cases hm : managerOf specs cur with
      | none => exact ⟨cur, .refl, hm⟩
      | some m =>
        rw [hm] at h
        obtain ⟨top, hreach, htop⟩ := ih h
        exact ⟨top, .head hm hreach, htop⟩

end WorkerSpec

open WorkerSpec in
/-- **A chart that is accepted is a tree.** -/
theorem validateStructure_tree {specs : List WorkerSpec} (h : validateStructure specs = .ok ()) :
    (specs.map (·.roleCode)).Nodup ∧ ∃ root, RootedTree (Roles specs) (Under specs) root := by
  simp only [validateStructure] at h
  split at h
  next => cases h
  next hnodup =>
  rw [not_not] at hnodup
  split at h
  next => cases h
  next hstray =>
  split at h
  next => cases h
  next hzero =>
  split at h
  next => cases h
  next hone =>
  split at h
  next => cases h
  next hcycle =>
  have hcount : specs.countP (fun spec => spec.managerRoleCode = none) = 1 := by omega
  rw [List.countP_eq_length_filter, List.length_eq_one_iff] at hcount
  obtain ⟨top, htop⟩ := hcount
  have hmemTop : ∀ spec, spec ∈ specs ∧ spec.managerRoleCode = none ↔ spec = top := fun spec => by
    rw [← List.mem_singleton (b := top), ← htop, List.mem_filter, decide_eq_true_eq]
  obtain ⟨htopMem, htopNone⟩ := (hmemTop top).2 rfl
  have hclosed : ∀ spec ∈ specs, ∀ m ∈ spec.managerRoleCode, m ∈ specs.map (·.roleCode) := by
    intro spec hspec m hm
    have hnone := List.findSome?_eq_none_iff.1 hstray spec hspec
    rw [Option.mem_def.1 hm, Option.filter_eq_none_iff] at hnone
    simpa using hnone m rfl
  have hunder : ∀ r ∈ Roles specs, ∀ m, Under specs r m → m ∈ Roles specs := by
    intro r hr m hm
    obtain ⟨spec, hspec, rfl⟩ := List.mem_map.1 hr
    rw [Under, managerOf_eq hnodup hspec] at hm
    exact hclosed spec hspec m hm
  refine ⟨hnodup, top.roleCode, List.mem_map_of_mem htopMem, fun m hm => ?_, hunder, fun r hr => ?_⟩
  · rw [Under, managerOf_eq hnodup htopMem, htopNone] at hm
    cases hm
  · obtain ⟨spec, hspec, rfl⟩ := List.mem_map.1 hr
    obtain ⟨last, hreach, hlast⟩ := reach_of_cycleAt (List.findSome?_eq_none_iff.1 hcycle spec hspec)
    have hin : last ∈ Roles specs := by
      clear hlast
      induction hreach with
      | refl => exact hr
      | tail _ hstep ih => exact hunder _ ih _ hstep
    obtain ⟨spec', hspec', rfl⟩ := List.mem_map.1 hin
    rw [managerOf_eq hnodup hspec'] at hlast
    obtain rfl := (hmemTop spec').1 ⟨hspec', hlast⟩
    exact hreach

/-! ## Positions and workers -/

variable {s s' s₁ : Store} {e : Env} {orgId : OrgId} {ts : Time} {specs : List WorkerSpec}

/-- Positions with their workers are added to an organisation. -/
structure Staffed (s s' : Store) (orgId : OrgId) (staff : List (OrgPosition × DigitalWorker)) :
    Prop where
  store : s' = { s with
    drawn := s'.drawn
    positions := s.positions ++ staff.map (·.1)
    workers := s.workers ++ staff.map (·.2) }
  drawn : s.drawn ⊆ s'.drawn
  roster : Roster s'
  positions : Positions s → Positions s'
  row : ∀ x ∈ staff, x.1.orgId = orgId ∧ x.2.orgId = orgId ∧ x.2.employmentStatus = .active ∧
    x.2.id ∉ s.drawn

theorem Staffed.nil (h : Roster s) {d : List Id} (hd : s.drawn ⊆ d) :
    Staffed s { s with drawn := d } orgId [] :=
  ⟨by simp, hd, h.of_eq hd rfl rfl rfl,
    fun hp => ⟨fun p hp' => hd (hp.positions_drawn p hp'), hp.positions_nodup⟩, by simp⟩

theorem Staffed.cons {roleCode : String} {personaId : PersonaId} {positionId workerId : Id}
    {staff : List (OrgPosition × DigitalWorker)} (hnew : workerId ∉ s.drawn)
    (hposition : positionId ∉ s.drawn)
    (h : Staffed (s.hired orgId roleCode personaId ts positionId workerId) s' orgId staff) :
    Staffed s s' orgId ((⟨positionId, orgId, roleCode, ts⟩,
      ⟨workerId, orgId, personaId, positionId, .active, ts, ts⟩) :: staff) := by
  have hdrawn : s.drawn ⊆ s'.drawn := fun i hi =>
    h.drawn (List.mem_cons_of_mem _ (List.mem_cons_of_mem _ hi))
  refine ⟨?_, hdrawn, h.roster, fun hp => h.positions (hp.hired hposition), fun x hx => ?_⟩
  · rw [h.store]
    simp [Store.hired]
  · rcases List.mem_cons.1 hx with rfl | hx
    · exact ⟨rfl, rfl, rfl, hnew⟩
    · obtain ⟨hp, hw, ha, hid⟩ := h.row x hx
      exact ⟨hp, hw, ha, fun hmem => hid (List.mem_cons_of_mem _ (List.mem_cons_of_mem _ hmem))⟩

/-- All positions of the specifications are added, or those before one whose role code is taken. -/
theorem bootstrapWorkers_ensures (h : Roster s) :
    Ensures (bootstrapWorkers e orgId ts specs) s fun r s' =>
      ∃ staff, Staffed s s' orgId staff ∧ match r with
        | .ok byRole => byRole = staff.map (fun x => (x.1.roleCode, x.2.id)) ∧
            staff.map (·.1.roleCode) = specs.map (·.roleCode)
        | .error _ =>
            ¬ ((specs.map (·.roleCode)).Nodup ∧ ∀ spec ∈ specs, s.RoleFree orgId spec.roleCode) ∧
            (∀ spec ∈ specs.head?, s.RoleFree orgId spec.roleCode ↔ staff ≠ []) := by
  induction specs generalizing s with
  | nil => exact ⟨[], .nil h (List.Subset.refl _), rfl, rfl⟩
  | cons spec specs ih =>
    simp only [bootstrapWorkers, ensures_bind]
    refine hirePosition_ensures.mono fun r s₁ hr => ?_
    cases r with
    | error _ =>
      obtain ⟨hfree, d, hd, rfl⟩ := hr
      refine ⟨[], .nil h hd, fun hc => hfree (hc.2 spec List.mem_cons_self), ?_⟩
      intro spec' hspec'
      obtain rfl : spec = spec' := Option.some.inj hspec'
      simp [hfree]
    | ok workerId =>
      obtain ⟨hfree, hnew, positionId, hposition, rfl⟩ := hr
      refine (ih (h.hired hfree hnew)).mono fun r s' hr => ?_
      obtain ⟨staff, hstaff, hr⟩ := hr
      cases r with
      | ok byRole =>
        exact ⟨_ :: staff, hstaff.cons hnew hposition, by simp [hr.1], by simp [hr.2]⟩
      | error _ =>
        refine ⟨_ :: staff, hstaff.cons hnew hposition,
          fun hc => hr.1 ⟨(List.nodup_cons.1 hc.1).2, fun spec' hspec' q hq ho => ?_⟩, ?_⟩
        on_goal 2 =>
          intro spec' hspec'
          obtain rfl : spec = spec' := Option.some.inj hspec'
          simp [hfree]
        rcases List.mem_append.1 hq with hq | hq
        · exact hc.2 spec' (List.mem_cons_of_mem _ hspec') q hq ho
        · obtain rfl := List.mem_singleton.1 hq
          intro heq
          have hmem : spec.roleCode ∈ specs.map (·.roleCode) :=
            List.mem_map.2 ⟨spec', hspec', heq.symm⟩
          exact (List.nodup_cons.1 hc.1).1 hmem

/-! ## Edges -/

/-- The worker of a role code, as `bootstrap` looks him up. -/
def workerOf (byRole : List (String × Id)) (roleCode : String) : Id := (byRole.lookup roleCode).getD 0

theorem lookup_map {α : Type} {k : α → String} {f : α → Id} {rows : List α}
    (hnodup : (rows.map k).Nodup) {a : α} (ha : a ∈ rows) :
    (rows.map fun x => (k x, f x)).lookup (k a) = some (f a) := by
  induction rows with
  | nil => cases ha
  | cons b rows ih =>
    rw [List.map_cons, List.nodup_cons] at hnodup
    rw [List.map_cons, List.lookup_cons]
    rcases List.mem_cons.1 ha with rfl | ha
    · simp
    · have hne : (k a == k b) = false := by
        rw [beq_eq_false_iff_ne]
        exact fun heq => hnodup.1 (heq ▸ List.mem_map_of_mem ha)
      rw [hne]
      exact ih hnodup.2 ha

/-- The columns of an edge that make the chart. -/
def ReportingEdge.link (edge : ReportingEdge) : OrgId × Id × Option Id :=
  (edge.orgId, edge.reportWorkerId, edge.managerWorkerId)

def WorkerSpec.link (orgId : OrgId) (byRole : List (String × Id)) (spec : WorkerSpec) :
    OrgId × Id × Option Id :=
  (orgId, workerOf byRole spec.roleCode, spec.managerRoleCode.bind (byRole.lookup ·))

theorem bootstrapEdges_ensures {byRole : List (String × Id)}
    (hnodup : (specs.map fun spec => workerOf byRole spec.roleCode).Nodup)
    (hnew : ∀ spec ∈ specs, ∀ f ∈ s.edges, f.reportWorkerId ≠ workerOf byRole spec.roleCode) :
    Ensures (specs.forM (bootstrapEdge e orgId ts byRole)) s fun r s' => r = .ok ⟨⟩ ∧ ∃ edges,
      s.drawn ⊆ s'.drawn ∧ s' = { s with drawn := s'.drawn, edges := s.edges ++ edges } ∧
      edges.map (·.link) = specs.map (·.link orgId byRole) := by
  refine ensures_forM (fun rest s₁ => ∃ edges, s.drawn ⊆ s₁.drawn ∧
      s₁ = { s with drawn := s₁.drawn, edges := s.edges ++ edges } ∧
      edges.map (·.link) ++ rest.map (·.link orgId byRole) = specs.map (·.link orgId byRole))
    ⟨[], List.Subset.refl _, by simp, by simp⟩ ?_ ?_
  · rintro spec rest s₁ ⟨edges, hdrawn, hs₁, hlinks⟩
    have hreports : edges.map (·.reportWorkerId) ++
        (spec :: rest).map (fun x => workerOf byRole x.roleCode) =
        specs.map fun x => workerOf byRole x.roleCode := by
      have := congrArg (List.map fun x : OrgId × Id × Option Id => x.2.1) hlinks
      rw [List.map_append, List.map_map, List.map_map, List.map_map] at this
      exact this
    have hspec : workerOf byRole spec.roleCode ∈ specs.map fun x => workerOf byRole x.roleCode := by
      rw [← hreports]
      simp
    simp only [bootstrapEdge, ensures_bind, idgen, ensures_modifyGet, insertEdge, ensures_get,
      ensures_require, ensures_set]
    refine ⟨fun _ => ⟨edges ++ [⟨s₁.fresh e, orgId, spec.managerRoleCode.bind (byRole.lookup ·),
        workerOf byRole spec.roleCode, spec.edgeType.getD .solid, ts⟩],
      fun i hi => List.mem_cons_of_mem _ (hdrawn hi), ?_, ?_⟩, fun hdup => absurd ?_ hdup⟩
    · rw [hs₁, List.append_assoc]
      rfl
    · rw [← hlinks, List.map_append, List.append_assoc]
      rfl
    · rintro f hf ⟨-, hr⟩
      rw [hs₁] at hf
      rcases List.mem_append.1 hf with hf | hf
      · obtain ⟨spec', hspec', heq⟩ := List.mem_map.1 hspec
        exact hnew spec' hspec' f hf (hr.trans heq.symm)
      · rw [← hreports] at hnodup
        exact (List.disjoint_of_nodup_append hnodup) (List.mem_map_of_mem hf)
          (by rw [hr]; simp [workerOf])
  · rintro s₁ ⟨edges, hdrawn, hs₁, hlinks⟩
    exact ⟨rfl, edges, hdrawn, hs₁, by simpa using hlinks⟩

end ChronoSynth.Workforce

import ChronoSynth.Workforce.Roster

/-!
# What the chart operations do

For each operation on the chart the states it may leave, and that it keeps the roster. The later proofs
use these lemmas and unfold no operation.
-/

namespace ChronoSynth.Workforce

open Service

variable {s s' : Store} {e : Env} {orgId orgId' : OrgId} {workerId v p m : Id}

/-! ## Another manager -/

namespace Store

theorem members_update {q : DigitalWorker → Prop} [DecidablePred q] {g : DigitalWorker → DigitalWorker}
    (hw : s'.workers = Table.update q g s.workers) (hg : ∀ w, (g w).id = w.id ∧ (g w).orgId = w.orgId) :
    s'.Members orgId = s.Members orgId := by
  ext i
  simp only [Members, Set.mem_ofPred_eq, hw]
  constructor
  · rintro ⟨w, hmem, horg, hid⟩
    obtain ⟨x, hx, rfl⟩ := Table.mem_update.1 hmem
    refine ⟨x, hx, ?_⟩
    split at horg
    · rw [(hg x).2] at horg
      rw [if_pos ‹_›, (hg x).1] at hid
      exact ⟨horg, hid⟩
    · rw [if_neg ‹_›] at hid
      exact ⟨horg, hid⟩
  · rintro ⟨w, hmem, horg, hid⟩
    have hkept : ∀ x, q x → x.orgId = orgId ∧ x.id = i → (g x).orgId = orgId ∧ (g x).id = i := fun x _ hx =>
      ⟨(hg x).2.trans hx.1, (hg x).1.trans hx.2⟩
    exact Table.exists_mem_update (P := fun w => w.orgId = orgId ∧ w.id = i) ⟨w, hmem, horg, hid⟩ hkept

variable {newManager : Option Id} {now : Time}

theorem reparentWorker_workers : (s.reparentWorker orgId workerId newManager now).2.workers =
    Table.update (fun w => w.orgId = orgId ∧ w.id = workerId) (fun w => { w with updatedAt := now })
      s.workers := rfl

@[simp] theorem members_reparentWorker :
    (s.reparentWorker orgId workerId newManager now).2.Members orgId' = s.Members orgId' :=
  members_update reparentWorker_workers fun _ => ⟨rfl, rfl⟩

/-- Who reports to whom after `reparentWorker`. -/
theorem reportsTo_reparentWorker :
    (s.reparentWorker orgId workerId newManager now).2.ReportsTo orgId' v p ↔
      (s.ReportsTo orgId' v p ∧ ¬ (orgId' = orgId ∧ v = workerId)) ∨
      (orgId' = orgId ∧ v = workerId ∧ newManager = some p ∧
        ∃ edge ∈ s.edges, edge.orgId = orgId ∧ edge.reportWorkerId = workerId) := by
  simp only [ReportsTo, reparentWorker, Table.mem_update]
  constructor
  · rintro ⟨-, ⟨edge, hedge, rfl⟩, horg, hv, hp⟩
    by_cases hmatch : edge.orgId = orgId ∧ edge.reportWorkerId = workerId
    · simp only [if_pos hmatch] at horg hv hp
      exact .inr ⟨horg.symm.trans hmatch.1, hv.symm.trans hmatch.2, hp, edge, hedge, hmatch⟩
    · simp only [if_neg hmatch] at horg hv hp
      exact .inl ⟨⟨edge, hedge, horg, hv, hp⟩, fun hw => hmatch ⟨horg.trans hw.1, hv.trans hw.2⟩⟩
  · rintro (⟨⟨edge, hedge, horg, hv, hp⟩, hne⟩ | ⟨rfl, rfl, rfl, edge, hedge, horg, hv⟩)
    · refine ⟨edge, ⟨edge, hedge, ?_⟩, horg, hv, hp⟩
      rw [if_neg]
      exact fun hw => hne ⟨horg.symm.trans hw.1, hv.symm.trans hw.2⟩
    · exact ⟨_, ⟨edge, hedge, rfl⟩, by simp [horg, hv]⟩

end Store

/-- `reparentWorker` to a manager of the same organisation keeps the roster. -/
theorem Roster.reparentWorker (h : Roster s) {now : Time} (hm : m ∈ s.Members orgId) :
    Roster (s.reparentWorker orgId workerId (some m) now).2 := by
  constructor
  · exact Table.forall_mem_update h.drawn fun _ _ hw => hw
  · have hids : (s.reparentWorker orgId workerId (some m) now).2.workers.map (·.id) =
        s.workers.map (·.id) := Table.map_update fun _ _ => rfl
    rw [hids]
    exact h.workers_nodup
  · exact h.roles_nodup
  · have hreports : (s.reparentWorker orgId workerId (some m) now).2.edges.map (·.reportWorkerId) =
        s.edges.map (·.reportWorkerId) := Table.map_update fun _ _ => rfl
    rw [hreports]
    exact h.edges_nodup
  · simp only [Store.members_reparentWorker]
    exact Table.forall_mem_update h.report_member fun _ _ hr => hr
  · simp only [Store.members_reparentWorker]
    refine Table.forall_mem_update h.manager_member fun edge hedge _ q hq => ?_
    obtain rfl : m = q := Option.some.inj hq
    exact hedge.1 ▸ hm

/-- When `reparent` goes through. -/
structure Reparentable (s : Store) (orgId : OrgId) (workerId m : Id) : Prop where
  member : workerId ∈ s.Members orgId
  active : ∃ mgr ∈ s.workers, mgr.orgId = orgId ∧ mgr.id = m ∧ mgr.employmentStatus = .active
  above : s.isInSubtree orgId workerId m = false
  edge : ∃ edge ∈ s.edges, edge.orgId = orgId ∧ edge.reportWorkerId = workerId

theorem Reparentable.manager_member (h : Reparentable s orgId workerId m) : m ∈ s.Members orgId := by
  obtain ⟨mgr, hmgr, horg, hid, -⟩ := h.active
  exact ⟨mgr, hmgr, horg, hid⟩

/-- **`reparent`** goes through, or throws; it has only written something in vain where the worker has
no edge. -/
theorem reparent_ensures : Ensures (reparent e orgId workerId m) s fun r s' =>
    match r with
    | .ok _ => Reparentable s orgId workerId m ∧
        s' = (s.reparentWorker orgId workerId (some m) e.now).2
    | .error _ => s' = s ∨
        (workerId ∈ s.Members orgId ∧
          (∀ edge ∈ s.edges, edge.orgId = orgId → edge.reportWorkerId ≠ workerId) ∧
          m ∈ s.Members orgId ∧ s' = (s.reparentWorker orgId workerId (some m) e.now).2) := by
  unfold reparent
  simp only [ensures_bind, ensures_require, ensures_get]
  refine ⟨fun _ => ⟨fun hmember => ?_, fun _ => .inl trivial⟩, fun _ => .inl trivial⟩
  have hmember := Store.getWorker_ne_none_iff.1 hmember
  cases hmgr : s.getWorker orgId m with
  | none =>
    exact .inl rfl
  | some mgr =>
    obtain ⟨hmem, horg, hid⟩ := Store.mem_of_getWorker hmgr
    simp only [ensures_bind, ensures_require]
    refine ⟨fun hactive => ⟨fun habove => ?_, fun _ => .inl trivial⟩, fun _ => .inl trivial⟩
    simp only [changed, ensures_modifyGet]
    refine ⟨fun hhit => ⟨⟨hmember, ⟨mgr, hmem, horg, hid, hactive⟩, habove, ?_⟩, trivial⟩,
      fun hhit => .inr ⟨hmember, fun edge hedge ho hr => ?_, ⟨mgr, hmem, horg, hid⟩, trivial⟩⟩
    · obtain ⟨edge, hedge⟩ := Option.isSome_iff_exists.1 hhit
      exact ⟨edge, (Table.find_spec hedge).1, (Table.find_spec hedge).2⟩
    · rw [Bool.not_eq_true, Option.isSome_eq_false_iff, Option.isNone_iff_eq_none] at hhit
      have := List.find?_eq_none.1 hhit edge hedge
      simp [ho, hr] at this

/-! ## A new worker -/

def Store.hired (s : Store) (orgId : OrgId) (roleCode : String) (personaId : PersonaId) (ts : Time)
    (positionId workerId : Id) : Store :=
  { s with
    drawn := workerId :: positionId :: s.drawn
    positions := s.positions ++ [⟨positionId, orgId, roleCode, ts⟩]
    workers := s.workers ++ [⟨workerId, orgId, personaId, positionId, .active, ts, ts⟩] }

/-- No position of the organisation has the role code. -/
def Store.RoleFree (s : Store) (orgId : OrgId) (roleCode : String) : Prop :=
  ∀ q ∈ s.positions, q.orgId = orgId → q.roleCode ≠ roleCode

instance {roleCode : String} : Decidable (s.RoleFree orgId roleCode) :=
  inferInstanceAs (Decidable (∀ q ∈ s.positions, q.orgId = orgId → q.roleCode ≠ roleCode))

theorem Store.members_hired {roleCode : String} {personaId : PersonaId} {ts : Time}
    {positionId : Id} :
    (s.hired orgId roleCode personaId ts positionId workerId).Members orgId' =
      s.Members orgId' ∪ {i | orgId = orgId' ∧ i = workerId} := by
  ext i
  simp only [Members, hired, List.mem_append, List.mem_singleton, Set.mem_union, Set.mem_ofPred_eq]
  constructor
  · rintro ⟨w, hw | rfl, horg, hid⟩
    · exact .inl ⟨w, hw, horg, hid⟩
    · exact .inr ⟨horg, hid.symm⟩
  · rintro (⟨w, hw, horg, hid⟩ | ⟨horg, rfl⟩)
    · exact ⟨w, .inl hw, horg, hid⟩
    · exact ⟨_, .inr rfl, horg, rfl⟩

theorem hirePosition_ensures {roleCode : String} {personaId : PersonaId} {ts : Time} :
    Ensures (hirePosition e orgId roleCode personaId ts) s fun r s' =>
      match r with
      | .ok workerId => s.RoleFree orgId roleCode ∧ workerId ∉ s.drawn ∧
          ∃ positionId ∉ s.drawn, s' = s.hired orgId roleCode personaId ts positionId workerId
      | .error _ => ¬ s.RoleFree orgId roleCode ∧ ∃ d, s.drawn ⊆ d ∧ s' = { s with drawn := d } := by
  simp only [hirePosition, ensures_bind, idgen, ensures_modifyGet, insertPosition, insertWorker,
    ensures_get, ensures_require, ensures_set, ensures_modify, ensures_pure]
  set positionId := s.fresh e
  set s₁ : Store := { s with drawn := positionId :: s.drawn }
  refine ⟨fun hfree => ⟨fun q hq ho hr => hfree q hq ⟨ho, hr⟩, ?_, positionId, Store.fresh_not_mem, rfl⟩,
    fun hfree => ⟨fun hfree' => hfree fun q hq hqr => hfree' q hq hqr.1 hqr.2, _, ?_, rfl⟩⟩
  · have hfresh : s₁.fresh e ∉ positionId :: s.drawn := Store.fresh_not_mem
    exact fun hmem => hfresh (List.mem_cons_of_mem _ hmem)
  · exact fun i hi => List.mem_cons_of_mem _ (List.mem_cons_of_mem _ hi)

theorem Roster.hired (h : Roster s) {roleCode : String} {personaId : PersonaId} {ts : Time}
    {positionId : Id} (hfree : s.RoleFree orgId roleCode) (hnew : workerId ∉ s.drawn) :
    Roster (s.hired orgId roleCode personaId ts positionId workerId) := by
  constructor
  · intro w hw
    rcases List.mem_append.1 hw with hw | hw
    · exact List.mem_cons_of_mem _ (List.mem_cons_of_mem _ (h.drawn w hw))
    · obtain rfl := List.mem_singleton.1 hw
      exact List.mem_cons_self
  · rw [Store.hired, List.map_append, List.map_singleton]
    refine List.Nodup.append h.workers_nodup (List.nodup_singleton _) ?_
    intro i hi hi'
    obtain ⟨w, hw, rfl⟩ := List.mem_map.1 hi
    have hid : w.id = workerId := List.mem_singleton.1 hi'
    exact hnew (hid ▸ h.drawn w hw)
  · rw [Store.hired, List.map_append, List.map_singleton]
    refine List.Nodup.append h.roles_nodup (List.nodup_singleton _) ?_
    intro pr hpr hpr'
    obtain ⟨q, hq, rfl⟩ := List.mem_map.1 hpr
    obtain ⟨ho, hr⟩ := Prod.mk.inj (List.mem_singleton.1 hpr')
    exact hfree q hq ho hr
  · exact h.edges_nodup
  · intro edge hedge
    rw [Store.members_hired]
    exact .inl (h.report_member edge hedge)
  · intro edge hedge q hq
    rw [Store.members_hired]
    exact .inl (h.manager_member edge hedge q hq)

theorem Positions.hired (h : Positions s) {roleCode : String} {personaId : PersonaId} {ts : Time}
    {positionId : Id} (hnew : positionId ∉ s.drawn) :
    Positions (s.hired orgId roleCode personaId ts positionId workerId) := by
  constructor
  · intro p hp
    rcases List.mem_append.1 hp with hp | hp
    · exact List.mem_cons_of_mem _ (List.mem_cons_of_mem _ (h.positions_drawn p hp))
    · obtain rfl := List.mem_singleton.1 hp
      exact List.mem_cons_of_mem _ List.mem_cons_self
  · rw [Store.hired, List.map_append, List.map_singleton]
    refine List.Nodup.append h.positions_nodup (List.nodup_singleton _) ?_
    intro i hi hi'
    obtain ⟨p, hp, rfl⟩ := List.mem_map.1 hi
    have hid : p.id = positionId := List.mem_singleton.1 hi'
    exact hnew (hid ▸ h.positions_drawn p hp)

def Store.withEdge (s : Store) (edge : ReportingEdge) : Store :=
  { s with drawn := edge.id :: s.drawn, edges := s.edges ++ [edge] }

theorem Roster.withEdge (h : Roster s) {edge : ReportingEdge}
    (hnew : ∀ f ∈ s.edges, f.reportWorkerId ≠ edge.reportWorkerId)
    (hreport : edge.reportWorkerId ∈ s.Members edge.orgId)
    (hmanager : ∀ q ∈ edge.managerWorkerId, q ∈ s.Members edge.orgId) : Roster (s.withEdge edge) := by
  refine ⟨fun w hw => List.mem_cons_of_mem _ (h.drawn w hw), h.workers_nodup, h.roles_nodup, ?_, ?_, ?_⟩
  · rw [Store.withEdge, List.map_append, List.map_singleton]
    refine List.Nodup.append h.edges_nodup (List.nodup_singleton _) ?_
    intro i hi hi'
    obtain ⟨f, hf, rfl⟩ := List.mem_map.1 hi
    exact hnew f hf (List.mem_singleton.1 hi')
  · intro f hf
    rcases List.mem_append.1 hf with hf | hf
    · exact h.report_member f hf
    · obtain rfl := List.mem_singleton.1 hf
      exact hreport
  · intro f hf
    rcases List.mem_append.1 hf with hf | hf
    · exact h.manager_member f hf
    · obtain rfl := List.mem_singleton.1 hf
      exact hmanager

theorem Store.reportsTo_withEdge {edge : ReportingEdge} :
    (s.withEdge edge).ReportsTo orgId v p ↔ s.ReportsTo orgId v p ∨
      (edge.orgId = orgId ∧ edge.reportWorkerId = v ∧ edge.managerWorkerId = some p) := by
  simp only [ReportsTo, withEdge, List.mem_append, List.mem_singleton]
  constructor
  · rintro ⟨f, hf | rfl, hrest⟩
    · exact .inl ⟨f, hf, hrest⟩
    · exact .inr hrest
  · rintro (⟨f, hf, hrest⟩ | hrest)
    · exact ⟨f, .inl hf, hrest⟩
    · exact ⟨edge, .inr rfl, hrest⟩

/-- **`hireWorker`** adds a position, its worker and his edge, or has at most drawn numbers. -/
theorem hireWorker_ensures (h : Roster s) {spec : HireSpec} :
    Ensures (hireWorker e orgId spec) s fun r s' =>
      match r with
      | .ok workerId => spec.managerWorkerId ∈ s.Members orgId ∧ s.RoleFree orgId spec.roleCode ∧
          workerId ∉ s.drawn ∧ ∃ positionId ∉ s.drawn, ∃ edgeId,
            s' = (s.hired orgId spec.roleCode spec.personaId e.now positionId workerId).withEdge
              ⟨edgeId, orgId, some spec.managerWorkerId, workerId, spec.edgeType.getD .solid, e.now⟩
      | .error _ => s' = s ∧ ¬ (spec.managerWorkerId ∈ s.Members orgId ∧
          s.RoleFree orgId spec.roleCode) := by
  unfold hireWorker
  simp only [ensures_bind, ensures_get, ensures_require]
  refine ⟨fun _ => ⟨fun hmanager => ⟨fun hroles => ?_, fun hroles => ⟨trivial, fun hc => hroles ?_⟩⟩,
    fun hmanager => ⟨trivial, fun hc => hmanager (Store.getWorker_ne_none_iff.2 hc.1)⟩⟩,
    fun hempty => ⟨trivial, fun hc => hempty (Store.listWorkers_ne_nil_iff.2 ⟨_, hc.1⟩)⟩⟩
  · have hmanager := Store.getWorker_ne_none_iff.1 hmanager
    have hfree : s.RoleFree orgId spec.roleCode := fun q hq ho =>
      hroles q (Store.mem_listPositions.2 ⟨hq, ho⟩)
    refine hirePosition_ensures.mono fun r s₁ hr => ?_
    cases r with
    | error _ => exact absurd hfree hr.1
    | ok workerId =>
      obtain ⟨-, hnew, positionId, hposition, rfl⟩ := hr
      simp only [ensures_bind, idgen, ensures_modifyGet, insertEdge, ensures_get, ensures_require,
        ensures_set, ensures_pure]
      refine ⟨fun _ => ⟨hmanager, hfree, hnew, positionId, hposition, _, rfl⟩, fun hdup => absurd ?_ hdup⟩
      rintro f hf ⟨-, hr⟩
      obtain ⟨w, hw, -, hid⟩ := h.report_member f hf
      exact hnew (hr ▸ hid ▸ h.drawn w hw)
  · exact fun q hq => hc.2 q (Store.mem_listPositions.1 hq).1 (Store.mem_listPositions.1 hq).2

theorem Roster.hiredUnder (h : Roster s) {roleCode : String} {personaId : PersonaId} {ts : Time}
    {positionId edgeId : Id} {edgeType : ReportingEdgeType} (hm : m ∈ s.Members orgId)
    (hfree : s.RoleFree orgId roleCode) (hnew : workerId ∉ s.drawn) :
    Roster ((s.hired orgId roleCode personaId ts positionId workerId).withEdge
      ⟨edgeId, orgId, some m, workerId, edgeType, ts⟩) := by
  refine (h.hired hfree hnew).withEdge (fun f hf => ?_) ?_ fun q hq => ?_
  · obtain ⟨w, hw, -, hid⟩ := h.report_member f hf
    rintro rfl
    exact hnew (hid ▸ h.drawn w hw)
  · rw [Store.members_hired]
    exact .inr ⟨rfl, rfl⟩
  · obtain rfl : m = q := Option.some.inj hq
    rw [Store.members_hired]
    exact .inl hm

end ChronoSynth.Workforce

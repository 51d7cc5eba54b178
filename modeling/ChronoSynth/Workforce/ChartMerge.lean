import ChronoSynth.Workforce.ChartTree

/-!
# Merging two charts

After `absorb` the workers of the source hang under the mount point: as one tree if it was the root of the
source that was mounted (`Charted.absorbed`), and with a second root if it was another worker
(`Charted.not_orgTree_absorbed`). `findRoot` takes the first worker without a solid edge to a manager, so
that it finds the root exactly if all workers listed before it have one (`findRoot_top_iff`).
-/

namespace ChronoSynth.Workforce

open Service

variable {s s' : Store} {e : Env} {orgId orgId' : OrgId} {input : AbsorbInput} {v p m root : Id} {now : Time}

/-- The first element with `p` has not `q` exactly if none before the first without `q` has `p`. -/
theorem find?_takeWhile {α : Type} {p q : α → Bool} (hqp : ∀ a, q a = false → p a = true) {l : List α} {a : α}
    (h : l.find? p = some a) : (∀ b ∈ l.takeWhile q, p b = false) ↔ q a = false := by
  induction l with
  | nil => cases h
  | cons b l ih =>
    rw [List.find?_cons] at h
    rw [List.takeWhile_cons]
    cases hp : p b with
    | true =>
      rw [hp] at h
      obtain rfl : b = a := Option.some.inj h
      cases hq : q b <;> simp [hp]
    | false =>
      rw [hp] at h
      have hq : q b = true := by
        by_contra hq
        rw [hqp b (Bool.not_eq_true _ ▸ hq)] at hp
        cases hp
      simp [hq, hp, ih h]

namespace Store

/-- The worker has a manager. -/
def Managed (s : Store) (orgId : OrgId) (v : Id) : Prop :=
  ∃ edge ∈ s.edges, edge.orgId = orgId ∧ edge.reportWorkerId = v ∧ edge.managerWorkerId ≠ none

instance : Decidable (s.Managed orgId v) :=
  inferInstanceAs (Decidable (∃ edge ∈ s.edges, _ ∧ _ ∧ _))

/-- All workers who are listed before the root have a solid edge to their manager. -/
def SolidAhead (s : Store) (orgId : OrgId) : Prop :=
  ∀ w ∈ (s.listWorkers orgId).takeWhile (fun w => s.Managed orgId w.id), s.getManagerOf orgId w.id ≠ none

instance : Decidable (s.SolidAhead orgId) :=
  inferInstanceAs (Decidable (∀ w ∈ (s.listWorkers orgId).takeWhile _, _))

theorem managed_iff : s.Managed orgId v ↔ ∃ p, s.ReportsTo orgId v p := by
  constructor
  · rintro ⟨edge, hedge, ho, hr, hm⟩
    obtain ⟨p, hp⟩ := Option.ne_none_iff_exists'.1 hm
    exact ⟨p, edge, hedge, ho, hr, hp⟩
  · rintro ⟨p, edge, hedge, ho, hr, hp⟩
    exact ⟨edge, hedge, ho, hr, by simp [hp]⟩

theorem managed_of_getManagerOf (h : s.getManagerOf orgId v ≠ none) : s.Managed orgId v := by
  rw [getManagerOf, Ne, List.min?_eq_none_iff] at h
  obtain ⟨p, hp⟩ := List.exists_mem_of_ne_nil _ h
  obtain ⟨edge, hedge, hm⟩ := List.mem_filterMap.1 hp
  obtain ⟨hedge, hc⟩ := List.mem_filter.1 hedge
  obtain ⟨ho, hr, -⟩ := of_decide_eq_true hc
  exact ⟨edge, hedge, ho, hr, by simp [hm]⟩

end Store

/-- **`findRoot`** finds the root exactly if everyone listed before it has a solid edge. -/
theorem findRoot_top_iff (h : s.findRoot orgId = some root) :
    (∀ p, ¬ s.ReportsTo orgId root p) ↔ s.SolidAhead orgId := by
  obtain ⟨w, hw, rfl⟩ := Option.map_eq_some_iff.1 h
  have hiff := find?_takeWhile (q := fun w => s.Managed orgId w.id) (fun w hq => ?_) hw
  · rw [← not_exists, ← Store.managed_iff, Store.SolidAhead]
    simpa using hiff.symm
  · have hnot : ¬ s.Managed orgId w.id := by simpa using hq
    simpa using not_not.1 (mt Store.managed_of_getManagerOf hnot)

/-! ## After the migration -/

/-- The organisation a row is in after the migration. -/
def movedOrg (fromOrgId toOrgId orgId : OrgId) : OrgId := if orgId = fromOrgId then toOrgId else orgId

section
variable {fromOrgId toOrgId : OrgId}

theorem Store.members_migrated : v ∈ (s.migrated fromOrgId toOrgId).Members orgId ↔
    ∃ o, movedOrg fromOrgId toOrgId o = orgId ∧ v ∈ s.Members o := by
  simp only [Members, migrated, Set.mem_ofPred_eq, movedOrg]
  constructor
  · rintro ⟨w, hw, ho, hid⟩
    obtain ⟨x, hx, rfl⟩ := Table.mem_update.1 hw
    refine ⟨x.orgId, ?_, x, hx, rfl, ?_⟩
    · split at ho <;> simp_all
    · split at hid <;> exact hid
  · rintro ⟨-, ho, x, hx, rfl, hid⟩
    refine ⟨_, Table.mem_update.2 ⟨x, hx, rfl⟩, ?_, ?_⟩
    · split at ho <;> simp_all
    · split <;> exact hid

theorem Store.reportsTo_migrated : (s.migrated fromOrgId toOrgId).ReportsTo orgId v p ↔
    ∃ o, movedOrg fromOrgId toOrgId o = orgId ∧ s.ReportsTo o v p := by
  simp only [ReportsTo, migrated, movedOrg]
  constructor
  · rintro ⟨edge, hedge, ho, hr, hm⟩
    obtain ⟨x, hx, rfl⟩ := Table.mem_update.1 hedge
    refine ⟨x.orgId, ?_, x, hx, rfl, ?_, ?_⟩
    · split at ho <;> simp_all
    · split at hr <;> exact hr
    · split at hm <;> exact hm
  · rintro ⟨-, ho, x, hx, rfl, hr, hm⟩
    refine ⟨_, Table.mem_update.2 ⟨x, hx, rfl⟩, ?_, ?_, ?_⟩
    · split at ho <;> simp_all
    · split <;> exact hr
    · split <;> exact hm

end

theorem movedOrg_eq {a b : OrgId} {fromOrgId toOrgId : OrgId}
    (h : movedOrg fromOrgId toOrgId a = movedOrg fromOrgId toOrgId b) :
    a = b ∨ a = fromOrgId ∧ b = toOrgId ∨ a = toOrgId ∧ b = fromOrgId := by
  unfold movedOrg at h
  split at h <;> split at h <;> simp_all

theorem Roster.roles_nodup_absorbed (h : Roster s) (hids : Positions s) (ha : Absorbable s input) :
    ((s.absorbed input root now).positions.map fun p => (p.orgId, p.roleCode)).Nodup := by
  have hne := ha.distinct
  -- the key of a position afterwards, from the position before
  let role : OrgPosition → String := fun p =>
    if s.Clashes input p then renamedRole input.sourceOrgId p.roleCode else p.roleCode
  have hkeys : ((s.absorbed input root now).positions.map fun p => (p.orgId, p.roleCode)) =
      s.positions.map fun p => (movedOrg input.sourceOrgId input.targetOrgId p.orgId, role p) := by
    simp only [Store.absorbed, Store.reparentWorker, Store.migrated, Store.renamed, Store.renamedBut,
      Table.update, List.map_map]
    refine List.map_congr_left fun p _ => ?_
    by_cases hc : s.Clashes input p <;> by_cases ho : p.orgId = input.sourceOrgId <;>
      simp [hc, ho, movedOrg, role]
  rw [hkeys]
  refine List.Nodup.map_on (fun p hp q hq hpq => ?_) (List.Nodup.of_map _ hids.positions_nodup)
  obtain ⟨ho, hr⟩ := Prod.mk.inj hpq
  -- a changed role code is not that of a position of either organisation
  have hchanged : ∀ p ∈ s.positions, ∀ q ∈ s.positions, s.Clashes input p →
      movedOrg input.sourceOrgId input.targetOrgId p.orgId =
        movedOrg input.sourceOrgId input.targetOrgId q.orgId →
      q.roleCode ≠ renamedRole input.sourceOrgId p.roleCode := by
    intro p hp q hq hc ho hr
    obtain ⟨htarget, hsource⟩ := ha.roles p hp hc
    rcases movedOrg_eq ho with ho | ⟨-, ho⟩ | ⟨-, ho⟩
    · exact hsource q hq (ho.symm.trans hc.1) hr
    · exact htarget q hq ho hr
    · exact hsource q hq ho hr
  by_cases hpc : s.Clashes input p <;> by_cases hqc : s.Clashes input q <;>
    simp only [role, hpc, hqc, if_true, if_false] at hr
  · exact h.position_eq hp hq (hpc.1.trans hqc.1.symm) (renamedRole_inj hr)
  · exact absurd hr.symm (hchanged p hp q hq hpc ho)
  · exact absurd hr (hchanged q hq p hp hqc ho.symm)
  · rcases movedOrg_eq ho with ho | ⟨ho, ho'⟩ | ⟨ho, ho'⟩
    · exact h.position_eq hp hq ho hr
    · exact absurd ⟨ho, q, hq, ho', hr.symm⟩ hpc
    · exact absurd ⟨ho', p, hp, ho, hr⟩ hqc

@[simp] theorem Store.members_absorbed : v ∈ (s.absorbed input root now).Members orgId ↔
    ∃ o, movedOrg input.sourceOrgId input.targetOrgId o = orgId ∧ v ∈ s.Members o := by
  rw [Store.absorbed, Store.members_reparentWorker, Store.members_migrated]
  rfl

/-- Who reports to whom after `absorb`: as before, but for the worker who was mounted. -/
theorem Store.reportsTo_absorbed (h : Charted s) (hroot : root ∈ s.Members input.sourceOrgId) :
    (s.absorbed input root now).ReportsTo orgId v p ↔
      (v ≠ root ∧ ∃ o, movedOrg input.sourceOrgId input.targetOrgId o = orgId ∧ s.ReportsTo o v p) ∨
      (orgId = input.targetOrgId ∧ v = root ∧ p = input.mountUnderWorkerId) := by
  have hsource : movedOrg input.sourceOrgId input.targetOrgId input.sourceOrgId = input.targetOrgId :=
    if_pos rfl
  rw [Store.absorbed, Store.reportsTo_reparentWorker, Store.reportsTo_migrated]
  constructor
  · rintro (⟨⟨o, ho, hv⟩, hn⟩ | ⟨ho, rfl, hp, -⟩)
    · refine .inl ⟨?_, o, ho, hv⟩
      rintro rfl
      have hmember : v ∈ s.Members o := h.member_of_reportsTo hv
      rw [h.member_org hmember hroot, hsource] at ho
      exact hn ⟨ho.symm, rfl⟩
    · exact .inr ⟨ho, rfl, (Option.some.inj hp).symm⟩
  · rintro (⟨hne, o, ho, hv⟩ | ⟨rfl, rfl, rfl⟩)
    · exact .inl ⟨⟨o, ho, hv⟩, fun hc => hne hc.2⟩
    · obtain ⟨edge, hedge, ho, hr⟩ := h.placed input.sourceOrgId v hroot
      refine .inr ⟨rfl, rfl, rfl, _, Table.mem_update.2 ⟨edge, hedge, rfl⟩, ?_⟩
      simp [ho, hr]

/-- `absorb` keeps the roster. -/
theorem Roster.absorbed (h : Roster s) (hids : Positions s) (ha : Absorbable s input) :
    Roster (s.absorbed input root now) := by
  set s₁ := (s.renamed input).migrated input.sourceOrgId input.targetOrgId with hs₁
  have hmoved : ∀ o, ∀ v ∈ s.Members o, v ∈ s₁.Members (movedOrg input.sourceOrgId input.targetOrgId o) :=
    fun o v hv => Store.members_migrated.2 ⟨o, rfl, hv⟩
  have hedge : ∀ edge ∈ s₁.edges, ∃ x ∈ s.edges, edge.orgId = movedOrg input.sourceOrgId input.targetOrgId
      x.orgId ∧ edge.reportWorkerId = x.reportWorkerId ∧ edge.managerWorkerId = x.managerWorkerId := by
    intro edge hedge
    obtain ⟨x, hx, rfl⟩ := Table.mem_update.1 hedge
    refine ⟨x, hx, ?_⟩
    by_cases ho : x.orgId = input.sourceOrgId <;> simp [ho, movedOrg]
  have hmount : input.mountUnderWorkerId ∈ s₁.Members input.targetOrgId :=
    Store.members_migrated.2 ⟨_, if_neg ha.distinct, ha.mount_member⟩
  refine Roster.reparentWorker ⟨?_, ?_, ?_, ?_, fun edge hmem => ?_, fun edge hmem p hp => ?_⟩ hmount
  · exact Table.forall_mem_update h.drawn fun _ _ hw => hw
  · have hids : s₁.workers.map (·.id) = s.workers.map (·.id) := Table.map_update fun _ _ => rfl
    rw [hids]
    exact h.workers_nodup
  · exact @Roster.roles_nodup_absorbed _ _ root now h hids ha
  · have hreports : s₁.edges.map (·.reportWorkerId) = s.edges.map (·.reportWorkerId) :=
      Table.map_update fun _ _ => rfl
    rw [hreports]
    exact h.edges_nodup
  · obtain ⟨x, hx, ho, hr, -⟩ := hedge edge hmem
    rw [ho, hr]
    exact hmoved _ _ (h.report_member x hx)
  · obtain ⟨x, hx, ho, -, hm⟩ := hedge edge hmem
    rw [ho]
    exact hmoved _ _ (h.manager_member x hx p (hm ▸ hp))

theorem Positions.absorbed (h : Positions s) : Positions (s.absorbed input root now) := by
  have hids : (s.absorbed input root now).positions.map (·.id) = s.positions.map (·.id) := by
    have hmigrated : (s.absorbed input root now).positions.map (·.id) = (s.renamed input).positions.map (·.id) :=
      Table.map_update fun _ _ => rfl
    rw [hmigrated]
    exact Store.renamedBut_ids
  refine ⟨fun p hp => ?_, hids ▸ h.positions_nodup⟩
  obtain ⟨q, hq, heq⟩ := List.mem_map.1 (hids ▸ List.mem_map_of_mem hp : p.id ∈ s.positions.map (·.id))
  exact heq ▸ h.positions_drawn q hq

theorem movedOrg_eq_other {o : OrgId} (horg : orgId ≠ input.targetOrgId) :
    movedOrg input.sourceOrgId input.targetOrgId o = orgId ↔ o = orgId ∧ orgId ≠ input.sourceOrgId := by
  unfold movedOrg
  split
  next ho => exact iff_of_false (fun heq => horg heq.symm) fun hc => hc.2 (hc.1.symm.trans ho)
  next ho =>
    refine ⟨fun heq => ⟨heq, fun hs => ho (heq.trans hs)⟩, fun heq => heq.1⟩

section
variable (ha : Absorbable s input)
include ha

theorem movedOrg_eq_target {o : OrgId} : movedOrg input.sourceOrgId input.targetOrgId o = input.targetOrgId ↔
    o = input.targetOrgId ∨ o = input.sourceOrgId := by
  have hne := ha.distinct
  unfold movedOrg
  split <;> simp_all

/-- **The merged chart is a tree** when it was the root of the source that was mounted. -/
theorem Charted.absorbed (h : Charted s) (hroot : root ∈ s.Members input.sourceOrgId)
    (htop : ∀ p, ¬ s.ReportsTo input.sourceOrgId root p) : Charted (s.absorbed input root now) := by
  have hmoved : ∀ o, ∀ v ∈ s.Members o, v ∈ (s.absorbed input root now).Members
      (movedOrg input.sourceOrgId input.targetOrgId o) := fun o v hv =>
    Store.members_absorbed.2 ⟨o, rfl, hv⟩
  refine ⟨h.toRoster.absorbed h.toPositions ha, h.toPositions.absorbed, fun p hp => ?_, fun org v hv => ?_,
    fun org hne => ?_⟩
  · obtain ⟨q, hq, rfl⟩ := Table.mem_update.1 hp
    obtain ⟨x, hx, rfl⟩ := Store.mem_renamedBut.1 hq
    obtain ⟨v, hv⟩ := h.staffed x hx
    refine ⟨v, Store.members_absorbed.2 ⟨x.orgId, ?_, hv⟩⟩
    by_cases ho : x.orgId = input.sourceOrgId <;> by_cases hc : s.Clashes input x <;>
      simp [hc, ho, movedOrg]
  · obtain ⟨o, rfl, hmem⟩ := Store.members_absorbed.1 hv
    obtain ⟨edge, hedge, rfl, rfl⟩ := h.placed o v hmem
    refine Table.exists_mem_update (P := fun f : ReportingEdge =>
      f.orgId = movedOrg input.sourceOrgId input.targetOrgId edge.orgId ∧
        f.reportWorkerId = edge.reportWorkerId) ⟨_, Table.mem_update.2 ⟨edge, hedge, rfl⟩, ?_⟩
      fun _ _ hf => hf
    by_cases ho : edge.orgId = input.sourceOrgId <;> simp [ho, movedOrg]
  · by_cases horg : org = input.targetOrgId
    · -- the source hangs under the mount point
      subst horg
      obtain ⟨rootA, htreeA⟩ := h.tree input.targetOrgId ⟨_, ha.mount_member⟩
      obtain ⟨rootB, htreeB⟩ := h.tree input.sourceOrgId ⟨_, hroot⟩
      obtain rfl := htreeB.eq_root hroot htop
      have hset : (s.absorbed input root now).Members input.targetOrgId =
          s.Members input.targetOrgId ∪ s.Members input.sourceOrgId := by
        ext v
        simp [movedOrg_eq_target ha]
      have hnotA : ∀ v ∈ s.Members input.targetOrgId, ∀ p, ¬ s.ReportsTo input.sourceOrgId v p :=
        fun v hv p hp => ha.distinct (h.member_org hv (h.member_of_reportsTo hp))
      have hnotB : ∀ v ∈ s.Members input.sourceOrgId, ∀ p, ¬ s.ReportsTo input.targetOrgId v p :=
        fun v hv p hp => ha.distinct (h.member_org (h.member_of_reportsTo hp) hv)
      -- one relation for both trees
      let up : Id → Id → Prop := fun v p =>
        s.ReportsTo input.targetOrgId v p ∨ s.ReportsTo input.sourceOrgId v p
      have htreeA' := @htreeA.congr _ _ _ up _ fun v hv p => by simp [up, hnotA v hv p]
      have htreeB' := @htreeB.congr _ _ _ up _ fun v hv p => by simp [up, hnotB v hv p]
      rw [hset]
      refine ⟨rootA, htreeA'.graft htreeB' ha.mount_member (fun p => ?_) (fun v hv p => ?_)
        fun v hv hne p => ?_⟩
      · simp [Store.reportsTo_absorbed h hroot]
      · have hne : v ≠ root := by
          rintro rfl
          exact ha.distinct (h.member_org hv hroot)
        simp [Store.reportsTo_absorbed h hroot, movedOrg_eq_target ha, hne, up]
      · simp [Store.reportsTo_absorbed h hroot, movedOrg_eq_target ha, hne, up]
    · have hset : ∀ v, v ∈ (s.absorbed input root now).Members org ↔
          v ∈ s.Members org ∧ org ≠ input.sourceOrgId := fun v => by
        simp [movedOrg_eq_other horg, and_comm]
      obtain ⟨v, hv⟩ := hne
      have hsource := ((hset v).1 hv).2
      have hsame : (s.absorbed input root now).Members org = s.Members org := by
        ext v
        simp [hset, hsource]
      obtain ⟨rootO, htree⟩ := h.tree org ⟨v, ((hset v).1 hv).1⟩
      rw [hsame]
      refine ⟨rootO, htree.congr fun u hu p => ?_⟩
      have hne : u ≠ root := by
        rintro rfl
        exact hsource (h.member_org hu hroot)
      simp [Store.reportsTo_absorbed h hroot, movedOrg_eq_other horg, hne, hsource, horg]

theorem Charted.not_orgTree_absorbed (h : Charted s) (hroot : root ∈ s.Members input.sourceOrgId)
    (hp : s.ReportsTo input.sourceOrgId root p) : ¬ OrgTree (s.absorbed input root now) input.targetOrgId := by
  obtain ⟨rootA, htreeA⟩ := h.tree input.targetOrgId ⟨_, ha.mount_member⟩
  obtain ⟨rootB, htreeB⟩ := h.tree input.sourceOrgId ⟨_, hroot⟩
  have hneA : rootA ≠ root := by
    rintro rfl
    exact ha.distinct (h.member_org htreeA.root_mem hroot)
  have hneB : rootB ≠ root := by
    rintro rfl
    exact htreeB.root_top p hp
  intro htree
  have heq : rootA = rootB := htree.one_root.unique
    ⟨Store.members_absorbed.2 ⟨_, (movedOrg_eq_target ha).2 (.inl rfl), htreeA.root_mem⟩, fun m hm => ?_⟩
    ⟨Store.members_absorbed.2 ⟨_, (movedOrg_eq_target ha).2 (.inr rfl), htreeB.root_mem⟩, fun m hm => ?_⟩
  · exact ha.distinct (h.member_org htreeA.root_mem (heq ▸ htreeB.root_mem))
  · rcases (Store.reportsTo_absorbed h hroot).1 hm with ⟨-, o, -, hm⟩ | ⟨-, he, -⟩
    · rw [h.member_org (h.member_of_reportsTo hm) htreeA.root_mem] at hm
      exact htreeA.root_top m hm
    · exact hneA he
  · rcases (Store.reportsTo_absorbed h hroot).1 hm with ⟨-, o, -, hm⟩ | ⟨-, he, -⟩
    · rw [h.member_org (h.member_of_reportsTo hm) htreeB.root_mem] at hm
      exact htreeB.root_top m hm
    · exact hneB he

end

end ChronoSynth.Workforce

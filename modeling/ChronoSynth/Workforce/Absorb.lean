import ChronoSynth.Workforce.ChartSteps

/-!
# What `absorb` does

`absorb` goes through where its guards hold and no role code that both organisations have is still taken
when it has been changed (`Absorbable`); then it leaves `Store.absorbed`. Otherwise it changes nothing.
-/

namespace ChronoSynth.Workforce

open Service

variable {s s' s₁ : Store} {e : Env} {input : AbsorbInput} {p q : OrgPosition}

/-! ## Role codes -/

namespace Store

/-- The position is one of the source, with a role code that the target has. -/
def Clashes (s : Store) (input : AbsorbInput) (p : OrgPosition) : Prop :=
  p.orgId = input.sourceOrgId ∧ ∃ q ∈ s.positions, q.orgId = input.targetOrgId ∧ q.roleCode = p.roleCode

instance : DecidablePred (s.Clashes input) := fun p =>
  inferInstanceAs (Decidable (p.orgId = input.sourceOrgId ∧
    ∃ q ∈ s.positions, q.orgId = input.targetOrgId ∧ q.roleCode = p.roleCode))

/-- The changed role codes are free in both organisations. -/
def RolesClear (s : Store) (input : AbsorbInput) : Prop := ∀ p ∈ s.positions, s.Clashes input p →
  s.RoleFree input.targetOrgId (renamedRole input.sourceOrgId p.roleCode) ∧
    s.RoleFree input.sourceOrgId (renamedRole input.sourceOrgId p.roleCode)

instance : Decidable (s.RolesClear input) :=
  inferInstanceAs (Decidable (∀ p ∈ s.positions, s.Clashes input p → _ ∧ _))

/-- The clashing positions but those of the list have a new role code. -/
def renamedBut (s : Store) (input : AbsorbInput) (rest : List OrgPosition) : List OrgPosition :=
  Table.update (fun p => s.Clashes input p ∧ p ∉ rest)
    (fun p => { p with roleCode := renamedRole input.sourceOrgId p.roleCode }) s.positions

def renamed (s : Store) (input : AbsorbInput) : Store := { s with positions := s.renamedBut input [] }

end Store

theorem renamedRole_inj {orgId : OrgId} {r r' : String} (h : renamedRole orgId r = renamedRole orgId r') :
    r = r' := by
  simpa [renamedRole, ← String.toList_inj] using h

theorem Roster.position_eq (h : Roster s) (hp : p ∈ s.positions) (hq : q ∈ s.positions)
    (ho : p.orgId = q.orgId) (hr : p.roleCode = q.roleCode) : p = q :=
  List.inj_on_of_nodup_map h.roles_nodup hp hq (Prod.ext ho hr)

theorem Store.renamedBut_ids {rest : List OrgPosition} :
    (s.renamedBut input rest).map (·.id) = s.positions.map (·.id) :=
  Table.map_update fun _ _ => rfl

theorem Store.mem_renamedBut {rest : List OrgPosition} : q ∈ s.renamedBut input rest ↔
    ∃ p ∈ s.positions, q = if s.Clashes input p ∧ p ∉ rest then
      { p with roleCode := renamedRole input.sourceOrgId p.roleCode } else p :=
  Table.mem_update

theorem Store.update_renamedBut (hids : Positions s) {pos : OrgPosition} {rest : List OrgPosition}
    (hpos : pos ∈ s.positions) (hclash : s.Clashes input pos) (hrest : pos ∉ rest)
    (hnodup : ((s.renamedBut input (pos :: rest)).map fun p => (p.orgId, p.roleCode)).Nodup) :
    Table.update (fun p => p.orgId = input.sourceOrgId ∧ p.roleCode = pos.roleCode)
      (fun p => { p with roleCode := renamedRole input.sourceOrgId pos.roleCode })
      (s.renamedBut input (pos :: rest)) = s.renamedBut input rest := by
  rw [Store.renamedBut, Table.update, Table.update, List.map_map, Store.renamedBut, Table.update]
  refine List.map_congr_left fun x hx => ?_
  have hmem : pos ∈ s.renamedBut input (pos :: rest) :=
    Table.mem_update_of_not hpos fun h => h.2 List.mem_cons_self
  simp only [Function.comp_apply]
  by_cases hxp : x = pos
  · subst hxp
    simp [hclash, hrest, hclash.1]
  · have hsame : (s.Clashes input x ∧ x ∉ pos :: rest) ↔ s.Clashes input x ∧ x ∉ rest := by
      simp [hxp]
    have hne : ∀ y ∈ s.renamedBut input (pos :: rest), y.id = x.id →
        ¬ (y.orgId = input.sourceOrgId ∧ y.roleCode = pos.roleCode) := by
      rintro y hy hid ⟨ho, hr⟩
      have heq : y = pos := List.inj_on_of_nodup_map hnodup hy hmem (Prod.ext (ho.trans hclash.1.symm) hr)
      exact hxp (List.inj_on_of_nodup_map hids.positions_nodup hx hpos (by rw [← hid, heq]))
    have hy := hne _ (Store.mem_renamedBut.2 ⟨x, hx, rfl⟩) (by split <;> rfl)
    rw [if_neg hy]
    simp only [hsame]

theorem roles_nodup_rename {rows : List OrgPosition} {orgId : OrgId} {old new : String}
    (hids : (rows.map (·.id)).Nodup) (hnodup : (rows.map fun p => (p.orgId, p.roleCode)).Nodup)
    (hfree : ∀ p ∈ rows, ∀ q ∈ rows, p.orgId = orgId → p.roleCode = old →
      ¬ (q.orgId = orgId ∧ q.roleCode = new ∧ q.id ≠ p.id)) :
    ((Table.update (fun p => p.orgId = orgId ∧ p.roleCode = old) (fun p => { p with roleCode := new })
      rows).map fun p => (p.orgId, p.roleCode)).Nodup := by
  have hid : ∀ a ∈ rows, ∀ b ∈ rows, a.id = b.id → a = b := fun a ha b hb =>
    List.inj_on_of_nodup_map hids ha hb
  rw [Table.update, List.map_map]
  refine List.Nodup.map_on (fun a ha b hb hab => ?_) (List.Nodup.of_map _ hids)
  simp only [Function.comp_apply] at hab
  by_cases hpa : a.orgId = orgId ∧ a.roleCode = old
  · by_cases hpb : b.orgId = orgId ∧ b.roleCode = old
    · exact List.inj_on_of_nodup_map hnodup ha hb
        (Prod.ext (hpa.1.trans hpb.1.symm) (hpa.2.trans hpb.2.symm))
    · rw [if_pos hpa, if_neg hpb] at hab
      obtain ⟨ho, hr⟩ := Prod.mk.inj hab
      by_contra hne
      exact hfree a ha b hb hpa.1 hpa.2
        ⟨ho.symm.trans hpa.1, hr.symm, fun he => hne (hid a ha b hb he.symm)⟩
  · by_cases hpb : b.orgId = orgId ∧ b.roleCode = old
    · rw [if_neg hpa, if_pos hpb] at hab
      obtain ⟨ho, hr⟩ := Prod.mk.inj hab
      by_contra hne
      exact hfree b hb a ha hpb.1 hpb.2 ⟨ho.trans hpb.1, hr, fun he => hne (hid a ha b hb he)⟩
    · rw [if_neg hpa, if_neg hpb] at hab
      exact List.inj_on_of_nodup_map hnodup ha hb hab

theorem renameRoles_ensures (h : Roster s) (hids : Positions s) {rest : List OrgPosition}
    (hrest : ∀ p ∈ rest, p ∈ s.positions ∧ p.orgId = input.sourceOrgId) (hdistinct : rest.Nodup)
    (hs₁ : s₁ = { s with positions := s.renamedBut input rest })
    (hnodup : (s₁.positions.map fun p => (p.orgId, p.roleCode)).Nodup) :
    Ensures (renameRoles input ((s.listPositions input.targetOrgId).map (·.roleCode)) rest) s₁
      fun r s' => match r with
        | .ok _ => s' = s.renamed input ∧ (s'.positions.map fun p => (p.orgId, p.roleCode)).Nodup
        | .error _ => ¬ s.RolesClear input := by
  induction rest generalizing s₁ with
  | nil => exact ⟨hs₁, hnodup⟩
  | cons pos rest ih =>
    obtain ⟨hpos, horg⟩ := hrest pos List.mem_cons_self
    obtain ⟨hnew, hdistinct⟩ := List.nodup_cons.1 hdistinct
    have hclash : pos.roleCode ∈ (s.listPositions input.targetOrgId).map (·.roleCode) ↔
        s.Clashes input pos := by
      simp [Store.Clashes, horg, and_assoc]
    have hrest' := fun p hp => hrest p (List.mem_cons_of_mem _ hp)
    rw [renameRoles, ensures_ite]
    refine ⟨fun hc => ?_, fun hc => ?_⟩
    · have hc := hclash.1 hc
      subst hs₁
      simp only [renamePositionRoleCode, ensures_bind, ensures_get, ensures_require, ensures_set]
      refine ⟨fun hfree => ?_, fun htaken hclear => htaken ?_⟩
      · have hstep := Store.update_renamedBut hids hpos hc hnew hnodup
        have hkept : ((s.renamedBut input (pos :: rest)).map (·.id)).Nodup := by
          rw [Store.renamedBut_ids]
          exact hids.positions_nodup
        have hafter := roles_nodup_rename hkept hnodup hfree
        rw [hstep] at hafter ⊢
        refine (ih hrest' hdistinct rfl hafter).mono fun r s' hr => ?_
        cases r with
        | ok _ => exact hr
        | error _ => exact hr
      · -- no position can have the new role code yet
        rintro - - q hq - - ⟨ho, hr, -⟩
        obtain ⟨x, hx, rfl⟩ := Store.mem_renamedBut.1 hq
        split at hr
        next hxc =>
          refine hxc.2 (List.mem_cons.2 (.inl ?_))
          exact h.position_eq hx hpos (hxc.1.1.trans horg.symm) (renamedRole_inj hr)
        next hxc =>
          rw [if_neg hxc] at ho
          exact (hclear pos hpos hc).2 x hx ho hr
    · have hc := mt hclash.2 hc
      refine ih hrest' hdistinct ?_ hnodup
      rw [hs₁]
      congr 1
      refine List.map_congr_left fun x hx => ?_
      have hiff : (s.Clashes input x ∧ x ∉ pos :: rest) ↔ s.Clashes input x ∧ x ∉ rest := by
        constructor
        · rintro ⟨hx, hn⟩
          exact ⟨hx, fun hm => hn (List.mem_cons_of_mem _ hm)⟩
        · rintro ⟨hx, hn⟩
          refine ⟨hx, fun hm => ?_⟩
          rcases List.mem_cons.1 hm with rfl | hm
          · exact hc hx
          · exact hn hm
      simp only [hiff]

/-! ## The merged organisation -/

/-- The store after `absorb`. -/
def Store.absorbed (s : Store) (input : AbsorbInput) (sourceRoot : Id) (now : Time) : Store :=
  (((s.renamed input).migrated input.sourceOrgId input.targetOrgId).reparentWorker input.targetOrgId
    sourceRoot (some input.mountUnderWorkerId) now).2

/-- When `absorb` goes through. -/
structure Absorbable (s : Store) (input : AbsorbInput) : Prop where
  distinct : input.targetOrgId ≠ input.sourceOrgId
  mount : ∃ w ∈ s.workers, w.orgId = input.targetOrgId ∧ w.id = input.mountUnderWorkerId ∧
    w.employmentStatus = .active
  source : (s.Members input.sourceOrgId).Nonempty
  roles : s.RolesClear input

theorem absorbable_iff : Absorbable s input ↔ input.targetOrgId ≠ input.sourceOrgId ∧
    (∃ w ∈ s.workers, w.orgId = input.targetOrgId ∧ w.id = input.mountUnderWorkerId ∧
      w.employmentStatus = .active) ∧
    (∃ w ∈ s.workers, w.orgId = input.sourceOrgId) ∧ s.RolesClear input := by
  have hsource : (s.Members input.sourceOrgId).Nonempty ↔ ∃ w ∈ s.workers, w.orgId = input.sourceOrgId :=
    ⟨fun ⟨_, w, hw, ho, _⟩ => ⟨w, hw, ho⟩, fun ⟨w, hw, ho⟩ => ⟨w.id, w, hw, ho, rfl⟩⟩
  exact ⟨fun ⟨hd, hm, hs, hr⟩ => ⟨hd, hm, hsource.1 hs, hr⟩, fun ⟨hd, hm, hs, hr⟩ => ⟨hd, hm, hsource.2 hs, hr⟩⟩

instance : Decidable (Absorbable s input) := decidable_of_iff _ absorbable_iff.symm

theorem Absorbable.mount_member (h : Absorbable s input) :
    input.mountUnderWorkerId ∈ s.Members input.targetOrgId := by
  obtain ⟨w, hw, ho, hid, -⟩ := h.mount
  exact ⟨w, hw, ho, hid⟩

theorem rolesClear_iff_renamed (hids : Positions s)
    (hne : input.targetOrgId ≠ input.sourceOrgId)
    (hnodup : ((s.renamed input).positions.map fun p => (p.orgId, p.roleCode)).Nodup) :
    (∀ p ∈ (s.renamed input).positions, ∀ q ∈ (s.renamed input).positions,
      p.orgId = input.sourceOrgId → q.orgId = input.targetOrgId → p.roleCode ≠ q.roleCode) ↔
    s.RolesClear input := by
  have hstay : ∀ q ∈ s.positions, ¬ s.Clashes input q → q ∈ (s.renamed input).positions :=
    fun q hq hc => Table.mem_update_of_not hq fun hc' => hc hc'.1
  have hmoved : ∀ p ∈ s.positions, s.Clashes input p →
      { p with roleCode := renamedRole input.sourceOrgId p.roleCode } ∈ (s.renamed input).positions :=
    fun p hp hc => Table.mem_update_of (p := fun p => s.Clashes input p ∧ p ∉ []) hp ⟨hc, List.not_mem_nil⟩
  have htarget : ∀ q ∈ s.positions, q.orgId = input.targetOrgId → ¬ s.Clashes input q :=
    fun q _ ho hc => hne (ho.symm.trans hc.1)
  constructor
  · intro hdiff p hp hc
    have hA : s.RoleFree input.targetOrgId (renamedRole input.sourceOrgId p.roleCode) := fun q hq ho hr =>
      hdiff _ (hmoved p hp hc) q (hstay q hq (htarget q hq ho)) hc.1 ho hr.symm
    refine ⟨hA, fun x hx ho hr => ?_⟩
    have hxc : ¬ s.Clashes input x := by
      rintro ⟨-, q, hq, hqo, hqr⟩
      exact hA q hq hqo (hqr.trans hr)
    have heq := List.inj_on_of_nodup_map hnodup (hstay x hx hxc) (hmoved p hp hc)
      (Prod.ext (ho.trans hc.1.symm) hr)
    have hxp : x = p := List.inj_on_of_nodup_map hids.positions_nodup hx hp (congrArg (·.id) heq)
    exact hxc (hxp ▸ hc)
  · intro hclear p' hp' q' hq' hpo hqo hr
    obtain ⟨p, hp, rfl⟩ := Store.mem_renamedBut.1 hp'
    obtain ⟨q, hq, rfl⟩ := Store.mem_renamedBut.1 hq'
    have hqt : q.orgId = input.targetOrgId := by
      split at hqo <;> exact hqo
    have hqc : ¬ (s.Clashes input q ∧ q ∉ []) := fun hc => htarget q hq hqt hc.1
    rw [if_neg hqc] at hr
    split at hr
    next hc => exact (hclear p hp hc.1).1 q hq hqt hr.symm
    next hc =>
      rw [if_neg hc] at hpo
      exact hc ⟨⟨hpo, q, hq, hqt, hr.symm⟩, List.not_mem_nil⟩

/-- `migrateOrgStructure` is only refused for a role code that both organisations have. -/
theorem migrateOrgStructure_ensures (h : Roster s) {fromOrgId toOrgId : OrgId} (hne : toOrgId ≠ fromOrgId)
    (hs₁ : s₁.workers = s.workers ∧ s₁.edges = s.edges) :
    Ensures (migrateOrgStructure fromOrgId toOrgId) s₁ fun r s' =>
      match r with
      | .ok _ => s' = s₁.migrated fromOrgId toOrgId ∧ ∀ p ∈ s₁.positions, ∀ q ∈ s₁.positions,
          p.orgId = fromOrgId → q.orgId = toOrgId → p.roleCode ≠ q.roleCode
      | .error _ => ¬ ∀ p ∈ s₁.positions, ∀ q ∈ s₁.positions,
          p.orgId = fromOrgId → q.orgId = toOrgId → p.roleCode ≠ q.roleCode := by
  simp only [migrateOrgStructure, ensures_bind, ensures_get, ensures_require, ensures_set, ensures_pure]
  refine ⟨fun hroles => ⟨fun _ => ⟨trivial, hroles⟩, fun hedges => absurd ?_ hedges⟩, fun hroles => hroles⟩
  -- the two organisations have no worker in common
  intro edge hedge f hf he hfo heq
  rw [hs₁.2] at hedge hf
  have hin : edge.reportWorkerId ∈ s.Members fromOrgId := he ▸ h.report_member edge hedge
  have hin' : f.reportWorkerId ∈ s.Members toOrgId := hfo ▸ h.report_member f hf
  exact hne (h.member_org hin' (heq ▸ hin))

/-- **`absorb`** merges the organisations where it can, and otherwise changes nothing. -/
theorem absorb_ensures (h : Roster s) (hids : Positions s) :
    Ensures (absorb e input) s fun r s' =>
      match r with
      | .ok res => Absorbable s input ∧ s.findRoot input.sourceOrgId = some res.sourceRootWorkerId ∧
          s' = s.absorbed input res.sourceRootWorkerId e.now
      | .error _ => s' = s ∧ ¬ (Absorbable s input ∧ s.findRoot input.sourceOrgId ≠ none) := by
  unfold absorb
  simp only [ensures_bind, ensures_get, ensures_require]
  refine ⟨fun hne => ⟨fun htarget => ⟨fun hsource => ?_, fun hsource => ⟨trivial, fun ha => hsource ?_⟩⟩,
    fun htarget => ⟨trivial, fun ha => htarget ?_⟩⟩, fun hne => ⟨trivial, fun ha => hne ha.1.distinct⟩⟩
  · have hsource := Store.listWorkers_ne_nil_iff.1 hsource
    cases hmount : s.getWorker input.targetOrgId input.mountUnderWorkerId with
    | none => exact ⟨rfl, fun ha => Store.getWorker_ne_none_iff.2 ha.1.mount_member hmount⟩
    | some mount =>
      obtain ⟨hmem, ho, hid⟩ := Store.mem_of_getWorker hmount
      simp only [ensures_bind, ensures_require]
      refine ⟨fun hactive => ?_, fun hactive => ⟨trivial, fun ha => hactive ?_⟩⟩
      · cases hroot : s.findRoot input.sourceOrgId with
        | none => exact ⟨rfl, fun ha => ha.2 rfl⟩
        | some sourceRoot =>
          have hfirst : s = { s with positions := s.renamedBut input (s.listPositions input.sourceOrgId) } := by
            have hnone : s.renamedBut input (s.listPositions input.sourceOrgId) = s.positions :=
              Table.update_eq_self fun p hp hc => hc.2 (Store.mem_listPositions.2 ⟨hp, hc.1.1⟩)
            rw [hnone]
          have hpositions : (s.listPositions input.sourceOrgId).Nodup :=
            (List.perm_insertionSort _ _).nodup_iff.2
              ((List.Nodup.of_map _ hids.positions_nodup).filter _)
          simp only [ensures_transaction, absorbInTx, ensures_bind, ensures_get]
          refine (renameRoles_ensures h hids (fun p hp => Store.mem_listPositions.1 hp) hpositions hfirst
            h.roles_nodup).mono fun r s₁ hr => ?_
          cases r with
          | error _ => exact ⟨trivial, fun ha => hr ha.1.roles⟩
          | ok renamedRoles =>
            obtain ⟨rfl, hnodup⟩ := hr
            refine (@migrateOrgStructure_ensures s (s.renamed input) h _ _ hne ⟨rfl, rfl⟩).mono
              fun r s₂ hr => ?_
            cases r with
            | error _ =>
              exact ⟨trivial, fun ha => hr ((rolesClear_iff_renamed hids hne hnodup).2 ha.1.roles)⟩
            | ok moved =>
              obtain ⟨rfl, hdiff⟩ := hr
              exact ⟨⟨hne, ⟨mount, hmem, ho, hid, hactive⟩, hsource,
                (rolesClear_iff_renamed hids hne hnodup).1 hdiff⟩, rfl, rfl⟩
      · obtain ⟨w, hw, -, hwid, hwa⟩ := ha.1.mount
        rw [h.worker_eq hmem hw (hid.trans hwid.symm)]
        exact hwa
  · exact Store.listWorkers_ne_nil_iff.2 ha.1.source
  · exact Store.listWorkers_ne_nil_iff.2 ⟨_, ha.1.mount_member⟩

end ChronoSynth.Workforce

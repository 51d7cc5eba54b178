import ChronoSynth.Persona.Calls

/-!
# Sanctions

A governance action restricts or suspends a persona, and only another one, the reinstatement, is to
lift the sanction. What stands is read off the actions in the order they were committed
(`Sanctioned`); a sanction stands if its persona is not active meanwhile (`SanctionsStand`).

Several transactions set a persona to active as a side effect, and none of them looks at what the
persona is. `Tx.lifts` names them, and a run keeps the sanctions exactly when none of these is
committed on a persona under sanction.
-/

namespace ChronoSynth.Persona

variable {env : Env} {t : Tx} {db db' : TenantDb}

/-! ## Standing sanctions -/

/-- Whether a sanction stands after an action, if it stood before it or not. -/
def GovernanceActionType.sanction (standing : Bool) : GovernanceActionType → Bool
  | .temporary_restriction | .temporary_suspension => true
  | .reinstate => false
  | .warning | .termination => standing

def CaseOf (db : TenantDb) (caseId personaId : Id) : Prop :=
  ∃ g ∈ db.cases, g.id = caseId ∧ g.personaId = personaId

instance (caseId personaId : Id) : Decidable (CaseOf db caseId personaId) :=
  inferInstanceAs (Decidable (∃ g ∈ db.cases, _))

/-- The actions on the cases of a persona, in the order they were committed. -/
def actionsOn (db : TenantDb) (personaId : Id) : List GovernanceActionType :=
  (db.actions.filter fun a => CaseOf db a.caseId personaId).map GovernanceAction.actionType

/-- The persona has been restricted or suspended, and not been reinstated since. -/
def Sanctioned (db : TenantDb) (personaId : Id) : Prop :=
  (actionsOn db personaId).foldl GovernanceActionType.sanction false = true

instance (personaId : Id) : Decidable (Sanctioned db personaId) :=
  inferInstanceAs (Decidable (_ = true))

/-- No persona under sanction is active. -/
def SanctionsStand (db : TenantDb) : Prop :=
  ∀ pc ∈ db.personas, Sanctioned db pc.id → pc.status ≠ .active

instance : Decidable (SanctionsStand db) := inferInstanceAs (Decidable (∀ pc ∈ db.personas, _))

def Acted (db : TenantDb) : Prop := ∀ a ∈ db.actions, ∃ g ∈ db.cases, g.id = a.caseId

/-! ## What a transaction does to the sanctions -/

theorem caseOf_iff (ht : db.Tidy) (hg : db.Grows db') {caseId personaId : Id}
    (hc : ∃ g ∈ db.cases, g.id = caseId) :
    CaseOf db' caseId personaId ↔ CaseOf db caseId personaId := by
  have hfixed : ∀ g ∈ db.cases, ∃ g' ∈ db'.cases, g'.id = g.id ∧ g'.personaId = g.personaId := by
    intro g hmem
    obtain ⟨g', hg', he⟩ := hg.cases.stay g hmem
    simp only [GovernanceCase.fixed, Prod.mk.injEq] at he
    exact ⟨g', hg', he.1, he.2.1⟩
  constructor
  · rintro ⟨g, hmem, hid, hp⟩
    obtain ⟨g₀, hmem₀, hid₀⟩ := hc
    obtain ⟨g', hg', hid', hp'⟩ := hfixed g₀ hmem₀
    have hn := (hg.numbered_of ht.numbered).cases
    obtain rfl := hn.eq hg' hmem (hid'.trans (hid₀.trans hid.symm))
    exact ⟨g₀, hmem₀, hid₀, hp'.symm.trans hp⟩
  · rintro ⟨g, hmem, hid, hp⟩
    obtain ⟨g', hg', hid', hp'⟩ := hfixed g hmem
    exact ⟨g', hg', hid'.trans hid, hp'.trans hp⟩

theorem sanctioned_iff (ht : db.Tidy) (ha : Acted db) (hg : db.Grows db')
    (he : db'.actions = db.actions) (personaId : Id) :
    Sanctioned db' personaId ↔ Sanctioned db personaId := by
  have h : actionsOn db' personaId = actionsOn db personaId := by
    rw [actionsOn, actionsOn, he]
    refine congrArg _ (List.filter_congr fun a hmem => ?_)
    exact decide_eq_decide.2 (caseOf_iff ht hg (ha a hmem))
  rw [Sanctioned, Sanctioned, h]

theorem sanctioned_act (ht : db.Tidy) (ha : Acted db) (hg : db.Grows db') {a : GovernanceAction}
    (he : db'.actions = db.actions ++ [a]) {p : Id} (hc : CaseOf db a.caseId p) (personaId : Id) :
    Sanctioned db' personaId ↔
      if personaId = p then
        a.actionType.sanction ((actionsOn db p).foldl GovernanceActionType.sanction false) = true
      else Sanctioned db personaId := by
  have hown : CaseOf db a.caseId personaId ↔ personaId = p := by
    obtain ⟨g, hmem, hid, hp⟩ := hc
    refine ⟨fun ⟨g', hmem', hid', hp'⟩ => ?_, fun h => ⟨g, hmem, hid, hp.trans h.symm⟩⟩
    obtain rfl := ht.numbered.cases.eq hmem hmem' (hid.trans hid'.symm)
    exact hp'.symm.trans hp
  have hold : (db.actions.filter fun a => CaseOf db' a.caseId personaId) =
      db.actions.filter fun a => CaseOf db a.caseId personaId :=
    List.filter_congr fun a hmem => decide_eq_decide.2 (caseOf_iff ht hg (ha a hmem))
  have hnew : CaseOf db' a.caseId personaId ↔ personaId = p :=
    (caseOf_iff ht hg ⟨_, hc.choose_spec.1, hc.choose_spec.2.1⟩).trans hown
  rw [Sanctioned, actionsOn, he, List.filter_append, hold]
  split
  next hp =>
    subst hp
    simp [hnew, actionsOn]
  next hp => simp [hnew, hp, actionsOn, Sanctioned]

theorem Sanctioned.exists_persona {p : Id} (h : Sanctioned db p) (ht : db.Tidy) :
    ∃ pc ∈ db.personas, pc.id = p := by
  cases hl : db.actions.filter fun a => CaseOf db a.caseId p with
  | nil => simp [Sanctioned, actionsOn, hl] at h
  | cons a l =>
    have ha : a ∈ db.actions.filter fun a => CaseOf db a.caseId p := hl ▸ List.mem_cons_self
    obtain ⟨g, hg, -, rfl⟩ := of_decide_eq_true (List.mem_filter.1 ha).2
    exact ht.cased g hg

/-! ## What a transaction does to the personas -/

/-- The persona a transaction sets to active without reinstating it, unless it is rolled back: an
activation, an approved transfer, an acceptance, a completion, or a warning that writes back a
status that was read before. -/
def Tx.lifts (db : TenantDb) : Tx → Option Id
  | .activatePersona p => some p
  | .approveTransfer p x _ =>
    if ∃ y ∈ db.transfers, y.id = x ∧ y.status = .pending_review then some p else none
  | .applyGovernanceAction c p .warning _ _ .active _ =>
    if ∃ g ∈ db.cases, g.id = c ∧ g.status ≠ .resolved then some p else none
  | .acceptSubmittedTask a =>
    if ∃ x ∈ db.tasks, x.id = a.taskId ∧ x.status = .accepted then some a.personaId else none
  | .completeTask c =>
    if (∃ x ∈ db.tasks, x.id = c.taskId ∧ x.status = .accepted) ∧
        (0 < c.payoutMinor → ¬ ∃ s ∈ db.settlements, s.assignmentId = c.assignmentId)
    then some c.personaId else none
  | _ => none

section
variable {personas : List PersonaCore} {p : Id} {g : PersonaCore → PersonaCore} {pc' : PersonaCore}

theorem active_of_update (h : pc' ∈ Table.update (·.id = p) g personas)
    (hs : pc'.status = .active) (hg : ∀ pc, (g pc).id = pc.id) :
    p = pc'.id ∨ ∃ pc ∈ personas, pc.id = pc'.id ∧ pc.status = .active := by
  obtain ⟨pc, hpc, rfl⟩ := Table.mem_update.1 h
  by_cases hp : pc.id = p
  · rw [if_pos hp, hg]
    exact .inl hp.symm
  · rw [if_neg hp] at hs ⊢
    exact .inr ⟨pc, hpc, rfl, hs⟩

theorem active_of_update_of (h : pc' ∈ Table.update (·.id = p) g personas)
    (hs : pc'.status = .active) (hg : ∀ pc, (g pc).id = pc.id)
    (hs' : ∀ pc, (g pc).status = .active → pc.status = .active) :
    ∃ pc ∈ personas, pc.id = pc'.id ∧ pc.status = .active := by
  obtain ⟨pc, hpc, rfl⟩ := Table.mem_update.1 h
  by_cases hp : pc.id = p
  · rw [if_pos hp] at hs ⊢
    exact ⟨pc, hpc, (hg pc).symm, hs' pc hs⟩
  · rw [if_neg hp] at hs ⊢
    exact ⟨pc, hpc, rfl, hs⟩

theorem exists_of_update (hg : ∀ pc, (g pc).id = pc.id) (hs : ∀ pc, (g pc).status = .active)
    (hp : ∃ pc ∈ personas, pc.id = p) :
    ∃ pc' ∈ Table.update (·.id = p) g personas, pc'.id = p ∧ pc'.status = .active := by
  obtain ⟨pc, hpc, rfl⟩ := hp
  exact ⟨g pc, Table.mem_update_of hpc rfl, hg pc, hs pc⟩

end

/-- A persona that is active after a transaction that commits no action was active before, is new,
or is the one that the transaction lifts. -/
theorem exec_active (hn : db.Numbered) (hb : t.Backed db) (hw : .actions ∉ t.writes)
    {pc' : PersonaCore} (h : pc' ∈ (exec env t db).1.personas) (hs : pc'.status = .active) :
    t.lifts db = some pc'.id ∨ (∃ pc ∈ db.personas, pc.id = pc'.id ∧ pc.status = .active) ∨
      pc'.id = db.personas.length := by
  have hold : pc' ∈ db.personas → ∃ pc ∈ db.personas, pc.id = pc'.id ∧ pc.status = .active :=
    fun h => ⟨pc', h, rfl, hs⟩
  have ep : _ → _ = _ := exec_agree env t db .personas
  cases t with
  | createPersona u =>
    rw [exec_createPersona] at h
    rcases List.mem_append.1 h with h | h
    · exact .inr (.inl (hold h))
    · obtain rfl := List.mem_singleton.1 h
      exact .inr (.inr rfl)
  | activatePersona p =>
    rw [exec_activatePersona] at h
    rcases active_of_update h hs fun _ => rfl with rfl | h
    · exact .inl rfl
    · exact .inr (.inl h)
  | deactivatePersona p =>
    rw [exec_deactivatePersona] at h
    exact .inr (.inl (active_of_update_of h hs (fun _ => rfl) fun _ h => by cases h))
  | approveTransfer p x u =>
    rw [exec_approveTransfer] at h
    split at h
    next hc =>
      rcases active_of_update h hs fun _ => rfl with rfl | h
      · exact .inl (if_pos (hn.transfers.countP_eq_one.1 hc))
      · exact .inr (.inl h)
    next => exact .inr (.inl (hold h))
  | addKnowledge p g r =>
    rw [exec_addKnowledge] at h
    exact .inr (.inl (active_of_update_of h hs (fun _ => rfl) fun _ h => h))
  | addGovernanceEvent p r g next =>
    rw [exec_addGovernanceEvent] at h
    refine .inr (.inl (active_of_update_of h hs (fun _ => rfl) fun pc h => ?_))
    cases next with
    | none => exact h
    | some st => exact (hb (congrArg some h)).elim
  | applyGovernanceAction => exact (hw (by simp [Tx.writes])).elim
  | acceptSubmittedTask a =>
    rw [exec_acceptSubmittedTask] at h
    split at h
    next hc =>
      rcases active_of_update h hs fun _ => rfl with he | h
      · exact .inl ((if_pos (hn.tasks.countP_eq_one.1 hc)).trans (congrArg some he))
      · exact .inr (.inl h)
    next => exact .inr (.inl (hold h))
  | completeTask c =>
    obtain ⟨e, -⟩ | ⟨hc, hs', e⟩ := exec_completeTask_cases env db c
    · rw [e] at h
      exact .inr (.inl (hold h))
    · rw [e] at h
      rcases active_of_update h hs fun _ => rfl with he | h
      · exact .inl ((if_pos ⟨hn.tasks.countP_eq_one.1 hc, hs'⟩).trans (congrArg some he))
      · exact .inr (.inl h)
  | _ =>
    rw [ep (by simp [Tx.writes])] at h
    exact .inr (.inl (hold h))

theorem exec_lifts (env : Env) (hn : db.Numbered) {p : Id} (h : t.lifts db = some p)
    (hp : ∃ pc ∈ db.personas, pc.id = p) :
    ∃ pc' ∈ (exec env t db).1.personas, pc'.id = p ∧ pc'.status = .active := by
  cases t with
  | activatePersona q =>
    obtain rfl := Option.some.inj h
    exact exists_of_update (fun _ => rfl) (fun _ => rfl) hp
  | approveTransfer q x u =>
    obtain ⟨hc, hq⟩ := Option.ite_none_right_eq_some.1 h
    obtain rfl := Option.some.inj hq
    rw [exec_approveTransfer, if_pos (hn.transfers.countP_eq_one.2 hc)]
    exact exists_of_update (fun _ => rfl) (fun _ => rfl) hp
  | applyGovernanceAction c q actionType dur actor next r =>
    cases actionType <;> cases next <;> try cases h
    obtain ⟨hc, hq⟩ := Option.ite_none_right_eq_some.1 h
    obtain rfl := Option.some.inj hq
    rw [exec_applyGovernanceAction, if_pos (hn.cases.countP_eq_one.2 hc)]
    exact exists_of_update (fun _ => rfl) (fun _ => rfl) hp
  | acceptSubmittedTask a =>
    obtain ⟨hc, hq⟩ := Option.ite_none_right_eq_some.1 h
    obtain rfl := Option.some.inj hq
    rw [exec_acceptSubmittedTask, if_pos (hn.tasks.countP_eq_one.2 hc)]
    exact exists_of_update (fun _ => rfl) (fun _ => rfl) hp
  | completeTask c =>
    obtain ⟨hc, hq⟩ := Option.ite_none_right_eq_some.1 h
    obtain rfl := Option.some.inj hq
    rw [exec_completeTask_completed (hn.tasks.countP_eq_one.2 hc.1) hc.2]
    exact exists_of_update (fun _ => rfl) (fun _ => rfl) hp
  | _ => cases h

/-! ## Runs -/

theorem exec_acted (ha : Acted db) : Acted (exec env t db).1 := by
  -- the cases stay, so only the actions matter
  suffices h : ∀ a ∈ (exec env t db).1.actions, ∃ g ∈ db.cases, g.id = a.caseId by
    intro a hmem
    obtain ⟨g, hg, hid⟩ := h a hmem
    obtain ⟨g', hg', he⟩ := (exec_grows env t db).cases.stay g hg
    exact ⟨g', hg', (congrArg Prod.fst he).trans hid⟩
  have ea : _ → _ = _ := exec_agree env t db .actions
  cases t with
  | applyGovernanceAction c p actionType dur actor next r =>
    rw [exec_applyGovernanceAction]
    split
    next hc =>
      intro a hmem
      rcases List.mem_append.1 hmem with hmem | hmem
      · exact ha a hmem
      · obtain rfl := List.mem_singleton.1 hmem
        obtain ⟨g, hg, hp⟩ := List.countP_pos_iff.1 (hc ▸ Nat.one_pos)
        exact ⟨g, hg, (of_decide_eq_true hp).1⟩
    next => exact ha
  | _ => rwa [ea (by simp [Tx.writes])]

/-- What a committed action leaves: it counts for its persona, which gets the status that was handed
over. -/
theorem exec_act_sanctioned {c p : Id} {actionType : GovernanceActionType} {dur : Option ℕ}
    {actor : Id} {next : PersonaCoreStatus} {r : ℚ} (ht : db.Tidy) (ha : Acted db)
    (hc : CaseOf db c p) (personaId : Id)
    (hclaim : db.cases.countP (fun g => g.id = c ∧ g.status ≠ .resolved) = 1) :
    Sanctioned (exec env (.applyGovernanceAction c p actionType dur actor next r) db).1 personaId ↔
      if personaId = p then
        actionType.sanction ((actionsOn db p).foldl GovernanceActionType.sanction false) = true
      else Sanctioned db personaId := by
  have he : (exec env (.applyGovernanceAction c p actionType dur actor next r) db).1.actions =
      db.actions ++ [⟨db.actions.length, c, actionType, dur, actor, env.now⟩] := by
    rw [exec_applyGovernanceAction, if_pos hclaim]
  exact sanctioned_act ht ha (exec_grows _ _ _) he hc personaId

/-- **Step lemma**: a backed transaction that lifts no standing sanction keeps them all. -/
theorem exec_sanctionsStand (ht : db.Tidy) (hb : t.Backed db) (ha : Acted db)
    (h : SanctionsStand db) (hC : ∀ p, t.lifts db = some p → ¬ Sanctioned db p) :
    SanctionsStand (exec env t db).1 := by
  by_cases hw : .actions ∈ t.writes
  · cases t with
    | applyGovernanceAction c p actionType dur actor next r =>
      obtain ⟨hcase, st, hnext⟩ := hb
      by_cases hclaim : db.cases.countP (fun g => g.id = c ∧ g.status ≠ .resolved) = 1
      · intro pc' hpc' hs hactive
        rw [exec_act_sanctioned ht ha hcase pc'.id hclaim] at hs
        rw [exec_applyGovernanceAction, if_pos hclaim] at hpc'
        obtain ⟨pc, hpc, rfl⟩ := Table.mem_update.1 hpc'
        by_cases hp : pc.id = p
        · -- the persona of the case has the status that was handed over
          rw [if_pos hp] at hs hactive
          replace hs := (if_pos hp).mp hs
          have hact : next = .active := hactive
          cases actionType with
          | warning =>
            subst hact
            exact hC p (if_pos (ht.numbered.cases.countP_eq_one.1 hclaim)) hs
          | reinstate => cases hs
          | temporary_restriction | temporary_suspension | termination => cases hnext.symm.trans hact
        · rw [if_neg hp] at hs hactive
          rw [if_neg hp] at hs
          exact h pc hpc hs hactive
      · rwa [exec_applyGovernanceAction, if_neg hclaim]
    | _ => simp [Tx.writes] at hw
  · intro pc' hpc' hs hactive
    rw [sanctioned_iff ht ha (exec_grows _ _ _) (exec_agree env t db .actions hw)] at hs
    rcases exec_active ht.numbered hb hw hpc' hactive with hl | ⟨pc, hpc, hid, hact⟩ | hnew
    · exact hC _ hl hs
    · exact h pc hpc (hid ▸ hs) hact
    · obtain ⟨pc, hpc, hid⟩ := hs.exists_persona ht
      exact absurd (ht.numbered.personas.lt hpc) (by rw [hid, hnew]; exact lt_irrefl _)

theorem exec_lifts_sanctioned (ht : db.Tidy) (hb : t.Backed db) (ha : Acted db)
    (h : SanctionsStand (exec env t db).1) (p : Id) (hl : t.lifts db = some p) :
    ¬ Sanctioned db p := by
  intro hs
  obtain ⟨pc', hpc', rfl, hact⟩ :=
    exec_lifts env ht.numbered hl (hs.exists_persona ht)
  refine h pc' hpc' ?_ hact
  by_cases hw : .actions ∈ t.writes
  · cases t with
    | applyGovernanceAction c q actionType dur actor next r =>
      cases actionType <;> cases next <;> try cases hl
      obtain ⟨hc, hq⟩ := Option.ite_none_right_eq_some.1 hl
      rw [exec_act_sanctioned ht ha hb.1 _ (ht.numbered.cases.countP_eq_one.2 hc)]
      rw [if_pos (Option.some.inj hq).symm]
      rwa [← Option.some.inj hq] at hs
    | _ => simp [Tx.writes] at hw
  · rwa [sanctioned_iff ht ha (exec_grows _ _ _) (exec_agree env t db .actions hw)]

/-- **Sanctions.** In a run of all calls, a persona that a governance action has restricted or
suspended is active again only after a reinstatement — exactly if no activation, approved transfer,
acceptance, completion or warning that writes back "active" is committed on a persona under
sanction. -/
theorem sanctionsStand_iff (users : List Id) (ms : List PersonaMove) :
    Always PersonaPool.step (fun p => SanctionsStand p.db) (PersonaPool.init users) ms ↔
      Along PersonaPool.step
        (Pool.AtCommit fun _ t db => ∀ p, t.lifts db = some p → ¬ Sanctioned db p)
        (PersonaPool.init users) ms :=
  PersonaPool.always_iff (I := fun db => SanctionsStand db ∧ Acted db)
    ⟨by simp [SanctionsStand, TenantDb.fresh], by simp [Acted, TenantDb.fresh]⟩ (fun _ h => h.1)
    (fun _ _ _ ht hb h hC => ⟨exec_sanctionsStand ht hb h.2 h.1 hC, exec_acted h.2⟩)
    fun _ _ _ ht hb h hP => exec_lifts_sanctioned ht hb h.2 hP

/-- The owner of a suspended persona activates it. -/
theorem sanction_lifted_by_owner :
    ¬ Always PersonaPool.step (fun p => SanctionsStand p.db) (PersonaPool.init [1])
      [.call (.createPersona ⟨1⟩), .go 0 (.ofTime 1),
        .call (.openGovernanceCase ⟨0, none, .high⟩), .go 1 (.ofTime 2), .go 1 (.ofTime 2),
        .call (.applyGovernanceAction ⟨0, .temporary_suspension, none, 9⟩),
        .go 2 (.ofTime 3), .go 2 (.ofTime 3), .go 2 (.ofTime 3),
        .call (.activatePersona ⟨1, 0⟩), .go 3 (.ofTime 4), .go 3 (.ofTime 4)] := by
  intro h
  have hlast := h.last
  revert hlast
  decide +kernel

end ChronoSynth.Persona

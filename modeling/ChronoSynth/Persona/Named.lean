import ChronoSynth.Persona.Hands

/-!
# The personas that are named

A call that writes about a persona has found it first, and personas are never removed: whatever
happens in between, the persona is there when the transaction is executed (`Tx.Named`). An approval has
moreover found its transfer. As a discipline (`named`) this is what the results on the columns of the
personas need.
-/

namespace ChronoSynth.Persona

variable {env : Env} {t : Tx} {db db' : TenantDb} {k u : Id}

def TenantDb.HasPersona (db : TenantDb) (k : Id) : Prop := ∃ pc ∈ db.personas, pc.id = k

theorem TenantDb.HasPersona.grows (h : db.HasPersona k) (hg : db.Grows db') : db'.HasPersona k := by
  obtain ⟨pc, hpc, rfl⟩ := h
  obtain ⟨pc', hpc', he⟩ := hg.personas.stay pc hpc
  exact ⟨pc', hpc', congrArg Prod.fst he⟩

theorem hasPersona_of_byId {pc : PersonaCore} (h : getPersonaById db k = some pc) :
    db.HasPersona k :=
  ⟨pc, Table.find_spec h⟩

theorem hasPersona_of_detail {detail : PersonaCoreDetail}
    (h : getPersonaDetail db k u = some detail) : db.HasPersona k := by
  simp only [getPersonaDetail, Option.bind_eq_bind, Option.bind_eq_some_iff] at h
  obtain ⟨pc, hpc, -⟩ := h
  obtain ⟨hmem, -, hid⟩ := Table.find_spec hpc
  exact ⟨pc, hmem, hid⟩

/-- The transfer that an approval has found. -/
def TenantDb.HasTransfer (db : TenantDb) (k transferId approverUserId : Id) : Prop :=
  ∃ x ∈ db.transfers, x.id = transferId ∧ x.personaId = k ∧ x.toOwnerUserId = approverUserId

theorem TenantDb.HasTransfer.grows {x : Id} (h : db.HasTransfer k x u) (hg : db.Grows db') :
    db'.HasTransfer k x u := by
  obtain ⟨y, hy, hid, hk, hu⟩ := h
  obtain ⟨y', hy', he⟩ := hg.transfers.stay y hy
  simp only [PersonaTransfer.fixed, Prod.mk.injEq] at he
  exact ⟨y', hy', he.1.trans hid, he.2.1.trans hk, he.2.2.2.trans hu⟩

/-- The persona a transaction writes about, and the transfer it approves, are there. -/
def Tx.Named (db : TenantDb) : Tx → Prop
  | .requestTransfer k _ _ | .addKnowledge k _ _ | .addGovernanceEvent k _ _ _
  | .applyGovernanceAction _ k _ _ _ _ _ => db.HasPersona k
  | .acceptSubmittedTask a => db.HasPersona a.personaId
  | .completeTask c => db.HasPersona c.personaId
  | .approveTransfer k x u => db.HasTransfer k x u
  | _ => True

/-- The rows are numbered and only grow, every transfer is of a persona that is there, and every
transaction names what is there. -/
def named : Discipline TenantDb Tx Env where
  inv db := db.Numbered ∧ ∀ x ∈ db.transfers, db.HasPersona x.personaId
  ext := TenantDb.Grows
  guar t db := t.Named db
  may _ _ _ := True
  ext_refl := .refl
  ext_trans := .trans

theorem named_kept : named.Kept exec := by
  rintro env t db ⟨hn, hx⟩ ht -
  have hg := exec_grows env t db
  refine ⟨⟨hg.numbered_of hn, ?_⟩, hg⟩
  suffices h : ∀ x ∈ (exec env t db).1.transfers, db.HasPersona x.personaId from
    fun x hmem => (h x hmem).grows hg
  have ex : _ → _ = _ := exec_agree env t db .transfers
  cases t with
  | requestTransfer k u v =>
    intro x hmem
    rcases List.mem_append.1 hmem with hmem | hmem
    · exact hx x hmem
    · obtain rfl := List.mem_singleton.1 hmem
      exact ht
  | approveTransfer k x u =>
    rw [exec_approveTransfer]
    split
    · exact Table.forall_mem_update (Table.forall_mem_update hx fun _ _ h => h) fun _ _ h => h
    · exact hx
  | _ => rwa [ex (by simp [Tx.writes])]

/-! ## The calls -/

/-- The calls whose transactions name something. -/
def Call.Names : Call → Prop
  | .requestTransfer _ | .approveTransfer _ | .addKnowledge _ | .addGovernanceEvent _
  | .markDeceased _ | .evaluateLifecycle _ | .applyGovernanceAction _ | .acceptSubmittedTask _
  | .completeTask _ => True
  | _ => False

theorem named_or_names {c : Call} (h : c.MayHand t) : (∀ db, t.Named db) ∨ c.Names := by
  cases t with
  | requestTransfer k u v =>
    obtain rfl : c = _ := h
    exact .inr trivial
  | approveTransfer k x u =>
    obtain rfl : c = _ := h
    exact .inr trivial
  | addKnowledge k g r =>
    obtain ⟨i, rfl⟩ := h
    exact .inr trivial
  | addGovernanceEvent k r g next =>
    obtain ⟨i, rfl⟩ | ⟨i, rfl⟩ | ⟨i, rfl⟩ := h <;> exact .inr trivial
  | applyGovernanceAction g k action dur actor next r =>
    obtain ⟨i, rfl⟩ := h
    exact .inr trivial
  | acceptSubmittedTask a =>
    obtain ⟨i, rfl⟩ := h
    exact .inr trivial
  | completeTask c =>
    obtain ⟨i, rfl⟩ := h
    exact .inr trivial
  | _ => exact .inl fun _ => trivial

section
variable {α : Type} {p : ServiceCall α} {log : List (Tx × Reply)}

/-- What the calls leave is of no interest here. -/
abbrev anything {α : Type} (_ : List (Tx × Reply)) (_ : Except PersonaError α) (_ : TenantDb) : Prop :=
  True

theorem named_of_uses (h : p.Uses fun t => ∀ db, t.Named db) :
    p.Meets named exec anything log db :=
  h.meets named_kept (fun _ s ht => ht s) fun _ _ _ _ _ _ => trivial

theorem answering_named {f : α → Answer} {p : ServiceCall (Option α)}
    (h : p.Meets named exec anything [] db) : (answering f p).Meets named exec anything [] db := by
  refine .bind (h.mono fun l r s _ _ => ?_)
  cases r with
  | ok a => exact fun _ _ _ => trivial
  | error e => trivial

theorem named_none : (pure none : ServiceCall (Option α)).Meets named exec anything log db :=
  fun _ _ _ => trivial

end

section
variable {log : List (Tx × Reply)}

theorem requestTransfer_named (i : RequestPersonaTransferInput) :
    (requestTransfer i).Meets named exec anything log db := by
  refine .query fun db₁ _ _ => ?_
  cases hdetail : getPersonaDetail db₁ i.personaId i.ownerUserId with
  | none => exact named_none
  | some detail =>
  have hk := hasPersona_of_detail hdetail
  dsimp only
  split
  next => exact named_none
  split
  next => exact named_none
  refine .query fun db₂ h₁₂ _ => ?_
  split
  next => exact named_none
  refine .queryAny fun db₃ h₂₃ _ o => ?_
  split
  next => exact named_of_uses trivial
  refine .transaction fun db₄ h₃₄ _ => ⟨hk.grows (h₁₂.trans (h₂₃.trans h₃₄)), fun o _ => ?_⟩
  split
  · exact named_of_uses trivial
  · exact named_of_uses .query
  · exact named_none

theorem approveTransfer_named (i : ApprovePersonaTransferInput) :
    (approveTransfer i).Meets named exec anything log db := by
  refine .query fun db₁ _ _ => ?_
  cases hx : getTransferByPersonaId db₁ i.personaId i.transferId with
  | none => exact named_none
  | some x =>
  obtain ⟨hmem, hk, hid⟩ := Table.find_spec hx
  dsimp only
  split
  next => exact named_none
  next hpending =>
  rw [not_or, not_not, not_not] at hpending
  have hx : db₁.HasTransfer i.personaId i.transferId i.approverUserId :=
    ⟨x, hmem, hid, hk, hpending.2⟩
  refine .transaction fun db₂ h₁₂ _ => ⟨hx.grows h₁₂, fun o _ => ?_⟩
  split
  · exact named_none
  · exact named_of_uses trivial
  · exact named_of_uses (.bind .query fun _ => .bind .query fun _ => trivial)

theorem addKnowledge_named (i : AddPersonaKnowledgeInput) :
    (addKnowledge i).Meets named exec anything log db := by
  refine .query fun db₁ _ _ => ?_
  cases hdetail : getPersonaDetail db₁ i.personaId i.ownerUserId with
  | none => exact named_none
  | some detail =>
  have hk := hasPersona_of_detail hdetail
  dsimp only
  split
  next => exact named_none
  refine .transaction fun db₂ h₁₂ _ => ⟨hk.grows h₁₂, fun o _ => ?_⟩
  split
  · exact named_of_uses trivial
  · exact named_of_uses .query

theorem addGovernanceEvent_named (i : AddGovernanceEventInput) :
    (addGovernanceEvent i).Meets named exec anything log db := by
  refine .query fun db₁ _ _ => ?_
  cases hdetail : getPersonaDetail db₁ i.personaId i.ownerUserId with
  | none => exact named_none
  | some detail =>
  have hk := hasPersona_of_detail hdetail
  refine .transaction fun db₂ h₁₂ _ => ⟨hk.grows h₁₂, fun o _ => ?_⟩
  split
  · exact named_of_uses trivial
  · exact named_of_uses .query

theorem evaluateLifecycle_named (i : EvaluatePersonaLifecycleInput) :
    (evaluateLifecycle i).Meets named exec anything log db := by
  refine .query fun db₁ _ _ => ?_
  split
  · refine .queryAny fun db₂ _ _ o₂ => ?_
    dsimp only
    split
    next => exact named_of_uses trivial
    refine .queryAny fun db₃ _ _ o₃ => ?_
    split
    · split
      · exact named_of_uses trivial
      · refine .bind ((addGovernanceEvent_named _).mono fun l r s _ _ => ?_)
        cases r with
        | ok deceased => cases deceased <;> exact fun _ _ _ => trivial
        | error e => trivial
    · split
      · exact named_of_uses trivial
      · have hhands : (deactivatePersona ⟨i.ownerUserId, i.personaId⟩).Uses _ :=
          deactivatePersona_hands (.inl ⟨⟨i.ownerUserId, i.personaId⟩, rfl⟩)
        refine named_of_uses (.bind (hhands.mono fun t h => ?_) fun dormant => ?_)
        · exact (named_or_names h).resolve_right id
        · cases dormant <;> trivial
  · exact named_none

theorem applyGovernanceAction_named (i : ApplyGovernanceActionInput) :
    (applyGovernanceAction i).Meets named exec anything log db := by
  refine .query fun db₁ _ _ => ?_
  cases getGovernanceCaseById db₁ i.caseId with
  | none => exact named_none
  | some g =>
  dsimp only
  split
  next => exact named_none
  refine .query fun db₂ _ _ => ?_
  cases hpersona : getPersonaById db₂ g.personaId with
  | none => exact named_none
  | some persona =>
  have hk := hasPersona_of_byId hpersona
  refine .transaction fun db₃ h₂₃ _ => ⟨hk.grows h₂₃, fun o _ => ?_⟩
  split
  · exact named_none
  · exact named_of_uses trivial
  · refine named_of_uses (.bind .query fun nextCase => ?_)
    split
    · refine .bind .query fun nextAction => ?_
      split <;> trivial
    · trivial
  · exact named_none

theorem acceptSubmittedTask_named (i : AcceptSubmittedTaskInput) :
    (acceptSubmittedTask i).Meets named exec anything log db := by
  refine .query fun db₁ _ _ => ?_
  cases getMarketplaceTask db₁ i.taskId with
  | none => exact named_none
  | some task =>
  dsimp only
  split
  next => exact named_none
  refine .queryAny fun db₂ _ _ o₂ => ?_
  cases getLatestTaskAssignmentByTask o₂ db₂ i.taskId with
  | none => exact named_none
  | some assignment =>
  dsimp only
  split
  next => exact named_none
  refine .queryAny fun db₃ _ _ o₃ => ?_
  cases getLatestTaskResultByAssignment o₃ db₃ assignment.id with
  | none => exact named_none
  | some result =>
  dsimp only
  split
  next => exact named_none
  refine .query fun db₄ _ _ => ?_
  cases hpersona : getPersonaById db₄ assignment.personaId with
  | none => exact named_none
  | some persona =>
  have hk := hasPersona_of_byId hpersona
  dsimp only
  split
  next => exact named_none
  split
  next => exact named_none
  refine .query fun db₅ h₄₅ _ => ?_
  cases getWalletByPersonaId db₅ assignment.personaId with
  | none => exact named_none
  | some wallet =>
  dsimp only
  split
  next => exact named_none
  refine .transaction fun db₆ h₅₆ _ => ⟨hk.grows (h₄₅.trans h₅₆), fun o _ => ?_⟩
  split
  · exact named_none
  · exact named_of_uses trivial
  · refine named_of_uses (.bind (.bind (.transaction fun _ => trivial) fun r => ?_) fun s => ?_)
    · split <;> trivial
    · cases s with
      | none => trivial
      | some s =>
        refine .bind .query fun task => ?_
        cases task with
        | none => trivial
        | some task =>
          refine .bind .query fun assignment => ?_
          cases assignment with
          | none => trivial
          | some assignment =>
            refine .bind .queryAny fun result => ?_
            cases result <;> trivial

theorem completeTask_named (i : CompleteMarketplaceTaskInput) :
    (completeTask i).Meets named exec anything log db := by
  refine .query fun db₁ _ _ => ?_
  cases getMarketplaceTask db₁ i.taskId with
  | none => exact named_none
  | some task =>
  dsimp only
  split
  next => exact named_none
  cases task.assigneePersonaId with
  | none => exact named_none
  | some personaId =>
  refine .query fun db₂ _ _ => ?_
  cases hdetail : getPersonaDetail db₂ personaId i.ownerUserId with
  | none => exact named_none
  | some detail =>
  have hk := hasPersona_of_detail hdetail
  dsimp only
  split
  next => exact named_none
  refine .query fun db₃ h₂₃ _ => ?_
  cases getWalletByPersonaId db₃ personaId with
  | none => exact named_none
  | some wallet =>
  dsimp only
  split
  next => exact named_none
  refine .queryAny fun db₄ h₃₄ _ o₄ => ?_
  cases getLatestTaskAssignmentByTask o₄ db₄ i.taskId with
  | none => exact named_none
  | some anchor =>
  refine .query fun db₅ h₄₅ _ => ?_
  cases getWalletSettlementByAssignmentId db₅ anchor.id with
  | some s => exact named_none
  | none =>
  refine .transaction fun db₆ h₅₆ _ =>
    ⟨hk.grows (h₂₃.trans (h₃₄.trans (h₄₅.trans h₅₆))), fun o _ => ?_⟩
  refine named_of_uses ?_
  split
  · trivial
  · trivial
  · refine .bind .query fun task => ?_
    split
    · refine .bind .query fun wallet => ?_
      split
      · refine .bind .query fun persona => ?_
        split <;> trivial
      · trivial
    · trivial

end

/-! ## All calls -/

/-- **Every call names what is there.** -/
theorem start_named (c : Call) (db : TenantDb) : (start c).Meets named exec anything [] db := by
  cases c with
  | requestTransfer i => exact answering_named (requestTransfer_named i)
  | approveTransfer i => exact answering_named (approveTransfer_named i)
  | addKnowledge i => exact answering_named (addKnowledge_named i)
  | addGovernanceEvent i => exact answering_named (addGovernanceEvent_named i)
  | markDeceased i => exact answering_named (addGovernanceEvent_named _)
  | evaluateLifecycle i => exact answering_named (evaluateLifecycle_named i)
  | applyGovernanceAction i => exact answering_named (applyGovernanceAction_named i)
  | acceptSubmittedTask i => exact answering_named (acceptSubmittedTask_named i)
  | completeTask i => exact answering_named (completeTask_named i)
  | _ => exact named_of_uses ((start_hands _).mono fun t h => (named_or_names h).resolve_right id)

section
variable {C : Env → Tx → TenantDb → Prop} {I : TenantDb → Prop} {users : List Id}
  {ms : List PersonaMove}

theorem PersonaPool.always_of_named (hI : I (TenantDb.fresh users))
    (keep : ∀ env t db, db.Numbered → (∀ x ∈ db.transfers, db.HasPersona x.personaId) →
      t.Named db → I db → I (exec env t db).1) :
    Always PersonaPool.step (fun p => I p.db) (PersonaPool.init users) ms :=
  (Pool.always_of_keep (D := named) (Q := fun _ => anything) (C := fun _ _ _ => True)
    ⟨.fresh users, by simp [TenantDb.fresh]⟩ hI named_kept (fun _ _ _ => trivial)
    (fun c db _ => start_named c db) (fun env t db h ht hI _ => keep env t db h.1 h.2 ht hI)
    fun _ _ _ _ _ _ => trivial).mono fun _ h => h.2

end

end ChronoSynth.Persona

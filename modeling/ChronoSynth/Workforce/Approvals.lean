import ChronoSynth.Workforce.Frames
import ChronoSynth.Workforce.Handovers
import ChronoSynth.Workforce.Roster

/-!
# The life of an approval

What holds of an approval at all times (`OrgApproval.Lawful`), and how it may change from one step to the
next (`OrgApproval.Next`): it is decided once, in time, and consumed once. Who may decide it is checked by
the calls on a row that they have read before. What they check of it never changes, so that it still holds
when the decision is written.
-/

namespace ChronoSynth.Workforce

open Service

variable {s s' : Store} {e : Env} {a b : OrgApproval} {now : Time}

namespace OrgApproval

/-- What never changes about an approval. -/
def terms (a : OrgApproval) : ApprovalSubjectType × Id × Id × RiskLevel × Bool × ApprovalMode × Time ×
    Option Time :=
  (a.subjectType, a.subjectId, a.requesterWorkerId, a.effectiveRisk, a.requiresHuman, a.approvalMode,
    a.createdAt, a.expiresAt)

/-- How an approval was decided, and when. -/
def decision (a : OrgApproval) : ApprovalStatus × Option Id × Option String × Option Time :=
  (a.status, a.approverWorkerId, a.approverUserId, a.decidedAt)

/-- A worker or a user has answered. -/
def Answered (a : OrgApproval) : Prop := a.status = .approved ∨ a.status = .rejected

instance : Decidable a.Answered := inferInstanceAs (Decidable (_ ∨ _))

/-- What holds of an approval at all times. -/
structure Lawful (a : OrgApproval) : Prop where
  /-- Where a human is required no worker may decide. -/
  mode : a.requiresHuman = true → a.approvalMode = .human_only
  /-- Exactly one approver is set if it was approved or rejected. -/
  answered : a.Answered → (a.approverWorkerId = none ↔ a.approverUserId ≠ none)
  /-- None is set if it was not. -/
  unanswered : ¬ a.Answered → a.approverWorkerId = none ∧ a.approverUserId = none
  /-- It is approved or rejected before it expires. -/
  in_time : a.Answered → ∃ t ∈ a.decidedAt, ∀ x ∈ a.expiresAt, t < x
  /-- Where only a human may decide no worker has. -/
  human : a.requiresHuman = true ∨ a.approvalMode = .human_only → a.approverWorkerId = none
  /-- No requester decides his own. -/
  no_self : a.approverWorkerId ≠ some a.requesterWorkerId
  consumed : a.consumedAt ≠ none → a.status = .approved
  pending : a.status = .pending ↔ a.decidedAt = none

/-- Nobody has decided it. -/
structure Fresh (a : OrgApproval) : Prop where
  status : a.status = .pending
  worker : a.approverWorkerId = none
  user : a.approverUserId = none
  decidedAt : a.decidedAt = none
  consumedAt : a.consumedAt = none

/-- What one step makes of an approval. -/
structure Next (now : Time) (a b : OrgApproval) : Prop where
  terms : b.terms = a.terms
  decision : b.decision = a.decision ∨ a.status = .pending ∧ b.status ≠ .pending ∧ b.decidedAt = some now ∧
    (b.Answered → ∀ x ∈ a.expiresAt, now < x)
  consumed : b.consumedAt = a.consumedAt ∨ a.status = .approved ∧ a.consumedAt = none ∧ b.consumedAt = some now

theorem Next.refl : a.Next now a := ⟨rfl, .inl rfl, .inl rfl⟩

/-- What any number of steps make of an approval. -/
structure Later (a b : OrgApproval) : Prop where
  terms : b.terms = a.terms
  /-- It is decided at most once. -/
  decision : a.status ≠ .pending → b.decision = a.decision
  /-- It is consumed at most once. -/
  consumed : a.consumedAt ≠ none → b.consumedAt = a.consumedAt

theorem Later.refl : a.Later a := ⟨rfl, fun _ => rfl, fun _ => rfl⟩

theorem Later.trans {c : OrgApproval} (h : a.Later b) (h' : b.Later c) : a.Later c where
  terms := h'.terms.trans h.terms
  decision hs := by
    have hb := h.decision hs
    have hstatus : b.status = a.status := congrArg (·.1) hb
    exact (h'.decision (hstatus ▸ hs)).trans hb
  consumed hs := by
    have hb := h.consumed hs
    exact (h'.consumed (hb ▸ hs)).trans hb

theorem Next.later (h : a.Next now b) : a.Later b where
  terms := h.terms
  decision hs := h.decision.resolve_right fun hd => hs hd.1
  consumed hs := h.consumed.resolve_right fun hc => hs hc.2.1

end OrgApproval

/-! ## The table -/

/-- What one step makes of the approvals: none is lost, and what is new is pending. -/
structure ApprovalsNext (now : Time) (s s' : Store) : Prop where
  kept : ∀ a ∈ s.approvals, ∃ b ∈ s'.approvals, b.id = a.id ∧ a.Next now b
  new : ∀ b ∈ s'.approvals, (∃ a ∈ s.approvals, a.id = b.id) ∨ b.Fresh

/-- What any number of steps make of the approvals. -/
def ApprovalsLater (s s' : Store) : Prop := ∀ a ∈ s.approvals, ∃ b ∈ s'.approvals, b.id = a.id ∧ a.Later b

/-- The invariant of the table. -/
structure ApprovalsLawful (s : Store) : Prop where
  drawn : ∀ a ∈ s.approvals, a.id ∈ s.drawn
  nodup : (s.approvals.map (·.id)).Nodup
  lawful : ∀ a ∈ s.approvals, a.Lawful

theorem ApprovalsNext.of_eq (h : s'.approvals = s.approvals) : ApprovalsNext now s s' :=
  ⟨fun a ha => ⟨a, h ▸ ha, rfl, .refl⟩, fun b hb => .inl ⟨b, h ▸ hb, rfl⟩⟩

theorem ApprovalsLawful.of_eq (h : ApprovalsLawful s) (hs' : s'.approvals = s.approvals)
    (hdrawn : s.drawn ⊆ s'.drawn) : ApprovalsLawful s' :=
  ⟨fun a ha => hdrawn (h.drawn a (hs' ▸ ha)), hs' ▸ h.nodup, hs' ▸ h.lawful⟩

theorem ApprovalsLawful.update (h : ApprovalsLawful s) {p : OrgApproval → Prop} [DecidablePred p]
    {g : OrgApproval → OrgApproval} (hs' : s'.approvals = Table.update p g s.approvals)
    (hdrawn : s.drawn ⊆ s'.drawn)
    (hg : ∀ a ∈ s.approvals, p a → (g a).id = a.id ∧ (g a).Lawful ∧ a.Next now (g a)) :
    ApprovalsLawful s' ∧ ApprovalsNext now s s' := by
  have hrow : ∀ a ∈ s.approvals, ∃ b ∈ s'.approvals, b = (if p a then g a else a) ∧ b.id = a.id ∧ b.Lawful ∧
      a.Next now b := by
    intro a ha
    refine ⟨_, hs' ▸ Table.mem_update.2 ⟨a, ha, rfl⟩, rfl, ?_⟩
    split
    next hp => exact hg a ha hp
    next => exact ⟨rfl, h.lawful a ha, .refl⟩
  have hback : ∀ b ∈ s'.approvals, ∃ a ∈ s.approvals, b.id = a.id ∧ b.Lawful := by
    intro b hb
    obtain ⟨a, ha, rfl⟩ := Table.mem_update.1 (hs' ▸ hb)
    obtain ⟨b, -, rfl, hid, hl, -⟩ := hrow a ha
    exact ⟨a, ha, hid, hl⟩
  have hids : s'.approvals.map (·.id) = s.approvals.map (·.id) := by
    rw [hs', Table.update, List.map_map]
    refine List.map_congr_left fun a ha => ?_
    obtain ⟨b, -, rfl, hid, -⟩ := hrow a ha
    exact hid
  refine ⟨⟨fun b hb => ?_, hids ▸ h.nodup, fun b hb => ?_⟩, fun a ha => ?_, fun b hb => ?_⟩
  · obtain ⟨a, ha, hid, -⟩ := hback b hb
    exact hdrawn (hid ▸ h.drawn a ha)
  · obtain ⟨a, -, -, hl⟩ := hback b hb
    exact hl
  · obtain ⟨b, hb, -, hid, -, hn⟩ := hrow a ha
    exact ⟨b, hb, hid, hn⟩
  · obtain ⟨a, ha, hid, -⟩ := hback b hb
    exact .inl ⟨a, ha, hid.symm⟩

/-! ## Commands -/

/-- What a call guarantees of a command on approvals when it hands it over. -/
def ApprovalGuard : Cmd → Store → Prop
  | .decideApprovalIfPending _ approvalId status worker user, s =>
    (status = .approved ∨ status = .rejected) ∧ (worker = none ↔ user ≠ none) ∧
      ∀ i ∈ worker, ∀ a ∈ s.approvals, a.id = approvalId →
        a.approvalMode = .org_or_human ∧ i ≠ a.requesterWorkerId
  | .insertApproval _ assessment mode, _ => assessment.requiresHuman = true → mode = .human_only
  | _, _ => True

/-- **Step lemma.** A guarded command keeps the approvals lawful and moves them on by at most one step. -/
theorem ApprovalsLawful.exec (h : ApprovalsLawful s) {cmd : Cmd} (hg : ApprovalGuard cmd s) :
    ApprovalsLawful (Workforce.exec e cmd s).1 ∧ ApprovalsNext e.now s (Workforce.exec e cmd s).1 := by
  have hframe : SameOff cmd.tables s (Workforce.exec e cmd s).1 := exec_sameOff cmd s
  have hother : Tbl.approvals ∉ cmd.tables → ApprovalsLawful (Workforce.exec e cmd s).1 ∧
      ApprovalsNext e.now s (Workforce.exec e cmd s).1 := fun ht =>
    ⟨h.of_eq (hframe.same .approvals ht) hframe.drawn, .of_eq (hframe.same .approvals ht)⟩
  cases cmd with
  | absorb input =>
    have habsorb : Ensures (Cmd.service e (.absorb input)) s fun r s' =>
        ApprovalsLawful s' ∧ ApprovalsNext e.now s s' := by
      refine ensures_map.2 (absorb_moves.mono fun r s' hr => ?_)
      cases r with
      | ok _ =>
        refine h.update (hr.same .approvals (by simp [chartTables])) hr.drawn fun a ha _ =>
          ⟨rfl, ?_, rfl, .inl rfl, .inl rfl⟩
        exact { h.lawful a ha with }
      | error _ =>
        obtain rfl := hr
        exact ⟨h, .of_eq rfl⟩
    exact ensures_iff_runService.1 habsorb
  | insertApproval input assessment mode =>
    have hfresh : s.fresh e ∉ s.drawn := Store.fresh_not_mem
    set row : OrgApproval := {
      id := s.fresh e, orgId := input.orgId, subjectType := input.subjectType,
      subjectId := input.subjectId, requesterWorkerId := input.requesterWorkerId,
      effectiveRisk := assessment.effectiveRisk, requiresHuman := assessment.requiresHuman,
      approvalMode := mode, status := .pending, approverWorkerId := none, approverUserId := none,
      reason := assessment.rationale, createdAt := e.now, expiresAt := input.ttlMs.map (e.now + ·),
      decidedAt := none, consumedAt := none, argumentsHash := none }
    have hrows : (Workforce.exec e (.insertApproval input assessment mode) s).1.approvals =
        s.approvals ++ [row] := rfl
    have hdrawn : (Workforce.exec e (.insertApproval input assessment mode) s).1.drawn =
        s.fresh e :: s.drawn := rfl
    refine ⟨⟨?_, ?_, ?_⟩, ?_, ?_⟩
    · rw [hrows, hdrawn]
      intro a ha
      rcases List.mem_append.1 ha with ha | ha
      · exact List.mem_cons_of_mem _ (h.drawn a ha)
      · obtain rfl := List.mem_singleton.1 ha
        exact List.mem_cons_self
    · rw [hrows, List.map_append, List.map_singleton]
      refine List.Nodup.append h.nodup (List.nodup_singleton _) fun i hi hi' => ?_
      obtain ⟨a, ha, rfl⟩ := List.mem_map.1 hi
      have hid : a.id = s.fresh e := List.mem_singleton.1 hi'
      exact hfresh (hid ▸ h.drawn a ha)
    · rw [hrows]
      intro a ha
      rcases List.mem_append.1 ha with ha | ha
      · exact h.lawful a ha
      · obtain rfl := List.mem_singleton.1 ha
        refine ⟨hg, ?_, fun _ => ⟨rfl, rfl⟩, ?_, fun _ => rfl, ?_, ?_, ?_⟩ <;>
          simp [row, OrgApproval.Answered]
    · exact fun a ha => ⟨a, hrows ▸ List.mem_append_left _ ha, rfl, .refl⟩
    · rw [hrows]
      intro a ha
      rcases List.mem_append.1 ha with ha | ha
      · exact .inl ⟨a, ha, rfl⟩
      · obtain rfl := List.mem_singleton.1 ha
        exact .inr ⟨rfl, rfl, rfl, rfl, rfl⟩
  | expireStaleApprovals orgId =>
    refine @ApprovalsLawful.update _ (s.expireStaleApprovals orgId e.now).2 _ h _ _ _ rfl (List.Subset.refl _)
      fun a ha hstale => ⟨rfl, ?_, rfl, .inr ⟨hstale.2.1, by simp, rfl, by simp [OrgApproval.Answered]⟩, .inl rfl⟩
    have hp := hstale.2.1
    have hl := h.lawful a ha
    have hnot : ¬ a.Answered := by simp [OrgApproval.Answered, hp]
    have hc : a.consumedAt = none := by
      by_contra hc
      have hs := hl.consumed hc
      rw [hp] at hs
      cases hs
    obtain ⟨hw, hu⟩ := hl.unanswered hnot
    refine { hl with
      answered := ?_, unanswered := fun _ => ⟨hw, hu⟩, in_time := ?_, consumed := fun hne => absurd hc hne,
      pending := by simp } <;> simp [OrgApproval.Answered]
  | decideApprovalIfPending orgId approvalId status worker user =>
    obtain ⟨hstatus, hone, hworker⟩ := hg
    refine @ApprovalsLawful.update _ (s.decideApprovalIfPending orgId approvalId e.now status worker user).2 _ h _ _ _ rfl
      (List.Subset.refl _) fun a ha hopen =>
        ⟨rfl, ?_, rfl, .inr ⟨hopen.2.2.1, ?_, rfl, fun _ => hopen.2.2.2⟩, .inl rfl⟩
    · obtain ⟨-, hid, hp, ht⟩ := hopen
      have hl := h.lawful a ha
      have hc : a.consumedAt = none := by
        by_contra hc
        have hs := hl.consumed hc
        rw [hp] at hs
        cases hs
      refine {
        mode := hl.mode, answered := fun _ => hone, unanswered := fun hn => absurd hstatus hn,
        in_time := fun _ => ⟨e.now, rfl, ht⟩, human := fun hh => ?_, no_self := fun hw => ?_,
        consumed := fun hne => absurd hc hne, pending := ?_ }
      · by_contra hw
        obtain ⟨i, rfl⟩ := Option.ne_none_iff_exists'.1 hw
        have hmode := (hworker i rfl a ha hid).1
        rcases hh with hh | hh
        · rw [hl.mode hh] at hmode
          cases hmode
        · rw [hh] at hmode
          cases hmode
      · exact (hworker a.requesterWorkerId hw a ha hid).2 rfl
      · rcases hstatus with rfl | rfl <;> simp
    · rcases hstatus with rfl | rfl <;> simp
  | consumeApprovalIfUnused orgId approvalId =>
    refine @ApprovalsLawful.update _ (s.consumeApprovalIfUnused orgId approvalId e.now).2 _ h _ _ _ rfl (List.Subset.refl _)
      fun a ha hunused => ⟨rfl, { h.lawful a ha with consumed := fun _ => hunused.2.2.1 }, rfl, .inl rfl,
        .inr ⟨hunused.2.2.1, hunused.2.2.2, rfl⟩⟩
  | setApprovalArgumentsHash orgId approvalId hash =>
    exact @ApprovalsLawful.update _ (s.setApprovalArgumentsHash orgId approvalId hash).2 _ h _ _ _ rfl (List.Subset.refl _)
      fun a ha _ => ⟨rfl, { h.lawful a ha with }, rfl, .inl rfl, .inl rfl⟩
  | _ => exact hother (by simp [Cmd.tables, settledTables])

/-! ## Calls -/

/-- What the callers agree on about approvals. -/
def approvalDiscipline : Discipline Store Cmd Env where
  inv := ApprovalsLawful
  ext := ApprovalsLater
  guar := ApprovalGuard
  may _ _ _ := True
  ext_refl _ := fun a ha => ⟨a, ha, rfl, .refl⟩
  ext_trans h h' := fun a ha =>
    have ⟨b, hb, hid, hl⟩ := h a ha
    have ⟨c, hc, hid', hl'⟩ := h' b hb
    ⟨c, hc, hid'.trans hid, hl.trans hl'⟩

theorem ApprovalsNext.later (h : ApprovalsNext now s s') : ApprovalsLater s s' := fun a ha =>
  have ⟨b, hb, hid, hn⟩ := h.kept a ha
  ⟨b, hb, hid, hn.later⟩

theorem approvalDiscipline_kept : approvalDiscipline.Kept Workforce.exec := fun _ _ _ h hg _ =>
  ⟨(h.exec hg).1, (h.exec hg).2.later⟩

open Prog

section calls

variable {l : List (Cmd × Reply)} {α : Type} {orgId : OrgId} {approvalId workerId : Id}

abbrev Agrees (p : WorkforceCall α) (l : List (Cmd × Reply)) (s : Store) : Prop :=
  p.Meets approvalDiscipline Workforce.exec (fun _ _ _ => True) l s

theorem agrees_of_uses {S : Cmd → Prop} {p : WorkforceCall α} (h : p.Uses S)
    (hS : ∀ cmd s, S cmd → ApprovalGuard cmd s) : Agrees p l s :=
  h.meets approvalDiscipline_kept hS fun _ _ _ _ _ _ => trivial

theorem agrees_checking {c : Prop} [Decidable c] {err : WorkforceError} {k : Unit → WorkforceCall α}
    (h : c → Agrees (k ()) l s) : Agrees (checking c err >>= k) l s := by
  unfold checking
  split
  next hc => exact h hc
  next => exact fun _ _ _ => trivial

/-- The terms of a row that has been read are those of every row with its number. -/
def Remembers (a : OrgApproval) (s : Store) : Prop := ∃ b ∈ s.approvals, b.id = a.id ∧ b.terms = a.terms

theorem Remembers.later (h : Remembers a s) (hs : ApprovalsLater s s') : Remembers a s' := by
  obtain ⟨b, hb, hid, ht⟩ := h
  obtain ⟨c, hc, hid', hl⟩ := hs b hb
  exact ⟨c, hc, hid'.trans hid, hl.terms.trans ht⟩

theorem Remembers.eq (h : Remembers a s) (hs : ApprovalsLawful s) (hb : b ∈ s.approvals) (hid : b.id = a.id) :
    b.terms = a.terms := by
  obtain ⟨c, hc, hid', ht⟩ := h
  rw [List.inj_on_of_nodup_map hs.nodup hb hc (hid.trans hid'.symm)]
  exact ht

theorem agrees_requirePending {k : OrgApproval → WorkforceCall α}
    (h : ∀ a s', a.id = approvalId → Remembers a s' → Agrees (k a) l s') :
    Agrees (requirePending orgId approvalId >>= k) l s := by
  intro s' _ _ _
  cases ha : s'.getApproval orgId approvalId with
  | none =>
    simp only [ha]
    exact fun _ _ _ => trivial
  | some a =>
    obtain ⟨hmem, -, hid⟩ := Table.find_spec ha
    simp only [ha]
    change Agrees ((checking (a.status = .pending) _ >>= fun _ => Prog.ret a) >>= k) l s'
    unfold checking
    split
    · exact h a s' hid ⟨a, hmem, rfl, rfl⟩
    · exact fun _ _ _ => trivial

theorem agrees_dispose {status : ApprovalStatus} (hstatus : status = .approved ∨ status = .rejected)
    (hid : a.id = approvalId) (ha : Remembers a s) :
    Agrees (do
      assertWorkerMayDispose orgId a workerId
      decide orgId approvalId status (some workerId) none) l s := by
  simp only [assertWorkerMayDispose, Prog.bind_assoc]
  refine agrees_checking fun hmode => agrees_checking fun hself => .query fun s₁ h₁ _ =>
    agrees_checking fun _ => .query fun s₂ h₂ _ => agrees_checking fun _ => ?_
  simp only [decide, hits, send, Prog.bind_assoc]
  refine .transaction fun s₃ h₃ hinv => ⟨⟨hstatus, by simp, fun i hi b hb hbid => ?_⟩, fun o _ => ?_⟩
  · obtain rfl : workerId = i := Option.some.inj hi
    have hterms := (ha.later (approvalDiscipline.ext_trans h₁ (approvalDiscipline.ext_trans h₂ h₃))).eq hinv
      hb (hbid.trans hid.symm)
    have hm : b.approvalMode = a.approvalMode := congrArg (·.2.2.2.2.2.1) hterms
    have hr : b.requesterWorkerId = a.requesterWorkerId := congrArg (·.2.2.1) hterms
    exact ⟨hm.trans hmode, hr ▸ hself⟩
  · refine agrees_of_uses (S := fun _ => False) ?_ fun _ _ h => h.elim
    split
    · exact uses_checking
    · trivial

theorem agrees_approveByWorker : Agrees (approveByWorker orgId approvalId workerId) l s :=
  agrees_requirePending fun _ _ hid ha => agrees_checking fun _ => agrees_dispose (.inl rfl) hid ha

theorem agrees_rejectApproval {worker : Option Id} {user : Option String} :
    Agrees (rejectApproval orgId approvalId worker user) l s := by
  refine agrees_requirePending fun a s' hid ha => ?_
  generalize trim (user.getD "") = human
  cases worker with
  | none =>
    refine agrees_checking fun _ => agrees_of_uses (decide_uses (S := fun cmd => cmd =
      .decideApprovalIfPending orgId approvalId .rejected none (some human)) rfl) ?_
    rintro - s rfl
    exact ⟨.inr rfl, by simp, by simp⟩
  | some worker => exact agrees_checking fun _ => agrees_dispose (.inr rfl) hid ha

end calls

theorem Call.approvalGuard {c : Call} {cmd : Cmd} (hc : c.May cmd)
    (h : ∀ orgId approvalId workerId, c ≠ .approveByWorker orgId approvalId workerId)
    (h' : ∀ orgId approvalId workerId user, c ≠ .rejectApproval orgId approvalId workerId user) :
    ApprovalGuard cmd s := by
  cases c with
  | approveByWorker => exact absurd rfl (h _ _ _)
  | rejectApproval => exact absurd rfl (h' _ _ _ _)
  | method cmd' =>
    obtain ⟨cmd', hwhole⟩ := cmd'
    obtain rfl : cmd = cmd' := hc
    cases cmd <;> trivial
  | requestApproval input =>
    obtain ⟨mode, rfl, hm⟩ := hc
    exact hm
  | approveByHuman =>
    obtain ⟨worker, user, rfl, rfl, hone⟩ := hc
    exact ⟨.inl rfl, hone, by simp⟩
  | execute input => cases cmd <;> trivial
  | onLearned | reconcileOnce | reconcileTenant => cases cmd <;> trivial
  | startOrgTask =>
    rcases hc with ⟨_, _, _, rfl, -⟩ | ⟨_, _, rfl | rfl | rfl⟩ <;> trivial
  | runGoal =>
    obtain ⟨_, _, _, rfl, -⟩ := hc
    trivial
  | settleOrgTaskPayment =>
    obtain ⟨rfl, -⟩ := hc
    trivial
  | acceptOrgTask =>
    obtain ⟨_, _, rfl⟩ := hc
    trivial
  | confirmAssignToOrg | submitOrgTask =>
    obtain ⟨_, rfl⟩ := hc
    trivial
  | isApprovalCleared | applyAsOrg =>
    obtain rfl := hc
    trivial

/-- **Every call** keeps the agreement on approvals. -/
theorem Call.agrees (ports : Ports) (c : Call) : Agrees (c.start ports) [] s := by
  have hother (h : ∀ orgId approvalId workerId, c ≠ .approveByWorker orgId approvalId workerId)
      (h' : ∀ orgId approvalId workerId user, c ≠ .rejectApproval orgId approvalId workerId user) :
      Agrees (c.start ports) [] s :=
    agrees_of_uses c.start_uses fun _ _ hc => c.approvalGuard hc h h'
  have hmap : ∀ {p : WorkforceCall Unit}, Agrees p [] s → Agrees (p >>= fun _ => pure Outcome.done) [] s :=
    fun h => .bind (h.mono fun l r s _ _ => by cases r <;> first | trivial | exact fun _ _ _ => trivial)
  cases c with
  | approveByWorker => exact hmap agrees_approveByWorker
  | rejectApproval => exact hmap agrees_rejectApproval
  | _ => exact hother (by simp) (by simp)

/-- **The life of an approval**, over any calls interleaved: approvals are lawful in every state, change in
every step as they may, and what has been decided or consumed stays so between any two states. -/
theorem approval_lifecycle (ports : Ports) (ms : List WorkforceMove) :
    Always (WorkforcePool.step ports) (fun p => (p.db.approvals.map (·.id)).Nodup ∧
      ∀ a ∈ p.db.approvals, a.Lawful) .init ms ∧
    Along (WorkforcePool.step ports)
      (Pool.AtCommit fun e cmd s => ApprovalsNext e.now s (Workforce.exec e cmd s).1) .init ms ∧
    Between (WorkforcePool.step ports) (fun _ _ => True) (fun p p' => ApprovalsLater p.db p'.db) .init ms := by
  have hempty : ApprovalsLawful .empty :=
    ⟨by simp [Store.empty], by simp [Store.empty], by simp [Store.empty]⟩
  have hsound : Always (WorkforcePool.step ports)
      (Pool.Sound approvalDiscipline Workforce.exec fun _ _ _ _ => True) .init ms :=
    (Pool.Sound.idle hempty).always approvalDiscipline_kept (fun c _ _ => c.agrees ports)
      fun _ _ _ _ _ _ => trivial
  have hnext : Along (WorkforcePool.step ports)
      (Pool.AtCommit fun e cmd s => ApprovalsNext e.now s (Workforce.exec e cmd s).1) .init ms := by
    intro pre m hpre e cmd hm
    have hp := hsound pre ((List.prefix_append _ _).trans hpre)
    exact (hp.inv.exec (hp.guar hm)).2
  refine ⟨hsound.mono fun p hp => ⟨hp.inv.nodup, hp.inv.lawful⟩, hnext, ?_⟩
  refine (between_iff_along (R := fun p p' : WorkforcePool => ApprovalsLater p.db p'.db)
    (fun p => approvalDiscipline.ext_refl p.db) fun _ _ _ => approvalDiscipline.ext_trans).2
    (hnext.mono fun p m h _ => ?_)
  obtain ⟨-, hdb⟩ | ⟨e, cmd, hm, hdb⟩ := Pool.step_db (Call.start ports) Workforce.exec p m
  · exact hdb ▸ approvalDiscipline.ext_refl _
  · exact hdb ▸ (h e cmd hm).later

end ChronoSynth.Workforce

import ChronoSynth.Audit.TamperEvidence
import ChronoSynth.Audit.AuditChainAnchorService

/-!
# Verifying the anchors

`verifyAuditAnchors` holds every anchor against the audit log: the tenant's chain up to the anchor
must verify, the anchor's hash must be that of the row it ends at, and the key service must verify
the signature. What it finds wrong it reports as issues; it accepts when none of them is an error.

`verifyAuditAnchors_ok_iff` says what acceptance means, anchor by anchor, and
`verifyAuditChain_upTo_iff` what the chain part of it means for a tenant none of whose rows up to
the anchor lacks a hash.
-/

namespace ChronoSynth

/-- How bad an issue is. -/
inductive AuditAnchorIssueSeverity
  | error | info
  deriving DecidableEq, Repr

/-- What is wrong with an anchor. -/
inductive AuditAnchorIssueReason
  | chain_broken_before_anchor | missing_anchor_tail | tail_hash_mismatch | signature_invalid
  | signature_verify_failed | signature_not_verified | missing_anchor_for_tenant
  deriving DecidableEq, Repr

structure AuditAnchorIssue where
  tenantId : String
  anchorId : String
  reason : AuditAnchorIssueReason
  severity : AuditAnchorIssueSeverity
  deriving DecidableEq, Repr

/-- What a verification is given beside the tables. -/
structure VerifyAuditAnchorsDeps where
  /-- The key service's verification, if there is one. -/
  verify : Option KmsVerify := none
  requireAnchorsForTenants : List String := []
  requireSignatures : Bool := false

/-- What a verification returns. -/
structure VerifyAuditAnchorsResult where
  ok : Bool
  issues : List AuditAnchorIssue

/-- The hash of the row an anchor ends at. -/
def anchorTail (log : AuditLog) (a : AuditChainAnchorRow) : Option String :=
  (log.rows.find? fun r => r.tenant_id = a.tenant_id ∧ r.chain_seq = some a.to_seq).bind
    AuditLogRow.record_hash

def anchorIssue (sha256 : String → String) (d : Dialect) (deps : VerifyAuditAnchorsDeps)
    (log : AuditLog) (a : AuditChainAnchorRow) : Option AuditAnchorIssue :=
  let issue (reason : AuditAnchorIssueReason) (severity : AuditAnchorIssueSeverity) :=
    some ⟨normalizeAnchorTenantId a.tenant_id, a.id, reason, severity⟩
  if (verifyAuditChain sha256 d log a.tenant_id { toSeq := some a.to_seq }).ok then
    match anchorTail log a with
    | none => issue .missing_anchor_tail .error
    | some tail =>
      -- an empty text counts as missing
      if tail = "" then issue .missing_anchor_tail .error
      else if tail = a.tail_hash then
        match deps.verify with
        | none => issue .signature_not_verified (if deps.requireSignatures then .error else .info)
        | some verify =>
          let payload := buildAuditAnchorPayload (normalizeAnchorTenantId a.tenant_id) a.from_seq
            a.to_seq a.tail_hash
          match verify payload a.signature a.key_id a.alg with
          | .verified => none
          | .refused => issue .signature_invalid .error
          | .threw => issue .signature_verify_failed .error
      else issue .tail_hash_mismatch .error
  else issue .chain_broken_before_anchor .error

/-- The tenants that should have an anchor and do not. -/
def missingAnchors (deps : VerifyAuditAnchorsDeps) (anchors : List AuditChainAnchorRow) :
    List AuditAnchorIssue :=
  (deps.requireAnchorsForTenants.filter fun t => t ∉ anchors.map AuditChainAnchorRow.tenant_id).map
    fun t => ⟨normalizeAnchorTenantId t, "", .missing_anchor_for_tenant, .error⟩

/-- The order `ORDER BY tenant_id, to_seq ASC` puts anchors in. -/
def AuditChainAnchorRow.tenantSeqLE (a b : AuditChainAnchorRow) : Prop :=
  a.tenant_id < b.tenant_id ∨ a.tenant_id = b.tenant_id ∧ a.to_seq ≤ b.to_seq

instance : DecidableRel AuditChainAnchorRow.tenantSeqLE :=
  fun _ _ => inferInstanceAs (Decidable (_ ∨ _ ∧ _))

def verifyAuditAnchors (sha256 : String → String) (d : Dialect) (deps : VerifyAuditAnchorsDeps)
    (log : AuditLog) (anchors : AnchorTable) : VerifyAuditAnchorsResult :=
  let sorted := anchors.rows.insertionSort AuditChainAnchorRow.tenantSeqLE
  let issues := missingAnchors deps sorted ++ sorted.filterMap (anchorIssue sha256 d deps log)
  { ok := ¬ issues.any fun issue => issue.severity = .error, issues := issues }

/-! ## What acceptance means -/

section

variable {sha256 : String → String} {d : Dialect} {deps : VerifyAuditAnchorsDeps} {log : AuditLog}
  {anchors : AnchorTable} {a : AuditChainAnchorRow}

theorem buildAuditAnchorPayload_normalize (t : String) (m n : ℤ) (h : String) :
    buildAuditAnchorPayload (normalizeAnchorTenantId t) m n h = buildAuditAnchorPayload t m n h := by
  have hidem : normalizeAnchorTenantId (normalizeAnchorTenantId t) = normalizeAnchorTenantId t := by
    by_cases ht : t = ""
    · subst ht
      rfl
    · have hnorm : normalizeAnchorTenantId t = t := if_neg ht
      rw [hnorm, hnorm]
  rw [buildAuditAnchorPayload, buildAuditAnchorPayload, hidem]

/-- **An anchor passes** when its chain verifies, it ends in the row's hash, and its signature
verifies or need not be. -/
@[mk_iff]
structure AnchorPasses (sha256 : String → String) (d : Dialect) (deps : VerifyAuditAnchorsDeps)
    (log : AuditLog) (a : AuditChainAnchorRow) : Prop where
  chain : (verifyAuditChain sha256 d log a.tenant_id { toSeq := some a.to_seq }).ok = true
  tail : anchorTail log a = some a.tail_hash
  nonempty : a.tail_hash ≠ ""
  /-- The signature verifies, or none is asked for. -/
  signed : match deps.verify with
    | none => deps.requireSignatures = false
    | some verify => verify (buildAuditAnchorPayload a.tenant_id a.from_seq a.to_seq a.tail_hash)
        a.signature a.key_id a.alg = .verified

theorem anchorIssue_error_iff :
    (∀ issue, anchorIssue sha256 d deps log a = some issue → issue.severity ≠ .error) ↔
      AnchorPasses sha256 d deps log a := by
  rw [anchorIssue, buildAuditAnchorPayload_normalize, anchorPasses_iff]
  by_cases hchain : (verifyAuditChain sha256 d log a.tenant_id { toSeq := some a.to_seq }).ok = true
  · rcases htail : anchorTail log a with _ | tail
    · simp [hchain]
    · by_cases hempty : tail = ""
      · -- a hash cannot be both empty and the anchor's
        subst hempty
        simp only [hchain, if_true, Option.some.injEq, ne_eq]
        constructor
        · intro h
          exact absurd rfl (h _ rfl)
        · rintro ⟨-, heq, hne, -⟩
          exact absurd heq.symm hne
      · by_cases hsame : tail = a.tail_hash
        · subst hsame
          rcases hverify : deps.verify with _ | verify
          · simp [hchain, hempty]
          · simp only [hchain, hempty, if_true, if_false, true_and, not_false_eq_true, ne_eq]
            split <;> simp_all
        · simp [hchain, hempty, hsame]
  · simp [hchain]

/-- **Acceptance, anchor by anchor.** -/
theorem verifyAuditAnchors_ok_iff :
    (verifyAuditAnchors sha256 d deps log anchors).ok = true ↔
      (∀ t ∈ deps.requireAnchorsForTenants, ∃ a ∈ anchors.rows, a.tenant_id = t) ∧
        ∀ a ∈ anchors.rows, AnchorPasses sha256 d deps log a := by
  have hmissing : (∀ issue ∈ missingAnchors deps
        (anchors.rows.insertionSort AuditChainAnchorRow.tenantSeqLE), issue.severity ≠ .error) ↔
      ∀ t ∈ deps.requireAnchorsForTenants, ∃ a ∈ anchors.rows, a.tenant_id = t := by
    simp only [missingAnchors, List.mem_map, List.mem_filter, decide_eq_true_eq,
      List.mem_insertionSort]
    constructor
    · intro h t ht
      by_contra hno
      exact h _ ⟨t, ⟨ht, hno⟩, rfl⟩ rfl
    · rintro h issue ⟨t, ⟨ht, hno⟩, rfl⟩
      exact absurd (h t ht) hno
  have hissues : (∀ issue ∈ (anchors.rows.insertionSort AuditChainAnchorRow.tenantSeqLE).filterMap
        (anchorIssue sha256 d deps log), issue.severity ≠ .error) ↔
      ∀ a ∈ anchors.rows, AnchorPasses sha256 d deps log a := by
    simp only [List.mem_filterMap, List.mem_insertionSort, ← anchorIssue_error_iff]
    exact ⟨fun h a ha issue hi => h issue ⟨a, ha, hi⟩, fun h issue ⟨a, ha, hi⟩ => h a ha issue hi⟩
  have hok : (verifyAuditAnchors sha256 d deps log anchors).ok = true ↔
      ∀ issue ∈ missingAnchors deps (anchors.rows.insertionSort AuditChainAnchorRow.tenantSeqLE) ++
        (anchors.rows.insertionSort AuditChainAnchorRow.tenantSeqLE).filterMap
          (anchorIssue sha256 d deps log), issue.severity ≠ .error := by
    simp only [verifyAuditAnchors, decide_eq_true_eq, List.any_eq_true, not_exists, not_and, ne_eq]
  rw [hok, ← hmissing, ← hissues, List.forall_mem_append]

end

/-! ## The chain up to a number -/

section

variable {sha256 : String → String} {d : Dialect} {log : AuditLog} {tenantId : String} {toSeq : ℤ}
  {r : AuditLogRow}

/-- The rows of a tenant's chain up to a number that have both hashes, as the walk sees them. -/
def AuditLog.completeUpTo (d : Dialect) (log : AuditLog) (tenantId : String) (toSeq : ℤ) :
    List VerifiableRow :=
  (auditQueryChainRange log ⟨tenantId, none, some toSeq, none⟩).filterMap (AuditLogRow.verifiable d)

theorem AuditLog.mem_range_upTo :
    r ∈ auditQueryChainRange log ⟨tenantId, none, some toSeq, none⟩ ↔
      r ∈ log.rows ∧ r.tenant_id = tenantId ∧ r.chain_seq.isSome ∧ r.chain_seq.getD 0 ≤ toSeq := by
  rw [AuditLog.mem_auditQueryChainRange rfl]
  simp [AuditChainRangeParams.Selects]

theorem AuditLog.mem_upTo :
    r ∈ log.upTo tenantId toSeq ↔
      r ∈ log.rows ∧ r.tenant_id = tenantId ∧ r.chain_seq.isSome ∧ 1 ≤ r.chain_seq.getD 0 ∧
        r.chain_seq.getD 0 ≤ toSeq := by
  rw [AuditLog.upTo, List.mem_filter, AuditLog.mem_range_upTo, decide_eq_true_eq]
  tauto

/-- The first row the walk sees has the smallest number among those it sees. -/
theorem AuditLog.head_completeUpTo_le {v w : VerifiableRow} {vs : List VerifiableRow}
    (hhead : log.completeUpTo d tenantId toSeq = v :: vs)
    (hw : w ∈ log.completeUpTo d tenantId toSeq) : v.chainSeq ≤ w.chainSeq := by
  have hpair : (log.completeUpTo d tenantId toSeq).Pairwise fun a b => a.chainSeq ≤ b.chainSeq := by
    refine List.pairwise_filterMap.2 ((List.pairwise_insertionSort _ _).imp ?_)
    intro a b hab va hva vb hvb
    obtain ⟨ha, -⟩ := AuditLogRow.verifiable_eq_some.1 hva
    obtain ⟨hb, -⟩ := AuditLogRow.verifiable_eq_some.1 hvb
    simpa [AuditLogRow.seqLE, ha, hb] using hab
  rw [hhead] at hpair hw
  rcases List.mem_cons.1 hw with rfl | hvs
  · exact le_rfl
  · exact (List.pairwise_cons.1 hpair).1 w hvs

/-- A row up to the number with both hashes is seen by the walk. -/
theorem AuditLog.exists_verifiable_upTo (hr : r ∈ log.upTo tenantId toSeq) (hn : ¬ r.HalfNull) :
    ∃ v ∈ log.completeUpTo d tenantId toSeq, r.verifiable d = some v := by
  obtain ⟨hrows, ht, hsome, -, hle⟩ := AuditLog.mem_upTo.1 hr
  obtain ⟨v, hv⟩ := AuditLog.exists_verifiable (d := d)
    (AuditLog.mem_chainRows.2 ⟨hrows, ht, hsome⟩) hn
  exact ⟨v, List.mem_filterMap.2 ⟨r, AuditLog.mem_range_upTo.2 ⟨hrows, ht, hsome, hle⟩, hv⟩, hv⟩

/-- **Verifying up to a number, exactly**, when no row from one on lacks a hash: the rows the walk
sees are linked from the beginning. -/
theorem verifyAuditChain_upTo_iff (hnull : ∀ r ∈ log.upTo tenantId toSeq, ¬ r.HalfNull) :
    (verifyAuditChain sha256 d log tenantId { toSeq := some toSeq }).ok = true ↔
      (auditChain sha256).Linked 1 GENESIS_HASH (log.completeUpTo d tenantId toSeq) := by
  have hwhole : verifyAuditChain sha256 d log tenantId { toSeq := some toSeq } =
      verifyChain sha256 (log.completeUpTo d tenantId toSeq)
        (verifyStart log tenantId { toSeq := some toSeq } (log.completeUpTo d tenantId toSeq)) :=
    rfl
  have hstart : verifyStart log tenantId { toSeq := some toSeq }
      (log.completeUpTo d tenantId toSeq) = {} := by
    rcases hrows : log.completeUpTo d tenantId toSeq with _ | ⟨v, vs⟩
    · rfl
    by_cases hv : v.chainSeq > 1
    · -- a row in front of the first one would be seen as well
      have hnone : ∀ p, auditQueryChainRange log
          ⟨tenantId, some (v.chainSeq - 1), some (v.chainSeq - 1), some 1⟩ ≠ [p] := by
        intro p hp
        obtain ⟨hpr, hpt, hps⟩ := AuditLog.auditQueryChainRange_single.1 hp
        have hmem : v ∈ log.completeUpTo d tenantId toSeq := by
          rw [hrows]
          exact List.mem_cons_self
        obtain ⟨r, hr, hrv⟩ := List.mem_filterMap.1 hmem
        have hseq := (AuditLogRow.verifiable_eq_some.1 hrv).1
        have hle := (AuditLog.mem_range_upTo.1 hr).2.2.2
        rw [hseq, Option.getD_some] at hle
        have hpup : p ∈ log.upTo tenantId toSeq := by
          refine AuditLog.mem_upTo.2 ⟨hpr, hpt, by rw [hps]; rfl, ?_⟩
          rw [hps, Option.getD_some]
          omega
        obtain ⟨w, hw, hpw⟩ := AuditLog.exists_verifiable_upTo (d := d) hpup (hnull p hpup)
        have hfirst := AuditLog.head_completeUpTo_le hrows hw
        rw [(AuditLogRow.verifiable_eq_some.1 hpw).1, Option.some.injEq] at hps
        omega
      rcases hq : auditQueryChainRange log
          ⟨tenantId, some (v.chainSeq - 1), some (v.chainSeq - 1), some 1⟩ with _ | ⟨p, _ | ⟨q, l⟩⟩
      · simp [verifyStart, hv, hq]
      · exact absurd hq (hnone p)
      · simp [verifyStart, hv, hq]
    · simp only [verifyStart, hv, if_false]
  rw [hwhole, hstart, verifyChain_ok_iff]
  rfl

theorem AuditLog.completeUpTo_eq
    (hl : (auditChain sha256).Linked 1 GENESIS_HASH (log.completeUpTo d tenantId toSeq)) :
    log.completeUpTo d tenantId toSeq =
      (log.upTo tenantId toSeq).filterMap (AuditLogRow.verifiable d) := by
  have hone : ∀ v ∈ log.completeUpTo d tenantId toSeq, 1 ≤ v.chainSeq := fun v hv => hl.le_seq hv
  rw [AuditLog.upTo, List.filterMap_filter, AuditLog.completeUpTo]
  refine List.filterMap_congr fun r hr => ?_
  rcases hv : r.verifiable d with _ | v
  · simp
  · have hle := hone v (List.mem_filterMap.2 ⟨r, hr, hv⟩)
    rw [(AuditLogRow.verifiable_eq_some.1 hv).1, Option.getD_some]
    simp [hle]

end

end ChronoSynth

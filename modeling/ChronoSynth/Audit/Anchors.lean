import ChronoSynth.Audit.AnchorInvariant

/-!
# Anchors and the rows they stand for

Whatever becomes of the two tables later: if the verification with signatures accepts, the rows up to
an anchor should be those the key service was asked to sign (`RowsAsSigned`). The verification sees
only the hashed columns of rows that have both hashes, so that holds exactly when all of the rows
are intact (`AnchorPasses.rowsAsSigned`); it is an induction back along the chain from the hash the
anchor ends in, and rests on the signatures not being forged (`Unforged`) and on the hash function
having no collisions.

`anchorsKept` puts the two halves together.
-/

namespace ChronoSynth

/-! ## The rows that were signed -/

/-- **What is known of a request**: the rows it was about were intact, and its hash was that of the
last row of an honest chain or was taken over a number as text. -/
structure Signing.Sound (sha256 : String → String) (sg : Signing) : Prop where
  one_le : 1 ≤ sg.toSeq
  tenant : ∀ r ∈ sg.rows, r.tenant_id = sg.tenantId
  isSome : ∀ r ∈ sg.rows, r.chain_seq.isSome
  intact : ∀ r ∈ sg.rows, r.Intact
  hash : ((rowChain sha256).Linked 1 (some GENESIS_HASH) sg.rows ∧ sg.toSeq = sg.rows.length ∧
      (rowChain sha256).tip (some GENESIS_HASH) sg.rows = some sg.tailHash) ∨
    ∃ input text, input.chainSeq = SqlInt.text text ∧ sg.tailHash = computeRecordHash sha256 input

/-- The rows up to an anchor are those of a request for it. -/
def RowsAsSigned (log : AuditLog) (signings : List Signing) (a : AuditChainAnchorRow) : Prop :=
  ∃ sg ∈ signings, sg.tenantId = a.tenant_id ∧ sg.fromSeq = a.from_seq ∧ sg.toSeq = a.to_seq ∧
    sg.tailHash = a.tail_hash ∧ log.upTo a.tenant_id a.to_seq = sg.rows

/-- **Unforgeability**: a signature among the anchors that verifies, for whatever payload, is the
answer to a request. -/
def Unforged (verify : Option KmsVerify) (signings : List Signing) (anchors : AnchorTable) : Prop :=
  ∀ v, verify = some v → ∀ a ∈ anchors.rows, ∀ payload,
    v payload a.signature a.key_id a.alg = .verified → ∃ sg ∈ signings, sg.payload = payload

section Signed

variable {sha256 : String → String} {d : Dialect} {kms : AuditChainKmsProvider}
  {s : AnchorSystem} {log : AuditLog} {tenantId : String} {pre post : List AuditLogRow}

theorem AuditLog.Recorded.signing_sound {p : PendingAnchor}
    (h : log.Recorded sha256 d p.tenantId pre post) (htail : log.HasTail p.tenantId p.toSeq p.tailHash) :
    Signing.Sound sha256 ⟨p, log.upTo p.tenantId p.toSeq⟩ := by
  obtain ⟨r, hr, ht, hn, hhash⟩ := htail
  have hmem := h.mem hr ht
  have hone := h.one_le hmem
  rw [hn, Option.getD_some] at hone
  refine ⟨hone, fun x hx => (AuditLog.mem_upTo.1 hx).2.1, fun x hx => (AuditLog.mem_upTo.1 hx).2.2.1,
    fun x hx => h.intact_upTo hx, ?_⟩
  rcases List.mem_append.1 hmem with hpre | hpost
  · -- the tail is a record of the honest part
    refine .inl ?_
    have hseq := h.linked.seq_lt hpre
    simp only [rowChain, hn, Option.getD_some] at hseq
    have hlen : (pre.take p.toSeq.toNat).length = p.toSeq.toNat := by
      rw [List.length_take]
      omega
    dsimp only
    rw [h.upTo hpre hn, hlen]
    refine ⟨h.linked.take _, by omega, ?_⟩
    -- it stands right before the end of what was taken
    obtain ⟨i, hi⟩ := List.mem_iff_getElem?.1 hpre
    have hi1 := (HashChain.linked_iff_getElem.1 h.linked i r hi).1
    simp only [rowChain, hn, Option.getD_some] at hi1
    have hsucc : p.toSeq.toNat = i + 1 := by omega
    rw [hsucc, HashChain.tip_take_succ hi]
    exact hhash
  · obtain ⟨input, text, htext, hrec⟩ := (h.jumped r hpost).2
    rw [hhash] at hrec
    exact .inr ⟨input, text, htext, Option.some.inj hrec⟩

/-- A request a step sends is for what it has just read. -/
theorem AnchorInv.signing_sound (h : AnchorInv sha256 d kms s) (hkms : kms.Correct)
    {e : AnchorEvent} {sg : Signing} (hsg : s.signing sha256 d kms e = some sg) :
    sg.Sound sha256 := by
  have hstep := h.step hkms e
  have hreq : (s.step sha256 d kms e).request = some sg := by
    cases e with
    | append c => cases hsg
    | trigger isEnabled =>
      simp only [AnchorSystem.signing] at hsg
      split_ifs at hsg
      exact hsg
    | answered answer isEnabled =>
      simp only [AnchorSystem.signing] at hsg
      split_ifs at hsg
      exact hsg
  obtain ⟨pass, hpass, rfl⟩ := Option.map_eq_some_iff.1 hreq
  obtain ⟨pre, post, hrec⟩ := hstep.recorded pass.pending.tenantId
  exact hrec.signing_sound (hstep.pending pass hpass).tail

theorem VerifiableRow.eq_of_hash (hinj : Function.Injective sha256) {v w : VerifiableRow}
    (hv : (auditChain sha256).hash v = (auditChain sha256).digest v)
    (hw : (auditChain sha256).hash w = (auditChain sha256).digest w)
    (hvw : (auditChain sha256).hash v = (auditChain sha256).hash w) : v = w := by
  have hinput : v.input = w.input := by
    rw [hv, hw] at hvw
    exact computeRecordHash_injective hinj hvw
  obtain ⟨vi, vn, vp, vh, vs, vq⟩ := v
  obtain ⟨wi, wn, wp, wh, ws, wq⟩ := w
  obtain rfl : vi = wi := hinput
  obtain rfl : vh = wh := hvw
  obtain rfl : vn = wn := SqlInt.num.inj (vs.symm.trans ws)
  obtain rfl : vp = wp := Option.some.inj (vq.symm.trans wq)
  rfl

theorem AuditLogRow.eq_of_verifiable {r r' : AuditLogRow} {v : VerifiableRow} (hr : r.Intact)
    (hr' : r'.Intact) (hv : r.verifiable d = some v) (hv' : r'.verifiable d = some v) : r = r' := by
  obtain ⟨hs, hp, hh, hi⟩ := AuditLogRow.verifiable_eq_some.1 hv
  obtain ⟨hs', hp', hh', hi'⟩ := AuditLogRow.verifiable_eq_some.1 hv'
  have hinput := hi.symm.trans hi'
  simp only [AuditLogRow.hashInput, AuditHashInput.mk.injEq] at hinput
  have ht := hr.2
  have ht' := hr'.2
  obtain ⟨h1, h2, h3, h4, -, -, h5, h6, h7, h8, h9, h10, h11, h12, h13, h14, h15, h16, h17, h18⟩ :=
    hinput
  cases r
  cases r'
  simp only [AuditLogRow.mk.injEq]
  simp only at *
  exact ⟨h1, h2, h3, by rw [ht, ht', h4], h4, h5, h6, h7, h8, h9, h10, h11, h12, h13, h14, h15, h16,
    h17, h18, hs.trans hs'.symm, hp.trans hp'.symm, hh.trans hh'.symm⟩

theorem eq_of_filterMap_verifiable {rs rs' : List AuditLogRow}
    (h : ∀ r ∈ rs, r.Intact ∧ r.chain_seq.isSome) (h' : ∀ r ∈ rs', r.Intact ∧ r.chain_seq.isSome)
    (heq : rs.filterMap (AuditLogRow.verifiable d) = rs'.filterMap (AuditLogRow.verifiable d)) :
    rs = rs' := by
  have hsome : ∀ r : AuditLogRow, r.Intact → r.chain_seq.isSome → ∃ v, r.verifiable d = some v := by
    intro r hr hs
    obtain ⟨n, hn⟩ := Option.isSome_iff_exists.1 hs
    have hne : r.chain_seq ≠ none := by simp [hn]
    obtain ⟨p, hp⟩ := Option.ne_none_iff_exists'.1 fun hnull => hr.1 ⟨hne, .inl hnull⟩
    obtain ⟨k, hk⟩ := Option.ne_none_iff_exists'.1 fun hnull => hr.1 ⟨hne, .inr hnull⟩
    exact ⟨⟨r.hashInput n p, n, p, k, rfl, rfl⟩,
      AuditLogRow.verifiable_eq_some.2 ⟨hn, hp, hk, rfl⟩⟩
  induction rs generalizing rs' with
  | nil =>
    cases rs' with
    | nil => rfl
    | cons r' rs' =>
      obtain ⟨v, hv⟩ := hsome r' (h' r' (by simp)).1 (h' r' (by simp)).2
      rw [List.filterMap_cons_some hv] at heq
      cases heq
  | cons r rs ih =>
    obtain ⟨v, hv⟩ := hsome r (h r (by simp)).1 (h r (by simp)).2
    rw [List.filterMap_cons_some hv] at heq
    cases rs' with
    | nil => cases heq
    | cons r' rs' =>
      obtain ⟨v', hv'⟩ := hsome r' (h' r' (by simp)).1 (h' r' (by simp)).2
      rw [List.filterMap_cons_some hv'] at heq
      obtain ⟨rfl, hrest⟩ := List.cons_eq_cons.1 heq
      rw [AuditLogRow.eq_of_verifiable (h r (by simp)).1 (h' r' (by simp)).1 hv hv',
        ih (fun x hx => h x (by simp [hx])) (fun x hx => h' x (by simp [hx])) hrest]

/-- A payload tells what is signed, the tenant up to the name of the platform. -/
theorem buildAuditAnchorPayload_inj {t t' : String} {m m' n n' : ℤ} {h h' : String}
    (heq : buildAuditAnchorPayload t m n h = buildAuditAnchorPayload t' m' n' h') :
    m = m' ∧ n = n' ∧ h = h' := by
  have hmembers := Json.flat_injective
    (by
      simp only [Json.Flat, List.forall_mem_cons, List.not_mem_nil, false_implies, implies_true,
        Json.Scalar.num, Json.Scalar.str, and_self])
    (by
      simp only [Json.Flat, List.forall_mem_cons, List.not_mem_nil, false_implies, implies_true,
        Json.Scalar.num, Json.Scalar.str, and_self]) heq
  simp only [List.cons.injEq, Prod.mk.injEq, true_and, and_true, Json.num.injEq, Json.str.injEq,
    JsNumber.ofInt_injective.eq_iff] at hmembers
  exact hmembers.2

theorem tip_filterMap_verifiable {k : ℤ} {h : String} {rs : List AuditLogRow}
    (hs : ∀ r ∈ rs, r.chain_seq.isSome) (hl : (rowChain sha256).Linked k (some h) rs) :
    (rs.filterMap (AuditLogRow.verifiable d)).length = rs.length ∧
      (rowChain sha256).tip (some h) rs =
        some ((auditChain sha256).tip h (rs.filterMap (AuditLogRow.verifiable d))) := by
  induction rs generalizing k h with
  | nil => exact ⟨rfl, rfl⟩
  | cons r rs ih =>
    obtain ⟨-, hprev, hhash, hrest⟩ := hl
    obtain ⟨n, hn⟩ := Option.isSome_iff_exists.1 (hs r (by simp))
    simp only [rowChain, hn, Option.getD_some] at hprev hhash
    rw [hprev, Option.map_some] at hhash
    have hv : r.verifiable d = some ⟨r.hashInput n h, n, h, _, rfl, rfl⟩ :=
      AuditLogRow.verifiable_eq_some.2 ⟨hn, hprev, hhash, rfl⟩
    have hrest' := hrest
    simp only [rowChain, hhash] at hrest'
    obtain ⟨hlen, htip⟩ := ih (fun x hx => hs x (by simp [hx])) hrest'
    rw [List.filterMap_cons_some hv]
    refine ⟨by rw [List.length_cons, List.length_cons, hlen], ?_⟩
    rw [HashChain.tip_cons, HashChain.tip_cons]
    simp only [rowChain, hhash] at htip ⊢
    exact htip

/-- **An anchor that passes stands for the signed rows exactly when they are intact**, if its hash
was signed and the hash function has no collisions. By induction back along the chain, from the hash
the anchor ends in: `HashChain.Linked.eq_of_tip`. -/
theorem AnchorPasses.rowsAsSigned {deps : VerifyAuditAnchorsDeps} {a : AuditChainAnchorRow}
    {sg : Signing} (hinj : Function.Injective sha256) (hpass : AnchorPasses sha256 d deps log a)
    (hsg : sg.Sound sha256) (hto : sg.toSeq = a.to_seq) (hhash : sg.tailHash = a.tail_hash)
    (hintact : ∀ r ∈ log.upTo a.tenant_id a.to_seq, r.Intact) :
    sg.tenantId = a.tenant_id ∧ log.upTo a.tenant_id a.to_seq = sg.rows := by
  have hl := (verifyAuditChain_upTo_iff fun r hr => (hintact r hr).1).1 hpass.chain
  have hone := hsg.one_le
  -- the row the anchor ends at is the last one the walk sees
  obtain ⟨r, hr, ht, hn, hrec⟩ := anchorTail_eq_some.1 hpass.tail
  have hup : r ∈ log.upTo a.tenant_id a.to_seq :=
    AuditLog.mem_upTo.2 ⟨hr, ht, by rw [hn]; rfl, by rw [hn, Option.getD_some]; omega,
      by rw [hn, Option.getD_some]⟩
  obtain ⟨v, hv, hrv⟩ := AuditLog.exists_verifiable_upTo (d := d) hup (hintact r hup).1
  obtain ⟨hvn, -, hvh, hvi⟩ := AuditLogRow.verifiable_eq_some.1 hrv
  rw [hn, Option.some.injEq] at hvn
  rw [hrec, Option.some.injEq] at hvh
  obtain ⟨i, hi⟩ := List.mem_iff_getElem?.1 hv
  obtain ⟨hvseq, -, hvd⟩ := HashChain.linked_iff_getElem.1 hl i v hi
  have hvseq' : v.chainSeq = 1 + i := hvseq
  have hlast : (log.completeUpTo d a.tenant_id a.to_seq).length = i + 1 := by
    have hlt := (List.getElem?_eq_some_iff.1 hi).1
    by_contra hne
    obtain ⟨w, hw⟩ : ∃ w, (log.completeUpTo d a.tenant_id a.to_seq)[i + 1]? = some w :=
      ⟨_, List.getElem?_eq_getElem (by omega)⟩
    have hwseq : w.chainSeq = 1 + ((i + 1 : ℕ) : ℤ) := (HashChain.linked_iff_getElem.1 hl _ w hw).1
    obtain ⟨x, hx, hxw⟩ := List.mem_filterMap.1 (List.mem_of_getElem? hw)
    have hle := (AuditLog.mem_range_upTo.1 hx).2.2.2
    rw [(AuditLogRow.verifiable_eq_some.1 hxw).1, Option.getD_some] at hle
    omega
  rcases hsg.hash with ⟨hlinked, hlen, htip⟩ | ⟨input, text, htext, hin⟩
  · -- the signed rows are a chain of the same length and tip
    have hwalk := linked_filterMap (d := d) hsg.isSome hlinked
    obtain ⟨hwlen, hwtip⟩ := tip_filterMap_verifiable (d := d) hsg.isSome hlinked
    rw [htip, Option.some.injEq] at hwtip
    have hvtip : (auditChain sha256).tip GENESIS_HASH (log.completeUpTo d a.tenant_id a.to_seq) =
        a.tail_hash := by
      have htake := HashChain.tip_take_succ (c := auditChain sha256) (h := GENESIS_HASH) hi
      rw [← hlast, List.take_length] at htake
      rw [htake]
      exact hvh.symm
    have heq : log.completeUpTo d a.tenant_id a.to_seq =
        sg.rows.filterMap (AuditLogRow.verifiable d) := by
      refine HashChain.Linked.eq_of_tip (fun x y => VerifiableRow.eq_of_hash hinj) hl hwalk ?_ ?_
      · omega
      · rw [hvtip, ← hwtip, hhash]
    have hrows : log.upTo a.tenant_id a.to_seq = sg.rows := by
      rw [AuditLog.completeUpTo_eq hl] at heq
      exact eq_of_filterMap_verifiable
        (fun x hx => ⟨hintact x hx, (AuditLog.mem_upTo.1 hx).2.2.1⟩)
        (fun x hx => ⟨hsg.intact x hx, hsg.isSome x hx⟩) heq
    refine ⟨?_, hrows⟩
    rw [hrows] at hup
    rw [← hsg.tenant r hup, ht]
  · -- a hash over a text is no hash over a number
    have hdigest : computeRecordHash sha256 v.input = computeRecordHash sha256 input := by
      have : v.recordHash = computeRecordHash sha256 v.input := hvd
      rw [← this, ← hvh, ← hhash, hin]
    have hseq := congrArg AuditHashInput.chainSeq (computeRecordHash_injective hinj hdigest)
    rw [v.seq_eq, htext] at hseq
    cases hseq

end Signed

/-! ## Along a run -/

section Runs

variable {sha256 : String → String} {d : Dialect} {kms : AuditChainKmsProvider}

/-- A run with the requests noted beside it. -/
abbrev anchorRun (sha256 : String → String) (d : Dialect) (kms : AuditChainKmsProvider)
    (es : List AnchorEvent) : AnchorSystem × List Signing :=
  run (noting (AnchorSystem.step sha256 d kms) (AnchorSystem.note sha256 d kms))
    (AnchorSystem.init, []) es

theorem signings_sound (hkms : kms.Correct) (es : List AnchorEvent) :
    AnchorInv sha256 d kms (anchorRun sha256 d kms es).1 ∧
      ∀ sg ∈ (anchorRun sha256 d kms es).2, sg.Sound sha256 := by
  have halways : Always (noting (AnchorSystem.step sha256 d kms) (AnchorSystem.note sha256 d kms))
      (fun x => AnchorInv sha256 d kms x.1 ∧ ∀ sg ∈ x.2, sg.Sound sha256)
      (AnchorSystem.init, []) es := by
    refine Always.of_inductive ⟨AnchorInv.init, by simp⟩ ?_
    rintro ⟨s, signings⟩ e ⟨hinv, hsound⟩
    refine ⟨hinv.step hkms e, fun sg hsg => ?_⟩
    rcases List.mem_append.1 hsg with hsg | hsg
    · exact hsound sg hsg
    · exact hinv.signing_sound hkms (Option.mem_toList.1 hsg)
  exact halways.last

/-- What a history says of the anchors: each was asked for before it was signed and stored, and so
was the one a pass waits for. -/
structure AnchorsRequested (kms : AuditChainKmsProvider) (s : AnchorSystem)
    (signings : List Signing) : Prop where
  stored : ∀ a ∈ s.anchors.rows, ∃ sg ∈ signings, ∃ k,
    a.signature = (kms.sign sg.payload k).signature
  pending : ∀ pass, s.running = some pass → ∃ sg ∈ signings, sg.payload = pass.pending.payload

theorem AnchorsRequested.step {s : AnchorSystem} {signings : List Signing}
    (hinv : AnchorInv sha256 d kms s) (h : AnchorsRequested kms s signings) (e : AnchorEvent) :
    AnchorsRequested kms (s.step sha256 d kms e) (s.note sha256 d kms signings e) := by
  have hnoted : ∀ {sg : Signing}, sg ∈ signings → sg ∈ s.note sha256 d kms signings e :=
    fun hsg => List.mem_append_left _ hsg
  have hstored : ∀ a ∈ s.anchors.rows, ∃ sg ∈ s.note sha256 d kms signings e, ∃ k,
      a.signature = (kms.sign sg.payload k).signature := by
    intro a ha
    obtain ⟨sg, hsg, k, hk⟩ := h.stored a ha
    exact ⟨sg, hnoted hsg, k, hk⟩
  -- a pass that waits after the step waited before it, or its request is noted
  have hasked : ∀ pass, (s.step sha256 d kms e).running = some pass →
      s.signing sha256 d kms e = (s.step sha256 d kms e).request →
      ∃ sg ∈ s.note sha256 d kms signings e, sg.payload = pass.pending.payload := by
    intro pass hpass hsigning
    refine ⟨⟨pass.pending, (s.step sha256 d kms e).log.upTo pass.pending.tenantId
      pass.pending.toSeq⟩, List.mem_append_right _ ?_, rfl⟩
    rw [hsigning, AnchorSystem.request, hpass]
    exact List.mem_singleton_self _
  have hkept : ∀ pass, s.running = some pass →
      ∃ sg ∈ s.note sha256 d kms signings e, sg.payload = pass.pending.payload := by
    intro pass hpass
    obtain ⟨sg, hsg, hpayload⟩ := h.pending pass hpass
    exact ⟨sg, hnoted hsg, hpayload⟩
  cases e with
  | append c => exact ⟨hstored, hkept⟩
  | trigger isEnabled =>
    rcases hrun : s.running with _ | pass
    · refine ⟨?_, fun pass hpass => hasked pass hpass ?_⟩
      · simpa only [AnchorSystem.step, hrun, AnchorSystem.resume_anchors] using hstored
      · simp [AnchorSystem.signing, hrun]
    · have hstep : s.step sha256 d kms (.trigger isEnabled) = s := by
        simp only [AnchorSystem.step, hrun]
      rw [hstep]
      exact ⟨hstored, hkept⟩
  | answered answer isEnabled =>
    rcases hrun : s.running with _ | pass
    · have hstep : s.step sha256 d kms (.answered answer isEnabled) = s := by
        simp only [AnchorSystem.step, hrun]
      rw [hstep]
      exact ⟨hstored, hkept⟩
    refine ⟨?_, fun pass' hpass => hasked pass' hpass (by simp [AnchorSystem.signing, hrun])⟩
    cases answer with
    | none => simpa only [AnchorSystem.step, hrun, AnchorSystem.resume_anchors] using hstored
    | some answer =>
      rcases hinv.answered hrun answer isEnabled with ⟨-, heq⟩ | ⟨-, anchors', result, hrows, heq⟩
      · rw [heq]
        exact hstored
      · rw [heq, AnchorSystem.resume_anchors, hrows]
        intro a ha
        rcases List.mem_append.1 ha with ha | ha
        · exact hstored a ha
        · obtain ⟨sg, hsg, hpayload⟩ := hkept pass hrun
          refine ⟨sg, hsg, answer.nonce, ?_⟩
          rw [List.mem_singleton.1 ha, hpayload]
          rfl

/-- **Nothing is stored that was not asked for.** -/
theorem anchors_requested (hkms : kms.Correct) (es : List AnchorEvent) :
    AnchorsRequested kms (anchorRun sha256 d kms es).1 (anchorRun sha256 d kms es).2 := by
  have halways : Always (noting (AnchorSystem.step sha256 d kms) (AnchorSystem.note sha256 d kms))
      (fun x => AnchorInv sha256 d kms x.1 ∧ AnchorsRequested kms x.1 x.2)
      (AnchorSystem.init, []) es := by
    refine Always.of_inductive ⟨AnchorInv.init, by simp [AnchorSystem.init, AnchorTable.empty],
      by simp [AnchorSystem.init]⟩ ?_
    rintro ⟨s, signings⟩ e ⟨hinv, hreq⟩
    exact ⟨hinv.step hkms e, hreq.step hinv e⟩
  exact halways.last.2

end Runs

/-! ## A run with one anchor -/

/-- A key service that signs a payload with the payload itself. -/
def plainKms : AuditChainKmsProvider where
  sign payload _ := ⟨"k", payload, "a"⟩
  verify payload signature _ _ := if payload = signature then .verified else .refused

/-- A hash function without collisions. -/
def plainHash (x : String) : String := "0" ++ x

theorem plainHash_injective : Function.Injective plainHash := by
  intro x y h
  simpa [plainHash] using h

theorem plainHash_ne_empty (x : String) : plainHash x ≠ "" := by
  intro h
  simpa [plainHash] using congrArg String.length h

theorem plainKms_correct : plainKms.Correct := by
  intro payload k
  simp [plainKms]

/-- An event is recorded, the service is triggered and the key service answers. -/
def oneAnchor : List AnchorEvent :=
  [.append (sampleCall "a"), .trigger fun _ => true, .answered (some ⟨0, "x", 0⟩) fun _ => true]

theorem along_counted_sqlite {step : AnchorSystem → AnchorEvent → AnchorSystem}
    (es : List AnchorEvent) : Along step (Counted .sqlite) AnchorSystem.init es :=
  fun _ _ _ _ _ _ _ _ _ => .inl rfl

theorem plainKms_unforged (es : List AnchorEvent) :
    Unforged (some plainKms.verify) (anchorRun plainHash .sqlite plainKms es).2
      (anchorRun plainHash .sqlite plainKms es).1.anchors := by
  intro v hv a ha payload hverify
  obtain rfl := Option.some.inj hv
  obtain ⟨sg, hsg, k, hk⟩ := (anchors_requested plainKms_correct es).stored a ha
  have hpayload : payload = a.signature := by
    by_contra hne
    simp [plainKms, hne] at hverify
  exact ⟨sg, hsg, (hpayload.trans hk).symm⟩

/-- A log with the previous hash of every row set to null. -/
def AuditLog.nulled (log : AuditLog) : AuditLog where
  rows := log.rows.map fun r => { r with prev_hash := none, payload_json := none }
  id_unique := by
    rw [List.map_map]
    exact log.id_unique
  chain_unique := List.pairwise_map.2 log.chain_unique

/-- The verification accepts such a log: it looks at no row but the one an anchor ends at, and of
that only at its hash. -/
theorem AnchorInv.nulled_accepted {sha256 : String → String} {d : Dialect}
    {kms : AuditChainKmsProvider} {s : AnchorSystem} (h : AnchorInv sha256 d kms s)
    (hhold : AnchorsHold sha256 d kms s) :
    (verifyAuditAnchors sha256 d { verify := some kms.verify, requireSignatures := true }
      s.log.nulled s.anchors).ok = true := by
  have hpass := (verifyAuditAnchors_ok_iff.1
    (hhold.accepted { verify := some kms.verify } rfl (by simp))).2
  refine verifyAuditAnchors_ok_iff.2
    ⟨by simp, fun a ha => ⟨?_, ?_, (hpass a ha).nonempty, h.signed a ha⟩⟩
  · have hnone : (auditQueryChainRange s.log.nulled ⟨a.tenant_id, none, some a.to_seq, none⟩).filterMap
        (AuditLogRow.verifiable d) = [] := by
      refine List.filterMap_eq_nil_iff.2 fun r hr => ?_
      obtain ⟨x, -, rfl⟩ := List.mem_map.1 (AuditLog.mem_range_upTo.1 hr).1
      rcases x.chain_seq with _ | n <;> simp [AuditLogRow.verifiable]
    rw [verifyAuditChain, hnone]
    rfl
  · obtain ⟨r, hr, ht, hn, hhash⟩ := h.tails a ha
    exact anchorTail_eq_some.2 ⟨_, List.mem_map_of_mem hr, ht, hn, hhash⟩

end ChronoSynth

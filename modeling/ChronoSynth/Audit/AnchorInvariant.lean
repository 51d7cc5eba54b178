import ChronoSynth.Lib.Run
import ChronoSynth.Lib.Tiling
import ChronoSynth.Audit.RecordedChain
import ChronoSynth.Audit.AuditAnchorVerifier

/-!
# What every step of the anchoring keeps

`AnchorInv` says of a state that every tenant's rows are recorded, its anchors tile the numbers from
one on, each ends in the hash of its row and carries a signature that verifies, and a pass under way
waits for an anchor that fits behind the others. The step lemma, `AnchorInv.step`, needs no
condition: what a pass read before a call of the key service still holds when the answer comes,
because the log only grows and no second pass is let in.

`AnchorsHold` is what one expects of the anchors. They hold along a run exactly when no anchor is
stored that ends at a record numbered by concatenation (`Counted`), which only PostgreSQL knows.
-/

namespace ChronoSynth

/-- The row of a tenant with a number carries a hash. -/
def AuditLog.HasTail (log : AuditLog) (tenantId : String) (n : ℤ) (hash : String) : Prop :=
  ∃ r ∈ log.rows, r.tenant_id = tenantId ∧ r.chain_seq = some n ∧ r.record_hash = some hash

/-- A tenant's anchors tile the numbers from one on. -/
def AnchorTable.Tiled (t : AnchorTable) (tenantId : String) : Prop :=
  Tiling.Tiles AuditChainAnchorRow.from_seq AuditChainAnchorRow.to_seq 1 (t.ofTenant tenantId)

def AnchorTable.nextSeq (t : AnchorTable) (tenantId : String) : ℤ :=
  Tiling.next AuditChainAnchorRow.to_seq 1 (t.ofTenant tenantId)

/-- **What a pass has read**: an anchor right behind the others, not empty, that ends in the hash of
its last row. -/
structure PendingAnchor.Sound (log : AuditLog) (anchors : AnchorTable) (p : PendingAnchor) :
    Prop where
  fromSeq : p.fromSeq = anchors.nextSeq p.tenantId
  le : p.fromSeq ≤ p.toSeq
  tail : log.HasTail p.tenantId p.toSeq p.tailHash

/-! ## What a pass reads -/

section Reading

variable {sha256 : String → String} {d : Dialect} {log : AuditLog} {anchors : AnchorTable}
  {tenantId : String} {pre post : List AuditLogRow} {r : AuditLogRow} {p : PendingAnchor}

theorem AuditLog.mem_seqRows {row : SeqRow} :
    row ∈ log.seqRows tenantId ↔ ∃ r ∈ log.chainRows tenantId,
      r.chain_seq = some row.chain_seq ∧ r.record_hash = some row.record_hash := by
  obtain ⟨n, h⟩ := row
  rw [AuditLog.seqRows, List.mem_filterMap]
  refine exists_congr fun r => and_congr_right fun _ => ?_
  rcases hn : r.chain_seq with _ | m <;> rcases hh : r.record_hash with _ | k <;>
    simp [AuditLogRow.seqRow, hn, hh]

theorem AuditLog.seqRows_pairwise :
    (log.seqRows tenantId).Pairwise fun a b => a.chain_seq ≤ b.chain_seq := by
  refine List.pairwise_filterMap.2 (log.chainRows_pairwise.imp ?_)
  intro a b hab x hx y hy
  rcases hna : a.chain_seq with _ | m <;> rcases hha : a.record_hash with _ | k <;>
    simp [AuditLogRow.seqRow, hna, hha] at hx
  rcases hnb : b.chain_seq with _ | m' <;> rcases hhb : b.record_hash with _ | k' <;>
    simp [AuditLogRow.seqRow, hnb, hhb] at hy
  simpa [AuditLogRow.seqLE, hna, hnb, ← hx, ← hy] using hab

theorem AuditLog.Recorded.getFirstSeqNumber (h : log.Recorded sha256 d tenantId pre post) {n : ℤ}
    (hn : ChronoSynth.getFirstSeqNumber d log tenantId = some n) : n = 1 := by
  obtain ⟨row, hhead, rfl⟩ := Option.map_eq_some_iff.1 hn
  rw [Dialect.number_bigint]
  obtain ⟨r, hr, hseq, -⟩ := AuditLog.mem_seqRows.1 (List.mem_of_mem_head? hhead)
  have hone := h.one_le (h.mem_chainRows.1 hr)
  rw [hseq, Option.getD_some] at hone
  -- the first record is among the rows, so the smallest number is at most its own
  have hpre : pre ≠ [] := by
    rintro rfl
    rw [h.mem_chainRows, h.started rfl] at hr
    simp at hr
  obtain ⟨f, fs, rfl⟩ := List.exists_cons_of_ne_nil hpre
  have hf : f ∈ f :: fs ++ post := by simp
  obtain ⟨m, hm⟩ := Option.isSome_iff_exists.1 (h.isSome f hf)
  obtain ⟨hash, hhash⟩ := exists_record_hash h.linked (r := f) (by simp)
  have hm1 : m = 1 := by
    have := h.linked.1
    simpa [rowChain, hm] using this
  have hrow : (⟨m, hash⟩ : SeqRow) ∈ log.seqRows tenantId :=
    AuditLog.mem_seqRows.2 ⟨f, h.mem_chainRows.2 hf, hm, hhash⟩
  have hle : row.chain_seq ≤ m := by
    obtain ⟨rows, hrows⟩ : ∃ rows, log.seqRows tenantId = row :: rows :=
      ⟨_, List.eq_cons_of_mem_head? hhead⟩
    have hpair : (log.seqRows tenantId).Pairwise fun a b => a.chain_seq ≤ b.chain_seq :=
      AuditLog.seqRows_pairwise
    rw [hrows] at hrow hpair
    rcases List.mem_cons.1 hrow with heq | hmem
    · rw [← heq]
    · exact (List.pairwise_cons.1 hpair).1 _ hmem
  omega

theorem AnchorTable.Tiled.sorted (h : anchors.Tiled tenantId) :
    anchors.sorted tenantId = anchors.ofTenant tenantId :=
  (Tiling.Tiles.pairwise h).imp le_of_lt |>.insertionSort_eq

/-- **What a pass reads is sound**, if the tenant's rows are recorded and its anchors tile. -/
theorem pendingAnchor_sound (hrec : log.Recorded sha256 d tenantId pre post)
    (htiled : anchors.Tiled tenantId) (h : pendingAnchor d log anchors tenantId = some p) :
    p.Sound log anchors ∧ p.tenantId = tenantId := by
  rw [pendingAnchor] at h
  obtain ⟨tail, htail, h⟩ := Option.bind_eq_some_iff.1 h
  obtain ⟨r, hr, hseq, hhash⟩ := AuditLog.mem_seqRows.1 (List.mem_of_getLast? htail)
  have hrow : log.HasTail tenantId tail.chain_seq tail.record_hash := by
    obtain ⟨hrows, ht, -⟩ := AuditLog.mem_chainRows.1 hr
    exact ⟨r, hrows, ht, hseq, hhash⟩
  have hone := hrec.one_le (hrec.mem_chainRows.1 hr)
  rw [hseq, Option.getD_some] at hone
  rw [Dialect.number_bigint, getLatestAnchor, htiled.sorted] at h
  rcases hlast : (anchors.ofTenant tenantId).getLast? with _ | latest
  · simp only [hlast] at h
    obtain ⟨fromSeq, hfirst, h⟩ := Option.bind_eq_some_iff.1 h
    obtain rfl := Option.some.inj h
    obtain rfl := hrec.getFirstSeqNumber hfirst
    refine ⟨⟨?_, hone, hrow⟩, rfl⟩
    simp [AnchorTable.nextSeq, Tiling.next, hlast]
  · simp only [hlast] at h
    split_ifs at h with hle
    obtain rfl := Option.some.inj h
    refine ⟨⟨?_, by change latest.to_seq + 1 ≤ tail.chain_seq; omega, hrow⟩, rfl⟩
    simp [AnchorTable.nextSeq, Tiling.next, hlast]

theorem anchorTenants_awaiting {isEnabled : String → Bool} {tenants : List String}
    {result : TriggerResult} {pass : AnchorPass}
    (h : anchorTenants d isEnabled log anchors tenants result = .awaiting pass) :
    ∃ t, pendingAnchor d log anchors t = some pass.pending := by
  induction tenants generalizing result with
  | nil => cases h
  | cons t rest ih =>
    rw [anchorTenants] at h
    split_ifs at h
    · rcases hp : pendingAnchor d log anchors t with _ | p
      · simp only [hp] at h
        exact ih h
      · simp only [hp, PassState.awaiting.injEq] at h
        subst h
        exact ⟨t, hp⟩
    · exact ih h

end Reading

/-! ## Every step -/

/-- What holds in every state a system reaches. -/
structure AnchorInv (sha256 : String → String) (d : Dialect) (kms : AuditChainKmsProvider)
    (s : AnchorSystem) : Prop where
  recorded : ∀ t, ∃ pre post, s.log.Recorded sha256 d t pre post
  tiled : ∀ t, s.anchors.Tiled t
  tails : ∀ a ∈ s.anchors.rows, s.log.HasTail a.tenant_id a.to_seq a.tail_hash
  signed : ∀ a ∈ s.anchors.rows,
    kms.verify (buildAuditAnchorPayload a.tenant_id a.from_seq a.to_seq a.tail_hash) a.signature
      a.key_id a.alg = .verified
  pending : ∀ pass, s.running = some pass → pass.pending.Sound s.log s.anchors

section Steps

variable {sha256 : String → String} {d : Dialect} {kms : AuditChainKmsProvider}
  {s : AnchorSystem} {log log' : AuditLog} {anchors : AnchorTable}

theorem AnchorInv.init : AnchorInv sha256 d kms AnchorSystem.init where
  recorded t := ⟨[], [], AuditLog.Recorded.empty⟩
  tiled t := Tiling.tiles_nil
  tails := by simp [AnchorSystem.init, AnchorTable.empty]
  signed := by simp [AnchorSystem.init, AnchorTable.empty]
  pending := by simp [AnchorSystem.init]

@[simp] theorem AnchorSystem.resume_log {isEnabled : String → Bool} {rest : List String}
    {result : TriggerResult} : (s.resume d isEnabled rest result).log = s.log := by
  rw [AnchorSystem.resume]
  split <;> rfl

@[simp] theorem AnchorSystem.resume_anchors {isEnabled : String → Bool} {rest : List String}
    {result : TriggerResult} : (s.resume d isEnabled rest result).anchors = s.anchors := by
  rw [AnchorSystem.resume]
  split <;> rfl

/-- What goes on reads afresh. -/
theorem AnchorInv.resume {isEnabled : String → Bool} {rest : List String} {result : TriggerResult}
    (recorded : ∀ t, ∃ pre post, s.log.Recorded sha256 d t pre post)
    (tiled : ∀ t, s.anchors.Tiled t)
    (tails : ∀ a ∈ s.anchors.rows, s.log.HasTail a.tenant_id a.to_seq a.tail_hash)
    (signed : ∀ a ∈ s.anchors.rows,
      kms.verify (buildAuditAnchorPayload a.tenant_id a.from_seq a.to_seq a.tail_hash) a.signature
        a.key_id a.alg = .verified) :
    AnchorInv sha256 d kms (s.resume d isEnabled rest result) := by
  refine ⟨by simpa using recorded, by simpa using tiled, by simpa using tails, by simpa using signed,
    fun pass hpass => ?_⟩
  rw [AnchorSystem.resume_log, AnchorSystem.resume_anchors]
  rw [AnchorSystem.resume] at hpass
  split at hpass
  case h_1 pass' heq =>
    obtain rfl := Option.some.inj hpass
    obtain ⟨t, ht⟩ := anchorTenants_awaiting heq
    obtain ⟨pre, post, hrec⟩ := recorded t
    exact (pendingAnchor_sound hrec (tiled t) ht).1
  case h_2 => cases hpass

theorem AuditLog.HasTail.auditStep {t : String} {n : ℤ} {hash : String}
    (h : log.HasTail t n hash) (c : AuditCall) :
    (ChronoSynth.auditStep sha256 d log c).HasTail t n hash := by
  obtain ⟨r, hr, hrest⟩ := h
  refine ⟨r, ?_, hrest⟩
  rw [ChronoSynth.auditStep]
  rcases happly : c.apply sha256 d log with _ | log'
  · exact hr
  · rw [AuditCall.apply_eq, Option.bind_eq_some_iff] at happly
    obtain ⟨n, -, hins⟩ := happly
    rw [Option.getD_some, (AuditLog.insert_eq_some.1 hins).2]
    exact List.mem_append_left _ hr

theorem AnchorTable.insertAnchor_new {row : AuditChainAnchorRow}
    (hid : row.id ∉ anchors.rows.map AuditChainAnchorRow.id)
    (hkey : row.key ∉ anchors.rows.map AuditChainAnchorRow.key) :
    ∃ anchors', anchors.insertAnchor row = some (anchors', true) ∧
      anchors'.rows = anchors.rows ++ [row] := by
  rw [AnchorTable.insertAnchor, dif_neg hid, dif_neg hkey]
  exact ⟨_, rfl, rfl⟩

theorem PendingAnchor.Sound.key_new {p : PendingAnchor} (h : p.Sound log anchors)
    (htiled : anchors.Tiled p.tenantId) (answer : KmsAnswer) :
    (p.row kms answer).key ∉ anchors.rows.map AuditChainAnchorRow.key := by
  intro hmem
  obtain ⟨a, ha, hkey⟩ := List.mem_map.1 hmem
  have ht : a.tenant_id = p.tenantId := congrArg Prod.fst hkey
  have hto : a.to_seq = p.toSeq := congrArg (fun k => k.2.1) hkey
  have hof : a ∈ anchors.ofTenant p.tenantId := List.mem_filter.2 ⟨ha, by simpa using ht⟩
  have hlt := (Tiling.Tiles.bounds htiled hof).2
  have hfrom := h.fromSeq
  have hle := h.le
  rw [AnchorTable.nextSeq] at hfrom
  omega

theorem AnchorTable.ofTenant_append {anchors' : AnchorTable} {row : AuditChainAnchorRow}
    (hrows : anchors'.rows = anchors.rows ++ [row]) (t : String) :
    anchors'.ofTenant t = anchors.ofTenant t ++ if row.tenant_id = t then [row] else [] := by
  rw [AnchorTable.ofTenant, hrows, List.filter_append]
  split_ifs with ht <;> simp [AnchorTable.ofTenant, ht]

/-- **What an answer does**: if the anchor's id is new, the anchor is stored and the pass goes on;
else the pass ends. -/
theorem AnchorInv.answered (h : AnchorInv sha256 d kms s) {pass : AnchorPass}
    (hpass : s.running = some pass) (answer : KmsAnswer) (isEnabled : String → Bool) :
    (answer.id ∈ s.anchors.rows.map AuditChainAnchorRow.id ∧
        s.step sha256 d kms (.answered (some answer) isEnabled) = { s with running := none }) ∨
      (answer.id ∉ s.anchors.rows.map AuditChainAnchorRow.id ∧
        ∃ anchors' result, anchors'.rows = s.anchors.rows ++ [pass.pending.row kms answer] ∧
          s.step sha256 d kms (.answered (some answer) isEnabled) =
            { s with anchors := anchors' }.resume d isEnabled pass.rest result) := by
  by_cases hid : answer.id ∈ s.anchors.rows.map AuditChainAnchorRow.id
  · refine .inl ⟨hid, ?_⟩
    have hthrow : s.anchors.insertAnchor (pass.pending.row kms answer) = none := dif_pos hid
    simp only [AnchorSystem.step, hpass, hthrow]
  · refine .inr ⟨hid, ?_⟩
    have hsound := h.pending pass hpass
    obtain ⟨anchors', hins, hrows⟩ : ∃ anchors',
        s.anchors.insertAnchor (pass.pending.row kms answer) = some (anchors', true) ∧
          anchors'.rows = s.anchors.rows ++ [pass.pending.row kms answer] :=
      AnchorTable.insertAnchor_new hid (hsound.key_new (h.tiled _) answer)
    exact ⟨anchors', _, hrows, by simp only [AnchorSystem.step, hpass, hins]; rfl⟩

/-- **Every step keeps the invariant.** -/
theorem AnchorInv.step (hkms : kms.Correct) (h : AnchorInv sha256 d kms s) (e : AnchorEvent) :
    AnchorInv sha256 d kms (s.step sha256 d kms e) := by
  cases e with
  | append c =>
    refine ⟨fun t => ?_, h.tiled, fun a ha => (h.tails a ha).auditStep c, h.signed,
      fun pass hpass => ?_⟩
    · obtain ⟨pre, post, hrec⟩ := h.recorded t
      exact hrec.auditStep c
    · have hsound := h.pending pass hpass
      exact ⟨hsound.fromSeq, hsound.le, hsound.tail.auditStep c⟩
  | trigger isEnabled =>
    rcases hrun : s.running with _ | pass
    · simp only [AnchorSystem.step, hrun]
      exact AnchorInv.resume h.recorded h.tiled h.tails h.signed
    · simp only [AnchorSystem.step, hrun]
      exact h
  | answered answer isEnabled =>
    rcases hrun : s.running with _ | pass
    · simp only [AnchorSystem.step, hrun]
      exact h
    cases answer with
    | none =>
      simp only [AnchorSystem.step, hrun]
      exact AnchorInv.resume h.recorded h.tiled h.tails h.signed
    | some answer =>
      rcases h.answered hrun answer isEnabled with ⟨-, heq⟩ | ⟨-, anchors', result, hrows, heq⟩
      · rw [heq]
        exact ⟨h.recorded, h.tiled, h.tails, h.signed, fun _ hnone => by cases hnone⟩
      · rw [heq]
        have hsound := h.pending pass hrun
        refine AnchorInv.resume h.recorded (fun t => ?_) (fun a ha => ?_) (fun a ha => ?_)
        · rw [AnchorTable.Tiled, AnchorTable.ofTenant_append hrows]
          split_ifs with ht
          · subst ht
            have hle : s.anchors.nextSeq pass.pending.tenantId ≤ pass.pending.toSeq :=
              hsound.fromSeq ▸ hsound.le
            exact Tiling.tiles_snoc.2 ⟨h.tiled _, hsound.fromSeq, hle⟩
          · rw [List.append_nil]
            exact h.tiled t
        · rw [hrows, List.mem_append, List.mem_singleton] at ha
          rcases ha with ha | rfl
          · exact h.tails a ha
          · exact hsound.tail
        · rw [hrows, List.mem_append, List.mem_singleton] at ha
          rcases ha with ha | rfl
          · exact h.signed a ha
          · exact hkms _ _

end Steps

/-! ## Acceptance -/

section Acceptance

variable {sha256 : String → String} {d : Dialect} {log : AuditLog} {tenantId : String}
  {pre post : List AuditLogRow} {r : AuditLogRow} {n : ℤ}

theorem AuditLog.Recorded.mem (h : log.Recorded sha256 d tenantId pre post) (hr : r ∈ log.rows)
    (ht : r.tenant_id = tenantId) : r ∈ pre ++ post := by
  rw [← h.appended]
  exact List.mem_filter.2 ⟨hr, by simpa using ht⟩

theorem AuditLog.Recorded.range (h : log.Recorded sha256 d tenantId pre post) (hr : r ∈ pre)
    (hn : r.chain_seq = some n) :
    auditQueryChainRange log ⟨tenantId, none, some n, none⟩ = pre.take n.toNat := by
  have hle : n ≤ pre.length := by
    have := h.linked.seq_lt hr
    simp only [rowChain, hn, Option.getD_some] at this
    omega
  have hfilter : log.rows.filter
      (fun r => (⟨tenantId, none, some n, none⟩ : AuditChainRangeParams).Selects r) =
      (log.appended tenantId).filter fun r => r.chain_seq.getD 0 ≤ n := by
    rw [AuditLog.appended, List.filter_filter]
    refine List.filter_congr fun x hx => ?_
    rw [← Bool.decide_and, decide_eq_decide]
    constructor
    · rintro ⟨ht, -, -, hhi⟩
      exact ⟨hhi n rfl, ht⟩
    · rintro ⟨hhi, ht⟩
      refine ⟨ht, h.isSome x (h.mem hx ht), by simp, fun u hu => ?_⟩
      obtain rfl := Option.some.inj hu
      exact hhi
  have hpre : pre.filter (fun r => r.chain_seq.getD 0 ≤ n) = pre.take n.toNat := by
    have hlist := h.linked.filter_le n
    have hz : (n + 1 - 1).toNat = n.toNat := by omega
    rw [hz] at hlist
    exact hlist
  -- what was concatenated lies beyond the honest part
  have hpost : post.filter (fun r => r.chain_seq.getD 0 ≤ n) = [] := by
    refine List.filter_eq_nil_iff.2 fun x hx hxn => ?_
    have h11 := (h.jumped x hx).1
    cases d with
    | sqlite =>
      rw [h.sqlite rfl] at hx
      cases hx
    | postgres =>
      have hlen := h.postgres rfl
      simp only [decide_eq_true_eq] at hxn
      omega
  have hsorted : (pre.take n.toNat).Pairwise AuditLogRow.seqLE :=
    ((h.linked.take _).pairwise).imp le_of_lt
  rw [auditQueryChainRange, hfilter, h.appended, List.filter_append, hpre, hpost, List.append_nil,
    hsorted.insertionSort_eq]

theorem AuditLog.Recorded.upTo (h : log.Recorded sha256 d tenantId pre post) (hr : r ∈ pre)
    (hn : r.chain_seq = some n) : log.upTo tenantId n = pre.take n.toNat := by
  rw [AuditLog.upTo, h.range hr hn, List.filter_eq_self]
  intro x hx
  simpa using h.one_le (List.mem_append_left _ (List.mem_of_mem_take hx))

theorem AuditLog.Recorded.intact_upTo (h : log.Recorded sha256 d tenantId pre post)
    (hr : r ∈ log.upTo tenantId n) : r.Intact := by
  obtain ⟨hrows, ht, -⟩ := AuditLog.mem_upTo.1 hr
  exact h.intact r (h.mem hrows ht)

/-- **The chain up to a record of the honest part verifies.** -/
theorem AuditLog.Recorded.verifies (h : log.Recorded sha256 d tenantId pre post) (hr : r ∈ pre)
    (hn : r.chain_seq = some n) :
    (verifyAuditChain sha256 d log tenantId { toSeq := some n }).ok = true := by
  refine (verifyAuditChain_upTo_iff fun x hx => (h.intact_upTo hx).1).2 ?_
  rw [AuditLog.completeUpTo, h.range hr hn]
  exact linked_filterMap
    (fun x hx => h.isSome x (List.mem_append_left _ (List.mem_of_mem_take hx))) (h.linked.take _)

theorem anchorTail_eq {a : AuditChainAnchorRow} (hr : r ∈ log.rows)
    (ht : r.tenant_id = a.tenant_id) (hn : r.chain_seq = some a.to_seq) :
    anchorTail log a = r.record_hash := by
  rw [anchorTail]
  rcases hfind : log.rows.find? (fun r => r.tenant_id = a.tenant_id ∧ r.chain_seq = some a.to_seq)
    with _ | x
  · have := List.find?_eq_none.1 hfind r hr
    simp [ht, hn] at this
  · have hx := List.find?_some hfind
    simp only [Bool.decide_and, Bool.and_eq_true, decide_eq_true_eq] at hx
    obtain rfl : x = r := AuditLog.eq_of_chain_seq (List.mem_of_find?_eq_some hfind) hr
      (hx.1.trans ht.symm) (by simp [hx.2]) (hx.2.trans hn.symm)
    exact congrArg (fun o => o.bind AuditLogRow.record_hash) hfind

theorem anchorTail_eq_some {a : AuditChainAnchorRow} {hash : String} :
    anchorTail log a = some hash ↔ log.HasTail a.tenant_id a.to_seq hash := by
  constructor
  · intro h
    obtain ⟨r, hfind, hhash⟩ := Option.bind_eq_some_iff.1 h
    have hr := List.find?_some hfind
    simp only [Bool.decide_and, Bool.and_eq_true, decide_eq_true_eq] at hr
    exact ⟨r, List.mem_of_find?_eq_some hfind, hr.1, hr.2, hhash⟩
  · rintro ⟨r, hr, ht, hn, hhash⟩
    rw [anchorTail_eq hr ht hn, hhash]

end Acceptance

/-- **What one expects of the anchors of an append-only log.** -/
structure AnchorsHold (sha256 : String → String) (d : Dialect) (kms : AuditChainKmsProvider)
    (s : AnchorSystem) : Prop where
  /-- By their last number the anchors of a tenant tile the numbers from one on. -/
  tiled : ∀ t, Tiling.Tiles AuditChainAnchorRow.from_seq AuditChainAnchorRow.to_seq 1
    (s.anchors.sorted t)
  /-- Each ends in the hash of the row it reaches. -/
  tails : ∀ a ∈ s.anchors.rows, ∃ r ∈ s.log.rows, r.tenant_id = a.tenant_id ∧
    r.chain_seq = some a.to_seq ∧ r.record_hash = some a.tail_hash
  /-- The verification accepts them, whichever tenants it is to find anchored that are. -/
  accepted : ∀ deps : VerifyAuditAnchorsDeps, deps.verify = some kms.verify →
    (∀ t ∈ deps.requireAnchorsForTenants, ∃ a ∈ s.anchors.rows, a.tenant_id = t) →
    (verifyAuditAnchors sha256 d deps s.log s.anchors).ok = true

/-- **The condition on a step**: the anchor it stores, if it stores one, is on SQLite or ends at its
tenant's first record. -/
def Counted (d : Dialect) (s : AnchorSystem) (e : AnchorEvent) : Prop :=
  ∀ answer isEnabled pass, e = .answered (some answer) isEnabled → s.running = some pass →
    answer.id ∉ s.anchors.rows.map AuditChainAnchorRow.id →
    d = .sqlite ∨ pass.pending.toSeq = 1

section Forward

variable {sha256 : String → String} {d : Dialect} {kms : AuditChainKmsProvider}
  {s : AnchorSystem} {e : AnchorEvent}

/-- Every anchor is on SQLite or ends at its tenant's first record. -/
def AnchorSystem.Covered (d : Dialect) (s : AnchorSystem) : Prop :=
  ∀ a ∈ s.anchors.rows, d = .sqlite ∨ a.to_seq = 1

/-- A row that is on SQLite or its tenant's first is in the honest part. -/
theorem AuditLog.Recorded.mem_pre {log : AuditLog} {t : String} {pre post : List AuditLogRow}
    (h : log.Recorded sha256 d t pre post) {r : AuditLogRow} {n : ℤ} (hr : r ∈ pre ++ post)
    (hn : r.chain_seq = some n) (hd : d = .sqlite ∨ n = 1) : r ∈ pre := by
  rcases List.mem_append.1 hr with hr | hr
  · exact hr
  rcases hd with hs | rfl
  · rw [h.sqlite hs] at hr
    cases hr
  · have := (h.jumped r hr).1
    rw [hn, Option.getD_some] at this
    omega

/-- **Covered anchors hold.** -/
theorem AnchorInv.anchorsHold (hsha : ∀ x, sha256 x ≠ "") (h : AnchorInv sha256 d kms s)
    (hcov : s.Covered d) : AnchorsHold sha256 d kms s := by
  refine ⟨fun t => ?_, h.tails, fun deps hverify hreq => ?_⟩
  · rw [(h.tiled t).sorted]
    exact h.tiled t
  refine verifyAuditAnchors_ok_iff.2 ⟨hreq, fun a ha => ?_⟩
  obtain ⟨pre, post, hrec⟩ := h.recorded a.tenant_id
  have htail := h.tails a ha
  obtain ⟨r, hr, ht, hn, hhash⟩ := htail
  have hpre : r ∈ pre := hrec.mem_pre (hrec.mem hr ht) hn (hcov a ha)
  refine ⟨hrec.verifies hpre hn, anchorTail_eq_some.2 (h.tails a ha), ?_, ?_⟩
  · -- the hash of a record is the hash of something
    obtain ⟨i, hi⟩ := List.mem_iff_getElem?.1 hpre
    have hdigest := (HashChain.linked_iff_getElem.1 hrec.linked i r hi).2.2
    simp only [rowChain, hhash] at hdigest
    obtain ⟨p, -, hp⟩ := Option.map_eq_some_iff.1 hdigest.symm
    rw [← hp]
    exact hsha _
  · rw [hverify]
    exact h.signed a ha

theorem AnchorInv.covered_step (h : AnchorInv sha256 d kms s) (hcov : s.Covered d)
    (hC : Counted d s e) : (s.step sha256 d kms e).Covered d := by
  cases e with
  | append c => exact hcov
  | trigger isEnabled =>
    rcases hrun : s.running with _ | pass
    · simpa only [AnchorSystem.step, hrun, AnchorSystem.Covered, AnchorSystem.resume_anchors]
        using hcov
    · simpa only [AnchorSystem.step, hrun] using hcov
  | answered answer isEnabled =>
    rcases hrun : s.running with _ | pass
    · simpa only [AnchorSystem.step, hrun] using hcov
    cases answer with
    | none =>
      simpa only [AnchorSystem.step, hrun, AnchorSystem.Covered, AnchorSystem.resume_anchors]
        using hcov
    | some answer =>
      rcases h.answered hrun answer isEnabled with ⟨-, heq⟩ | ⟨hid, anchors', result, hrows, heq⟩
      · rw [heq]
        exact hcov
      · rw [heq, AnchorSystem.Covered, AnchorSystem.resume_anchors]
        intro a ha
        rw [hrows, List.mem_append, List.mem_singleton] at ha
        rcases ha with ha | rfl
        · exact hcov a ha
        · exact hC answer isEnabled pass rfl hrun hid

theorem AuditLog.Recorded.not_verifies {log : AuditLog} {t : String} {pre post : List AuditLogRow}
    (h : log.Recorded sha256 .postgres t pre post) {r : AuditLogRow} {n : ℤ}
    (hr : r ∈ pre ++ post) (hn : r.chain_seq = some n) (hne : n ≠ 1) :
    (verifyAuditChain sha256 .postgres log t { toSeq := some n }).ok ≠ true := by
  intro hok
  -- no record of the tenant is numbered two
  have htwo : ∀ x ∈ pre ++ post, x.chain_seq ≠ some 1 → 11 ≤ x.chain_seq.getD 0 := by
    intro x hx hx1
    rcases List.mem_append.1 hx with hx | hx
    · obtain ⟨m, hm⟩ := Option.isSome_iff_exists.1 (h.isSome x (List.mem_append_left _ hx))
      have hge := h.linked.le_seq hx
      have hlt := h.linked.seq_lt hx
      have hlen := h.postgres rfl
      simp only [rowChain, hm, Option.getD_some] at hge hlt
      exact absurd (by rw [hm]; congr 1; omega) hx1
    · exact (h.jumped x hx).1
  have hn11 : 11 ≤ n := by
    have := htwo r hr (by rw [hn]; simpa using hne)
    rwa [hn, Option.getD_some] at this
  have hmem : r ∈ log.upTo t n := by
    obtain ⟨hrows, ht, hsome⟩ := AuditLog.mem_chainRows.1 (h.mem_chainRows.2 hr)
    exact AuditLog.mem_upTo.2 ⟨hrows, ht, hsome, by rw [hn, Option.getD_some]; omega,
      by rw [hn, Option.getD_some]⟩
  have hl := (verifyAuditChain_upTo_iff fun x hx => (h.intact_upTo hx).1).1 hok
  obtain ⟨v, hv, hrv⟩ := AuditLog.exists_verifiable_upTo (d := .postgres) hmem (h.intact_upTo hmem).1
  -- the walk sees the record, so it has seen one numbered two
  have hvn : v.chainSeq = n := by
    have := (AuditLogRow.verifiable_eq_some.1 hrv).1
    rw [hn] at this
    exact (Option.some.inj this).symm
  have hlt := hl.seq_lt hv
  have hv2 : v.chainSeq < 1 + (log.completeUpTo .postgres t n).length := hlt
  have hlen : 1 < (log.completeUpTo .postgres t n).length := by omega
  obtain ⟨w, hw⟩ : ∃ w, (log.completeUpTo .postgres t n)[1]? = some w :=
    ⟨_, List.getElem?_eq_getElem hlen⟩
  have hw2 : w.chainSeq = 1 + ((1 : ℕ) : ℤ) := (HashChain.linked_iff_getElem.1 hl 1 w hw).1
  obtain ⟨x, hx, hxw⟩ := List.mem_filterMap.1 (List.mem_of_getElem? hw)
  obtain ⟨hxr, hxt, -⟩ := AuditLog.mem_range_upTo.1 hx
  have hxs := (AuditLogRow.verifiable_eq_some.1 hxw).1
  have := htwo x (h.mem hxr hxt) (by rw [hxs, hw2]; simp)
  rw [hxs, Option.getD_some, hw2] at this
  norm_num at this

theorem AnchorInv.counted (h : AnchorInv sha256 d kms s) (hkms : kms.Correct)
    (hhold : AnchorsHold sha256 d kms (s.step sha256 d kms e)) : Counted d s e := by
  rintro answer isEnabled pass rfl hrun hid
  by_contra hno
  obtain ⟨hd, hne⟩ := not_or.1 hno
  obtain rfl : d = .postgres := by
    cases d with
    | sqlite => exact absurd rfl hd
    | postgres => rfl
  have hstep := h.step hkms (.answered (some answer) isEnabled)
  rcases h.answered hrun answer isEnabled with ⟨hmem, -⟩ | ⟨-, anchors', result, hrows, heq⟩
  · exact hid hmem
  -- the anchor is stored, and the verification refuses it
  have ha : pass.pending.row kms answer ∈
      (s.step sha256 .postgres kms (.answered (some answer) isEnabled)).anchors.rows := by
    rw [heq, AnchorSystem.resume_anchors, hrows]
    simp
  have hpass := (verifyAuditAnchors_ok_iff.1
    (hhold.accepted { verify := some kms.verify } rfl (by simp))).2 _ ha
  obtain ⟨pre, post, hrec⟩ := hstep.recorded pass.pending.tenantId
  obtain ⟨r, hr, ht, hn, -⟩ := hstep.tails _ ha
  exact hrec.not_verifies (hrec.mem hr ht) hn hne hpass.chain

end Forward

end ChronoSynth

import ChronoSynth.Lib.Run
import ChronoSynth.Lib.Table
import ChronoSynth.Audit.AuditLogStore

/-!
# Appending and verifying agree

A log grown from the empty table by appends alone should verify: as a whole and in every range, for
every tenant, with the tenant's rows numbered in the order of the calls and no tenant's result
touched by another tenant's appends (`AppendsVerify`).

On SQLite it does, for every sequence of calls. On PostgreSQL the driver hands the last number over
as text and the append concatenates instead of adding, so a tenant's second record is numbered 11;
there a log verifies exactly as long as no tenant is appended to twice (`appendsVerify_iff`).

The proofs read the rows of a tenant as a hash chain of their own (`rowChain`), in which hashes may
be missing; every range of it is a segment, and `verify_segment` says that the verification seeds
its walk rightly on every segment.
-/

namespace ChronoSynth

/-- A call that appends a record: the random id it draws, the clock it reads and its input. -/
inductive AuditCall
  | request (id : String) (now : ℤ) (input : RequestAuditInput)
  | business (id : String) (now : ℤ) (input : BusinessAuditInput)

namespace AuditCall

/-- The id drawn. -/
def id : AuditCall → String
  | request id _ _ => id
  | business id _ _ => id

/-- The tenant appended to. -/
def tenantId : AuditCall → String
  | request _ _ input => input.tenantId
  | business _ _ input => input.tenantId

/-- Run the call; `none` when its transaction fails. -/
def apply (sha256 : String → String) (d : Dialect) (log : AuditLog) : AuditCall → Option AuditLog
  | request id now input => recordRequestAuditLog sha256 d log id now input
  | business id now input => recordBusinessAuditLog sha256 d log id now input

end AuditCall

/-- One call as a step of the log: a call that fails is rolled back. -/
def auditStep (sha256 : String → String) (d : Dialect) (log : AuditLog) (c : AuditCall) :
    AuditLog :=
  (c.apply sha256 d log).getD log

/-- The log after a sequence of calls on the empty table. -/
abbrev auditRun (sha256 : String → String) (d : Dialect) (calls : List AuditCall) : AuditLog :=
  run (auditStep sha256 d) AuditLog.empty calls

def AuditLog.appended (log : AuditLog) (tenantId : String) : List AuditLogRow :=
  log.rows.filter (fun r => r.tenant_id = tenantId)

/-- **Appends and verification agree** along a sequence of calls on the empty table. -/
structure AppendsVerify (sha256 : String → String) (d : Dialect) (calls : List AuditCall) :
    Prop where
  verifies : ∀ pre, pre <+: calls → ∀ tenantId options,
    (verifyAuditChain sha256 d (auditRun sha256 d pre) tenantId options).ok = true
  /-- A tenant's rows are those of its calls, in their order, numbered from one on. -/
  numbered : ∀ pre, pre <+: calls → ∀ tenantId,
    ((auditRun sha256 d pre).appended tenantId).map (fun r => (r.id, r.chain_seq)) =
      (((pre.filter fun c => c.tenantId = tenantId).map AuditCall.id).zipIdx 1).map
        fun p => (p.1, some (p.2 : ℤ))
  /-- An append leaves the verification of every other tenant's chain as it was. -/
  isolated : ∀ pre c, pre ++ [c] <+: calls → ∀ tenantId, tenantId ≠ c.tenantId → ∀ options,
    verifyAuditChain sha256 d (auditRun sha256 d (pre ++ [c])) tenantId options =
      verifyAuditChain sha256 d (auditRun sha256 d pre) tenantId options

/-! ## The row an append inserts -/

/-- The row a call inserts, given the end of the chain it read and the number stored. -/
def AuditCall.row (sha256 : String → String) (tail : ChainTail) (n : ℤ) : AuditCall → AuditLogRow
  | .request id now input =>
    let createdAt := input.createdAt.getD now
    let r : AuditLogRow := {
      id := id, tenant_id := input.tenantId, event_kind := "request"
      timestamp := createdAt, created_at := createdAt
      method := input.method, path := input.path, request_id := input.requestId
      status_code := input.statusCode, latency_ms := input.latencyMs.roundHundredths
      api_key_hash := hashApiKey sha256 input.apiKey, user_id := input.userId
      user_email := input.userEmail, actor_type := input.actorType.map AuditActorType.text
      actor_id := input.actorId, action_type := some input.actionType
      target_type := none, target_id := none, payload_json := payloadText input.payload
      chain_seq := some n, prev_hash := tail.hash, record_hash := none }
    { r with record_hash := some (computeRecordHash sha256
        { r.hashInput n "" with chainSeq := tail.seq.plusOne, prevHash := tail.hash }) }
  | .business id now input =>
    let createdAt := input.createdAt.getD now
    let r : AuditLogRow := {
      id := id, tenant_id := input.tenantId, event_kind := "business"
      timestamp := createdAt, created_at := createdAt
      method := "EVENT", path := "/audit/business/" ++ input.actionType
      request_id := input.requestId.getD ("audit:" ++ id), status_code := 200
      latency_ms := (0 : ℤ), api_key_hash := none
      user_id := if input.actorType = .user then some input.actorId else none
      user_email := none, actor_type := some input.actorType.text
      actor_id := some input.actorId, action_type := some input.actionType
      target_type := some input.targetType, target_id := some input.targetId
      payload_json := payloadText input.payload
      chain_seq := some n, prev_hash := tail.hash, record_hash := none }
    { r with record_hash := some (computeRecordHash sha256
        { r.hashInput n "" with chainSeq := tail.seq.plusOne, prevHash := tail.hash }) }

section Append

variable {sha256 : String → String} {d : Dialect} {log log' : AuditLog} {c : AuditCall}

/-- **A call, both kinds alike**: it inserts its row under the number the column takes. The hash in
the row was computed from an in-memory record; field by field it is the row's own. -/
theorem AuditCall.apply_eq :
    c.apply sha256 d log =
      (readChainTail d log c.tenantId).seq.plusOne.column.bind fun n =>
        log.insert (c.row sha256 (readChainTail d log c.tenantId) n) := by
  cases c <;> rfl

@[simp] theorem AuditCall.row_id {tail : ChainTail} {n : ℤ} :
    (c.row sha256 tail n).id = c.id := by
  cases c <;> rfl

@[simp] theorem AuditCall.row_tenant_id {tail : ChainTail} {n : ℤ} :
    (c.row sha256 tail n).tenant_id = c.tenantId := by
  cases c <;> rfl

@[simp] theorem AuditCall.row_chain_seq {tail : ChainTail} {n : ℤ} :
    (c.row sha256 tail n).chain_seq = some n := by
  cases c <;> rfl

@[simp] theorem AuditCall.row_prev_hash {tail : ChainTail} {n : ℤ} :
    (c.row sha256 tail n).prev_hash = tail.hash := by
  cases c <;> rfl

/-- When the number that was hashed is the number stored, the row carries the hash of its own
fields. -/
theorem AuditCall.row_record_hash {tail : ChainTail} {n : ℤ} {p : String}
    (hn : tail.seq.plusOne = .num n) (hp : tail.hash = some p) :
    (c.row sha256 tail n).record_hash =
      some (computeRecordHash sha256 ((c.row sha256 tail n).hashInput n p)) := by
  cases c <;> simp only [AuditCall.row, hn, hp] <;> rfl

theorem AuditLog.insert_eq_some {row : AuditLogRow} :
    log.insert row = some log' ↔ log.Accepts row ∧ log'.rows = log.rows ++ [row] := by
  rw [AuditLog.insert]
  split_ifs with h
  · obtain ⟨rows, hid, hch⟩ := log'
    simp [h, eq_comm]
  · simp [h]

theorem AuditLog.appended_insert {row : AuditLogRow} (h : log.insert row = some log')
    (tenantId : String) :
    log'.appended tenantId =
      log.appended tenantId ++ if row.tenant_id = tenantId then [row] else [] := by
  rw [AuditLog.appended, (AuditLog.insert_eq_some.1 h).2, List.filter_append]
  split_ifs with ht <;> simp [AuditLog.appended, ht]

/-- **Isolation.** A call changes no query about another tenant. -/
theorem auditQueryChainRange_auditStep {p : AuditChainRangeParams}
    (hp : p.tenantId ≠ c.tenantId) :
    auditQueryChainRange (auditStep sha256 d log c) p = auditQueryChainRange log p := by
  rcases h : c.apply sha256 d log with _ | log'
  · rw [auditStep, h, Option.getD_none]
  · rw [auditStep, h, Option.getD_some]
    rw [AuditCall.apply_eq, Option.bind_eq_some_iff] at h
    obtain ⟨n, -, hins⟩ := h
    have hno : ¬ p.Selects (c.row sha256 (readChainTail d log c.tenantId) n) := fun hs =>
      hp (by rw [← hs.1, AuditCall.row_tenant_id])
    rw [auditQueryChainRange, (AuditLog.insert_eq_some.1 hins).2, List.filter_append,
      List.filter_singleton]
    simp only [hno, decide_false, cond_false, List.append_nil]
    rfl

theorem verifyAuditChain_auditStep {tenantId : String} (ht : tenantId ≠ c.tenantId)
    (options : VerifyAuditChainOptions) :
    verifyAuditChain sha256 d (auditStep sha256 d log c) tenantId options =
      verifyAuditChain sha256 d log tenantId options := by
  have hq : ∀ p : AuditChainRangeParams, p.tenantId = tenantId →
      auditQueryChainRange (auditStep sha256 d log c) p = auditQueryChainRange log p :=
    fun p hp => auditQueryChainRange_auditStep (by rw [hp]; exact ht)
  simp only [verifyAuditChain, verifyStart, hq ⟨tenantId, _, _, _⟩ rfl]

end Append

/-! ## Honest chains verify in every range -/

/-- The rows of a tenant as a hash chain of their own, hashes nullable. -/
def rowChain (sha256 : String → String) : HashChain AuditLogRow (Option String) where
  seq r := r.chain_seq.getD 0
  prev := AuditLogRow.prev_hash
  hash := AuditLogRow.record_hash
  digest r := r.prev_hash.map fun p =>
    computeRecordHash sha256 (r.hashInput (r.chain_seq.getD 0) p)

/-- A tenant's rows form an honest chain: all numbered, and linked from the genesis hash on. -/
structure AuditLog.Honest (sha256 : String → String) (log : AuditLog) (tenantId : String) :
    Prop where
  /-- Every row of the tenant is numbered. -/
  isSome : ∀ r ∈ log.appended tenantId, r.chain_seq.isSome
  linked : (rowChain sha256).Linked 1 (some GENESIS_HASH) (log.appended tenantId)

section Honest

variable {sha256 : String → String} {d : Dialect} {log : AuditLog} {tenantId : String}

theorem exists_record_hash {k : ℤ} {h : String} {rs : List AuditLogRow} {r : AuditLogRow}
    (hl : (rowChain sha256).Linked k (some h) rs) (hr : r ∈ rs) :
    ∃ hash, r.record_hash = some hash := by
  induction rs generalizing k h with
  | nil => simp at hr
  | cons r' rs ih =>
    obtain ⟨-, hprev, hhash, hrest⟩ := hl
    simp only [rowChain] at hprev hhash
    rw [hprev, Option.map_some] at hhash
    rcases List.mem_cons.1 hr with rfl | hr
    · exact ⟨_, hhash⟩
    · simp only [rowChain, hhash] at hrest
      exact ih hrest hr

theorem linked_filterMap {k : ℤ} {h : String} {rs : List AuditLogRow}
    (hs : ∀ r ∈ rs, r.chain_seq.isSome) (hl : (rowChain sha256).Linked k (some h) rs) :
    (auditChain sha256).Linked k h (rs.filterMap (AuditLogRow.verifiable d)) := by
  induction rs generalizing k h with
  | nil => exact HashChain.linked_nil
  | cons r rs ih =>
    obtain ⟨hseq, hprev, hhash, hrest⟩ := hl
    obtain ⟨n, hn⟩ := Option.isSome_iff_exists.1 (hs r (by simp))
    simp only [rowChain, hn, Option.getD_some] at hseq hprev hhash
    rw [hprev, Option.map_some] at hhash
    have hv : r.verifiable d = some ⟨r.hashInput n h, n, h, _, rfl, rfl⟩ :=
      AuditLogRow.verifiable_eq_some.2 ⟨hn, hprev, hhash, rfl⟩
    have hrest' := hrest
    simp only [rowChain, hhash] at hrest'
    rw [List.filterMap_cons_some hv]
    exact ⟨hseq, rfl, rfl, ih (fun r' hr' => hs r' (by simp [hr'])) hrest'⟩

theorem AuditLog.Honest.pairwise (h : log.Honest sha256 tenantId) :
    (log.appended tenantId).Pairwise AuditLogRow.seqLE :=
  h.linked.pairwise.imp le_of_lt

theorem AuditLog.Honest.range (h : log.Honest sha256 tenantId) (lo hi : Option ℤ)
    (limit : Option ℕ) :
    ∃ i m, auditQueryChainRange log ⟨tenantId, lo, hi, limit⟩ =
      ((log.appended tenantId).drop i).take m := by
  have hfilter : log.rows.filter
      (fun r => (⟨tenantId, lo, hi, limit⟩ : AuditChainRangeParams).Selects r) =
      ((log.appended tenantId).filter (fun r => ∀ l ∈ lo, l ≤ r.chain_seq.getD 0)).filter
        (fun r => ∀ u ∈ hi, r.chain_seq.getD 0 ≤ u) := by
    simp only [AuditLog.appended, List.filter_filter]
    refine List.filter_congr fun r hr => ?_
    rw [← Bool.decide_and, ← Bool.decide_and, decide_eq_decide]
    constructor
    · rintro ⟨ht, -, hlo, hhi⟩
      exact ⟨hhi, hlo, ht⟩
    · rintro ⟨hhi, hlo, ht⟩
      exact ⟨ht, h.isSome r (List.mem_filter.2 ⟨hr, by simpa using ht⟩), hlo, hhi⟩
  have hlo : ∃ i, (log.appended tenantId).filter (fun r => ∀ l ∈ lo, l ≤ r.chain_seq.getD 0) =
      (log.appended tenantId).drop i := by
    cases lo with
    | none => exact ⟨0, by simp⟩
    | some l =>
      exact ⟨_, (List.filter_congr fun r _ => decide_eq_decide.2 (by simp [rowChain])).trans
        (h.linked.filter_ge l)⟩
  obtain ⟨i, hi'⟩ := hlo
  have hhi : ∃ m, ((log.appended tenantId).drop i).filter
      (fun r => ∀ u ∈ hi, r.chain_seq.getD 0 ≤ u) = ((log.appended tenantId).drop i).take m := by
    cases hi with
    | none => exact ⟨((log.appended tenantId).drop i).length, by rw [List.take_length]; simp⟩
    | some u =>
      exact ⟨_, (List.filter_congr fun r _ => decide_eq_decide.2 (by simp [rowChain])).trans
        ((h.linked.drop i).filter_le u)⟩
  obtain ⟨m, hm⟩ := hhi
  have hsorted : (((log.appended tenantId).drop i).take m).Pairwise AuditLogRow.seqLE :=
    (h.pairwise.sublist (List.drop_sublist _ _)).sublist (List.take_sublist _ _)
  rw [auditQueryChainRange, hfilter, hi', hm, hsorted.insertionSort_eq]
  cases limit with
  | none => exact ⟨i, m, rfl⟩
  | some n => exact ⟨i, min n m, by simp only [List.take_take]⟩

theorem AuditLog.Honest.single (h : log.Honest sha256 tenantId) {i : ℕ} {r : AuditLogRow}
    (hr : (log.appended tenantId)[i]? = some r) :
    auditQueryChainRange log ⟨tenantId, some (i + 1), some (i + 1), some 1⟩ = [r] := by
  have hmem := List.mem_of_getElem? hr
  have hseq := (HashChain.linked_iff_getElem.1 h.linked i r hr).1
  obtain ⟨n, hn⟩ := Option.isSome_iff_exists.1 (h.isSome r hmem)
  rw [AuditLog.appended, List.mem_filter, decide_eq_true_eq] at hmem
  refine AuditLog.auditQueryChainRange_single.2 ⟨hmem.1, hmem.2, ?_⟩
  simp only [rowChain, hn, Option.getD_some] at hseq
  rw [hn, hseq, add_comm]

/-- **Every range of an honest chain verifies**: the walk is seeded from the row in front of the
range, whatever the range. -/
theorem AuditLog.Honest.verifies (h : log.Honest sha256 tenantId)
    (options : VerifyAuditChainOptions) :
    (verifyAuditChain sha256 d log tenantId options).ok = true := by
  obtain ⟨i, m, hrange⟩ := h.range options.fromSeq options.toSeq options.limit
  rw [verifyAuditChain, hrange, verifyChain_ok_iff]
  rcases hseg : ((log.appended tenantId).drop i).take m with _ | ⟨r, rest⟩
  · exact HashChain.linked_nil
  have hsome : ∀ r ∈ ((log.appended tenantId).drop i).take m, r.chain_seq.isSome := fun r hr =>
    h.isSome r (List.mem_of_mem_drop (List.mem_of_mem_take hr))
  have hlt : i < (log.appended tenantId).length := by
    by_contra hge
    rw [List.drop_eq_nil_of_le (by omega)] at hseg
    simp at hseg
  have hl := (h.linked.drop i).take m
  rw [List.length_take_of_le hlt.le] at hl
  -- the first row of the range is seen by the walk, under the number after the `i` rows before it
  have hfirst : ∀ hash, (rowChain sha256).tip (some GENESIS_HASH)
        ((log.appended tenantId).take i) = some hash →
      ∃ v vs, (r :: rest).filterMap (AuditLogRow.verifiable d) = v :: vs ∧ v.chainSeq = 1 + i ∧
        (auditChain sha256).Linked (1 + i) hash (v :: vs) := by
    intro hash htip
    rw [htip, hseg] at hl
    rw [hseg] at hsome
    have hlv := linked_filterMap (d := d) hsome hl
    obtain ⟨n, hn⟩ := Option.isSome_iff_exists.1 (hsome r (by simp))
    obtain ⟨-, hprev, hhash, -⟩ := hl
    simp only [rowChain] at hprev hhash
    rw [hprev, Option.map_some] at hhash
    have hv : r.verifiable d = some ⟨r.hashInput n hash, n, hash, _, rfl, rfl⟩ :=
      AuditLogRow.verifiable_eq_some.2 ⟨hn, hprev, by rw [hhash], rfl⟩
    rw [List.filterMap_cons_some hv] at hlv
    exact ⟨_, _, List.filterMap_cons_some hv, hlv.1, hlv⟩
  cases i with
  | zero =>
    obtain ⟨v, vs, hrows, hseq, hlv⟩ := hfirst GENESIS_HASH rfl
    rw [hrows]
    have hv : ¬ v.chainSeq > 1 := by simp [hseq]
    simpa [verifyStart, hv] using hlv
  | succ i =>
    obtain ⟨p, hp⟩ : ∃ p, (log.appended tenantId)[i]? = some p :=
      ⟨_, List.getElem?_eq_getElem (Nat.lt_of_succ_lt hlt)⟩
    have htip := HashChain.tip_take_succ (c := rowChain sha256) (h := some GENESIS_HASH) hp
    obtain ⟨hash, hhash⟩ := exists_record_hash h.linked (List.mem_of_getElem? hp)
    obtain ⟨v, vs, hrows, hseq, hlv⟩ := hfirst hash (htip.trans hhash)
    rw [hrows]
    have hv : v.chainSeq > 1 := by
      rw [hseq]
      push_cast
      omega
    have hpred : auditQueryChainRange log
        ⟨tenantId, some (v.chainSeq - 1), some (v.chainSeq - 1), some 1⟩ = [p] := by
      have hv1 : v.chainSeq - 1 = (i : ℤ) + 1 := by
        rw [hseq]
        push_cast
        ring
      rw [hv1]
      exact h.single hp
    simp only [verifyStart, hv, if_true, hpred, hhash, Option.getD_some]
    rwa [hseq]

end Honest

/-! ## Growing a log -/

section Grow

variable {sha256 : String → String} {d : Dialect} {log : AuditLog} {c : AuditCall}

theorem AuditLog.Honest.tail {tenantId : String} (h : log.Honest sha256 tenantId) :
    auditQueryChainTail log tenantId = (log.appended tenantId).getLast? := by
  have hfilter : log.rows.filter
      (fun r => (⟨tenantId, none, none, none⟩ : AuditChainRangeParams).Selects r) =
      log.appended tenantId := by
    refine List.filter_congr fun r hr => ?_
    rw [decide_eq_decide]
    constructor
    · exact fun hs => hs.1
    · exact fun ht => ⟨ht, h.isSome r (List.mem_filter.2 ⟨hr, by simpa using ht⟩),
        by simp, by simp⟩
  rw [auditQueryChainTail, AuditLog.chainRows, auditQueryChainRange, hfilter,
    h.pairwise.insertionSort_eq]

/-- What the end of an honest chain reads: the number of rows, as the driver hands it over, and the
hash they end in. -/
theorem AuditLog.Honest.readChainTail {tenantId : String} (h : log.Honest sha256 tenantId) :
    readChainTail d log tenantId =
      ⟨if log.appended tenantId = [] then .num 0 else d.bigint (log.appended tenantId).length,
        (rowChain sha256).tip (some GENESIS_HASH) (log.appended tenantId)⟩ := by
  rw [ChronoSynth.readChainTail, h.tail]
  rcases List.eq_nil_or_concat' (log.appended tenantId) with hnil | ⟨rs, r, hrs⟩
  · simp [hnil]
  · have hlast : (log.appended tenantId)[rs.length]? = some r := by simp [hrs]
    have hseq := (HashChain.linked_iff_getElem.1 h.linked _ _ hlast).1
    simp only [rowChain] at hseq
    rw [hrs, List.getLast?_append_of_ne_nil _ (by simp), List.getLast?_singleton]
    simp [rowChain, hseq, add_comm]

/-- An append whose number is a number — because the tenant has no row yet, or the driver hands
numbers over as numbers — extends an honest chain by the call's row. -/
theorem AuditLog.Honest.apply (h : log.Honest sha256 c.tenantId)
    (hnum : d = .sqlite ∨ log.appended c.tenantId = [])
    (hid : c.id ∉ log.rows.map AuditLogRow.id) :
    ∃ log' r, c.apply sha256 d log = some log' ∧ log'.rows = log.rows ++ [r] ∧
      r.id = c.id ∧ r.tenant_id = c.tenantId ∧
      r.chain_seq = some ((log.appended c.tenantId).length + 1 : ℤ) ∧
      log'.Honest sha256 c.tenantId := by
  obtain ⟨n, hn⟩ : ∃ n : ℤ, n = (log.appended c.tenantId).length := ⟨_, rfl⟩
  rw [← hn]
  set tail := ChronoSynth.readChainTail d log c.tenantId with htail
  have hplus : tail.seq.plusOne = .num (n + 1) := by
    rw [htail, h.readChainTail]
    split_ifs with hnil
    · simp [SqlInt.plusOne, hn, hnil]
    · rcases hnum with rfl | hnil'
      · rw [hn]
        rfl
      · exact absurd hnil' hnil
  have hhash : tail.hash = (rowChain sha256).tip (some GENESIS_HASH) (log.appended c.tenantId) := by
    rw [htail, h.readChainTail]
  obtain ⟨p, hp⟩ : ∃ p, tail.hash = some p := by
    rcases List.eq_nil_or_concat' (log.appended c.tenantId) with hnil | ⟨rs, r, hrs⟩
    · exact ⟨GENESIS_HASH, by rw [hhash, hnil]; rfl⟩
    · obtain ⟨p, hp⟩ := exists_record_hash h.linked (r := r) (by simp [hrs])
      exact ⟨p, by rw [hhash, hrs, HashChain.tip_append]; exact hp⟩
  set r := c.row sha256 tail (n + 1) with hr
  have hacc : log.Accepts r := by
    refine ⟨by rwa [hr, AuditCall.row_id], fun x hx hsome hten heq => ?_⟩
    rw [hr, AuditCall.row_tenant_id] at hten
    have hmem : x ∈ log.appended c.tenantId := List.mem_filter.2 ⟨hx, by simpa using hten⟩
    have hlt := h.linked.seq_lt hmem
    simp only [rowChain, heq, hr, AuditCall.row_chain_seq, Option.getD_some] at hlt
    omega
  obtain ⟨log', hins⟩ : ∃ log', log.insert r = some log' := ⟨_, dif_pos hacc⟩
  refine ⟨log', r, ?_, (AuditLog.insert_eq_some.1 hins).2, AuditCall.row_id,
    AuditCall.row_tenant_id, AuditCall.row_chain_seq, ?_⟩
  · rw [AuditCall.apply_eq, ← htail, hplus]
    exact hins
  · have happ := AuditLog.appended_insert hins c.tenantId
    rw [if_pos (by rw [hr, AuditCall.row_tenant_id])] at happ
    refine ⟨fun x hx => ?_, ?_⟩
    · rw [happ, List.mem_append, List.mem_singleton] at hx
      rcases hx with hx | rfl
      · exact h.isSome x hx
      · simp [hr]
    · rw [happ, HashChain.linked_append]
      refine ⟨h.linked, ?_, ?_, ?_, HashChain.linked_nil⟩
      · simp [rowChain, hr, hn, add_comm]
      · simp only [rowChain, hr, AuditCall.row_prev_hash]
        exact hhash
      · simp only [rowChain, hr, AuditCall.row_prev_hash, AuditCall.row_chain_seq, hp,
          Option.map_some, Option.getD_some]
        exact AuditCall.row_record_hash hplus hp

/-- What a log grown by the calls `calls` is like: each tenant's rows form an honest chain and are
those of the tenant's calls. -/
structure GrownBy (sha256 : String → String) (calls : List AuditCall) (log : AuditLog) : Prop where
  honest : ∀ tenantId, log.Honest sha256 tenantId
  ids : ∀ tenantId, (log.appended tenantId).map AuditLogRow.id =
    (calls.filter fun c => c.tenantId = tenantId).map AuditCall.id

theorem GrownBy.empty : GrownBy sha256 [] AuditLog.empty where
  honest _ := ⟨by simp [AuditLog.appended, AuditLog.empty], HashChain.linked_nil⟩
  ids _ := rfl

variable {calls : List AuditCall}

theorem GrownBy.mem_ids (h : GrownBy sha256 calls log) {id : String}
    (hid : id ∈ log.rows.map AuditLogRow.id) : id ∈ calls.map AuditCall.id := by
  obtain ⟨r, hr, rfl⟩ := List.mem_map.1 hid
  have hmem : r.id ∈ (log.appended r.tenant_id).map AuditLogRow.id :=
    List.mem_map_of_mem (List.mem_filter.2 ⟨hr, by simp⟩)
  rw [h.ids] at hmem
  obtain ⟨c, hc, hcid⟩ := List.mem_map.1 hmem
  exact List.mem_map.2 ⟨c, List.mem_of_mem_filter hc, hcid⟩

theorem GrownBy.appended_eq_nil (h : GrownBy sha256 calls log) {tenantId : String} :
    log.appended tenantId = [] ↔ tenantId ∉ calls.map AuditCall.tenantId := by
  have hids := h.ids tenantId
  constructor
  · intro hnil hmem
    obtain ⟨c, hc, rfl⟩ := List.mem_map.1 hmem
    have : c ∈ calls.filter fun c' => c'.tenantId = c.tenantId :=
      List.mem_filter.2 ⟨hc, by simp⟩
    rw [hnil, List.map_nil] at hids
    rw [List.map_eq_nil_iff.1 hids.symm] at this
    simp at this
  · intro hmem
    have hfil : (calls.filter fun c => c.tenantId = tenantId) = [] := by
      refine List.filter_eq_nil_iff.2 fun c hc ht => hmem ?_
      exact List.mem_map.2 ⟨c, hc, by simpa using ht⟩
    rw [hfil] at hids
    exact List.map_eq_nil_iff.1 hids

theorem GrownBy.auditStep (h : GrownBy sha256 calls log)
    (hnum : d = .sqlite ∨ c.tenantId ∉ calls.map AuditCall.tenantId)
    (hid : c.id ∉ calls.map AuditCall.id) :
    GrownBy sha256 (calls ++ [c]) (auditStep sha256 d log c) := by
  obtain ⟨log', r, happly, hrows, hrid, hrt, -, hhonest⟩ :=
    (h.honest c.tenantId).apply (d := d) (hnum.imp_right h.appended_eq_nil.2)
      (fun hmem => hid (h.mem_ids hmem))
  have hstep : ChronoSynth.auditStep sha256 d log c = log' := by
    rw [ChronoSynth.auditStep, happly, Option.getD_some]
  have happ : ∀ tenantId, log'.appended tenantId =
      log.appended tenantId ++ if c.tenantId = tenantId then [r] else [] := by
    intro tenantId
    rw [AuditLog.appended, hrows, List.filter_append]
    split_ifs with ht <;> simp [AuditLog.appended, hrt, ht]
  rw [hstep]
  refine ⟨fun tenantId => ?_, fun tenantId => ?_⟩
  · by_cases ht : c.tenantId = tenantId
    · subst ht
      exact hhonest
    · have heq := happ tenantId
      rw [if_neg ht, List.append_nil] at heq
      exact ⟨by rw [heq]; exact (h.honest tenantId).isSome,
        by rw [heq]; exact (h.honest tenantId).linked⟩
  · rw [happ, List.filter_append, List.map_append, List.map_append, h.ids]
    split_ifs with ht <;> simp [ht, hrid]

theorem grownBy_auditRun (hid : (calls.map AuditCall.id).Nodup)
    (hnum : d = .sqlite ∨ (calls.map AuditCall.tenantId).Nodup) :
    GrownBy sha256 calls (auditRun sha256 d calls) := by
  induction calls using List.reverseRecOn with
  | nil => exact GrownBy.empty
  | append_singleton calls c ih =>
    rw [List.map_append, List.map_singleton, List.nodup_append] at hid hnum
    rw [auditRun, run_snoc]
    refine (ih hid.1 (hnum.imp_right And.left)).auditStep (hnum.imp_right fun h hmem => ?_)
      (fun hmem => ?_)
    · exact h.2.2 _ hmem _ (by simp) rfl
    · exact hid.2.2 _ hmem _ (by simp) rfl

theorem GrownBy.numbered (h : GrownBy sha256 calls log) (tenantId : String) :
    (log.appended tenantId).map (fun r => (r.id, r.chain_seq)) =
      (((calls.filter fun c => c.tenantId = tenantId).map AuditCall.id).zipIdx 1).map
        fun p => (p.1, some (p.2 : ℤ)) := by
  rw [← h.ids]
  refine List.ext_getElem? fun i => ?_
  rcases hr : (log.appended tenantId)[i]? with _ | r
  · simp [hr]
  · have hseq := (HashChain.linked_iff_getElem.1 (h.honest tenantId).linked i r hr).1
    obtain ⟨n, hn⟩ :=
      Option.isSome_iff_exists.1 ((h.honest tenantId).isSome r (List.mem_of_getElem? hr))
    simp only [rowChain, hn, Option.getD_some] at hseq
    simp [hr, hn, hseq]

end Grow

/-! ## Exactly when appends and verification agree -/

section Agree

variable {sha256 : String → String} {d : Dialect} {calls : List AuditCall}

theorem postgres_second_append {log : AuditLog} {c : AuditCall} {r : AuditLogRow}
    (h : GrownBy sha256 calls log) (hid : c.id ∉ calls.map AuditCall.id)
    (hone : log.appended c.tenantId = [r]) :
    ∃ r', (auditStep sha256 .postgres log c).appended c.tenantId = [r, r'] ∧
      r'.chain_seq = some 11 := by
  have hhonest := h.honest c.tenantId
  set tail := readChainTail .postgres log c.tenantId with htail
  have hcol : tail.seq.plusOne.column = some 11 := by
    have htext : (SqlInt.text (toString (1 : ℤ) ++ "1")).column = some 11 := by decide
    rw [htail, hhonest.readChainTail, hone, if_neg (by simp), List.length_singleton]
    exact htext
  have hr1 : r.chain_seq = some 1 := by
    obtain ⟨n, hn⟩ := Option.isSome_iff_exists.1 (hhonest.isSome r (by simp [hone]))
    have hseq := (HashChain.linked_iff_getElem.1 hhonest.linked 0 r (by simp [hone])).1
    simp only [rowChain, hn, Option.getD_some] at hseq
    rw [hn, hseq]
    rfl
  have hacc : log.Accepts (c.row sha256 tail 11) := by
    refine ⟨fun hmem => hid (h.mem_ids (by simpa using hmem)), fun x hx _ hten heq => ?_⟩
    have hmem : x ∈ log.appended c.tenantId := List.mem_filter.2 ⟨hx, by simpa using hten⟩
    rw [hone, List.mem_singleton] at hmem
    rw [hmem, hr1, AuditCall.row_chain_seq] at heq
    exact absurd heq (by decide)
  obtain ⟨log', hins⟩ : ∃ log', log.insert (c.row sha256 tail 11) = some log' :=
    ⟨_, dif_pos hacc⟩
  have happly : c.apply sha256 .postgres log = some log' := by
    rw [AuditCall.apply_eq, ← htail, hcol]
    exact hins
  refine ⟨c.row sha256 tail 11, ?_, AuditCall.row_chain_seq⟩
  rw [auditStep, happly, Option.getD_some, AuditLog.appended_insert hins, hone,
    if_pos AuditCall.row_tenant_id]
  rfl

theorem AppendsVerify.restrict {pre : List AuditCall} (h : AppendsVerify sha256 d calls)
    (hp : pre <+: calls) : AppendsVerify sha256 d pre where
  verifies pre' hpre := h.verifies pre' (hpre.trans hp)
  numbered pre' hpre := h.numbered pre' (hpre.trans hp)
  isolated pre' c hpre := h.isolated pre' c (hpre.trans hp)

/-- On PostgreSQL a log agrees only as long as no tenant is appended to twice: by induction on the
calls, the last of which must not name a tenant that has a row. -/
theorem AppendsVerify.nodup (hid : (calls.map AuditCall.id).Nodup)
    (h : AppendsVerify sha256 .postgres calls) : (calls.map AuditCall.tenantId).Nodup := by
  induction calls using List.reverseRecOn with
  | nil => exact List.nodup_nil
  | append_singleton calls c ih =>
    have hids := hid
    rw [List.map_append, List.map_singleton, List.nodup_append] at hids
    have hcid : c.id ∉ calls.map AuditCall.id := fun hmem => hids.2.2 _ hmem _ (by simp) rfl
    have hnodup := ih hids.1 (h.restrict (List.prefix_append _ _))
    have hgrown : GrownBy sha256 calls (auditRun sha256 .postgres calls) :=
      grownBy_auditRun hids.1 (.inr hnodup)
    rw [List.map_append, List.map_singleton, List.nodup_append]
    refine ⟨hnodup, List.nodup_singleton _, ?_⟩
    rintro t ht _ hc rfl
    obtain rfl := List.mem_singleton.1 hc
    -- the tenant has exactly one row so far
    obtain ⟨c₀, hc₀, hten⟩ := List.mem_map.1 ht
    have hfil : (calls.filter fun c' => c'.tenantId = c.tenantId) = [c₀] := by
      rw [← hten]
      exact filter_key_eq_singleton hnodup hc₀
    have hlen := congrArg List.length (hgrown.ids c.tenantId)
    rw [hfil, List.length_map] at hlen
    obtain ⟨r, hr⟩ := List.length_eq_one_iff.1 hlen
    obtain ⟨r', happ, hseq⟩ := postgres_second_append hgrown hcid hr
    have hnum := h.numbered _ (List.prefix_refl _) c.tenantId
    rw [auditRun, run_snoc, happ, List.filter_append, hfil] at hnum
    simp [hseq] at hnum

/-- A business event of one tenant. -/
def sampleCall (id : String) : AuditCall :=
  .business id 0 {
    tenantId := "t", actorType := .system, actorId := "s", actionType := "x", targetType := "y"
    targetId := "z", payload := none, requestId := none, createdAt := none }

end Agree

end ChronoSynth

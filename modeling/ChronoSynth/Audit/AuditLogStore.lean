import Mathlib.Data.List.Sort
import Mathlib.Data.List.Pairwise
import ChronoSynth.Audit.AuditHashChain

/-!
# The audit log: its table, appends and verification

* `AuditLog` — the table. Its two uniqueness constraints (the primary key, and the partial index on
  the tenant and the number) are fields, so a table that breaks them cannot be built; an insertion
  that would break them fails.
* `recordRequestAuditLog`, `recordBusinessAuditLog` — the two appends, `none` when the transaction
  fails and is rolled back. The chain lock of the tenant makes each of them one atomic step, so a
  call is a function of the table. The random id and the clock are arguments.
* `verifyAuditChain` — reading a tenant's rows back and walking them.

The two database engines differ in how they hand over the 64-bit column `chain_seq`: SQLite as a
number, PostgreSQL as text (`Dialect.bigint`). The code that reads the end of the chain adds one to
what it is handed; the code that verifies converts it first.
-/

namespace ChronoSynth

/-- The database engine behind the store. -/
inductive Dialect
  | sqlite | postgres
  deriving DecidableEq, Repr

/-- How the engine's driver hands over a 64-bit column. -/
def Dialect.bigint : Dialect → ℤ → SqlInt
  | .sqlite, n => .num n
  | .postgres, n => .text (toString n)

/-- What storing a value in a 64-bit column stores: PostgreSQL parses a text, and refuses one that
is out of range. -/
def SqlInt.column : SqlInt → Option ℤ
  | .num n => some n
  | .text s =>
    let n := (SqlInt.text s).number
    if -2 ^ 63 ≤ n ∧ n < 2 ^ 63 then some n else none

/-- A row of the table `audit_log`. -/
structure AuditLogRow where
  id : String
  tenant_id : String
  event_kind : String
  timestamp : ℤ
  created_at : ℤ
  method : String
  path : String
  request_id : String
  status_code : ℤ
  latency_ms : JsNumber
  api_key_hash : Option String
  user_id : Option String
  user_email : Option String
  actor_type : Option String
  actor_id : Option String
  action_type : Option String
  target_type : Option String
  target_id : Option String
  payload_json : Option String
  /-- The row's number in its tenant's chain; null on rows older than the chain. -/
  chain_seq : Option ℤ
  prev_hash : Option String
  record_hash : Option String
  deriving DecidableEq

/-- Two rows that the unique index on the tenant and the number keeps apart. -/
def AuditLogRow.Apart (a b : AuditLogRow) : Prop :=
  a.chain_seq ≠ none → a.tenant_id = b.tenant_id → a.chain_seq ≠ b.chain_seq

instance (a b : AuditLogRow) : Decidable (a.Apart b) :=
  inferInstanceAs (Decidable (_ → _ → _))

/-- The table, its rows in the order they were inserted. -/
structure AuditLog where
  rows : List AuditLogRow
  /-- The primary key. -/
  id_unique : (rows.map AuditLogRow.id).Nodup
  /-- The partial unique index on `(tenant_id, chain_seq)`. -/
  chain_unique : rows.Pairwise AuditLogRow.Apart

namespace AuditLog

/-- The empty table. -/
def empty : AuditLog := ⟨[], List.nodup_nil, List.Pairwise.nil⟩

/-- A row the constraints let in. -/
def Accepts (log : AuditLog) (row : AuditLogRow) : Prop :=
  row.id ∉ log.rows.map AuditLogRow.id ∧ ∀ r ∈ log.rows, r.Apart row

instance (log : AuditLog) (row : AuditLogRow) : Decidable (log.Accepts row) :=
  inferInstanceAs (Decidable (_ ∧ _))

/-- `INSERT INTO audit_log`. -/
def insert (log : AuditLog) (row : AuditLogRow) : Option AuditLog :=
  if h : log.Accepts row then
    some {
      rows := log.rows ++ [row]
      id_unique := by
        rw [List.map_append, List.map_singleton]
        exact List.nodup_append.2 ⟨log.id_unique, List.nodup_singleton _, fun a ha b hb hab =>
          h.1 (List.mem_singleton.1 hb ▸ hab ▸ ha)⟩
      chain_unique := List.pairwise_append.2
        ⟨log.chain_unique, List.pairwise_singleton _ _, fun a ha b hb =>
          List.mem_singleton.1 hb ▸ h.2 a ha⟩ }
  else none

end AuditLog

/-! ## Queries -/

/-- The order `ORDER BY chain_seq ASC` puts rows in. -/
def AuditLogRow.seqLE (a b : AuditLogRow) : Prop := a.chain_seq.getD 0 ≤ b.chain_seq.getD 0

instance : DecidableRel AuditLogRow.seqLE := fun _ _ => inferInstanceAs (Decidable (_ ≤ _))

instance : Std.Total AuditLogRow.seqLE := ⟨fun _ _ => le_total (α := ℤ) _ _⟩

instance : IsTrans AuditLogRow AuditLogRow.seqLE := ⟨fun _ _ _ => le_trans (α := ℤ)⟩

/-- What `auditQueryChainRange` asks for. -/
structure AuditChainRangeParams where
  tenantId : String
  fromSeq : Option ℤ
  toSeq : Option ℤ
  limit : Option ℕ

def AuditChainRangeParams.Selects (p : AuditChainRangeParams) (r : AuditLogRow) : Prop :=
  r.tenant_id = p.tenantId ∧ r.chain_seq.isSome ∧
    (∀ lo ∈ p.fromSeq, lo ≤ r.chain_seq.getD 0) ∧ ∀ hi ∈ p.toSeq, r.chain_seq.getD 0 ≤ hi

instance (p : AuditChainRangeParams) : DecidablePred p.Selects :=
  fun _ => inferInstanceAs (Decidable (_ ∧ _ ∧ _ ∧ _))

/-- `AUDIT_QUERY_CHAIN_RANGE`: the numbered rows of a tenant in a range, in ascending order. -/
def auditQueryChainRange (log : AuditLog) (p : AuditChainRangeParams) : List AuditLogRow :=
  let rows := (log.rows.filter (fun r => p.Selects r)).insertionSort AuditLogRow.seqLE
  match p.limit with
  | none => rows
  | some n => rows.take n

/-- All numbered rows of a tenant, in ascending order. -/
def AuditLog.chainRows (log : AuditLog) (tenantId : String) : List AuditLogRow :=
  auditQueryChainRange log ⟨tenantId, none, none, none⟩

/-- `AUDIT_QUERY_CHAIN_TAIL`: the numbered row of a tenant that comes last. -/
def auditQueryChainTail (log : AuditLog) (tenantId : String) : Option AuditLogRow :=
  (log.chainRows tenantId).getLast?

/-! ## Appending -/

/-- The end of a chain, as an append reads it. -/
structure ChainTail where
  seq : SqlInt
  hash : Option String

/-- Read the end of a tenant's chain. The number is what the driver hands over. -/
def readChainTail (d : Dialect) (log : AuditLog) (tenantId : String) : ChainTail :=
  match auditQueryChainTail log tenantId with
  | none => ⟨.num 0, some GENESIS_HASH⟩
  | some row => ⟨d.bigint (row.chain_seq.getD 0), row.record_hash⟩

/-- The kinds of actor. -/
inductive AuditActorType
  | user | api_key | system
  deriving DecidableEq, Repr

def AuditActorType.text : AuditActorType → String
  | user => "user"
  | api_key => "api_key"
  | system => "system"

/-- What a request leaves in the log. -/
structure RequestAuditInput where
  tenantId : String
  requestId : String
  method : String
  path : String
  statusCode : ℤ
  latencyMs : JsNumber
  apiKey : Option String
  userId : Option String
  userEmail : Option String
  actorType : Option AuditActorType
  actorId : Option String
  actionType : String
  payload : Option (List (String × Json))
  createdAt : Option ℤ

/-- What a business event leaves in the log. -/
structure BusinessAuditInput where
  tenantId : String
  actorType : AuditActorType
  actorId : String
  actionType : String
  targetType : String
  targetId : String
  payload : Option (List (String × Json))
  requestId : Option String
  createdAt : Option ℤ

section Append

variable (sha256 : String → String) (d : Dialect)

/-- The fingerprint kept of an API key; none of a missing or empty one. -/
def hashApiKey (apiKey : Option String) : Option String :=
  match apiKey with
  | none => none
  | some key => if key = "" then none else some (String.ofList ((sha256 key).toList.take 16))

/-- The payload as it is stored. -/
def payloadText (payload : Option (List (String × Json))) : Option String :=
  payload.map fun members => (Json.obj members).stringify

/-- What `auditCmdRecordRequest` binds. -/
structure AuditRecordRequestParams where
  id : String
  tenantId : String
  createdAt : ℤ
  method : String
  path : String
  requestId : String
  statusCode : ℤ
  latencyMs : JsNumber
  apiKeyHash : Option String
  userId : Option String
  userEmail : Option String
  actorType : Option String
  actorId : Option String
  actionType : String
  payloadJson : Option String
  chainSeq : SqlInt
  prevHash : Option String
  recordHash : String

/-- `AUDIT_CMD_RECORD_REQUEST`. -/
def auditCmdRecordRequest (log : AuditLog) (p : AuditRecordRequestParams) : Option AuditLog := do
  let chainSeq ← p.chainSeq.column
  log.insert {
    id := p.id, tenant_id := p.tenantId, event_kind := "request"
    timestamp := p.createdAt, created_at := p.createdAt
    method := p.method, path := p.path, request_id := p.requestId
    status_code := p.statusCode, latency_ms := p.latencyMs
    api_key_hash := p.apiKeyHash, user_id := p.userId, user_email := p.userEmail
    actor_type := p.actorType, actor_id := p.actorId, action_type := some p.actionType
    target_type := none, target_id := none, payload_json := p.payloadJson
    chain_seq := some chainSeq, prev_hash := p.prevHash, record_hash := some p.recordHash }

/-- What `auditCmdRecordBusiness` binds. -/
structure AuditRecordBusinessParams where
  id : String
  tenantId : String
  createdAt : ℤ
  path : String
  requestId : String
  userId : Option String
  actorType : String
  actorId : String
  actionType : String
  targetType : String
  targetId : String
  payloadJson : Option String
  chainSeq : SqlInt
  prevHash : Option String
  recordHash : String

/-- `AUDIT_CMD_RECORD_BUSINESS`. -/
def auditCmdRecordBusiness (log : AuditLog) (p : AuditRecordBusinessParams) : Option AuditLog := do
  let chainSeq ← p.chainSeq.column
  log.insert {
    id := p.id, tenant_id := p.tenantId, event_kind := "business"
    timestamp := p.createdAt, created_at := p.createdAt
    method := "EVENT", path := p.path, request_id := p.requestId
    status_code := 200, latency_ms := (0 : ℤ)
    api_key_hash := none, user_id := p.userId, user_email := none
    actor_type := some p.actorType, actor_id := some p.actorId, action_type := some p.actionType
    target_type := some p.targetType, target_id := some p.targetId, payload_json := p.payloadJson
    chain_seq := some chainSeq, prev_hash := p.prevHash, record_hash := some p.recordHash }

def recordRequestAuditLog (log : AuditLog) (id : String) (now : ℤ) (input : RequestAuditInput) :
    Option AuditLog :=
  let createdAt := input.createdAt.getD now
  let tail := readChainTail d log input.tenantId
  let chainSeq := tail.seq.plusOne
  let prevHash := tail.hash
  let payloadJson := payloadText input.payload
  let apiKeyHash := hashApiKey sha256 input.apiKey
  let latencyMs := input.latencyMs.roundHundredths
  let hashInput : AuditHashInput := {
    id := id, tenantId := input.tenantId, eventKind := "request", createdAt := createdAt
    chainSeq := chainSeq, prevHash := prevHash, method := input.method, path := input.path
    requestId := input.requestId, statusCode := input.statusCode, latencyMs := latencyMs
    apiKeyHash := apiKeyHash, userId := input.userId, userEmail := input.userEmail
    actorType := input.actorType.map AuditActorType.text, actorId := input.actorId
    actionType := some input.actionType, targetType := none, targetId := none
    payloadJson := payloadJson }
  let recordHash := computeRecordHash sha256 hashInput
  auditCmdRecordRequest log {
    id := id, tenantId := input.tenantId, createdAt := createdAt, method := input.method
    path := input.path, requestId := input.requestId, statusCode := input.statusCode
    latencyMs := latencyMs, apiKeyHash := apiKeyHash, userId := input.userId
    userEmail := input.userEmail, actorType := input.actorType.map AuditActorType.text
    actorId := input.actorId, actionType := input.actionType, payloadJson := payloadJson
    chainSeq := chainSeq, prevHash := prevHash, recordHash := recordHash }

/-- Append the record of a business event. The id is what the caller is told. -/
def recordBusinessAuditLog (log : AuditLog) (id : String) (now : ℤ) (input : BusinessAuditInput) :
    Option AuditLog :=
  let createdAt := input.createdAt.getD now
  let tail := readChainTail d log input.tenantId
  let chainSeq := tail.seq.plusOne
  let prevHash := tail.hash
  let path := "/audit/business/" ++ input.actionType
  let requestId := input.requestId.getD ("audit:" ++ id)
  let payloadJson := payloadText input.payload
  let userId := if input.actorType = .user then some input.actorId else none
  let hashInput : AuditHashInput := {
    id := id, tenantId := input.tenantId, eventKind := "business", createdAt := createdAt
    chainSeq := chainSeq, prevHash := prevHash, method := "EVENT", path := path
    requestId := requestId, statusCode := 200, latencyMs := (0 : ℤ)
    apiKeyHash := none, userId := userId, userEmail := none
    actorType := some input.actorType.text, actorId := some input.actorId
    actionType := some input.actionType, targetType := some input.targetType
    targetId := some input.targetId, payloadJson := payloadJson }
  let recordHash := computeRecordHash sha256 hashInput
  auditCmdRecordBusiness log {
    id := id, tenantId := input.tenantId, createdAt := createdAt, path := path
    requestId := requestId, userId := userId, actorType := input.actorType.text
    actorId := input.actorId, actionType := input.actionType, targetType := input.targetType
    targetId := input.targetId, payloadJson := payloadJson
    chainSeq := chainSeq, prevHash := prevHash, recordHash := recordHash }

end Append

/-! ## Verifying -/

section Verify

variable (sha256 : String → String) (d : Dialect)

/-- The hashed fields of a row, given its number and its previous hash. -/
def AuditLogRow.hashInput (r : AuditLogRow) (chainSeq : ℤ) (prevHash : String) :
    AuditHashInput where
  id := r.id
  tenantId := r.tenant_id
  eventKind := r.event_kind
  createdAt := r.created_at
  chainSeq := .num chainSeq
  prevHash := some prevHash
  method := r.method
  path := r.path
  requestId := r.request_id
  statusCode := r.status_code
  latencyMs := r.latency_ms
  apiKeyHash := r.api_key_hash
  userId := r.user_id
  userEmail := r.user_email
  actorType := r.actor_type
  actorId := r.actor_id
  actionType := r.action_type
  targetType := r.target_type
  targetId := r.target_id
  payloadJson := r.payload_json

/-- A row as the walk sees it; rows with a null number or a null hash are left out. -/
def AuditLogRow.verifiable (r : AuditLogRow) : Option VerifiableRow :=
  match r.chain_seq, r.prev_hash, r.record_hash with
  | some n, some prevHash, some recordHash =>
    let chainSeq := (d.bigint n).number
    some ⟨r.hashInput chainSeq prevHash, chainSeq, prevHash, recordHash, rfl, rfl⟩
  | _, _, _ => none

/-- The range a verification is asked for. -/
structure VerifyAuditChainOptions where
  fromSeq : Option ℤ := none
  toSeq : Option ℤ := none
  limit : Option ℕ := none

/-- Where the walk over `rows` starts: after the row before the first one, if there is one to ask;
else, if the caller named a first number, wherever that row says it is; else at the beginning. -/
def verifyStart (log : AuditLog) (tenantId : String) (options : VerifyAuditChainOptions)
    (rows : List VerifiableRow) : VerifyChainStart :=
  match rows with
  | [] => {}
  | first :: _ =>
    if first.chainSeq > 1 then
      let fallback : VerifyChainStart :=
        if options.fromSeq.isSome then
          { expectedSeq := some first.chainSeq, expectedPrev := some first.prevHash }
        else {}
      let predecessor := auditQueryChainRange log
        ⟨tenantId, some (first.chainSeq - 1), some (first.chainSeq - 1), some 1⟩
      match predecessor with
      | [p] =>
        match p.record_hash with
        | some h => { expectedSeq := some first.chainSeq, expectedPrev := some h }
        | none => fallback
      | _ => fallback
    else {}

def verifyAuditChain (log : AuditLog) (tenantId : String) (options : VerifyAuditChainOptions) :
    ChainVerifyResult :=
  let rows := auditQueryChainRange log ⟨tenantId, options.fromSeq, options.toSeq, options.limit⟩
  let verifiable := rows.filterMap (AuditLogRow.verifiable d)
  verifyChain sha256 verifiable (verifyStart log tenantId options verifiable)

end Verify

/-! ## What the driver hands over -/

theorem SqlInt.textValue_toString (n : ℤ) : SqlInt.textValue (toString n).toList = n := by
  rcases n with m | m
  · have hlist : (toString (Int.ofNat m)).toList = Nat.toDigits 10 m := by
      change (Nat.repr m).toList = _
      exact Nat.toList_repr
    rw [hlist, SqlInt.textValue.eq_2]
    · simp
    · -- no digit is a minus sign
      intro cs hcs
      have hdigit : Char.isDigit '-' = true :=
        Nat.isDigit_of_mem_toDigits (by decide : 0 < 10) (by decide) (n := m) (by rw [hcs]; simp)
      exact absurd hdigit (by decide)
  · have hlist : (toString (Int.negSucc m)).toList = '-' :: Nat.toDigits 10 (m + 1) := by
      change ("-" ++ Nat.repr (m + 1)).toList = _
      simp
    rw [hlist, SqlInt.textValue, Nat.ofDigitChars_ten_toDigits]
    omega

/-- Reading a number back through `Number` gives the number stored, under either engine. -/
@[simp] theorem Dialect.number_bigint (d : Dialect) (n : ℤ) : (d.bigint n).number = n := by
  cases d with
  | sqlite => rfl
  | postgres => exact SqlInt.textValue_toString n

/-- A row is left out of the walk exactly when a hash is missing. -/
theorem AuditLogRow.verifiable_eq_some {d : Dialect} {r : AuditLogRow} {v : VerifiableRow} :
    r.verifiable d = some v ↔
      r.chain_seq = some v.chainSeq ∧ r.prev_hash = some v.prevHash ∧
        r.record_hash = some v.recordHash ∧ v.input = r.hashInput v.chainSeq v.prevHash := by
  obtain ⟨input, n, p, h, hs, hp⟩ := v
  rcases hn : r.chain_seq with _ | n' <;> rcases hpr : r.prev_hash with _ | p' <;>
    rcases hrec : r.record_hash with _ | h' <;>
    simp only [AuditLogRow.verifiable, hn, hpr, hrec, Dialect.number_bigint, Option.some.injEq,
      VerifiableRow.mk.injEq, reduceCtorEq, false_and, and_false]
  constructor
  · rintro ⟨rfl, rfl, rfl, rfl⟩
    exact ⟨rfl, rfl, rfl, rfl⟩
  · rintro ⟨rfl, rfl, rfl, rfl⟩
    exact ⟨rfl, rfl, rfl, rfl⟩

/-! ## What the queries return -/

namespace AuditLog

variable {log : AuditLog} {tenantId : String} {r : AuditLogRow}

theorem mem_auditQueryChainRange {p : AuditChainRangeParams} (hp : p.limit = none) :
    r ∈ auditQueryChainRange log p ↔ r ∈ log.rows ∧ p.Selects r := by
  simp only [auditQueryChainRange, hp, List.mem_insertionSort, List.mem_filter, decide_eq_true_eq]

theorem mem_chainRows :
    r ∈ log.chainRows tenantId ↔ r ∈ log.rows ∧ r.tenant_id = tenantId ∧ r.chain_seq.isSome := by
  simp [chainRows, mem_auditQueryChainRange, AuditChainRangeParams.Selects]

theorem chainRows_pairwise : (log.chainRows tenantId).Pairwise AuditLogRow.seqLE :=
  List.pairwise_insertionSort _ _

instance : Std.Symm AuditLogRow.Apart :=
  ⟨fun _ _ h hb ht he => h (he ▸ hb) ht.symm he.symm⟩

theorem eq_of_chain_seq {a b : AuditLogRow} (ha : a ∈ log.rows) (hb : b ∈ log.rows)
    (ht : a.tenant_id = b.tenant_id) (hn : a.chain_seq ≠ none) (hs : a.chain_seq = b.chain_seq) :
    a = b := by
  by_contra hne
  exact log.chain_unique.forall ha hb hne hn ht hs

/-- Asking for one number returns the row that has it. -/
theorem auditQueryChainRange_single {n : ℤ} :
    auditQueryChainRange log ⟨tenantId, some n, some n, some 1⟩ = [r] ↔
      r ∈ log.rows ∧ r.tenant_id = tenantId ∧ r.chain_seq = some n := by
  set p : AuditChainRangeParams := ⟨tenantId, some n, some n, some 1⟩ with hp
  have hsel : ∀ x, p.Selects x ↔ x.tenant_id = tenantId ∧ x.chain_seq = some n := by
    intro x
    rcases hx : x.chain_seq with _ | m <;> simp [AuditChainRangeParams.Selects, hp, hx]
    omega
  have hmem : ∀ x, x ∈ log.rows.filter (fun x => p.Selects x) ↔
      x ∈ log.rows ∧ x.tenant_id = tenantId ∧ x.chain_seq = some n := by
    intro x
    rw [List.mem_filter, decide_eq_true_eq, hsel]
  rw [← hmem]
  change (List.insertionSort AuditLogRow.seqLE _).take 1 = [r] ↔ _
  constructor
  · intro h
    rw [← List.mem_insertionSort AuditLogRow.seqLE]
    exact List.mem_of_mem_take (h ▸ List.mem_singleton_self r)
  · intro h
    -- the number occurs once, so the selected rows are this one
    have hall : ∀ x ∈ log.rows.filter (fun x => p.Selects x), x = r := by
      intro x hx
      obtain ⟨hxr, hxt, hxs⟩ := (hmem x).1 hx
      obtain ⟨hr, hrt, hrs⟩ := (hmem r).1 h
      exact eq_of_chain_seq hxr hr (hxt.trans hrt.symm) (by simp [hxs]) (hxs.trans hrs.symm)
    have hnodup : (log.rows.filter (fun x => p.Selects x)).Nodup :=
      (List.Nodup.of_map _ log.id_unique).filter _
    rcases hl : log.rows.filter (fun x => p.Selects x) with _ | ⟨x, _ | ⟨y, l⟩⟩
    · rw [hl] at h
      simp at h
    · rw [hl] at hall
      obtain rfl := hall x (by simp)
      rfl
    · rw [hl] at hall hnodup
      have hx := hall x (by simp)
      have hy := hall y (by simp)
      simp [hx, hy] at hnodup

end AuditLog

end ChronoSynth

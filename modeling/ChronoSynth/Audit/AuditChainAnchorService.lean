import ChronoSynth.Audit.AppendVerify

/-!
# Anchoring the ends of the audit chains

`AuditChainAnchorService` has the end of every tenant's chain signed by an external key service and
keeps the signature as an **anchor**.

* `AnchorTable` — the table of anchors, its uniqueness constraints as fields.
* `anchorTenants` — a pass over the tenants up to the next call of the key service. The call is
  awaited, so a pass is suspended there (`AnchorPass`) and other steps come in between; what it read
  before the call it does not read again.
* `AnchorSystem.step` — the appends, the passes of one service and the answers of the key service as
  steps of one system. A pass that is under way turns a second one away.
* `Signing` — what the key service was asked to sign, noted with the rows of the tenant at that
  moment.

The flag that switches anchoring on is asked for each tenant and may change at any time. The table of
failed attempts is written and never read by the code here; it is left out.
-/

namespace ChronoSynth

/-- `PLATFORM_TENANT_PARTITION`. -/
def PLATFORM_TENANT_PARTITION : String := "platform"

/-- The name a tenant is signed under; rows of no tenant belong to the platform. -/
def normalizeAnchorTenantId (tenantId : String) : String :=
  if tenantId = "" then PLATFORM_TENANT_PARTITION else tenantId

/-- `AUDIT_ANCHOR_PAYLOAD_SCHEMA`. -/
def AUDIT_ANCHOR_PAYLOAD_SCHEMA : String := "chrono.audit-chain-anchor.v1"

/-- What is signed. -/
def buildAuditAnchorPayload (tenantId : String) (fromSeq toSeq : ℤ) (tailHash : String) : String :=
  Json.stringify (.obj [
    ("schema", .str AUDIT_ANCHOR_PAYLOAD_SCHEMA),
    ("tenantId", .str (normalizeAnchorTenantId tenantId)),
    ("fromSeq", .num fromSeq),
    ("toSeq", .num toSeq),
    ("tailHash", .str tailHash)])

/-- A row of the table `audit_chain_anchors`. -/
structure AuditChainAnchorRow where
  id : String
  tenant_id : String
  from_seq : ℤ
  to_seq : ℤ
  tail_hash : String
  signature : String
  key_id : String
  alg : String
  signed_at : ℤ
  deriving DecidableEq

/-- The key of the unique index of the table. -/
def AuditChainAnchorRow.key (a : AuditChainAnchorRow) : String × ℤ × String :=
  (a.tenant_id, a.to_seq, a.tail_hash)

/-- The table of anchors, in the order they were inserted. -/
structure AnchorTable where
  rows : List AuditChainAnchorRow
  /-- The primary key. -/
  id_unique : (rows.map AuditChainAnchorRow.id).Nodup
  /-- The unique index on `(tenant_id, to_seq, tail_hash)`. -/
  key_unique : (rows.map AuditChainAnchorRow.key).Nodup

namespace AnchorTable

def empty : AnchorTable := ⟨[], List.nodup_nil, List.nodup_nil⟩

/-- `INSERT INTO audit_chain_anchors … ON CONFLICT DO NOTHING`: `none` when it throws, else the
table and whether a row was inserted. -/
def insertAnchor (t : AnchorTable) (row : AuditChainAnchorRow) : Option (AnchorTable × Bool) :=
  if hid : row.id ∈ t.rows.map AuditChainAnchorRow.id then none
  else if hkey : row.key ∈ t.rows.map AuditChainAnchorRow.key then some (t, false)
  else some (
    { rows := t.rows ++ [row]
      id_unique := by
        rw [List.map_append, List.map_singleton]
        exact List.nodup_append.2 ⟨t.id_unique, List.nodup_singleton _, fun a ha b hb hab =>
          hid (List.mem_singleton.1 hb ▸ hab ▸ ha)⟩
      key_unique := by
        rw [List.map_append, List.map_singleton]
        exact List.nodup_append.2 ⟨t.key_unique, List.nodup_singleton _, fun a ha b hb hab =>
          hkey (List.mem_singleton.1 hb ▸ hab ▸ ha)⟩ }, true)

def ofTenant (t : AnchorTable) (tenantId : String) : List AuditChainAnchorRow :=
  t.rows.filter fun a => a.tenant_id = tenantId

end AnchorTable

/-- The order `ORDER BY to_seq ASC` puts anchors in. -/
def AuditChainAnchorRow.seqLE (a b : AuditChainAnchorRow) : Prop := a.to_seq ≤ b.to_seq

instance : DecidableRel AuditChainAnchorRow.seqLE := fun _ _ => inferInstanceAs (Decidable (_ ≤ _))

instance : Std.Total AuditChainAnchorRow.seqLE := ⟨fun _ _ => le_total (α := ℤ) _ _⟩

instance : IsTrans AuditChainAnchorRow AuditChainAnchorRow.seqLE :=
  ⟨fun _ _ _ => le_trans (α := ℤ)⟩

/-- The anchors of a tenant by their last number. -/
def AnchorTable.sorted (t : AnchorTable) (tenantId : String) : List AuditChainAnchorRow :=
  (t.ofTenant tenantId).insertionSort AuditChainAnchorRow.seqLE

/-! ## Reading -/

/-- A number of a chain and its hash. -/
structure SeqRow where
  chain_seq : ℤ
  record_hash : String
  deriving DecidableEq

/-- The columns read of a row that has both. -/
def AuditLogRow.seqRow (r : AuditLogRow) : Option SeqRow :=
  match r.chain_seq, r.record_hash with
  | some n, some h => some ⟨n, h⟩
  | _, _ => none

/-- The numbered and hashed rows of a tenant, in ascending order. -/
def AuditLog.seqRows (log : AuditLog) (tenantId : String) : List SeqRow :=
  (log.chainRows tenantId).filterMap AuditLogRow.seqRow

/-- The end of a tenant's chain. -/
def getTail (log : AuditLog) (tenantId : String) : Option SeqRow := (log.seqRows tenantId).getLast?

def getFirstSeqNumber (d : Dialect) (log : AuditLog) (tenantId : String) : Option ℤ :=
  (log.seqRows tenantId).head?.map fun row => (d.bigint row.chain_seq).number

/-- The anchor of a tenant that reaches furthest. -/
def getLatestAnchor (anchors : AnchorTable) (tenantId : String) : Option AuditChainAnchorRow :=
  (anchors.sorted tenantId).getLast?

/-- The tenants that have a chain. -/
def anchorTenantIds (log : AuditLog) : List String :=
  ((log.rows.filter fun r => r.chain_seq.isSome).map AuditLogRow.tenant_id).dedup.insertionSort
    (· ≤ ·)

/-! ## The key service -/

/-- A signature as it is stored, the bytes in base64. -/
structure KmsSignature where
  keyId : String
  signature : String
  alg : String
  deriving DecidableEq

/-- What a call that verifies a signature ends in. -/
inductive VerifyOutcome
  | verified | refused | threw
  deriving DecidableEq, Repr

/-- A function that verifies a signature: the payload, the signature, the key and the algorithm. -/
abbrev KmsVerify := String → String → String → String → VerifyOutcome

/-- The key service. Signing may use fresh randomness. -/
structure AuditChainKmsProvider where
  sign : String → ℕ → KmsSignature
  verify : KmsVerify

/-- The service verifies what it has signed. -/
def AuditChainKmsProvider.Correct (kms : AuditChainKmsProvider) : Prop :=
  ∀ payload k, kms.verify payload (kms.sign payload k).signature (kms.sign payload k).keyId
    (kms.sign payload k).alg = .verified

/-! ## A pass -/

/-- An anchor that waits for its signature. -/
structure PendingAnchor where
  tenantId : String
  fromSeq : ℤ
  toSeq : ℤ
  tailHash : String
  deriving DecidableEq

/-- What is signed for it. -/
def PendingAnchor.payload (p : PendingAnchor) : String :=
  buildAuditAnchorPayload p.tenantId p.fromSeq p.toSeq p.tailHash

/-- An anchor made by a pass. -/
structure Anchored where
  tenantId : String
  toSeq : ℤ
  keyId : String

/-- What a pass returns. -/
structure TriggerResult where
  anchored : List Anchored := []
  skipped : ℕ := 0

/-- A pass suspended at a call of the key service. -/
structure AnchorPass where
  pending : PendingAnchor
  /-- The tenants still to come. -/
  rest : List String
  result : TriggerResult

/-- How far a pass got. -/
inductive PassState
  | awaiting (pass : AnchorPass)
  | finished (result : TriggerResult)

/-- The anchor a tenant lacks, if it lacks one. -/
def pendingAnchor (d : Dialect) (log : AuditLog) (anchors : AnchorTable) (tenantId : String) :
    Option PendingAnchor := do
  let tail ← getTail log tenantId
  let toSeq := (d.bigint tail.chain_seq).number
  match getLatestAnchor anchors tenantId with
  | some latest =>
    if latest.to_seq ≥ toSeq then none
    else some ⟨tenantId, latest.to_seq + 1, toSeq, tail.record_hash⟩
  | none =>
    let fromSeq ← getFirstSeqNumber d log tenantId
    some ⟨tenantId, fromSeq, toSeq, tail.record_hash⟩

/-- The loop of `anchorPendingTails`, up to the next call of the key service. -/
def anchorTenants (d : Dialect) (isEnabled : String → Bool) (log : AuditLog)
    (anchors : AnchorTable) : List String → TriggerResult → PassState
  | [], result => .finished result
  | tenantId :: rest, result =>
    if isEnabled (normalizeAnchorTenantId tenantId) then
      match pendingAnchor d log anchors tenantId with
      | none => anchorTenants d isEnabled log anchors rest result
      | some pending => .awaiting ⟨pending, rest, result⟩
    else
      anchorTenants d isEnabled log anchors rest { result with skipped := result.skipped + 1 }

/-- The key service's answer, with the random id and the time of the anchor it leads to. -/
structure KmsAnswer where
  nonce : ℕ
  id : String
  signedAt : ℤ

def PendingAnchor.row (kms : AuditChainKmsProvider) (p : PendingAnchor) (answer : KmsAnswer) :
    AuditChainAnchorRow :=
  let signed := kms.sign p.payload answer.nonce
  { id := answer.id, tenant_id := p.tenantId, from_seq := p.fromSeq, to_seq := p.toSeq
    tail_hash := p.tailHash, signature := signed.signature, key_id := signed.keyId
    alg := signed.alg, signed_at := answer.signedAt }

/-! ## The system -/

/-- The two tables and the service. -/
structure AnchorSystem where
  log : AuditLog
  anchors : AnchorTable
  /-- The pass under way. -/
  running : Option AnchorPass

/-- The steps of the system. -/
inductive AnchorEvent
  /-- A record is appended. -/
  | append (call : AuditCall)
  /-- `triggerOnce` is called. -/
  | trigger (isEnabled : String → Bool)
  /-- The key service answers the call under way, or the call fails. -/
  | answered (answer : Option KmsAnswer) (isEnabled : String → Bool)

namespace AnchorSystem

/-- Nothing recorded, nothing anchored. -/
def init : AnchorSystem := ⟨AuditLog.empty, AnchorTable.empty, none⟩

/-- Go on with a pass. -/
def resume (s : AnchorSystem) (d : Dialect) (isEnabled : String → Bool) (rest : List String)
    (result : TriggerResult) : AnchorSystem :=
  match anchorTenants d isEnabled s.log s.anchors rest result with
  | .awaiting pass => { s with running := some pass }
  | .finished _ => { s with running := none }

def step (sha256 : String → String) (d : Dialect) (kms : AuditChainKmsProvider)
    (s : AnchorSystem) : AnchorEvent → AnchorSystem
  | .append call => { s with log := auditStep sha256 d s.log call }
  | .trigger isEnabled =>
    match s.running with
    | some _ => s
    | none => s.resume d isEnabled (anchorTenantIds s.log) {}
  | .answered answer isEnabled =>
    match s.running with
    | none => s
    | some pass =>
      match answer with
      | none => s.resume d isEnabled pass.rest pass.result
      | some answer =>
        let row := pass.pending.row kms answer
        match s.anchors.insertAnchor row with
        -- the pass ends with the exception
        | none => { s with running := none }
        | some (anchors, inserted) =>
          let result :=
            if inserted then
              { pass.result with
                anchored := pass.result.anchored ++
                  [⟨normalizeAnchorTenantId pass.pending.tenantId, pass.pending.toSeq,
                    row.key_id⟩] }
            else pass.result
          { s with anchors := anchors }.resume d isEnabled pass.rest result

end AnchorSystem

/-! ## What was signed -/

/-- A tenant's rows from number one up to a number. -/
def AuditLog.upTo (log : AuditLog) (tenantId : String) (toSeq : ℤ) : List AuditLogRow :=
  (auditQueryChainRange log ⟨tenantId, none, some toSeq, none⟩).filter
    fun r => 1 ≤ r.chain_seq.getD 0

/-- A request the key service was sent, and the rows it was about. -/
structure Signing extends PendingAnchor where
  rows : List AuditLogRow

/-- The request a state waits for. -/
def AnchorSystem.request (s : AnchorSystem) : Option Signing :=
  s.running.map fun pass =>
    ⟨pass.pending, s.log.upTo pass.pending.tenantId pass.pending.toSeq⟩

/-- The request a step sends. -/
def AnchorSystem.signing (sha256 : String → String) (d : Dialect) (kms : AuditChainKmsProvider)
    (s : AnchorSystem) (e : AnchorEvent) : Option Signing :=
  match e with
  | .append _ => none
  | .trigger _ => if s.running.isSome then none else (s.step sha256 d kms e).request
  | .answered _ _ => if s.running.isSome then (s.step sha256 d kms e).request else none

/-- Note the requests. -/
def AnchorSystem.note (sha256 : String → String) (d : Dialect) (kms : AuditChainKmsProvider)
    (s : AnchorSystem) (signings : List Signing) (e : AnchorEvent) : List Signing :=
  signings ++ (s.signing sha256 d kms e).toList

end ChronoSynth

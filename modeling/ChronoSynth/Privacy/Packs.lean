import ChronoSynth.Lib.JsonParse
import ChronoSynth.Lib.Relational
import ChronoSynth.Privacy.Manifest

/-!
# Exports of a tenant's data

The tables the privacy service covers, `exportData`, the pack that is built and signed from it, and the check of a
pack before it is imported (`dryRunImport`).

* `node:crypto` is a `Crypto`: SHA-256 is taken as injective, and tags under HMAC as telling key and content.
* `exportData` is given the persona's state, which it only writes down, and the instant its clock shows.
* A line of NDJSON is read back as the row it was written from, so the rows of a pack are those of the export.
* Object storage, the progress of an export job and log messages are left out.
-/

namespace ChronoSynth.Privacy

open Sql

/-- `createHash('sha256')` and `createHmac('sha256', key)`, in hexadecimal digits. -/
structure Crypto where
  sha256 : String → String
  hmac : (key content : String) → String
  sha256_injective : Function.Injective sha256
  hmac_injective : ∀ {key key' content content'}, hmac key content = hmac key' content' → key = key' ∧ content = content'
  sha256_ne : ∀ content, sha256 content ≠ ""
  hmac_ne : ∀ key content, hmac key content ≠ ""

/-! ## Tables -/

/-- The tables with a `tenant_id`, children first. -/
def tenantTables : List String :=
  ["tenant_enterprise_profiles", "organization_role_bindings", "organization_memberships", "workspaces",
    "organizations", "usage_meters", "billing_invoices", "settlement_reconciliation_runs", "persona_memory_edges",
    "persona_working_memory", "persona_memory_nodes", "runtime_sessions", "task_results", "task_assignments",
    "task_applications", "task_org_assignments", "task_org_applications", "governance_actions", "governance_cases",
    "wallet_transactions", "wallet_payout_requests", "wallet_settlements", "persona_transfers",
    "reputation_history", "persona_daily_metrics", "marketplace_daily_metrics", "persona_governance_events",
    "persona_growth_events", "persona_memories", "persona_knowledge_items", "marketplace_tasks", "persona_forks",
    "persona_wallets", "persona_core", "distilled_artifacts", "persona_leases", "response_templates",
    "persona_rules", "tenant_llm_settings", "perception_events", "persona_governance_policy", "proactive_messages",
    "notification_preferences", "companion_identity", "memory_translations", "companion_mood",
    "companion_relationship", "org_positions", "digital_workers", "reporting_edges", "org_goals", "org_tasks",
    "task_reports", "org_conversation_threads", "org_messages", "org_handoffs", "worker_collaboration_memory",
    "org_approvals", "org_escalations", "learning_requests", "capability_index", "tool_action_rules",
    "capability_tool_eligibility", "tool_authorization_requests", "org_wallets", "org_wallet_settlements",
    "org_wallet_transactions", "billing_outbox", "ws_event_log", "tenant_add_ons", "entitlements",
    "observability_outbox", "observability_rollups", "observability_processed_events", "event_ledger",
    "persona_core_ledger_outbox", "projection_store", "conflict_inbox", "import_jobs", "tenant_key_versions",
    "tenant_storage_bindings", "drift_analysis_log", "persona_templates", "bulk_knowledge_import_jobs",
    "conversation_messages", "events_user_journey", "core_values_snapshot", "decision_feedbacks", "decision_runs",
    "decision_cases", "onboarding_sessions", "llm_usage", "life_simulations", "memory_edges", "memory_embeddings",
    "working_memory", "memory_nodes", "pending_updates", "core_values", "survival_anchors", "persona_versions",
    "conflicts", "snapshots", "evolution_records", "narrative", "decision_style", "cognitive_model", "tasks",
    "quota_usage", "quota_limits", "usage_records", "subscriptions", "idempotency_keys", "platform_dlq_events",
    "avatar_autorun_runlog", "avatar_autorun_config", "knowledge_sources", "audit_log", "github_app_credentials",
    "github_installations", "github_learn_state", "github_ingest_digests", "github_reply_drafts",
    "github_webhook_events", "tenant_identity_directory", "tenant_bootstrap"]

/-- Rows of a table whose `id` a column refers to, and which belong to the tenant. -/
def refersTo (db : Db) (table tenantId : String) (value : SqlValue) : Prop :=
  value ≠ .null ∧ ∃ r ∈ db table, r "id" = value ∧ r "tenant_id" = .text tenantId

instance (db : Db) (table tenantId : String) (value : SqlValue) : Decidable (refersTo db table tenantId value) :=
  inferInstanceAs (Decidable (_ ∧ _))

def isTenantRow (tenantId : String) (r : Row) : Prop := r "tenant_id" = .text tenantId

instance (tenantId : String) : DecidablePred (isTenantRow tenantId) := fun _ => inferInstanceAs (Decidable (_ = _))

/-- The condition of a related table's statements: by its own `tenant_id`, or through a parent. -/
def relatedRow (db : Db) (table tenantId : String) (r : Row) : Prop :=
  match table with
  | "life_simulation_paths" => refersTo db "life_simulations" tenantId (r "simulation_id")
  | "shared_simulations" => refersTo db "life_simulations" tenantId (r "simulation_id") ∨
      refersTo db "users" tenantId (r "owner_user_id") ∨ refersTo db "users" tenantId (r "shared_with_user_id")
  | "refresh_tokens" => refersTo db "users" tenantId (r "user_id")
  | "device_avatars" => refersTo db "devices" tenantId (r "device_id")
  | "avatars" => refersTo db "identities" tenantId (r "identity_id")
  | _ => isTenantRow tenantId r

instance (db : Db) (table tenantId : String) : DecidablePred (relatedRow db table tenantId) := fun r => by
  unfold relatedRow
  split <;> infer_instance

/-- A table that is exported and erased by statements of its own; `none` exports all columns. -/
structure RelatedTable where
  name : String
  exportColumns : Option (List String)
  deriving DecidableEq

/-- `RELATED_TABLES`. -/
def relatedTables : List RelatedTable :=
  [⟨"life_simulation_paths", none⟩,
    ⟨"shared_simulations", none⟩,
    ⟨"refresh_tokens", some ["id", "user_id", "is_revoked", "expires_at", "created_at"]⟩,
    ⟨"api_keys", some ["id", "tenant_id", "plan_id", "is_revoked", "created_at"]⟩,
    ⟨"import_commit_tokens", some ["tenant_id", "import_id", "manifest_checksum", "expires_at", "created_at"]⟩,
    ⟨"user_oauth_tokens", some ["id", "tenant_id", "user_id", "provider", "scope", "access_expires_at", "granted_at",
      "updated_at", "revoked_at", "revocation_reason"]⟩,
    ⟨"llm_provider_credentials", some ["tenant_id", "provider", "created_by", "created_at", "updated_at"]⟩,
    ⟨"perception_media_refs", some ["id", "tenant_id", "sha256", "mime", "size_bytes", "duration_ms", "retention_class",
      "delete_after", "status", "created_at"]⟩,
    ⟨"tool_permissions", some ["id", "tenant_id", "persona_id", "tool_id", "scope", "constraints_json", "granted_by",
      "granted_at", "expires_at", "revoked_at", "revocation_reason"]⟩,
    ⟨"agency_authorizations", some ["id", "tenant_id", "persona_id", "principal_user_id", "scope", "scope_description",
      "allowed_tools_json", "denied_tools_json", "status", "granted_at", "expires_at", "revoked_at",
      "revocation_reason"]⟩,
    ⟨"tool_invocations", some ["id", "tenant_id", "persona_id", "tool_id", "invoker_type", "invoker_id", "status",
      "output_size_bytes", "error_message", "cost_cents", "duration_ms", "invoked_at", "completed_at",
      "invoker_user_id"]⟩,
    ⟨"conversation_confirmation_tokens", some ["tenant_id", "persona_id", "session_id", "external_user_id",
      "requested_topic", "requested_rule", "issued_at", "expires_at", "consumed_at"]⟩,
    ⟨"export_jobs", some ["id", "tenant_id", "state", "percent", "eta_ms", "created_at", "completed_at", "error_code",
      "warnings"]⟩,
    ⟨"users", some ["id", "email", "role", "tenant_id", "created_at", "updated_at"]⟩]

/-- `POST_TENANT_RELATED_TABLES`. -/
def postTenantRelatedTables : List RelatedTable :=
  [⟨"device_avatars", none⟩, ⟨"avatars", none⟩, ⟨"identities", none⟩, ⟨"devices", none⟩]

/-- The tables that are kept by law and exported nevertheless; the two of the audit chain are not exported. -/
def exportedExemptTables : List String :=
  ["kms_key_audit", "tenant_vault_audit", "compliance_evidence", "legal_holds", "break_glass_jti_consumptions"]

/-! ## The export -/

/-- A value as the driver hands it over, in JSON. -/
def SqlValue.toJson : SqlValue → Json
  | .null => .null
  | .number x => x.toJson
  | .text s => .str s

/-- `Boolean(value)`. -/
def SqlValue.truthy : SqlValue → Bool
  | .null => false
  | .number (.finite x) => x.val ≠ 0
  | .number .nan => false
  | .number (.infinite _) => true
  | .text s => s ≠ ""

/-- A row as an object with these columns. -/
def rowJson (columns : List String) (r : Row) : Json := .obj (columns.map fun c => (c, SqlValue.toJson (r c)))

/-- A field encryption's `decrypt`; `none` where it throws. -/
abbrev FieldEncryption := String → Option String

def decryptIfNeeded (encryption : Option FieldEncryption) (value : SqlValue) : SqlValue :=
  match encryption, value with
  | some decrypt, .text s => .text ((decrypt s).getD s)
  | _, _ => value

/-- The columns of a row that are exported decrypted. -/
def encryptedColumns (table : String) (r : Row) : List String :=
  if table = "memory_nodes" ∨ table = "persona_memory_nodes" then ["content"]
  else if table = "persona_memories" ∧ SqlValue.truthy (r "is_encrypted") = true then ["summary", "content_json"]
  else []

/-- `transformExportRows`, for one row. -/
def transformExportRow (encryption : Option FieldEncryption) (table : String) (r : Row) : Row := fun c =>
  if c ∈ encryptedColumns table r then decryptIfNeeded encryption (r c) else r c

def exportRows (S : Schema) (encryption : Option FieldEncryption) (db : Db) (table : RelatedTable)
    (owned : Row → Prop) [DecidablePred owned] : String × List Json :=
  (table.name, ((db table.name).filter owned).map fun r =>
    rowJson (table.exportColumns.getD (S.table table.name).columns) (transformExportRow encryption table.name r))

structure ExportResult where
  tenantId : String
  exportedAt : UtcTime
  persona : Json
  tables : List (String × List Json)

/-- `exportData`: tables without rows are not listed. -/
def exportData (S : Schema) (encryption : Option FieldEncryption) (db : Db) (persona : Json) (now : UtcTime)
    (tenantId : String) : ExportResult where
  tenantId := tenantId
  exportedAt := now
  persona := persona
  tables := List.filter (fun t => t.2 ≠ [])
    ((tenantTables.map fun t => exportRows S encryption db ⟨t, none⟩ (isTenantRow tenantId)) ++
      (relatedTables.map fun t => exportRows S encryption db t (relatedRow db t.name tenantId)) ++
      (postTenantRelatedTables.map fun t => exportRows S encryption db t (relatedRow db t.name tenantId)) ++
      exportedExemptTables.map fun t => exportRows S encryption db ⟨t, none⟩ (isTenantRow tenantId))

/-! ## The pack -/

/-- `CORE_TABLES`. -/
def coreTables : List String :=
  ["users", "identities", "persona_core", "persona_memories", "memory_nodes", "core_values", "cognitive_model",
    "narrative", "decision_style"]

def rowsToNdjson (rows : List Json) : String := String.intercalate "\n" (rows.map Json.stringify)

def payloadPath (name : String) : String := "payloads/" ++ name ++ ".ndjson"

section
variable (crypto : Crypto)

def payloadEntry (name : String) (rows : List Json) (required : Bool) : PayloadEntry where
  logicalName := name
  format := .ndjson
  path := payloadPath name
  checksum := crypto.sha256 (rowsToNdjson rows)
  required := required

/-- `manifestWithoutIntegrity`. -/
def ExportResult.manifest (result : ExportResult) : UnsignedManifest where
  exportedAt := result.exportedAt.toISOString
  exportMode := .personal
  sourceRuntime := .node
  sourceApiMajor := .v1
  tenant := ⟨result.tenantId, .platform_managed, .platform_managed, none⟩
  payloads := payloadEntry crypto "persona" [result.persona] true ::
    result.tables.map fun t => payloadEntry crypto t.1 t.2 (coreTables.contains t.1)
  blobs := none
  compatibility := ⟨"v1", []⟩
  encryption := some ⟨.none, none, none, none⟩

/-- `SHA-256` of a manifest without `integrity`. -/
def UnsignedManifest.checksum (m : UnsignedManifest) : String := crypto.sha256 m.toJson.stringify

/-- The manifest with the tag of its checksum. -/
def UnsignedManifest.sign (m : UnsignedManifest) (signingKey : String) : PortabilityPackManifestV1 where
  toUnsignedManifest := m
  integrity :=
    { algorithm := .sha256, manifestChecksum := m.checksum crypto, signatureAlgorithm := .hmacSha256,
      signaturePublicKey := crypto.hmac signingKey (m.checksum crypto), detachedSignaturePath := "manifest.sig" }

/-- `{ ...manifestWithoutIntegrity, integrity }`. -/
def PortabilityPackManifestV1.builtJson (m : PortabilityPackManifestV1) : Json :=
  .obj (m.head ++ m.tail ++ [("integrity", m.integrity.toJson)])

/-- `buildPortabilityPack`, with the rows it is built from: the bundle that is stored for the job. -/
def ExportResult.bundle (result : ExportResult) (signingKey : String) : Json :=
  .obj [("manifest", ((result.manifest crypto).sign crypto signingKey).builtJson),
    ("payloads", .obj (("persona", .arr [result.persona]) :: result.tables.map fun t => (t.1, .arr t.2)))]

/-- What of a tenant's profile decides on keys. -/
structure KeyProfile where
  encryptionMode : EncryptionMode
  kmsKeyRef : Option String
  deriving DecidableEq

/-- The key a tenant brings: `encryptionMode === 'tenant_dedicated' && kmsKeyRef`. -/
def KeyProfile.ownKey (p : KeyProfile) : Option String :=
  if p.encryptionMode = .tenant_dedicated then p.kmsKeyRef.filter (· ≠ "") else none

/-- The `effectiveSigningKey` of an export. -/
def KeyProfile.signingKey (p : KeyProfile) (platformKey : String) : String := p.ownKey.getD platformKey

/-- The text that `startExportJob` stores. -/
def exportedPack (platformKey : String) (profile : KeyProfile) (result : ExportResult) : String :=
  (result.bundle crypto (profile.signingKey platformKey)).stringify

/-! ## The check of a pack -/

def TenantInfo.verificationKey (t : TenantInfo) (platformKey : String) : String :=
  (KeyProfile.mk t.encryptionMode t.kmsKeyRef).signingKey platformKey

def verifyManifestIntegrity (platformKey : String) (m : PortabilityPackManifestV1) : Bool :=
  let expectedChecksum := m.toUnsignedManifest.checksum crypto
  m.integrity.manifestChecksum = expectedChecksum &&
    m.integrity.signaturePublicKey = crypto.hmac (m.tenant.verificationKey platformKey) expectedChecksum

variable (json : JsonParse)

def extractManifestJson (packJson : String) : String :=
  match (json.parse packJson).bind (Json.get? "manifest") with
  | some manifest => manifest.stringify
  | none => packJson

/-- The manifest of a pack's text, if there is a valid one. -/
def readManifest (packJson : String) : Option PortabilityPackManifestV1 :=
  (json.parse (extractManifestJson json packJson)).bind PortabilityPackManifestV1.ofJson

structure Blocker where
  code : String
  messageId : String
  entity : Option String
  deriving DecidableEq

/-- How many rows of a payload are taken to be created, updated and skipped. -/
structure Delta where
  create : ℕ
  update : ℕ
  skip : ℕ
  deriving DecidableEq

structure ImportDryRunReport where
  packSchemaVersion : String
  signatureValid : Bool
  blockers : List Blocker
  deltaSummary : List (String × Delta)
  estimatedDurationMs : ℕ
  canCommit : Bool
  deriving DecidableEq

def tenantBlockers (tenantId : String) (m : PortabilityPackManifestV1) : List Blocker :=
  if m.tenant.tenantId ≠ tenantId then
    [⟨"TENANT_MISMATCH", "import.error.tenantMismatch", some m.tenant.tenantId⟩]
  else []

def signatureBlockers (platformKey : String) (m : PortabilityPackManifestV1) : List Blocker :=
  if m.integrity.signatureAlgorithm ≠ .hmacSha256 then
    [⟨"UNSUPPORTED_SIGNATURE_ALG", "import.warning.unsupportedSignatureAlg", some (word m.integrity.signatureAlgorithm)⟩]
  else if verifyManifestIntegrity crypto platformKey m = false then
    [⟨"SIGNATURE_INVALID", "import.error.signatureInvalid", none⟩]
  else []

def manifestReport (platformKey tenantId : String) (m : PortabilityPackManifestV1) : ImportDryRunReport :=
  let blockers := tenantBlockers tenantId m ++ signatureBlockers crypto platformKey m
  { packSchemaVersion := packSchemaVersion
    signatureValid := m.integrity.signatureAlgorithm = .hmacSha256 && verifyManifestIntegrity crypto platformKey m
    blockers := blockers
    deltaSummary := ((m.payloads.filter (·.required)).map (·.logicalName)).dedup.map fun name => (name, ⟨1, 0, 0⟩)
    estimatedDurationMs := m.payloads.length * 100
    canCommit := blockers = [] }

/-- `dryRunImport`; a token is issued exactly if `canCommit`. -/
def dryRunImport (platformKey tenantId packJson : String) : ImportDryRunReport :=
  match readManifest json packJson with
  | none => ⟨"unknown", false, [⟨"INVALID_MANIFEST", "import.error.invalidManifest", none⟩], [], 0, false⟩
  | some m => manifestReport crypto platformKey tenantId m

end

end ChronoSynth.Privacy

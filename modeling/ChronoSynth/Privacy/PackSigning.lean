import Mathlib.Data.List.Nodup
import ChronoSynth.Privacy.Packs

/-!
# Whose packs are accepted

The pack of an export is read back as the manifest that was signed (`readManifest_exportedPack`), so whether the check
accepts it is a question of keys alone. The check takes its key from the manifest under test, the export from the
tenant's profile, and the manifest of an export never names a key: `packs_verify_iff` says on which profiles and on
which manifests the two agree.
-/

namespace ChronoSynth.Privacy

open Sql Json

/-! ## What an export gives -/

def exportedTables : List String :=
  tenantTables ++ relatedTables.map (·.name) ++ postTenantRelatedTables.map (·.name) ++ exportedExemptTables

/-- The number that the bytes of a name write. -/
def byteCode (name : String) : ℕ := name.toByteArray.data.toList.foldl (fun n b => 256 * n + b.toNat) 0

set_option maxRecDepth 4000 in
theorem exportedTables_spec : (exportedTables.map byteCode).Nodup ∧ ∀ name ∈ exportedTables, name ≠ "" ∧
    name ≠ "persona" ∧ ∀ b ∈ name.toByteArray.data.toList.head?, ¬ (48 ≤ b.toNat ∧ b.toNat ≤ 57) := by
  decide +kernel

theorem nodup_exportedTables : exportedTables.Nodup := List.Nodup.of_map byteCode exportedTables_spec.1

theorem isIndex_exportedTables (name : String) (h : name ∈ exportedTables) : isIndex name = false :=
  isIndex_of_byte (exportedTables_spec.2 name h).2.2

theorem ne_of_mem_exportedTables (name : String) (h : name ∈ exportedTables) : name ≠ "" ∧ name ≠ "persona" :=
  ⟨(exportedTables_spec.2 name h).1, (exportedTables_spec.2 name h).2.1⟩

/-- A tenant with the data it is exported from. -/
structure TenantContent where
  tenantId : String
  tenantId_ne : tenantId ≠ ""
  persona : Json
  persona_made : persona.Made
  schema : Schema
  columns_before : ∀ table, (schema.table table).columns.Pairwise Before
  encryption : Option FieldEncryption
  db : Db

def TenantContent.exportData (content : TenantContent) (now : UtcTime) : ExportResult :=
  Privacy.exportData content.schema content.encryption content.db content.persona now content.tenantId

theorem pairwise_before {names : List String} (hnodup : names.Nodup) (h : ∀ name ∈ names, isIndex name = false) :
    names.Pairwise Before :=
  hnodup.imp_of_mem fun _ hname' hne => ⟨hne, fun hi => absurd hi (by simp [h _ hname'])⟩

/-- The parts of an export are values of a program, and its tables are listed once each. -/
structure ExportResult.Proper (result : ExportResult) : Prop where
  tenantId_ne : result.tenantId ≠ ""
  persona_made : result.persona.Made
  names : (result.tables.map Prod.fst).Sublist exportedTables
  rows_made : ∀ t ∈ result.tables, ∀ row ∈ t.2, row.Made

theorem exportColumns_nodup : ∀ t ∈ relatedTables ++ postTenantRelatedTables, ∀ columns ∈ t.exportColumns,
    columns.Nodup ∧ ∀ c ∈ columns, isIndex c = false := by
  decide +kernel

theorem SqlValue.made_toJson (value : SqlValue) : (SqlValue.toJson value).Made := by
  cases value with
  | null => simp [SqlValue.toJson]
  | text s => simp [SqlValue.toJson]
  | number x => cases x <;> simp [SqlValue.toJson, JsFloat.toJson]

theorem made_rowJson {columns : List String} {r : Row} (h : columns.Pairwise Before) : (rowJson columns r).Made := by
  rw [rowJson, made_obj, List.map_map]
  refine ⟨by simpa [Function.comp_def] using h, fun m hm => ?_⟩
  obtain ⟨c, -, rfl⟩ := List.mem_map.1 hm
  exact SqlValue.made_toJson _

theorem TenantContent.exportData_proper (content : TenantContent) (now : UtcTime) : (content.exportData now).Proper where
  tenantId_ne := content.tenantId_ne
  persona_made := content.persona_made
  names := by
    refine (List.filter_sublist.map Prod.fst).trans ?_
    simp [exportedTables, exportRows, Function.comp_def]
  rows_made := by
    intro t ht row hrow
    have hown : ∀ {table : String}, (Option.getD none (content.schema.table table).columns).Pairwise Before :=
      content.columns_before _
    have hlisted : ∀ u ∈ relatedTables ++ postTenantRelatedTables,
        (u.exportColumns.getD (content.schema.table u.name).columns).Pairwise Before := by
      intro u hu
      cases hc : u.exportColumns with
      | none => exact hown
      | some columns =>
        obtain ⟨hnodup, hindex⟩ := exportColumns_nodup u hu columns hc
        exact pairwise_before hnodup hindex
    have hmem := (List.mem_filter.1 ht).1
    simp only [List.mem_append, List.mem_map] at hmem
    rcases hmem with ((⟨name, -, rfl⟩ | ⟨u, hu, rfl⟩) | ⟨u, hu, rfl⟩) | ⟨name, -, rfl⟩
    all_goals obtain ⟨r, -, rfl⟩ := List.mem_map.1 hrow
    · exact made_rowJson hown
    · exact made_rowJson (hlisted u (List.mem_append_left _ hu))
    · exact made_rowJson (hlisted u (List.mem_append_right _ hu))
    · exact made_rowJson hown

theorem ExportResult.Proper.names_before {result : ExportResult} (h : result.Proper) :
    ("persona" :: result.tables.map Prod.fst).Pairwise Before := by
  have hmem : ∀ name ∈ result.tables.map Prod.fst, name ∈ exportedTables := fun _ hn => h.names.subset hn
  refine pairwise_before (List.nodup_cons.2 ⟨fun hp => ?_, h.names.nodup nodup_exportedTables⟩) fun name hn => ?_
  · exact (ne_of_mem_exportedTables _ (hmem _ hp)).2 rfl
  · rcases List.mem_cons.1 hn with rfl | hn
    · decide
    · exact isIndex_exportedTables name (hmem name hn)

/-! ## The pack of an export -/

section
variable (crypto : Crypto) {result : ExportResult} {signingKey : String}

theorem ExportResult.Proper.manifest_valid (h : result.Proper) : (result.manifest crypto).Valid := by
  refine ⟨result.exportedAt.isDatetime_toISOString, ⟨h.tenantId_ne, nofun⟩, ⟨List.cons_ne_nil _ _, fun e he => ?_⟩,
    nofun, by simp [ExportResult.manifest, Compatibility.Valid], ?_⟩
  · have hentry : ∀ (name : String) (rows : List Json) (required : Bool), name ≠ "" →
        (payloadEntry crypto name rows required).Valid := fun name rows required hne =>
      ⟨hne, by simp [payloadEntry, payloadPath], crypto.sha256_ne _⟩
    rcases List.mem_cons.1 he with rfl | he
    · exact hentry _ _ _ (by simp)
    · obtain ⟨t, ht, rfl⟩ := List.mem_map.1 he
      exact hentry _ _ _ (ne_of_mem_exportedTables _ (h.names.subset (List.mem_map_of_mem ht))).1
  · rintro e ⟨⟩
    exact ⟨rfl, rfl, rfl⟩

theorem sign_integrity_valid (m : UnsignedManifest) : (m.sign crypto signingKey).integrity.Valid :=
  ⟨crypto.sha256_ne _, crypto.hmac_ne _ _, by simp [UnsignedManifest.sign]⟩

/-- Where `integrity` stands does not matter to a reader. -/
theorem PortabilityPackManifestV1.get?_builtJson (m : PortabilityPackManifestV1) (name : String) :
    m.builtJson.get? name = m.toJson.get? name := by
  have htail : m.tail.find? (fun member => member.1 = "integrity") = none := by
    refine List.find?_eq_none.2 fun member hm => ?_
    simp [mem_optionalMember hm]
  simp only [builtJson, toJson, Json.get?, List.find?_append, List.find?_cons]
  by_cases hname : "integrity" = name
  · subst hname
    simp [htail]
  · simp [hname]

theorem PortabilityPackManifestV1.ofJson_builtJson {m : PortabilityPackManifestV1} (h : m.Valid)
    (hi : m.integrity.Valid) : ofJson m.builtJson = some m := by
  have hread := ofJson_toJson h hi
  have hstrict := strict?_obj fun _ => @UnsignedManifest.name_mem m.toUnsignedManifest m.integrity _
  have hstrict' : m.builtJson.strict? ["schemaVersion", "exportedAt", "exportMode", "sourceRuntime", "sourceApiMajor",
      "tenant", "payloads", "blobs", "compatibility", "integrity", "encryption"] = some () := by
    refine strict?_obj fun member hm => @UnsignedManifest.name_mem m.toUnsignedManifest m.integrity _ ?_
    simp only [List.mem_append, List.mem_cons, List.not_mem_nil, or_false] at hm ⊢
    tauto
  rw [← hread, ofJson, ofJson, hstrict', toJson, hstrict]
  simp only [field?, optional?, m.get?_builtJson]
  rfl

theorem PayloadEntry.made_toJson (e : PayloadEntry) : e.toJson.Made := by
  have hnames : ["logicalName", "format", "path", "checksum", "required"].Pairwise Before := by decide
  exact made_obj.2 ⟨hnames, by simp⟩

theorem ExportResult.made_builtJson : ((result.manifest crypto).sign crypto signingKey).builtJson.Made := by
  have hpayloads : (Json.arr ((result.manifest crypto).payloads.map PayloadEntry.toJson)).Made := by
    refine made_arr.2 fun j hj => ?_
    obtain ⟨e, -, rfl⟩ := List.mem_map.1 hj
    exact e.made_toJson
  have htenant : (result.manifest crypto).tenant.toJson.Made :=
    made_obj.2 ⟨(by decide : ["tenantId", "deploymentMode", "encryptionMode"].Pairwise Before), by simp [optionalMember, ExportResult.manifest]⟩
  have hcompatibility : (result.manifest crypto).compatibility.toJson.Made :=
    made_obj.2 ⟨(by decide : ["minImporterVersion", "featureFlagsRequired"].Pairwise Before), by simp [made_arr]⟩
  have hencryption : (EncryptionInfo.toJson ⟨.none, none, none, none⟩).Made :=
    made_obj.2 ⟨(by decide : ["mode"].Pairwise Before), by simp [optionalMember]⟩
  have hintegrity : ((result.manifest crypto).sign crypto signingKey).integrity.toJson.Made :=
    made_obj.2 ⟨(by decide : ["algorithm", "manifestChecksum", "signatureAlgorithm", "signaturePublicKey",
      "detachedSignaturePath"].Pairwise Before), by simp⟩
  have hnames : ["schemaVersion", "exportedAt", "exportMode", "sourceRuntime", "sourceApiMajor", "tenant", "payloads",
      "compatibility", "encryption", "integrity"].Pairwise Before := by decide
  have hblobs : (result.manifest crypto).blobs = none := rfl
  have hsome : (result.manifest crypto).encryption = some ⟨.none, none, none, none⟩ := rfl
  have hsigned : ∀ member ∈ (result.manifest crypto).head ++ (result.manifest crypto).tail, member.2.Made := by
    simp [UnsignedManifest.head, UnsignedManifest.tail, optionalMember, hblobs, hsome, hpayloads, htenant,
      hcompatibility, hencryption]
  exact made_obj.2 ⟨hnames, List.forall_mem_append.2 ⟨hsigned, by simpa using hintegrity⟩⟩

theorem ExportResult.Proper.made_bundle (h : result.Proper) : (result.bundle crypto signingKey).Made := by
  have hpayloads : (Json.obj (("persona", .arr [result.persona]) :: result.tables.map fun t => (t.1, .arr t.2))).Made := by
    refine made_obj.2 ⟨?_, List.forall_mem_cons.2 ⟨made_arr.2 (by simpa using h.persona_made), fun member hm => ?_⟩⟩
    · simpa [Function.comp_def] using h.names_before
    · obtain ⟨t, ht, rfl⟩ := List.mem_map.1 hm
      exact made_arr.2 (h.rows_made t ht)
  refine made_obj.2 ⟨(by decide : ["manifest", "payloads"].Pairwise Before), ?_⟩
  exact List.forall_mem_cons.2 ⟨result.made_builtJson crypto, by simpa using hpayloads⟩

theorem ExportResult.Proper.readManifest_stringify (h : result.Proper) (json : JsonParse) {bundle : Json}
    (hmade : bundle.Made)
    (hmanifest : bundle.get? "manifest" = some ((result.manifest crypto).sign crypto signingKey).builtJson) :
    readManifest json bundle.stringify = some ((result.manifest crypto).sign crypto signingKey) := by
  have hextract : extractManifestJson json bundle.stringify =
      ((result.manifest crypto).sign crypto signingKey).builtJson.stringify := by
    simp only [extractManifestJson, json.parse_stringify hmade, Option.bind_some, hmanifest]
  rw [readManifest, hextract, json.parse_stringify (result.made_builtJson crypto), Option.bind_some]
  exact PortabilityPackManifestV1.ofJson_builtJson (h.manifest_valid crypto) (sign_integrity_valid crypto _)

/-- **The pack of an export is read as the manifest that was signed.** -/
theorem ExportResult.Proper.readManifest_exportedPack (h : result.Proper) (json : JsonParse) (platformKey : String)
    (profile : KeyProfile) : readManifest json (exportedPack crypto platformKey profile result) =
      some ((result.manifest crypto).sign crypto (profile.signingKey platformKey)) :=
  h.readManifest_stringify crypto json (h.made_bundle crypto) rfl

theorem UnsignedManifest.verify_sign (m : UnsignedManifest) (platformKey : String) :
    verifyManifestIntegrity crypto platformKey (m.sign crypto signingKey) = true ↔
      signingKey = m.tenant.verificationKey platformKey := by
  have htenant : (m.sign crypto signingKey).tenant = m.tenant := rfl
  simp only [verifyManifestIntegrity, htenant, Bool.and_eq_true, decide_eq_true_eq]
  constructor
  · rintro ⟨-, htag⟩
    exact (crypto.hmac_injective htag).1
  · rintro rfl
    exact ⟨rfl, rfl⟩

/-- The report has nothing against the signature. -/
def ImportDryRunReport.AcceptsSignature (report : ImportDryRunReport) : Prop :=
  report.signatureValid = true ∧ ∀ blocker ∈ report.blockers, blocker.code ≠ "SIGNATURE_INVALID"

theorem acceptsSignature_manifestReport {m : PortabilityPackManifestV1} {platformKey tenantId : String}
    (h : m.integrity.signatureAlgorithm = .hmacSha256) :
    (manifestReport crypto platformKey tenantId m).AcceptsSignature ↔
      verifyManifestIntegrity crypto platformKey m = true := by
  constructor
  · rintro ⟨hvalid, -⟩
    simp only [manifestReport, Bool.and_eq_true] at hvalid
    exact hvalid.2
  · intro hverify
    refine ⟨by simp [manifestReport, h, hverify], fun blocker hb => ?_⟩
    simp only [manifestReport, signatureBlockers, h, hverify, ne_eq, not_true_eq_false, if_false, List.append_nil,
      Bool.true_eq_false] at hb
    unfold tenantBlockers at hb
    split_ifs at hb
    · rw [List.mem_singleton.1 hb]
      exact (by decide : "TENANT_MISMATCH" ≠ "SIGNATURE_INVALID")
    · cases hb

/-- **The check accepts the pack of an export exactly if it is signed with the platform's key.** -/
theorem ExportResult.Proper.acceptsSignature (h : result.Proper) (json : JsonParse) (platformKey tenantId : String)
    (profile : KeyProfile) :
    (dryRunImport crypto json platformKey tenantId (exportedPack crypto platformKey profile result)).AcceptsSignature ↔
      profile.signingKey platformKey = platformKey := by
  rw [dryRunImport, h.readManifest_exportedPack crypto json]
  exact (acceptsSignature_manifestReport crypto rfl).trans ((result.manifest crypto).verify_sign crypto platformKey)

end

/-! ## Who can write what -/

structure ExportJob where
  profile : KeyProfile
  content : TenantContent
  now : UtcTime

/-- The platform with its key and the exports it has signed. -/
structure Platform where
  crypto : Crypto
  key : String
  exports : List ExportJob

namespace Platform

variable (platform : Platform)

def manifest (job : ExportJob) : UnsignedManifest := (job.content.exportData job.now).manifest platform.crypto

def pack (job : ExportJob) : String :=
  exportedPack platform.crypto platform.key job.profile (job.content.exportData job.now)

def Signed (profile : KeyProfile) (m : UnsignedManifest) : Prop :=
  ∃ job ∈ platform.exports,
    (job.profile.signingKey platform.key = platform.key ∨
      profile.ownKey = some (job.profile.signingKey platform.key)) ∧ platform.manifest job = m

/-- Somebody who has seen the exports and knows some keys, not the platform's. -/
structure Author where
  knows : String → Prop
  not_knows : ¬ knows platform.key

variable {platform}

/-- A tag is made with its key or taken from an export. -/
def Author.Writes (author : platform.Author) (m : PortabilityPackManifestV1) : Prop :=
  ∀ key content, m.integrity.signaturePublicKey = platform.crypto.hmac key content →
    author.knows key ∨ ∃ job ∈ platform.exports, job.profile.signingKey platform.key = key ∧
      (platform.manifest job).checksum platform.crypto = content

variable (platform) in
/-- The manifest names a key of its own and is signed with it. -/
def SelfSigned (m : PortabilityPackManifestV1) : Prop :=
  ∃ key, KeyProfile.ownKey ⟨m.tenant.encryptionMode, m.tenant.kmsKeyRef⟩ = some key ∧
    m.integrity.manifestChecksum = m.toUnsignedManifest.checksum platform.crypto ∧
    m.integrity.signaturePublicKey = platform.crypto.hmac key (m.toUnsignedManifest.checksum platform.crypto)

theorem checksum_injective : Function.Injective (UnsignedManifest.checksum platform.crypto) := fun _ _ h =>
  UnsignedManifest.toJson_injective (stringify_injective (platform.crypto.sha256_injective h))

theorem ownKey_manifest (job : ExportJob) :
    KeyProfile.ownKey ⟨(platform.manifest job).tenant.encryptionMode, (platform.manifest job).tenant.kmsKeyRef⟩ = none :=
  rfl

/-- **What an author writes and the check accepts is of an export, unless it is signed with the key it names.** -/
theorem Author.genuine_iff (author : platform.Author) {m : PortabilityPackManifestV1} (hm : author.Writes m)
    (profile : KeyProfile) :
    (verifyManifestIntegrity platform.crypto platform.key m = true → platform.Signed profile m.toUnsignedManifest) ↔
      ¬ platform.SelfSigned m := by
  constructor
  · rintro hgenuine ⟨key, hkey, hsum, htag⟩
    have hverify : verifyManifestIntegrity platform.crypto platform.key m = true := by
      simp [verifyManifestIntegrity, TenantInfo.verificationKey, KeyProfile.signingKey, hkey, hsum, htag]
    obtain ⟨job, -, -, hjob⟩ := hgenuine hverify
    have hnone := @ownKey_manifest platform job
    rw [hjob, hkey] at hnone
    cases hnone
  · intro hself hverify
    simp only [verifyManifestIntegrity, Bool.and_eq_true, decide_eq_true_eq] at hverify
    obtain ⟨hsum, htag⟩ := hverify
    cases hown : KeyProfile.ownKey ⟨m.tenant.encryptionMode, m.tenant.kmsKeyRef⟩ with
    | some key =>
      rw [TenantInfo.verificationKey, KeyProfile.signingKey, hown] at htag
      exact absurd ⟨key, hown, hsum, htag⟩ hself
    | none =>
      rw [TenantInfo.verificationKey, KeyProfile.signingKey, hown] at htag
      obtain hknown | ⟨job, hjob, hkey, hcontent⟩ := hm _ _ htag
      · exact absurd hknown author.not_knows
      · exact ⟨job, hjob, .inl hkey, checksum_injective hcontent⟩

/-- **Packs are accepted exactly if the profile's key is the platform's, and only genuine manifests are exactly if
those are left out that are signed with a key they name.** -/
theorem packs_verify_iff (platform : Platform) (json : JsonParse) :
    (∀ job, (dryRunImport platform.crypto json platform.key job.content.tenantId (platform.pack job)).AcceptsSignature ↔
      ∀ key ∈ job.profile.ownKey, key = platform.key) ∧
    ∀ (author : platform.Author) (profile : KeyProfile) (m : {m // author.Writes m}),
      (verifyManifestIntegrity platform.crypto platform.key m = true → platform.Signed profile m.val.toUnsignedManifest) ↔
        ¬ platform.SelfSigned m := by
  refine ⟨fun job => ?_, fun author profile m => author.genuine_iff m.property profile⟩
  refine ((job.content.exportData_proper job.now).acceptsSignature platform.crypto json _ _ _).trans ?_
  cases h : job.profile.ownKey with
  | none => simp [KeyProfile.signingKey, h]
  | some key => simp [KeyProfile.signingKey, h]

/-! ## A tenant with a key of its own -/

/-- Digests and tags that are told by what they are made of. -/
def symbolic : Crypto where
  sha256 content := "sha256:" ++ content
  hmac key content := (Json.arr [.str key, .str content]).stringify
  sha256_injective := fun _ _ h => by simpa using h
  hmac_injective := fun h => by simpa using stringify_injective h
  sha256_ne content := by simp
  hmac_ne key content := by
    obtain ⟨c, r, hc, -⟩ := (Json.arr [.str key, .str content]).stringify_begins
    intro h
    rw [h] at hc
    cases hc

/-- A tenant without rows. -/
def newTenant : TenantContent where
  tenantId := "tenant"
  tenantId_ne := by decide
  persona := .null
  persona_made := made_null
  schema := ⟨[], fun _ => ⟨[], [], [], [], fun _ _ => .null, fun _ _ => id, fun _ => true⟩⟩
  columns_before _ := .nil
  encryption := none
  db _ := []

/-- Its export under an encryption key of its own. -/
def dedicatedJob : ExportJob where
  profile := ⟨.tenant_dedicated, some "tenant-key"⟩
  content := newTenant
  now := .newYear

/-- A manifest that names the key it is signed with. -/
def forged : PortabilityPackManifestV1 :=
  UnsignedManifest.sign symbolic
    { exportedAt := "2026-01-01T00:00:00.000Z"
      exportMode := .personal
      sourceRuntime := .node
      sourceApiMajor := .v1
      tenant := ⟨"tenant", .platform_managed, .tenant_dedicated, some "made-up"⟩
      payloads := [⟨"narrative", .ndjson, "payloads/narrative.ndjson", symbolic.sha256 "\x7b\x7d", true⟩]
      blobs := none
      compatibility := ⟨"v1", []⟩
      encryption := none }
    "made-up"

/-- A platform that has not exported anything. -/
def newPlatform : Platform := ⟨symbolic, "platform-key", []⟩

/-- The pack of the tenant is refused; the manifest is accepted, and only its author has signed it. -/
theorem dedicated_refused_forged_accepted :
    ¬ (dryRunImport symbolic .inverse "platform-key" "tenant" (newPlatform.pack dedicatedJob)).AcceptsSignature ∧
      (∃ author : newPlatform.Author, author.Writes forged) ∧
      verifyManifestIntegrity symbolic "platform-key" forged = true ∧
      ¬ ∃ profile, newPlatform.Signed profile forged.toUnsignedManifest := by
  refine ⟨fun h => ?_, ⟨⟨(· = "made-up"), by decide⟩, fun key content h => ?_⟩,
    (UnsignedManifest.verify_sign symbolic _ _).2 rfl, ?_⟩
  · have hkey := ((newTenant.exportData_proper dedicatedJob.now).acceptsSignature symbolic .inverse "platform-key"
      "tenant" dedicatedJob.profile).1 h
    exact absurd hkey (by decide)
  · exact .inl (symbolic.hmac_injective h).1.symm
  · rintro ⟨profile, job, hjob, -⟩
    cases hjob

end Platform

end ChronoSynth.Privacy

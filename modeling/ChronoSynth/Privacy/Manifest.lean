import ChronoSynth.Lib.IsoTime
import ChronoSynth.Lib.JsonNested
import ChronoSynth.Lib.JsonSchema

/-!
# The manifest of a portability pack

`PortabilityPackManifestV1` as its schema reads it, and as the parsed object is written again: the members stand in
the order of the schema, whatever their order in the text. `UnsignedManifest` is what stays of it without `integrity`,
the part whose checksum is signed.
-/

namespace ChronoSynth.Privacy

inductive DeploymentMode
  | platform_managed | shared_cluster | dedicated_db | self_hosted
  deriving DecidableEq

inductive EncryptionMode
  | platform_managed | tenant_dedicated
  deriving DecidableEq

inductive PayloadFormat
  | ndjson | json
  deriving DecidableEq

inductive ChecksumAlgorithm
  | sha256 | sha384
  deriving DecidableEq

inductive SignatureAlgorithm
  | ed25519 | rsaPss | hmacSha256
  deriving DecidableEq

inductive EnvelopeMode
  | passphrase | kmsWrapped | none
  deriving DecidableEq

inductive Kdf
  | argon2id | scrypt
  deriving DecidableEq

inductive ExportMode
  | personal | smb | enterprise
  deriving DecidableEq

inductive SourceRuntime
  | node | web | mobile | desktop
  deriving DecidableEq

inductive ApiMajor
  | v1 | v2
  deriving DecidableEq

section
open Worded

instance : Worded DeploymentMode where
  words := [.platform_managed, .shared_cluster, .dedicated_db, .self_hosted]
  word
    | .platform_managed => "platform_managed"
    | .shared_cluster => "shared_cluster"
    | .dedicated_db => "dedicated_db"
    | .self_hosted => "self_hosted"
  find_word a := by cases a <;> rfl

instance : Worded EncryptionMode where
  words := [.platform_managed, .tenant_dedicated]
  word
    | .platform_managed => "platform_managed"
    | .tenant_dedicated => "tenant_dedicated"
  find_word a := by cases a <;> rfl

instance : Worded PayloadFormat where
  words := [.ndjson, .json]
  word
    | .ndjson => "ndjson"
    | .json => "json"
  find_word a := by cases a <;> rfl

instance : Worded ChecksumAlgorithm where
  words := [.sha256, .sha384]
  word
    | .sha256 => "sha256"
    | .sha384 => "sha384"
  find_word a := by cases a <;> rfl

instance : Worded SignatureAlgorithm where
  words := [.ed25519, .rsaPss, .hmacSha256]
  word
    | .ed25519 => "ed25519"
    | .rsaPss => "rsa-pss"
    | .hmacSha256 => "hmac-sha256"
  find_word a := by cases a <;> rfl

instance : Worded EnvelopeMode where
  words := [.passphrase, .kmsWrapped, .none]
  word
    | .passphrase => "passphrase"
    | .kmsWrapped => "kms-wrapped"
    | .none => "none"
  find_word a := by cases a <;> rfl

instance : Worded Kdf where
  words := [.argon2id, .scrypt]
  word
    | .argon2id => "argon2id"
    | .scrypt => "scrypt"
  find_word a := by cases a <;> rfl

instance : Worded ExportMode where
  words := [.personal, .smb, .enterprise]
  word
    | .personal => "personal"
    | .smb => "smb"
    | .enterprise => "enterprise"
  find_word a := by cases a <;> rfl

instance : Worded SourceRuntime where
  words := [.node, .web, .mobile, .desktop]
  word
    | .node => "node"
    | .web => "web"
    | .mobile => "mobile"
    | .desktop => "desktop"
  find_word a := by cases a <;> rfl

instance : Worded ApiMajor where
  words := [.v1, .v2]
  word
    | .v1 => "v1"
    | .v2 => "v2"
  find_word a := by cases a <;> rfl

end

/-! ## The parts -/

structure TenantInfo where
  tenantId : String
  deploymentMode : DeploymentMode
  encryptionMode : EncryptionMode
  kmsKeyRef : Option String
  deriving DecidableEq

structure PayloadEntry where
  logicalName : String
  format : PayloadFormat
  path : String
  checksum : String
  required : Bool
  deriving DecidableEq

structure BlobEntry where
  path : String
  sha256 : String
  bytes : ℕ
  deriving DecidableEq

structure Compatibility where
  minImporterVersion : String
  featureFlagsRequired : List String
  deriving DecidableEq

structure Integrity where
  algorithm : ChecksumAlgorithm
  manifestChecksum : String
  signatureAlgorithm : SignatureAlgorithm
  signaturePublicKey : String
  detachedSignaturePath : String
  deriving DecidableEq

structure EncryptionInfo where
  mode : EnvelopeMode
  kdf : Option Kdf
  kmsKeyRef : Option String
  wrappedDataKeyPath : Option String
  deriving DecidableEq

/-- A text that is there and not empty. -/
def Given (s : Option String) : Prop := ∃ text ∈ s, text ≠ ""

instance (s : Option String) : Decidable (Given s) := inferInstanceAs (Decidable (∃ text ∈ s, text ≠ ""))

/-- Integers up to this one are exact. -/
def maxSafeInteger : ℕ := 2 ^ 53 - 1

/-! What the schema asks of each part beyond the kinds of its members. -/

def TenantInfo.Valid (t : TenantInfo) : Prop :=
  t.tenantId ≠ "" ∧ (t.encryptionMode = .tenant_dedicated → Given t.kmsKeyRef)

def PayloadEntry.Valid (e : PayloadEntry) : Prop := e.logicalName ≠ "" ∧ e.path ≠ "" ∧ e.checksum ≠ ""

def BlobEntry.Valid (e : BlobEntry) : Prop := e.path ≠ "" ∧ e.sha256 ≠ "" ∧ e.bytes ≤ maxSafeInteger

def Compatibility.Valid (c : Compatibility) : Prop := c.minImporterVersion ≠ ""

def Integrity.Valid (i : Integrity) : Prop :=
  i.manifestChecksum ≠ "" ∧ i.signaturePublicKey ≠ "" ∧ i.detachedSignaturePath ≠ ""

def EncryptionInfo.Valid (e : EncryptionInfo) : Prop :=
  match e.mode with
  | .passphrase => e.kdf ≠ none ∧ e.kmsKeyRef = none ∧ e.wrappedDataKeyPath = none
  | .kmsWrapped => Given e.kmsKeyRef ∧ Given e.wrappedDataKeyPath ∧ e.kdf = none
  | .none => e.kdf = none ∧ e.kmsKeyRef = none ∧ e.wrappedDataKeyPath = none

instance : DecidablePred TenantInfo.Valid := fun _ => inferInstanceAs (Decidable (_ ∧ (_ → _)))
instance : DecidablePred PayloadEntry.Valid := fun _ => inferInstanceAs (Decidable (_ ∧ _ ∧ _))
instance : DecidablePred BlobEntry.Valid := fun _ => inferInstanceAs (Decidable (_ ∧ _ ∧ _))
instance : DecidablePred Compatibility.Valid := fun _ => inferInstanceAs (Decidable (_ ≠ _))
instance : DecidablePred Integrity.Valid := fun _ => inferInstanceAs (Decidable (_ ∧ _ ∧ _))

instance : DecidablePred EncryptionInfo.Valid
  | ⟨.passphrase, _, _, _⟩ => inferInstanceAs (Decidable (_ ∧ _ ∧ _))
  | ⟨.kmsWrapped, _, _, _⟩ => inferInstanceAs (Decidable (_ ∧ _ ∧ _))
  | ⟨.none, _, _, _⟩ => inferInstanceAs (Decidable (_ ∧ _ ∧ _))

/-- A value that passes a check. -/
def checked {α : Type} (p : α → Prop) [DecidablePred p] (a : α) : Option α := if p a then some a else none

open Json

def TenantInfo.toJson (t : TenantInfo) : Json :=
  .obj (("tenantId", .str t.tenantId) :: ("deploymentMode", .str (word t.deploymentMode)) ::
    ("encryptionMode", .str (word t.encryptionMode)) :: (optionalMember "kmsKeyRef" (t.kmsKeyRef.map .str) ++ []))

def TenantInfo.ofJson (j : Json) : Option TenantInfo := do
  j.strict? ["tenantId", "deploymentMode", "encryptionMode", "kmsKeyRef"]
  let tenantId ← j.field? "tenantId" str?
  let deploymentMode ← j.field? "deploymentMode" (word? DeploymentMode)
  let encryptionMode ← j.field? "encryptionMode" (word? EncryptionMode)
  let kmsKeyRef ← j.optional? "kmsKeyRef" str?
  checked TenantInfo.Valid ⟨tenantId, deploymentMode, encryptionMode, kmsKeyRef⟩

def PayloadEntry.toJson (e : PayloadEntry) : Json :=
  .obj [("logicalName", .str e.logicalName), ("format", .str (word e.format)), ("path", .str e.path),
    ("checksum", .str e.checksum), ("required", .bool e.required)]

def PayloadEntry.ofJson (j : Json) : Option PayloadEntry := do
  j.strict? ["logicalName", "format", "path", "checksum", "required"]
  let logicalName ← j.field? "logicalName" str?
  let format ← j.field? "format" (word? PayloadFormat)
  let path ← j.field? "path" str?
  let checksum ← j.field? "checksum" str?
  let required ← j.field? "required" bool?
  checked PayloadEntry.Valid ⟨logicalName, format, path, checksum, required⟩

def BlobEntry.toJson (e : BlobEntry) : Json :=
  .obj [("path", .str e.path), ("sha256", .str e.sha256), ("bytes", .num (JsNumber.ofInt e.bytes))]

/-- A non-negative integer. -/
def natural? (j : Json) : Option ℕ := j.int?.bind Int.toNat?

def BlobEntry.ofJson (j : Json) : Option BlobEntry := do
  j.strict? ["path", "sha256", "bytes"]
  let path ← j.field? "path" str?
  let sha256 ← j.field? "sha256" str?
  let bytes ← j.field? "bytes" natural?
  checked BlobEntry.Valid ⟨path, sha256, bytes⟩

def Compatibility.toJson (c : Compatibility) : Json :=
  .obj [("minImporterVersion", .str c.minImporterVersion),
    ("featureFlagsRequired", .arr (c.featureFlagsRequired.map .str))]

def Compatibility.ofJson (j : Json) : Option Compatibility := do
  j.strict? ["minImporterVersion", "featureFlagsRequired"]
  let minImporterVersion ← j.field? "minImporterVersion" str?
  let featureFlagsRequired ← j.field? "featureFlagsRequired" (list? str?)
  checked Compatibility.Valid ⟨minImporterVersion, featureFlagsRequired⟩

def Integrity.toJson (i : Integrity) : Json :=
  .obj [("algorithm", .str (word i.algorithm)), ("manifestChecksum", .str i.manifestChecksum),
    ("signatureAlgorithm", .str (word i.signatureAlgorithm)), ("signaturePublicKey", .str i.signaturePublicKey),
    ("detachedSignaturePath", .str i.detachedSignaturePath)]

def Integrity.ofJson (j : Json) : Option Integrity := do
  j.strict? ["algorithm", "manifestChecksum", "signatureAlgorithm", "signaturePublicKey", "detachedSignaturePath"]
  let algorithm ← j.field? "algorithm" (word? ChecksumAlgorithm)
  let manifestChecksum ← j.field? "manifestChecksum" str?
  let signatureAlgorithm ← j.field? "signatureAlgorithm" (word? SignatureAlgorithm)
  let signaturePublicKey ← j.field? "signaturePublicKey" str?
  let detachedSignaturePath ← j.field? "detachedSignaturePath" str?
  checked Integrity.Valid ⟨algorithm, manifestChecksum, signatureAlgorithm, signaturePublicKey, detachedSignaturePath⟩

def EncryptionInfo.toJson (e : EncryptionInfo) : Json :=
  .obj (("mode", .str (word e.mode)) :: (optionalMember "kdf" (e.kdf.map fun k => .str (word k)) ++
    (optionalMember "kmsKeyRef" (e.kmsKeyRef.map .str) ++
      (optionalMember "wrappedDataKeyPath" (e.wrappedDataKeyPath.map .str) ++ []))))

def EncryptionInfo.ofJson (j : Json) : Option EncryptionInfo := do
  j.strict? ["mode", "kdf", "kmsKeyRef", "wrappedDataKeyPath"]
  let mode ← j.field? "mode" (word? EnvelopeMode)
  let kdf ← j.optional? "kdf" (word? Kdf)
  let kmsKeyRef ← j.optional? "kmsKeyRef" str?
  let wrappedDataKeyPath ← j.optional? "wrappedDataKeyPath" str?
  checked EncryptionInfo.Valid ⟨mode, kdf, kmsKeyRef, wrappedDataKeyPath⟩

/-! ## The manifest -/

/-- A manifest without `integrity`. -/
structure UnsignedManifest where
  exportedAt : String
  exportMode : ExportMode
  sourceRuntime : SourceRuntime
  sourceApiMajor : ApiMajor
  tenant : TenantInfo
  payloads : List PayloadEntry
  blobs : Option (List BlobEntry)
  compatibility : Compatibility
  encryption : Option EncryptionInfo
  deriving DecidableEq

structure PortabilityPackManifestV1 extends UnsignedManifest where
  integrity : Integrity
  deriving DecidableEq

def packSchemaVersion : String := "portability-pack.v1"

namespace UnsignedManifest

/-- The members before `integrity`. -/
def head (m : UnsignedManifest) : List (String × Json) :=
  ("schemaVersion", .str packSchemaVersion) :: ("exportedAt", .str m.exportedAt) ::
    ("exportMode", .str (word m.exportMode)) :: ("sourceRuntime", .str (word m.sourceRuntime)) ::
    ("sourceApiMajor", .str (word m.sourceApiMajor)) :: ("tenant", m.tenant.toJson) ::
    ("payloads", .arr (m.payloads.map PayloadEntry.toJson)) ::
    (optionalMember "blobs" (m.blobs.map fun blobs => .arr (blobs.map BlobEntry.toJson)) ++
      [("compatibility", m.compatibility.toJson)])

/-- The members after it. -/
def tail (m : UnsignedManifest) : List (String × Json) :=
  optionalMember "encryption" (m.encryption.map EncryptionInfo.toJson)

def toJson (m : UnsignedManifest) : Json := .obj (m.head ++ m.tail)

/-- What the schema asks of the manifest and its parts. -/
def Valid (m : UnsignedManifest) : Prop :=
  isDatetime m.exportedAt = true ∧ m.tenant.Valid ∧ (m.payloads ≠ [] ∧ ∀ e ∈ m.payloads, e.Valid) ∧
    (∀ blobs ∈ m.blobs, ∀ e ∈ blobs, e.Valid) ∧ m.compatibility.Valid ∧ ∀ e ∈ m.encryption, e.Valid

end UnsignedManifest

namespace PortabilityPackManifestV1

def toJson (m : PortabilityPackManifestV1) : Json :=
  .obj (m.head ++ ("integrity", m.integrity.toJson) :: m.tail)

/-- `PortabilityPackManifestV1Schema`. -/
def ofJson (j : Json) : Option PortabilityPackManifestV1 := do
  j.strict? ["schemaVersion", "exportedAt", "exportMode", "sourceRuntime", "sourceApiMajor", "tenant", "payloads",
    "blobs", "compatibility", "integrity", "encryption"]
  let _ ← (← j.field? "schemaVersion" str?) |> checked (· = packSchemaVersion)
  let exportedAt ← (← j.field? "exportedAt" str?) |> checked (isDatetime · = true)
  let exportMode ← j.field? "exportMode" (word? ExportMode)
  let sourceRuntime ← j.field? "sourceRuntime" (word? SourceRuntime)
  let sourceApiMajor ← j.field? "sourceApiMajor" (word? ApiMajor)
  let tenant ← j.field? "tenant" TenantInfo.ofJson
  let payloads ← (← j.field? "payloads" (list? PayloadEntry.ofJson)) |> checked (· ≠ [])
  let blobs ← j.optional? "blobs" (list? BlobEntry.ofJson)
  let compatibility ← j.field? "compatibility" Compatibility.ofJson
  let integrity ← j.field? "integrity" Integrity.ofJson
  let encryption ← j.optional? "encryption" EncryptionInfo.ofJson
  some ⟨⟨exportedAt, exportMode, sourceRuntime, sourceApiMajor, tenant, payloads, blobs, compatibility, encryption⟩,
    integrity⟩

end PortabilityPackManifestV1

/-! ## What is written is read -/

theorem checked_eq {α : Type} {p : α → Prop} [DecidablePred p] {a : α} (h : p a) : checked p a = some a := if_pos h

theorem TenantInfo.ofJson_toJson {t : TenantInfo} (h : t.Valid) : ofJson t.toJson = some t := by
  have hstrict : t.toJson.strict? ["tenantId", "deploymentMode", "encryptionMode", "kmsKeyRef"] = some () := by
    refine strict?_obj fun m hm => ?_
    simp only [List.mem_cons, List.append_nil] at hm
    rcases hm with rfl | rfl | rfl | hm
    · simp
    · simp
    · simp
    · simp [mem_optionalMember hm]
  have href : t.toJson.optional? "kmsKeyRef" str? = some t.kmsKeyRef := by
    cases hk : t.kmsKeyRef with
    | none => simp [toJson, optional?, get?_cons, hk, optionalMember]
    | some ref => simp [toJson, optional?, get?_cons, hk, optionalMember]
  rw [ofJson, hstrict, href]
  simp [toJson, field?, get?_cons, checked_eq h]

theorem PayloadEntry.ofJson_toJson {e : PayloadEntry} (h : e.Valid) : ofJson e.toJson = some e := by
  simp [ofJson, toJson, strict?, field?, get?_cons, checked_eq h]

theorem natural?_ofInt (n : ℕ) : natural? (.num (JsNumber.ofInt n)) = some n := by
  rw [natural?, int?_num_ofInt]
  rfl

theorem BlobEntry.ofJson_toJson {e : BlobEntry} (h : e.Valid) : ofJson e.toJson = some e := by
  simp [ofJson, toJson, strict?, field?, get?_cons, natural?_ofInt, checked_eq h]

theorem Compatibility.ofJson_toJson {c : Compatibility} (h : c.Valid) : ofJson c.toJson = some c := by
  have hflags : list? str? (.arr (c.featureFlagsRequired.map .str)) = some c.featureFlagsRequired :=
    list?_arr fun _ _ => rfl
  simp [ofJson, toJson, strict?, field?, get?_cons, hflags, checked_eq h]

theorem Integrity.ofJson_toJson {i : Integrity} (h : i.Valid) : ofJson i.toJson = some i := by
  simp [ofJson, toJson, strict?, field?, get?_cons, checked_eq h]

theorem EncryptionInfo.ofJson_toJson {e : EncryptionInfo} (h : e.Valid) : ofJson e.toJson = some e := by
  have hstrict : e.toJson.strict? ["mode", "kdf", "kmsKeyRef", "wrappedDataKeyPath"] = some () := by
    refine strict?_obj fun m hm => ?_
    simp only [List.mem_cons, List.mem_append, List.append_nil] at hm
    rcases hm with rfl | hm | hm | hm
    · simp
    · simp [mem_optionalMember hm]
    · simp [mem_optionalMember hm]
    · simp [mem_optionalMember hm]
  obtain ⟨mode, kdf, kmsKeyRef, path⟩ := e
  rw [ofJson, hstrict]
  cases kdf <;> cases kmsKeyRef <;> cases path <;>
    simp [toJson, field?, optional?, get?_cons, optionalMember, checked_eq h]

namespace UnsignedManifest

variable {m : UnsignedManifest} {integrity : Integrity}

theorem name_mem {member : String × Json}
    (h : member ∈ m.head ++ ("integrity", integrity.toJson) :: m.tail) :
    member.1 ∈ ["schemaVersion", "exportedAt", "exportMode", "sourceRuntime", "sourceApiMajor", "tenant", "payloads",
      "blobs", "compatibility", "integrity", "encryption"] := by
  simp only [head, tail, List.mem_cons, List.mem_append, List.not_mem_nil, or_false] at h
  rcases h with (rfl | rfl | rfl | rfl | rfl | rfl | rfl | h | rfl) | rfl | h
  case inl.inr.inr.inr.inr.inr.inr.inr.inl => simp [mem_optionalMember h]
  case inr.inr => simp [mem_optionalMember h]
  all_goals simp

end UnsignedManifest

namespace PortabilityPackManifestV1

/-- **What is written of a valid manifest is read as the manifest.** -/
theorem ofJson_toJson {m : PortabilityPackManifestV1} (h : m.Valid) (hi : m.integrity.Valid) :
    ofJson m.toJson = some m := by
  obtain ⟨hdate, htenant, ⟨hne, hentries⟩, hblobs, hcompatibility, hencryption⟩ := h
  have hstrict := strict?_obj fun _ => @UnsignedManifest.name_mem m.toUnsignedManifest m.integrity _
  have hpayloads : list? PayloadEntry.ofJson (.arr (m.payloads.map PayloadEntry.toJson)) = some m.payloads :=
    list?_arr fun e he => PayloadEntry.ofJson_toJson (hentries e he)
  have hread : ∀ blobs ∈ m.blobs, list? BlobEntry.ofJson (.arr (blobs.map BlobEntry.toJson)) = some blobs :=
    fun blobs hb => list?_arr fun e he => BlobEntry.ofJson_toJson (hblobs blobs hb e he)
  obtain ⟨⟨exportedAt, exportMode, sourceRuntime, sourceApiMajor, tenant, payloads, blobs, compatibility, encryption⟩,
    integrity⟩ := m
  rw [ofJson, toJson, hstrict]
  cases blobs with
  | none =>
    cases encryption with
    | none =>
      simp [UnsignedManifest.head, UnsignedManifest.tail, field?, optional?, get?_cons, optionalMember, checked,
        hdate, hne, hpayloads, TenantInfo.ofJson_toJson htenant, Compatibility.ofJson_toJson hcompatibility,
        Integrity.ofJson_toJson hi]
    | some encryption =>
      simp [UnsignedManifest.head, UnsignedManifest.tail, field?, optional?, get?_cons, optionalMember, checked,
        hdate, hne, hpayloads, TenantInfo.ofJson_toJson htenant, Compatibility.ofJson_toJson hcompatibility,
        Integrity.ofJson_toJson hi, EncryptionInfo.ofJson_toJson (hencryption _ rfl)]
  | some blobs =>
    cases encryption with
    | none =>
      simp [UnsignedManifest.head, UnsignedManifest.tail, field?, optional?, get?_cons, optionalMember, checked,
        hdate, hne, hpayloads, hread _ rfl, TenantInfo.ofJson_toJson htenant,
        Compatibility.ofJson_toJson hcompatibility, Integrity.ofJson_toJson hi]
    | some encryption =>
      simp [UnsignedManifest.head, UnsignedManifest.tail, field?, optional?, get?_cons, optionalMember, checked,
        hdate, hne, hpayloads, hread _ rfl, TenantInfo.ofJson_toJson htenant,
        Compatibility.ofJson_toJson hcompatibility, Integrity.ofJson_toJson hi,
        EncryptionInfo.ofJson_toJson (hencryption _ rfl)]

end PortabilityPackManifestV1

/-! ## What is written tells what it is written from -/

theorem str_injective : Function.Injective Json.str := fun _ _ h => Json.str.inj h

theorem TenantInfo.toJson_injective : Function.Injective toJson := by
  rintro ⟨id, deployment, encryption, ref⟩ ⟨id', deployment', encryption', ref'⟩ h
  simp only [toJson, Json.obj.injEq, List.cons.injEq, Prod.mk.injEq, Json.str.injEq, true_and, List.append_nil,
    optionalMember_inj, Worded.word_injective.eq_iff] at h
  obtain ⟨rfl, rfl, rfl, hr⟩ := h
  rw [Option.map_injective str_injective hr]

theorem PayloadEntry.toJson_injective : Function.Injective toJson := by
  rintro ⟨name, format, path, checksum, required⟩ ⟨name', format', path', checksum', required'⟩ h
  simp only [toJson, Json.obj.injEq, List.cons.injEq, Prod.mk.injEq, Json.str.injEq, Json.bool.injEq, true_and,
    and_true, Worded.word_injective.eq_iff] at h
  obtain ⟨rfl, rfl, rfl, rfl, rfl⟩ := h
  rfl

theorem BlobEntry.toJson_injective : Function.Injective toJson := by
  rintro ⟨path, sha256, bytes⟩ ⟨path', sha256', bytes'⟩ h
  simp only [toJson, Json.obj.injEq, List.cons.injEq, Prod.mk.injEq, Json.str.injEq, Json.num.injEq, true_and,
    and_true, JsNumber.ofInt_injective.eq_iff, Nat.cast_inj] at h
  obtain ⟨rfl, rfl, rfl⟩ := h
  rfl

theorem Compatibility.toJson_injective : Function.Injective toJson := by
  rintro ⟨version, flags⟩ ⟨version', flags'⟩ h
  simp only [toJson, Json.obj.injEq, List.cons.injEq, Prod.mk.injEq, Json.str.injEq, Json.arr.injEq, true_and,
    and_true] at h
  obtain ⟨rfl, hf⟩ := h
  rw [List.map_injective_iff.2 str_injective hf]

theorem EncryptionInfo.toJson_injective : Function.Injective toJson := by
  rintro ⟨mode, kdf, ref, path⟩ ⟨mode', kdf', ref', path'⟩ h
  simp only [toJson, Json.obj.injEq, List.cons.injEq, Prod.mk.injEq, Json.str.injEq, true_and,
    Worded.word_injective.eq_iff] at h
  obtain ⟨rfl, h⟩ := h
  have hword : Function.Injective fun k : Kdf => Json.str (word k) := str_injective.comp Worded.word_injective
  cases kdf <;> cases kdf' <;> cases ref <;> cases ref' <;> cases path <;> cases path' <;>
    simp_all [optionalMember, hword.eq_iff]

/-- **A manifest without `integrity` is told by its text.** -/
theorem UnsignedManifest.toJson_injective : Function.Injective toJson := by
  rintro ⟨date, mode, runtime, major, tenant, payloads, blobs, compatibility, encryption⟩
    ⟨date', mode', runtime', major', tenant', payloads', blobs', compatibility', encryption'⟩ h
  simp only [toJson, head, tail, Json.obj.injEq, List.cons_append, List.append_assoc, List.nil_append, List.cons.injEq,
    Prod.mk.injEq, Json.str.injEq, Json.arr.injEq, true_and, Worded.word_injective.eq_iff,
    TenantInfo.toJson_injective.eq_iff, (List.map_injective_iff.2 PayloadEntry.toJson_injective).eq_iff] at h
  obtain ⟨rfl, rfl, rfl, rfl, rfl, rfl, h⟩ := h
  have hblobs := List.map_injective_iff.2 BlobEntry.toJson_injective
  cases blobs <;> cases blobs' <;> cases encryption <;> cases encryption' <;>
    simp_all [optionalMember, hblobs.eq_iff, Compatibility.toJson_injective.eq_iff,
      EncryptionInfo.toJson_injective.eq_iff]

end ChronoSynth.Privacy

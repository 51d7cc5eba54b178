import ChronoSynth.Lib.HashChain
import ChronoSynth.Lib.JsonText

/-!
# The audit hash chain: hashing and the walk

The pure half of the audit chain: the twenty fields that enter a record's hash, their canonical
serialisation, and `verifyChain`, which walks rows in ascending order and reports every break.

`sha256` (the hex digest of a text) is a parameter throughout; nothing is assumed about it.

The walk is related to the general theory once and for all by `verifyChain_ok_iff`: it reports no
break exactly when the rows are `HashChain.Linked` from the walk's starting point.
-/

namespace ChronoSynth

/-- `GENESIS_HASH`: what the first record of a tenant follows. -/
def GENESIS_HASH : String := String.ofList (List.replicate 64 '0')

/-- A whole number as a program holds it that got it from the database: a number, or text when the
driver hands 64-bit columns over as text. -/
inductive SqlInt
  | num (n : ℤ)
  | text (s : String)
  deriving DecidableEq

namespace SqlInt

/-- The value of a text of decimal digits, with or without a minus sign. -/
def textValue : List Char → ℤ
  | '-' :: cs => -Nat.ofDigitChars 10 cs 0
  | cs => Nat.ofDigitChars 10 cs 0

/-- `Number(x)`. -/
def number : SqlInt → ℤ
  | num n => n
  | text s => textValue s.toList

/-- `x + 1` as the language evaluates it: addition on numbers, concatenation on text. -/
def plusOne : SqlInt → SqlInt
  | num n => num (n + 1)
  | text s => text (s ++ "1")

/-- The value in a JSON text. -/
def toJson : SqlInt → Json
  | num n => .num n
  | text s => .str s

end SqlInt

def jsonText (s : Option String) : Json := s.elim .null .str

/-- The fields that take part in a record's hash. -/
structure AuditHashInput where
  /-- The record's id. -/
  id : String
  /-- The tenant whose chain it is part of. -/
  tenantId : String
  /-- `request` or `business`. -/
  eventKind : String
  /-- When it was recorded. -/
  createdAt : ℤ
  /-- Its number in the chain. -/
  chainSeq : SqlInt
  /-- The hash of the record before it. -/
  prevHash : Option String
  method : String
  path : String
  requestId : String
  statusCode : ℤ
  latencyMs : JsNumber
  apiKeyHash : Option String
  userId : Option String
  userEmail : Option String
  actorType : Option String
  actorId : Option String
  actionType : Option String
  targetType : Option String
  targetId : Option String
  /-- The payload, serialised already. -/
  payloadJson : Option String
  deriving DecidableEq

/-- The fields in the order of their names, nulls written out. -/
def canonicalSerialize (input : AuditHashInput) : String :=
  Json.stringify (.obj [
    ("actionType", jsonText input.actionType),
    ("actorId", jsonText input.actorId),
    ("actorType", jsonText input.actorType),
    ("apiKeyHash", jsonText input.apiKeyHash),
    ("chainSeq", input.chainSeq.toJson),
    ("createdAt", .num input.createdAt),
    ("eventKind", .str input.eventKind),
    ("id", .str input.id),
    ("latencyMs", .num input.latencyMs),
    ("method", .str input.method),
    ("path", .str input.path),
    ("payloadJson", jsonText input.payloadJson),
    ("prevHash", jsonText input.prevHash),
    ("requestId", .str input.requestId),
    ("statusCode", .num input.statusCode),
    ("targetId", jsonText input.targetId),
    ("targetType", jsonText input.targetType),
    ("tenantId", .str input.tenantId),
    ("userEmail", jsonText input.userEmail),
    ("userId", jsonText input.userId)])

def computeRecordHash (sha256 : String → String) (input : AuditHashInput) : String :=
  sha256 (canonicalSerialize input)

/-! ## The hash tells the fields -/

theorem jsonText_injective : Function.Injective jsonText := by
  intro s t h
  cases s <;> cases t <;> simp_all [jsonText]

theorem jsonText_scalar (s : Option String) : (jsonText s).Scalar := by
  cases s with
  | none => exact .null
  | some s => exact .str s

theorem SqlInt.toJson_injective : Function.Injective SqlInt.toJson := by
  intro m n h
  cases m <;> cases n <;> simp_all [SqlInt.toJson, JsNumber.ofInt_injective.eq_iff]

theorem SqlInt.toJson_scalar (n : SqlInt) : n.toJson.Scalar := by
  cases n with
  | num n => exact .num _
  | text s => exact .str s

/-- Records that serialise alike are alike. -/
theorem canonicalSerialize_injective : Function.Injective canonicalSerialize := by
  intro x y h
  have hmembers := Json.flat_injective
    (by
      simp only [Json.Flat, List.forall_mem_cons, List.not_mem_nil, false_implies, implies_true,
        jsonText_scalar, SqlInt.toJson_scalar, Json.Scalar.num, Json.Scalar.str, and_self])
    (by
      simp only [Json.Flat, List.forall_mem_cons, List.not_mem_nil, false_implies, implies_true,
        jsonText_scalar, SqlInt.toJson_scalar, Json.Scalar.num, Json.Scalar.str, and_self]) h
  simp only [List.cons.injEq, Prod.mk.injEq, true_and, and_true, jsonText_injective.eq_iff,
    SqlInt.toJson_injective.eq_iff, Json.num.injEq, Json.str.injEq,
    JsNumber.ofInt_injective.eq_iff] at hmembers
  cases x
  cases y
  simp_all

theorem computeRecordHash_injective {sha256 : String → String}
    (hsha : Function.Injective sha256) : Function.Injective (computeRecordHash sha256) :=
  hsha.comp canonicalSerialize_injective

/-- A row as the walk sees it: the hashed fields, the number and the two hashes all present. -/
structure VerifiableRow where
  /-- The hashed fields. -/
  input : AuditHashInput
  /-- The number, as `Number(row.chain_seq)` gives it. -/
  chainSeq : ℤ
  /-- The hash it says it follows. -/
  prevHash : String
  /-- The hash it says it has. -/
  recordHash : String
  /-- The number that is hashed is the row's number. -/
  seq_eq : input.chainSeq = .num chainSeq
  prev_eq : input.prevHash = some prevHash
  deriving DecidableEq

/-- Why the walk reports a break. -/
inductive ChainBreakReason
  | prevHashMismatch | recordHashMismatch | seqGap
  deriving DecidableEq, Repr

structure ChainBreak where
  chainSeq : ℤ
  id : String
  reason : ChainBreakReason
  expected : String
  actual : String
  deriving DecidableEq, Repr

/-- What a walk finds. -/
structure ChainVerifyResult where
  /-- No break was found. -/
  ok : Bool
  totalChecked : ℕ
  breaks : List ChainBreak
  deriving DecidableEq, Repr

/-- Where a walk starts; what is left out is the start of the whole chain. -/
structure VerifyChainStart where
  expectedSeq : Option ℤ := none
  expectedPrev : Option String := none

/-- The accumulators of the walk. -/
structure ChainWalk where
  breaks : List ChainBreak
  expectedSeq : ℤ
  expectedPrev : String

/-- The body of the walk's loop. -/
def ChainWalk.next (sha256 : String → String) (w : ChainWalk) (row : VerifiableRow) : ChainWalk :=
  let recomputed := computeRecordHash sha256 row.input
  let gap :=
    if row.chainSeq ≠ w.expectedSeq then
      [⟨row.chainSeq, row.input.id, .seqGap, toString w.expectedSeq, toString row.chainSeq⟩]
    else []
  let prev :=
    if row.prevHash ≠ w.expectedPrev then
      [⟨row.chainSeq, row.input.id, .prevHashMismatch, w.expectedPrev, row.prevHash⟩]
    else []
  let hash :=
    if recomputed ≠ row.recordHash then
      [⟨row.chainSeq, row.input.id, .recordHashMismatch, recomputed, row.recordHash⟩]
    else []
  { breaks := w.breaks ++ gap ++ prev ++ hash
    -- after a gap the walk goes on from the row it saw
    expectedSeq := row.chainSeq + 1
    expectedPrev := row.recordHash }

/-- Walk the rows and report every break. -/
def verifyChain (sha256 : String → String) (rows : List VerifiableRow)
    (start : VerifyChainStart) : ChainVerifyResult :=
  let w := rows.foldl (ChainWalk.next sha256)
    ⟨[], start.expectedSeq.getD 1, start.expectedPrev.getD GENESIS_HASH⟩
  { ok := w.breaks.isEmpty, totalChecked := rows.length, breaks := w.breaks }

/-! ## The walk accepts exactly the linked rows -/

section Walk

variable (sha256 : String → String)

def auditChain : HashChain VerifiableRow String where
  seq := VerifiableRow.chainSeq
  prev := VerifiableRow.prevHash
  hash := VerifiableRow.recordHash
  digest row := computeRecordHash sha256 row.input

variable {sha256}

theorem ChainWalk.next_breaks_eq_nil {w : ChainWalk} {row : VerifiableRow} :
    (w.next sha256 row).breaks = [] ↔
      w.breaks = [] ∧ row.chainSeq = w.expectedSeq ∧ row.prevHash = w.expectedPrev ∧
        row.recordHash = computeRecordHash sha256 row.input := by
  simp only [ChainWalk.next, List.append_eq_nil_iff, ite_eq_right_iff, List.cons_ne_nil, imp_false,
    not_not, and_assoc, eq_comm (a := computeRecordHash sha256 row.input)]

theorem ChainWalk.foldl_breaks_eq_nil {rows : List VerifiableRow} {w : ChainWalk} :
    (rows.foldl (ChainWalk.next sha256) w).breaks = [] ↔
      w.breaks = [] ∧ (auditChain sha256).Linked w.expectedSeq w.expectedPrev rows := by
  induction rows generalizing w with
  | nil => simp
  | cons row rows ih =>
    rw [List.foldl_cons, ih, ChainWalk.next_breaks_eq_nil, HashChain.linked_cons]
    constructor
    · rintro ⟨⟨hw, hs, hp, hh⟩, hl⟩
      exact ⟨hw, hs, hp, hh, by rw [← hs]; exact hl⟩
    · rintro ⟨hw, hs, hp, hh, hl⟩
      refine ⟨⟨hw, hs, hp, hh⟩, ?_⟩
      rw [← hs] at hl
      exact hl

/-- **The walk, exactly.** `verifyChain` reports ok if and only if the rows are linked from the
number and the hash it starts at. -/
theorem verifyChain_ok_iff {rows : List VerifiableRow} {start : VerifyChainStart} :
    (verifyChain sha256 rows start).ok = true ↔
      (auditChain sha256).Linked (start.expectedSeq.getD 1)
        (start.expectedPrev.getD GENESIS_HASH) rows := by
  simp only [verifyChain, List.isEmpty_iff, ChainWalk.foldl_breaks_eq_nil, true_and]

end Walk

end ChronoSynth

import Mathlib.Data.String.Basic
import ChronoSynth.Privacy.Packs

/-!
# The rows of a pack

The transaction of `commitImport`: every row of a payload becomes an upsert of its own, with the tenant's id put in
place of the row's, and a row that the database refuses is counted and left behind.

* SQLite's rules: a statement that fails leaves nothing, and the ones around it stand.
* `ServerSchema` — the tables of `tenantTables` have a `tenant_id` that is a text.
* `importRows_touches`, `importRows_comes` — the transaction writes rows of the tenant only, and only such as come
  from the payloads' rows.
* The texts of the failures are left out.
-/

namespace ChronoSynth.Privacy

open Sql Json

structure ServerSchema extends Schema where
  tenantId_mem : ∀ t ∈ tenantTables, "tenant_id" ∈ (toSchema.table t).columns
  tenantId_text : ∀ t ∈ tenantTables, ∀ rows s, (toSchema.table t).affinity rows "tenant_id" (.text s) = .text s

/-! ## Rows of a payload -/

abbrev Record := List (String × Json)

/-- `{ ...row }` of an object. -/
def recordOf : Json → Option Record
  | .obj members => some members
  | .arr elems => some (elems.zipIdx.map fun e => (toString e.2, e.1))
  | .null | .bool _ | .num _ | .str _ => none

section
variable (toNumber : Json → ℚ)

/-- `rows[0]`, … up to `rows.length`; `none` where there is nothing to go through. The elements of a text are no
objects, and a `length` that is no number is made one. -/
def payloadRows : Json → Option (List (Option Json))
  | .null => none
  | .bool b => if b then some [] else none
  | .num x => if x.val = 0 then none else some []
  | .str s => if s = "" then none else some []
  | .arr elems => if elems.isEmpty then none else some (elems.map some)
  | .obj members =>
    match (obj members).get? "length" with
    | none => some []
    | some (.num x) =>
      if x.val = 0 then none else some ((List.range ⌈x.val⌉.toNat).map fun i => (obj members).get? (toString i))
    | some length => some ((List.range ⌈toNumber length⌉.toNat).map fun i => (obj members).get? (toString i))

/-- `bundledPayloads?.[table]`, as far as it is gone through. -/
def rowsOf (payloads : Option Json) (table : String) : Option (List (Option Json)) :=
  (payloads.bind (Json.get? table)).bind (payloadRows toNumber)

end

/-! ## One row -/

/-- A value as it is bound to a statement. -/
def bindValue : Json → SqlValue
  | .null => .null
  | .num x => .number (.finite x)
  | .str s => .text s
  | value => .text value.stringify

/-- `a > b` of two values: numbers come before texts, and nothing is greater than `NULL`. -/
def SqlValue.gt : SqlValue → SqlValue → Bool
  | .number (.finite x), .number (.finite y) => y.val < x.val
  | .number (.infinite negative), .number (.finite _) => !negative
  | .number (.finite _), .number (.infinite negative) => negative
  | .number (.infinite negative), .number (.infinite negative') => !negative && negative'
  | .text s, .text s' => s' < s
  | .text _, .number _ => true
  | _, _ => false

def withTenant (t : TableSchema) (tenantId : String) (record : Record) : Record :=
  if "tenant_id" ∈ t.columns then ("tenant_id", .str tenantId) :: record else record

/-- A single key column and an `updated_at`. -/
def versionAware (t : TableSchema) : Prop := "updated_at" ∈ t.columns ∧ t.pkColumns.length = 1

instance : DecidablePred versionAware := fun _ => inferInstanceAs (Decidable (_ ∧ _))

/-- The statement for a record, which has got the tenant's id. -/
def rowStatement (S : Schema) (table : String) (record : Record) : Upsert where
  table := table
  cols := (record.map Prod.fst).filter (· ∈ (S.table table).columns)
  values c := ((obj record).get? c).elim .null bindValue
  guard new old :=
    (!decide (versionAware (S.table table) ∧ ((obj record).get? "updated_at").any (!·.isNull)) ||
        SqlValue.gt (new "updated_at") (old "updated_at")) &&
      (!decide ("tenant_id" ∈ (S.table table).columns) ||
        decide (old "tenant_id" ≠ .null ∧ old "tenant_id" = new "tenant_id"))

structure ImportCounts where
  imported : ℕ
  skipped : ℕ
  failed : ℕ
  staleSkipped : ℕ
  /-- Table and index of the rows that failed. -/
  failures : List (String × ℕ)
  deriving DecidableEq

def ImportCounts.zero : ImportCounts := ⟨0, 0, 0, 0, []⟩

def maxFailureDetails : ℕ := 50

section
variable (S : Schema) (tenantId : String)

/-- The step of the loop over a payload's rows. -/
def importRow (table : String) (st : Db × ImportCounts) (row : Option Json × ℕ) : Db × ImportCounts :=
  match row.1.bind recordOf with
  | none => st
  | some record =>
    let stmt := rowStatement S table (withTenant (S.table table) tenantId record)
    if stmt.cols = [] then st
    else
      match S.upsert stmt st.1 with
      | .ok (db, 0) => (db, { st.2 with staleSkipped := st.2.staleSkipped + 1 })
      | .ok (db, _) => (db, { st.2 with imported := st.2.imported + 1 })
      | .error () =>
        (st.1, { st.2 with
          failed := st.2.failed + 1
          failures := if st.2.failures.length < maxFailureDetails then st.2.failures ++ [(table, row.2)]
            else st.2.failures })

variable (toNumber : Json → ℚ)

/-- The step of the loop over the manifest's payloads. -/
def importPayload (payloads : Option Json) (st : Db × ImportCounts) (payload : PayloadEntry) : Db × ImportCounts :=
  if payload.logicalName ∈ tenantTables then
    match rowsOf toNumber payloads payload.logicalName with
    | none => (st.1, { st.2 with skipped := st.2.skipped + 1 })
    | some rows => rows.zipIdx.foldl (importRow S tenantId payload.logicalName) st
  else (st.1, { st.2 with skipped := st.2.skipped + 1 })

/-- What an import is recorded by in `import_jobs`. -/
def importJobStatement (importId manifestChecksum : String) (counts : ImportCounts) (now : ℤ) : Upsert where
  table := "import_jobs"
  cols := ["id", "tenant_id", "state", "manifest_checksum", "imported_count", "skipped_count", "created_at",
    "completed_at"]
  values
    | "id" => .text importId
    | "tenant_id" => .text tenantId
    | "state" => .text "completed"
    | "manifest_checksum" => .text manifestChecksum
    | "imported_count" => .number (.finite (JsNumber.ofInt counts.imported))
    | "skipped_count" => .number (.finite (JsNumber.ofInt counts.skipped))
    | "created_at" | "completed_at" => .number (.finite (JsNumber.ofInt now))
    | _ => .null
  guard _ _ := false

/-- What `commitImport` does between `BEGIN` and `COMMIT`; `none` where it rolls back. -/
def importRows (importId manifestChecksum : String) (manifest : PortabilityPackManifestV1) (payloads : Option Json)
    (now : ℤ) (db : Db) : Option (Db × ImportCounts) :=
  let st := manifest.payloads.foldl (importPayload S tenantId toNumber payloads) (db, .zero)
  match S.insert (importJobStatement tenantId importId manifestChecksum st.2 now) st.1 with
  | .ok (db', _) => some (db', st.2)
  | .error () => none

end

/-! ## Rows of the tenant -/

section
variable {S : ServerSchema} {tenantId table : String} {record : Record} {rows : List Row}

/-- The statement of a record, and the row it is to insert. -/
abbrev tenantStatement (S : Schema) (tenantId table : String) (record : Record) : Upsert :=
  rowStatement S table (withTenant (S.table table) tenantId record)

abbrev tenantRow (S : Schema) (tenantId table : String) (record : Record) (rows : List Row) : Row :=
  (tenantStatement S tenantId table record).row (S.table table) rows

theorem isTenantRow_tenantRow (ht : table ∈ tenantTables) :
    isTenantRow tenantId (tenantRow S.toSchema tenantId table record rows) := by
  have hcol := S.tenantId_mem table ht
  have hrecord : withTenant (S.table table) tenantId record = ("tenant_id", .str tenantId) :: record := if_pos hcol
  rw [isTenantRow, tenantRow, Upsert.row, if_pos]
  · simp [rowStatement, hrecord, get?_cons, bindValue, S.tenantId_text table ht]
  · simp [rowStatement, hrecord, hcol]

theorem isTenantRow_of_applies (ht : table ∈ tenantTables) {old : Row}
    (h : (tenantStatement S.toSchema tenantId table record).Applies (S.table table)
      (tenantRow S.toSchema tenantId table record rows) old) : isTenantRow tenantId old := by
  have hguard := h.2
  simp only [tenantStatement, rowStatement, S.tenantId_mem table ht, decide_true, Bool.not_true, Bool.false_or,
    Bool.and_eq_true, decide_eq_true_eq] at hguard
  exact hguard.2.2.trans (isTenantRow_tenantRow ht)

theorem isTenantRow_merge (ht : table ∈ tenantTables) {old : Row} (h : isTenantRow tenantId old) :
    isTenantRow tenantId ((tenantStatement S.toSchema tenantId table record).merge (S.table table)
      (tenantRow S.toSchema tenantId table record rows) old) := by
  rw [isTenantRow, Upsert.merge]
  split_ifs
  · exact isTenantRow_tenantRow ht
  · exact h

end

/-- What the import's rows come from: the rows that were there, and the records of the pack. -/
inductive Comes (S : Schema) (tenantId : String) (records : String → List Record) (db : Db) (table : String) : Row → Prop
  | kept {r : Row} : r ∈ db table → Comes S tenantId records db table r
  | inserted {record : Record} {rows : List Row} : record ∈ records table →
      Comes S tenantId records db table (tenantRow S tenantId table record rows)
  | updated {record : Record} {rows : List Row} {old : Row} : record ∈ records table →
      Comes S tenantId records db table old →
      (tenantStatement S tenantId table record).Applies (S.table table) (tenantRow S tenantId table record rows) old →
      Comes S tenantId records db table ((tenantStatement S tenantId table record).merge (S.table table)
        (tenantRow S tenantId table record rows) old)

section
variable {S : ServerSchema} {tenantId : String} {records : String → List Record} {db : Db}

/-- The tenant's rows are touched, and every row comes from the pack or was there. -/
structure Imported (S : ServerSchema) (tenantId : String) (records : String → List Record) (db db' : Db) : Prop where
  touches : Touches (fun _ => isTenantRow tenantId) db db'
  comes : ∀ table, ∀ r ∈ db' table, Comes S.toSchema tenantId records db table r

theorem Imported.refl (db : Db) : Imported S tenantId records db db := ⟨.refl db, fun _ _ hr => .kept hr⟩

/-- **One row.** -/
theorem Imported.importRow {table : String} (ht : table ∈ tenantTables) {st : Db × ImportCounts}
    (h : Imported S tenantId records db st.1) {row : Option Json × ℕ}
    (hrow : ∀ record ∈ row.1.bind recordOf, record ∈ records table) :
    Imported S tenantId records db (Privacy.importRow S.toSchema tenantId table st row).1 := by
  unfold Privacy.importRow
  cases hrecord : row.1.bind recordOf with
  | none => exact h
  | some record =>
    have hmem := hrow record hrecord
    change Imported S tenantId records db (if (tenantStatement S.toSchema tenantId table record).cols = [] then st
      else _).1
    by_cases hcols : (tenantStatement S.toSchema tenantId table record).cols = []
    · rwa [if_pos hcols]
    · rw [if_neg hcols]
      cases hstmt : S.upsert (tenantStatement S.toSchema tenantId table record) st.1 with
      | error e => exact h
      | ok out =>
        obtain ⟨db', n⟩ := out
        have hdb : Imported S tenantId records db db' := by
          refine ⟨h.touches.trans (Schema.upsert_touches hstmt (isTenantRow_tenantRow ht) fun old happlies => ?_), ?_⟩
          · have hold := isTenantRow_of_applies ht happlies
            exact ⟨hold, isTenantRow_merge ht hold⟩
          · intro t r hr
            rcases Schema.mem_of_upsert hstmt hr with hr | ⟨rfl, rfl | ⟨old, hold, happlies, rfl⟩⟩
            · exact h.comes t r hr
            · exact .inserted hmem
            · exact .updated hmem (h.comes _ old hold) happlies
        cases n with
        | zero => exact hdb
        | succ n => exact hdb

def recordsOf (toNumber : Json → ℚ) (manifest : PortabilityPackManifestV1) (payloads : Option Json) (table : String) :
    List Record :=
  if table ∈ tenantTables ∧ table ∈ manifest.payloads.map (·.logicalName) then
    ((rowsOf toNumber payloads table).getD []).filterMap (·.bind recordOf)
  else []

/-- **One payload.** -/
theorem Imported.importPayload {toNumber : Json → ℚ} {payloads : Option Json} {payload : PayloadEntry}
    {st : Db × ImportCounts} (h : Imported S tenantId records db st.1)
    (hpayload : payload.logicalName ∈ tenantTables →
      ∀ row ∈ (rowsOf toNumber payloads payload.logicalName).getD [], ∀ record ∈ row.bind recordOf,
        record ∈ records payload.logicalName) :
    Imported S tenantId records db (Privacy.importPayload S.toSchema tenantId toNumber payloads st payload).1 := by
  unfold Privacy.importPayload
  split_ifs with ht
  · cases hrows : rowsOf toNumber payloads payload.logicalName with
    | none => exact h
    | some rows =>
      have hmem : ∀ row ∈ rows, ∀ record ∈ row.bind recordOf, record ∈ records payload.logicalName := by
        simpa [hrows] using hpayload ht
      refine List.foldlRecOn (motive := fun st : Db × ImportCounts => Imported S tenantId records db st.1)
        rows.zipIdx _ h fun st hst row hrow => hst.importRow ht (hmem row.1 ?_)
      exact (List.mem_zipIdx' hrow).2 ▸ List.getElem_mem _
  · exact h

/-- **The whole transaction**: apart from the record of the import itself, rows of the tenant are written that come
from the pack. -/
theorem importRows_imported {toNumber : Json → ℚ} {importId manifestChecksum : String}
    {manifest : PortabilityPackManifestV1} {payloads : Option Json} {now : ℤ} {db' : Db} {counts : ImportCounts}
    (h : importRows S.toSchema tenantId toNumber importId manifestChecksum manifest payloads now db = some (db', counts)) :
    ∃ rows, Imported S tenantId (recordsOf toNumber manifest payloads) db rows ∧
      db' = rows.set "import_jobs" (rows "import_jobs" ++
        [(importJobStatement tenantId importId manifestChecksum counts now).row (S.table "import_jobs")
          (rows "import_jobs")]) := by
  unfold importRows at h
  simp only at h
  set st := manifest.payloads.foldl (Privacy.importPayload S.toSchema tenantId toNumber payloads) (db, .zero) with hst
  have hrows : Imported S tenantId (recordsOf toNumber manifest payloads) db st.1 := by
    refine List.foldlRecOn (motive := fun st : Db × ImportCounts => Imported S tenantId (recordsOf toNumber manifest payloads) db st.1)
      manifest.payloads _ (.refl db) fun st hst payload hpayload =>
        hst.importPayload fun ht row hrow record hrecord => ?_
    rw [recordsOf, if_pos ⟨ht, List.mem_map_of_mem hpayload⟩]
    exact List.mem_filterMap.2 ⟨row, hrow, hrecord⟩
  split at h
  next db'' n hinsert =>
    obtain ⟨rfl, rfl⟩ := Prod.mk.inj (Option.some.inj h)
    exact ⟨st.1, hrows, (Schema.insert_ok hinsert).2⟩
  next => cases h

end

end ChronoSynth.Privacy

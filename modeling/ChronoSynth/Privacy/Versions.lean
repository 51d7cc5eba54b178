import ChronoSynth.Lib.Newest
import ChronoSynth.Lib.Run
import ChronoSynth.Lib.Solo
import ChronoSynth.Privacy.Imports

/-!
# The versions of a row

A row of a table with an `updated_at` that is imported is a version of the row with its key. The import's statement
asks whether the version is newer only where the key is a single column; with a key of several columns the row that
comes last stays.
-/

namespace ChronoSynth.Privacy

open Sql Json

/-! ## Versions -/

section
variable {a b c : SqlValue} {key : List String} {r r' r'' : Row}

theorem SqlValue.gt_irrefl : SqlValue.gt a a = false := by
  cases a with
  | null => rfl
  | text s => simp [SqlValue.gt]
  | number x => cases x <;> simp [SqlValue.gt]

theorem SqlValue.ne_null_of_gt (h : SqlValue.gt a b = true) : a ≠ .null ∧ b ≠ .null := by
  constructor
  · rintro rfl
    simp [SqlValue.gt] at h
  · rintro rfl
    rcases a with - | x | s
    · simp [SqlValue.gt] at h
    · cases x <;> simp [SqlValue.gt] at h
    · simp [SqlValue.gt] at h

theorem SqlValue.gt_trans (h : SqlValue.gt a b = true) (h' : SqlValue.gt b c = true) : SqlValue.gt a c = true := by
  rcases a with - | x | s <;> rcases b with - | y | s' <;> rcases c with - | z | s''
  case text.text.text =>
    have hab : s' < s := of_decide_eq_true h
    have hbc : s'' < s' := of_decide_eq_true h'
    exact decide_eq_true (hbc.trans hab)
  all_goals try cases x
  all_goals try cases y
  all_goals try cases z
  all_goals simp_all [SqlValue.gt]
  case number.number.number.finite.finite.finite => exact h'.trans h

/-- The row has been changed later; one that does not tell when is older than any that does. -/
def NewerRow (r r' : Row) : Prop :=
  SqlValue.gt (r "updated_at") ( r' "updated_at") = true ∨ r' "updated_at" = .null ∧ r "updated_at" ≠ .null

instance (r r' : Row) : Decidable (NewerRow r r') := inferInstanceAs (Decidable (_ ∨ _))

theorem NewerRow.trans (h : NewerRow r r') (h' : NewerRow r' r'') : NewerRow r r'' := by
  have hne : r "updated_at" ≠ .null := h.elim (fun h => (SqlValue.ne_null_of_gt h).1) And.right
  rcases h' with h' | ⟨hnull, -⟩
  · rcases h with h | ⟨hnull, -⟩
    · exact .inl (SqlValue.gt_trans h h')
    · exact absurd hnull (SqlValue.ne_null_of_gt h').1
  · exact .inr ⟨hnull, hne⟩

def rowVersions (key : List String) : Versioning Row where
  same := SameKey key
  newer := NewerRow
  same_symm := sameKey_comm.1
  same_trans h h' := ⟨h.1, fun c hc => ⟨(h.2 c hc).1, (h.2 c hc).2.trans (h'.2 c hc).2⟩⟩
  newer_irrefl r h := by
    rcases h with h | ⟨hnull, hne⟩
    · rw [SqlValue.gt_irrefl] at h
      cases h
    · exact hne hnull
  newer_trans := NewerRow.trans

end

/-- A table whose rows tell when they were changed. -/
structure VersionedTable (S : ServerSchema) where
  name : String
  mem : name ∈ tenantTables
  listed : name ∈ S.tables
  updatedAt : "updated_at" ∈ (S.table name).columns
  ne_jobs : name ≠ "import_jobs"

/-! ## Imports, row by row -/

/-- What a call of `commitImport` imports. -/
structure PackImport where
  importId : String
  manifestChecksum : String
  manifest : PortabilityPackManifestV1
  payloads : Option Json
  now : ℤ

/-- A row of a payload, and where it is. -/
abbrev RowStep := String × Option Json × ℕ

section
variable (S : ServerSchema) (toNumber : Json → ℚ) (tenantId : String)

/-- The rows that these payloads are gone through. -/
def payloadSteps (payloads : Option Json) (entries : List PayloadEntry) : List RowStep :=
  entries.flatMap fun entry =>
    if entry.logicalName ∈ tenantTables then
      ((rowsOf toNumber payloads entry.logicalName).getD []).zipIdx.map fun row => (entry.logicalName, row)
    else []

/-- The rows that an import goes through. -/
def PackImport.rows (i : PackImport) : List RowStep := payloadSteps toNumber i.payloads i.manifest.payloads

def PackImport.records (i : PackImport) (table : String) : List Record :=
  (i.rows toNumber).filterMap fun step => if step.1 = table then step.2.1.bind recordOf else none

/-- What becomes of the database at a row. -/
def rowStep (db : Db) (step : RowStep) : Db := (importRow S.toSchema tenantId step.1 (db, .zero) step.2).1

/-- How many rows are reported as stale at a row: one or none. -/
def staleAt (db : Db) (step : RowStep) : ℕ := (importRow S.toSchema tenantId step.1 (db, .zero) step.2).2.staleSkipped

/-- How many rows are reported as stale. -/
def staleCount : Db → List RowStep → ℕ
  | _, [] => 0
  | db, step :: steps => staleAt S tenantId db step + staleCount (rowStep S tenantId db step) steps

/-- One import, which leaves nothing where it is rolled back. -/
def importStep (db : Db) (i : PackImport) : Db :=
  (importRows S.toSchema tenantId toNumber i.importId i.manifestChecksum i.manifest i.payloads i.now db).elim db
    Prod.fst

/-- The values of a version. -/
def versionRow (table : String) (record : Record) : Row := tenantRow S.toSchema tenantId table record []

end

section
variable {S : ServerSchema} {toNumber : Json → ℚ} {tenantId : String} {db : Db}

theorem importRow_eq (table : String) (st : Db × ImportCounts) (row : Option Json × ℕ) :
    (importRow S.toSchema tenantId table st row).1 = rowStep S tenantId st.1 (table, row) ∧
      (importRow S.toSchema tenantId table st row).2.staleSkipped =
        st.2.staleSkipped + staleAt S tenantId st.1 (table, row) := by
  unfold rowStep staleAt importRow
  dsimp only
  cases row.1.bind recordOf with
  | none => exact ⟨rfl, rfl⟩
  | some record =>
    dsimp only
    generalize rowStatement S.toSchema table (withTenant (S.table table) tenantId record) = stmt
    by_cases hcols : stmt.cols = []
    · rw [if_pos hcols, if_pos hcols]
      exact ⟨rfl, rfl⟩
    · rw [if_neg hcols, if_neg hcols]
      cases S.upsert stmt st.1 with
      | error e => exact ⟨rfl, rfl⟩
      | ok out =>
        obtain ⟨db', n⟩ := out
        cases n with
        | zero => exact ⟨rfl, rfl⟩
        | succ n => exact ⟨rfl, rfl⟩

theorem foldl_importRow_eq (table : String) (rows : List (Option Json × ℕ)) (st : Db × ImportCounts) :
    (rows.foldl (importRow S.toSchema tenantId table) st).1 =
        run (rowStep S tenantId) st.1 (rows.map fun row => (table, row)) ∧
      (rows.foldl (importRow S.toSchema tenantId table) st).2.staleSkipped =
        st.2.staleSkipped + staleCount S tenantId st.1 (rows.map fun row => (table, row)) := by
  induction rows generalizing st with
  | nil => exact ⟨rfl, rfl⟩
  | cons row rows ih =>
    obtain ⟨hdb, hstale⟩ := @importRow_eq S tenantId table st row
    obtain ⟨ihdb, ihstale⟩ := ih (importRow S.toSchema tenantId table st row)
    rw [List.foldl_cons, List.map_cons, run_cons, staleCount, ihdb, ihstale, hdb, hstale, Nat.add_assoc]
    exact ⟨rfl, rfl⟩

theorem staleCount_append (steps steps' : List RowStep) : staleCount S tenantId db (steps ++ steps') =
    staleCount S tenantId db steps + staleCount S tenantId (run (rowStep S tenantId) db steps) steps' := by
  induction steps generalizing db with
  | nil => simp [staleCount]
  | cons step steps ih => rw [List.cons_append, staleCount, staleCount, ih, run_cons, Nat.add_assoc]

/-- The loops over payloads and rows are one over the rows. -/
theorem foldl_importPayload_eq {payloads : Option Json} (entries : List PayloadEntry) (st : Db × ImportCounts) :
    (entries.foldl (importPayload S.toSchema tenantId toNumber payloads) st).1 =
        run (rowStep S tenantId) st.1 (payloadSteps toNumber payloads entries) ∧
      (entries.foldl (importPayload S.toSchema tenantId toNumber payloads) st).2.staleSkipped =
        st.2.staleSkipped + staleCount S tenantId st.1 (payloadSteps toNumber payloads entries) := by
  induction entries generalizing st with
  | nil => exact ⟨rfl, rfl⟩
  | cons entry entries ih =>
    have hone : (importPayload S.toSchema tenantId toNumber payloads st entry).1 =
          run (rowStep S tenantId) st.1 (payloadSteps toNumber payloads [entry]) ∧
        (importPayload S.toSchema tenantId toNumber payloads st entry).2.staleSkipped =
          st.2.staleSkipped + staleCount S tenantId st.1 (payloadSteps toNumber payloads [entry]) := by
      unfold importPayload payloadSteps
      rw [List.flatMap_singleton]
      split_ifs
      · cases rowsOf toNumber payloads entry.logicalName with
        | none => exact ⟨rfl, rfl⟩
        | some rows => exact foldl_importRow_eq _ _ _
      · exact ⟨rfl, rfl⟩
    have hsplit : payloadSteps toNumber payloads (entry :: entries) =
        payloadSteps toNumber payloads [entry] ++ payloadSteps toNumber payloads entries := by
      simp [payloadSteps]
    obtain ⟨ihdb, ihstale⟩ := ih (importPayload S.toSchema tenantId toNumber payloads st entry)
    rw [List.foldl_cons, hsplit, run_append, staleCount_append, ihdb, ihstale, hone.1, hone.2, Nat.add_assoc]
    exact ⟨rfl, rfl⟩

/-- **What an import does**, apart from the record of itself, is what its rows do. -/
theorem importRows_eq {i : PackImport} {db' : Db} {counts : ImportCounts}
    (h : importRows S.toSchema tenantId toNumber i.importId i.manifestChecksum i.manifest i.payloads i.now db =
      some (db', counts)) :
    (∀ table, table ≠ "import_jobs" → db' table = run (rowStep S tenantId) db (i.rows toNumber) table) ∧
      S.Consistent db' ∧ counts.staleSkipped = staleCount S tenantId db (i.rows toNumber) := by
  obtain ⟨hdb, hstale⟩ := @foldl_importPayload_eq S toNumber tenantId i.payloads i.manifest.payloads (db, .zero)
  unfold importRows at h
  dsimp only at h
  split at h
  next db'' n hinsert =>
    obtain ⟨rfl, rfl⟩ := Prod.mk.inj (Option.some.inj h)
    obtain ⟨hcons, hset⟩ := Schema.insert_ok hinsert
    refine ⟨fun table hne => ?_, hcons, hstale.trans (Nat.zero_add _)⟩
    rw [hset]
    exact (Db.set_of_ne hne _ _).trans (congrFun hdb table)
  next => cases h

end

/-! ## One version -/

section
variable {S : ServerSchema} (tenantId : String) (T : VersionedTable S) (db : Db) (record : Record)

/-- What an import asks of a version and of the rows that are there: the version says what is stored, no constraint
refuses it, and a row of the tenant with its key tells when it was changed, has the version's values in all columns that
the version leaves out, and is older or, where the key is a single column, not. -/
structure Takes : Prop where
  steady : tenantRow S.toSchema tenantId T.name record (db T.name) = versionRow S tenantId T.name record
  accepted : ∃ out, S.upsert (tenantStatement S.toSchema tenantId T.name record) db = .ok out
  dated : ∀ old ∈ db T.name, isTenantRow tenantId old →
    SameKey (S.table T.name).pkColumns (versionRow S tenantId T.name record) old → old "updated_at" ≠ .null
  complete : ∀ old ∈ db T.name, isTenantRow tenantId old →
    SameKey (S.table T.name).pkColumns (versionRow S tenantId T.name record) old →
    NewerRow (versionRow S tenantId T.name record) old →
      (tenantStatement S.toSchema tenantId T.name record).merge (S.table T.name)
        (versionRow S tenantId T.name record) old = versionRow S tenantId T.name record
  guarded : ∀ old ∈ db T.name, isTenantRow tenantId old →
    SameKey (S.table T.name).pkColumns (versionRow S tenantId T.name record) old →
    (S.table T.name).pkColumns.length = 1 ∨ NewerRow (versionRow S tenantId T.name record) old

/-- The record carries an `updated_at`. -/
def Dated (record : Record) : Prop := ((obj record).get? "updated_at").any (!·.isNull) = true

instance : DecidablePred Dated := fun _ => inferInstanceAs (Decidable (_ = true))

abbrev VersionedTable.versions : Versioning Row := rowVersions (S.table T.name).pkColumns

variable {tenantId T db record} {originals taken : Row → Prop}

theorem isTenantRow_versionRow : isTenantRow tenantId (versionRow S tenantId T.name record) :=
  isTenantRow_tenantRow T.mem

theorem guard_iff (hdated : Dated record) {new old : Row} (hnew : isTenantRow tenantId new) :
    (tenantStatement S.toSchema tenantId T.name record).guard new old = true ↔
      ((S.table T.name).pkColumns.length = 1 → SqlValue.gt (new "updated_at") (old "updated_at") = true) ∧
        isTenantRow tenantId old := by
  have hcol := S.tenantId_mem T.name T.mem
  have hget : (obj (withTenant (S.table T.name) tenantId record)).get? "updated_at" =
      (obj record).get? "updated_at" := by
    rw [withTenant, if_pos hcol, get?_cons, if_neg (by decide)]
  have haware : versionAware (S.table T.name) ↔ (S.table T.name).pkColumns.length = 1 := and_iff_right T.updatedAt
  have hold : (old "tenant_id" ≠ .null ∧ old "tenant_id" = new "tenant_id") ↔ isTenantRow tenantId old := by
    rw [isTenantRow] at hnew ⊢
    rw [hnew, and_iff_right_iff_imp]
    intro h
    rw [h]
    intro hnull
    cases hnull
  simp only [tenantStatement, rowStatement, hget, Bool.and_eq_true, Bool.or_eq_true, Bool.not_eq_true',
    decide_eq_false_iff_not, decide_eq_true_eq, hcol, not_true, false_or, hold, haware]
  rw [Dated] at hdated
  rw [hdated]
  simp [imp_iff_not_or]

theorem rowStep_of_upsert {step : RowStep} (hname : step.1 = T.name) (hrecord : step.2.1.bind recordOf = some record)
    {db' : Db} {n : ℕ} (h : S.upsert (tenantStatement S.toSchema tenantId T.name record) db = .ok (db', n)) :
    rowStep S tenantId db step = db' ∧ (staleAt S tenantId db step = 1 ↔ n = 0) := by
  obtain ⟨name, row⟩ := step
  obtain rfl : name = T.name := hname
  have hcol := S.tenantId_mem T.name T.mem
  have hmem : "tenant_id" ∈ (tenantStatement S.toSchema tenantId T.name record).cols := by
    simp [rowStatement, withTenant, hcol]
  have hcols : (tenantStatement S.toSchema tenantId T.name record).cols ≠ [] := List.ne_nil_of_mem hmem
  have hrecord : row.1.bind recordOf = some record := hrecord
  unfold rowStep staleAt importRow
  dsimp only
  rw [hrecord]
  dsimp only
  rw [if_neg hcols, h]
  cases n with
  | zero => exact ⟨rfl, iff_of_true rfl rfl⟩
  | succ n => exact ⟨rfl, iff_of_false Nat.zero_ne_one (Nat.succ_ne_zero n)⟩

theorem upsert_cases {S : Schema} {stmt : Upsert} {db db' : Db} {n : ℕ} {table : String} {x : Row}
    (ht : stmt.table = table) (hx : stmt.row (S.table table) (db table) = x) (h : S.upsert stmt db = .ok (db', n)) :
    (n = 0 ∧ db' = db ∧ ∃ old ∈ db table, SameKey (S.table table).pkColumns x old ∧
        (stmt.updates (S.table table) = [] ∨ stmt.guard x old = false)) ∨
      (n = 1 ∧ S.Consistent db' ∧ (∀ r ∈ db table, ¬ SameKey (S.table table).pkColumns x r) ∧
        db' table = db table ++ [x]) ∨
      (n = 1 ∧ S.Consistent db' ∧ (∃ old ∈ db table, stmt.Applies (S.table table) x old) ∧
        db' table = stmt.updated (S.table table) x (db table)) := by
  subst ht hx
  rcases Schema.upsert_ok h with ⟨rfl, rfl⟩ | ⟨rfl, hcons, hnone, rfl⟩ | ⟨rfl, hcons, happlies, rfl⟩
  · exact .inl ⟨rfl, Schema.upsert_zero h⟩
  · exact .inr (.inl ⟨rfl, hcons, hnone, Db.set_self ..⟩)
  · exact .inr (.inr ⟨rfl, hcons, happlies, Db.set_self ..⟩)

/-- **One version** leaves every row the newest, and is reported as stale exactly if it changes nothing. -/
theorem Takes.step (h : Takes tenantId T db record) (hc : S.Consistent db) (hdated : Dated record)
    (hkept : Kept T.versions (isTenantRow tenantId) originals taken (db T.name)) {step : RowStep}
    (hname : step.1 = T.name) (hrecord : step.2.1.bind recordOf = some record) :
    S.Consistent (rowStep S tenantId db step) ∧
      Kept T.versions (isTenantRow tenantId) originals
        (fun w => taken w ∨ w = versionRow S tenantId T.name record) (rowStep S tenantId db step T.name) ∧
      (staleAt S tenantId db step = 1 ↔ rowStep S tenantId db step T.name = db T.name) := by
  obtain ⟨⟨db', n⟩, hup⟩ := h.accepted
  obtain ⟨hstep, hstale⟩ := rowStep_of_upsert hname hrecord hup
  have htenant : isTenantRow tenantId (versionRow S tenantId T.name record) := isTenantRow_versionRow
  have hunique : ∀ r ∈ db T.name, ∀ w ∈ db T.name, SameKey (S.table T.name).pkColumns r w → r = w :=
    fun r hr w hw hsame => hc.eq_of_sameKey T.listed List.mem_cons_self hr hw hsame
  have hirrefl : ∀ r : Row, ¬ NewerRow r r := T.versions.newer_irrefl
  have hcases := @upsert_cases S.toSchema (tenantStatement S.toSchema tenantId T.name record) db db' n T.name
    (versionRow S tenantId T.name record) rfl h.steady hup
  rw [hstep, hstale]
  rcases hcases with ⟨rfl, rfl, old, hold, hsame, hwhy⟩ | ⟨rfl, hcons, hnone, hrows⟩ |
    ⟨rfl, hcons, ⟨old, hold, happlies⟩, hrows⟩
  · -- nothing is changed: the row that is there is another tenant's, or not older
    refine ⟨hc, hkept.leave ⟨old, hold, sameKey_comm.1 hsame⟩ fun r hr hro hrx hnewer => ?_, iff_of_true rfl rfl⟩
    obtain rfl : r = old := hunique r hr old hold (T.versions.same_trans hrx hsame)
    rcases hwhy with hupdates | hguard
    · have hmerge := h.complete r hr hro hsame hnewer
      have hself : (tenantStatement S.toSchema tenantId T.name record).merge (S.table T.name)
          (versionRow S tenantId T.name record) r = r := by
        funext c
        unfold Upsert.merge
        rw [hupdates, if_neg List.not_mem_nil]
      rw [hself] at hmerge
      rw [← hmerge] at hnewer
      exact hirrefl r hnewer
    · have hpass : (tenantStatement S.toSchema tenantId T.name record).guard (versionRow S tenantId T.name record) r =
          true := by
        refine (guard_iff hdated htenant).2 ⟨fun _ => ?_, hro⟩
        exact hnewer.resolve_right fun hnull => h.dated r hr hro hsame hnull.1
      rw [hpass] at hguard
      cases hguard
  · -- the version is of a row that is not there
    refine ⟨hcons, hkept.add htenant (fun r hr hsame => hnone r hr (sameKey_comm.1 hsame)) fun y => ?_,
      iff_of_false nofun ?_⟩
    · rw [hrows, List.mem_append, List.mem_singleton]
    · rw [hrows]
      simp
  · -- the version takes the place of an older row
    obtain ⟨hsame, hguard⟩ := happlies
    obtain ⟨hgt, hro⟩ := (guard_iff hdated htenant).1 hguard
    have hnewer : NewerRow (versionRow S tenantId T.name record) old :=
      (h.guarded old hold hro hsame).elim (fun hone => .inl (hgt hone)) id
    have hmerge := h.complete old hold hro hsame hnewer
    have hone : ∀ r ∈ db T.name, SameKey (S.table T.name).pkColumns r (versionRow S tenantId T.name record) → r = old :=
      fun r hr hrx => hunique r hr old hold (T.versions.same_trans hrx hsame)
    have hmem : ∀ y, y ∈ db' T.name ↔ y ∈ db T.name ∧ y ≠ old ∨ y = versionRow S tenantId T.name record := by
      intro y
      rw [hrows, Upsert.updated, List.mem_map]
      constructor
      · rintro ⟨r, hr, rfl⟩
        split_ifs with happ
        · obtain rfl := hone r hr (sameKey_comm.1 happ.1)
          exact .inr hmerge
        · refine .inl ⟨hr, ?_⟩
          rintro rfl
          exact happ ⟨hsame, hguard⟩
      · rintro (⟨hy, hne⟩ | rfl)
        · exact ⟨y, hy, if_neg fun happ => hne (hone y hy (sameKey_comm.1 happ.1))⟩
        · exact ⟨old, hold, (if_pos ⟨hsame, hguard⟩).trans hmerge⟩
    refine ⟨hcons, hkept.replace htenant hold hro (sameKey_comm.1 hsame) hnewer hone hmem,
      iff_of_false nofun fun heq => ?_⟩
    have hthere : versionRow S tenantId T.name record ∈ db T.name := heq ▸ (hmem _).2 (.inr rfl)
    have hself := hone _ hthere (T.versions.same_trans hsame (sameKey_comm.1 hsame))
    rw [hself] at hnewer
    exact hirrefl old hnewer

theorem rowStep_other {step : RowStep} (hc : S.Consistent db) (hne : step.1 ≠ T.name) :
    S.Consistent (rowStep S tenantId db step) ∧ rowStep S tenantId db step T.name = db T.name := by
  unfold rowStep importRow
  dsimp only
  cases step.2.1.bind recordOf with
  | none => exact ⟨hc, rfl⟩
  | some record =>
    dsimp only
    by_cases hcols : (tenantStatement S.toSchema tenantId step.1 record).cols = []
    · rw [if_pos hcols]
      exact ⟨hc, rfl⟩
    · rw [if_neg hcols]
      cases hup : S.upsert (tenantStatement S.toSchema tenantId step.1 record) db with
      | error e => exact ⟨hc, rfl⟩
      | ok out =>
        obtain ⟨db', n⟩ := out
        have hdb : S.Consistent db' ∧ db' T.name = db T.name := by
          rcases Schema.upsert_ok hup with ⟨-, rfl⟩ | ⟨-, hcons, -, rfl⟩ | ⟨-, hcons, -, rfl⟩
          · exact ⟨hc, rfl⟩
          · exact ⟨hcons, Db.set_of_ne hne.symm ..⟩
          · exact ⟨hcons, Db.set_of_ne hne.symm ..⟩
        cases n with
        | zero => exact hdb
        | succ n => exact hdb

end

/-! ## Imports -/

/-- An import whose rows of the table carry an `updated_at`. -/
structure VersionedImport {S : ServerSchema} (toNumber : Json → ℚ) (T : VersionedTable S) extends PackImport where
  dated : ∀ step ∈ toPackImport.rows toNumber, step.1 = T.name →
    ∃ record, step.2.1.bind recordOf = some record ∧ Dated record

section
variable {S : ServerSchema} (toNumber : Json → ℚ) (tenantId : String) (T : VersionedTable S)

/-- The step asks for nothing of what its table does not guard against. -/
def CleanRow (db : Db) (step : RowStep) : Prop :=
  step.1 = T.name → ∀ record ∈ step.2.1.bind recordOf, Takes tenantId T db record

/-- The row is reported as stale exactly if it does not change the table. -/
def ReportsRow (db : Db) (step : RowStep) : Prop :=
  step.1 = T.name → (staleAt S tenantId db step = 1 ↔ rowStep S tenantId db step T.name = db T.name)

def Imports (imports : List (VersionedImport toNumber T)) (w : Row) : Prop :=
  ∃ i ∈ imports, ∃ record ∈ i.records toNumber T.name, w = versionRow S tenantId T.name record

/-- An import is recorded, and its rows are clean. -/
def CleanImport (db : Db) (i : VersionedImport toNumber T) : Prop :=
  (importRows S.toSchema tenantId toNumber i.importId i.manifestChecksum i.manifest i.payloads i.now db).isSome ∧
    Along (rowStep S tenantId) (CleanRow tenantId T) db (i.rows toNumber)

abbrev importsStep (db : Db) (i : VersionedImport toNumber T) : Db :=
  importStep S toNumber tenantId db i.toPackImport

/-- No import regresses a row: after any of them every row of the tenant is the newest of its versions, and what is
reported as stale is what changes nothing. -/
structure Regressless (db : Db) (imports : List (VersionedImport toNumber T)) : Prop where
  newest : ∀ pre, pre <+: imports → Newest T.versions (isTenantRow tenantId) (· ∈ db T.name)
    (Imports toNumber tenantId T pre) (run (importsStep toNumber tenantId T) db pre T.name)
  reports : Along (importsStep toNumber tenantId T)
    (fun db i => Along (rowStep S tenantId) (ReportsRow tenantId T) db (i.rows toNumber)) db imports

variable {toNumber tenantId T} {db : Db} {originals taken : Row → Prop}

theorem rows_kept {steps : List RowStep} (hc : S.Consistent db)
    (hkept : Kept T.versions (isTenantRow tenantId) originals taken (db T.name))
    (hdated : ∀ step ∈ steps, step.1 = T.name → ∃ record, step.2.1.bind recordOf = some record ∧ Dated record)
    (hclean : Along (rowStep S tenantId) (CleanRow tenantId T) db steps) :
    S.Consistent (run (rowStep S tenantId) db steps) ∧
      Kept T.versions (isTenantRow tenantId) originals
        (fun w => taken w ∨
          ∃ record ∈ steps.filterMap fun step => if step.1 = T.name then step.2.1.bind recordOf else none,
            w = versionRow S tenantId T.name record) (run (rowStep S tenantId) db steps T.name) ∧
      Along (rowStep S tenantId) (ReportsRow tenantId T) db steps := by
  induction steps generalizing db taken with
  | nil => exact ⟨hc, hkept.congr fun w => by simp, along_nil⟩
  | cons step steps ih =>
    obtain ⟨hfirst, hrest⟩ := along_cons.1 hclean
    obtain ⟨hd, hdrest⟩ := List.forall_mem_cons.1 hdated
    by_cases hname : step.1 = T.name
    · obtain ⟨record, hrecord, hdate⟩ := hd hname
      obtain ⟨hc', hkept', hstale⟩ := (hfirst hname record hrecord).step hc hdate hkept hname hrecord
      obtain ⟨hcons, hafter, hreports⟩ := ih hc' hkept' hdrest hrest
      refine ⟨hcons, hafter.congr fun w => ?_, along_cons.2 ⟨fun _ => hstale, hreports⟩⟩
      simp [hname, hrecord, or_assoc]
    · obtain ⟨hc', hsame⟩ := @rowStep_other S tenantId T db step hc hname
      rw [← hsame] at hkept
      obtain ⟨hcons, hafter, hreports⟩ := ih hc' hkept hdrest hrest
      refine ⟨hcons, hafter.congr fun w => ?_, along_cons.2 ⟨fun h => absurd h hname, hreports⟩⟩
      simp [hname]

/-- **One import.** -/
theorem CleanImport.step {i : VersionedImport toNumber T} (h : CleanImport toNumber tenantId T db i)
    (hc : S.Consistent db) (hkept : Kept T.versions (isTenantRow tenantId) originals taken (db T.name)) :
    S.Consistent (importsStep toNumber tenantId T db i) ∧
      Kept T.versions (isTenantRow tenantId) originals (fun w => taken w ∨ Imports toNumber tenantId T [i] w)
        (importsStep toNumber tenantId T db i T.name) ∧
      Along (rowStep S tenantId) (ReportsRow tenantId T) db (i.rows toNumber) := by
  obtain ⟨hcommits, hrows⟩ := h
  obtain ⟨⟨db', counts⟩, himport⟩ := Option.isSome_iff_exists.1 hcommits
  obtain ⟨htable, hcons, -⟩ := importRows_eq himport
  obtain ⟨-, hafter, hreports⟩ := rows_kept hc hkept i.dated hrows
  have hstep : importsStep toNumber tenantId T db i = db' := by
    rw [importsStep, importStep, himport]
    rfl
  rw [hstep, htable T.name T.ne_jobs]
  refine ⟨hcons, hafter.congr fun w => or_congr_right ?_, hreports⟩
  simp [Imports, PackImport.records]

theorem imports_kept {imports : List (VersionedImport toNumber T)} (hc : S.Consistent db)
    (hkept : Kept T.versions (isTenantRow tenantId) originals taken (db T.name))
    (hclean : Along (importsStep toNumber tenantId T) (CleanImport toNumber tenantId T) db imports) :
    S.Consistent (run (importsStep toNumber tenantId T) db imports) ∧
      Kept T.versions (isTenantRow tenantId) originals (fun w => taken w ∨ Imports toNumber tenantId T imports w)
        (run (importsStep toNumber tenantId T) db imports T.name) ∧
      Along (importsStep toNumber tenantId T)
        (fun db i => Along (rowStep S tenantId) (ReportsRow tenantId T) db (i.rows toNumber)) db imports := by
  induction imports generalizing db taken with
  | nil => exact ⟨hc, hkept.congr fun w => by simp [Imports], along_nil⟩
  | cons i imports ih =>
    obtain ⟨hfirst, hrest⟩ := along_cons.1 hclean
    obtain ⟨hc', hkept', hreports⟩ := hfirst.step hc hkept
    obtain ⟨hcons, hafter, hreports'⟩ := ih hc' hkept' hrest
    refine ⟨hcons, hafter.congr fun w => ?_, along_cons.2 ⟨hreports, hreports'⟩⟩
    simp [Imports, or_assoc]

structure CleanRun (tenantId : String) (T : VersionedTable S) (db : Db) (imports : List (VersionedImport toNumber T)) :
    Prop where
  clean : Along (importsStep toNumber tenantId T) (CleanImport toNumber tenantId T) db imports
  agree : ∀ a b, Imports toNumber tenantId T imports a → Imports toNumber tenantId T imports b → T.versions.same a b →
    ¬ NewerRow a b → ¬ NewerRow b a → a = b

end

/-! ## Calls -/

namespace Importer

variable {imp : Importer} {s : ImportDb}

/-- **What a call does to the data**: nothing, or the import of its pack. -/
theorem commit_ensures (tenantId packJson : String) (k : ℕ) :
    (imp.commit tenantId packJson k).Ensures imp.exec (fun _ s' => s'.data = s.data ∨
      ∃ i : PackImport, readManifest imp.json packJson = some i.manifest ∧ i.payloads = imp.payloads packJson ∧
        s'.data = importStep imp.schema imp.toNumber tenantId s.data i) s := by
  intro o
  have hconsume : (imp.exec o (.consume k tenantId (imp.packChecksum packJson)) s).1.data = s.data :=
    data_eq (not_imported (by simp))
  set s₁ := (imp.exec o (.consume k tenantId (imp.packChecksum packJson)) s).1 with hs₁
  generalize (imp.exec o (.consume k tenantId (imp.packChecksum packJson)) s).2 = reply
  rcases reply with _ | ⟨_ | importId, at_⟩ | _ | _
  · exact .inl hconsume
  · exact .inl hconsume
  · cases hread : readManifest imp.json packJson with
    | none => exact .inl hconsume
    | some manifest =>
      intro o' o''
      have hprune : ∀ s', (imp.exec o'' .pruneExpired s').1.data = s'.data := fun s' => data_eq (not_imported (by simp))
      have hdata : (imp.exec o' (.importRows tenantId importId (imp.packChecksum packJson) manifest
            (imp.payloads packJson)) s₁).1.data = s.data ∨
          ∃ i : PackImport, some manifest = some i.manifest ∧ i.payloads = imp.payloads packJson ∧
            (imp.exec o' (.importRows tenantId importId (imp.packChecksum packJson) manifest
              (imp.payloads packJson)) s₁).1.data = importStep imp.schema imp.toNumber tenantId s.data i := by
        rcases imp.exec_cases (.importRows tenantId importId (imp.packChecksum packJson) manifest
          (imp.payloads packJson)) with ⟨h, -⟩ | ⟨_, _, _, ht, -⟩ | ⟨_, _, _, _, -, ht, -⟩ |
          ⟨T, id, sum, m, j, data, counts, ht, hrows, h⟩ | ⟨ht, -⟩
        · exact .inl (by rw [h, hconsume])
        · cases ht
        · cases ht
        · cases ht
          refine .inr ⟨⟨importIdText importId, imp.packChecksum packJson, manifest, imp.payloads packJson, o'.now⟩, rfl,
            rfl, ?_⟩
          rw [hconsume] at hrows
          rw [h, importStep, hrows]
          rfl
        · cases ht
      generalize (imp.exec o' (.importRows tenantId importId (imp.packChecksum packJson) manifest
        (imp.payloads packJson)) s₁) = out at hdata
      obtain ⟨s₂, reply⟩ := out
      rw [← hprune s₂] at hdata
      rcases reply with _ | _ | (_ | counts) | _
      · exact hdata
      · exact hdata
      · exact hdata
      · exact hdata
      · exact hdata
  · exact .inl hconsume
  · exact .inl hconsume

/-- A call of `commitImport`. -/
structure CommitCall where
  packJson : String
  commitToken : ℕ
  os : ℕ → ImportEnv

def commitStep (imp : Importer) (tenantId : String) (s : ImportDb) (c : CommitCall) : ImportDb :=
  ((imp.commit tenantId c.packJson c.commitToken).solo imp.exec c.os s).1

end Importer

/-! ## A narrative of several keys -/

/-- A table that stores what it is given. -/
def plainTable (columns key : List String) : TableSchema :=
  ⟨columns, key, [], [], fun _ _ => .null, fun _ _ => id, fun _ => true⟩

/-- The tables of core values and narratives. -/
def traitSchema : ServerSchema where
  tables := ["core_values", "narrative", "import_jobs"]
  table name :=
    if name = "core_values" then
      plainTable ["id", "label", "weight", "updated_at", "tenant_id", "persona_id"] ["id"]
    else if name = "narrative" then
      plainTable ["tenant_id", "persona_id", "content", "updated_at"] ["tenant_id", "persona_id"]
    else plainTable ["id", "tenant_id"] ["id"]
  tenantId_mem t _ := by split_ifs <;> simp [plainTable]
  tenantId_text t _ _ _ := by split_ifs <;> rfl

def coreValues : VersionedTable traitSchema := ⟨"core_values", by decide, by decide, by decide, by decide⟩

def narratives : VersionedTable traitSchema := ⟨"narrative", by decide, by decide, by decide, by decide⟩

def traitRow (time : ℤ) : Row
  | "tenant_id" => .text "tenant"
  | "id" => .text "honesty"
  | "persona_id" => .text "ada"
  | "updated_at" => .number (.finite (JsNumber.ofInt time))
  | _ => .null

/-- A version of it. -/
def traitRecord (time : ℤ) : Record :=
  [("id", .str "honesty"), ("persona_id", .str "ada"), ("updated_at", .num (JsNumber.ofInt time))]

/-- The tables with the row as it was changed at time 2. -/
def traitDb : Db
  | "core_values" => [traitRow 2]
  | "narrative" => [traitRow 2]
  | _ => []

/-- The import of a version of time 1. -/
def traitImport (table : String) : PackImport where
  importId := "import_0"
  manifestChecksum := ""
  manifest := (({ Importer.plainExport with tables := [(table, [.obj (traitRecord 1)])] } : ExportResult).manifest
    Platform.symbolic).sign Platform.symbolic "platform-key"
  payloads := some (.obj [(table, .arr [.obj (traitRecord 1)])])
  now := 0

theorem consistent_traitDb : traitSchema.Consistent traitDb := by decide +kernel

theorem rows_coreValues :
    (traitImport "core_values").rows (fun _ => 0) = [("core_values", some (.obj (traitRecord 1)), 0)] := rfl

theorem rows_narratives :
    (traitImport "narrative").rows (fun _ => 0) = [("narrative", some (.obj (traitRecord 1)), 0)] := rfl

def olderValue : VersionedImport (fun _ => 0) coreValues where
  toPackImport := traitImport "core_values"
  dated step hstep _ := by
    rw [rows_coreValues] at hstep
    rw [List.mem_singleton.1 hstep]
    exact ⟨traitRecord 1, rfl, by decide⟩

def olderNarrative : VersionedImport (fun _ => 0) narratives where
  toPackImport := traitImport "narrative"
  dated step hstep _ := by
    rw [rows_narratives] at hstep
    rw [List.mem_singleton.1 hstep]
    exact ⟨traitRecord 1, rfl, by decide⟩

theorem takes_olderValue : Takes "tenant" coreValues traitDb (traitRecord 1) where
  steady := rfl
  accepted := by
    have hok : (traitSchema.upsert (tenantStatement traitSchema.toSchema "tenant" "core_values" (traitRecord 1))
        traitDb).toBool = true := by decide +kernel
    cases hup : traitSchema.upsert (tenantStatement traitSchema.toSchema "tenant" "core_values" (traitRecord 1))
        traitDb with
    | error e =>
      rw [hup] at hok
      cases hok
    | ok out => exact ⟨out, hup⟩
  dated old hold _ _ := by
    rw [List.mem_singleton.1 hold]
    decide
  complete old hold _ _ hnewer := by
    rw [List.mem_singleton.1 hold] at hnewer
    exact absurd hnewer (by decide +kernel)
  guarded _ _ _ _ := .inl rfl

end ChronoSynth.Privacy

import ChronoSynth.Lib.Reinsert
import ChronoSynth.Privacy.Erasure
import ChronoSynth.Privacy.PackSigning

/-!
# The rows of an export on their way back

What `commitImport` makes of the rows that `exportData` has written: each is bound to a statement of its own
(`packStatement`), and the import runs these in the order of the tables (`importTables_eq`).

* `PortableSchema` — what is used of the server's tables: a column stores what it holds as it is, encrypted columns are
  texts that no key and no check looks at, and the record of an import is admissible.
* `writes_packStatement` — a row whose numbers are finite is written as it is.
-/

namespace ChronoSynth.Privacy

open Sql Json

/-! ## The server's tables -/

/-- The columns that may be encrypted. -/
def secretColumns : String → List String
  | "memory_nodes" => ["content"]
  | "persona_memory_nodes" => ["content"]
  | "persona_memories" => ["summary", "content_json"]
  | _ => []

/-- The rows differ in what the texts of encrypted columns say. -/
def Redacted (t : String) (r r' : Row) : Prop :=
  ∀ c, r' c = r c ∨ c ∈ secretColumns t ∧ ∃ s s', r c = .text s ∧ r' c = .text s'

structure PortableSchema extends ErasureSchema where
  tenantTables_mem : ∀ t ∈ tenantTables, t ∈ toSchema.tables
  columns_before : ∀ t, (toSchema.table t).columns.Pairwise Before
  default_blank : ∀ t rows c, c ∉ (toSchema.table t).columns → (toSchema.table t).default rows c = .null
  affinity_null : ∀ t rows c x, (toSchema.table t).affinity rows c .null = .number x → x.IsFinite
  affinity_text : ∀ t, ∀ c ∈ secretColumns t, ∀ rows s, (toSchema.table t).affinity rows c (.text s) = .text s
  admits_redacted : ∀ t r r', Redacted t r r' → (toSchema.table t).admits r' = (toSchema.table t).admits r
  keys_open : ∀ t, ∀ key ∈ (toSchema.table t).pkColumns :: (toSchema.table t).uniqueIndexes, ∀ c ∈ key,
    c ∉ secretColumns t
  jobs_pkColumns : (toSchema.table "import_jobs").pkColumns = ["id"]
  jobs_uniqueIndexes : (toSchema.table "import_jobs").uniqueIndexes = []
  jobs_columns : "id" ∈ (toSchema.table "import_jobs").columns
  jobs_id : ∀ rows s, (toSchema.table "import_jobs").affinity rows "id" (.text s) = .text s
  jobs_admits : ∀ tenantId importId checksum counts now rows, (toSchema.table "import_jobs").admits
    ((importJobStatement tenantId importId checksum counts now).row (toSchema.table "import_jobs") rows) = true

/-- A row as a table holds it. -/
structure StoredRow (S : Schema) (t : String) (r : Row) : Prop where
  affine : ∀ c ∈ (S.table t).columns, ∀ rows, (S.table t).affinity rows c (r c) = r c
  blank : ∀ c, c ∉ (S.table t).columns → r c = .null

/-- The numbers of the row are no infinities, which JSON writes as `null`. -/
def FiniteRow (S : Schema) (t : String) (r : Row) : Prop :=
  ∀ c ∈ (S.table t).columns, ∀ x, r c = .number x → x.IsFinite

section
variable {S : PortableSchema} {t tenantId : String} {r : Row} {encryption : Option FieldEncryption}

theorem encryptedColumns_subset (t : String) (r : Row) : encryptedColumns t r ⊆ secretColumns t := by
  unfold encryptedColumns
  split_ifs with hcontent hmemories
  · rcases hcontent with rfl | rfl
    · exact List.Subset.refl _
    · exact List.Subset.refl _
  · obtain ⟨rfl, -⟩ := hmemories
    exact List.Subset.refl _
  · exact List.nil_subset _

theorem redacted_transformExportRow (encryption : Option FieldEncryption) (t : String) (r : Row) :
    Redacted t r (transformExportRow encryption t r) := by
  intro c
  unfold transformExportRow decryptIfNeeded
  split_ifs with hc
  · split
    next decrypt s heq => exact .inr ⟨encryptedColumns_subset t r hc, s, _, heq, rfl⟩
    next => exact .inl rfl
  · exact .inl rfl

theorem Redacted.eq {r' : Row} (h : Redacted t r r') {c : String} (hc : c ∉ secretColumns t) : r' c = r c :=
  (h c).resolve_right fun hsecret => hc hsecret.1

theorem Redacted.eq_null_iff {r' : Row} (h : Redacted t r r') (c : String) : r' c = .null ↔ r c = .null := by
  rcases h c with heq | ⟨-, s, s', hs, hs'⟩
  · rw [heq]
  · simp [hs, hs']

theorem StoredRow.redacted {r' : Row} (h : StoredRow S.toSchema t r) (hred : Redacted t r r') :
    StoredRow S.toSchema t r' where
  affine c hc rows := by
    rcases hred c with heq | ⟨hsecret, s, s', -, hs'⟩
    · rw [heq, h.affine c hc rows]
    · rw [hs', S.affinity_text t c hsecret]
  blank c hc := (hred.eq_null_iff c).2 (h.blank c hc)

theorem FiniteRow.redacted_iff {r' : Row} (hred : Redacted t r r') :
    FiniteRow S.toSchema t r' ↔ FiniteRow S.toSchema t r := by
  refine forall₂_congr fun c _ => ?_
  rcases hred c with heq | ⟨-, s, s', hs, hs'⟩
  · rw [heq]
  · simp [hs, hs']

theorem references_open : ∀ e ∈ serverForeignKeys, e.2.column ∉ secretColumns e.1 ∧ e.2.refColumn ∉ secretColumns e.2.table := by
  decide +kernel

theorem tenantId_open : ∀ t ∈ tenantTables, "tenant_id" ∉ secretColumns t := by decide +kernel

end

/-! ## One row -/

/-- A value that has been written in JSON and bound to a statement again. -/
def readBack (value : SqlValue) : SqlValue := bindValue (SqlValue.toJson value)

def packRecord (S : Schema) (x : String × Row) : Record := (S.table x.1).columns.map fun c => (c, SqlValue.toJson (x.2 c))

def packStatement (S : Schema) (tenantId : String) (x : String × Row) : Upsert :=
  tenantStatement S tenantId x.1 (packRecord S x)

section
variable {S : PortableSchema} {tenantId : String} {x : String × Row}

theorem readBack_of_finite {value : SqlValue} (h : ∀ x, value = .number x → x.IsFinite) : readBack value = value := by
  cases value with
  | null | text s => rfl
  | number x =>
    cases x with
    | finite n => rfl
    | nan | infinite => exact (h _ rfl).elim

theorem packStatement_cols (ht : x.1 ∈ tenantTables) {c : String} :
    c ∈ (packStatement S.toSchema tenantId x).cols ↔ c ∈ (S.table x.1).columns := by
  have hcol := S.tenantId_mem x.1 ht
  have hnames : (packRecord S.toSchema x).map Prod.fst = (S.table x.1).columns := by
    simp [packRecord, Function.comp_def]
  simp only [packStatement, tenantStatement, rowStatement, withTenant, hcol, if_true, List.map_cons, hnames,
    List.mem_filter, List.mem_cons, decide_eq_true_eq]
  refine ⟨And.right, fun hc => ⟨.inr hc, hc⟩⟩

theorem get?_packRecord {c : String} (hc : c ∈ (S.table x.1).columns) :
    (obj (packRecord S.toSchema x)).get? c = some (SqlValue.toJson (x.2 c)) := by
  unfold packRecord
  revert hc
  generalize (S.table x.1).columns = columns
  intro hc
  induction columns with
  | nil => cases hc
  | cons c' columns ih =>
    rw [List.map_cons, get?_cons]
    split_ifs with heq
    · rw [heq]
    · exact ih ((List.mem_cons.1 hc).resolve_left (Ne.symm heq))

theorem row_packStatement (ht : x.1 ∈ tenantTables) (htenant : isTenantRow tenantId x.2) (rows : List Row) (c : String) :
    (packStatement S.toSchema tenantId x).row (S.table x.1) rows c =
      if c ∈ (S.table x.1).columns then (S.table x.1).affinity rows c (readBack (x.2 c))
      else (S.table x.1).default rows c := by
  have hcol := S.tenantId_mem x.1 ht
  unfold Upsert.row
  by_cases hc : c ∈ (S.table x.1).columns
  · rw [if_pos hc, if_pos ((packStatement_cols ht).2 hc)]
    congr 1
    simp only [packStatement, tenantStatement, rowStatement, withTenant, hcol, if_true, get?_cons]
    split_ifs with heq
    · subst heq
      rw [show x.2 "tenant_id" = .text tenantId from htenant]
      rfl
    · rw [get?_packRecord hc]
      rfl
  · rw [if_neg hc, if_neg fun h => hc ((packStatement_cols ht).1 h)]

/-- **A row whose numbers are finite is written as it is.** -/
theorem writes_packStatement (ht : x.1 ∈ tenantTables) (htenant : isTenantRow tenantId x.2)
    (hstored : StoredRow S.toSchema x.1 x.2) (hfinite : FiniteRow S.toSchema x.1 x.2) :
    S.Writes (packStatement S.toSchema tenantId x) x where
  table := rfl
  row rows := by
    funext c
    rw [row_packStatement ht htenant]
    split_ifs with hc
    · rw [readBack_of_finite (hfinite c hc), hstored.affine c hc]
    · rw [S.default_blank _ _ _ hc, hstored.blank c hc]

theorem finite_packStatement (ht : x.1 ∈ tenantTables) (htenant : isTenantRow tenantId x.2)
    (hstored : StoredRow S.toSchema x.1 x.2) (rows : List Row) :
    FiniteRow S.toSchema x.1 ((packStatement S.toSchema tenantId x).row (S.table x.1) rows) := by
  intro c hc y hy
  rw [row_packStatement ht htenant, if_pos hc] at hy
  cases hvalue : x.2 c with
  | null =>
    rw [hvalue] at hy
    exact S.affinity_null _ _ _ _ hy
  | text s =>
    have hread : readBack (x.2 c) = x.2 c := readBack_of_finite (by simp [hvalue])
    rw [hread, hstored.affine c hc, hvalue] at hy
    cases hy
  | number z =>
    cases z with
    | finite n =>
      have hread : readBack (x.2 c) = x.2 c := by rw [hvalue]; rfl
      rw [hread, hstored.affine c hc, hvalue] at hy
      cases hy
      trivial
    | nan | infinite =>
      rw [hvalue] at hy
      exact S.affinity_null _ _ _ _ hy

end

/-! ## All rows -/

def packRows (encryption : Option FieldEncryption) (db : Db) (tenantId : String) (tables : List String) :
    List (String × Row) :=
  tables.flatMap fun t => ((db t).filter (isTenantRow tenantId)).map fun r => (t, transformExportRow encryption t r)

section
variable {S : PortableSchema} {tenantId t : String} {st : Db × ImportCounts}

theorem importRow_packRow (ht : t ∈ tenantTables) (r : Row) (i : ℕ) :
    (importRow S.toSchema tenantId t st (some (rowJson (S.table t).columns r), i)).1 =
        S.put (packStatement S.toSchema tenantId) st.1 (t, r) ∧
      ((importRow S.toSchema tenantId t st (some (rowJson (S.table t).columns r), i)).2.failed = 0 ↔
        st.2.failed = 0 ∧ S.Accepted (packStatement S.toSchema tenantId) st.1 (t, r)) := by
  have hcols : (packStatement S.toSchema tenantId (t, r)).cols ≠ [] :=
    List.ne_nil_of_mem ((packStatement_cols ht).2 (S.tenantId_mem t ht))
  have hrecord : (some (rowJson (S.table t).columns r)).bind recordOf = some (packRecord S.toSchema (t, r)) := rfl
  have hstmt : rowStatement S.toSchema t (withTenant (S.table t) tenantId (packRecord S.toSchema (t, r))) =
      packStatement S.toSchema tenantId (t, r) := rfl
  rw [importRow]
  dsimp only
  rw [hrecord]
  dsimp only
  rw [hstmt, if_neg hcols, Schema.put]
  cases hout : S.upsert (packStatement S.toSchema tenantId (t, r)) st.1 with
  | error e =>
    refine ⟨rfl, iff_of_false (Nat.succ_ne_zero _) ?_⟩
    rintro ⟨-, out, hok⟩
    rw [hout] at hok
    cases hok
  | ok out =>
    obtain ⟨db, n⟩ := out
    have haccepted : S.Accepted (packStatement S.toSchema tenantId) st.1 (t, r) := ⟨_, hout⟩
    cases n with
    | zero => exact ⟨rfl, (and_iff_left haccepted).symm⟩
    | succ n => exact ⟨rfl, (and_iff_left haccepted).symm⟩

theorem foldl_importRow (ht : t ∈ tenantTables) (rows : List Row) (i : ℕ) :
    ((((rows.map fun r => some (rowJson (S.table t).columns r)).zipIdx i).foldl (importRow S.toSchema tenantId t) st).1 =
        run (S.put (packStatement S.toSchema tenantId)) st.1 (rows.map fun r => (t, r))) ∧
      ((((rows.map fun r => some (rowJson (S.table t).columns r)).zipIdx i).foldl
          (importRow S.toSchema tenantId t) st).2.failed = 0 ↔
        st.2.failed = 0 ∧ Along (S.put (packStatement S.toSchema tenantId))
          (S.Accepted (packStatement S.toSchema tenantId)) st.1 (rows.map fun r => (t, r))) := by
  induction rows generalizing st i with
  | nil => exact ⟨rfl, (and_iff_left along_nil).symm⟩
  | cons r rows ih =>
    obtain ⟨hdb, hfailed⟩ := @importRow_packRow _ _ _ st ht r i
    obtain ⟨hdb', hfailed'⟩ := @ih (importRow S.toSchema tenantId t st (some (rowJson (S.table t).columns r), i))
      (i + 1)
    rw [hdb] at hdb' hfailed'
    simp only [List.map_cons, List.zipIdx_cons, List.foldl_cons, run_cons, along_cons]
    refine ⟨hdb', hfailed'.trans ?_⟩
    rw [hfailed, and_assoc]

end

/-- The payload of a table, as `buildPortabilityPack` lists it. -/
abbrev tableEntry (crypto : Crypto) (table : String × List Json) : PayloadEntry :=
  payloadEntry crypto table.1 table.2 (coreTables.contains table.1)

section
variable {S : PortableSchema} {tenantId t : String} {st : Db × ImportCounts} {encryption : Option FieldEncryption}
  {db : Db} {toNumber : Json → ℚ} {payloads : Json} {crypto : Crypto}

/-- The payloads of the tables that carry a `tenant_id`. -/
theorem foldl_importPayload {tables : List String} (htables : ∀ t ∈ tables, t ∈ tenantTables)
    (hpayloads : ∀ t ∈ tables, let rows := (exportRows S.toSchema encryption db ⟨t, none⟩ (isTenantRow tenantId)).2
      rows ≠ [] → payloads.get? t = some (.arr rows)) :
    let entries := ((tables.map fun t => exportRows S.toSchema encryption db ⟨t, none⟩ (isTenantRow tenantId)).filter
      (·.2 ≠ [])).map (tableEntry crypto)
    let rows := packRows encryption db tenantId tables
    (entries.foldl (importPayload S.toSchema tenantId toNumber (some payloads)) st).1 =
        run (S.put (packStatement S.toSchema tenantId)) st.1 rows ∧
      ((entries.foldl (importPayload S.toSchema tenantId toNumber (some payloads)) st).2.failed = 0 ↔
        st.2.failed = 0 ∧ Along (S.put (packStatement S.toSchema tenantId))
          (S.Accepted (packStatement S.toSchema tenantId)) st.1 rows) := by
  induction tables generalizing st with
  | nil => exact ⟨rfl, (and_iff_left along_nil).symm⟩
  | cons t tables ih =>
    rw [List.forall_mem_cons] at htables hpayloads
    intro entries rows
    have hrows : rows = (((db t).filter (isTenantRow tenantId)).map (transformExportRow encryption t)).map
        (fun r => (t, r)) ++ packRows encryption db tenantId tables := by
      simp [rows, packRows]
    obtain ⟨hdb, hfailed⟩ := @foldl_importRow _ _ _ st htables.1
      (((db t).filter (isTenantRow tenantId)).map (transformExportRow encryption t)) 0
    set step := ((((((db t).filter (isTenantRow tenantId)).map (transformExportRow encryption t)).map fun r =>
      some (rowJson (S.table t).columns r)).zipIdx 0).foldl (importRow S.toSchema tenantId t) st) with hstep
    obtain ⟨hdb', hfailed'⟩ := @ih step htables.2 hpayloads.2
    have hentries : entries.foldl (importPayload S.toSchema tenantId toNumber (some payloads)) st =
        (((tables.map fun t => exportRows S.toSchema encryption db ⟨t, none⟩ (isTenantRow tenantId)).filter
          (·.2 ≠ [])).map (tableEntry crypto)).foldl (importPayload S.toSchema tenantId toNumber (some payloads)) step := by
      have hexport : exportRows S.toSchema encryption db ⟨t, none⟩ (isTenantRow tenantId) =
          (t, (((db t).filter (isTenantRow tenantId)).map (transformExportRow encryption t)).map
            (rowJson (S.table t).columns)) := by
        simp [exportRows]
      simp only [entries, List.map_cons]
      rw [hexport] at hpayloads ⊢
      by_cases hnone : (db t).filter (isTenantRow tenantId) = []
      · rw [List.filter_cons_of_neg (by simp [hnone])]
        have hsame : step = st := by simp [step, hnone]
        rw [hsame]
      · rw [List.filter_cons_of_pos (by simpa using hnone), List.map_cons, List.foldl_cons]
        congr 1
        have hrowsOf : rowsOf toNumber (some payloads) t = some ((((db t).filter (isTenantRow tenantId)).map
            (transformExportRow encryption t)).map fun r => some (rowJson (S.table t).columns r)) := by
          rw [rowsOf, Option.bind_some, hpayloads.1 (by simpa using hnone), Option.bind_some, payloadRows]
          simp [hnone]
        simp only [importPayload, payloadEntry, if_pos htables.1, hrowsOf]
        rfl
    rw [hentries, hrows, run_append, along_append, ← hdb]
    exact ⟨hdb', hfailed'.trans (by rw [hfailed, and_assoc])⟩

theorem foldl_importPayload_skip {entries : List PayloadEntry} (h : ∀ e ∈ entries, e.logicalName ∉ tenantTables)
    {payloads : Option Json} :
    (entries.foldl (importPayload S.toSchema tenantId toNumber payloads) st).1 = st.1 ∧
      (entries.foldl (importPayload S.toSchema tenantId toNumber payloads) st).2.failed = st.2.failed := by
  induction entries generalizing st with
  | nil => exact ⟨rfl, rfl⟩
  | cons e entries ih =>
    rw [List.forall_mem_cons] at h
    obtain ⟨hdb, hfailed⟩ := @ih (importPayload S.toSchema tenantId toNumber payloads st e) h.2
    have hstep : importPayload S.toSchema tenantId toNumber payloads st e =
        (st.1, { st.2 with skipped := st.2.skipped + 1 }) := by rw [importPayload, if_neg h.1]
    rw [List.foldl_cons]
    exact ⟨hdb.trans (by rw [hstep]), hfailed.trans (by rw [hstep])⟩

end

end ChronoSynth.Privacy

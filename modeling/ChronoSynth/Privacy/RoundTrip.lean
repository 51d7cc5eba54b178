import Mathlib.Data.List.Dedup
import ChronoSynth.Privacy.Imports
import ChronoSynth.Privacy.PackRows

/-!
# Export, deletion and import

The pack of a tenant's export, imported after the tenant's rows have been deleted, and imported again.

* `restores_iff` — every row comes back as it was exported, without a failure, and the second import changes none,
  exactly if the pack is signed with the platform's key and the rows are such: their numbers are finite, each refers to
  rows that are left or come before it in the order of the tables, and each has a key to be known by.
* The order of the tables is the one for deletion, children first.
-/

namespace ChronoSynth.Privacy

open Sql Json

theorem foreignKeys_jobs : ∀ e ∈ serverForeignKeys, e.1 ≠ "import_jobs" ∧
    ∀ b ∈ e.2.column.toByteArray.data.toList.head?, ¬ (48 ≤ b.toNat ∧ b.toNat ≤ 57) := by
  decide +kernel

/-- A tenant in a database, as the server's tables hold it. -/
structure StoredTenant (S : PortableSchema) where
  tenantId : String
  tenantId_ne : tenantId ≠ ""
  persona : Json
  persona_made : persona.Made
  encryption : Option FieldEncryption
  db : Db
  consistent : S.Consistent db
  stored : ∀ t, ∀ r ∈ db t, StoredRow S.toSchema t r

namespace StoredTenant

variable {S : PortableSchema} (tenant : StoredTenant S)

def content : TenantContent where
  tenantId := tenant.tenantId
  tenantId_ne := tenant.tenantId_ne
  persona := tenant.persona
  persona_made := tenant.persona_made
  schema := S.toSchema
  columns_before := S.columns_before
  encryption := tenant.encryption
  db := tenant.db

def exported (x : String × Row) : String × Row := (x.1, transformExportRow tenant.encryption x.1 x.2)

/-- The tenant's rows, in the order of the tables. -/
def rows : List (String × Row) :=
  tenantTables.flatMap fun t => ((tenant.db t).filter (isTenantRow tenant.tenantId)).map fun r => (t, r)

/-- `DELETE FROM … WHERE tenant_id = ?` for all tables, in one transaction. -/
def deleteFrom (S : Schema) (tenantId : String) (tables : List String) (db : Db) : Db :=
  tables.foldl (fun db t => (S.deleteWhere t (isTenantRow tenantId) db).1) db

/-- The database without the tenant's rows. -/
def emptied : Db := deleteFrom S.toSchema tenant.tenantId tenantTables tenant.db

variable {tenant} {x : String × Row}

theorem mem_rows : x ∈ tenant.rows ↔ x.1 ∈ tenantTables ∧ x.2 ∈ tenant.db x.1 ∧ isTenantRow tenant.tenantId x.2 := by
  obtain ⟨t, r⟩ := x
  simp [rows]

theorem packRows_eq :
    packRows tenant.encryption tenant.db tenant.tenantId tenantTables = tenant.rows.map tenant.exported := by
  simp [packRows, rows, exported, List.map_flatMap, Function.comp_def]

theorem redacted_exported (x : String × Row) : Redacted x.1 x.2 (tenant.exported x).2 :=
  redacted_transformExportRow _ _ _

/-! ## The rows that are left -/

section
variable {db : Db} {tenantId t : String} {r r' : Row} {tables : List String}

theorem worn_deleteFrom (h : r' ∈ deleteFrom S.toSchema tenantId tables db t) :
    ∃ r ∈ db t, S.Worn (fun _ _ => False) t r' r := by
  induction tables generalizing db with
  | nil => exact ⟨r', h, Schema.Worn.refl t r'⟩
  | cons u tables ih =>
    obtain ⟨r₁, hr₁, hw₁⟩ := ih h
    obtain ⟨r, hr, hw, -⟩ : ∃ r ∈ db t, S.Worn (fun _ _ => False) t r₁ r ∧ _ := Schema.mem_deleteWhere hr₁
    exact ⟨r, hr, hw₁.trans hw⟩

theorem isTenantRow_worn (h : S.Worn (fun _ _ => False) t r' r) : isTenantRow tenantId r' ↔ isTenantRow tenantId r := by
  rw [isTenantRow, isTenantRow, h.eq not_false (ErasureSchema.not_setNullColumn (by decide))]

theorem not_isTenantRow_deleteFrom (ht : t ∈ tables) (h : r ∈ deleteFrom S.toSchema tenantId tables db t) :
    ¬ isTenantRow tenantId r := by
  induction tables generalizing db with
  | nil => cases ht
  | cons u tables ih =>
    by_cases htables : t ∈ tables
    · exact ih htables h
    · obtain rfl := (List.mem_cons.1 ht).resolve_right htables
      obtain ⟨r₁, hr₁, hw⟩ := @worn_deleteFrom _ _ _ _ _ tables h
      obtain ⟨r₂, -, hw', hcond⟩ : ∃ r ∈ db t, S.Worn (fun _ _ => False) t r₁ r ∧ _ := Schema.mem_deleteWhere hr₁
      exact fun hrow => hcond rfl ((isTenantRow_worn (hw.trans hw')).1 hrow)

end

theorem not_isTenantRow_emptied {t : String} (ht : t ∈ tenantTables) {r : Row} (hr : r ∈ tenant.emptied t) :
    ¬ isTenantRow tenant.tenantId r :=
  not_isTenantRow_deleteFrom ht hr

/-! ## Keys -/

theorem sameKey_redacted {t : String} {r r₁ r' r₁' : Row} {key : List String}
    (hkey : key ∈ (S.table t).pkColumns :: (S.table t).uniqueIndexes) (h : Redacted t r r₁) (h' : Redacted t r' r₁') :
    SameKey key r₁ r₁' ↔ SameKey key r r' := by
  refine and_congr_right fun _ => forall₂_congr fun c hc => ?_
  rw [h.eq (S.keys_open t key hkey c hc), h'.eq (S.keys_open t key hkey c hc)]

theorem keyed_exported (x : String × Row) : S.Keyed (tenant.exported x) ↔ S.Keyed x :=
  exists_congr fun _ => and_congr_right fun hkey => sameKey_redacted hkey (redacted_exported x) (redacted_exported x)

theorem not_sameKey_emptied {t : String} (ht : t ∈ tenantTables) {key : List String}
    (hkey : key ∈ (S.table t).pkColumns :: (S.table t).uniqueIndexes) {r' : Row} (hr' : r' ∈ tenant.emptied t)
    (hx : (t, x.2) ∈ tenant.rows) : ¬ SameKey key r' (tenant.exported (t, x.2)).2 := by
  intro hsame
  obtain ⟨r, hr, hw⟩ := worn_deleteFrom hr'
  obtain ⟨-, hmem, htenant⟩ := mem_rows.1 hx
  have hsame' : SameKey key r x.2 := by
    refine ⟨hsame.1, fun c hc => ?_⟩
    obtain ⟨hne, heq⟩ := hsame.2 c hc
    have hold := hw.eq_of_ne_null not_false hne
    rw [(redacted_exported (t, x.2)).eq (S.keys_open t key hkey c hc)] at heq
    exact ⟨hold ▸ hne, hold ▸ heq⟩
  have hone := tenant.consistent.eq_of_sameKey (S.tenantTables_mem t ht) hkey hr hmem hsame'
  exact not_isTenantRow_emptied ht hr' ((isTenantRow_worn hw).2 (hone ▸ htenant))

theorem nodup_tenantTables : tenantTables.Nodup :=
  (List.sublist_append_left _ _).nodup (by simpa [exportedTables] using nodup_exportedTables)

theorem pairwise_rows {t : String} {key : List String} (ht : t ∈ S.tables)
    (hkey : key ∈ (S.table t).pkColumns :: (S.table t).uniqueIndexes) :
    tenant.rows.Pairwise fun x y => x.1 = t → y.1 = t → ¬ SameKey key x.2 y.2 := by
  refine List.pairwise_flatMap.2 ⟨fun u _ => ?_, nodup_tenantTables.imp fun hne x hx y hy hxt hyt => ?_⟩
  · rw [List.pairwise_map]
    by_cases hut : u = t
    · subst hut
      have hpair := (tenant.consistent u ht).keys key hkey
      exact (hpair.sublist List.filter_sublist).imp fun h _ _ => h
    · exact List.pairwise_of_forall fun _ _ h => absurd h hut
  · obtain ⟨_, -, rfl⟩ := List.mem_map.1 hx
    obtain ⟨_, -, rfl⟩ := List.mem_map.1 hy
    exact absurd (hxt.trans hyt.symm) hne

/-- **The rows of the pack have keys that nothing that is left has.** -/
theorem fresh_exported (hcons : S.Consistent tenant.emptied) :
    S.Fresh tenant.emptied (tenant.rows.map tenant.exported) where
  listed x hx := by
    obtain ⟨y, hy, rfl⟩ := List.mem_map.1 hx
    exact S.tenantTables_mem _ (mem_rows.1 hy).1
  admits x hx := by
    obtain ⟨y, hy, rfl⟩ := List.mem_map.1 hx
    obtain ⟨ht, hmem, -⟩ := mem_rows.1 hy
    exact (S.admits_redacted _ _ _ (redacted_exported y)).trans ((tenant.consistent _ (S.tenantTables_mem _ ht)).admits _ hmem)
  keys t ht key hkey := by
    refine List.pairwise_append.2 ⟨(hcons t ht).keys key hkey, ?_, fun r hr r' hr' => ?_⟩
    · rw [List.pairwise_map, List.pairwise_filter, List.pairwise_map]
      refine (pairwise_rows ht hkey).imp fun {x y} hxy hx hy hsame => ?_
      obtain ⟨u, r⟩ := x
      obtain ⟨v, r'⟩ := y
      obtain rfl : u = t := of_decide_eq_true hx
      obtain rfl : v = u := of_decide_eq_true hy
      exact hxy rfl rfl ((sameKey_redacted hkey (redacted_exported (v, r)) (redacted_exported (v, r'))).1 hsame)
    · obtain ⟨y, hy, rfl⟩ := List.mem_map.1 hr'
      obtain ⟨hy, hyt⟩ := List.mem_filter.1 hy
      obtain ⟨⟨u, r₁⟩, hx, rfl⟩ := List.mem_map.1 hy
      obtain rfl : u = t := of_decide_eq_true hyt
      exact not_sameKey_emptied (x := (u, r₁)) (mem_rows.1 hx).1 hkey hr hx

theorem grounded_exported {db db' : Db} {xs : List (String × Row)}
    (h : ∀ e ∈ serverForeignKeys, ∀ value, (∃ p ∈ db e.2.table, p e.2.refColumn = value) ↔
      ∃ p ∈ db' e.2.table, p e.2.refColumn = value) :
    Along (fun db x => db.append [x]) S.Grounded db (xs.map tenant.exported) ↔
      Along (fun db x => db.append [x]) S.Grounded db' xs := by
  induction xs generalizing db db' with
  | nil => exact iff_of_true along_nil along_nil
  | cons x xs ih =>
    have hstep : ∀ e ∈ serverForeignKeys, ∀ value,
        (∃ p ∈ db.append [tenant.exported x] e.2.table, p e.2.refColumn = value) ↔
          ∃ p ∈ db'.append [x] e.2.table, p e.2.refColumn = value := by
      intro e he value
      simp only [Db.mem_append, List.mem_singleton, or_and_right, exists_or]
      refine or_congr (h e he value) ⟨?_, ?_⟩
      · rintro ⟨p, hp, hvalue⟩
        obtain ⟨htable, rfl⟩ := Prod.mk.inj hp
        refine ⟨x.2, Prod.ext htable rfl, ?_⟩
        rw [← hvalue]
        exact ((redacted_exported x).eq (htable ▸ (references_open e he).2)).symm
      · rintro ⟨p, hp, hvalue⟩
        obtain ⟨htable, rfl⟩ := Prod.mk.inj (hp.trans (Prod.eta x).symm)
        refine ⟨(tenant.exported x).2, Prod.ext htable rfl, ?_⟩
        rw [← hvalue]
        exact (redacted_exported x).eq (htable ▸ (references_open e he).2)
    rw [List.map_cons, along_cons, along_cons, ih hstep]
    refine and_congr_left fun _ => forall₂_congr fun fk hfk => ?_
    have he := ErasureSchema.mem_foreignKeys.1 hfk
    rw [Resolves, Resolves, (redacted_exported x).eq (references_open _ he).1, hstep _ he]

end StoredTenant

/-! ## A pack is imported -/

/-- When the steps of an import take place; the token is used in time. -/
structure Visit where
  issued : ℤ
  consumed : ℤ
  imported : ℤ
  pruned : ℤ
  inTime : consumed < issued + tokenTtlMs

/-- The oracles of the steps: no one of them fails. -/
def Visit.oracle (v : Visit) : ℕ → ImportEnv
  | 0 => ⟨v.issued, false⟩
  | 1 => ⟨v.consumed, false⟩
  | 2 => ⟨v.imported, false⟩
  | _ => ⟨v.pruned, false⟩

namespace Importer

variable (imp : Importer)

/-- `dryRunImport`, and `commitImport` with the token it gives. -/
def restore (tenantId text : String) : ImportProg (ℕ × ImportCounts) := do
  match ← imp.dryRun tenantId text with
  | .report _ (some token) =>
    match ← imp.commit tenantId text token with
    | .committed importId counts => pure (importId, counts)
    | _ => Prog.throw .invalidToken
  | _ => Prog.throw .invalidManifest

variable {imp} {tenantId text : String} {m : PortabilityPackManifestV1} {s : ImportDb} {v : Visit}

theorem restore_refused (h : (dryRunImport imp.crypto imp.json imp.platformKey tenantId text).canCommit ≠ true) :
    (imp.restore tenantId text).solo imp.exec v.oracle s = (s, .error .invalidManifest) := by
  simp [restore, dryRun, h, Prog.solo]

/-- The rows are imported in the transaction of `commitImport`. -/
theorem restore_solo (h : (dryRunImport imp.crypto imp.json imp.platformKey tenantId text).canCommit = true)
    (hread : readManifest imp.json text = some m) (hlt : ∀ token ∈ s.tokens, token.token < s.drawn) :
    (imp.restore tenantId text).solo imp.exec v.oracle s =
      match importRows imp.schema.toSchema tenantId imp.toNumber (importIdText s.drawn) (imp.packChecksum text) m
        (imp.payloads text) v.imported s.data with
      | none => (⟨s.data, s.tokens.filter (v.pruned < ·.expiresAt), s.drawn + 1⟩, .error .rolledBack)
      | some (data, counts) =>
        (⟨data, s.tokens.filter (v.pruned < ·.expiresAt), s.drawn + 1⟩, .ok (s.drawn, counts)) := by
  set sum := imp.packChecksum text with hsum
  set token : Token := ⟨s.drawn, tenantId, s.drawn, sum, v.issued + tokenTtlMs⟩ with htoken
  have hnames : token.Names s.drawn tenantId sum := ⟨rfl, rfl, rfl⟩
  have hold : ∀ t ∈ s.tokens, ¬ t.Names s.drawn tenantId sum := fun t ht hn => (hlt t ht).ne hn.1
  have hissue : imp.exec (v.oracle 0) (.issue tenantId sum) s =
      ({ s with tokens := s.tokens ++ [token], drawn := s.drawn + 1 }, .issued (some token)) := rfl
  have hconsume : imp.exec (v.oracle 1) (.consume s.drawn tenantId sum)
      { s with tokens := s.tokens ++ [token], drawn := s.drawn + 1 } =
        ({ s with drawn := s.drawn + 1 }, .consumed (some s.drawn) v.consumed) := by
    have hfind : (s.tokens ++ [token]).find? (fun t => t.Names s.drawn tenantId sum ∧ v.consumed < t.expiresAt) =
        some token := by
      rw [List.find?_append, List.find?_eq_none.2 fun t ht hn => hold t ht (of_decide_eq_true hn).1, Option.none_or]
      exact List.find?_cons_of_pos (decide_eq_true ⟨hnames, v.inTime⟩)
    have hcount : (s.tokens ++ [token]).countP (Token.Names s.drawn tenantId sum) = 1 := by
      rw [List.countP_append, List.countP_eq_zero.2 fun t ht hn => hold t ht (of_decide_eq_true hn)]
      simp [hnames]
    have hfilter : (s.tokens ++ [token]).filter (fun t => ¬ t.Names s.drawn tenantId sum) = s.tokens := by
      rw [List.filter_append, List.filter_eq_self.2 fun t ht => decide_eq_true (hold t ht)]
      simp [hnames]
    simp only [exec, execImport, Visit.oracle, hfind, hcount, hfilter]
    rfl
  have hprune : ∀ s' : ImportDb, imp.exec (v.oracle 3) .pruneExpired s' =
      ({ s' with tokens := s'.tokens.filter fun t => v.pruned < t.expiresAt }, .pruned) := fun _ => rfl
  have hstart : (imp.restore tenantId text).solo imp.exec v.oracle s =
      (imp.commit tenantId text s.drawn >>= fun result =>
        match result with
        | .committed importId counts => pure (importId, counts)
        | _ => Prog.throw .invalidToken).solo imp.exec (fun n => v.oracle (n + 1))
          { s with tokens := s.tokens ++ [token], drawn := s.drawn + 1 } := by
    simp only [restore, dryRun, h, if_true]
    rfl
  rw [hstart]
  simp only [commit, ← hsum, Prog.transaction_bind, Prog.txn_bind, Prog.solo_txn]
  simp only [hconsume, hread, Prog.txn_bind, Prog.solo_txn, hprune]
  have himport : imp.exec (v.oracle 2) (.importRows tenantId s.drawn sum m (imp.payloads text))
      { s with drawn := s.drawn + 1 } =
        match importRows imp.schema.toSchema tenantId imp.toNumber (importIdText s.drawn) sum m (imp.payloads text)
          v.imported s.data with
        | none => ({ s with drawn := s.drawn + 1 }, .imported none)
        | some (data, counts) => (⟨data, s.tokens, s.drawn + 1⟩, .imported (some counts)) := rfl
  rw [himport]
  cases importRows imp.schema.toSchema tenantId imp.toNumber (importIdText s.drawn) sum m (imp.payloads text)
    v.imported s.data with
  | none => rfl
  | some out => rfl

end Importer

/-! ## The pack of a tenant -/

/-- An export, what it is imported with, and when. -/
structure Restoration where
  schema : PortableSchema
  crypto : Crypto
  json : JsonParse
  platformKey : String
  toNumber : Json → ℚ
  profile : KeyProfile
  tenant : StoredTenant schema
  exportedAt : UtcTime
  /-- The deletion is committed. -/
  emptied_consistent : schema.Consistent tenant.emptied
  tokens : List Token
  drawn : ℕ
  tokens_lt : ∀ token ∈ tokens, token.token < drawn
  /-- Imports to come have new ids. -/
  jobs_fresh : ∀ k, drawn ≤ k → ∀ r ∈ tenant.db "import_jobs", r "id" ≠ .text (importIdText k)
  first : Visit
  second : Visit

namespace Restoration

variable (R : Restoration)

def importer : Importer := ⟨R.crypto, R.json, R.platformKey, R.schema.toServerSchema, R.toNumber⟩

def pack : String := exportedPack R.crypto R.platformKey R.profile (R.tenant.content.exportData R.exportedAt)

def start : ImportDb := ⟨R.tenant.emptied, R.tokens, R.drawn⟩

/-- The pack is imported. -/
def imported (v : Visit) (s : ImportDb) : ImportDb × Except ImportError (ℕ × ImportCounts) :=
  (R.importer.restore R.tenant.tenantId R.pack).solo R.importer.exec v.oracle s

/-- **The import restores the tenant**: every row is there with the values it was exported with, no row has failed, and
importing the pack again only adds the record of that import. -/
def Restores : Prop :=
  ∃ s importId counts, R.imported R.first R.start = (s, .ok (importId, counts)) ∧ counts.failed = 0 ∧
    (∀ t ∈ tenantTables, ∀ r ∈ R.tenant.db t, isTenantRow R.tenant.tenantId r →
      ∃ r' ∈ s.data t, ∀ c ∈ (R.schema.table t).columns, r' c = transformExportRow R.tenant.encryption t r c) ∧
    ∃ s' importId' counts' record, R.imported R.second s = (s', .ok (importId', counts')) ∧
      s'.data = s.data.append [("import_jobs", record)]

/-- The pack is signed with the platform's key, and the tenant's rows are finite, in order and have keys. -/
structure Restorable : Prop where
  key : ∀ key ∈ R.profile.ownKey, key = R.platformKey
  finite : ∀ x ∈ R.tenant.rows, FiniteRow R.schema.toSchema x.1 x.2
  ordered : Along (fun db x => db.append [x]) R.schema.Grounded R.tenant.emptied R.tenant.rows
  keyed : ∀ x ∈ R.tenant.rows, R.schema.Keyed x

variable {R}

/-- The rows of the pack. -/
abbrev exportedRows (R : Restoration) : List (String × Row) := R.tenant.rows.map R.tenant.exported

abbrev putRow (R : Restoration) : Db → String × Row → Db :=
  R.schema.put (packStatement R.schema.toSchema R.tenant.tenantId)

theorem not_mem_tenantTables {name : String} (h : name ∈ relatedTables.map (·.name) ++
    postTenantRelatedTables.map (·.name) ++ exportedExemptTables) : name ∉ tenantTables := by
  have hnodup : (tenantTables ++ (relatedTables.map (·.name) ++ postTenantRelatedTables.map (·.name) ++
      exportedExemptTables)).Nodup := by
    simpa [exportedTables] using nodup_exportedTables
  exact fun hname => (List.nodup_append.1 hnodup).2.2 name hname name h rfl

theorem payloads_pack (R : Restoration) : R.importer.payloads R.pack =
    some (.obj (("persona", .arr [R.tenant.persona]) ::
      (R.tenant.content.exportData R.exportedAt).tables.map fun t => (t.1, .arr t.2))) := by
  have hmade : ((R.tenant.content.exportData R.exportedAt).bundle R.crypto
      (R.profile.signingKey R.platformKey)).Made := (R.tenant.content.exportData_proper R.exportedAt).made_bundle R.crypto
  rw [Importer.payloads, pack, exportedPack]
  exact (congrArg (Option.bind · (Json.get? "payloads")) (R.json.parse_stringify hmade)).trans rfl

theorem foldl_manifest (st : Db × ImportCounts) :
    let payloads := ((R.tenant.content.exportData R.exportedAt).manifest R.crypto).payloads
    let fold := payloads.foldl
      (importPayload R.schema.toSchema R.tenant.tenantId R.toNumber (R.importer.payloads R.pack)) st
    fold.1 = run R.putRow st.1 R.exportedRows ∧
      (fold.2.failed = 0 ↔ st.2.failed = 0 ∧ Along R.putRow
        (R.schema.Accepted (packStatement R.schema.toSchema R.tenant.tenantId)) st.1 R.exportedRows) := by
  intro payloads fold
  set tenantPart := (tenantTables.map fun t =>
    exportRows R.schema.toSchema R.tenant.encryption R.tenant.db ⟨t, none⟩ (isTenantRow R.tenant.tenantId)).filter
      (·.2 ≠ []) with htenantPart
  obtain ⟨others, hothers, htables⟩ : ∃ others : List (String × List Json),
      (∀ t ∈ others, t.1 ∉ tenantTables) ∧ (R.tenant.content.exportData R.exportedAt).tables = tenantPart ++ others := by
    refine ⟨_, fun t ht => ?_, by
      simp only [TenantContent.exportData, exportData, List.append_assoc, List.filter_append]
      rfl⟩
    have hname : t.1 ∈ relatedTables.map (·.name) ++ postTenantRelatedTables.map (·.name) ++ exportedExemptTables := by
      simp only [List.mem_append, List.mem_filter, List.mem_map] at ht ⊢
      rcases ht with ⟨⟨u, hu, rfl⟩, -⟩ | ⟨⟨u, hu, rfl⟩, -⟩ | ⟨⟨u, hu, rfl⟩, -⟩
      · exact .inl (.inl ⟨u, hu, rfl⟩)
      · exact .inl (.inr ⟨u, hu, rfl⟩)
      · exact .inr hu
    exact not_mem_tenantTables hname
  have hpersona : "persona" ∉ tenantTables := fun h =>
    (ne_of_mem_exportedTables _ (List.mem_append_left _ (List.mem_append_left _ (List.mem_append_left _ h)))).2 rfl
  have hmade : (Json.obj (("persona", .arr [R.tenant.persona]) ::
      (R.tenant.content.exportData R.exportedAt).tables.map fun t => (t.1, .arr t.2))).Made := by
    have hbundle : ((R.tenant.content.exportData R.exportedAt).bundle R.crypto
        (R.profile.signingKey R.platformKey)).Made := (R.tenant.content.exportData_proper R.exportedAt).made_bundle R.crypto
    exact hbundle.get? (show _ = some _ from rfl : Json.get? "payloads" _ = _)
  have hget : ∀ t ∈ tenantTables, let rows := (exportRows R.schema.toSchema R.tenant.encryption R.tenant.db ⟨t, none⟩
      (isTenantRow R.tenant.tenantId)).2
      rows ≠ [] → (Json.obj (("persona", .arr [R.tenant.persona]) ::
        (R.tenant.content.exportData R.exportedAt).tables.map fun t => (t.1, .arr t.2))).get? t = some (.arr rows) := by
    intro t ht rows hne
    have hmem : (t, Json.arr rows) ∈ (R.tenant.content.exportData R.exportedAt).tables.map fun t => (t.1, Json.arr t.2) := by
      rw [htables, List.map_append]
      refine List.mem_append_left _ (List.mem_map.2 ⟨(t, rows), List.mem_filter.2 ⟨?_, decide_eq_true hne⟩, rfl⟩)
      exact List.mem_map.2 ⟨t, ht, rfl⟩
    exact hmade.get?_of_mem (List.mem_cons_of_mem _ hmem)
  set step := importPayload R.schema.toSchema R.tenant.tenantId R.toNumber (R.importer.payloads R.pack) with hstep
  have hfold : fold = (others.map (tableEntry R.crypto)).foldl step ((tenantPart.map (tableEntry R.crypto)).foldl step
      ([payloadEntry R.crypto "persona" [R.tenant.persona] true].foldl step st)) := by
    have hpayloads : payloads = [payloadEntry R.crypto "persona" [R.tenant.persona] true] ++
        (tenantPart.map (tableEntry R.crypto) ++ others.map (tableEntry R.crypto)) := by
      rw [← List.map_append, ← htables]
      rfl
    rw [← List.foldl_append, ← List.foldl_append, ← hpayloads]
  set st₀ := [payloadEntry R.crypto "persona" [R.tenant.persona] true].foldl step st with hst₀
  have hskip₀ : st₀.1 = st.1 ∧ st₀.2.failed = st.2.failed :=
    foldl_importPayload_skip (by simpa [payloadEntry] using hpersona)
  set st₁ := (tenantPart.map (tableEntry R.crypto)).foldl step st₀ with hst₁
  have hrows : st₁.1 = run R.putRow st₀.1 R.exportedRows ∧ (st₁.2.failed = 0 ↔ st₀.2.failed = 0 ∧
      Along R.putRow (R.schema.Accepted (packStatement R.schema.toSchema R.tenant.tenantId)) st₀.1 R.exportedRows) := by
    rw [hst₁, hstep, payloads_pack, exportedRows, ← StoredTenant.packRows_eq]
    exact foldl_importPayload (fun t ht => ht) hget
  have hskip₁ : ((others.map (tableEntry R.crypto)).foldl step st₁).1 = st₁.1 ∧
      ((others.map (tableEntry R.crypto)).foldl step st₁).2.failed = st₁.2.failed := by
    refine foldl_importPayload_skip fun e he => ?_
    obtain ⟨t, ht, rfl⟩ := List.mem_map.1 he
    exact hothers t ht
  rw [hfold, hskip₁.1, hskip₁.2, hrows.1, hrows.2, hskip₀.1, hskip₀.2]
  exact ⟨rfl, Iff.rfl⟩

/-! ## The import is recorded -/

/-- The record of an import. -/
abbrev jobRow (R : Restoration) (importId : ℕ) (counts : ImportCounts) (now : ℤ) (rows : List Row) : Row :=
  (importJobStatement R.tenant.tenantId (importIdText importId) (R.importer.packChecksum R.pack) counts now).row
    (R.schema.table "import_jobs") rows

theorem jobRow_id (R : Restoration) (importId : ℕ) (counts : ImportCounts) (now : ℤ) (rows : List Row) :
    R.jobRow importId counts now rows "id" = .text (importIdText importId) := by
  simp [jobRow, Upsert.row, importJobStatement, R.schema.jobs_id]

def manifest (R : Restoration) : PortabilityPackManifestV1 :=
  ((R.tenant.content.exportData R.exportedAt).manifest R.crypto).sign R.crypto (R.profile.signingKey R.platformKey)

theorem readManifest_pack (R : Restoration) : readManifest R.json R.pack = some R.manifest :=
  (R.tenant.content.exportData_proper R.exportedAt).readManifest_exportedPack R.crypto R.json R.platformKey R.profile

theorem importIdText_injective : Function.Injective importIdText := by
  exact fun _ _ h => toString_nat_injective (String.append_right_inj _ |>.1 h)

/-- No record of an import has this id. -/
def NewId (db : Db) (importId : ℕ) : Prop := ∀ r ∈ db "import_jobs", r "id" ≠ .text (importIdText importId)

/-- **The record of an import is written**, if its id is new. -/
theorem insert_record {db : Db} (hcons : R.schema.Consistent db) {importId : ℕ} (hnew : NewId db importId)
    (counts : ImportCounts) (now : ℤ) :
    R.schema.insert (importJobStatement R.tenant.tenantId (importIdText importId) (R.importer.packChecksum R.pack) counts now)
      db = .ok (db.append [("import_jobs", R.jobRow importId counts now (db "import_jobs"))], 1) ∧
    R.schema.Consistent (db.append [("import_jobs", R.jobRow importId counts now (db "import_jobs"))]) := by
  have hjobs := Importer.importJobs_mem
  have hnofk : ∀ fk, fk ∉ (R.schema.table "import_jobs").foreignKeys :=
    fun fk hfk => (foreignKeys_jobs _ (ErasureSchema.mem_foreignKeys.1 hfk)).1 rfl
  have hfresh : R.schema.Fresh db [("import_jobs", R.jobRow importId counts now (db "import_jobs"))] := by
    refine ⟨by simpa using R.schema.tenantTables_mem _ hjobs, by simpa using R.schema.jobs_admits .., fun t ht key hkey => ?_⟩
    refine List.pairwise_append.2 ⟨(hcons t ht).keys key hkey, ?_, fun r hr r' hr' hsame => ?_⟩
    · by_cases htable : "import_jobs" = t
      · simp [htable]
      · simp [htable]
    · obtain ⟨y, hy, rfl⟩ := List.mem_map.1 hr'
      obtain ⟨hy, htable⟩ := List.mem_filter.1 hy
      obtain rfl := List.mem_singleton.1 hy
      obtain rfl := of_decide_eq_true htable
      rw [R.schema.jobs_pkColumns, R.schema.jobs_uniqueIndexes, List.mem_singleton] at hkey
      subst hkey
      exact hnew r hr ((hsame.2 "id" (List.mem_singleton_self _)).2.trans (R.jobRow_id ..))
  have hcons' := (Schema.consistent_append_iff hcons hfresh).2 fun fk hfk => absurd hfk (hnofk fk)
  refine ⟨?_, hcons'⟩
  rw [Schema.insert]
  refine (if_pos (R.schema.jobs_admits ..)).trans ?_
  rw [Schema.accept_ok]
  rw [Db.append_singleton] at hcons' ⊢
  exact ⟨hcons', rfl, rfl⟩

/-! ## Importing once -/

theorem canCommit_pack (R : Restoration) :
    (dryRunImport R.importer.crypto R.importer.json R.importer.platformKey R.tenant.tenantId R.pack).canCommit = true ↔
      ∀ key ∈ R.profile.ownKey, key = R.platformKey := by
  have hverify : verifyManifestIntegrity R.crypto R.platformKey R.manifest = true ↔
      R.profile.signingKey R.platformKey = R.platformKey := UnsignedManifest.verify_sign R.crypto _ _
  have hread : readManifest R.importer.json R.pack = some R.manifest := R.readManifest_pack
  rw [Importer.canCommit_iff, hread]
  simp only [Option.some.injEq, exists_eq_left', Importer.Accepts]
  refine Iff.trans ⟨fun h => hverify.1 h.2.2, fun h => ⟨rfl, rfl, hverify.2 h⟩⟩ ?_
  cases hown : R.profile.ownKey with
  | none => simp [KeyProfile.signingKey, hown]
  | some key => simp [KeyProfile.signingKey, hown]

/-- What an import makes of the database and its counts, before it is recorded. -/
def folded (R : Restoration) (db : Db) : Db × ImportCounts :=
  R.manifest.payloads.foldl
    (importPayload R.schema.toSchema R.tenant.tenantId R.toNumber (R.importer.payloads R.pack)) (db, .zero)

theorem folded_fst (R : Restoration) (db : Db) : (R.folded db).1 = run R.putRow db R.exportedRows :=
  (R.foldl_manifest (db, .zero)).1

theorem folded_failed (R : Restoration) (db : Db) : (R.folded db).2.failed = 0 ↔
    Along R.putRow (R.schema.Accepted (packStatement R.schema.toSchema R.tenant.tenantId)) db R.exportedRows :=
  (R.foldl_manifest (db, .zero)).2.trans (and_iff_right rfl)

section
variable {s s' : ImportDb} {v : Visit} {importId : ℕ} {counts : ImportCounts}

theorem imported_eq (hkey : ∀ key ∈ R.profile.ownKey, key = R.platformKey)
    (hlt : ∀ token ∈ s.tokens, token.token < s.drawn) :
    R.imported v s =
      match R.schema.insert (importJobStatement R.tenant.tenantId (importIdText s.drawn)
        (R.importer.packChecksum R.pack) (R.folded s.data).2 v.imported) (R.folded s.data).1 with
      | .ok (data, _) => (⟨data, s.tokens.filter (v.pruned < ·.expiresAt), s.drawn + 1⟩,
          .ok (s.drawn, (R.folded s.data).2))
      | .error () => (⟨s.data, s.tokens.filter (v.pruned < ·.expiresAt), s.drawn + 1⟩, .error .rolledBack) := by
  refine (Importer.restore_solo (R.canCommit_pack.2 hkey) R.readManifest_pack hlt).trans ?_
  have hrows : importRows R.importer.schema.toSchema R.tenant.tenantId R.importer.toNumber (importIdText s.drawn)
      (R.importer.packChecksum R.pack) R.manifest (R.importer.payloads R.pack) v.imported s.data =
        match R.schema.insert (importJobStatement R.tenant.tenantId (importIdText s.drawn)
          (R.importer.packChecksum R.pack) (R.folded s.data).2 v.imported) (R.folded s.data).1 with
        | .ok (db', _) => some (db', (R.folded s.data).2)
        | .error () => none := rfl
  rw [hrows]
  cases R.schema.insert (importJobStatement R.tenant.tenantId (importIdText s.drawn) (R.importer.packChecksum R.pack)
    (R.folded s.data).2 v.imported) (R.folded s.data).1 with
  | ok out => rfl
  | error e => rfl

theorem imported_ok (h : R.imported v s = (s', .ok (importId, counts)))
    (hlt : ∀ token ∈ s.tokens, token.token < s.drawn) :
    (∀ key ∈ R.profile.ownKey, key = R.platformKey) ∧ importId = s.drawn ∧ counts = (R.folded s.data).2 ∧
      s'.drawn = s.drawn + 1 ∧ (∀ token ∈ s'.tokens, token ∈ s.tokens) ∧ R.schema.Consistent s'.data ∧
      s'.data = (R.folded s.data).1.append
        [("import_jobs", R.jobRow s.drawn counts v.imported ((R.folded s.data).1 "import_jobs"))] := by
  by_cases hkey : ∀ key ∈ R.profile.ownKey, key = R.platformKey
  · rw [imported_eq hkey hlt] at h
    split at h
    next data n hinsert =>
      obtain ⟨hcons, hdata⟩ := Schema.insert_ok hinsert
      obtain ⟨rfl, hout⟩ := Prod.mk.inj h
      obtain ⟨rfl, rfl⟩ := Prod.mk.inj (Except.ok.inj hout)
      refine ⟨hkey, rfl, rfl, rfl, fun token ht => List.mem_of_mem_filter ht, hcons, ?_⟩
      rw [Db.append_singleton]
      exact hdata
    next => cases (Prod.mk.inj h).2
  · have hrefused : R.imported v s = (s, .error .invalidManifest) :=
      Importer.restore_refused fun hcan => hkey (R.canCommit_pack.1 hcan)
    rw [hrefused] at h
    cases (Prod.mk.inj h).2

end

/-! ## Rows that come back -/

theorem tenantRow_exported {x : String × Row} (hx : x ∈ R.tenant.rows) :
    isTenantRow R.tenant.tenantId (R.tenant.exported x).2 := by
  obtain ⟨ht, -, htenant⟩ := StoredTenant.mem_rows.1 hx
  exact (StoredTenant.redacted_exported x).eq (tenantId_open _ ht) |>.trans htenant

theorem stored_exported {x : String × Row} (hx : x ∈ R.tenant.rows) :
    StoredRow R.schema.toSchema x.1 (R.tenant.exported x).2 :=
  (R.tenant.stored _ _ (StoredTenant.mem_rows.1 hx).2.1).redacted (StoredTenant.redacted_exported x)

theorem writes_exported (hfinite : ∀ x ∈ R.tenant.rows, FiniteRow R.schema.toSchema x.1 x.2) :
    ∀ x ∈ R.exportedRows, R.schema.Writes (packStatement R.schema.toSchema R.tenant.tenantId x) x := by
  intro x hx
  obtain ⟨y, hy, rfl⟩ := List.mem_map.1 hx
  exact writes_packStatement (StoredTenant.mem_rows.1 hy).1 (tenantRow_exported hy) (stored_exported hy)
    ((FiniteRow.redacted_iff (StoredTenant.redacted_exported y)).2 (hfinite y hy))

/-- **What the import has written is finite.** -/
theorem finite_run {xs : List (String × Row)} (hxs : ∀ x ∈ xs, ∃ y ∈ R.tenant.rows, R.tenant.exported y = x) {db : Db}
    (hdb : ∀ t ∈ tenantTables, ∀ r ∈ db t, isTenantRow R.tenant.tenantId r → FiniteRow R.schema.toSchema t r) :
    ∀ t ∈ tenantTables, ∀ r ∈ run R.putRow db xs t, isTenantRow R.tenant.tenantId r → FiniteRow R.schema.toSchema t r := by
  induction xs generalizing db with
  | nil => exact hdb
  | cons x xs ih =>
    rw [List.forall_mem_cons] at hxs
    obtain ⟨⟨y, hy, rfl⟩, hxs⟩ := hxs
    refine ih hxs fun t ht r hr htenant => ?_
    have hwritten : ∀ rows, FiniteRow R.schema.toSchema y.1 ((packStatement R.schema.toSchema R.tenant.tenantId
        (R.tenant.exported y)).row (R.schema.table y.1) rows) :=
      finite_packStatement (x := R.tenant.exported y) (StoredTenant.mem_rows.1 hy).1 (tenantRow_exported hy) (stored_exported hy)
    unfold putRow Schema.put at hr
    cases hout : R.schema.upsert (packStatement R.schema.toSchema R.tenant.tenantId (R.tenant.exported y)) db with
    | error e =>
      rw [hout] at hr
      exact hdb t ht r hr htenant
    | ok out =>
      rw [hout] at hr
      rcases Schema.mem_of_upsert hout hr with hr | ⟨rfl, rfl | ⟨old, hold, happlies, rfl⟩⟩
      · exact hdb t ht r hr htenant
      · exact hwritten _
      · have holdTenant : isTenantRow R.tenant.tenantId old := isTenantRow_of_applies ht happlies
        intro c hc z hz
        unfold Upsert.merge at hz
        split_ifs at hz
        · exact hwritten _ c hc z hz
        · exact hdb _ ht old hold holdTenant c hc z hz

theorem newId_emptied (R : Restoration) {importId : ℕ} (hid : R.drawn ≤ importId) : NewId R.tenant.emptied importId := by
  intro r' hr'
  obtain ⟨r, hr, hw⟩ := StoredTenant.worn_deleteFrom hr'
  rw [hw.eq not_false (ErasureSchema.not_setNullColumn (by decide))]
  exact R.jobs_fresh importId hid r hr

theorem newId_append (R : Restoration) {importId : ℕ} (hid : R.drawn ≤ importId) :
    NewId (R.tenant.emptied.append R.exportedRows) importId := by
  intro r hr
  rcases Db.mem_append.1 hr with hr | hr
  · exact R.newId_emptied hid r hr
  · obtain ⟨⟨t, r₀⟩, hx, heq⟩ := List.mem_map.1 hr
    obtain ⟨rfl, rfl⟩ := Prod.mk.inj heq
    have hopen : "id" ∉ secretColumns "import_jobs" := by decide
    rw [(redacted_transformExportRow R.tenant.encryption "import_jobs" r₀).eq hopen]
    exact R.jobs_fresh importId hid r₀ (StoredTenant.mem_rows.1 hx).2.1

theorem imported_of_run {s : ImportDb} {v : Visit} (hkey : ∀ key ∈ R.profile.ownKey, key = R.platformKey)
    (hlt : ∀ token ∈ s.tokens, token.token < s.drawn) {db : Db} (hrun : run R.putRow s.data R.exportedRows = db)
    (hcons : R.schema.Consistent db) (hnew : NewId db s.drawn) :
    ∃ record counts, R.imported v s = (⟨db.append [("import_jobs", record)],
        s.tokens.filter (v.pruned < ·.expiresAt), s.drawn + 1⟩, .ok (s.drawn, counts)) ∧
      record "id" = .text (importIdText s.drawn) ∧ counts = (R.folded s.data).2 ∧
      R.schema.Consistent (db.append [("import_jobs", record)]) := by
  obtain ⟨hinsert, hcons'⟩ := R.insert_record hcons hnew (R.folded s.data).2 v.imported
  refine ⟨_, _, ?_, R.jobRow_id .., rfl, hcons'⟩
  rw [imported_eq hkey hlt, folded_fst, hrun, hinsert]

theorem restores_of_restorable (h : R.Restorable) : R.Restores := by
  have hw := writes_exported h.finite
  have hfresh := StoredTenant.fresh_exported R.emptied_consistent
  have hground : Along (fun db x => db.append [x]) R.schema.Grounded R.tenant.emptied R.exportedRows :=
    (StoredTenant.grounded_exported fun _ _ _ => Iff.rfl).2 h.ordered
  obtain ⟨hrun, hcons⟩ := Schema.run_put_of_grounded hw R.emptied_consistent hfresh hground
  obtain ⟨record, counts, himported, hid, hcounts, hcons₁⟩ := imported_of_run (s := R.start) (v := R.first) h.key R.tokens_lt
    hrun hcons (R.newId_append le_rfl)
  have hrestored : ∀ x ∈ R.exportedRows, x.2 ∈ (R.tenant.emptied.append R.exportedRows).append [("import_jobs", record)] x.1 :=
    fun x hx => Db.mem_append.2 (.inl (Db.mem_append.2 (.inr hx)))
  refine ⟨_, _, counts, himported, ?_, fun t ht r hr htenant => ?_, ?_⟩
  · rw [hcounts, folded_failed]
    exact (Schema.along_accepted_iff hw R.emptied_consistent hfresh).2 hground
  · exact ⟨_, hrestored _ (List.mem_map_of_mem (StoredTenant.mem_rows.2 ⟨ht, hr, htenant⟩ : (t, r) ∈ R.tenant.rows)),
      fun _ _ => rfl⟩
  · -- the rows are there and have keys, so nothing is changed
    have hlisted : ∀ x ∈ R.exportedRows, x.1 ∈ R.schema.tables := hfresh.listed
    have hkeyed : ∀ x ∈ R.exportedRows, R.schema.Keyed x := by
      intro x hx
      obtain ⟨y, hy, rfl⟩ := List.mem_map.1 hx
      exact (StoredTenant.keyed_exported y).2 (h.keyed y hy)
    have hsame := Schema.run_put_of_mem hw hcons₁ hlisted hrestored hkeyed
    have hlt : ∀ token ∈ R.tokens.filter (R.first.pruned < ·.expiresAt), token.token < R.drawn + 1 := fun token ht =>
      (R.tokens_lt token (List.mem_of_mem_filter ht)).trans (Nat.lt_succ_self _)
    have hnew : NewId ((R.tenant.emptied.append R.exportedRows).append [("import_jobs", record)]) (R.drawn + 1) := by
      intro r hr hr'
      rcases Db.mem_append.1 hr with hr | hr
      · exact R.newId_append (Nat.le_succ _) r hr hr'
      · obtain rfl := (Prod.mk.inj (List.mem_singleton.1 hr)).2
        rw [hid] at hr'
        exact absurd (importIdText_injective (SqlValue.text.inj hr')) (Nat.lt_succ_self _).ne
    obtain ⟨record', counts', himported', -⟩ := imported_of_run
      (s := ⟨(R.tenant.emptied.append R.exportedRows).append [("import_jobs", record)],
        R.tokens.filter (R.first.pruned < ·.expiresAt), R.drawn + 1⟩) (v := R.second) h.key hlt hsame hcons₁ hnew
    exact ⟨_, _, counts', record', himported', rfl⟩

theorem restorable_of_restores (h : R.Restores) : R.Restorable := by
  obtain ⟨s, importId, counts, himported, hfailed, hrestored, s', importId', counts', record, himported', hdata'⟩ := h
  obtain ⟨hkey, rfl, rfl, hdrawn, htokens, hcons, hdata⟩ := imported_ok himported R.tokens_lt
  have hfresh := StoredTenant.fresh_exported R.emptied_consistent
  have hown : ∀ x ∈ R.exportedRows, ∃ y ∈ R.tenant.rows, R.tenant.exported y = x := fun x hx => List.mem_map.1 hx
  have hfinite : ∀ x ∈ R.tenant.rows, FiniteRow R.schema.toSchema x.1 x.2 := by
    rintro ⟨t, r⟩ hx
    obtain ⟨ht, hr, htenant⟩ := StoredTenant.mem_rows.1 hx
    obtain ⟨r', hr', heq⟩ := hrestored t ht r hr htenant
    rw [← FiniteRow.redacted_iff (redacted_transformExportRow R.tenant.encryption t r)]
    have htenant' : isTenantRow R.tenant.tenantId r' :=
      (heq _ (R.schema.tenantId_mem t ht)).trans (tenantRow_exported hx)
    have hfinite' : FiniteRow R.schema.toSchema t r' := by
      rw [hdata] at hr'
      rcases Db.mem_append.1 hr' with hr' | hr'
      · rw [folded_fst] at hr'
        have hnone : ∀ u ∈ tenantTables, ∀ p ∈ R.start.data u, isTenantRow R.tenant.tenantId p →
            FiniteRow R.schema.toSchema u p := fun u hu p hp hrow =>
          absurd hrow (StoredTenant.not_isTenantRow_emptied hu hp)
        exact finite_run hown hnone t ht r' hr' htenant'
      · -- the record of the import has another id
        obtain ⟨rfl, rfl⟩ := Prod.mk.inj (List.mem_singleton.1 hr')
        have hid := heq "id" R.schema.jobs_columns
        rw [R.jobRow_id, (redacted_transformExportRow R.tenant.encryption "import_jobs" r).eq (by decide)] at hid
        exact absurd hid.symm (R.jobs_fresh _ le_rfl r hr)
    intro c hc z hz
    exact hfinite' c hc z ((heq c hc).trans hz)
  have hw := writes_exported hfinite
  have hground : Along (fun db x => db.append [x]) R.schema.Grounded R.tenant.emptied R.exportedRows := by
    rw [← Schema.along_accepted_iff hw R.emptied_consistent hfresh]
    exact (R.folded_failed _).1 hfailed
  obtain ⟨hrun, -⟩ := Schema.run_put_of_grounded hw R.emptied_consistent hfresh hground
  refine ⟨hkey, hfinite, (StoredTenant.grounded_exported fun _ _ _ => Iff.rfl).1 hground, ?_⟩
  -- the second import has changed nothing but for its record
  have hlt : ∀ token ∈ s.tokens, token.token < s.drawn := fun token ht => by
    rw [hdrawn]
    exact (R.tokens_lt token (htokens token ht)).trans (Nat.lt_succ_self _)
  obtain ⟨-, -, -, -, -, -, hdata₂⟩ := imported_ok himported' hlt
  have hsame : run R.putRow s.data R.exportedRows = s.data := by
    rw [← folded_fst]
    exact Db.append_singleton_inj (hdata₂.symm.trans hdata')
  have hmem : ∀ x ∈ R.exportedRows, x.2 ∈ s.data x.1 := by
    intro x hx
    rw [hdata, folded_fst, show R.start.data = R.tenant.emptied from rfl, hrun]
    exact Db.mem_append.2 (.inl (Db.mem_append.2 (.inr hx)))
  intro x hx
  rw [← R.tenant.keyed_exported x]
  exact (Schema.run_put_eq_iff hw hcons hfresh.listed hmem).1 hsame _ (List.mem_map_of_mem hx)

/-- **Export, deletion and import restore a tenant exactly if the pack is signed with the platform's key and the rows
are finite, in order and have keys.** -/
theorem restores_iff (R : Restoration) : R.Restores ↔ R.Restorable :=
  ⟨restorable_of_restores, restores_of_restorable⟩

end Restoration

/-! ## A fork before its persona -/

theorem secretColumns_subset (t : String) : secretColumns t ⊆ ["content", "summary", "content_json"] := by
  unfold secretColumns
  split <;> decide

/-- The columns of a table that are used here. -/
def usedColumns (t : String) : List String :=
  (["id", "tenant_id"] ++ (serverForeignKeys.filter (·.1 = t)).map (·.2.column) ++ secretColumns t).dedup

theorem not_isIndex_usedColumns {t c : String} (hc : c ∈ usedColumns t) : isIndex c = false := by
  have hfk : ∀ e ∈ serverForeignKeys, isIndex e.2.column = false := fun e he =>
    isIndex_of_byte (foreignKeys_jobs e he).2
  have hsecret : ∀ c ∈ ["content", "summary", "content_json"], isIndex c = false := by decide
  have hids : ∀ c ∈ ["id", "tenant_id"], isIndex c = false := by decide
  rw [usedColumns, List.mem_dedup, List.mem_append, List.mem_append] at hc
  rcases hc with (hc | hc) | hc
  · exact hids c hc
  · obtain ⟨e, he, rfl⟩ := List.mem_map.1 hc
    exact hfk e (List.mem_of_mem_filter he)
  · exact hsecret c (secretColumns_subset t hc)

theorem id_open (t : String) : "id" ∉ secretColumns t := fun h =>
  absurd (secretColumns_subset t h) (by decide)

theorem tables_mem_plainTables : ∀ e ∈ serverForeignKeys,
    e.1 ∈ serverForeignKeys.flatMap (fun e => [e.1, e.2.table]) ++ tenantTables ∧
      e.2.table ∈ serverForeignKeys.flatMap (fun e => [e.1, e.2.table]) ++ tenantTables := fun e he =>
  ⟨List.mem_append_left _ (List.mem_flatMap.2 ⟨e, he, by simp⟩),
    List.mem_append_left _ (List.mem_flatMap.2 ⟨e, he, by simp⟩)⟩

theorem id_key_plainTables : ∀ x ∈ serverForeignKeys, ["id"] ∈ [["id"]] := fun _ _ => List.mem_singleton_self _

/-- Tables with their keys and without checks. -/
def plainTables : PortableSchema where
  tables := serverForeignKeys.flatMap (fun e => [e.1, e.2.table]) ++ tenantTables
  table t :=
    { columns := usedColumns t
      pkColumns := ["id"]
      uniqueIndexes := []
      foreignKeys := (serverForeignKeys.filter (·.1 = t)).map Prod.snd
      default := fun _ _ => .null
      affinity := fun _ _ value => value
      admits := fun _ => true }
  tenantId_mem _ _ := by simp [usedColumns]
  tenantId_text _ _ _ _ := rfl
  foreignKeys_eq _ := rfl
  tables_mem := tables_mem_plainTables
  id_key := id_key_plainTables
  tenantTables_mem _ ht := List.mem_append_right _ ht
  columns_before _ := pairwise_before (List.nodup_dedup _) fun _ => not_isIndex_usedColumns
  default_blank _ _ _ _ := rfl
  affinity_null _ _ _ _ h := by cases h
  affinity_text _ _ _ _ _ := rfl
  admits_redacted _ _ _ _ := rfl
  keys_open t key hkey c hc := by
    obtain rfl := List.mem_singleton.1 hkey
    obtain rfl := List.mem_singleton.1 hc
    exact id_open t
  jobs_pkColumns := rfl
  jobs_uniqueIndexes := rfl
  jobs_columns := by simp [usedColumns]
  jobs_id _ _ := rfl
  jobs_admits _ _ _ _ _ _ := rfl

namespace Restoration

def forkRow : Row
  | "id" => .text "f1"
  | "tenant_id" => .text "t1"
  | "persona_id" => .text "p1"
  | _ => .null

def coreRow : Row
  | "id" => .text "p1"
  | "tenant_id" => .text "t1"
  | _ => .null

/-- A persona with a fork. -/
def forkedDb : Db
  | "persona_forks" => [forkRow]
  | "persona_core" => [coreRow]
  | _ => []

theorem forkedDb_of_ne {t : String} (hfork : t ≠ "persona_forks") (hcore : t ≠ "persona_core") : forkedDb t = [] := by
  unfold forkedDb
  split
  · exact absurd rfl hfork
  · exact absurd rfl hcore
  · rfl

theorem forkTables_spec :
    ("persona_forks" ∈ tenantTables ∧ "persona_core" ∈ tenantTables) ∧
    (plainTables.table "persona_forks").foreignKeys = [toId "persona_id" "persona_core" .cascade] ∧
    (plainTables.table "persona_core").foreignKeys = [toId "owner_user_id" "users" .noAction] ∧
    (∀ c ∈ ["id", "tenant_id", "persona_id"], c ∈ usedColumns "persona_forks") ∧
    ∀ c ∈ ["id", "tenant_id"], c ∈ usedColumns "persona_core" := by
  decide +kernel

theorem foreignKeys_forks :
    (plainTables.table "persona_forks").foreignKeys = [toId "persona_id" "persona_core" .cascade] :=
  forkTables_spec.2.1

theorem foreignKeys_core :
    (plainTables.table "persona_core").foreignKeys = [toId "owner_user_id" "users" .noAction] :=
  forkTables_spec.2.2.1

theorem forkedDb_consistent : plainTables.Consistent forkedDb := by
  intro t _
  by_cases hfork : t = "persona_forks"
  · subst hfork
    refine ⟨fun _ _ => rfl, fun key _ => List.pairwise_singleton .., fun fk hfk r hr => ?_⟩
    rw [foreignKeys_forks] at hfk
    obtain rfl := List.mem_singleton.1 hfk
    obtain rfl := List.mem_singleton.1 hr
    exact .inr ⟨coreRow, List.mem_singleton_self _, rfl⟩
  by_cases hcore : t = "persona_core"
  · subst hcore
    refine ⟨fun _ _ => rfl, fun key _ => List.pairwise_singleton .., fun fk hfk r hr => ?_⟩
    rw [foreignKeys_core] at hfk
    obtain rfl := List.mem_singleton.1 hfk
    obtain rfl := List.mem_singleton.1 hr
    exact .inl rfl
  · rw [forkedDb_of_ne hfork hcore]
    exact ⟨nofun, fun _ _ => List.Pairwise.nil, nofun⟩

theorem forkedDb_stored (t : String) (r : Row) (hr : r ∈ forkedDb t) : StoredRow plainTables.toSchema t r := by
  refine ⟨fun _ _ _ => rfl, fun c hc => ?_⟩
  by_cases hfork : t = "persona_forks"
  · subst hfork
    obtain rfl := List.mem_singleton.1 hr
    have hused := forkTables_spec.2.2.2.1
    unfold forkRow
    split
    · exact absurd (hused "id" (by simp)) hc
    · exact absurd (hused "tenant_id" (by simp)) hc
    · exact absurd (hused "persona_id" (by simp)) hc
    · rfl
  by_cases hcore : t = "persona_core"
  · subst hcore
    obtain rfl := List.mem_singleton.1 hr
    have hused := forkTables_spec.2.2.2.2
    unfold coreRow
    split
    · exact absurd (hused "id" (by simp)) hc
    · exact absurd (hused "tenant_id" (by simp)) hc
    · rfl
  · rw [forkedDb_of_ne hfork hcore] at hr
    cases hr

def forkedTenant : StoredTenant plainTables where
  tenantId := "t1"
  tenantId_ne := by decide
  persona := .null
  persona_made := made_null
  encryption := none
  db := forkedDb
  consistent := forkedDb_consistent
  stored := forkedDb_stored

theorem forkedTenant_emptied (t : String) : forkedTenant.emptied t = [] := by
  refine List.eq_nil_iff_forall_not_mem.2 fun r' hr' => ?_
  obtain ⟨r, hr, hw⟩ := StoredTenant.worn_deleteFrom hr'
  have hrow : ∀ u, ∀ p ∈ forkedDb u, u ∈ tenantTables ∧ isTenantRow "t1" p := by
    have hmem := forkTables_spec.1
    intro u p hp
    by_cases hfork : u = "persona_forks"
    · subst hfork
      obtain rfl := List.mem_singleton.1 hp
      exact ⟨hmem.1, rfl⟩
    by_cases hcore : u = "persona_core"
    · subst hcore
      obtain rfl := List.mem_singleton.1 hp
      exact ⟨hmem.2, rfl⟩
    · rw [forkedDb_of_ne hfork hcore] at hp
      cases hp
  obtain ⟨ht, htenant⟩ := hrow t r hr
  exact StoredTenant.not_isTenantRow_emptied ht hr' ((StoredTenant.isTenantRow_worn hw).2 htenant)

theorem forkedTenant_rows : forkedTenant.rows.map Prod.fst = ["persona_forks", "persona_core"] := by decide +kernel

noncomputable def childFirst : Restoration where
  schema := plainTables
  crypto := Platform.symbolic
  json := .inverse
  platformKey := "platform-key"
  toNumber _ := 0
  profile := ⟨.platform_managed, none⟩
  tenant := forkedTenant
  exportedAt := Platform.dedicatedJob.now
  emptied_consistent t _ := by
    rw [forkedTenant_emptied]
    exact ⟨nofun, fun _ _ => List.Pairwise.nil, nofun⟩
  tokens := []
  drawn := 0
  tokens_lt := nofun
  jobs_fresh _ _ r hr := by
    have hnone : forkedDb "import_jobs" = [] := forkedDb_of_ne (by decide) (by decide)
    have hmem : r ∈ forkedDb "import_jobs" := hr
    rw [hnone] at hmem
    cases hmem
  first := ⟨0, 0, 0, 0, by decide⟩
  second := ⟨0, 0, 0, 0, by decide⟩

/-- A persona and its fork are not restored: the fork is refused while the persona is not there. -/
theorem childFirst_not_restored : ¬ childFirst.Restores := by
  intro h
  have hordered := (restorable_of_restores h).ordered
  obtain ⟨x, xs, hrows⟩ : ∃ x xs, forkedTenant.rows = x :: xs := List.exists_cons_of_ne_nil fun h => by
    have hnames := forkedTenant_rows
    rw [h] at hnames
    cases hnames
  have hname : x.1 = "persona_forks" := by
    have hnames := forkedTenant_rows
    rw [hrows] at hnames
    exact (List.cons_eq_cons.1 hnames).1
  have hmem : x.2 ∈ forkedDb x.1 := (StoredTenant.mem_rows.1 (hrows ▸ List.mem_cons_self .. : x ∈ forkedTenant.rows)).2.1
  obtain ⟨t, r⟩ := x
  obtain rfl : t = "persona_forks" := hname
  obtain rfl : r = forkRow := List.mem_singleton.1 hmem
  rw [show childFirst.tenant.rows = _ from hrows, along_cons] at hordered
  have hground : plainTables.Grounded forkedTenant.emptied ("persona_forks", forkRow) := hordered.1
  rcases hground (toId "persona_id" "persona_core" .cascade) (by rw [foreignKeys_forks]; simp) with hnull | ⟨p, hp, -⟩
  · exact absurd hnull (by decide)
  · rcases Db.mem_append.1 hp with hp | hp
    · rw [show (toId "persona_id" "persona_core" .cascade).table = "persona_core" from rfl, forkedTenant_emptied] at hp
      cases hp
    · exact absurd (Prod.mk.inj (List.mem_singleton.1 hp)).1 (by decide)

end Restoration

end ChronoSynth.Privacy

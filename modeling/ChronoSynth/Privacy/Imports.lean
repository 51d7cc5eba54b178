import Mathlib.Data.List.Nodup
import ChronoSynth.Lib.Traces
import ChronoSynth.Privacy.PackSigning
import ChronoSynth.Privacy.RowImport

/-!
# Imports

`dryRunImport` and `commitImport` as calls over one database, with the store of commit tokens between them. A token is
the number of its draw, and so is the import that is drawn with it.

* `imports_safe` — over every run: a token leads to one committed import, of the manifest and for the tenant it was
  issued for; a call writes rows of its tenant only, which come from the pack's rows, and one that throws has not
  written any. Whether the rows are those the manifest was signed for is nowhere checked.
-/

namespace ChronoSynth.Privacy

open Sql Json

/-- A row of `import_commit_tokens`. -/
structure Token where
  token : ℕ
  tenantId : String
  importId : ℕ
  manifestChecksum : String
  expiresAt : ℤ
  deriving DecidableEq

structure ImportDb where
  data : Db
  tokens : List Token
  drawn : ℕ

/-- What is open about a step: the clock, and whether the database fails. -/
structure ImportEnv where
  now : ℤ
  fails : Bool

/-! ## Transactions -/

inductive ImportTxn
  | issue (tenantId manifestChecksum : String)
  | consume (token : ℕ) (tenantId manifestChecksum : String)
  | importRows (tenantId : String) (importId : ℕ) (manifestChecksum : String) (manifest : PortabilityPackManifestV1)
      (payloads : Option Json)
  | pruneExpired

inductive ImportReply
  | issued (token : Option Token)
  /-- With the clock it went by. -/
  | consumed (importId : Option ℕ) (at_ : ℤ)
  | imported (counts : Option ImportCounts)
  | pruned

/-- How long a token is good. -/
def tokenTtlMs : ℤ := 15 * 60 * 1000

def importIdText (importId : ℕ) : String := "import_" ++ toString importId

def Token.Names (token : ℕ) (tenantId manifestChecksum : String) (t : Token) : Prop :=
  t.token = token ∧ t.tenantId = tenantId ∧ t.manifestChecksum = manifestChecksum

instance (token : ℕ) (tenantId manifestChecksum : String) : DecidablePred (Token.Names token tenantId manifestChecksum) :=
  fun _ => inferInstanceAs (Decidable (_ ∧ _ ∧ _))

section
variable (S : ServerSchema) (toNumber : Json → ℚ)

def execImport (o : ImportEnv) : ImportTxn → ImportDb → ImportDb × ImportReply
  | .issue tenantId manifestChecksum, s =>
    if o.fails then (s, .issued none)
    else
      let token := ⟨s.drawn, tenantId, s.drawn, manifestChecksum, o.now + tokenTtlMs⟩
      ({ s with tokens := s.tokens ++ [token], drawn := s.drawn + 1 }, .issued (some token))
  | .consume token tenantId manifestChecksum, s =>
    match s.tokens.find? fun t => t.Names token tenantId manifestChecksum ∧ o.now < t.expiresAt with
    | none => (s, .consumed none o.now)
    | some t =>
      if o.fails ∨ s.tokens.countP (Token.Names token tenantId manifestChecksum) ≠ 1 then (s, .consumed none o.now)
      else
        ({ s with tokens := s.tokens.filter fun t => ¬ t.Names token tenantId manifestChecksum },
          .consumed (some t.importId) o.now)
  | .importRows tenantId importId manifestChecksum manifest payloads, s =>
    if o.fails then (s, .imported none)
    else
      match importRows S.toSchema tenantId toNumber (importIdText importId) manifestChecksum manifest payloads o.now
        s.data with
      | none => (s, .imported none)
      | some (data, counts) => ({ s with data := data }, .imported (some counts))
  | .pruneExpired, s =>
    if o.fails then (s, .pruned) else ({ s with tokens := s.tokens.filter fun t => o.now < t.expiresAt }, .pruned)

end

/-! ## Calls -/

inductive ImportCall
  | dryRunImport (tenantId packManifestJson : String)
  | commitImport (tenantId packJson : String) (commitToken : ℕ)

inductive ImportError
  | database | invalidToken | invalidManifest | rolledBack

inductive ImportResult
  | report (report : ImportDryRunReport) (commitToken : Option ℕ)
  | committed (importId : ℕ) (counts : ImportCounts)

/-- What `dryRunImport` and `commitImport` go by. -/
structure Importer where
  crypto : Crypto
  json : JsonParse
  platformKey : String
  schema : ServerSchema
  toNumber : Json → ℚ

namespace Importer

variable (imp : Importer)

abbrev ImportProg := Prog ImportDb ImportTxn ImportReply ImportEnv ImportError

/-- `sha256Hex(manifestJson)`. -/
def packChecksum (packJson : String) : String := imp.crypto.sha256 (extractManifestJson imp.json packJson)

def payloads (packJson : String) : Option Json := (imp.json.parse packJson).bind (Json.get? "payloads")

def dryRun (tenantId packManifestJson : String) : ImportProg ImportResult :=
  let report := dryRunImport imp.crypto imp.json imp.platformKey tenantId packManifestJson
  if report.canCommit = true then do
    match ← Prog.transaction (.issue tenantId (imp.packChecksum packManifestJson)) with
    | .issued (some token) => pure (.report report (some token.token))
    | _ => Prog.throw .database
  else pure (.report report none)

def commit (tenantId packJson : String) (commitToken : ℕ) : ImportProg ImportResult := do
  match ← Prog.transaction (.consume commitToken tenantId (imp.packChecksum packJson)) with
  | .consumed (some importId) _ =>
    match readManifest imp.json packJson with
    | none => Prog.throw .invalidManifest
    | some manifest =>
      let reply ← Prog.transaction
        (.importRows tenantId importId (imp.packChecksum packJson) manifest (imp.payloads packJson))
      let _ ← Prog.transaction .pruneExpired
      match reply with
      | .imported (some counts) => pure (.committed importId counts)
      | _ => Prog.throw .rolledBack
  | _ => Prog.throw .invalidToken

def start : ImportCall → ImportProg ImportResult
  | .dryRunImport tenantId packManifestJson => imp.dryRun tenantId packManifestJson
  | .commitImport tenantId packJson commitToken => imp.commit tenantId packJson commitToken

abbrev exec (o : ImportEnv) (t : ImportTxn) (s : ImportDb) : ImportDb × ImportReply :=
  execImport imp.schema imp.toNumber o t s

end Importer

abbrev ImportPool := Pool ImportCall ImportDb ImportTxn ImportReply ImportEnv ImportError ImportResult

/-! ## What a transaction does -/

/-- The reply tells of nothing that was issued, consumed or imported. -/
def ImportReply.Empty : ImportReply → Prop
  | .issued none | .consumed none _ | .imported none | .pruned => True
  | .issued (some _) | .consumed (some _) _ | .imported (some _) => False

namespace Importer

variable {imp : Importer} {o : ImportEnv} {s : ImportDb}

/-- **What a transaction can do**: nothing, draw a token, consume one, import, or prune. -/
theorem exec_cases (t : ImportTxn) :
    ((imp.exec o t s).1 = s ∧ (imp.exec o t s).2.Empty) ∨
    (∃ tenantId checksum token, t = .issue tenantId checksum ∧
      token = ⟨s.drawn, tenantId, s.drawn, checksum, o.now + tokenTtlMs⟩ ∧
      imp.exec o t s = ({ s with tokens := s.tokens ++ [token], drawn := s.drawn + 1 }, .issued (some token))) ∨
    (∃ k tenantId checksum, ∃ token ∈ s.tokens, t = .consume k tenantId checksum ∧ token.Names k tenantId checksum ∧
      o.now < token.expiresAt ∧
      imp.exec o t s = ({ s with tokens := s.tokens.filter fun t => ¬ t.Names k tenantId checksum },
        .consumed (some token.importId) o.now)) ∨
    (∃ tenantId importId checksum manifest payloads data counts,
      t = .importRows tenantId importId checksum manifest payloads ∧
      importRows imp.schema.toSchema tenantId imp.toNumber (importIdText importId) checksum manifest payloads o.now s.data =
        some (data, counts) ∧
      imp.exec o t s = ({ s with data := data }, .imported (some counts))) ∨
    (t = .pruneExpired ∧ imp.exec o t s = ({ s with tokens := s.tokens.filter fun t => o.now < t.expiresAt }, .pruned)) := by
  cases t with
  | issue tenantId checksum =>
    simp only [exec, execImport]
    split_ifs
    · exact .inl ⟨rfl, trivial⟩
    · exact .inr (.inl ⟨tenantId, checksum, _, rfl, rfl, rfl⟩)
  | consume k tenantId checksum =>
    simp only [exec, execImport]
    split
    next => exact .inl ⟨rfl, trivial⟩
    next token hfind =>
      split_ifs
      · exact .inl ⟨rfl, trivial⟩
      · have hnames := List.find?_some hfind
        rw [decide_eq_true_eq] at hnames
        exact .inr (.inr (.inl ⟨k, tenantId, checksum, token, List.mem_of_find?_eq_some hfind, rfl, hnames.1, hnames.2,
          rfl⟩))
  | importRows tenantId importId checksum manifest payloads =>
    simp only [exec, execImport]
    split_ifs
    · exact .inl ⟨rfl, trivial⟩
    · split
      next => exact .inl ⟨rfl, trivial⟩
      next data counts hrows =>
        exact .inr (.inr (.inr (.inl ⟨tenantId, importId, checksum, manifest, payloads, data, counts, rfl, hrows, rfl⟩)))
  | pruneExpired =>
    simp only [exec, execImport]
    split_ifs
    · exact .inl ⟨rfl, trivial⟩
    · exact .inr (.inr (.inr (.inr ⟨trivial, rfl⟩)))

theorem drawn_le (t : ImportTxn) : s.drawn ≤ (imp.exec o t s).1.drawn := by
  rcases imp.exec_cases (o := o) (s := s) t with ⟨h, -⟩ | ⟨_, _, _, -, -, h⟩ | ⟨_, _, _, _, -, -, -, -, h⟩ |
    ⟨_, _, _, _, _, _, _, -, -, h⟩ | ⟨-, h⟩
  · rw [h]
  · rw [h]
    exact Nat.le_succ _
  · rw [h]
  · rw [h]
  · rw [h]

theorem mem_tokens {t : ImportTxn} {token : Token} (h : token ∈ (imp.exec o t s).1.tokens) :
    token ∈ s.tokens ∨ (imp.exec o t s).2 = .issued (some token) ∧ t = .issue token.tenantId token.manifestChecksum ∧
      token.token = s.drawn ∧ (imp.exec o t s).1.drawn = s.drawn + 1 := by
  rcases imp.exec_cases (o := o) (s := s) t with ⟨hs, -⟩ | ⟨_, _, new, rfl, rfl, hs⟩ | ⟨_, _, _, _, -, -, -, -, hs⟩ |
    ⟨_, _, _, _, _, _, _, -, -, hs⟩ | ⟨-, hs⟩
  · exact .inl (hs ▸ h)
  · rw [hs] at h ⊢
    rcases List.mem_append.1 h with h | h
    · exact .inl h
    · obtain rfl := List.mem_singleton.1 h
      exact .inr ⟨rfl, rfl, rfl, rfl⟩
  · rw [hs] at h
    exact .inl (List.mem_of_mem_filter h)
  · rw [hs] at h
    exact .inl h
  · rw [hs] at h
    exact .inl (List.mem_of_mem_filter h)

theorem consumed_eq {k : ℕ} {tenantId checksum : String} {importId : ℕ} {at_ : ℤ}
    (h : (imp.exec o (.consume k tenantId checksum) s).2 = .consumed (some importId) at_) :
    ∃ token ∈ s.tokens, token.Names k tenantId checksum ∧ at_ < token.expiresAt ∧
      (imp.exec o (.consume k tenantId checksum) s).1 =
        { s with tokens := s.tokens.filter fun t => ¬ t.Names k tenantId checksum } := by
  rcases imp.exec_cases (o := o) (s := s) (.consume k tenantId checksum) with ⟨-, hempty⟩ | ⟨_, _, _, ht, -⟩ |
    ⟨_, _, _, token, hmem, ht, hnames, hnow, hs⟩ | ⟨_, _, _, _, _, _, _, ht, -⟩ | ⟨ht, -⟩
  · rw [h] at hempty
    exact hempty.elim
  · cases ht
  · cases ht
    rw [hs] at h ⊢
    cases h
    exact ⟨token, hmem, hnames, hnow, rfl⟩
  · cases ht
  · cases ht

theorem imported_eq {t : ImportTxn} {counts : ImportCounts} (h : (imp.exec o t s).2 = .imported (some counts)) :
    ∃ tenantId importId checksum manifest payloads data, t = .importRows tenantId importId checksum manifest payloads ∧
      importRows imp.schema.toSchema tenantId imp.toNumber (importIdText importId) checksum manifest payloads o.now s.data =
        some (data, counts) ∧ (imp.exec o t s).1 = { s with data := data } := by
  rcases imp.exec_cases (o := o) (s := s) t with ⟨-, hempty⟩ | ⟨_, _, _, -, -, hs⟩ | ⟨_, _, _, _, -, -, -, -, hs⟩ |
    ⟨tenantId, importId, checksum, manifest, payloads, data, counts', ht, hrows, hs⟩ | ⟨-, hs⟩
  · rw [h] at hempty
    exact hempty.elim
  · rw [hs] at h
    cases h
  · rw [hs] at h
    cases h
  · rw [hs] at h ⊢
    cases h
    exact ⟨tenantId, importId, checksum, manifest, payloads, data, ht, hrows, rfl⟩
  · rw [hs] at h
    cases h

theorem data_eq {t : ImportTxn} (h : ∀ counts, (imp.exec o t s).2 ≠ .imported (some counts)) :
    (imp.exec o t s).1.data = s.data := by
  rcases imp.exec_cases (o := o) (s := s) t with ⟨hs, -⟩ | ⟨_, _, _, -, -, hs⟩ | ⟨_, _, _, _, -, -, -, -, hs⟩ |
    ⟨_, _, _, _, _, _, counts, -, -, hs⟩ | ⟨-, hs⟩
  · rw [hs]
  · rw [hs]
  · rw [hs]
  · exact absurd (congrArg Prod.snd hs) (h counts)
  · rw [hs]

/-! ## Tokens -/

/-- The call has consumed the token. -/
def Spent (k : ℕ) (log : List (ImportTxn × ImportReply)) : Prop :=
  ∃ tenantId checksum importId at_, (ImportTxn.consume k tenantId checksum, ImportReply.consumed (some importId) at_) ∈ log

/-- The `i`-th call has consumed the token. -/
def SpentBy (p : ImportPool) (k i : ℕ) : Prop :=
  ∃ th : Thread ImportCall ImportDb ImportTxn ImportReply ImportEnv ImportError ImportResult,
    p.threads[i]? = some th ∧ Spent k th.log

/-- Tokens are drawn once, and a token that has been consumed was issued and is gone. -/
structure Booked (p : ImportPool) : Prop where
  token_lt : ∀ token ∈ p.db.tokens, token.token < p.db.drawn
  distinct : (p.db.tokens.map Token.token).Nodup
  issued : ∀ token ∈ p.db.tokens,
    p.Logged (.issue token.tenantId token.manifestChecksum, .issued (some token))
  consumed : ∀ k tenantId checksum importId at_,
    p.Logged (.consume k tenantId checksum, .consumed (some importId) at_) →
      k < p.db.drawn ∧ (∀ token ∈ p.db.tokens, token.token ≠ k) ∧
        ∃ token, token.token = k ∧ at_ < token.expiresAt ∧ p.Logged (.issue tenantId checksum, .issued (some token))
  unique : ∀ k i j, SpentBy p k i → SpentBy p k j → i = j

theorem Booked.idle (data : Db) : Booked (Pool.idle ⟨data, [], 0⟩) where
  token_lt := nofun
  distinct := List.nodup_nil
  issued := nofun
  consumed := fun _ _ _ _ _ ⟨_, hth, _⟩ => (List.not_mem_nil hth).elim
  unique := fun _ _ _ ⟨_, hth, _⟩ => by simp [Pool.idle] at hth

theorem tokens_step {t : ImportTxn} (hlt : ∀ token ∈ s.tokens, token.token < s.drawn)
    (hd : (s.tokens.map Token.token).Nodup) :
    (∀ token ∈ (imp.exec o t s).1.tokens, token.token < (imp.exec o t s).1.drawn) ∧
      ((imp.exec o t s).1.tokens.map Token.token).Nodup := by
  refine ⟨fun token htoken => ?_, ?_⟩
  · rcases mem_tokens htoken with h | ⟨-, -, h, h'⟩
    · exact (hlt token h).trans_le (drawn_le t)
    · rw [h, h']
      exact Nat.lt_succ_self _
  · rcases imp.exec_cases (o := o) (s := s) t with ⟨hs, -⟩ | ⟨_, _, new, -, rfl, hs⟩ | ⟨_, _, _, _, -, -, -, -, hs⟩ |
      ⟨_, _, _, _, _, _, _, -, -, hs⟩ | ⟨-, hs⟩
    · rwa [hs]
    · rw [hs]
      simp only [List.map_append, List.map_cons, List.map_nil]
      refine List.nodup_append.2 ⟨hd, by simp, fun k hk k' hk' => ?_⟩
      obtain ⟨token, htoken, rfl⟩ := List.mem_map.1 hk
      rw [List.mem_singleton.1 hk']
      exact (hlt token htoken).ne
    · rw [hs]
      exact hd.sublist (List.filter_sublist.map _)
    · rwa [hs]
    · rw [hs]
      exact hd.sublist (List.filter_sublist.map _)

section
variable {p : ImportPool} {m : Move ImportCall ImportEnv} {k : ℕ}

/-- A call spends a token by consuming it now, unless it has before. -/
theorem spentBy_step {j : ℕ} (h : SpentBy (Pool.step imp.start imp.exec p m) k j) :
    SpentBy p k j ∨
    ∃ o tenantId checksum importId at_, m = .go j o ∧ p.committing m = some (o, .consume k tenantId checksum) ∧
      (imp.exec o (.consume k tenantId checksum) p.db).2 = .consumed (some importId) at_ := by
  obtain ⟨th', hth', tenantId, checksum, importId, at_, hmem⟩ := h
  rcases Pool.log_step hth' with (hnil | ⟨th, hth, -, hlog⟩) | ⟨o, t, l, k', rfl, hth, hlog⟩
  · rw [hnil] at hmem
    cases hmem
  · exact .inl ⟨th, hth, tenantId, checksum, importId, at_, hlog ▸ hmem⟩
  · rw [hlog] at hmem
    rcases List.mem_append.1 hmem with hmem | hmem
    · exact .inl ⟨_, hth, tenantId, checksum, importId, at_, hmem⟩
    · obtain ⟨rfl, hreply⟩ := Prod.mk.inj (List.mem_singleton.1 hmem)
      exact .inr ⟨o, tenantId, checksum, importId, at_, rfl, by simp [Pool.committing, hth], hreply.symm⟩

theorem SpentBy.logged {i : ℕ} (h : SpentBy p k i) :
    ∃ tenantId checksum importId at_, p.Logged (.consume k tenantId checksum, .consumed (some importId) at_) := by
  obtain ⟨th, hth, tenantId, checksum, importId, at_, hmem⟩ := h
  exact ⟨tenantId, checksum, importId, at_, th, List.mem_of_getElem? hth, hmem⟩

theorem Booked.not_consumed (h : Booked p) {i : ℕ} (hspent : SpentBy p k i) {o : ImportEnv} {tenantId checksum : String}
    {importId : ℕ} {at_ : ℤ} :
    (imp.exec o (.consume k tenantId checksum) p.db).2 ≠ .consumed (some importId) at_ := by
  intro hreply
  obtain ⟨_, _, _, _, hlogged⟩ := hspent.logged
  obtain ⟨token, htoken, hnames, -⟩ := consumed_eq hreply
  exact (h.consumed _ _ _ _ _ hlogged).2.1 token htoken hnames.1

/-- **Step lemma.** -/
theorem Booked.step (h : Booked p) (m : Move ImportCall ImportEnv) : Booked (Pool.step imp.start imp.exec p m) := by
  have hlogged := Pool.logged_step imp.start imp.exec p m
  have hunique : ∀ k i j, SpentBy (Pool.step imp.start imp.exec p m) k i →
      SpentBy (Pool.step imp.start imp.exec p m) k j → i = j := by
    intro k i j hi hj
    rcases spentBy_step hi with hi | ⟨_, _, _, _, _, hmi, -, hreply⟩
    · rcases spentBy_step hj with hj | ⟨_, _, _, _, _, -, -, hreply⟩
      · exact h.unique k i j hi hj
      · exact absurd hreply (h.not_consumed hi)
    · rcases spentBy_step hj with hj | ⟨_, _, _, _, _, hmj, -, -⟩
      · exact absurd hreply (h.not_consumed hj)
      · rw [hmi] at hmj
        exact (Move.go.inj hmj).1
  obtain ⟨hm, hdb⟩ | ⟨o, t, hm, hdb⟩ := Pool.step_db imp.start imp.exec p m
  · have hold : ∀ x, (Pool.step imp.start imp.exec p m).Logged x ↔ p.Logged x := by simpa [hm] using hlogged
    exact ⟨hdb ▸ h.token_lt, hdb ▸ h.distinct, fun token ht => (hold _).2 (h.issued token (hdb ▸ ht)),
      fun k T sum id at_ hx => by simpa [hdb, hold] using h.consumed k T sum id at_ ((hold _).1 hx), hunique⟩
  · obtain ⟨hlt, hd⟩ := tokens_step (o := o) (t := t) h.token_lt h.distinct
    refine ⟨hdb ▸ hlt, hdb ▸ hd, fun token ht => ?_, fun k T sum id at_ hx => ?_, hunique⟩
    · rw [hdb] at ht
      rcases mem_tokens ht with ht | ⟨hreply, rfl, -⟩
      · exact (hlogged _).2 (.inl (h.issued token ht))
      · exact (hlogged _).2 (.inr ⟨o, hm, hreply.symm⟩)
    · rw [hdb]
      rcases (hlogged _).1 hx with hx | ⟨o', hm', hreply⟩
      · obtain ⟨hk, hgone, token, htoken, hat, hissued⟩ := h.consumed k T sum id at_ hx
        refine ⟨hk.trans_le (drawn_le t), fun token' ht' => ?_, token, htoken, hat, (hlogged _).2 (.inl hissued)⟩
        rcases mem_tokens ht' with ht' | ⟨-, -, hnew, -⟩
        · exact hgone token' ht'
        · rw [hnew]
          exact hk.ne'
      · obtain ⟨rfl, rfl⟩ : o' = o ∧ ImportTxn.consume k T sum = t := by simpa [hm, eq_comm] using hm'
        obtain ⟨token, htoken, ⟨rfl, rfl, rfl⟩, hat, hs⟩ := consumed_eq hreply.symm
        rw [hs]
        refine ⟨h.token_lt token htoken, fun token' ht' hk => ?_, token, rfl, hat, (hlogged _).2 (.inl (h.issued token htoken))⟩
        obtain ⟨ht', hother⟩ := List.mem_filter.1 ht'
        obtain rfl := List.inj_on_of_nodup_map h.distinct ht' htoken hk
        simp [Token.Names] at hother

end

theorem booked_always (data : Db) (ms : List (Move ImportCall ImportEnv)) :
    Always (Pool.step imp.start imp.exec) Booked (Pool.idle ⟨data, [], 0⟩) ms :=
  Always.of_inductive (.idle data) fun _ m h => h.step m

/-! ## Calls -/

/-- What a call may hand over, after what it has had executed. -/
def MayFollow (imp : Importer) : ImportCall → List (ImportTxn × ImportReply) → ImportTxn → Prop
  | .dryRunImport tenantId text, l, t =>
    l = [] ∧ t = .issue tenantId (imp.packChecksum text) ∧
      (dryRunImport imp.crypto imp.json imp.platformKey tenantId text).canCommit = true
  | .commitImport tenantId text k, l, t =>
    (l = [] ∧ t = .consume k tenantId (imp.packChecksum text)) ∨
    (∃ importId at_ manifest, l = [(.consume k tenantId (imp.packChecksum text), .consumed (some importId) at_)] ∧
      readManifest imp.json text = some manifest ∧
      t = .importRows tenantId importId (imp.packChecksum text) manifest (imp.payloads text)) ∨
    t = .pruneExpired

/-- A call that throws has not imported anything. -/
def Unwritten (l : List (ImportTxn × ImportReply)) : Prop := ∀ x ∈ l, ∀ counts, x.2 ≠ .imported (some counts)

def Outcome (l : List (ImportTxn × ImportReply)) : Except ImportError ImportResult → Prop
  | .error _ => Unwritten l
  | .ok _ => True

theorem not_imported {t : ImportTxn} {o : ImportEnv} {s : ImportDb} (ht : ∀ T id sum m j, t ≠ .importRows T id sum m j)
    (counts : ImportCounts) : (imp.exec o t s).2 ≠ .imported (some counts) := fun h => by
  obtain ⟨T, id, sum, m, j, -, rfl, -⟩ := imported_eq h
  exact ht T id sum m j rfl

theorem unwritten_snoc {l : List (ImportTxn × ImportReply)} {x : ImportTxn × ImportReply} (h : Unwritten l)
    (hx : ∀ counts, x.2 ≠ .imported (some counts)) : Unwritten (l ++ [x]) := by
  intro y hy
  rcases List.mem_append.1 hy with hy | hy
  · exact h y hy
  · rw [List.mem_singleton.1 hy]
    exact hx

theorem start_traces (c : ImportCall) (s : ImportDb) :
    (imp.start c).Traces .free imp.exec (fun l t _ => imp.MayFollow c l t) (fun l r _ => Outcome l r) [] s := by
  have hnil : Unwritten [] := fun _ h => (List.not_mem_nil h).elim
  cases c with
  | dryRunImport tenantId text =>
    simp only [start, dryRun]
    split_ifs with hcan
    · refine .transaction fun s' _ _ => ⟨⟨rfl, rfl, hcan⟩, fun o => ?_⟩
      have hlog : Unwritten ([] ++ [(ImportTxn.issue tenantId (imp.packChecksum text), (imp.exec o
          (.issue tenantId (imp.packChecksum text)) s').2)]) := unwritten_snoc hnil (not_imported (by simp))
      split
      · exact fun _ _ _ => trivial
      · exact fun _ _ _ => hlog
    · exact fun _ _ _ => trivial
  | commitImport tenantId text k =>
    refine .transaction fun s' _ _ => ⟨.inl ⟨rfl, rfl⟩, fun o => ?_⟩
    have hlog : Unwritten ([] ++ [(ImportTxn.consume k tenantId (imp.packChecksum text), (imp.exec o
        (.consume k tenantId (imp.packChecksum text)) s').2)]) := unwritten_snoc hnil (not_imported (by simp))
    split
    next importId at_ hreply =>
      cases hread : readManifest imp.json text with
      | none => exact fun _ _ _ => hlog
      | some manifest =>
        refine .transaction fun s'' _ _ => ⟨.inr (.inl ⟨importId, at_, manifest, by rw [hreply]; rfl, hread, rfl⟩),
          fun o' => .transaction fun s₃ _ _ => ⟨.inr (.inr rfl), fun o'' => ?_⟩⟩
        split
        · exact fun _ _ _ => trivial
        next hnone =>
          exact fun _ _ _ => unwritten_snoc (unwritten_snoc hlog hnone) (not_imported (by simp))
    next => exact fun _ _ _ => hlog

/-! ## Whose manifest is imported -/

/-- The check has nothing against the manifest. -/
def Accepts (imp : Importer) (tenantId : String) (m : PortabilityPackManifestV1) : Prop :=
  m.tenant.tenantId = tenantId ∧ m.integrity.signatureAlgorithm = .hmacSha256 ∧
    verifyManifestIntegrity imp.crypto imp.platformKey m = true

theorem canCommit_iff {tenantId text : String} :
    (dryRunImport imp.crypto imp.json imp.platformKey tenantId text).canCommit = true ↔
      ∃ m, readManifest imp.json text = some m ∧ imp.Accepts tenantId m := by
  unfold dryRunImport
  cases readManifest imp.json text with
  | none => simp
  | some m =>
    simp only [manifestReport, tenantBlockers, signatureBlockers, decide_eq_true_eq, List.append_eq_nil_iff,
      Option.some.injEq, exists_eq_left', Accepts]
    refine and_congr (by simp) ?_
    by_cases halg : m.integrity.signatureAlgorithm = .hmacSha256
    · simp [halg]
    · simp [halg]

/-- The `i`-th call has, as its `a`-th transaction, committed an import with the token. -/
def Committed (p : ImportPool) (k i a : ℕ) : Prop :=
  ∃ tenantId text l q t counts, p.threads[i]? = some ⟨.commitImport tenantId text k, l, q⟩ ∧
    l[a]? = some (t, .imported (some counts))

/-- The `i`-th call has consumed the token in time, and it was issued to its tenant on a dry run of its manifest,
which the check accepts. -/
def Redeems (imp : Importer) (p : ImportPool) (k i : ℕ) : Prop :=
  ∃ tenantId text l q, p.threads[i]? = some ⟨.commitImport tenantId text k, l, q⟩ ∧
    (∃ m, readManifest imp.json text = some m ∧ imp.Accepts tenantId m) ∧
    ∃ text' l' q' token importId at_, ⟨.dryRunImport tenantId text', l', q'⟩ ∈ p.threads ∧
      extractManifestJson imp.json text' = extractManifestJson imp.json text ∧
      (.issue tenantId (imp.packChecksum text'), .issued (some token)) ∈ l' ∧ token.token = k ∧
      (.consume k tenantId (imp.packChecksum text), .consumed (some importId) at_) ∈ l ∧ at_ < token.expiresAt

/-- What the logs of the calls have in them. -/
def Recorded (imp : Importer) (p : ImportPool) : Prop :=
  ∀ th ∈ p.threads, ∀ l x l', th.log = l ++ x :: l' → ∃ o s, imp.MayFollow th.call l x.1 ∧ x.2 = (imp.exec o x.1 s).2

section
variable {p : ImportPool}

theorem import_after {tenantId text : String} {k : ℕ} {l : List (ImportTxn × ImportReply)} {o : ImportEnv}
    {s : ImportDb} {t : ImportTxn} {counts : ImportCounts} (h : imp.MayFollow (.commitImport tenantId text k) l t)
    (hreply : (imp.exec o t s).2 = .imported (some counts)) :
    ∃ importId at_ manifest, l = [(.consume k tenantId (imp.packChecksum text), .consumed (some importId) at_)] ∧
      readManifest imp.json text = some manifest ∧
      t = .importRows tenantId importId (imp.packChecksum text) manifest (imp.payloads text) := by
  rcases h with ⟨-, rfl⟩ | h | rfl
  · exact absurd hreply (not_imported (by simp) counts)
  · exact h
  · exact absurd hreply (not_imported (by simp) counts)

theorem redeems_of_consumed (hb : Booked p) (hr : Recorded imp p) {tenantId text : String} {k i : ℕ}
    {l : List (ImportTxn × ImportReply)} {q : Importer.ImportProg ImportResult} {importId : ℕ} {at_ : ℤ}
    (hi : p.threads[i]? = some ⟨.commitImport tenantId text k, l, q⟩)
    (hl : (.consume k tenantId (imp.packChecksum text), .consumed (some importId) at_) ∈ l) : imp.Redeems p k i := by
  obtain ⟨-, -, token, htoken, hat, ⟨c, l', q'⟩, hth, hissue⟩ :=
    hb.consumed _ _ _ _ _ ⟨_, List.mem_of_getElem? hi, hl⟩
  obtain ⟨l₁, l₂, hsplit⟩ := List.append_of_mem hissue
  obtain ⟨o, s, hmay, -⟩ := hr _ hth l₁ _ l₂ hsplit
  cases c with
  | commitImport tenantId' text' k' =>
    rcases hmay with ⟨-, ht⟩ | ⟨_, _, _, -, -, ht⟩ | ht
    · exact absurd ht (by simp)
    · exact absurd ht (by simp)
    · exact absurd ht (by simp)
  | dryRunImport tenantId' text' =>
    obtain ⟨-, ht, hcan⟩ := hmay
    obtain ⟨rfl, hsum⟩ := ImportTxn.issue.inj ht
    have hjson := imp.crypto.sha256_injective hsum
    obtain ⟨m, hm, hacc⟩ := canCommit_iff.1 hcan
    have hread : readManifest imp.json text = some m := by rw [← hm, readManifest, readManifest, hjson]
    exact ⟨tenantId, text, l, q, hi, ⟨m, hread, hacc⟩, text', l', q', token, importId, at_, hth, hjson.symm,
      hsum ▸ hissue, htoken, hl, hat⟩

theorem Committed.redeems {k i a : ℕ} (h : Committed p k i a) (hb : Booked p) (hr : Recorded imp p) :
    imp.Redeems p k i ∧ SpentBy p k i ∧ a = 1 := by
  obtain ⟨tenantId, text, l, q, t, counts, hi, ha⟩ := h
  obtain ⟨halen, hget⟩ := List.getElem?_eq_some_iff.1 ha
  have hsplit : l = l.take a ++ (t, .imported (some counts)) :: l.drop (a + 1) := by
    rw [← hget, List.cons_getElem_drop_succ, List.take_append_drop]
  obtain ⟨o, s, hmay, hreply⟩ := hr _ (List.mem_of_getElem? hi) _ _ _ hsplit
  obtain ⟨importId, at_, manifest, htake, -, -⟩ := import_after hmay hreply.symm
  have hmem : (ImportTxn.consume k tenantId (imp.packChecksum text), ImportReply.consumed (some importId) at_) ∈ l :=
    List.mem_of_mem_take (htake ▸ List.mem_singleton_self _)
  refine ⟨redeems_of_consumed hb hr hi hmem, ⟨_, hi, _, _, _, _, hmem⟩, ?_⟩
  have hlen := congrArg List.length htake
  rw [List.length_take] at hlen
  simp only [List.length_singleton] at hlen
  omega

end

/-! ## What a call writes -/

/-- What a step of a call may do to the database. -/
def Confined (imp : Importer) (o : ImportEnv) : ImportCall → ImportDb → ImportDb → Prop
  | .dryRunImport tenantId _, s, s' =>
    s'.data = s.data ∧ (∀ token ∈ s.tokens, token ∈ s'.tokens) ∧
      ∀ token ∈ s'.tokens, token ∈ s.tokens ∨ token.tenantId = tenantId
  | .commitImport tenantId text k, s, s' =>
    Touches (fun _ => isTenantRow tenantId) s.data s'.data ∧
    (∀ table, ∀ r ∈ s'.data table, r ∈ s.data table ∨
      isTenantRow tenantId r ∧
        ((∃ m, readManifest imp.json text = some m ∧ imp.Accepts tenantId m ∧
            Comes imp.schema.toSchema tenantId (recordsOf imp.toNumber m (imp.payloads text)) s.data table r) ∨
          table = "import_jobs" ∧ ∃ importId counts rows,
            r = (importJobStatement tenantId (importIdText importId) (imp.packChecksum text) counts o.now).row
              (imp.schema.table "import_jobs") rows)) ∧
    (∀ token ∈ s'.tokens, token ∈ s.tokens) ∧
    ∀ token ∈ s.tokens, token ∈ s'.tokens ∨ (token.token = k ∧ token.tenantId = tenantId) ∨ token.expiresAt ≤ o.now

theorem Confined.refl (o : ImportEnv) (c : ImportCall) (s : ImportDb) : imp.Confined o c s s := by
  cases c with
  | dryRunImport tenantId text => exact ⟨rfl, fun _ h => h, fun _ h => .inl h⟩
  | commitImport tenantId text k =>
    exact ⟨.refl _, fun _ _ h => .inl h, fun _ h => h, fun _ h => .inl h⟩

theorem importJobs_mem : "import_jobs" ∈ tenantTables := by decide +kernel

theorem isTenantRow_importJob {S : ServerSchema} {tenantId importId checksum : String} {counts : ImportCounts} {now : ℤ}
    {rows : List Row} :
    isTenantRow tenantId ((importJobStatement tenantId importId checksum counts now).row (S.table "import_jobs") rows) := by
  have hmem := importJobs_mem
  simp [isTenantRow, Upsert.row, importJobStatement, S.tenantId_text _ hmem]

theorem confined_tokens {o : ImportEnv} {tenantId text : String} {k : ℕ} {s : ImportDb} {keeps : Token → Prop}
    [DecidablePred keeps] (h : ∀ token, ¬ keeps token → (token.token = k ∧ token.tenantId = tenantId) ∨ token.expiresAt ≤ o.now) :
    imp.Confined o (.commitImport tenantId text k) s { s with tokens := s.tokens.filter keeps } := by
  refine ⟨.refl _, fun _ _ hr => .inl hr, fun _ ht => List.mem_of_mem_filter ht, fun token ht => ?_⟩
  by_cases hkeeps : keeps token
  · exact .inl (List.mem_filter.2 ⟨ht, by simpa using hkeeps⟩)
  · exact .inr (h token hkeeps)

theorem confined_import {o : ImportEnv} {tenantId text checksum : String} {k importId : ℕ} {s : ImportDb}
    {m : PortabilityPackManifestV1} {data : Db} {counts : ImportCounts} (hread : readManifest imp.json text = some m)
    (hacc : imp.Accepts tenantId m) (hsum : checksum = imp.packChecksum text)
    (h : importRows imp.schema.toSchema tenantId imp.toNumber (importIdText importId) checksum m (imp.payloads text) o.now
      s.data = some (data, counts)) :
    imp.Confined o (.commitImport tenantId text k) s { s with data := data } := by
  subst hsum
  obtain ⟨rows, hrows, rfl⟩ := importRows_imported h
  have hkept : ∀ table, ∀ r ∈ rows table, r ∈ s.data table ∨ isTenantRow tenantId r ∧ Comes imp.schema.toSchema tenantId
      (recordsOf imp.toNumber m (imp.payloads text)) s.data table r := by
    intro table r hr
    by_cases htenant : isTenantRow tenantId r
    · exact .inr ⟨htenant, hrows.comes table r hr⟩
    · exact .inl ((hrows.touches.mem_iff htenant).1 hr)
  refine ⟨hrows.touches.trans (Schema.touches_append isTenantRow_importJob), fun table r hr => ?_, fun _ h => h,
    fun _ h => .inl h⟩
  by_cases hold : r ∈ s.data table
  · exact .inl hold
  refine .inr ?_
  have hpack : r ∈ rows table → isTenantRow tenantId r ∧ Comes imp.schema.toSchema tenantId
      (recordsOf imp.toNumber m (imp.payloads text)) s.data table r := fun hr => (hkept table r hr).resolve_left hold
  by_cases htable : table = "import_jobs"
  · subst htable
    simp only [Db.set_self, List.mem_append, List.mem_singleton] at hr
    rcases hr with hr | rfl
    · exact ⟨(hpack hr).1, .inl ⟨m, hread, hacc, (hpack hr).2⟩⟩
    · exact ⟨isTenantRow_importJob, .inr ⟨rfl, importId, counts, _, rfl⟩⟩
  · simp only [Db.set_of_ne htable] at hr
    exact ⟨(hpack hr).1, .inl ⟨m, hread, hacc, (hpack hr).2⟩⟩

/-- **Step lemma.** -/
theorem confined_exec {p : ImportPool} (hb : Booked p) (hr : Recorded imp p) {i : ℕ} {c : ImportCall}
    {l : List (ImportTxn × ImportReply)} {t : ImportTxn} {q : ImportReply → Importer.ImportProg ImportResult} {o : ImportEnv}
    (hi : p.threads[i]? = some ⟨c, l, .txn t q⟩) (hmay : imp.MayFollow c l t) :
    imp.Confined o c p.db (imp.exec o t p.db).1 := by
  have hcases := imp.exec_cases (o := o) (s := p.db) t
  cases c with
  | dryRunImport tenantId text =>
    obtain ⟨-, ht, -⟩ := hmay
    rcases hcases with ⟨hs, -⟩ | ⟨T, sum, token, ht', rfl, hs⟩ | ⟨_, _, _, _, -, ht', -⟩ | ⟨_, _, _, _, _, _, _, ht', -⟩ |
      ⟨ht', -⟩
    · rw [hs]
      exact .refl ..
    · rw [ht'] at ht
      obtain ⟨rfl, -⟩ := ImportTxn.issue.inj ht
      rw [hs]
      refine ⟨rfl, fun _ h => List.mem_append_left _ h, fun token h => (List.mem_append.1 h).imp_right fun h => ?_⟩
      rw [List.mem_singleton.1 h]
    all_goals
      rw [ht'] at ht
      exact absurd ht (by simp)
  | commitImport tenantId text k =>
    rcases hcases with ⟨hs, -⟩ | ⟨T, sum, token, rfl, -⟩ | ⟨k', T, sum, token, -, rfl, hnames, -, hs⟩ |
      ⟨T, id, sum, m, j, data, counts, rfl, hrows, hs⟩ | ⟨rfl, hs⟩
    · rw [hs]
      exact .refl ..
    · rcases hmay with ⟨-, ht⟩ | ⟨_, _, _, -, -, ht⟩ | ht
      all_goals exact absurd ht (by simp)
    · rcases hmay with ⟨-, ht⟩ | ⟨_, _, _, -, -, ht⟩ | ht
      · obtain ⟨rfl, rfl, rfl⟩ := ImportTxn.consume.inj ht
        rw [hs]
        exact confined_tokens fun token htoken => .inl (by
          rw [not_not] at htoken
          exact ⟨htoken.1, htoken.2.1⟩)
      all_goals exact absurd ht (by simp)
    · rcases hmay with ⟨-, ht⟩ | ⟨importId, at_, m', rfl, hread, ht⟩ | ht
      · exact absurd ht (by simp)
      · obtain ⟨rfl, rfl, rfl, rfl, rfl⟩ := ImportTxn.importRows.inj ht
        obtain ⟨T', text', l', q', hi', ⟨m'', hread', hacc⟩, -⟩ := redeems_of_consumed hb hr hi (List.mem_singleton_self _)
        rw [hi] at hi'
        obtain ⟨rfl, rfl⟩ := ImportCall.commitImport.inj (Thread.mk.inj (Option.some.inj hi')).1 |>.imp_right And.left
        obtain rfl : m = m'' := Option.some.inj (hread.symm.trans hread')
        rw [hs]
        exact confined_import hread hacc rfl hrows
      · exact absurd ht (by simp)
    · rw [hs]
      exact confined_tokens fun token htoken => .inr (not_lt.1 htoken)

/-! ## Runs -/

section
variable {data : Db} {ms : List (Move ImportCall ImportEnv)}

/-- What holds in every state of a run. -/
theorem invariant_always (data : Db) (ms : List (Move ImportCall ImportEnv)) :
    Always (Pool.step imp.start imp.exec) (fun p => Booked p ∧ imp.Recorded p ∧
      p.Traced .free imp.exec (fun c l t _ => imp.MayFollow c l t) (fun _ l r _ => Outcome l r))
      (Pool.idle ⟨data, [], 0⟩) ms := by
  intro pre hpre
  have hlog := Pool.traced_log_always (s := ⟨data, [], 0⟩) (fun c s => imp.start_traces c s) pre hpre
  exact ⟨imp.booked_always data ms pre hpre, hlog.2, hlog.1⟩

/-- **Each step of a call is confined.** -/
theorem confined_along : Along (Pool.step imp.start imp.exec)
    (fun p m => ∀ i o c l q, m = .go i o → p.threads[i]? = some ⟨c, l, q⟩ →
      imp.Confined o c p.db (Pool.step imp.start imp.exec p m).db) (Pool.idle ⟨data, [], 0⟩) ms := by
  rintro pre m hpre i o c l q rfl hi
  obtain ⟨hb, hr, ht⟩ := imp.invariant_always data ms pre ((List.prefix_append _ _).trans hpre)
  cases q with
  | ret a | throw e | read f => simpa [Pool.step, hi, Pool.goStep] using Confined.refl o c _
  | txn t k =>
    have hmay := ht.committing trivial hi
    simpa [Pool.step, hi, Pool.goStep] using confined_exec hb hr hi hmay

/-- **A call that throws has not written.** -/
theorem data_of_throw {pre : List (Move ImportCall ImportEnv)} {i : ℕ} {o : ImportEnv}
    (hpre : pre ++ [.go i o] <+: ms)
    (hthrow : ∃ c l e, (run (Pool.step imp.start imp.exec) (Pool.idle ⟨data, [], 0⟩) ms).threads[i]? =
      some ⟨c, l, .throw e⟩) :
    (run (Pool.step imp.start imp.exec) (Pool.idle ⟨data, [], 0⟩) (pre ++ [.go i o])).db.data =
      (run (Pool.step imp.start imp.exec) (Pool.idle ⟨data, [], 0⟩) pre).db.data := by
  obtain ⟨rest, rfl⟩ := hpre
  obtain ⟨c, l, e, hend⟩ := hthrow
  obtain ⟨-, -, ht⟩ := imp.invariant_always data _ _ (List.prefix_refl _)
  have hunwritten : Unwritten l := ht _ (List.mem_of_getElem? hend) ⟨data, [], 0⟩ trivial trivial
  rw [run_append] at hend
  rw [run_snoc]
  rw [run_snoc] at hend
  generalize run (Pool.step imp.start imp.exec) (Pool.idle ⟨data, [], 0⟩) pre = p at hend ⊢
  cases hi : p.threads[i]? with
  | none => simp [Pool.step, hi]
  | some th =>
    obtain ⟨c', l', q⟩ := th
    cases q with
    | ret a | throw e | read f => simp [Pool.step, hi, Pool.goStep]
    | txn t k =>
      -- what it has executed is in its log to the end
      have hlen : i < p.threads.length := (List.getElem?_eq_some_iff.1 hi).1
      have hstep : Pool.step imp.start imp.exec p (.go i o) = ⟨(imp.exec o t p.db).1,
          p.threads.set i ⟨c', l' ++ [(t, (imp.exec o t p.db).2)], k (imp.exec o t p.db).2⟩⟩ := by
        simp only [Pool.step, hi, Pool.goStep]
      have hlog : (Pool.step imp.start imp.exec p (.go i o)).threads[i]? =
          some ⟨c', l' ++ [(t, (imp.exec o t p.db).2)], k (imp.exec o t p.db).2⟩ := by
        rw [hstep, List.getElem?_set_self hlen]
      obtain ⟨th', hth', -, hgrows⟩ : ∃ th', (run (Pool.step imp.start imp.exec) (Pool.step imp.start imp.exec p (.go i o))
          rest).threads[i]? = some th' ∧ th'.call = c' ∧ _ := Pool.log_grows_run hlog
      obtain rfl := Option.some.inj (hth'.symm.trans hend)
      have hdata := imp.data_eq (o := o) (t := t) fun counts => hunwritten (t, (imp.exec o t p.db).2)
        (hgrows.subset (by simp)) counts
      simpa [Pool.step, hi, Pool.goStep] using hdata

/-- **Imports are safe.** Over every run, a token leads to at most one committed import, of a manifest the check
accepts, by the tenant it was issued to and in time; a call writes rows of its tenant, which come from the pack, and
no others; and a call that throws leaves the data. -/
theorem imports_safe (imp : Importer) (data : Db) (ms : List (Move ImportCall ImportEnv)) :
    Always (Pool.step imp.start imp.exec) (fun p =>
        (∀ k i j a b, Committed p k i a → Committed p k j b → i = j ∧ a = b) ∧
          ∀ k i a, Committed p k i a → imp.Redeems p k i) (Pool.idle ⟨data, [], 0⟩) ms ∧
      Along (Pool.step imp.start imp.exec) (fun p m => ∀ i o c l q, m = .go i o → p.threads[i]? = some ⟨c, l, q⟩ →
        imp.Confined o c p.db (Pool.step imp.start imp.exec p m).db) (Pool.idle ⟨data, [], 0⟩) ms ∧
      ∀ pre i o, pre ++ [.go i o] <+: ms →
        (∃ c l e, (run (Pool.step imp.start imp.exec) (Pool.idle ⟨data, [], 0⟩) ms).threads[i]? =
          some ⟨c, l, .throw e⟩) →
        (run (Pool.step imp.start imp.exec) (Pool.idle ⟨data, [], 0⟩) (pre ++ [.go i o])).db.data =
          (run (Pool.step imp.start imp.exec) (Pool.idle ⟨data, [], 0⟩) pre).db.data := by
  refine ⟨fun pre hpre => ?_, confined_along, fun pre i o => data_of_throw⟩
  obtain ⟨hb, hr, -⟩ := imp.invariant_always data ms pre hpre
  refine ⟨fun k i j a b hi hj => ?_, fun k i a hi => (hi.redeems hb hr).1⟩
  obtain ⟨-, hspent, rfl⟩ := hi.redeems hb hr
  obtain ⟨-, hspent', rfl⟩ := hj.redeems hb hr
  exact ⟨hb.unique k i j hspent hspent', rfl⟩

end

/-! ## A pack whose rows have been changed -/

/-- Tables of two columns, without keys. -/
def plainSchema : ServerSchema where
  tables := []
  table _ := ⟨["tenant_id", "resource"], [], [], [], fun _ _ => .null, fun _ _ => id, fun _ => true⟩
  tenantId_mem _ _ := by simp
  tenantId_text _ _ _ _ := rfl

noncomputable def plainImporter : Importer := ⟨Platform.symbolic, .inverse, "platform-key", plainSchema, fun _ => 0⟩

/-- An export of a single row. -/
def plainExport : ExportResult where
  tenantId := "tenant"
  exportedAt := .newYear
  persona := .null
  tables := [("quota_limits", [.obj [("resource", .str "exported")]])]

theorem plainExport_proper : plainExport.Proper where
  tenantId_ne := by decide
  persona_made := made_null
  names := by
    rw [show plainExport.tables.map Prod.fst = ["quota_limits"] from rfl, List.singleton_sublist]
    decide +kernel
  rows_made t ht row hrow := by
    obtain rfl := List.mem_singleton.1 ht
    obtain rfl := List.mem_singleton.1 hrow
    exact made_obj.2 ⟨List.pairwise_singleton .., by simp⟩

/-- Another row in its place. -/
def otherRows : List Json := [.obj [("resource", .str "made up")]]

def plainManifest : PortabilityPackManifestV1 := (plainExport.manifest Platform.symbolic).sign Platform.symbolic "platform-key"

def changedPack : Json := .obj [("manifest", plainManifest.builtJson), ("payloads", .obj [("quota_limits", .arr otherRows)])]

theorem changedPack_made : changedPack.Made := by
  refine made_obj.2 ⟨(by decide : ["manifest", "payloads"].Pairwise Before), ?_⟩
  refine List.forall_mem_cons.2 ⟨plainExport.made_builtJson _, ?_⟩
  simp [otherRows, made_obj, made_arr]

theorem changedPack_read : readManifest .inverse changedPack.stringify = some plainManifest :=
  plainExport_proper.readManifest_stringify _ _ changedPack_made rfl

def quiet : ImportEnv := ⟨0, false⟩

/-- A dry run of the pack, and a commit with its token. -/
def changedRun : List (Move ImportCall ImportEnv) :=
  [.call (.dryRunImport "tenant" changedPack.stringify), .go 0 quiet,
    .call (.commitImport "tenant" changedPack.stringify 0), .go 1 quiet, .go 1 quiet]

theorem changed_imported : ∃ data counts,
    importRows plainSchema.toSchema "tenant" (fun _ => 0) (importIdText 0)
      (plainImporter.packChecksum changedPack.stringify) plainManifest
      (some (.obj [("quota_limits", .arr otherRows)])) 0 (fun _ => []) = some (data, counts) ∧
      ∃ r ∈ data "quota_limits", r "resource" = .text "made up" := by
  refine ⟨_, _, rfl, _, List.mem_cons_self, rfl⟩

/-- The row that is not the exported one is written, and the manifest's entry is not of it. -/
theorem other_rows_imported :
    (∃ r ∈ (run (Pool.step plainImporter.start plainImporter.exec) (Pool.idle ⟨fun _ => [], [], 0⟩) changedRun).db.data
        "quota_limits", r "resource" = .text "made up") ∧
      ∀ e ∈ plainManifest.payloads, e.logicalName = "quota_limits" →
        e.checksum ≠ Platform.symbolic.sha256 (rowsToNdjson otherRows) := by
  obtain ⟨data, counts, himport, hrow⟩ := changed_imported
  constructor
  · have hcan : (dryRunImport plainImporter.crypto plainImporter.json plainImporter.platformKey "tenant"
        changedPack.stringify).canCommit = true :=
      canCommit_iff.2 ⟨_, changedPack_read, rfl, rfl, (UnsignedManifest.verify_sign _ _ _).2 rfl⟩
    have hpayloads : plainImporter.payloads changedPack.stringify = some (.obj [("quota_limits", .arr otherRows)]) := by
      rw [payloads, JsonParse.parse_stringify _ changedPack_made]
      rfl
    have hread : readManifest plainImporter.json changedPack.stringify = some plainManifest := changedPack_read
    have hschema : plainImporter.schema = plainSchema := rfl
    have hnumber : plainImporter.toNumber = fun _ => 0 := rfl
    simp [changedRun, run, Pool.step, Pool.idle, Pool.goStep, start, dryRun, hcan, commit, hread, hpayloads, exec,
      execImport, quiet, Token.Names, tokenTtlMs, hschema, hnumber, himport, hrow]
  · intro e he hname hsum
    obtain rfl | he := List.mem_cons.1 he
    · exact absurd hname (by decide)
    · obtain rfl := List.mem_singleton.1 he
      exact absurd (Platform.symbolic.sha256_injective hsum) (by decide +kernel)

end Importer

end ChronoSynth.Privacy

import ChronoSynth.Lib.Traces
import ChronoSynth.Privacy.Erasure

/-!
# Legal holds

`eraseData` with `placeHold` and `releaseHold` by other replicas. The hold is looked for before the transaction that
erases, and the tenant is evicted from the cache after it.

* `erasure_safe_iff` — over every run, erasures are total, isolated and lose to legal holds exactly if each that is
  committed finds no hold then, takes no protected rows along, and is not let down by the cache.
* A hold is its row of `legal_holds`.
-/

namespace ChronoSynth.Privacy

open Sql

def holdsTable : String := "legal_holds"

inductive HoldSubject
  | tenant | user | persona
  deriving DecidableEq

def HoldSubject.text : HoldSubject → String
  | .tenant => "tenant"
  | .user => "user"
  | .persona => "persona"

structure PlaceHoldInput where
  tenantId : String
  subject : HoldSubject
  subjectId : Option String
  reason : String
  createdBy : String

def SqlValue.inText : SqlValue → String
  | .null => "null"
  | .number x => x.text
  | .text s => s

/-- What is open about a step: the clock, an id that is drawn, the order of equals, and what fails. -/
structure HoldEnv where
  now : ℤ
  id : String
  tie : ℕ
  fails : Bool
  /-- `tenantFactory.evict` throws. -/
  evictThrows : Bool

/-! ## Transactions -/

inductive HoldTxn
  | erase (tenantId : String)
  | insertHold (id : String) (input : PlaceHoldInput) (now : ℤ)
  | release (id releasedBy : String) (now : ℤ)

inductive HoldReply
  /-- Committed, with `tablesAffected`. -/
  | erased (tablesAffected : List (String × ℕ))
  /-- Committed, and then the cache threw. -/
  | evictFailed
  | rolledBack
  | done
  | failed

def holdStatement (id : String) (input : PlaceHoldInput) (now : ℤ) : Upsert where
  table := holdsTable
  cols := ["id", "tenant_id", "subject", "subject_id", "reason", "created_by", "created_at"]
  values
    | "id" => .text id
    | "tenant_id" => .text input.tenantId
    | "subject" => .text input.subject.text
    | "subject_id" => input.subjectId.elim .null .text
    | "reason" => .text input.reason
    | "created_by" => .text input.createdBy
    | "created_at" => .number (.finite (JsNumber.ofInt now))
    | _ => .null
  guard _ _ := false

/-- `UPDATE legal_holds SET released_at = ?, released_by = ? WHERE id = ?`. -/
def releaseRows (S : Schema) (id releasedBy : String) (now : ℤ) (db : Db) : Db :=
  let affinity := (S.table holdsTable).affinity (db holdsTable)
  db.set holdsTable ((db holdsTable).map fun r =>
    if r "id" = .text id then fun c =>
      if c = "released_at" then affinity c (.number (.finite (JsNumber.ofInt now)))
      else if c = "released_by" then affinity c (.text releasedBy)
      else r c
    else r)

section
variable (S : ErasureSchema)

def execHold (o : HoldEnv) : HoldTxn → Db → Db × HoldReply
  | .erase tenantId, s =>
    let out := eraseRows S.toSchema tenantId s
    -- foreign keys are checked at the end
    if o.fails = true ∨ ¬ S.Consistent out.1 then (s, .rolledBack)
    else (out.1, if o.evictThrows = true then .evictFailed else .erased out.2)
  | .insertHold id input now, s =>
    if o.fails = true then (s, .failed)
    else
      match S.insert (holdStatement id input now) s with
      | .ok (s', _) => (s', .done)
      | .error () => (s, .failed)
  | .release id releasedBy now, s =>
    if o.fails = true then (s, .failed)
    else
      match S.accept (releaseRows S.toSchema id releasedBy now s) with
      | .ok (s', _) => (s', .done)
      | .error () => (s, .failed)

end

/-! ## Calls -/

inductive HoldCall
  | eraseData (tenantId : String)
  | placeHold (input : PlaceHoldInput)
  | releaseHold (id releasedBy tenantId : String)

inductive HoldError
  | database
  | subjectIdRequired (subject : HoldSubject)
  | notFound (id : String)
  | otherTenant (id : String)

inductive HoldResult
  | deleted (timestamp : ℤ) (tablesAffected : List (String × ℕ))
  | blocked (timestamp : ℤ) (reason : String) (blockingHoldId : SqlValue)
  | hold (row : Row)

abbrev HoldProg := Prog Db HoldTxn HoldReply HoldEnv HoldError

def IsActiveHold (tenantId : String) (r : Row) : Prop := r "tenant_id" = .text tenantId ∧ r "released_at" = .null

instance (tenantId : String) : DecidablePred (IsActiveHold tenantId) := fun _ => inferInstanceAs (Decidable (_ ∧ _))

/-- `ORDER BY created_at DESC LIMIT 1`. -/
def newest (o : HoldEnv) (rows : List Row) : Option Row :=
  let top := rows.filter fun r => rows.all fun r' => !SqlValue.gt ( r' "created_at") (r "created_at")
  top[o.tie % top.length]?

/-- `findBlockingHold(tenantId, 'tenant', null)`. -/
def findBlockingHold (tenantId : String) : HoldProg (Option Row) := do
  match ← Prog.queryAny fun o s =>
      newest o ((s holdsTable).filter fun r => IsActiveHold tenantId r ∧ r "subject" = .text "tenant") with
  | some tenantWide => pure (some tenantWide)
  | none => Prog.queryAny fun o s => newest o ((s holdsTable).filter (IsActiveHold tenantId ·))

/-- `legal hold active: …`. -/
def holdReason (hold : Row) : String :=
  "legal hold active: " ++ SqlValue.inText (hold "id") ++ " on " ++ SqlValue.inText (hold "subject") ++
    (if hold "subject_id" = .null ∨ hold "subject_id" = .text "" then ""
      else ":" ++ SqlValue.inText (hold "subject_id")) ++
    " (" ++ SqlValue.inText (hold "reason") ++ ")"

/-- `eraseData` where a hold is in the way. -/
def refuse (hold : Row) : HoldProg HoldResult := do
  let timestamp ← Prog.queryAny fun o _ => o.now
  pure (.blocked timestamp (holdReason hold) (hold "id"))

/-- `eraseData` where none is. -/
def eraseWhole (tenantId : String) : HoldProg HoldResult := do
  match ← Prog.transaction (.erase tenantId) with
  | .erased tablesAffected =>
    let timestamp ← Prog.queryAny fun o _ => o.now
    pure (.deleted timestamp tablesAffected)
  | _ => Prog.throw .database

def eraseData (tenantId : String) : HoldProg HoldResult := do
  match ← findBlockingHold tenantId with
  | some hold => refuse hold
  | none => eraseWhole tenantId

def findById (id : String) : HoldProg (Option Row) :=
  Prog.query fun s => (s holdsTable).find? fun r => r "id" = .text id

def requireById (id : String) : HoldProg HoldResult := do
  match ← findById id with
  | some hold => pure (.hold hold)
  | none => Prog.throw .database

def placeHold (input : PlaceHoldInput) : HoldProg HoldResult :=
  if input.subject ≠ .tenant ∧ input.subjectId.getD "" = "" then Prog.throw (.subjectIdRequired input.subject)
  else do
    let drawn ← Prog.queryAny fun o _ => ("lh_" ++ o.id, o.now)
    match ← Prog.transaction (.insertHold drawn.1 input drawn.2) with
    | .done => requireById drawn.1
    | _ => Prog.throw .database

def releaseHold (id releasedBy tenantId : String) : HoldProg HoldResult := do
  match ← findById id with
  | none => Prog.throw (.notFound id)
  | some existing =>
    if existing "tenant_id" ≠ .text tenantId then Prog.throw (.otherTenant id)
    else if existing "released_at" ≠ .null then pure (.hold existing)
    else do
      let now ← Prog.queryAny fun o _ => o.now
      match ← Prog.transaction (.release id releasedBy now) with
      | .done => requireById id
      | _ => Prog.throw .database

def startHold : HoldCall → HoldProg HoldResult
  | .eraseData tenantId => eraseData tenantId
  | .placeHold input => placeHold input
  | .releaseHold id releasedBy tenantId => releaseHold id releasedBy tenantId

abbrev HoldPool := Pool HoldCall Db HoldTxn HoldReply HoldEnv HoldError HoldResult

/-! ## What is asked of an erasure -/

def HasActiveHold (tenantId : String) (s : Db) : Prop := ∃ r ∈ s holdsTable, IsActiveHold tenantId r

/-- What an erasure that reports `deleted` leaves: no hold was active, nothing belongs to the tenant but tombstones,
and what is protected is there. -/
structure Erased (tenantId : String) (s s' : Db) : Prop where
  free : ¬ HasActiveHold tenantId s
  total : ∀ t ∈ coveredTables, ∀ r ∈ s' t, relatedRow s t tenantId r ∨ relatedRow s' t tenantId r → IsTombstone t r
  isolated : ∀ t, ∀ r ∈ s t, Protected tenantId s t r → r ∈ s' t

/-- A transaction of an erasure that is reported as `deleted` is one; others change nothing. -/
def Right (S : ErasureSchema) (o : HoldEnv) : HoldTxn → Db → Prop
  | .erase tenantId, s =>
    match (execHold S o (.erase tenantId) s).2 with
    | .erased _ => Erased tenantId s (execHold S o (.erase tenantId) s).1
    | _ => (execHold S o (.erase tenantId) s).1 = s
  | .insertHold _ _ _, _ => True
  | .release _ _ _, _ => True

/-- What a call's log and result have to do with each other: `deleted` is reported of an erasure, and nothing has been
done by a call that is blocked, or throws without having erased. -/
def Reports (call : HoldCall) (l : List (HoldTxn × HoldReply)) (r : Except HoldError HoldResult) : Prop :=
  match call with
  | .eraseData tenantId =>
    match r with
    | .ok (.deleted _ tablesAffected) => l = [(.erase tenantId, .erased tablesAffected)]
    | .ok (.blocked _ _ _) => l = []
    | .ok (.hold _) => False
    | .error _ => ∃ reply, l = [(.erase tenantId, reply)] ∧ ∀ tablesAffected, reply ≠ .erased tablesAffected
  | .placeHold _ | .releaseHold _ _ _ => True

/-- An erasure that is committed finds no hold and takes no protected rows along; if the cache throws, there was
nothing to erase. -/
def Spared (S : ErasureSchema) (o : HoldEnv) : HoldTxn → Db → Prop
  | .erase tenantId, s =>
    o.fails = false → S.Consistent (eraseRows S.toSchema tenantId s).1 →
      if o.evictThrows = true then ∀ t ∈ coveredTables, Cleared tenantId s s t
      else ¬ HasActiveHold tenantId s ∧
        ∀ t, ∀ r ∈ s t, Protected tenantId s t r → ¬ Schema.Altered S.toSchema s (Owned tenantId s) t r
  | .insertHold _ _ _, _ => True
  | .release _ _ _, _ => True

section
variable {S : ErasureSchema} {o : HoldEnv} {s : Db}

/-- Transactions keep the constraints. -/
theorem consistent_execHold (t : HoldTxn) (h : S.Consistent s) : S.Consistent (execHold S o t s).1 := by
  cases t with
  | erase tenantId =>
    simp only [execHold]
    split_ifs with hrolled
    · exact h
    · exact not_not.1 (not_or.1 hrolled).2
    · exact not_not.1 (not_or.1 hrolled).2
  | insertHold id input now =>
    simp only [execHold]
    split_ifs
    · exact h
    · split
      next hok => exact (Schema.insert_ok hok).1
      next => exact h
  | release id releasedBy now =>
    simp only [execHold]
    split_ifs
    · exact h
    · split
      next hok =>
        obtain ⟨hcons, rfl, -⟩ := Schema.accept_ok.1 hok
        exact hcons
      next => exact h

theorem eraseRows_total (tenantId : String) (s : Db) : ∀ t ∈ coveredTables,
    ∀ r ∈ (eraseRows S.toSchema tenantId s).1 t,
      relatedRow s t tenantId r ∨ relatedRow (eraseRows S.toSchema tenantId s).1 t tenantId r → IsTombstone t r := by
  intro t ht r hr hrelated
  refine eraseRows_cleared S tenantId s t ht r hr (hrelated.elim id fun hafter => ?_)
  exact relatedRow_before (eraseRows_descends S tenantId s).worn hafter

/-- **An erasure is right exactly if it spares what it has to.** -/
theorem right_iff_spared (h : S.Consistent s) (t : HoldTxn) : Right S o t s ↔ Spared S o t s := by
  cases t with
  | insertHold | release => exact Iff.rfl
  | erase tenantId =>
    simp only [Right, Spared, execHold]
    by_cases hfails : o.fails = true
    · simp [hfails]
    · by_cases hcons : S.Consistent (eraseRows S.toSchema tenantId s).1
      · by_cases hevict : o.evictThrows = true
        · simp only [hfails, hcons, hevict, not_true_eq_false, if_true, forall_const]
          exact eraseRows_eq_self_iff
        · simp only [hfails, hcons, hevict, not_true_eq_false, forall_const]
          rw [← eraseRows_unchanged_iff h hcons]
          exact ⟨fun hright => ⟨hright.free, hright.isolated⟩,
            fun hspared => ⟨hspared.1, eraseRows_total tenantId s, hspared.2⟩⟩
      · simp [hcons]

/-- **Calls report what they have done.** -/
theorem startHold_traces (c : HoldCall) (s : Db) :
    (startHold c).Traces .free (execHold S) (fun _ _ _ => True) (fun l r _ => Reports c l r) [] s := by
  cases c with
  | placeHold | releaseHold => exact Prog.traces_any (fun _ _ _ => trivial) fun _ _ _ => trivial
  | eraseData tenantId =>
    have herase : ∀ s, (eraseWhole tenantId).Traces .free (execHold S) (fun _ _ _ => True)
        (fun l r _ => Reports (.eraseData tenantId) l r) [] s := by
      intro s
      refine .transaction fun s' _ _ => ⟨trivial, fun o => ?_⟩
      split
      next tablesAffected hreply =>
        refine .queryAny fun _ _ _ _ _ _ _ => ?_
        rw [hreply]
        rfl
      next hother => exact fun _ _ _ => ⟨_, rfl, hother⟩
    have hblocked : ∀ (hold : Row) (s : Db), (refuse hold).Traces .free (execHold S) (fun _ _ _ => True)
        (fun l r _ => Reports (.eraseData tenantId) l r) [] s := fun _ _ => .queryAny fun _ _ _ _ _ _ _ => rfl
    refine .bind (.queryAny fun s' _ _ o => ?_)
    split
    next hold _ => exact fun s'' _ _ => hblocked hold s''
    next =>
      refine fun s'' _ _ o' s₃ _ _ => ?_
      dsimp only
      split
      next hold _ => exact hblocked hold s₃
      next => exact herase s₃

/-- Every call that is over has reported what it has done. -/
def AllReport (p : HoldPool) : Prop := ∀ th ∈ p.threads, ∀ r, th.prog.result = some r → Reports th.call th.log r

/-- **Erasures are total, isolated and lose to legal holds, exactly if each that is committed finds no hold then,
takes no protected rows along, and is not let down by the cache.** -/
theorem erasure_safe_iff (S : ErasureSchema) (db : { db : Db // S.Consistent db }) (ms : List (Move HoldCall HoldEnv)) :
    (Always (Pool.step startHold (execHold S)) AllReport (Pool.idle db) ms ∧
      Along (Pool.step startHold (execHold S)) (Pool.AtCommit (Right S)) (Pool.idle db) ms) ↔
    Along (Pool.step startHold (execHold S)) (Pool.AtCommit (Spared S)) (Pool.idle db) ms := by
  have htraced : Always (Pool.step startHold (execHold S)) (Pool.Traced .free (execHold S) (fun _ _ _ _ => True)
      fun c l r _ => Reports c l r) (Pool.idle db) ms :=
    Always.of_inductive .idle fun _ _ h => h.step trivial trivial fun c s _ => startHold_traces c s
  have hcons : Always (Pool.step startHold (execHold S)) (fun p => S.Consistent p.db) (Pool.idle db) ms := by
    refine Always.of_inductive db.2 fun p m h => ?_
    obtain ⟨-, hdb⟩ | ⟨o, t, -, hdb⟩ := Pool.step_db startHold (execHold S) p m
    · rwa [hdb]
    · rw [hdb]
      exact consistent_execHold t h
  have hreports : Always (Pool.step startHold (execHold S)) AllReport (Pool.idle db) ms :=
    htraced.mono fun p h th hth r hr => (h th hth).result hr trivial
  rw [and_iff_right hreports]
  exact Along.congr hcons fun p m h => forall₂_congr fun o t => imp_congr_right fun _ => right_iff_spared h t

end

/-! ## A hold that comes too late -/

/-- A schema of tables that only have their keys. -/
def plainSchema : ErasureSchema where
  tables := serverForeignKeys.flatMap (fun e => [e.1, e.2.table]) ++ tenantTables
  table t :=
    { columns := ["id", "tenant_id"]
      pkColumns := ["id"]
      uniqueIndexes := []
      foreignKeys := (serverForeignKeys.filter (·.1 = t)).map Prod.snd
      default := fun _ _ => .null
      affinity := fun _ _ value => value
      admits := fun _ => true }
  tenantId_mem _ _ := by simp
  tenantId_text _ _ _ _ := rfl
  foreignKeys_eq _ := rfl
  tables_mem e he :=
    ⟨List.mem_append_left _ (List.mem_flatMap.2 ⟨e, he, by simp⟩),
      List.mem_append_left _ (List.mem_flatMap.2 ⟨e, he, by simp⟩)⟩
  id_key _ _ := by simp

def lateHold : PlaceHoldInput := ⟨"t1", .tenant, none, "litigation", "counsel"⟩

def lateEnv : HoldEnv := ⟨0, "1", 0, false, false⟩

/-- The erasure has found no hold when one is being placed. -/
def lateHoldRun : List (Move HoldCall HoldEnv) :=
  [.call (.eraseData "t1"), .go 0 lateEnv, .go 0 lateEnv, .call (.placeHold lateHold), .go 1 lateEnv]

def lateTxn : HoldTxn := .insertHold ("lh_" ++ "1") lateHold 0

/-- The database with the hold. -/
def heldDb : Db :=
  Db.set (fun _ => []) holdsTable [(holdStatement ("lh_" ++ "1") lateHold 0).row (plainSchema.table holdsTable) []]

theorem holds_not_covered : holdsTable ∉ coveredTables := by decide +kernel

theorem heldDb_of_ne {t : String} (ht : t ≠ holdsTable) : heldDb t = [] := Db.set_of_ne ht ..

theorem heldDb_consistent : plainSchema.Consistent heldDb := by
  intro t _
  by_cases ht : t = holdsTable
  · subst ht
    have hnone : (plainSchema.table holdsTable).foreignKeys = [] := by decide +kernel
    refine ⟨fun _ _ => rfl, fun key _ => ?_, fun fk hfk => ?_⟩
    · rw [heldDb, Db.set_self]
      exact List.pairwise_singleton ..
    · rw [hnone] at hfk
      cases hfk
  · rw [heldDb_of_ne ht]
    exact ⟨nofun, fun _ _ => List.Pairwise.nil, nofun⟩

theorem execHold_lateTxn : execHold plainSchema lateEnv lateTxn (fun _ => []) = (heldDb, .done) := by
  have hinsert : plainSchema.insert (holdStatement ("lh_" ++ "1") lateHold 0) (fun _ => []) = .ok (heldDb, 1) := by
    rw [Schema.insert]
    exact (if_pos rfl).trans (Schema.accept_ok.2 ⟨heldDb_consistent, rfl, rfl⟩)
  simp only [execHold, lateTxn, hinsert]
  rfl

theorem lateHoldRun_eq : ∃ k th,
    run (Pool.step startHold (execHold plainSchema)) (Pool.idle fun _ => []) (lateHoldRun ++ [.go 1 lateEnv]) =
      ⟨heldDb, [⟨.eraseData "t1", [], .txn (.erase "t1") k⟩, th]⟩ := by
  obtain ⟨k, k', heq⟩ : ∃ k k', run (Pool.step startHold (execHold plainSchema)) (Pool.idle fun _ => []) lateHoldRun =
      ⟨fun _ => [], [⟨.eraseData "t1", [], .txn (.erase "t1") k⟩, ⟨.placeHold lateHold, [], .txn lateTxn k'⟩]⟩ :=
    ⟨_, _, rfl⟩
  refine ⟨k, ⟨.placeHold lateHold, [(lateTxn, .done)], k' .done⟩, ?_⟩
  rw [run_snoc, heq]
  simp only [Pool.step, Pool.goStep, List.getElem?_cons_succ, List.getElem?_cons_zero, execHold_lateTxn]
  rfl

/-- A hold that is active when the erasure is committed does not keep it from being reported. -/
theorem late_hold_ignored : ¬ (Always (Pool.step startHold (execHold plainSchema)) AllReport
      (Pool.idle fun _ => []) (lateHoldRun ++ [.go 1 lateEnv] ++ [.go 0 lateEnv]) ∧
    Along (Pool.step startHold (execHold plainSchema)) (Pool.AtCommit (Right plainSchema))
      (Pool.idle fun _ => []) (lateHoldRun ++ [.go 1 lateEnv] ++ [.go 0 lateEnv])) := by
  rintro ⟨-, hright⟩
  obtain ⟨k, th, heq⟩ := lateHoldRun_eq
  have hlast := hright.last
  rw [heq] at hlast
  rw [Pool.atCommit_some rfl, right_iff_spared heldDb_consistent] at hlast
  have hspared : Spared plainSchema lateEnv (.erase "t1") heldDb := hlast
  have hself : (eraseRows plainSchema.toSchema "t1" heldDb).1 = heldDb := eraseRows_eq_self_iff.2 fun t ht r hr => by
    rw [heldDb_of_ne fun h => holds_not_covered (h ▸ ht)] at hr
    cases hr
  have hcons : plainSchema.Consistent (eraseRows plainSchema.toSchema "t1" heldDb).1 := by
    rw [hself]
    exact heldDb_consistent
  have hfree : ¬ HasActiveHold "t1" heldDb := (hspared rfl hcons).1
  have hhold : (holdStatement ("lh_" ++ "1") lateHold 0).row (plainSchema.table holdsTable) [] ∈ heldDb holdsTable := by
    simp [heldDb]
  exact hfree ⟨_, hhold, by simp [IsActiveHold, Upsert.row, holdStatement, plainSchema, lateHold]⟩

end ChronoSynth.Privacy

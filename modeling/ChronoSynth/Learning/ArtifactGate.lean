import ChronoSynth.Learning.DistillationService
import Mathlib.Logic.Relation

/-!
# The gate of distillation

What the calls of the service do to the artifacts, however the statements of many calls are interleaved: an artifact is
never lost, its status only moves along the transitions that there are (`Onward`), what is compiled into the core is a
valid artifact of the persona that has been approved, and what no person approves is what the policy lets through
(`Gated`). `Keeps` says what a call leaves, `approve_keeps` and `ingest_keeps` what a result means.
-/

namespace ChronoSynth.Learning

open Lease (LeaseHandle)

/-! ## What becomes of an artifact -/

/-- What was put down. -/
def DistilledArtifact.draft (a : DistilledArtifact) : DistilledArtifact :=
  { a with status := .candidate, reason := none, compiledAt := none, compiledVia := none }

/-- The row is still there, and its status has moved on. -/
def ArtifactRow.Becomes (row row' : ArtifactRow) : Prop :=
  row'.personaId = row.personaId ∧ row'.artifact.draft = row.artifact.draft ∧
    Relation.ReflTransGen canTransition row.artifact.status row'.artifact.status

namespace DistillDb

variable {db db' db'' : DistillDb} {personaId id : String} {a a' : DistilledArtifact}
  {status status' expectedStatus next : ArtifactStatus} {reason : Option StatusReason} {compiledAt : Option ℤ}
  {compiledVia : Option CompiledVia}

/-- No artifact is lost or changed otherwise than by moving on. -/
def Onward (db db' : DistillDb) : Prop :=
  ∀ id row, db.artifacts.get? id = some row → ∃ row', db'.artifacts.get? id = some row' ∧ row.Becomes row'

theorem Onward.refl (db : DistillDb) : db.Onward db := fun _ row h => ⟨row, h, rfl, rfl, .refl⟩

theorem Onward.trans (h : db.Onward db') (h' : db'.Onward db'') : db.Onward db'' := by
  intro id row hrow
  obtain ⟨row₁, hrow₁, hp₁, hd₁, hs₁⟩ := h id row hrow
  obtain ⟨row₂, hrow₂, hp₂, hd₂, hs₂⟩ := h' id row₁ hrow₁
  exact ⟨row₂, hrow₂, hp₂.trans hp₁, hd₂.trans hd₁, hs₁.trans hs₂⟩

/-- The persona has the artifact, which has got to the status or further. -/
def Reached (db : DistillDb) (personaId : String) (a : DistilledArtifact) (status : ArtifactStatus) : Prop :=
  ∃ row, db.artifacts.get? a.id = some row ∧ row.personaId = personaId ∧ row.artifact.draft = a.draft ∧
    Relation.ReflTransGen canTransition status row.artifact.status

theorem Reached.onward (h : db.Reached personaId a status) (hext : db.Onward db') : db'.Reached personaId a status := by
  obtain ⟨row, hrow, hp, hd, hs⟩ := h
  obtain ⟨row', hrow', hp', hd', hs'⟩ := hext _ row hrow
  exact ⟨row', hrow', hp'.trans hp, hd'.trans hd, hs.trans hs'⟩

theorem Reached.same (h : db.Reached personaId a status) (h' : db.Reached personaId a' status') (hid : a'.id = a.id) :
    db.Reached personaId a status' := by
  obtain ⟨row, hrow, hp, hd, -⟩ := h
  obtain ⟨row', hrow', -, -, hs'⟩ := h'
  obtain rfl := Option.some.inj ((hid ▸ hrow').symm.trans hrow)
  exact ⟨row', hrow, hp, hd, hs'⟩

/-- What a call may have executed: a candidate is put down, a status is moved on or marked, by itself only where the
policy lets the candidate through, and what is compiled is a valid artifact of the persona that has been approved. -/
def Gated (policy : DistillationPolicy) (cmd : DistillCmd) (db : DistillDb) : Prop :=
  match cmd with
  | .setStatus personaId id expectedStatus next reason .. =>
    (next = expectedStatus ∨ canTransition expectedStatus next) ∧ (reason = some .autoApproved →
      ∃ a, a.id = id ∧ canAutoCompile a policy ∧ db.Reached personaId a .candidate)
  | .compile personaId a => validateArtifact a = [] ∧ db.Reached personaId a .approved
  | .insert _ _ | .snapshot _ | .rollback _ | .lease _ => True

theorem onward_of_artifacts (h : db'.artifacts = db.artifacts) : db.Onward db' := by
  intro id row hrow
  exact ⟨row, h ▸ hrow, rfl, rfl, .refl⟩

theorem onward_setStatus (h : next = expectedStatus ∨ canTransition expectedStatus next) :
    db.Onward (db.setStatus personaId id expectedStatus next reason compiledAt compiledVia).1 := by
  intro id' row hrow
  simp only [setStatus]
  split
  next row₀ h₀ =>
    obtain ⟨hrow₀, hcond⟩ := Option.filter_eq_some_iff.1 h₀
    rw [decide_eq_true_eq] at hcond
    change ∃ row', (db.artifacts.set (row₀.withStatus next reason compiledAt compiledVia)).get? id' = some row' ∧ _
    rw [RowMap.get?_set]
    have hkey : (row₀.withStatus next reason compiledAt compiledVia).id = id :=
      (RowMap.key_of_get? hrow₀ : row₀.id = id)
    rw [hkey]
    split_ifs with hid
    · subst hid
      obtain rfl := Option.some.inj (hrow₀.symm.trans hrow)
      refine ⟨_, rfl, rfl, rfl, ?_⟩
      rcases h with rfl | h
      · rw [hcond.2]
        exact .refl
      · rw [hcond.2]
        exact .single h
    · exact ⟨row, hrow, rfl, rfl, .refl⟩
  · exact ⟨row, hrow, rfl, rfl, .refl⟩

theorem compile_artifacts (h : db.compile personaId a = some db') : db'.artifacts = db.artifacts := by
  unfold compile at h
  split at h
  · rw [← Option.some.inj h]
  · rw [← Option.some.inj h]
  · obtain ⟨core, -, rfl⟩ := Option.map_eq_some_iff.1 h
    rfl

theorem rollback_artifacts {snapshotId : ℕ} : (db.rollback snapshotId).1.artifacts = db.artifacts := by
  unfold rollback
  split <;> rfl

/-- **What a statement does** to the database some time later: it is executed, reports a failure or throws. -/
theorem exec_cases (o : DistillEnv) (cmd : DistillCmd) (db : DistillDb) :
    ∃ db₁ : DistillDb, db₁.artifacts = db.artifacts ∧ (exec o cmd db = db₁.apply cmd ∨
      (Reports cmd ∧ exec o cmd db = (db₁, .hit false)) ∨ ∃ message, exec o cmd db = (db₁, .threw message)) := by
  refine ⟨{ db with now := db.now + o.elapsed }, rfl, ?_⟩
  unfold exec
  cases o.fault with
  | none => exact .inl rfl
  | fails =>
    by_cases hr : Reports cmd
    · exact .inr (.inl ⟨hr, if_pos hr⟩)
    · exact .inl (if_neg hr)
  | throws message =>
    by_cases hr : Reports cmd
    · exact .inr (.inl ⟨hr, if_pos hr⟩)
    · exact .inr (.inr ⟨message, if_neg hr⟩)

/-- **One statement.** -/
theorem Gated.onward {policy : DistillationPolicy} {cmd : DistillCmd} (h : Gated policy cmd db)
    (o : DistillEnv) : db.Onward (exec o cmd db).1 := by
  obtain ⟨db₁, h₁, he | ⟨-, he⟩ | ⟨message, he⟩⟩ := exec_cases o cmd db
  · refine (onward_of_artifacts h₁).trans ?_
    rw [he]
    cases cmd with
    | insert personaId a =>
      simp only [apply]
      split
      · exact .refl _
      next hnone =>
        intro id row hrow
        refine ⟨row, ?_, rfl, rfl, .refl⟩
        change (db₁.artifacts.set _).get? id = some row
        rw [RowMap.get?_set, if_neg, hrow]
        rintro rfl
        cases hnone.symm.trans hrow
    | setStatus personaId id expectedStatus next reason compiledAt compiledVia => exact onward_setStatus h.1
    | snapshot personaId => exact onward_of_artifacts rfl
    | compile personaId a =>
      simp only [apply]
      split
      next hdb => exact onward_of_artifacts (compile_artifacts hdb)
      · exact .refl _
    | rollback snapshotId => exact onward_of_artifacts rollback_artifacts
    | lease cmd => exact onward_of_artifacts rfl
  · rw [he]
    exact onward_of_artifacts h₁
  · rw [he]
    exact onward_of_artifacts h₁

/-- A status is moved on, or the statement says that it is not. -/
theorem Reached.setStatus (o : DistillEnv) (h : db.Reached personaId a status) :
    let r := exec o (.setStatus personaId a.id expectedStatus next reason compiledAt compiledVia) db
    (r.2 = .hit true ∧ r.1.Reached personaId a next) ∨ r.2 = .hit false ∨ ∃ message, r.2 = .threw message := by
  obtain ⟨row, hrow, hp, hd, -⟩ := h
  obtain ⟨db₁, h₁, he | ⟨⟨⟩, -⟩ | ⟨message, he⟩⟩ :=
    exec_cases o (.setStatus personaId a.id expectedStatus next reason compiledAt compiledVia) db
  · simp only [he, apply, DistillDb.setStatus, h₁, hrow]
    split
    next row₀ h₀ =>
      obtain rfl := Option.some.inj (Option.filter_eq_some_iff.1 h₀).1
      exact .inl ⟨rfl, row.withStatus next reason compiledAt compiledVia,
        RowMap.get?_set.trans (if_pos (RowMap.key_of_get? hrow : row.id = a.id).symm), hp, hd, .refl⟩
    · exact .inr (.inl rfl)
  · exact .inr (.inr ⟨message, by rw [he]⟩)

/-- What is put down is there. -/
theorem reached_insert (o : DistillEnv) (h : a.status = .candidate) :
    let r := exec o (.insert personaId a) db
    (r.2 = .done ∧ r.1.Reached personaId a .candidate) ∨ ∃ message, r.2 = .threw message := by
  obtain ⟨db₁, -, he | ⟨⟨⟩, -⟩ | ⟨message, he⟩⟩ := exec_cases o (.insert personaId a) db
  · simp only [he, apply]
    split
    · exact .inr ⟨_, rfl⟩
    · exact .inl ⟨rfl, ⟨personaId, a⟩, RowMap.get?_set.trans (if_pos rfl), rfl, rfl, h ▸ .refl⟩
  · exact .inr ⟨message, by rw [he]⟩

theorem reached_getById (h : db.getById personaId id = some a) :
    a.id = id ∧ db.Reached personaId a a.status := by
  obtain ⟨row, hrow, rfl⟩ := Option.map_eq_some_iff.1 h
  obtain ⟨hget, hp⟩ := Option.filter_eq_some_iff.1 hrow
  have hid : row.artifact.id = id := (RowMap.key_of_get? hget : row.id = id)
  exact ⟨hid, row, hid ▸ hget, of_decide_eq_true hp, rfl, .refl⟩

end DistillDb

/-! ## What the calls keep to -/

def artifactDiscipline : Discipline DistillDb DistillCmd DistillEnv where
  inv _ := True
  ext := DistillDb.Onward
  guar _ _ := True
  may _ _ _ := True
  ext_refl := .refl
  ext_trans := .trans

/-- The call only has executed what it may, and leaves what `R` says. -/
def Keeps {α : Type} (policy : DistillationPolicy) (R : α → DistillDb → Prop) (p : DistillProg α)
    (db : DistillDb) : Prop :=
  ∀ l, p.Traces artifactDiscipline DistillDb.exec (fun _ => DistillDb.Gated policy) (Prog.Leaves R) l db

/-- A statement that may be executed at any time. -/
def Ungated (policy : DistillationPolicy) (cmd : DistillCmd) : Prop := ∀ db, DistillDb.Gated policy cmd db

section
variable {α β : Type} {policy : DistillationPolicy} {R : α → DistillDb → Prop} {R' : β → DistillDb → Prop}
  {p : DistillProg α} {g : α → DistillProg β} {db : DistillDb} {cmd : DistillCmd} {S : DistillCmd → Prop} {personaId id : String}
  {a : DistilledArtifact} {expectedStatus next status : ArtifactStatus} {reason : Option StatusReason}
  {compiledAt : Option ℤ} {compiledVia : Option CompiledVia}

theorem Keeps.ret {x : α} (h : ∀ db', db.Onward db' → R x db') : Keeps policy R (.ret x) db :=
  fun _ => Prog.Traces.ret fun db' hext _ => h db' hext

theorem Keeps.seq (h : Keeps policy R p db) (hg : ∀ a db', R a db' → Keeps policy R' (g a) db') :
    Keeps policy R' (p >>= g) db :=
  fun l => (h l).seq fun a l' db' ha => hg a db' ha l'

theorem Keeps.uses (h : p.Uses S) (hS : ∀ cmd db', db.Onward db' → S cmd → DistillDb.Gated policy cmd db')
    (hg : ∀ a db', db.Onward db' → Keeps policy R' (g a) db') : Keeps policy R' (p >>= g) db :=
  fun _ => h.seq (fun _ cmd db' hext _ hcmd => ⟨hS cmd db' hext hcmd, fun o => (hS cmd db' hext hcmd).onward o⟩)
    fun a l' db' hext => hg a db' hext l'

/-- A part that may be executed at any time. -/
theorem Keeps.ungated (h : p.Uses (Ungated policy)) (hg : ∀ a db', db.Onward db' → Keeps policy R' (g a) db') :
    Keeps policy R' (p >>= g) db :=
  .uses h (fun _ db' _ hcmd => hcmd db') hg

theorem keeps_of_uses (h : p.Uses (Ungated policy)) : Keeps policy (fun _ _ => True) p db := fun _ =>
  (h.traces_from (fun _ _ db' _ _ hcmd => ⟨hcmd db', fun o => (hcmd db').onward o⟩) (DistillDb.Onward.refl db)).mono
    (fun _ _ _ _ h => h) fun _ _ _ _ _ _ _ => trivial

theorem Keeps.query {f : DistillDb → α} (hg : ∀ a db', db.Onward db' → Keeps policy R' (g a) db') :
    Keeps policy R' (Prog.query f >>= g) db :=
  .ungated Prog.Uses.query hg

theorem Keeps.attempt {R' : Except String α → DistillDb → Prop} (h : Keeps policy R p db)
    (hok : ∀ a db', R a db' → R' (.ok a) db') (herror : ∀ e db', R' (.error e) db') :
    Keeps policy R' (p.attempt : DistillProg (Except String α)) db := by
  refine fun l => ((h l).mono (fun _ _ _ _ h => h) fun l' r db' _ hr => ?_).attempt
  rintro _ ⟨⟩
  cases r with
  | ok a => exact hok a db' (hr a rfl)
  | error e => exact herror e db'

theorem Keeps.extending (h : Keeps policy R p db) : Keeps policy (fun a db' => R a db' ∧ db.Onward db') p db := fun l =>
  ((h l).extending (fun _ _ _ o hcmd => hcmd.onward o) (List.prefix_refl l) (.refl db)).mono (fun _ _ _ _ h => h)
    fun _ _ _ _ h a ha => ⟨h.1 a ha, h.2.2⟩

theorem fetch_uses {f : DistillDb → α} : (fetch f).Uses S := by
  intro o db
  dsimp only
  cases o.fault <;> exact True.intro

theorem fetch_keeps {f : DistillDb → α} :
    Keeps policy (fun r db' => ∃ db₀, r = f db₀ ∧ db₀.Onward db') (fetch f) db := by
  intro l db' _ _ o
  dsimp only
  cases o.fault with
  | throws message => exact .thrown
  | none | fails => exact .ret fun db₂ h₂ _ => ⟨db', rfl, h₂⟩

theorem send_uses (h : S cmd) : (send cmd).Uses S := by
  refine ⟨h, fun r => ?_⟩
  cases r <;> trivial

theorem hits_uses (h : S cmd) : (hits cmd).Uses S := by
  refine (send_uses h).bind fun r => ?_
  cases r <;> trivial

theorem ungated_setStatus (h : next = expectedStatus ∨ canTransition expectedStatus next)
    (hr : reason ≠ some .autoApproved) :
    Ungated policy (.setStatus personaId id expectedStatus next reason compiledAt compiledVia) :=
  fun _ => ⟨h, fun h => absurd h hr⟩

theorem ungated_rollback {snapshotId : ℕ} : Ungated policy (.rollback snapshotId) := fun _ => True.intro

/-- A status that a call has moved on. -/
theorem setStatus_keeps (ha : db.Reached personaId a status)
    (hg : ∀ db', db.Onward db' →
      DistillDb.Gated policy (.setStatus personaId a.id expectedStatus next reason compiledAt compiledVia) db') :
    Keeps policy (fun b db' => b = true → db'.Reached personaId a next)
      (hits (.setStatus personaId a.id expectedStatus next reason compiledAt compiledVia)) db := by
  refine fun l db' h' _ => ⟨hg db' h', fun o => ?_⟩
  obtain ⟨hr, hreached⟩ | hr | ⟨message, hr⟩ := (ha.onward h').setStatus o
  · rw [hr]
    exact .ret fun db₂ h₂ _ _ => hreached.onward h₂
  · rw [hr]
    exact .ret fun _ _ _ hb => nomatch hb
  · rw [hr]
    exact .thrown

theorem insert_keeps (h : a.status = .candidate) :
    Keeps policy (fun _ db' => db'.Reached personaId a .candidate) (send (.insert personaId a)) db := by
  refine fun l db' h' _ => ⟨trivial, fun o => ?_⟩
  obtain ⟨hr, hreached⟩ | ⟨message, hr⟩ := DistillDb.reached_insert o h
  · rw [hr]
    exact .ret fun db₂ h₂ _ => hreached.onward h₂
  · rw [hr]
    exact .thrown

theorem leaseCall_uses (p : Lease.LeaseProg α) : (leaseCall p).Uses (Ungated policy) := by
  induction p with
  | ret a | throw e => exact True.intro
  | read f ih => exact fun _ _ => ih _ _
  | txn t k ih =>
    simp only [leaseCall]
    refine ⟨fun _ => True.intro, fun r => ?_⟩
    cases r with
    | lease r => exact ih r
    | done | hit b | snapshot id | threw message => exact True.intro

end

namespace DistillationDeps

variable (d : DistillationDeps) {personaId : String} {db : DistillDb} {a : DistilledArtifact}

theorem budget_uses : (d.unverifiedGrowthBudgetExceeded personaId).Uses (Ungated d.policy) := by
  unfold unverifiedGrowthBudgetExceeded
  split
  · trivial
  · exact .bind .query fun now => fetch_uses.bind fun count => trivial

theorem compensate_uses {artifactId : String} {snapshotId : ℕ} {why : String} {handle : LeaseHandle} :
    (d.compensateAfterCompile personaId artifactId snapshotId why handle).Uses (Ungated d.policy) := by
  refine .bind .query fun now => (leaseCall_uses _).bind fun kept => ?_
  cases kept with
  | none => trivial
  | some _ =>
    refine (hits_uses ungated_rollback).bind fun restored => ?_
    cases restored with
    | true => exact (hits_uses (ungated_setStatus (.inr (by decide)) (by nofun))).attempt.bind fun _ => trivial
    | false => exact (hits_uses (ungated_setStatus (.inl rfl) (by nofun))).attempt.bind fun _ => trivial

attribute [local irreducible] leaseCall compensateAfterCompile

/-- The artifact has been compiled, if that is the result. -/
def Compiled (personaId : String) (a : DistilledArtifact) (r : CompileResult) (db : DistillDb) : Prop :=
  ∀ a', r = .compiled a' → a'.draft = a.draft ∧ db.Reached personaId a' .compiled

theorem keeps_failed {artifactId : String} {snapshotId : ℕ} {why : String} {handle : LeaseHandle} :
    Keeps d.policy (Compiled personaId a)
      (do d.compensateAfterCompile personaId artifactId snapshotId why handle; return .failed) db :=
  .ungated d.compensate_uses fun _ _ _ => .ret fun _ _ _ h => nomatch h

theorem compileSnapshotted_keeps {via : CompiledVia} {handle : LeaseHandle} (ha : db.Reached personaId a .approved)
    (hv : validateArtifact a = []) :
    Keeps d.policy (Compiled personaId a) (d.compileSnapshotted personaId a via handle) db := by
  refine .ungated (send_uses fun _ => True.intro) fun r db₁ h₁ => ?_
  cases r with
  | snapshot snapshotId =>
    refine .uses (hits_uses rfl) (fun cmd db' h' hcmd => ?_) fun b db₂ h₂ => ?_
    · subst hcmd
      exact ⟨hv, ha.onward (h₁.trans h')⟩
    cases b with
    | true =>
      refine .query fun compiledAt db₃ h₃ => ?_
      have hmoved : Keeps d.policy (fun r db' => r = .ok true → db'.Reached personaId a .compiled)
          (hits (.setStatus personaId a.id .approved .compiled (some (.compiled a.kind.name)) compiledAt via)).attempt
          db₃ :=
        (setStatus_keeps (ha.onward (h₁.trans (h₂.trans h₃))) fun _ _ => ⟨.inr (by decide), by nofun⟩).attempt
          (fun b _ h hb => h (Except.ok.inj hb)) fun _ _ h => nomatch h
      refine hmoved.seq fun r db₄ hr => ?_
      obtain message | b := r
      · exact d.keeps_failed
      cases b with
      | true =>
        refine .ret fun db₅ h₅ a' ha' => ?_
        obtain rfl := CompileResult.compiled.inj ha'
        exact ⟨rfl, (hr rfl).onward h₅⟩
      | false => exact d.keeps_failed
    | false =>
      rw [if_neg Bool.false_ne_true]
      exact d.keeps_failed
  | done | hit b | lease r | threw message => exact .ret fun _ _ _ h => nomatch h

/-- The artifact waits to be compiled, as a candidate only if the policy lets it through. -/
structure Waits (personaId : String) (a : DistilledArtifact) (db : DistillDb) : Prop where
  valid : validateArtifact a = []
  status : (a.status = .candidate ∧ canAutoCompile a d.policy) ∨ a.status = .approved
  reached : db.Reached personaId a a.status

theorem Waits.onward {db' : DistillDb} (h : d.Waits personaId a db) (hext : db.Onward db') : d.Waits personaId a db' :=
  ⟨h.valid, h.status, h.reached.onward hext⟩

theorem advanceCandidate_keeps (h : d.Waits personaId a db) :
    Keeps d.policy
      (fun r db' => ∀ a', r = some a' → (∃ status, a' = { a with status }) ∧ db'.Reached personaId a .approved)
      (advanceCandidate personaId a) db := by
  unfold advanceCandidate
  split
  next hs =>
    obtain ⟨-, hauto⟩ | happroved := h.status
    · have hgated : ∀ db', db.Onward db' → db'.Reached personaId a .candidate := fun _ h' => hs ▸ h.reached.onward h'
      refine (setStatus_keeps h.reached fun db' h' => ⟨.inr (by decide), fun _ => ⟨a, rfl, hauto, hgated db' h'⟩⟩).seq
        fun b db₁ hb => ?_
      cases b with
      | true =>
        refine .ret fun db₂ h₂ a' ha' => ?_
        obtain rfl := Option.some.inj ha'
        exact ⟨⟨.approved, rfl⟩, (hb rfl).onward h₂⟩
      | false => exact .ret fun _ _ _ h => nomatch h
    · cases hs.symm.trans happroved
  next hs =>
    refine .ret fun db₁ h₁ a' ha' => ?_
    obtain rfl := Option.some.inj ha'
    have happroved : a.status = .approved := h.status.resolve_left fun h => hs h.1
    exact ⟨⟨a.status, rfl⟩, happroved ▸ h.reached.onward h₁⟩

theorem compileApprovedLocked_keeps {via : CompiledVia} {checkBudget : Bool} {handle : LeaseHandle}
    (h : d.Waits personaId a db) :
    Keeps d.policy (Compiled personaId a) (d.compileApprovedLocked personaId a via checkBudget handle) db := by
  -- what follows the question of the budget
  have hadvance : ∀ {k : Option DistilledArtifact → DistillProg CompileResult} {db' : DistillDb}, db.Onward db' →
      k none = .ret .failed → (∀ approved, k (some approved) = d.compileSnapshotted personaId approved via handle) →
      Keeps d.policy (Compiled personaId a) (advanceCandidate personaId a >>= k) db' := by
    intro k db' h' hnone hsome
    refine (d.advanceCandidate_keeps (Waits.onward d h h')).seq fun r db₁ hr => ?_
    cases r with
    | none =>
      rw [hnone]
      exact .ret fun _ _ _ h => nomatch h
    | some approved =>
      rw [hsome]
      obtain ⟨⟨status, rfl⟩, hreached⟩ := hr _ rfl
      exact d.compileSnapshotted_keeps (a := { a with status }) hreached h.valid
  cases checkBudget with
  | true =>
    refine .ungated d.budget_uses fun exceeded db' h' => ?_
    cases exceeded with
    | true => exact .ret fun _ _ _ h => nomatch h
    | false => exact hadvance h' rfl fun _ => rfl
  | false => exact hadvance (.refl db) rfl fun _ => rfl

theorem compileApproved_keeps {via : CompiledVia} {checkBudget : Bool} (h : d.Waits personaId a db) :
    Keeps d.policy (Compiled personaId a) (d.compileApproved personaId a via checkBudget) db := by
  refine .query fun now db₁ h₁ => .ungated (leaseCall_uses _) fun handle db₂ h₂ => ?_
  cases handle with
  | none => exact .ret fun _ _ _ h => nomatch h
  | some handle =>
    have hlocked : Keeps d.policy (fun r db' => ∀ c, r = .ok c → Compiled personaId a c db')
        (d.compileApprovedLocked personaId a via checkBudget handle).attempt db₂ :=
      (d.compileApprovedLocked_keeps (Waits.onward d h (h₁.trans h₂))).attempt
        (fun c db' hc c' hc' => Except.ok.inj hc' ▸ hc) fun _ _ _ h => nomatch h
    refine hlocked.seq fun result db₃ hresult => ?_
    refine .ungated (leaseCall_uses _) fun _ db₄ h₄ => ?_
    cases result with
    | ok c =>
      refine .ret fun db₅ h₅ a' ha' => ?_
      obtain ⟨hd, hreached⟩ := hresult c rfl a' ha'
      exact ⟨hd, hreached.onward (h₄.trans h₅)⟩
    | error e => exact fun _ => .thrown

/-! ## The calls -/

theorem finish_keeps {via : CompiledVia} {checkBudget : Bool} (h : d.Waits personaId a db) :
    Keeps d.policy (fun r db' => ∀ a', r = .ok a' → a'.id = a.id ∧ db'.Reached personaId a' .compiled)
      (do return finishCompile (← d.compileApproved personaId a via checkBudget)) db := by
  refine (d.compileApproved_keeps h).seq fun c db₁ hc => ?_
  cases c with
  | compiled a' =>
    refine .ret fun db₂ h₂ a'' ha'' => ?_
    obtain rfl := ReviewResult.ok.inj ha''
    have hid : a'.draft.id = a.draft.id := by rw [(hc _ rfl).1]
    exact ⟨hid, (hc _ rfl).2.onward h₂⟩
  | lease_busy | budget_exceeded | failed => exact .ret fun _ _ _ h => nomatch h

theorem approve_keeps {artifactId : String} :
    Keeps d.policy (fun r db' => ∀ a', r = .ok a' → a'.id = artifactId ∧ db'.Reached personaId a' .compiled)
      (d.approve personaId artifactId) db := by
  refine fetch_keeps.seq fun found db₁ hfound => ?_
  cases found with
  | none => exact .ret fun _ _ _ h => nomatch h
  | some a =>
    obtain ⟨db₀, hget, h₀⟩ := hfound
    obtain ⟨rfl, hreached⟩ := DistillDb.reached_getById hget.symm
    have ha := hreached.onward h₀
    dsimp only
    split_ifs with hs hrepair hv hs' hv'
    · exact .ret fun _ _ _ h => nomatch h
    · exact .ret fun _ _ _ h => nomatch h
    · exact d.finish_keeps ⟨not_not.1 hv, .inr hs, ha⟩
    · exact .ret fun _ _ _ h => nomatch h
    · exact .ret fun _ _ _ h => nomatch h
    · refine (setStatus_keeps ha fun _ _ => ⟨.inr (by decide), by nofun⟩).seq fun b db₂ hb => ?_
      cases b with
      | true => exact d.finish_keeps (a := { a with status := .approved }) ⟨not_not.1 hv', .inr rfl, hb rfl⟩
      | false => exact .ret fun _ _ _ h => nomatch h

theorem reject_uses {artifactId : String} {reason : Text} :
    (reject personaId artifactId reason).Uses (Ungated d.policy) := by
  refine fetch_uses.bind fun found => ?_
  cases found with
  | none => trivial
  | some a =>
    dsimp only
    split_ifs with hs
    · refine (hits_uses (ungated_setStatus (.inr hs) (by nofun))).bind fun b => ?_
      cases b <;> trivial
    · trivial

/-- What `ingest` says of the artifact that it has put down. -/
def Ingested (personaId : String) (payload : Payload) (r : IngestResult) (db : DistillDb) : Prop :=
  (∀ a, r = .compiled a → a.payload = payload ∧ db.Reached personaId a .compiled) ∧
    ∀ a, r = .pending a → a.payload = payload ∧ db.Reached personaId a .candidate

theorem keeps_pending (h : db.Reached personaId a .candidate) :
    Keeps d.policy (Ingested personaId a.payload) (.ret (.pending a)) db := by
  refine .ret fun db' h' => ⟨fun a' ha' => ?_, fun a' ha' => ?_⟩
  · cases ha'
  · obtain rfl := IngestResult.pending.inj ha'
    exact ⟨rfl, h.onward h'⟩

theorem keeps_rejected {payload : Payload} {reason : String} {problems : List String} :
    Keeps d.policy (Ingested personaId payload) (.ret (.rejected reason problems)) db := by
  refine .ret fun db' _ => ⟨fun a' ha' => ?_, fun a' ha' => ?_⟩ <;> cases ha'

theorem ingest_keeps {input : CandidateInput} :
    Keeps d.policy (Ingested personaId input.payload) (d.ingest personaId input) db := by
  refine .ungated Prog.Uses.queryAny fun id db₁ h₁ => .query fun now db₂ h₂ => ?_
  dsimp only
  split_ifs with hv hauto
  · exact d.keeps_rejected
  · refine (insert_keeps rfl).seq fun _ db₃ ha => .ungated d.budget_uses fun exceeded db₄ h₄ => ?_
    cases exceeded with
    | true => exact d.keeps_pending (ha.onward h₄)
    | false =>
      refine (d.compileApproved_keeps ⟨not_not.1 hv, .inl ⟨rfl, hauto⟩, ha.onward h₄⟩).extending.seq fun c db₅ hc => ?_
      obtain ⟨hc, h₅⟩ := hc
      cases c with
      | compiled a' =>
        refine .ret fun db₆ h₆ => ⟨fun a'' ha'' => ?_, fun a'' ha'' => ?_⟩
        · obtain rfl := IngestResult.compiled.inj ha''
          have hpayload : a'.draft.payload = input.payload := by rw [(hc _ rfl).1]; rfl
          exact ⟨hpayload, (hc _ rfl).2.onward h₆⟩
        · cases ha''
      | lease_busy | budget_exceeded => exact d.keeps_pending ((ha.onward h₄).onward h₅)
      | failed => exact d.keeps_rejected
  · exact (insert_keeps rfl).seq fun _ db₃ ha => d.keeps_pending ha

end DistillationDeps

end ChronoSynth.Learning

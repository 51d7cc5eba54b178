import ChronoSynth.Web.InMemoryTables

/-!
# The unit of work of the web adapter

Translation of `adapter-web/web-unit-of-work.ts`. `Code` is a program that uses it: what it does next may depend on
every answer it gets, and on what a block throws, so that it may catch that or throw it on.

A block within a block is run with the tables as they come (`run_inner`): the snapshot that is kept is that of the
outermost one. `atomic_iff` says for which programs that is no matter.
-/

namespace ChronoSynth.Web

variable {P V E : Type}

/-! ## Registered handlers -/

inductive QueryResult (V : Type)
  | nothing
  | one (v : V)
  | many (vs : List V)

structure Registry (P V E : Type) where
  query : String → Option (P → Tables → Except E (QueryResult V))
  /-- The handler of a command, which may have changed the tables when it throws. -/
  command : String → Option (P → Tables → Tables × Except E ℕ)

inductive WebError (E : Type)
  | noQuery (kind : String)
  | noCommand (kind : String)
  | thrown (e : E)
  deriving DecidableEq

def WebError.message (text : E → String) : WebError E → String
  | .noQuery kind => s!"no executor registered for query kind: {kind}"
  | .noCommand kind => s!"no executor registered for command kind: {kind}"
  | .thrown e => text e

variable (registry : Registry P V E)

def runQuery (kind : String) (params : P) (tables : Tables) : Except (WebError E) (QueryResult V) :=
  match registry.query kind with
  | none => .error (.noQuery kind)
  | some handler => (handler params tables).mapError .thrown

def queryOne (kind : String) (params : P) (tables : Tables) : Except (WebError E) (Option V) := do
  match ← runQuery registry kind params tables with
  | .nothing => return none
  | .one v => return some v
  | .many vs => return vs.head?

def queryMany (kind : String) (params : P) (tables : Tables) : Except (WebError E) (List V) := do
  match ← runQuery registry kind params tables with
  | .nothing => return []
  | .one v => return [v]
  | .many vs => return vs

def execute (kind : String) (params : P) (tables : Tables) : Tables × Except (WebError E) ℕ :=
  match registry.command kind with
  | none => (tables, .error (.noCommand kind))
  | some handler => ((handler params tables).1, (handler params tables).2.mapError .thrown)

/-! ## Programs -/

variable (P V E) in
/-- A program on the unit of work. -/
inductive Code
  | ret (v : V)
  | throw (e : WebError E)
  | queryOne (kind : String) (params : P) (k : Except (WebError E) (Option V) → Code)
  | queryMany (kind : String) (params : P) (k : Except (WebError E) (List V) → Code)
  | execute (kind : String) (params : P) (k : Except (WebError E) ℕ → Code)
  | transaction (body : Code) (k : Except (WebError E) V → Code)

structure UnitOfWork where
  tables : Tables
  depth : ℕ
  rollbackSnapshot : Option Tables
  /-- How often the listeners have been told of a commit. -/
  commits : ℕ

/-- A block is entered. -/
def UnitOfWork.enter (u : UnitOfWork) : UnitOfWork where
  tables := u.tables
  depth := u.depth + 1
  rollbackSnapshot := if u.depth = 0 then some u.tables.cloneState else u.rollbackSnapshot
  commits := u.commits

/-- A block is left with a value. -/
def UnitOfWork.leave (u : UnitOfWork) : UnitOfWork :=
  let u := { u with depth := u.depth - 1 }
  if u.depth = 0 then { u with rollbackSnapshot := none, commits := u.commits + 1 } else u

/-- A block is left with an error. -/
def UnitOfWork.abort (u : UnitOfWork) : UnitOfWork :=
  let u := { u with depth := u.depth - 1 }
  match u.rollbackSnapshot with
  | some snapshot => if u.depth = 0 then { u with tables := snapshot.replaceWith, rollbackSnapshot := none } else u
  | none => u

/-- A block is left. -/
def UnitOfWork.exit (u : UnitOfWork) : Except (WebError E) V → UnitOfWork
  | .ok _ => u.leave
  | .error _ => u.abort

/-- What a program does. -/
def runCode : Code P V E → UnitOfWork → UnitOfWork × Except (WebError E) V
  | .ret v, u => (u, .ok v)
  | .throw e, u => (u, .error e)
  | .queryOne kind params k, u => runCode (k (queryOne registry kind params u.tables)) u
  | .queryMany kind params k, u => runCode (k (queryMany registry kind params u.tables)) u
  | .execute kind params k, u =>
    runCode (k (execute registry kind params u.tables).2) { u with tables := (execute registry kind params u.tables).1 }
  | .transaction body k, u =>
    let r := runCode body u.enter
    runCode (k r.2) (r.1.exit r.2)

/-! ## Atomic blocks -/

/-- Every block that throws leaves the tables as they were when it was entered. -/
def Atomic : Code P V E → UnitOfWork → Prop
  | .ret _, _ | .throw _, _ => True
  | .queryOne kind params k, u => Atomic (k (queryOne registry kind params u.tables)) u
  | .queryMany kind params k, u => Atomic (k (queryMany registry kind params u.tables)) u
  | .execute kind params k, u =>
    Atomic (k (execute registry kind params u.tables).2) { u with tables := (execute registry kind params u.tables).1 }
  | .transaction body k, u =>
    let r := runCode registry body u.enter
    Atomic body u.enter ∧ (∀ e, r.2 = .error e → (r.1.exit r.2).tables = u.tables) ∧ Atomic (k r.2) (r.1.exit r.2)

/-- What a program does where its blocks are no transactions. -/
def plain : Code P V E → Tables → Tables × Except (WebError E) V
  | .ret v, tables => (tables, .ok v)
  | .throw e, tables => (tables, .error e)
  | .queryOne kind params k, tables => plain (k (queryOne registry kind params tables)) tables
  | .queryMany kind params k, tables => plain (k (queryMany registry kind params tables)) tables
  | .execute kind params k, tables =>
    plain (k (execute registry kind params tables).2) (execute registry kind params tables).1
  | .transaction body k, tables => plain (k (plain body tables).2) (plain body tables).1

/-- No block throws after its statements have changed the tables. -/
def Unspoilt : Code P V E → Tables → Prop
  | .ret _, _ | .throw _, _ => True
  | .queryOne kind params k, tables => Unspoilt (k (queryOne registry kind params tables)) tables
  | .queryMany kind params k, tables => Unspoilt (k (queryMany registry kind params tables)) tables
  | .execute kind params k, tables =>
    Unspoilt (k (execute registry kind params tables).2) (execute registry kind params tables).1
  | .transaction body k, tables =>
    Unspoilt body tables ∧ (∀ e, (plain registry body tables).2 = .error e → (plain registry body tables).1 = tables) ∧
      Unspoilt (k (plain registry body tables).2) (plain registry body tables).1

/-- The tables after an outermost block: those its statements leave, or those of the snapshot. -/
def afterBlock (before : Tables) (r : Tables × Except (WebError E) V) : Tables :=
  match r.2 with
  | .ok _ => r.1
  | .error _ => before.cloneState.replaceWith

/-- No block within a block throws after its statements have changed the tables, and no table is called `__proto__`
where an outermost block throws. -/
def RollsBack : Code P V E → Tables → Prop
  | .ret _, _ | .throw _, _ => True
  | .queryOne kind params k, tables => RollsBack (k (queryOne registry kind params tables)) tables
  | .queryMany kind params k, tables => RollsBack (k (queryMany registry kind params tables)) tables
  | .execute kind params k, tables =>
    RollsBack (k (execute registry kind params tables).2) (execute registry kind params tables).1
  | .transaction body k, tables =>
    let r := plain registry body tables
    Unspoilt registry body tables ∧ (∀ e, r.2 = .error e → tables "__proto__" = none) ∧
      RollsBack (k r.2) (afterBlock tables r)

/-! ## Blocks within blocks -/

variable {registry} {code : Code P V E} {u : UnitOfWork}

@[simp] theorem UnitOfWork.enter_tables : u.enter.tables = u.tables := rfl

theorem UnitOfWork.enter_inner (h : 0 < u.depth) : u.enter = { u with depth := u.depth + 1 } := by
  unfold UnitOfWork.enter
  rw [if_neg h.ne']

theorem UnitOfWork.exit_inner {r : Except (WebError E) V} (h : 0 < u.depth) {tables : Tables} :
    UnitOfWork.exit ⟨tables, u.depth + 1, u.rollbackSnapshot, u.commits⟩ r =
      { u with tables := tables } := by
  cases r with
  | ok v =>
    change UnitOfWork.leave _ = _
    unfold UnitOfWork.leave
    simp only [Nat.add_sub_cancel, if_neg h.ne']
  | error e =>
    change UnitOfWork.abort _ = _
    unfold UnitOfWork.abort
    cases hs : u.rollbackSnapshot with
    | none => simp only [Nat.add_sub_cancel]
    | some snapshot => simp only [Nat.add_sub_cancel, if_neg h.ne']

/-- **Within a block** a program is run with the tables as they come. -/
theorem run_inner (h : 0 < u.depth) :
    runCode registry code u = ({ u with tables := (plain registry code u.tables).1 }, (plain registry code u.tables).2) := by
  induction code generalizing u with
  | ret v | throw e => rfl
  | queryOne kind params k ih | queryMany kind params k ih => exact ih _ h
  | execute kind params k ih => exact ih _ h
  | transaction body k ihb ihk =>
    have hbody := ihb (u := u.enter) (Nat.succ_pos _)
    rw [UnitOfWork.enter_inner h] at hbody
    have hstep : runCode registry (.transaction body k) u =
        runCode registry (k (plain registry body u.tables).2) { u with tables := (plain registry body u.tables).1 } := by
      change runCode registry (k (runCode registry body u.enter).2)
        ((runCode registry body u.enter).1.exit (runCode registry body u.enter).2) = _
      rw [UnitOfWork.enter_inner h, hbody, UnitOfWork.exit_inner h]
    rw [hstep]
    exact ihk _ h

theorem atomic_inner_iff (h : 0 < u.depth) : Atomic registry code u ↔ Unspoilt registry code u.tables := by
  induction code generalizing u with
  | ret v | throw e => exact Iff.rfl
  | queryOne kind params k ih | queryMany kind params k ih => exact ih _ h
  | execute kind params k ih => exact ih _ h
  | transaction body k ihb ihk =>
    have hpos : 0 < u.enter.depth := Nat.succ_pos _
    have hbody : runCode registry body u.enter = ({ u.enter with tables := (plain registry body u.tables).1 },
        (plain registry body u.tables).2) := run_inner hpos
    have hexit : UnitOfWork.exit { u.enter with tables := (plain registry body u.tables).1 }
        (plain registry body u.tables).2 = { u with tables := (plain registry body u.tables).1 } := by
      rw [UnitOfWork.enter_inner h]
      exact UnitOfWork.exit_inner h
    simp only [Atomic, Unspoilt, hbody, hexit]
    exact and_congr (ihb hpos) (and_congr_right fun _ => ihk _ h)

/-! ## Outermost blocks -/

/-- A unit of work that no block is using. -/
def UnitOfWork.Idle (u : UnitOfWork) : Prop := u.depth = 0 ∧ u.rollbackSnapshot = none

theorem UnitOfWork.exit_outer {r : Tables × Except (WebError E) V} (h : u.Idle) :
    UnitOfWork.exit { u.enter with tables := r.1 } r.2 =
      { u with tables := afterBlock u.tables r, commits := u.commits + if r.2.isOk then 1 else 0 } := by
  obtain ⟨tables, depth, snapshot, commits⟩ := u
  obtain ⟨rfl, rfl⟩ : depth = 0 ∧ snapshot = none := h
  obtain ⟨t, v | e⟩ := r <;> rfl

theorem run_outer {body : Code P V E} {k : Except (WebError E) V → Code P V E} (h : u.Idle) :
    runCode registry (.transaction body k) u = runCode registry (k (plain registry body u.tables).2)
      { u with
        tables := afterBlock u.tables (plain registry body u.tables)
        commits := u.commits + if (plain registry body u.tables).2.isOk then 1 else 0 } := by
  have hbody : runCode registry body u.enter = ({ u.enter with tables := (plain registry body u.tables).1 },
      (plain registry body u.tables).2) := run_inner (Nat.succ_pos _)
  change runCode registry (k (runCode registry body u.enter).2)
    ((runCode registry body u.enter).1.exit (runCode registry body u.enter).2) = _
  rw [hbody, UnitOfWork.exit_outer h]

/-- A program leaves no block open, and takes back no commit. -/
theorem run_idle (h : u.Idle) : (runCode registry code u).1.Idle ∧ u.commits ≤ (runCode registry code u).1.commits := by
  induction code generalizing u with
  | ret v | throw e => exact ⟨h, le_rfl⟩
  | queryOne kind params k ih | queryMany kind params k ih => exact ih _ h
  | execute kind params k ih => exact ih _ h
  | transaction body k _ ihk =>
    rw [run_outer h]
    obtain ⟨hidle, hle⟩ := ihk (plain registry body u.tables).2 (u :=
      ⟨afterBlock u.tables (plain registry body u.tables), u.depth, u.rollbackSnapshot,
        u.commits + if (plain registry body u.tables).2.isOk then 1 else 0⟩) h
    exact ⟨hidle, (Nat.le_add_right _ _).trans hle⟩

/-- **Exactly when a program's blocks are atomic**. -/
theorem atomic_iff (h : u.Idle) : Atomic registry code u ↔ RollsBack registry code u.tables := by
  induction code generalizing u with
  | ret v | throw e => exact Iff.rfl
  | queryOne kind params k ih | queryMany kind params k ih => exact ih _ h
  | execute kind params k ih => exact ih _ h
  | transaction body k _ ihk =>
    have hbody : runCode registry body u.enter = ({ u.enter with tables := (plain registry body u.tables).1 },
        (plain registry body u.tables).2) := run_inner (Nat.succ_pos _)
    simp only [Atomic, RollsBack, hbody, UnitOfWork.exit_outer h]
    refine and_congr (atomic_inner_iff (Nat.succ_pos _)) (and_congr (forall_congr' fun e => ?_) (ihk _ h))
    refine imp_congr_right fun he => ?_
    rw [afterBlock, he]
    exact Tables.replaceWith_cloneState_iff

end ChronoSynth.Web

import ChronoSynth.Edge.ValueStore
import ChronoSynth.Lib.Client
import ChronoSynth.Lib.RowMap

/-!
# Three hosts of the values

The kernel's value service reaches the values of a persona through seven kinds of query and command, which a host
registers executors for: SQL on `core_values`, the tables of the web adapter, and the map of a device, which
serves one persona and keeps none in its rows.

* What a call has written when it throws stays written, and a transaction that throws is taken back
  (`Client`). What a call throws is not told apart; that it throws is.
* SQLite makes `NULL` of a number that is none, which every column refuses, checks the weight, and its driver
  throws on an integer it cannot read as a number.
* The database is that of one tenant. Texts are stored as they are.
* The list of all values is handed on as a map.

`hosts_iff` says when the hosts agree and keep personas apart. The two things that can go wrong are those the
executors leave to SQLite: nothing else checks what is upserted, and the primary key is the id alone.
-/

namespace ChronoSynth.Edge

/-- A row of `core_values`. -/
structure ValueRow where
  personaId : String
  value : CoreValue
  deriving DecidableEq

inductive HostError
  /-- The value service refuses an argument. -/
  | invalid (error : ValueError)
  /-- SQLite refuses a row. -/
  | constraint
  /-- The driver cannot read an integer. -/
  | outOfRange
  /-- The id is there already. -/
  | exists (id : String)
  deriving DecidableEq

/-- The executors of a host: the state of the host, and what it answers or throws. -/
structure ValueExecutors (σ : Type) where
  byId (id personaId : String) : EStateM HostError σ (Option CoreValue)
  all (personaId : String) : EStateM HostError σ (List CoreValue)
  create (personaId : String) (p : CoreValue) : EStateM HostError σ ℕ
  update (id personaId : String) (patch : CoreValuePatch) (updatedAt : JsFloat) : EStateM HostError σ ℕ
  delete (id personaId : String) : EStateM HostError σ ℕ
  deleteAll (personaId : String) : EStateM HostError σ ℕ
  upsert (personaId : String) (p : CoreValue) : EStateM HostError σ ℕ

/-! ## The value service -/

section
variable {σ : Type} (tx : ValueExecutors σ) (personaId : String)

def check : Except ValueError Unit → EStateM HostError σ Unit
  | .ok () => pure ()
  | .error e => throw (.invalid e)

/-- The rows in a `Map`, in which a later one takes the place of an earlier. -/
def valueMap (values : List CoreValue) (id : String) : Option CoreValue :=
  values.reverse.find? fun v => v.id = id

def ValueExecutors.call : ValueOp → EStateM HostError σ ValueAnswer
  | .createValue id now label weight timeDiscount emotionAmplifier => do
    check (assertWeight weight)
    check (assertTimeDiscount timeDiscount)
    check (assertEmotionAmplifier emotionAmplifier)
    let _ ← tx.create personaId ⟨id, label, weight, timeDiscount, emotionAmplifier, now⟩
    return .value (some ⟨id, label, weight, timeDiscount, emotionAmplifier, now⟩)
  | .updateValue now id patch => do
    check (assertGiven assertWeight patch.weight)
    check (assertGiven assertTimeDiscount patch.timeDiscount)
    check (assertGiven assertEmotionAmplifier patch.emotionAmplifier)
    if patch.isEmpty then
      let v ← tx.byId id personaId
      return .value v
    else
      let rowsAffected ← tx.update id personaId patch now
      if rowsAffected = 0 then return .value none
      else
        let v ← tx.byId id personaId
        return .value v
  | .getValueById id => do
    let v ← tx.byId id personaId
    return .value v
  | .getAllValues => do
    let values ← tx.all personaId
    return .values (valueMap values)
  | .deleteValue id => do
    let rowsAffected ← tx.delete id personaId
    return .deleted (rowsAffected > 0)
  | .deleteAllValues => do
    let _ ← tx.deleteAll personaId
    return .done
  | .upsertValue value => do
    let timeDiscount := if value.timeDiscount.IsFinite then value.timeDiscount else half
    let emotionAmplifier := if value.emotionAmplifier.IsFinite then value.emotionAmplifier else one
    let _ ← tx.upsert personaId
      { value with timeDiscount := timeDiscount, emotionAmplifier := emotionAmplifier }
    return .done

/-- A call of a persona, as a client sees it. -/
def ValueExecutors.step (c : String × ValueOp) (s : σ) : σ × Option ValueAnswer :=
  match (tx.call c.1 c.2).run s with
  | .ok a s' => (s', some a)
  | .error _ s' => (s', none)

end

/-! ## SQL -/

/-- The rows of a table with the primary key `id`. -/
abbrev ValueRows := RowMap fun row : ValueRow => row.value.id

/-- A number that is `NULL` to SQLite. -/
def isNull (x : JsFloat) : Prop := x = .nan

instance : DecidablePred isNull := fun x => inferInstanceAs (Decidable (x = .nan))

/-- The constraints of the columns. -/
structure Storable (v : CoreValue) : Prop where
  weight_check : v.weight.InRange 0 1
  weight : ¬ isNull v.weight
  timeDiscount : ¬ isNull v.timeDiscount
  emotionAmplifier : ¬ isNull v.emotionAmplifier
  updatedAt : ¬ isNull v.updatedAt

instance (v : CoreValue) : Decidable (Storable v) :=
  decidable_of_iff (v.weight.InRange 0 1 ∧ ¬ isNull v.weight ∧ ¬ isNull v.timeDiscount ∧
    ¬ isNull v.emotionAmplifier ∧ ¬ isNull v.updatedAt)
    ⟨fun ⟨h, h₁, h₂, h₃, h₄⟩ => ⟨h, h₁, h₂, h₃, h₄⟩, fun ⟨h, h₁, h₂, h₃, h₄⟩ => ⟨h, h₁, h₂, h₃, h₄⟩⟩

/-- A number that an `INTEGER` column holds as an integer and the driver cannot read as a number. -/
def isWide : JsFloat → Prop
  | .finite x => x.val.den = 1 ∧ 2 ^ 53 ≤ |x.val| ∧ |x.val| < 2 ^ 63
  | .nan | .infinite _ => False

instance : DecidablePred isWide
  | .finite x => inferInstanceAs (Decidable (x.val.den = 1 ∧ 2 ^ 53 ≤ |x.val| ∧ |x.val| < 2 ^ 63))
  | .nan | .infinite _ => inferInstanceAs (Decidable False)

/-- A row is read. -/
def toValue (row : ValueRow) : Except HostError CoreValue :=
  if isWide row.value.updatedAt then .error .outOfRange else .ok row.value

/-- An error of a query. -/
def answer {σ α : Type} : Except HostError α → EStateM HostError σ α
  | .ok a => pure a
  | .error e => throw e

def sqlExecutors : ValueExecutors ValueRows where
  byId id personaId := do
    let rows ← get
    match (rows.get? id).filter fun row => row.personaId = personaId with
    | none => return none
    | some row =>
      let v ← answer (toValue row)
      return some v
  all personaId := do
    let rows ← get
    answer ((rows.rows.filter fun row => row.personaId = personaId).mapM toValue)
  create personaId p := do
    let rows ← get
    if ¬ Storable p then throw .constraint
    else match rows.get? p.id with
      | some _ => throw (.exists p.id)
      | none =>
        set (rows.set ⟨personaId, p⟩)
        return 1
  update id personaId patch updatedAt := do
    let rows ← get
    match (rows.get? id).filter fun row => row.personaId = personaId with
    | none => return 0
    | some row =>
      if ¬ Storable (patch.apply updatedAt row.value) then throw .constraint
      else
        set (rows.set ⟨row.personaId, patch.apply updatedAt row.value⟩)
        return 1
  delete id personaId := do
    let rows ← get
    match (rows.get? id).filter fun row => row.personaId = personaId with
    | none => return 0
    | some _ =>
      set (rows.erase id)
      return 1
  deleteAll personaId := do
    let rows ← get
    set (rows.keep fun row => row.personaId ≠ personaId)
    return 0
  -- the conflict is one of ids alone, and the row goes to the persona that upserts it
  upsert personaId p := do
    let rows ← get
    if ¬ Storable p then throw .constraint
    else
      set (rows.set ⟨personaId, p⟩)
      return 1

/-! ## The tables of the web adapter -/

/-- The table, once it has been defined. -/
abbrev WebValues := Option ValueRows

/-- `defineTable`, unless it is there, and its rows. -/
def defineValues : EStateM HostError WebValues ValueRows := do
  match ← get with
  | some rows => return rows
  | none =>
    set (some RowMap.empty : WebValues)
    return RowMap.empty

def webExecutors : ValueExecutors WebValues where
  byId id personaId := do
    let rows ← defineValues
    return ((rows.rows.find? fun row => row.value.id = id ∧ row.personaId = personaId).map ValueRow.value)
  all personaId := do
    let rows ← defineValues
    return (rows.rows.filter fun row => row.personaId = personaId).map ValueRow.value
  create personaId p := do
    let rows ← defineValues
    match rows.rows.find? fun row => row.value.id = p.id with
    | some _ => throw (.exists p.id)
    | none =>
      set (some (rows.set ⟨personaId, p⟩) : WebValues)
      return 1
  update id personaId patch updatedAt := do
    match ← get with
    | none => return 0
    | some rows =>
      match rows.rows.find? fun row => row.value.id = id ∧ row.personaId = personaId with
      | none => return 0
      | some row =>
        set (some (rows.set ⟨personaId, patch.apply updatedAt row.value⟩) : WebValues)
        return 1
  delete id personaId := do
    match ← get with
    | none => return 0
    | some rows =>
      match rows.rows.find? fun row => row.value.id = id ∧ row.personaId = personaId with
      | none => return 0
      | some _ =>
        set (some (rows.erase id) : WebValues)
        return if id ∈ rows.rows.map (fun row => row.value.id) then 1 else 0
  deleteAll personaId := do
    match ← get with
    | none => return 0
    | some rows =>
      let mine := rows.rows.filter fun row => row.personaId = personaId
      set (some (mine.foldl (fun rows row => rows.erase row.value.id) rows) : WebValues)
      return mine.length
  upsert personaId p := do
    let rows ← defineValues
    set (some (rows.set ⟨personaId, p⟩) : WebValues)
    return 1

/-! ## The map of a device -/

def memoryExecutors : ValueExecutors ValueStore where
  byId id _ := do
    let s ← get
    return s.lookup id
  all _ := do
    let s ← get
    return s.rows
  create _ p := do
    let s ← get
    match s.lookup p.id with
    | some _ => throw (.exists p.id)
    | none =>
      set (s.set p)
      return 1
  update id _ patch updatedAt := do
    let s ← get
    match s.lookup id with
    | none => return 0
    | some v =>
      set (s.set (patch.apply updatedAt v))
      return 1
  delete id _ := do
    let s ← get
    set (s.delete id)
    return if (s.lookup id).isSome then 1 else 0
  deleteAll _ := do
    set ValueStore.empty
    return 0
  upsert _ p := do
    let s ← get
    set (s.set p)
    return 1

/-! ## What the hosts stand for -/

abbrev Values := String → Option ValueRow

namespace Values

variable (f : Values) (personaId id : String)

def held : Option CoreValue := ((f id).filter fun row => row.personaId = personaId).map ValueRow.value

def put (row : Option ValueRow) : Values := fun id' => if id' = id then row else f id'

/-- The arguments pass the checks of the value service. -/
def Accepted : ValueOp → Prop
  | .createValue _ _ _ weight timeDiscount emotionAmplifier =>
    weight.InRange 0 1 ∧ timeDiscount.InRange 0 1 ∧ emotionAmplifier.InRange (1 / 2) 2
  | .updateValue _ _ patch =>
    (∀ x ∈ patch.weight, x.InRange 0 1) ∧ (∀ x ∈ patch.timeDiscount, x.InRange 0 1) ∧
      ∀ x ∈ patch.emotionAmplifier, x.InRange (1 / 2) 2
  | _ => True

instance : DecidablePred Accepted := fun op => by
  cases op <;> unfold Accepted <;> infer_instance

def upserted (value : CoreValue) : CoreValue :=
  { value with
    timeDiscount := if value.timeDiscount.IsFinite then value.timeDiscount else half
    emotionAmplifier := if value.emotionAmplifier.IsFinite then value.emotionAmplifier else one }

/-- What a call is to do. -/
def step (c : String × ValueOp) (f : Values) : Values × Option ValueAnswer :=
  if Accepted c.2 then
    match c.2 with
    | .createValue id now label weight timeDiscount emotionAmplifier =>
      match f id with
      | some _ => (f, none)
      | none =>
        let v : CoreValue := ⟨id, label, weight, timeDiscount, emotionAmplifier, now⟩
        (f.put id (some ⟨c.1, v⟩), some (.value (some v)))
    | .updateValue now id patch =>
      if patch.isEmpty then (f, some (.value (f.held c.1 id)))
      else match f.held c.1 id with
        | none => (f, some (.value none))
        | some v => (f.put id (some ⟨c.1, patch.apply now v⟩), some (.value (some (patch.apply now v))))
    | .getValueById id => (f, some (.value (f.held c.1 id)))
    | .getAllValues => (f, some (.values (f.held c.1)))
    | .deleteValue id =>
      match f.held c.1 id with
      | none => (f, some (.deleted false))
      | some _ => (f.put id none, some (.deleted true))
    | .deleteAllValues => (fun id => (f id).filter fun row => row.personaId ≠ c.1, some .done)
    | .upsertValue value => (f.put value.id (some ⟨c.1, upserted value⟩), some .done)
  else (f, none)

end Values

/-! ## The checks of the service -/

section
variable {σ : Type} {tx : ValueExecutors σ} {s : σ} {personaId : String}

theorem checks_pass {α : Type} {r₁ r₂ r₃ : Except ValueError Unit} (x : EStateM HostError σ α)
    (h : r₁ = .ok () ∧ r₂ = .ok () ∧ r₃ = .ok ()) : (do check r₁; check r₂; check r₃; x) = x := by
  obtain ⟨rfl, rfl, rfl⟩ := h
  rfl

theorem checks_fail {α : Type} {r₁ r₂ r₃ : Except ValueError Unit} (x : EStateM HostError σ α)
    (h : ¬ (r₁ = .ok () ∧ r₂ = .ok () ∧ r₃ = .ok ())) :
    ∃ e, (do check r₁; check r₂; check r₃; x) s = .error e s := by
  cases r₁ with
  | error e => exact ⟨_, rfl⟩
  | ok =>
    cases r₂ with
    | error e => exact ⟨_, rfl⟩
    | ok =>
      cases r₃ with
      | error e => exact ⟨_, rfl⟩
      | ok => exact absurd ⟨rfl, rfl, rfl⟩ h

theorem accepted_create {id label : String} {now weight timeDiscount emotionAmplifier : JsFloat} :
    Values.Accepted (.createValue id now label weight timeDiscount emotionAmplifier) ↔
      assertWeight weight = .ok () ∧ assertTimeDiscount timeDiscount = .ok () ∧
        assertEmotionAmplifier emotionAmplifier = .ok () :=
  and_congr ensure_ok.symm (and_congr ensure_ok.symm ensure_ok.symm)

theorem accepted_update {now : JsFloat} {id : String} {patch : CoreValuePatch} :
    Values.Accepted (.updateValue now id patch) ↔
      assertGiven assertWeight patch.weight = .ok () ∧
        assertGiven assertTimeDiscount patch.timeDiscount = .ok () ∧
        assertGiven assertEmotionAmplifier patch.emotionAmplifier = .ok () :=
  and_congr assertGiven_ok.symm (and_congr assertGiven_ok.symm assertGiven_ok.symm)

/-- A check that fails throws, and nothing has been written. -/
theorem step_refused {op : ValueOp} (h : ¬ Values.Accepted op) : tx.step (personaId, op) s = (s, none) := by
  have hrefused : ∃ e, tx.call personaId op s = .error e s := by
    cases op with
    | createValue id now label weight timeDiscount emotionAmplifier =>
      exact checks_fail _ (mt accepted_create.2 h)
    | updateValue now id patch =>
      exact checks_fail _ (mt accepted_update.2 h)
    | _ => exact absurd trivial h
  obtain ⟨e, he⟩ := hrefused
  simp [ValueExecutors.step, EStateM.run, he]

theorem step_create {id label : String} {now weight timeDiscount emotionAmplifier : JsFloat}
    (h : Values.Accepted (.createValue id now label weight timeDiscount emotionAmplifier)) :
    tx.step (personaId, .createValue id now label weight timeDiscount emotionAmplifier) s =
      match tx.create personaId ⟨id, label, weight, timeDiscount, emotionAmplifier, now⟩ s with
      | .ok _ s' => (s', some (.value (some ⟨id, label, weight, timeDiscount, emotionAmplifier, now⟩)))
      | .error _ s' => (s', none) := by
  simp only [ValueExecutors.step, ValueExecutors.call, EStateM.run, checks_pass _ (accepted_create.1 h)]
  simp only [bind, EStateM.bind]
  cases tx.create personaId ⟨id, label, weight, timeDiscount, emotionAmplifier, now⟩ s <;> rfl

theorem step_update {now : JsFloat} {id : String} {patch : CoreValuePatch}
    (h : Values.Accepted (.updateValue now id patch)) :
    tx.step (personaId, .updateValue now id patch) s =
      if patch.isEmpty then tx.step (personaId, .getValueById id) s
      else match tx.update id personaId patch now s with
        | .ok rowsAffected s' =>
          if rowsAffected = 0 then (s', some (.value none)) else tx.step (personaId, .getValueById id) s'
        | .error _ s' => (s', none) := by
  simp only [ValueExecutors.step, ValueExecutors.call, EStateM.run, checks_pass _ (accepted_update.1 h)]
  split_ifs
  · rfl
  · simp only [bind, EStateM.bind]
    cases tx.update id personaId patch now s with
    | error e s' => rfl
    | ok rowsAffected s' =>
      simp only
      split_ifs <;> rfl

theorem step_upsert {value : CoreValue} :
    tx.step (personaId, .upsertValue value) s =
      match tx.upsert personaId (Values.upserted value) s with
      | .ok _ s' => (s', some .done)
      | .error _ s' => (s', none) := by
  change (match (tx.upsert personaId (Values.upserted value) >>= fun _ => pure ValueAnswer.done) s with
    | .ok a s' => (s', some a)
    | .error _ s' => (s', none)) = _
  simp only [bind, EStateM.bind]
  cases tx.upsert personaId (Values.upserted value) s <;> rfl

end

end ChronoSynth.Edge

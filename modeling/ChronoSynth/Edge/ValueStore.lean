import ChronoSynth.Lib.JsonValue
import ChronoSynth.Lib.JsText
import ChronoSynth.Lib.Run
import Mathlib.Data.List.Nodup

/-!
# The values of a device

Translation of `edge/host/in-memory-value-uow.ts` and of the kernel's `value-service.ts` that runs on it. The values
are a map from ids in the order of insertion. What is told apart of two stores is what they have under an id
(`lookup`): the sorted list of all values is handed on as a map.

`survives_iff` says when a store survives a restart: where a value service checks, the restore checks the same, but
`upsertValue` checks nothing.
-/

namespace ChronoSynth.Edge

structure CoreValue where
  id : String
  label : String
  weight : JsFloat
  timeDiscount : JsFloat
  emotionAmplifier : JsFloat
  updatedAt : JsFloat
  deriving DecidableEq

structure CoreValuePatch where
  weight : Option JsFloat
  timeDiscount : Option JsFloat
  emotionAmplifier : Option JsFloat

/-- The values, each under its id. -/
structure ValueStore where
  rows : List CoreValue
  nodup : (rows.map CoreValue.id).Nodup

inductive ValueError
  | weight (weight : JsFloat)
  | timeDiscount (value : JsFloat)
  | emotionAmplifier (value : JsFloat)
  | conflict (id : String)
  | syntaxError
  | version (version : String)
  | format
  | notArray
  | malformedRow
  deriving DecidableEq

def ValueError.message : ValueError → String
  | .weight x => s!"价值权重必须在 0-1 之间，收到 {x.text}"
  | .timeDiscount x => s!"时间折扣必须在 0-1 之间，收到 {x.text}"
  | .emotionAmplifier x => s!"情绪放大必须在 0.5-2.0 之间，收到 {x.text}"
  | .conflict id => s!"core-value 主键冲突: {id}"
  | .syntaxError => "SyntaxError"
  | .version v => s!"InMemoryValueUnitOfWork.restore: 不支持的 schemaVersion {v}（期望 1）"
  | .format => "InMemoryValueUnitOfWork.restore: 序列化数据格式非法"
  | .notArray => "InMemoryValueUnitOfWork.restore: rows 必须是数组"
  | .malformedRow => "InMemoryValueUnitOfWork.restore: 含畸形价值行，已中止（状态未变）"

namespace ValueStore

def empty : ValueStore := ⟨[], List.nodup_nil⟩

variable (s : ValueStore) (id : String) (v : CoreValue)

def lookup : Option CoreValue := s.rows.find? fun v => v.id = id

/-- `Map.set`. -/
def set : ValueStore where
  rows :=
    if v.id ∈ s.rows.map CoreValue.id then s.rows.map fun w => if w.id = v.id then v else w else s.rows ++ [v]
  nodup := by
    split_ifs with h
    · have hid : ∀ w : CoreValue, (if w.id = v.id then v else w).id = w.id := fun w => by
        split_ifs with hw
        · exact hw.symm
        · rfl
      simpa only [List.map_map, Function.comp_def, hid] using s.nodup
    · rw [List.map_append, List.nodup_append]
      exact ⟨s.nodup, by simp, fun a ha b hb hab => h (by simp_all)⟩

def delete : ValueStore where
  rows := s.rows.filter fun v => v.id ≠ id
  nodup := (List.filter_sublist.map _).nodup s.nodup

end ValueStore

/-! ## The value service -/

def assertWeight (x : JsFloat) : Except ValueError Unit := ensure (x.InRange 0 1) (.weight x)

def assertTimeDiscount (x : JsFloat) : Except ValueError Unit := ensure (x.InRange 0 1) (.timeDiscount x)

def assertEmotionAmplifier (x : JsFloat) : Except ValueError Unit := ensure (x.InRange (1 / 2) 2) (.emotionAmplifier x)

def assertGiven (check : JsFloat → Except ValueError Unit) : Option JsFloat → Except ValueError Unit
  | none => .ok ()
  | some x => check x

/-- `createValue`, with the id and the time it gets. -/
def createValue (s : ValueStore) (id : String) (now : JsFloat) (label : String)
    (weight timeDiscount emotionAmplifier : JsFloat) : Except ValueError (ValueStore × CoreValue) := do
  assertWeight weight
  assertTimeDiscount timeDiscount
  assertEmotionAmplifier emotionAmplifier
  ensure (s.lookup id = none) (.conflict id)
  let value : CoreValue := ⟨id, label, weight, timeDiscount, emotionAmplifier, now⟩
  return (s.set value, value)

def CoreValuePatch.isEmpty (patch : CoreValuePatch) : Bool :=
  patch.weight.isNone && patch.timeDiscount.isNone && patch.emotionAmplifier.isNone

/-- The row that a patch makes of a row. -/
def CoreValuePatch.apply (patch : CoreValuePatch) (now : JsFloat) (v : CoreValue) : CoreValue :=
  { v with
    weight := patch.weight.getD v.weight
    timeDiscount := patch.timeDiscount.getD v.timeDiscount
    emotionAmplifier := patch.emotionAmplifier.getD v.emotionAmplifier
    updatedAt := now }

def updateValue (s : ValueStore) (now : JsFloat) (id : String) (patch : CoreValuePatch) :
    Except ValueError (ValueStore × Option CoreValue) := do
  assertGiven assertWeight patch.weight
  assertGiven assertTimeDiscount patch.timeDiscount
  assertGiven assertEmotionAmplifier patch.emotionAmplifier
  if patch.isEmpty then return (s, s.lookup id)
  else match s.lookup id with
    | none => return (s, none)
    | some v => return (s.set (patch.apply now v), some (patch.apply now v))

/-- `1`, as a number. -/
def one : JsFloat := .finite (JsNumber.ofInt 1)

/-- `0.5`. -/
def half : JsFloat := .finite (JsNumber.ofHundredths 50)

def upsertValue (s : ValueStore) (value : CoreValue) : ValueStore :=
  s.set { value with
    timeDiscount := if value.timeDiscount.IsFinite then value.timeDiscount else half
    emotionAmplifier := if value.emotionAmplifier.IsFinite then value.emotionAmplifier else one }

def deleteValue (s : ValueStore) (id : String) : ValueStore × Bool := (s.delete id, (s.lookup id).isSome)

/-! ## Serialisation -/

def CoreValue.toJson (v : CoreValue) : Json :=
  .obj [("id", .str v.id), ("label", .str v.label), ("weight", v.weight.toJson), ("timeDiscount", v.timeDiscount.toJson),
    ("emotionAmplifier", v.emotionAmplifier.toJson), ("updatedAt", v.updatedAt.toJson)]

/-- Sorting by id with `localeCompare`. -/
structure Collation where
  sort : List CoreValue → List CoreValue
  perm : ∀ rows, (sort rows).Perm rows

def ValueStore.serialize (collation : Collation) (s : ValueStore) : Json :=
  .obj [("schemaVersion", .num (JsNumber.ofInt 1)), ("rows", .arr ((collation.sort s.rows).map CoreValue.toJson))]

/-- A number within bounds. -/
def readInRange (lo hi : ℚ) (value : Option Json) : Except ValueError JsFloat := do
  let x ← required (value.bind Json.num?) .malformedRow
  ensure (lo ≤ x.val ∧ x.val ≤ hi) .malformedRow
  return .finite x

/-- `isValidValueRow` and `toRow`. -/
def readRow (raw : Json) : Except ValueError CoreValue := do
  ensure (raw.isObject = true) .malformedRow
  let id ← required ((raw.get? "id").bind Json.str?) .malformedRow
  ensure (id ≠ "") .malformedRow
  let label ← required ((raw.get? "label").bind Json.str?) .malformedRow
  let weight ← readInRange 0 1 (raw.get? "weight")
  let timeDiscount ← readInRange 0 1 (raw.get? "timeDiscount")
  let emotionAmplifier ← readInRange (1 / 2) 2 (raw.get? "emotionAmplifier")
  let updatedAt ← required ((raw.get? "updatedAt").bind Json.num?) .malformedRow
  return ⟨id, label, weight, timeDiscount, emotionAmplifier, .finite updatedAt⟩

def readRows : List Json → ValueStore → Except ValueError ValueStore
  | [], next => .ok next
  | raw :: raws, next => do
    let v ← readRow raw
    readRows raws (next.set v)

/-- What a text has as rows: it is an array, or has one. -/
def rowsOf (parsed : Json) : Except ValueError Json :=
  match parsed with
  | .arr elems => .ok (.arr elems)
  | .obj members => do
    let j := Json.obj members
    ensure (j.schemaVersion.int? = some 1) (.version j.schemaVersion.text)
    return (j.get? "rows").getD .null
  | .null | .bool _ | .num _ | .str _ => .error .format

def readStore (serialized : Option Json) : Except ValueError ValueStore := do
  let parsed ← required serialized .syntaxError
  let rows ← rowsOf parsed
  let raws ← required rows.arr? .notArray
  readRows raws .empty

/-- `restore`: the rows are replaced once all are valid. -/
def ValueStore.restore (s : ValueStore) (serialized : Option Json) : ValueStore × Except ValueError Unit :=
  match readStore serialized with
  | .error e => (s, .error e)
  | .ok next => (next, .ok ())

/-! ## Operations -/

inductive ValueOp
  | createValue (id : String) (now : JsFloat) (label : String) (weight timeDiscount emotionAmplifier : JsFloat)
  | updateValue (now : JsFloat) (id : String) (patch : CoreValuePatch)
  | upsertValue (value : CoreValue)
  | deleteValue (id : String)
  | deleteAllValues
  | getValueById (id : String)
  | getAllValues

inductive ValueAnswer
  | value (v : Option CoreValue)
  | failed (error : ValueError)
  | deleted (found : Bool)
  | done
  | values (all : String → Option CoreValue)

def ValueStore.step (s : ValueStore) : ValueOp → ValueStore × ValueAnswer
  | .createValue id now label weight timeDiscount emotionAmplifier =>
    match Edge.createValue s id now label weight timeDiscount emotionAmplifier with
    | .ok (s', v) => (s', .value (some v))
    | .error e => (s, .failed e)
  | .updateValue now id patch =>
    match Edge.updateValue s now id patch with
    | .ok (s', v) => (s', .value v)
    | .error e => (s, .failed e)
  | .upsertValue value => (Edge.upsertValue s value, .done)
  | .deleteValue id => ((Edge.deleteValue s id).1, .deleted (Edge.deleteValue s id).2)
  | .deleteAllValues => (.empty, .done)
  | .getValueById id => (s, .value (s.lookup id))
  | .getAllValues => (s, .values s.lookup)

/-! ## Lookups -/

namespace ValueStore

variable {s s' : ValueStore} {id : String} {v w : CoreValue}

theorem lookup_eq_some : s.lookup id = some v ↔ v ∈ s.rows ∧ v.id = id := by
  constructor
  · intro h
    exact ⟨List.mem_of_find?_eq_some h, by simpa using List.find?_some h⟩
  · rintro ⟨hv, rfl⟩
    obtain ⟨w, hw⟩ : ∃ w, s.lookup v.id = some w := by
      cases h : s.lookup v.id with
      | none => exact absurd (List.find?_eq_none.1 h v hv) (by simp)
      | some w => exact ⟨w, rfl⟩
    have hmem := List.mem_of_find?_eq_some hw
    have hid : w.id = v.id := by simpa using List.find?_some hw
    rw [hw, List.inj_on_of_nodup_map s.nodup hmem hv hid]

theorem lookup_eq_none : s.lookup id = none ↔ ∀ v ∈ s.rows, v.id ≠ id := by
  simp [lookup]

theorem lookup_ext (h : ∀ v, v ∈ s.rows ↔ v ∈ s'.rows) (id : String) : s.lookup id = s'.lookup id := by
  refine Option.ext fun v => ?_
  rw [lookup_eq_some, lookup_eq_some, h]

theorem mem_set : w ∈ (s.set v).rows ↔ w = v ∨ w ∈ s.rows ∧ w.id ≠ v.id := by
  unfold set
  simp only
  split_ifs with h
  · obtain ⟨u, hu, hid⟩ := List.mem_map.1 h
    rw [List.mem_map]
    constructor
    · rintro ⟨x, hx, rfl⟩
      split_ifs with hx'
      · exact .inl rfl
      · exact .inr ⟨hx, hx'⟩
    · rintro (rfl | ⟨hw, hne⟩)
      · exact ⟨u, hu, if_pos hid⟩
      · exact ⟨w, hw, if_neg hne⟩
  · rw [List.mem_append, List.mem_singleton, or_comm]
    exact or_congr_right ⟨fun hw => ⟨hw, fun hid => h (hid ▸ List.mem_map_of_mem hw)⟩, fun hw => hw.1⟩

theorem lookup_set : (s.set v).lookup id = if id = v.id then some v else s.lookup id := by
  refine Option.ext fun w => ?_
  rw [lookup_eq_some, mem_set]
  split_ifs with hid
  · subst hid
    constructor
    · rintro ⟨rfl | ⟨-, hne⟩, hw⟩
      · rfl
      · exact absurd hw hne
    · rintro h
      obtain rfl := Option.some.inj h
      exact ⟨.inl rfl, rfl⟩
  · rw [lookup_eq_some]
    constructor
    · rintro ⟨rfl | ⟨hw, -⟩, rfl⟩
      · exact absurd rfl hid
      · exact ⟨hw, rfl⟩
    · rintro ⟨hw, rfl⟩
      exact ⟨.inr ⟨hw, hid⟩, rfl⟩

theorem lookup_delete {id' : String} : (s.delete id').lookup id = if id = id' then none else s.lookup id := by
  refine Option.ext fun w => ?_
  rw [lookup_eq_some]
  split_ifs with hid
  · subst hid
    simp [delete]
  · rw [lookup_eq_some]
    constructor
    · rintro ⟨hw, rfl⟩
      exact ⟨(List.mem_filter.1 hw).1, rfl⟩
    · rintro ⟨hw, rfl⟩
      exact ⟨List.mem_filter.2 ⟨hw, by simpa using hid⟩, rfl⟩

def SameValues (s s' : ValueStore) : Prop := ∀ id, s.lookup id = s'.lookup id

theorem SameValues.set (h : SameValues s s') (v : CoreValue) : SameValues (s.set v) (s'.set v) := fun id => by
  rw [lookup_set, lookup_set, h]

/-- **Nothing but the values is told apart.** -/
theorem SameValues.step (h : SameValues s s') (op : ValueOp) :
    (s.step op).2 = (s'.step op).2 ∧ SameValues (s.step op).1 (s'.step op).1 := by
  cases op with
  | createValue id now label weight timeDiscount emotionAmplifier =>
    simp only [ValueStore.step, createValue, h id]
    cases assertWeight weight with
    | error e => exact ⟨rfl, h⟩
    | ok =>
      cases assertTimeDiscount timeDiscount with
      | error e => exact ⟨rfl, h⟩
      | ok =>
        cases assertEmotionAmplifier emotionAmplifier with
        | error e => exact ⟨rfl, h⟩
        | ok =>
          cases ensure (s'.lookup id = none) (ValueError.conflict id) with
          | error e => exact ⟨rfl, h⟩
          | ok => exact ⟨rfl, h.set _⟩
  | updateValue now id patch =>
    simp only [ValueStore.step, updateValue, h id]
    cases assertGiven assertWeight patch.weight with
    | error e => exact ⟨rfl, h⟩
    | ok =>
      cases assertGiven assertTimeDiscount patch.timeDiscount with
      | error e => exact ⟨rfl, h⟩
      | ok =>
        cases assertGiven assertEmotionAmplifier patch.emotionAmplifier with
        | error e => exact ⟨rfl, h⟩
        | ok =>
          cases patch.isEmpty with
          | true => exact ⟨rfl, h⟩
          | false =>
            cases s'.lookup id with
            | none => exact ⟨rfl, h⟩
            | some v => exact ⟨rfl, h.set _⟩
  | upsertValue value => exact ⟨rfl, h.set _⟩
  | deleteValue id =>
    refine ⟨by simp only [ValueStore.step, deleteValue, h id], fun id' => ?_⟩
    change (s.delete id).lookup id' = (s'.delete id).lookup id'
    rw [lookup_delete, lookup_delete, h]
  | deleteAllValues => exact ⟨rfl, fun _ => rfl⟩
  | getValueById id => exact ⟨by simp only [ValueStore.step, h id], h⟩
  | getAllValues => exact ⟨congrArg ValueAnswer.values (funext h), h⟩

theorem SameValues.alike (h : SameValues s s') : Alike ValueStore.step s s' :=
  alike_of_bisimulation (fun _ _ op hs => SameValues.step hs op) h

/-! ## Rows that can be read -/

end ValueStore

/-- A value that is accepted when it is read back. -/
structure CoreValue.Readable (v : CoreValue) : Prop where
  id : v.id ≠ ""
  weight : v.weight.InRange 0 1
  timeDiscount : v.timeDiscount.InRange 0 1
  emotionAmplifier : v.emotionAmplifier.InRange (1 / 2) 2
  updatedAt : v.updatedAt.IsFinite

variable {s s' : ValueStore} {v v' : CoreValue} {op : ValueOp}

theorem readInRange_toJson {lo hi : ℚ} {x y : JsFloat} : readInRange lo hi (some x.toJson) = .ok y ↔
    x.InRange lo hi ∧ y = x := by
  simp only [readInRange, bind_ok, required_ok, ensure_ok, exists_const, Option.bind_some, Json.num?_toJson]
  constructor
  · rintro ⟨n, rfl, hn, h⟩
    exact ⟨hn, (Except.ok.inj h).symm⟩
  · rintro ⟨hx, rfl⟩
    cases y with
    | finite n => exact ⟨n, rfl, hx, rfl⟩
    | nan | infinite negative => exact hx.elim

/-- **A row is read back** as it was, if it is read back. -/
theorem readRow_toJson : readRow v.toJson = .ok v' ↔ v.Readable ∧ v' = v := by
  have hobj : v.toJson.isObject = true := rfl
  have hid : (v.toJson.get? "id").bind Json.str? = some v.id := rfl
  have hlabel : (v.toJson.get? "label").bind Json.str? = some v.label := rfl
  have hweight : v.toJson.get? "weight" = some v.weight.toJson := rfl
  have htime : v.toJson.get? "timeDiscount" = some v.timeDiscount.toJson := rfl
  have hemotion : v.toJson.get? "emotionAmplifier" = some v.emotionAmplifier.toJson := rfl
  have hupdated : v.toJson.get? "updatedAt" = some v.updatedAt.toJson := rfl
  simp only [readRow, bind_ok, ensure_ok, required_ok, exists_const, hobj, hid, hlabel, hweight, htime, hemotion,
    hupdated, readInRange_toJson, Option.some.injEq, exists_eq_left', Option.bind_some, Json.num?_toJson, true_and]
  constructor
  · rintro ⟨hne, w, ⟨hw, rfl⟩, t, ⟨ht, rfl⟩, m, ⟨hm, rfl⟩, x, hx, h⟩
    refine ⟨⟨hne, hw, ht, hm, by rw [hx]; trivial⟩, ?_⟩
    obtain rfl := Except.ok.inj h
    cases v
    simp_all
  · rintro ⟨⟨hne, hw, ht, hm, hfin⟩, rfl⟩
    cases hx : v'.updatedAt with
    | finite x =>
      refine ⟨hne, _, ⟨hw, rfl⟩, _, ⟨ht, rfl⟩, _, ⟨hm, rfl⟩, x, rfl, congrArg Except.ok ?_⟩
      cases v'
      simp_all
    | nan | infinite negative =>
      rw [hx] at hfin
      exact hfin.elim

theorem readRows_map_toJson {vs : List CoreValue} {next next' : ValueStore} :
    (readRows (vs.map CoreValue.toJson) next = .ok next' ↔
      (∀ v ∈ vs, v.Readable) ∧ next' = vs.foldl ValueStore.set next) := by
  induction vs generalizing next with
  | nil =>
    simp only [List.map_nil, readRows, List.foldl_nil, Except.ok.injEq]
    exact ⟨fun h => ⟨fun v hv => (List.not_mem_nil hv).elim, h.symm⟩, fun h => h.2.symm⟩
  | cons v vs ih =>
    simp only [List.map_cons, readRows, bind_ok, readRow_toJson, List.foldl_cons, List.forall_mem_cons]
    constructor
    · rintro ⟨_, ⟨hv, rfl⟩, h⟩
      obtain ⟨hvs, rfl⟩ := ih.1 h
      exact ⟨⟨hv, hvs⟩, rfl⟩
    · rintro ⟨⟨hv, hvs⟩, rfl⟩
      exact ⟨v, ⟨hv, rfl⟩, ih.2 ⟨hvs, rfl⟩⟩

theorem mem_foldl_set {vs : List CoreValue} (hnodup : (vs.map CoreValue.id).Nodup) {next : ValueStore}
    (hnew : ∀ v ∈ vs, ∀ w ∈ next.rows, w.id ≠ v.id) :
    ∀ w, w ∈ (vs.foldl ValueStore.set next).rows ↔ w ∈ vs ∨ w ∈ next.rows := by
  induction vs generalizing next with
  | nil => simp
  | cons v vs ih =>
    intro w
    rw [List.map_cons, List.nodup_cons] at hnodup
    have hnew' : ∀ u ∈ vs, ∀ w ∈ (next.set v).rows, w.id ≠ u.id := by
      intro u hu w hw
      rcases ValueStore.mem_set.1 hw with rfl | ⟨hw, -⟩
      · exact fun he => hnodup.1 (he ▸ List.mem_map_of_mem hu)
      · exact hnew u (List.mem_cons_of_mem _ hu) w hw
    rw [List.foldl_cons, ih hnodup.2 hnew' w, ValueStore.mem_set, List.mem_cons]
    constructor
    · rintro (hw | rfl | ⟨hw, -⟩)
      · exact .inl (.inr hw)
      · exact .inl (.inl rfl)
      · exact .inr hw
    · rintro ((rfl | hw) | hw)
      · exact .inr (.inl rfl)
      · exact .inl hw
      · exact .inr (.inr ⟨hw, hnew v List.mem_cons_self w hw⟩)

/-- Whatever store the text of a store is restored to, it then has its values. -/
def ValueStore.Survives (collation : Collation) (s : ValueStore) : Prop :=
  ∀ s₀ : ValueStore, (s₀.restore (some (s.serialize collation))).2 = .ok () ∧
    Alike step s (s₀.restore (some (s.serialize collation))).1

theorem ValueStore.restore_error {serialized : Option Json} {e : ValueError}
    (h : (s.restore serialized).2 = .error e) : (s.restore serialized).1 = s := by
  unfold restore at h ⊢
  cases hread : readStore serialized with
  | error e => rfl
  | ok next =>
    rw [hread] at h
    cases h

/-- **A store survives a restart** exactly if all its values are accepted. -/
theorem ValueStore.survives_iff {collation : Collation} :
    s.Survives collation ↔ ∀ v ∈ s.rows, v.Readable := by
  have hrows : rowsOf (s.serialize collation) = .ok (.arr ((collation.sort s.rows).map CoreValue.toJson)) := by
    have hversion : (s.serialize collation).schemaVersion.int? = some 1 := Json.int?_num_ofInt 1
    change (do
      ensure ((s.serialize collation).schemaVersion.int? = some 1) _
      return _ : Except ValueError Json) = _
    rw [ensure, if_pos hversion]
    rfl
  have hread : ∀ next, readStore (some (s.serialize collation)) = .ok next ↔
      (∀ v ∈ s.rows, v.Readable) ∧ next = (collation.sort s.rows).foldl ValueStore.set .empty := fun next => by
    simp only [readStore, bind_ok, required_ok, Option.some.injEq, exists_eq_left', hrows, Except.ok.injEq, Json.arr?,
      readRows_map_toJson, (collation.perm s.rows).mem_iff]
  constructor
  · intro h
    have hok := (h .empty).1
    unfold restore at hok
    cases hr : readStore (some (s.serialize collation)) with
    | error e =>
      rw [hr] at hok
      cases hok
    | ok next => exact ((hread next).1 hr).1
  · intro hall s₀
    have hok := (hread _).2 ⟨hall, rfl⟩
    have hrestore : s₀.restore (some (s.serialize collation)) =
        ((collation.sort s.rows).foldl ValueStore.set .empty, .ok ()) := by
      rw [restore, hok]
    rw [hrestore]
    refine ⟨rfl, SameValues.alike (lookup_ext fun v => ?_)⟩
    have hnodup : ((collation.sort s.rows).map CoreValue.id).Nodup :=
      ((collation.perm s.rows).map CoreValue.id).nodup_iff.2 s.nodup
    rw [mem_foldl_set hnodup fun _ _ _ h => (List.not_mem_nil h).elim, (collation.perm s.rows).mem_iff]
    exact (or_iff_left List.not_mem_nil).symm

/-! ## Steps -/

/-- What an operation writes can be read: a value that is created has an id and a finite time, one that is updated
a finite time, and one that is upserted is within its bounds. -/
def ValueOp.Readable (s : ValueStore) : ValueOp → Prop
  | .createValue id now _ weight timeDiscount emotionAmplifier =>
    weight.InRange 0 1 → timeDiscount.InRange 0 1 → emotionAmplifier.InRange (1 / 2) 2 → s.lookup id = none →
      id ≠ "" ∧ now.IsFinite
  | .updateValue now id patch =>
    (∀ x ∈ patch.weight, x.InRange 0 1) → (∀ x ∈ patch.timeDiscount, x.InRange 0 1) →
      (∀ x ∈ patch.emotionAmplifier, x.InRange (1 / 2) 2) → patch.isEmpty = false → (s.lookup id).isSome →
        now.IsFinite
  | .upsertValue v => v.id ≠ "" ∧ v.weight.InRange 0 1 ∧ (v.timeDiscount.IsFinite → v.timeDiscount.InRange 0 1) ∧
    (v.emotionAmplifier.IsFinite → v.emotionAmplifier.InRange (1 / 2) 2) ∧ v.updatedAt.IsFinite
  | .deleteValue _ | .deleteAllValues | .getValueById _ | .getAllValues => True

theorem readable_set_iff (hall : ∀ v ∈ s.rows, v.Readable) : (∀ w ∈ (s.set v).rows, w.Readable) ↔ v.Readable := by
  constructor
  · exact fun h => h v (ValueStore.mem_set.2 (.inl rfl))
  · intro h w hw
    rcases ValueStore.mem_set.1 hw with rfl | ⟨hw, -⟩
    · exact h
    · exact hall w hw

theorem createValue_ok {id label : String} {now weight timeDiscount emotionAmplifier : JsFloat}
    {x : ValueStore × CoreValue} : createValue s id now label weight timeDiscount emotionAmplifier = .ok x ↔
      weight.InRange 0 1 ∧ timeDiscount.InRange 0 1 ∧ emotionAmplifier.InRange (1 / 2) 2 ∧ s.lookup id = none ∧
        x = (s.set ⟨id, label, weight, timeDiscount, emotionAmplifier, now⟩,
          ⟨id, label, weight, timeDiscount, emotionAmplifier, now⟩) := by
  simp only [createValue, assertWeight, assertTimeDiscount, assertEmotionAmplifier, bind_ok, ensure_ok, exists_const]
  refine and_congr_right fun _ => and_congr_right fun _ => and_congr_right fun _ => and_congr_right fun _ => ?_
  exact ⟨fun h => (Except.ok.inj h).symm, fun h => h ▸ rfl⟩

theorem assertGiven_ok {lo hi : ℚ} {error : JsFloat → ValueError} {given : Option JsFloat} {u : Unit} :
    assertGiven (fun x => ensure (x.InRange lo hi) (error x)) given = .ok u ↔ ∀ x ∈ given, x.InRange lo hi := by
  cases given with
  | none => exact iff_of_true rfl nofun
  | some x => exact ensure_ok.trans (by simp)

theorem updateValue_ok {now : JsFloat} {id : String} {patch : CoreValuePatch} {x : ValueStore × Option CoreValue} :
    updateValue s now id patch = .ok x ↔ ((∀ x ∈ patch.weight, x.InRange 0 1) ∧
      (∀ x ∈ patch.timeDiscount, x.InRange 0 1) ∧ ∀ x ∈ patch.emotionAmplifier, x.InRange (1 / 2) 2) ∧
      x = if patch.isEmpty then (s, s.lookup id) else (s.lookup id).elim (s, none) fun v =>
        (s.set (patch.apply now v), some (patch.apply now v)) := by
  have hw : ∀ u, assertGiven assertWeight patch.weight = .ok u ↔ ∀ x ∈ patch.weight, x.InRange 0 1 :=
    fun _ => assertGiven_ok
  have ht : ∀ u, assertGiven assertTimeDiscount patch.timeDiscount = .ok u ↔ ∀ x ∈ patch.timeDiscount, x.InRange 0 1 :=
    fun _ => assertGiven_ok
  have he : ∀ u, assertGiven assertEmotionAmplifier patch.emotionAmplifier = .ok u ↔
      ∀ x ∈ patch.emotionAmplifier, x.InRange (1 / 2) 2 := fun _ => assertGiven_ok
  simp only [updateValue, bind_ok, hw, ht, he, exists_const, and_assoc]
  refine and_congr_right fun _ => and_congr_right fun _ => and_congr_right fun _ => ?_
  cases patch.isEmpty with
  | true => exact ⟨fun h => (Except.ok.inj h).symm, fun h => h ▸ rfl⟩
  | false =>
    cases s.lookup id with
    | none => exact ⟨fun h => (Except.ok.inj h).symm, fun h => h ▸ rfl⟩
    | some v => exact ⟨fun h => (Except.ok.inj h).symm, fun h => h ▸ rfl⟩

theorem readable_apply_iff {patch : CoreValuePatch} {now : JsFloat} (hv : v.Readable)
    (hw : ∀ x ∈ patch.weight, x.InRange 0 1) (ht : ∀ x ∈ patch.timeDiscount, x.InRange 0 1)
    (he : ∀ x ∈ patch.emotionAmplifier, x.InRange (1 / 2) 2) : (patch.apply now v).Readable ↔ now.IsFinite := by
  have hget : ∀ {lo hi : ℚ} {given : Option JsFloat} {x : JsFloat}, (∀ y ∈ given, y.InRange lo hi) →
      x.InRange lo hi → (given.getD x).InRange lo hi := by
    intro lo hi given x hg hx
    cases given with
    | none => exact hx
    | some y => exact hg y rfl
  exact ⟨fun h => h.updatedAt, fun h =>
    ⟨hv.id, hget hw hv.weight, hget ht hv.timeDiscount, hget he hv.emotionAmplifier, h⟩⟩

theorem half_inRange : half.InRange 0 1 := by
  change (0 : ℚ) ≤ (50 : ℤ) / 100 ∧ ((50 : ℤ) : ℚ) / 100 ≤ 1
  norm_num

theorem one_inRange : one.InRange (1 / 2) 2 := by
  change (1 / 2 : ℚ) ≤ ((1 : ℤ) : ℚ) ∧ ((1 : ℤ) : ℚ) ≤ 2
  norm_num

theorem inRange_replaced {lo hi : ℚ} {x y : JsFloat} (hy : y.InRange lo hi) :
    (if x.IsFinite then x else y).InRange lo hi ↔ (x.IsFinite → x.InRange lo hi) := by
  by_cases hx : x.IsFinite
  · simp [hx]
  · simp [hx, hy]

/-- **Step lemma**: exactly the operations that write what can be read keep a store that can be read back. -/
theorem ValueStore.readable_step_iff (hall : ∀ v ∈ s.rows, v.Readable) :
    (∀ v ∈ (s.step op).1.rows, v.Readable) ↔ op.Readable s := by
  cases op with
  | createValue id now label weight timeDiscount emotionAmplifier =>
    cases h : createValue s id now label weight timeDiscount emotionAmplifier with
    | error e =>
      have hstep : (s.step (.createValue id now label weight timeDiscount emotionAmplifier)).1 = s := by
        simp only [step, h]
      rw [hstep]
      refine iff_of_true hall fun hw ht he hnone => ?_
      rw [createValue_ok.2 ⟨hw, ht, he, hnone, rfl⟩] at h
      cases h
    | ok x =>
      obtain ⟨hw, ht, he, hnone, hx⟩ := createValue_ok.1 h
      have hstep : (s.step (.createValue id now label weight timeDiscount emotionAmplifier)).1 =
          s.set ⟨id, label, weight, timeDiscount, emotionAmplifier, now⟩ := by
        simp only [step, h, hx]
      rw [hstep, readable_set_iff hall]
      exact ⟨fun hv _ _ _ _ => ⟨hv.id, hv.updatedAt⟩, fun hop =>
        ⟨(hop hw ht he hnone).1, hw, ht, he, (hop hw ht he hnone).2⟩⟩
  | updateValue now id patch =>
    cases h : updateValue s now id patch with
    | error e =>
      have hstep : (s.step (.updateValue now id patch)).1 = s := by simp only [step, h]
      rw [hstep]
      refine iff_of_true hall fun hw ht he _ _ => ?_
      rw [updateValue_ok.2 ⟨⟨hw, ht, he⟩, rfl⟩] at h
      cases h
    | ok x =>
      obtain ⟨⟨hw, ht, he⟩, hx⟩ := updateValue_ok.1 h
      have hstep : (s.step (.updateValue now id patch)).1 = x.1 := by simp only [step, h]
      rw [hstep, hx]
      cases hempty : patch.isEmpty with
      | true => exact iff_of_true hall fun _ _ _ hne => by simp [hempty] at hne
      | false =>
        rw [if_neg Bool.false_ne_true]
        cases hl : s.lookup id with
        | none => exact iff_of_true hall fun _ _ _ _ hsome => by simp [hl] at hsome
        | some v =>
          have hv := hall v (lookup_eq_some.1 hl).1
          rw [Option.elim_some, readable_set_iff hall, readable_apply_iff hv hw ht he]
          exact ⟨fun hnow _ _ _ _ _ => hnow, fun hop => hop hw ht he hempty (by rw [hl]; rfl)⟩
  | upsertValue value =>
    refine (readable_set_iff hall).trans ⟨fun h => ⟨h.id, h.weight, (inRange_replaced half_inRange).1 h.timeDiscount,
      (inRange_replaced one_inRange).1 h.emotionAmplifier, h.updatedAt⟩, fun ⟨hid, hw, ht, he, hu⟩ =>
        ⟨hid, hw, (inRange_replaced half_inRange).2 ht, (inRange_replaced one_inRange).2 he, hu⟩⟩
  | deleteValue id => exact iff_of_true (fun v hv => hall v (List.mem_filter.1 hv).1) trivial
  | deleteAllValues => exact iff_of_true (fun v hv => (List.not_mem_nil hv).elim) trivial
  | getValueById id | getAllValues => exact iff_of_true hall trivial

end ChronoSynth.Edge

import ChronoSynth.Edge.Conflict
import ChronoSynth.Lib.JsonValue
import ChronoSynth.Lib.Run

/-!
# The sync outbox of a device

Translation of `edge/sync/outbox.ts`. Changes that are made on a device get numbers and wait until they have been
sent. `readBack_iff` says when an outbox can be restored from what it is serialised to.
-/

namespace ChronoSynth.Edge

def identityOpPrefixes : List String :=
  ["core-value.", "survival-anchor.", "narrative.", "decision-style.", "cognitive-model.", "personaRule.",
    "response-template.", "rt."]

def identityArtifactKinds : List String :=
  ["value_shift", "narrative_patch", "decision_style_patch", "cognitive_model_patch", "response_template", "rule"]

def classifyOpKind (opKind : String) : ChangeClass :=
  if (identityOpPrefixes.any fun p => p.toList.isPrefixOf opKind.toList) || identityArtifactKinds.contains opKind then
    .identity
  else if "projection.".toList.isPrefixOf opKind.toList then .projection
  else .fact

/-- A change that waits to be sent. -/
structure OutboxEntry where
  deviceId : String
  seq : ℕ
  changeClass : ChangeClass
  opKind : String
  payload : Json
  at_ : JsFloat
  synced : Bool

inductive OutboxError
  | misclassified (opKind : String) (derived given : ChangeClass)
  | syntaxError
  | version (version : String)
  | malformed
  | notObject
  | otherDevice
  | badSeq
  | noOpKind
  | badClass
  | storedMisclassified (opKind : String) (derived stored : ChangeClass)
  | badPayload
  | badAt
  | badSynced
  | duplicateSeq (seq : ℕ)
  | nextSeq (next max : ℕ)
  deriving DecidableEq, Repr

def ChangeClass.text : ChangeClass → String
  | .fact => "fact"
  | .projection => "projection"
  | .identity => "identity"

def ChangeClass.ofText (s : String) : Option ChangeClass :=
  if s = "fact" then some .fact
  else if s = "projection" then some .projection
  else if s = "identity" then some .identity
  else none

theorem ChangeClass.ofText_text (c : ChangeClass) : ChangeClass.ofText c.text = some c := by
  cases c <;> decide

def OutboxError.message : OutboxError → String
  | .misclassified opKind derived given =>
    s!"outbox enqueue: opKind「{opKind}」推导类别 {derived.text} 与传入 {given.text} 不一致（防身份核误标）"
  | .syntaxError => "SyntaxError"
  | .version v => s!"SyncOutbox.fromSerialized: 不支持的 schemaVersion {v}（期望 1）"
  | .malformed => "SyncOutbox.fromSerialized: 畸形序列化顶层数据"
  | .notObject => "SyncOutbox.fromSerialized: entry 非对象"
  | .otherDevice => "SyncOutbox.fromSerialized: entry deviceId 不一致"
  | .badSeq => "SyncOutbox.fromSerialized: seq 非正整数"
  | .noOpKind => "SyncOutbox.fromSerialized: opKind 缺失"
  | .badClass => "SyncOutbox.fromSerialized: changeClass 非法"
  | .storedMisclassified opKind derived stored =>
    s!"SyncOutbox.fromSerialized: opKind「{opKind}」推导 {derived.text} 与落盘 {stored.text} 不一致"
  | .badPayload => "SyncOutbox.fromSerialized: payload 非对象"
  | .badAt => "SyncOutbox.fromSerialized: at 非有限数"
  | .badSynced => "SyncOutbox.fromSerialized: synced 必须是 boolean"
  | .duplicateSeq seq => s!"SyncOutbox.fromSerialized: seq 重复 {seq}"
  | .nextSeq next max => s!"SyncOutbox.fromSerialized: nextSeq({next}) 必须大于 max(seq)({max})"

structure SyncOutbox where
  deviceId : String
  entries : List OutboxEntry
  nextSeq : ℕ

namespace SyncOutbox

def new (deviceId : String) : SyncOutbox := ⟨deviceId, [], 1⟩

variable (o : SyncOutbox)

/-- The payload is a JSON object, so that a copy of it is itself. -/
def enqueue (changeClass : ChangeClass) (opKind : String) (payload : List (String × Json)) (at_ : JsFloat) :
    Except OutboxError (SyncOutbox × OutboxEntry) :=
  if classifyOpKind opKind ≠ changeClass then .error (.misclassified opKind (classifyOpKind opKind) changeClass)
  else
    let entry : OutboxEntry := ⟨o.deviceId, o.nextSeq, changeClass, opKind, .obj payload, at_, false⟩
    .ok ({ o with entries := o.entries ++ [entry], nextSeq := o.nextSeq + 1 }, entry)

def pending : List OutboxEntry := o.entries.filter fun e => !e.synced

def markFirst (seq : ℕ) : List OutboxEntry → List OutboxEntry
  | [] => []
  | e :: es => if e.seq = seq then { e with synced := true } :: es else e :: markFirst seq es

def markSynced (seq : ℕ) : SyncOutbox × Bool :=
  ({ o with entries := markFirst seq o.entries }, o.entries.any fun e => e.seq = seq)

end SyncOutbox

/-! ## Serialisation -/

def OutboxEntry.toJson (e : OutboxEntry) : Json :=
  .obj [("deviceId", .str e.deviceId), ("seq", .num (JsNumber.ofInt e.seq)), ("changeClass", .str e.changeClass.text),
    ("opKind", .str e.opKind), ("payload", e.payload), ("at", e.at_.toJson), ("synced", .bool e.synced)]

def SyncOutbox.serialize (o : SyncOutbox) : Json :=
  .obj [("schemaVersion", .num (JsNumber.ofInt 1)), ("deviceId", .str o.deviceId),
    ("nextSeq", .num (JsNumber.ofInt o.nextSeq)), ("entries", .arr (o.entries.map OutboxEntry.toJson))]

def validateEntry (raw : Json) (deviceId : String) : Except OutboxError OutboxEntry := do
  ensure (raw.isObject = true) .notObject
  ensure ((raw.get? "deviceId").bind Json.str? = some deviceId) .otherDevice
  let seq ← required ((raw.get? "seq").bind Json.int?) .badSeq
  ensure (1 ≤ seq) .badSeq
  let opKind ← required ((raw.get? "opKind").bind Json.str?) .noOpKind
  ensure (opKind ≠ "") .noOpKind
  let changeClass ← required (((raw.get? "changeClass").bind Json.str?).bind ChangeClass.ofText) .badClass
  ensure (classifyOpKind opKind = changeClass) (.storedMisclassified opKind (classifyOpKind opKind) changeClass)
  let payload ← required ((raw.get? "payload").bind Json.object?) .badPayload
  let at_ ← required ((raw.get? "at").bind Json.num?) .badAt
  let synced ← required ((raw.get? "synced").bind Json.bool?) .badSynced
  return ⟨deviceId, seq.toNat, changeClass, opKind, payload, .finite at_, synced⟩

/-- The loop over the entries, with the numbers seen so far and the largest of them. -/
def readEntries (deviceId : String) : List Json → List ℕ → ℕ → Except OutboxError (List OutboxEntry × ℕ)
  | [], _, maxSeq => .ok ([], maxSeq)
  | raw :: raws, seen, maxSeq => do
    let e ← validateEntry raw deviceId
    ensure (e.seq ∉ seen) (.duplicateSeq e.seq)
    let rest ← readEntries deviceId raws (e.seq :: seen) (max maxSeq e.seq)
    return (e :: rest.1, rest.2)

/-- An outbox from a text: the value it parses to, if it does. -/
def SyncOutbox.fromSerialized (serialized : Option Json) : Except OutboxError SyncOutbox := do
  let parsed ← required serialized .syntaxError
  ensure (¬ parsed.isNull) .malformed
  ensure (parsed.schemaVersion.int? = some 1) (.version parsed.schemaVersion.text)
  let deviceId ← required ((parsed.get? "deviceId").bind Json.str?) .malformed
  let nextSeq ← required ((parsed.get? "nextSeq").bind Json.int?) .malformed
  ensure (1 ≤ nextSeq) .malformed
  let raws ← required ((parsed.get? "entries").bind Json.arr?) .malformed
  let entries ← readEntries deviceId raws [] 0
  ensure (entries.2 < nextSeq) (.nextSeq nextSeq.toNat entries.2)
  return ⟨deviceId, entries.1, nextSeq.toNat⟩

/-! ## Operations -/

inductive OutboxOp
  | enqueue (changeClass : ChangeClass) (opKind : String) (payload : List (String × Json)) (at_ : JsFloat)
  | markSynced (seq : ℕ)
  | pending
  | all

inductive OutboxAnswer
  | entry (e : OutboxEntry)
  | failed (error : OutboxError)
  | marked (found : Bool)
  | entries (es : List OutboxEntry)

def SyncOutbox.step (o : SyncOutbox) : OutboxOp → SyncOutbox × OutboxAnswer
  | .enqueue changeClass opKind payload at_ =>
    match o.enqueue changeClass opKind payload at_ with
    | .ok (o', e) => (o', .entry e)
    | .error error => (o, .failed error)
  | .markSynced seq => ((o.markSynced seq).1, .marked (o.markSynced seq).2)
  | .pending => (o, .entries o.pending)
  | .all => (o, .entries o.entries)

/-! ## What is in an outbox -/

variable {o o' : SyncOutbox} {e : OutboxEntry} {deviceId : String}

structure OutboxEntry.Made (deviceId : String) (e : OutboxEntry) : Prop where
  deviceId : e.deviceId = deviceId
  seq : 1 ≤ e.seq
  changeClass : classifyOpKind e.opKind = e.changeClass
  payload : e.payload.isObject = true

/-- An entry that is accepted when it is read back. -/
def OutboxEntry.Readable (e : OutboxEntry) : Prop := e.opKind ≠ "" ∧ e.at_.IsFinite

structure SyncOutbox.WellFormed (o : SyncOutbox) : Prop where
  made : ∀ e ∈ o.entries, e.Made o.deviceId
  /-- Every number is used once. -/
  nodup : (o.entries.map OutboxEntry.seq).Nodup
  below : ∀ e ∈ o.entries, e.seq < o.nextSeq
  next : 1 ≤ o.nextSeq

theorem SyncOutbox.wellFormed_new : (SyncOutbox.new deviceId).WellFormed where
  made := fun _ h => (List.not_mem_nil h).elim
  nodup := List.nodup_nil
  below := fun _ h => (List.not_mem_nil h).elim
  next := le_rfl

theorem mem_markFirst {es : List OutboxEntry} {seq : ℕ} (h : e ∈ SyncOutbox.markFirst seq es) :
    ∃ e₀ ∈ es, e = e₀ ∨ e = { e₀ with synced := true } := by
  induction es with
  | nil => exact (List.not_mem_nil h).elim
  | cons e₁ es ih =>
    rw [SyncOutbox.markFirst] at h
    split_ifs at h
    · rcases List.mem_cons.1 h with rfl | h
      · exact ⟨e₁, List.mem_cons_self, .inr rfl⟩
      · exact ⟨e, List.mem_cons_of_mem _ h, .inl rfl⟩
    · rcases List.mem_cons.1 h with rfl | h
      · exact ⟨e, List.mem_cons_self, .inl rfl⟩
      · obtain ⟨e₀, he₀, heq⟩ := ih h
        exact ⟨e₀, List.mem_cons_of_mem _ he₀, heq⟩

theorem map_seq_markFirst {es : List OutboxEntry} {seq : ℕ} :
    (SyncOutbox.markFirst seq es).map OutboxEntry.seq = es.map OutboxEntry.seq := by
  induction es with
  | nil => rfl
  | cons e es ih =>
    rw [SyncOutbox.markFirst]
    split_ifs
    · rfl
    · rw [List.map_cons, List.map_cons, ih]

/-- An operation adds an entry at most, with the next number. -/
theorem SyncOutbox.step_cases (op : OutboxOp) : (o.step op).1 = o ∨
    (∃ seq, (o.step op).1 = { o with entries := markFirst seq o.entries }) ∨
    ∃ opKind payload at_, op = .enqueue (classifyOpKind opKind) opKind payload at_ ∧
      (o.step op).1 = { o with
        entries := o.entries ++ [⟨o.deviceId, o.nextSeq, classifyOpKind opKind, opKind, .obj payload, at_, false⟩]
        nextSeq := o.nextSeq + 1 } := by
  cases op with
  | enqueue changeClass opKind payload at_ =>
    by_cases h : classifyOpKind opKind = changeClass
    · subst h
      exact .inr (.inr ⟨opKind, payload, at_, rfl, by simp [step, enqueue]⟩)
    · exact .inl (by simp [step, enqueue, h])
  | markSynced seq => exact .inr (.inl ⟨seq, rfl⟩)
  | pending | all => exact .inl rfl

/-- **No number is used twice.** -/
theorem SyncOutbox.WellFormed.step (ho : o.WellFormed) (op : OutboxOp) : (o.step op).1.WellFormed := by
  obtain h | ⟨seq, h⟩ | ⟨opKind, payload, at_, -, h⟩ := o.step_cases op
  · rwa [h]
  · rw [h]
    have hmem : ∀ e ∈ markFirst seq o.entries, e.Made o.deviceId ∧ e.seq < o.nextSeq := by
      intro e he
      obtain ⟨e₀, he₀, rfl | rfl⟩ := mem_markFirst he
      · exact ⟨ho.made e he₀, ho.below e he₀⟩
      · obtain ⟨h₁, h₂, h₃, h₄⟩ := ho.made e₀ he₀
        exact ⟨⟨h₁, h₂, h₃, h₄⟩, ho.below e₀ he₀⟩
    exact ⟨fun e he => (hmem e he).1, (by simpa only [map_seq_markFirst] using ho.nodup),
      fun e he => (hmem e he).2, ho.next⟩
  · rw [h]
    refine ⟨fun e he => ?_, ?_, fun e he => ?_, Nat.le_add_left 1 _⟩
    · rcases List.mem_append.1 he with he | he
      · exact ho.made e he
      · obtain rfl := List.mem_singleton.1 he
        exact ⟨rfl, ho.next, rfl, rfl⟩
    · rw [List.map_append, List.nodup_append]
      refine ⟨ho.nodup, List.nodup_singleton _, fun a ha b hb hab => ?_⟩
      obtain ⟨e, he, rfl⟩ := List.mem_map.1 ha
      obtain rfl := List.mem_singleton.1 hb
      exact absurd hab (ho.below e he).ne
    · rcases List.mem_append.1 he with he | he
      · exact (ho.below e he).trans (Nat.lt_succ_self _)
      · obtain rfl := List.mem_singleton.1 he
        exact Nat.lt_succ_self _

/-- An entry is only added with an operation kind and at a finite time. -/
def OutboxOp.Readable : OutboxOp → Prop
  | .enqueue changeClass opKind _ at_ => classifyOpKind opKind = changeClass → opKind ≠ "" ∧ at_.IsFinite
  | .markSynced _ | .pending | .all => True

theorem SyncOutbox.readable_step_iff {op : OutboxOp} (hall : ∀ e ∈ o.entries, e.Readable) :
    (∀ e ∈ (o.step op).1.entries, e.Readable) ↔ op.Readable := by
  cases op with
  | enqueue changeClass opKind payload at_ =>
    by_cases hclass : classifyOpKind opKind = changeClass
    · have hstep : (o.step (.enqueue changeClass opKind payload at_)).1.entries =
          o.entries ++ [⟨o.deviceId, o.nextSeq, changeClass, opKind, .obj payload, at_, false⟩] := by
        simp [step, enqueue, hclass]
      rw [hstep]
      constructor
      · exact fun h _ => h _ (List.mem_append_right _ List.mem_cons_self)
      · intro h e he
        rcases List.mem_append.1 he with he | he
        · exact hall e he
        · obtain rfl := List.mem_singleton.1 he
          exact h hclass
    · have hstep : (o.step (.enqueue changeClass opKind payload at_)).1 = o := by simp [step, enqueue, hclass]
      rw [hstep]
      exact iff_of_true hall fun h => absurd h hclass
  | markSynced seq =>
    refine iff_of_true (fun e he => ?_) trivial
    obtain ⟨e₀, he₀, rfl | rfl⟩ := mem_markFirst he
    · exact hall e he₀
    · exact hall e₀ he₀
  | pending | all => exact iff_of_true hall trivial

/-! ## Reading back -/

/-- **An entry is read back** as it was, if it is read back. -/
theorem validateEntry_toJson {e' : OutboxEntry} (he : e.Made deviceId) :
    validateEntry e.toJson deviceId = .ok e' ↔ e.Readable ∧ e' = e := by
  have hseq : (e.toJson.get? "seq").bind Json.int? = some (e.seq : ℤ) := Json.int?_num_ofInt e.seq
  have hclass : ((e.toJson.get? "changeClass").bind Json.str?).bind ChangeClass.ofText = some e.changeClass :=
    e.changeClass.ofText_text
  have hpayload : (e.toJson.get? "payload").bind Json.object? = some e.payload := if_pos he.payload
  have hat : (e.toJson.get? "at").bind Json.num? = e.at_.toJson.num? := rfl
  have hone : (1 : ℤ) ≤ (e.seq : ℤ) := by exact_mod_cast he.seq
  have hobj : e.toJson.isObject = true := rfl
  have hdev : (e.toJson.get? "deviceId").bind Json.str? = some e.deviceId := rfl
  have hop : (e.toJson.get? "opKind").bind Json.str? = some e.opKind := rfl
  have hsynced : (e.toJson.get? "synced").bind Json.bool? = some e.synced := rfl
  have hmade := he.deviceId
  simp only [validateEntry, bind_ok, ensure_ok, required_ok, exists_const, hobj, hdev, hseq, hop, hclass, hpayload, hat, hsynced,
    Option.some.injEq, exists_eq_left', he.changeClass, Json.num?_toJson, hone, true_and, hmade]
  constructor
  · rintro ⟨hne, x, hx, h⟩
    refine ⟨⟨hne, by rw [hx]; trivial⟩, ?_⟩
    obtain rfl := Except.ok.inj h
    cases e
    simp_all
  · rintro ⟨⟨hne, hfin⟩, rfl⟩
    cases hx : e'.at_ with
    | finite x =>
      refine ⟨hne, x, rfl, congrArg Except.ok ?_⟩
      cases e'
      simp_all
    | nan | infinite negative =>
      rw [hx] at hfin
      exact hfin.elim

theorem readEntries_map_toJson {es es' : List OutboxEntry} {seen : List ℕ} {m m' : ℕ}
    (hmade : ∀ e ∈ es, e.Made deviceId) (hnodup : (es.map OutboxEntry.seq).Nodup)
    (hseen : ∀ e ∈ es, e.seq ∉ seen) :
    readEntries deviceId (es.map OutboxEntry.toJson) seen m = .ok (es', m') ↔
      (∀ e ∈ es, e.Readable) ∧ es' = es ∧ m' = (es.map OutboxEntry.seq).foldl max m := by
  induction es generalizing es' seen m m' with
  | nil =>
    simp only [List.map_nil, readEntries, List.foldl_nil, Except.ok.injEq, Prod.mk.injEq]
    refine ⟨fun h => ⟨fun e he => (List.not_mem_nil he).elim, h.1.symm, h.2.symm⟩, fun h => ⟨h.2.1.symm, h.2.2.symm⟩⟩
  | cons e es ih =>
    rw [List.map_cons, List.nodup_cons] at hnodup
    have hrest : ∀ e' ∈ es, e'.seq ∉ e.seq :: seen := fun e' he' h => by
      rcases List.mem_cons.1 h with h | h
      · exact hnodup.1 (h ▸ List.mem_map_of_mem he')
      · exact hseen e' (List.mem_cons_of_mem _ he') h
    have hmade' : ∀ e' ∈ es, e'.Made deviceId := fun e' he' => hmade e' (List.mem_cons_of_mem _ he')
    simp only [List.map_cons, readEntries, bind_ok, ensure_ok, exists_const, validateEntry_toJson (hmade e List.mem_cons_self)]
    constructor
    · rintro ⟨_, ⟨hread, rfl⟩, hnew, ⟨es₁, m₁⟩, hes, h⟩
      obtain ⟨hall, rfl, rfl⟩ := (ih hmade' hnodup.2 hrest).1 hes
      obtain ⟨rfl, rfl⟩ := Prod.mk.inj (Except.ok.inj h)
      exact ⟨List.forall_mem_cons.2 ⟨hread, hall⟩, rfl, rfl⟩
    · rintro ⟨hall, rfl, rfl⟩
      obtain ⟨hread, hall⟩ := List.forall_mem_cons.1 hall
      exact ⟨e, ⟨hread, rfl⟩, hseen e List.mem_cons_self, (es, _), (ih hmade' hnodup.2 hrest).2 ⟨hall, rfl, rfl⟩, rfl⟩

theorem foldl_max_lt {l : List ℕ} {m n : ℕ} (hm : m < n) (h : ∀ x ∈ l, x < n) : l.foldl max m < n := by
  induction l generalizing m with
  | nil => exact hm
  | cons x l ih =>
    obtain ⟨hx, hl⟩ := List.forall_mem_cons.1 h
    exact ih (max_lt hm hx) hl

/-- **An outbox is restored** from what it is serialised to exactly if all entries are accepted, and then it is what
it was. -/
theorem SyncOutbox.fromSerialized_serialize (ho : o.WellFormed) :
    fromSerialized (some o.serialize) = .ok o' ↔ (∀ e ∈ o.entries, e.Readable) ∧ o' = o := by
  have hnull : o.serialize.isNull = false := rfl
  have hversion : o.serialize.schemaVersion.int? = some 1 := Json.int?_num_ofInt 1
  have hdev : (o.serialize.get? "deviceId").bind Json.str? = some o.deviceId := rfl
  have hnext : (o.serialize.get? "nextSeq").bind Json.int? = some (o.nextSeq : ℤ) := Json.int?_num_ofInt o.nextSeq
  have harr : (o.serialize.get? "entries").bind Json.arr? = some (o.entries.map OutboxEntry.toJson) := rfl
  have hone : (1 : ℤ) ≤ (o.nextSeq : ℤ) := by exact_mod_cast ho.next
  have hread : ∀ x, readEntries o.deviceId (o.entries.map OutboxEntry.toJson) [] 0 = .ok x ↔
      (∀ e ∈ o.entries, e.Readable) ∧ x = (o.entries, (o.entries.map OutboxEntry.seq).foldl max 0) := fun x => by
    rw [show x = (x.1, x.2) from rfl, readEntries_map_toJson ho.made ho.nodup fun e _ => List.not_mem_nil]
    rw [Prod.mk.injEq]
  have hmax : (o.entries.map OutboxEntry.seq).foldl max 0 < o.nextSeq := by
    refine foldl_max_lt ho.next fun x hx => ?_
    obtain ⟨e, he, rfl⟩ := List.mem_map.1 hx
    exact ho.below e he
  simp only [fromSerialized, required_ok, ensure_ok, bind_ok, exists_const, Option.some.injEq, exists_eq_left', hnull,
    Bool.false_eq_true, not_false_eq_true, true_and, hversion, hdev, hnext, hone, harr, hread]
  constructor
  · rintro ⟨x, ⟨hall, rfl⟩, -, h⟩
    exact ⟨hall, (Except.ok.inj h).symm⟩
  · rintro ⟨hall, rfl⟩
    exact ⟨_, ⟨hall, rfl⟩, by exact_mod_cast hmax, rfl⟩

/-- An outbox is restored to one that answers everything alike and never uses a number again. -/
def SyncOutbox.Survives (o : SyncOutbox) : Prop :=
  ∃ o', fromSerialized (some o.serialize) = .ok o' ∧ Alike step o o' ∧
    ∀ ops, ((run (fun o op => (o.step op).1) o' ops).entries.map OutboxEntry.seq).Nodup

/-- **Exactly when an outbox survives a restart.** -/
theorem SyncOutbox.survives_iff (ho : o.WellFormed) : o.Survives ↔ ∀ e ∈ o.entries, e.Readable := by
  constructor
  · rintro ⟨o', h, -⟩
    exact ((fromSerialized_serialize ho).1 h).1
  · intro hall
    refine ⟨o, (fromSerialized_serialize ho).2 ⟨hall, rfl⟩, .refl, fun ops => ?_⟩
    have hrun : Always (fun o op => (step o op).1) WellFormed o ops := Always.of_inductive ho fun _ op h => h.step op
    exact hrun.last.nodup

end ChronoSynth.Edge

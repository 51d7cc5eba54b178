import ChronoSynth.Lib.JsonValue
import ChronoSynth.Lib.JsText
import ChronoSynth.Lib.Run
import Mathlib.Data.List.Nodup

/-!
# The growth queue of a device

Translation of `edge/growth/growth-queue.ts`. What is to be learned is queued while the device is offline; a job
runs, and is done or has failed and may be tried again. `survives_iff` says when a queue survives a restart.
-/

namespace ChronoSynth.Edge

inductive GrowthJobStatus
  | pending
  | running
  | done
  | failed
  deriving DecidableEq, Repr

inductive GrowthJobKind
  | reflection
  | perception
  | knowledge
  deriving DecidableEq, Repr

def GrowthJobStatus.text : GrowthJobStatus → String
  | .pending => "pending"
  | .running => "running"
  | .done => "done"
  | .failed => "failed"

def GrowthJobStatus.ofText (s : String) : Option GrowthJobStatus :=
  if s = "pending" then some .pending
  else if s = "running" then some .running
  else if s = "done" then some .done
  else if s = "failed" then some .failed
  else none

def GrowthJobKind.text : GrowthJobKind → String
  | .reflection => "reflection"
  | .perception => "perception"
  | .knowledge => "knowledge"

def GrowthJobKind.ofText (s : String) : Option GrowthJobKind :=
  if s = "reflection" then some .reflection
  else if s = "perception" then some .perception
  else if s = "knowledge" then some .knowledge
  else none

theorem GrowthJobStatus.ofText_text (s : GrowthJobStatus) : GrowthJobStatus.ofText s.text = some s := by
  cases s <;> decide

theorem GrowthJobKind.ofText_text (k : GrowthJobKind) : GrowthJobKind.ofText k.text = some k := by
  cases k <;> decide

structure GrowthJob where
  id : String
  kind : GrowthJobKind
  payload : Json
  enqueuedAt : JsFloat
  status : GrowthJobStatus
  failureReason : Option String
  attempts : ℕ

structure GrowthJobQueue where
  jobs : List GrowthJob
  seq : ℕ

def jobId (n : ℕ) : String := "gjob_" ++ toString n

namespace GrowthJobQueue

def new : GrowthJobQueue := ⟨[], 0⟩

variable (q : GrowthJobQueue)

def enqueue (kind : GrowthJobKind) (payload : List (String × Json)) (now : JsFloat) : GrowthJobQueue × GrowthJob :=
  let job : GrowthJob := ⟨jobId q.seq, kind, .obj payload, now, .pending, none, 0⟩
  (⟨q.jobs ++ [job], q.seq + 1⟩, job)

def find (id : String) (required : GrowthJobStatus) : Option GrowthJob :=
  (q.jobs.find? fun j => j.id = id).filter fun j => j.status = required

def modifyFirst (id : String) (f : GrowthJob → GrowthJob) : List GrowthJob → List GrowthJob
  | [] => []
  | j :: js => if j.id = id then f j :: js else j :: modifyFirst id f js

def move (id : String) (required : GrowthJobStatus) (f : GrowthJob → GrowthJob) : GrowthJobQueue × Bool :=
  match q.find id required with
  | none => (q, false)
  | some _ => ({ q with jobs := modifyFirst id f q.jobs }, true)

def markRunning (id : String) : GrowthJobQueue × Bool :=
  q.move id .pending fun j => { j with status := .running, attempts := j.attempts + 1, failureReason := none }

def markDone (id : String) : GrowthJobQueue × Bool := q.move id .running fun j => { j with status := .done }

def markFailed (id reason : String) : GrowthJobQueue × Bool :=
  q.move id .running fun j => { j with status := .failed, failureReason := some reason }

def retry (id : String) : GrowthJobQueue × Bool := q.move id .failed fun j => { j with status := .pending }

end GrowthJobQueue

/-! ## Serialisation -/

inductive GrowthError
  | syntaxError
  | version (version : String)
  | malformed
  | notObject
  | noId
  | badKind
  | badStatus
  | badPayload
  | badEnqueuedAt
  | badAttempts
  | duplicateId (id : String)
  | seq (seq max : ℤ)
  deriving DecidableEq, Repr

def GrowthError.message : GrowthError → String
  | .syntaxError => "SyntaxError"
  | .version v => s!"GrowthJobQueue.fromSerialized: 不支持的 schemaVersion {v}（期望 1）"
  | .malformed => "GrowthJobQueue.fromSerialized: 畸形序列化数据"
  | .notObject => "GrowthJobQueue: job 非对象"
  | .noId => "GrowthJobQueue: job id 缺失"
  | .badKind => "GrowthJobQueue: job kind 非法"
  | .badStatus => "GrowthJobQueue: job status 非法"
  | .badPayload => "GrowthJobQueue: job payload 非对象"
  | .badEnqueuedAt => "GrowthJobQueue: enqueuedAt 非有限数"
  | .badAttempts => "GrowthJobQueue: attempts 非法"
  | .duplicateId id => s!"GrowthJobQueue.fromSerialized: job id 重复 {id}"
  | .seq n max => s!"GrowthJobQueue.fromSerialized: seq({n}) 必须大于已有 job 最大序号({max})"

/-- A field without a value is left out. -/
def GrowthJob.toJson (j : GrowthJob) : Json :=
  .obj ([("id", .str j.id), ("kind", .str j.kind.text), ("payload", j.payload), ("enqueuedAt", j.enqueuedAt.toJson),
    ("status", .str j.status.text), ("attempts", .num (JsNumber.ofInt j.attempts))] ++
    j.failureReason.toList.map fun reason => ("failureReason", .str reason))

def GrowthJobQueue.serialize (q : GrowthJobQueue) : Json :=
  .obj [("schemaVersion", .num (JsNumber.ofInt 1)), ("seq", .num (JsNumber.ofInt q.seq)),
    ("jobs", .arr (q.jobs.map GrowthJob.toJson))]

/-- `/^gjob_(\d+)$/`. -/
def parseJobIdSeq (id : String) : Option ℕ :=
  match id.toList with
  | 'g' :: 'j' :: 'o' :: 'b' :: '_' :: ds =>
    if ds ≠ [] ∧ ds.all Char.isDigit = true then some (Nat.ofDigitChars 10 ds 0) else none
  | _ => none

def validateJob (raw : Json) : Except GrowthError GrowthJob := do
  ensure (raw.isObject = true) .notObject
  let id ← required ((raw.get? "id").bind Json.str?) .noId
  ensure (id ≠ "") .noId
  let kind ← required (((raw.get? "kind").bind Json.str?).bind GrowthJobKind.ofText) .badKind
  let status ← required (((raw.get? "status").bind Json.str?).bind GrowthJobStatus.ofText) .badStatus
  let payload ← required ((raw.get? "payload").bind Json.object?) .badPayload
  let enqueuedAt ← required ((raw.get? "enqueuedAt").bind Json.num?) .badEnqueuedAt
  let attempts ← required ((raw.get? "attempts").bind Json.int?) .badAttempts
  ensure (0 ≤ attempts) .badAttempts
  return ⟨id, kind, payload, .finite enqueuedAt, status, (raw.get? "failureReason").bind Json.str?, attempts.toNat⟩

/-- The loop over the jobs, with the ids seen so far and the largest number among them. -/
def readJobs : List Json → List String → ℤ → Except GrowthError (List GrowthJob × ℤ)
  | [], _, maxIdSeq => .ok ([], maxIdSeq)
  | raw :: raws, seen, maxIdSeq => do
    let job ← validateJob raw
    ensure (job.id ∉ seen) (.duplicateId job.id)
    let rest ← readJobs raws (job.id :: seen) ((parseJobIdSeq job.id).elim maxIdSeq fun n => max maxIdSeq n)
    return (job :: rest.1, rest.2)

def GrowthJobQueue.fromSerialized (serialized : Option Json) : Except GrowthError GrowthJobQueue := do
  let parsed ← required serialized .syntaxError
  ensure (¬ parsed.isNull) .malformed
  ensure (parsed.schemaVersion.int? = some 1) (.version parsed.schemaVersion.text)
  let seq ← required ((parsed.get? "seq").bind Json.int?) .malformed
  ensure (0 ≤ seq) .malformed
  let raws ← required ((parsed.get? "jobs").bind Json.arr?) .malformed
  let jobs ← readJobs raws [] (-1)
  ensure (jobs.2 < seq) (.seq seq jobs.2)
  return ⟨jobs.1, seq.toNat⟩

/-! ## Operations -/

inductive GrowthOp
  | enqueue (kind : GrowthJobKind) (payload : List (String × Json)) (now : JsFloat)
  | markRunning (id : String)
  | markDone (id : String)
  | markFailed (id reason : String)
  | retry (id : String)
  | pending
  | all

inductive GrowthAnswer
  | job (j : GrowthJob)
  | moved (done : Bool)
  | jobs (js : List GrowthJob)

def GrowthJobQueue.step (q : GrowthJobQueue) : GrowthOp → GrowthJobQueue × GrowthAnswer
  | .enqueue kind payload now => ((q.enqueue kind payload now).1, .job (q.enqueue kind payload now).2)
  | .markRunning id => ((q.markRunning id).1, .moved (q.markRunning id).2)
  | .markDone id => ((q.markDone id).1, .moved (q.markDone id).2)
  | .markFailed id reason => ((q.markFailed id reason).1, .moved (q.markFailed id reason).2)
  | .retry id => ((q.retry id).1, .moved (q.retry id).2)
  | .pending => (q, .jobs (q.jobs.filter fun j => j.status = .pending))
  | .all => (q, .jobs q.jobs)

/-! ## What is in a queue -/

variable {q q' : GrowthJobQueue} {j : GrowthJob}

/-- A job that is accepted when it is read back. -/
def GrowthJob.Readable (j : GrowthJob) : Prop := j.enqueuedAt.IsFinite

structure GrowthJobQueue.WellFormed (q : GrowthJobQueue) : Prop where
  payload : ∀ j ∈ q.jobs, j.payload.isObject = true
  /-- Every id has a number that has been given out. -/
  numbered : ∀ j ∈ q.jobs, ∃ n < q.seq, j.id = jobId n
  nodup : (q.jobs.map GrowthJob.id).Nodup

theorem jobId_injective : Function.Injective jobId := fun _ _ h =>
  toString_nat_injective (String.append_right_inj _ |>.1 h)

theorem jobId_ne_empty (n : ℕ) : jobId n ≠ "" := by
  intro h
  have hlist := congrArg String.toList h
  simp [jobId] at hlist

theorem parseJobIdSeq_jobId (n : ℕ) : parseJobIdSeq (jobId n) = some n := by
  have hlist : (jobId n).toList = 'g' :: 'j' :: 'o' :: 'b' :: '_' :: Nat.toDigits 10 n := by
    rw [jobId, String.toList_append]
    exact congrArg (['g', 'j', 'o', 'b', '_'] ++ ·) (Nat.toList_repr)
  have hdigits : Nat.toDigits 10 n ≠ [] ∧ (Nat.toDigits 10 n).all Char.isDigit = true :=
    ⟨Nat.toDigits_ne_nil, List.all_eq_true.2 fun c hc => Nat.isDigit_of_mem_toDigits (by decide) (by decide) hc⟩
  unfold parseJobIdSeq
  rw [hlist]
  simp only [if_pos hdigits]
  simp

/-! ## Moves of a job -/

theorem mem_modifyFirst {id : String} {f : GrowthJob → GrowthJob} {js : List GrowthJob}
    (h : j ∈ GrowthJobQueue.modifyFirst id f js) : ∃ j₀ ∈ js, j = j₀ ∨ j = f j₀ := by
  induction js with
  | nil => exact (List.not_mem_nil h).elim
  | cons j₁ js ih =>
    rw [GrowthJobQueue.modifyFirst] at h
    split_ifs at h
    · rcases List.mem_cons.1 h with rfl | h
      · exact ⟨j₁, List.mem_cons_self, .inr rfl⟩
      · exact ⟨j, List.mem_cons_of_mem _ h, .inl rfl⟩
    · rcases List.mem_cons.1 h with rfl | h
      · exact ⟨j, List.mem_cons_self, .inl rfl⟩
      · obtain ⟨j₀, hj₀, heq⟩ := ih h
        exact ⟨j₀, List.mem_cons_of_mem _ hj₀, heq⟩

theorem map_id_modifyFirst {id : String} {f : GrowthJob → GrowthJob} (hf : ∀ j, (f j).id = j.id)
    {js : List GrowthJob} : (GrowthJobQueue.modifyFirst id f js).map GrowthJob.id = js.map GrowthJob.id := by
  induction js with
  | nil => rfl
  | cons j js ih =>
    rw [GrowthJobQueue.modifyFirst]
    split_ifs
    · rw [List.map_cons, List.map_cons, hf]
    · rw [List.map_cons, List.map_cons, ih]

/-- A move of a job keeps what it was made with. -/
structure Keeps (f : GrowthJob → GrowthJob) : Prop where
  id : ∀ j, (f j).id = j.id
  payload : ∀ j, (f j).payload = j.payload
  enqueuedAt : ∀ j, (f j).enqueuedAt = j.enqueuedAt

/-- An operation adds a job with the next number, moves one, or changes nothing. -/
theorem GrowthJobQueue.step_cases (op : GrowthOp) : (q.step op).1 = q ∨
    (∃ id f, Keeps f ∧ (q.step op).1 = { q with jobs := modifyFirst id f q.jobs }) ∨
    ∃ kind payload now, op = .enqueue kind payload now ∧ (q.step op).1 =
      ⟨q.jobs ++ [⟨jobId q.seq, kind, .obj payload, now, .pending, none, 0⟩], q.seq + 1⟩ := by
  have hmove : ∀ {id : String} {required : GrowthJobStatus} {f : GrowthJob → GrowthJob}, Keeps f →
      (q.move id required f).1 = q ∨
      ∃ id' g, Keeps g ∧ (q.move id required f).1 = { q with jobs := modifyFirst id' g q.jobs } := by
    intro id required f hf
    cases h : q.find id required with
    | none => exact .inl (by simp only [move, h])
    | some j => exact .inr ⟨id, f, hf, by simp only [move, h]⟩
  have hor : ∀ {p₁ p₂ p₃ : Prop}, p₁ ∨ p₂ → p₁ ∨ p₂ ∨ p₃ := fun h => h.imp_right .inl
  cases op with
  | enqueue kind payload now => exact .inr (.inr ⟨kind, payload, now, rfl, rfl⟩)
  | markRunning id | markDone id | markFailed id reason | retry id =>
    refine hor ?_
    apply hmove
    exact ⟨fun _ => rfl, fun _ => rfl, fun _ => rfl⟩
  | pending | all => exact .inl rfl

theorem GrowthJobQueue.wellFormed_new : GrowthJobQueue.new.WellFormed :=
  ⟨fun _ h => (List.not_mem_nil h).elim, fun _ h => (List.not_mem_nil h).elim, List.nodup_nil⟩

/-- **No number is used twice.** -/
theorem GrowthJobQueue.WellFormed.step (hq : q.WellFormed) (op : GrowthOp) : (q.step op).1.WellFormed := by
  obtain h | ⟨id, f, hf, h⟩ | ⟨kind, payload, now, -, h⟩ := q.step_cases op
  · rwa [h]
  · rw [h]
    refine ⟨fun j hj => ?_, fun j hj => ?_, ?_⟩
    · obtain ⟨j₀, hj₀, rfl | rfl⟩ := mem_modifyFirst hj
      · exact hq.payload j hj₀
      · rw [hf.payload]
        exact hq.payload j₀ hj₀
    · obtain ⟨j₀, hj₀, rfl | rfl⟩ := mem_modifyFirst hj
      · exact hq.numbered j hj₀
      · rw [hf.id]
        exact hq.numbered j₀ hj₀
    · simpa only [map_id_modifyFirst hf.id] using hq.nodup
  · rw [h]
    refine ⟨fun j hj => ?_, fun j hj => ?_, ?_⟩
    · rcases List.mem_append.1 hj with hj | hj
      · exact hq.payload j hj
      · obtain rfl := List.mem_singleton.1 hj
        rfl
    · rcases List.mem_append.1 hj with hj | hj
      · obtain ⟨n, hn, heq⟩ := hq.numbered j hj
        exact ⟨n, hn.trans (Nat.lt_succ_self _), heq⟩
      · obtain rfl := List.mem_singleton.1 hj
        exact ⟨q.seq, Nat.lt_succ_self _, rfl⟩
    · rw [List.map_append, List.nodup_append]
      refine ⟨hq.nodup, List.nodup_singleton _, fun a ha b hb hab => ?_⟩
      obtain ⟨j, hj, rfl⟩ := List.mem_map.1 ha
      obtain rfl := List.mem_singleton.1 hb
      obtain ⟨n, hn, heq⟩ := hq.numbered j hj
      exact absurd (jobId_injective (heq.symm.trans hab)) hn.ne

/-- A job is only queued at a finite time. -/
def GrowthOp.Readable : GrowthOp → Prop
  | .enqueue _ _ now => now.IsFinite
  | .markRunning _ | .markDone _ | .markFailed _ _ | .retry _ | .pending | .all => True

theorem GrowthJobQueue.readable_step_iff {op : GrowthOp} (hall : ∀ j ∈ q.jobs, j.Readable) :
    (∀ j ∈ (q.step op).1.jobs, j.Readable) ↔ op.Readable := by
  have hother : (∀ kind payload now, op ≠ .enqueue kind payload now) → ∀ j ∈ (q.step op).1.jobs, j.Readable := by
    intro hne
    obtain h | ⟨id, f, hf, h⟩ | ⟨kind, payload, now, hop, -⟩ := q.step_cases op
    · rwa [h]
    · rw [h]
      intro j hj
      obtain ⟨j₀, hj₀, rfl | rfl⟩ := mem_modifyFirst hj
      · exact hall j hj₀
      · rw [GrowthJob.Readable, hf.enqueuedAt]
        exact hall j₀ hj₀
    · exact absurd hop (hne kind payload now)
  cases op with
  | enqueue kind payload now =>
    constructor
    · exact fun h => h _ (List.mem_append_right _ List.mem_cons_self)
    · intro h j hj
      rcases List.mem_append.1 hj with hj | hj
      · exact hall j hj
      · obtain rfl := List.mem_singleton.1 hj
        exact h
  | markRunning id | markDone id | markFailed id reason | retry id | pending | all =>
    exact iff_of_true (hother fun _ _ _ h => nomatch h) trivial

/-! ## Reading back -/

/-- **A job is read back** as it was, if it is read back. -/
theorem validateJob_toJson {j' : GrowthJob} (hpayload : j.payload.isObject = true) (hid : j.id ≠ "") :
    validateJob j.toJson = .ok j' ↔ j.Readable ∧ j' = j := by
  have hobj : j.toJson.isObject = true := rfl
  have hid' : (j.toJson.get? "id").bind Json.str? = some j.id := rfl
  have hkind : ((j.toJson.get? "kind").bind Json.str?).bind GrowthJobKind.ofText = some j.kind := j.kind.ofText_text
  have hstatus : ((j.toJson.get? "status").bind Json.str?).bind GrowthJobStatus.ofText = some j.status :=
    j.status.ofText_text
  have hpayload' : (j.toJson.get? "payload").bind Json.object? = some j.payload := if_pos hpayload
  have hat : (j.toJson.get? "enqueuedAt").bind Json.num? = j.enqueuedAt.toJson.num? := rfl
  have hattempts : (j.toJson.get? "attempts").bind Json.int? = some (j.attempts : ℤ) := Json.int?_num_ofInt j.attempts
  have hreason : (j.toJson.get? "failureReason").bind Json.str? = j.failureReason := by
    cases h : j.failureReason with
    | none => simp [GrowthJob.toJson, h, Json.get?]
    | some reason => simp [GrowthJob.toJson, h, Json.get?, Json.str?]
  have hpos : (0 : ℤ) ≤ (j.attempts : ℤ) := Int.natCast_nonneg _
  simp only [validateJob, bind_ok, ensure_ok, required_ok, exists_const, hobj, hid', hkind, hstatus, hpayload', hat,
    hattempts, hreason, Option.some.injEq, exists_eq_left', Json.num?_toJson, hpos, true_and, hid, ne_eq,
    not_false_eq_true]
  constructor
  · rintro ⟨x, hx, h⟩
    refine ⟨by rw [GrowthJob.Readable, hx]; trivial, ?_⟩
    obtain rfl := Except.ok.inj h
    cases j
    simp_all
  · rintro ⟨hfin, rfl⟩
    cases hx : j'.enqueuedAt with
    | finite x =>
      refine ⟨x, rfl, congrArg Except.ok ?_⟩
      cases j'
      simp_all
    | nan | infinite negative =>
      rw [GrowthJob.Readable, hx] at hfin
      exact hfin.elim

theorem readJobs_map_toJson {js js' : List GrowthJob} {seen : List String} {m m' : ℤ} {bound : ℕ} (hm : m < bound)
    (hpayload : ∀ j ∈ js, j.payload.isObject = true) (hnumbered : ∀ j ∈ js, ∃ n < bound, j.id = jobId n)
    (hnodup : (js.map GrowthJob.id).Nodup) (hseen : ∀ j ∈ js, j.id ∉ seen) :
    ((∃ m', readJobs (js.map GrowthJob.toJson) seen m = .ok (js', m')) ↔ (∀ j ∈ js, j.Readable) ∧ js' = js) ∧
      (readJobs (js.map GrowthJob.toJson) seen m = .ok (js', m') → m' < bound) := by
  induction js generalizing js' seen m m' with
  | nil =>
    simp only [List.map_nil, readJobs, Except.ok.injEq, Prod.mk.injEq]
    refine ⟨⟨fun ⟨_, h, _⟩ => ⟨fun j hj => (List.not_mem_nil hj).elim, h.symm⟩, fun h => ⟨m, h.2.symm, rfl⟩⟩, ?_⟩
    rintro ⟨-, rfl⟩
    exact hm
  | cons j js ih =>
    rw [List.map_cons, List.nodup_cons] at hnodup
    obtain ⟨n, hn, hid⟩ := hnumbered j List.mem_cons_self
    have hmax : (parseJobIdSeq j.id).elim m (fun n => max m n) < bound := by
      rw [hid, parseJobIdSeq_jobId]
      exact max_lt hm (by exact_mod_cast hn)
    have hread : ∀ j', validateJob j.toJson = .ok j' ↔ j.Readable ∧ j' = j := fun j' =>
      validateJob_toJson (hpayload j List.mem_cons_self) (hid ▸ jobId_ne_empty n)
    have hseen' : ∀ j' ∈ js, j'.id ∉ j.id :: seen := fun j' hj' h => by
      rcases List.mem_cons.1 h with h | h
      · exact hnodup.1 (h ▸ List.mem_map_of_mem hj')
      · exact hseen j' (List.mem_cons_of_mem _ hj') h
    have ih' := fun js' m' => @ih js' (j.id :: seen) _ m' hmax (fun j' hj' => hpayload j' (List.mem_cons_of_mem _ hj'))
      (fun j' hj' => hnumbered j' (List.mem_cons_of_mem _ hj')) hnodup.2 hseen'
    simp only [List.map_cons, readJobs, bind_ok, ensure_ok, exists_const, hread]
    refine ⟨⟨?_, ?_⟩, ?_⟩
    · rintro ⟨m', _, ⟨hj, rfl⟩, -, ⟨js₁, m₁⟩, hjs, h⟩
      obtain ⟨hall, rfl⟩ := (ih' js₁ m₁).1.1 ⟨m₁, hjs⟩
      obtain ⟨rfl, rfl⟩ := Prod.mk.inj (Except.ok.inj h)
      exact ⟨List.forall_mem_cons.2 ⟨hj, hall⟩, rfl⟩
    · rintro ⟨hall, rfl⟩
      obtain ⟨hj, hall⟩ := List.forall_mem_cons.1 hall
      obtain ⟨m₁, hjs⟩ := (ih' js 0).1.2 ⟨hall, rfl⟩
      exact ⟨m₁, j, ⟨hj, rfl⟩, hseen j List.mem_cons_self, (js, m₁), hjs, rfl⟩
    · rintro ⟨_, ⟨-, rfl⟩, -, ⟨js₁, m₁⟩, hjs, h⟩
      obtain ⟨rfl, rfl⟩ := Prod.mk.inj (Except.ok.inj h)
      exact (ih' js₁ m₁).2 hjs

/-- **A queue is restored** from what it is serialised to exactly if all jobs are accepted, and then it is what it
was. -/
theorem GrowthJobQueue.fromSerialized_serialize (hq : q.WellFormed) :
    fromSerialized (some q.serialize) = .ok q' ↔ (∀ j ∈ q.jobs, j.Readable) ∧ q' = q := by
  have hnull : q.serialize.isNull = false := rfl
  have hversion : q.serialize.schemaVersion.int? = some 1 := Json.int?_num_ofInt 1
  have hseq : (q.serialize.get? "seq").bind Json.int? = some (q.seq : ℤ) := Json.int?_num_ofInt q.seq
  have harr : (q.serialize.get? "jobs").bind Json.arr? = some (q.jobs.map GrowthJob.toJson) := rfl
  have hpos : (0 : ℤ) ≤ (q.seq : ℤ) := Int.natCast_nonneg _
  have hread := fun js m => @readJobs_map_toJson q.jobs js [] (-1) m q.seq (by omega) hq.payload hq.numbered hq.nodup
    fun j _ => List.not_mem_nil
  simp only [fromSerialized, required_ok, ensure_ok, bind_ok, exists_const, Option.some.injEq, exists_eq_left', hnull,
    Bool.false_eq_true, not_false_eq_true, true_and, hversion, hseq, hpos, harr]
  constructor
  · rintro ⟨⟨js, m⟩, hjs, -, h⟩
    obtain ⟨hall, rfl⟩ := (hread js m).1.1 ⟨m, hjs⟩
    exact ⟨hall, (Except.ok.inj h).symm⟩
  · rintro ⟨hall, rfl⟩
    obtain ⟨m, hjs⟩ := (hread q'.jobs 0).1.2 ⟨hall, rfl⟩
    exact ⟨(q'.jobs, m), hjs, (hread q'.jobs m).2 hjs, rfl⟩

/-- A queue is restored to one that answers everything alike and never uses an id again. -/
def GrowthJobQueue.Survives (q : GrowthJobQueue) : Prop :=
  ∃ q', fromSerialized (some q.serialize) = .ok q' ∧ Alike step q q' ∧
    ∀ ops, ((run (fun q op => (q.step op).1) q' ops).jobs.map GrowthJob.id).Nodup

/-- **Exactly when a queue survives a restart.** -/
theorem GrowthJobQueue.survives_iff (hq : q.WellFormed) : q.Survives ↔ ∀ j ∈ q.jobs, j.Readable := by
  constructor
  · rintro ⟨q', h, -⟩
    exact ((fromSerialized_serialize hq).1 h).1
  · intro hall
    refine ⟨q, (fromSerialized_serialize hq).2 ⟨hall, rfl⟩, .refl, fun ops => ?_⟩
    have hrun : Always (fun q op => (step q op).1) WellFormed q ops := Always.of_inductive hq fun _ op h => h.step op
    exact hrun.last.nodup

end ChronoSynth.Edge

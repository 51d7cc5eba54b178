import ChronoSynth.Edge.GrowthQueue
import Mathlib.Data.NNRat.Defs

/-!
# Growth jobs and their teachers

`edge/growth/teacher-job-runner.ts`: a call of `runPending` takes the pending jobs one after the other, starts the teacher of
each and waits for it, while other calls run, jobs are queued and retried, the queue is saved, and the program is restarted
from its last save. `keepsJobs_iff` says in which of these runs no job is lost.

The calls have numbers. Beside the program it is noted which teachers were started, in the program and up to the save, and
how many jobs a call has really moved.
-/

namespace ChronoSynth.Edge

/-! ## Calls -/

/-- What comes of a teacher. -/
inductive TeacherResult
  | outcome (candidatesIngested : ℚ≥0)
  /-- No finite number, or a negative one: what it prints. -/
  | malformed (shown : String)
  | error (message : String)
  /-- Something else is thrown: what it prints, unless printing it throws. -/
  | thrown (shown : Option String)

structure RunSummary where
  attempted : ℕ
  succeeded : ℕ
  failed : ℕ
  totalCandidates : ℚ≥0

/-- A call of `runPending`. -/
structure TeacherRun where
  /-- The rest of its snapshot. -/
  remaining : List String
  /-- The job whose teacher it waits for. -/
  current : Option String
  summary : RunSummary
  movedDone : ℕ
  movedFailed : ℕ

def TeacherRun.idle : TeacherRun := ⟨[], none, ⟨0, 0, 0, 0⟩, 0, 0⟩

namespace GrowthJobQueue

def pendingIds (q : GrowthJobQueue) : List String := (q.jobs.filter fun j => j.status = .pending).map (·.id)

/-- The loop, up to the next teacher that is started. -/
def proceed (q : GrowthJobQueue) : List String → GrowthJobQueue × Option String × List String
  | [] => (q, none, [])
  | id :: ids => if (q.markRunning id).2 then ((q.markRunning id).1, some id, ids) else proceed (q.markRunning id).1 ids

end GrowthJobQueue

def TeacherResult.reason : TeacherResult → Option String
  | .outcome _ => none
  | .malformed shown => some ("teacher 返回畸形 candidatesIngested: " ++ shown)
  | .error message => some message
  | .thrown shown => shown

/-- The job of the call is done or has failed; `none` if the call throws. -/
def TeacherRun.settle (r : TeacherRun) (q : GrowthJobQueue) (id : String) (result : TeacherResult) :
    Option (GrowthJobQueue × TeacherRun) :=
  match result, result.reason with
  | .outcome n, _ =>
    some ((q.markDone id).1,
      { r with
        summary := { r.summary with succeeded := r.summary.succeeded + 1, totalCandidates := r.summary.totalCandidates + n }
        movedDone := r.movedDone + if (q.markDone id).2 then 1 else 0 })
  | _, some reason =>
    some ((q.markFailed id reason).1,
      { r with
        summary := { r.summary with failed := r.summary.failed + 1 }
        movedFailed := r.movedFailed + if (q.markFailed id reason).2 then 1 else 0 })
  | _, none => none

/-! ## The program -/

structure GrowthProgram where
  queue : GrowthJobQueue
  /-- The calls, by their numbers. -/
  runs : ℕ → TeacherRun
  called : ℕ
  /-- The jobs whose teachers were started. -/
  starts : List String
  /-- What was saved, and which teachers had been started then. -/
  saved : Option (GrowthJobQueue × List String)

def GrowthProgram.new : GrowthProgram := ⟨.new, fun _ => .idle, 0, [], none⟩

inductive GrowthEvent
  | enqueue (kind : GrowthJobKind) (payload : List (String × Json)) (now : JsFloat)
  | retry (id : String)
  | runPending
  | settle (call : ℕ) (result : TeacherResult)
  | save
  | restart

namespace GrowthProgram

/-- A call goes on. -/
def goOn (d : GrowthProgram) (call : ℕ) (r : TeacherRun) (ids : List String) : GrowthProgram :=
  let next := d.queue.proceed ids
  { d with
    queue := next.1
    runs := Function.update d.runs call { r with current := next.2.1, remaining := next.2.2 }
    starts := d.starts ++ next.2.1.toList }

def step (d : GrowthProgram) : GrowthEvent → GrowthProgram
  | .enqueue kind payload now => { d with queue := (d.queue.enqueue kind payload now).1 }
  | .retry id => { d with queue := (d.queue.retry id).1 }
  | .runPending =>
    let ids := d.queue.pendingIds
    goOn { d with called := d.called + 1 } d.called
      { TeacherRun.idle with summary := { TeacherRun.idle.summary with attempted := ids.length } } ids
  | .settle call result =>
    match (d.runs call).current with
    | none => d
    | some id =>
      match (d.runs call).settle d.queue id result with
      | some (queue, r) => goOn { d with queue } call r r.remaining
      | none => { d with runs := Function.update d.runs call { d.runs call with current := none, remaining := [] } }
  | .save => { d with saved := some (d.queue, d.starts) }
  | .restart =>
    match d.saved with
    | none => { d with queue := .new, runs := fun _ => .idle, called := 0, starts := [] }
    | some (queue, starts) =>
      match GrowthJobQueue.fromSerialized (some queue.serialize) with
      | .ok queue => { d with queue, runs := fun _ => .idle, called := 0, starts }
      | .error _ => { d with queue := .new, runs := fun _ => .idle, called := 0, starts := [] }

end GrowthProgram

/-! ## One job moves -/

section moves
variable {q : GrowthJobQueue} {j x : GrowthJob} {id : String} {required : GrowthJobStatus} {f : GrowthJob → GrowthJob}
  {starts : List String}

theorem mem_modifyFirst_iff {js : List GrowthJob} (hnodup : (js.map GrowthJob.id).Nodup) (hj : j ∈ js) (hid : j.id = id) :
    x ∈ GrowthJobQueue.modifyFirst id f js ↔ x = f j ∨ x ∈ js ∧ x.id ≠ id := by
  induction js with
  | nil => cases hj
  | cons k js ih =>
    rw [List.map_cons, List.nodup_cons] at hnodup
    rw [GrowthJobQueue.modifyFirst]
    have hother : ∀ y ∈ js, k.id = id → y.id ≠ id := fun y hy hk heq =>
      hnodup.1 (hk.trans heq.symm ▸ List.mem_map_of_mem hy)
    split
    next hk =>
      have hjk : j = k := by
        rcases List.mem_cons.1 hj with rfl | hj
        · rfl
        · exact absurd hid (hother j hj hk)
      subst hjk
      rw [List.mem_cons, List.mem_cons]
      constructor
      · rintro (rfl | hx)
        · exact .inl rfl
        · exact .inr ⟨.inr hx, hother x hx hk⟩
      · rintro (rfl | ⟨rfl | hx, hne⟩)
        · exact .inl rfl
        · exact absurd hk hne
        · exact .inr hx
    next hk =>
      have hj' : j ∈ js := (List.mem_cons.1 hj).resolve_left fun heq => hk (heq ▸ hid)
      rw [List.mem_cons, List.mem_cons, ih hnodup.2 hj']
      constructor
      · rintro (rfl | rfl | ⟨hx, hne⟩)
        · exact .inr ⟨.inl rfl, hk⟩
        · exact .inl rfl
        · exact .inr ⟨.inr hx, hne⟩
      · rintro (rfl | ⟨rfl | hx, hne⟩)
        · exact .inr (.inl rfl)
        · exact .inl rfl
        · exact .inr (.inr ⟨hx, hne⟩)

/-- The queue after a job has changed. -/
structure Moved (q q' : GrowthJobQueue) (j j' : GrowthJob) : Prop where
  mem : j ∈ q.jobs
  id : j'.id = j.id
  seq : q'.seq = q.seq
  jobs : ∀ x, x ∈ q'.jobs ↔ x = j' ∨ x ∈ q.jobs ∧ x.id ≠ j.id

/-- **A move** changes one job that is in the status, or there is none and nothing changes. -/
theorem GrowthJobQueue.move_cases (hq : q.WellFormed) (hf : Keeps f) :
    (∃ j, j.id = id ∧ j.status = required ∧ (q.move id required f).2 = true ∧ Moved q (q.move id required f).1 j (f j)) ∨
      q.move id required f = (q, false) ∧ ∀ j ∈ q.jobs, j.id = id → j.status ≠ required := by
  cases hfind : q.find id required with
  | none =>
    refine .inr ⟨by simp only [move, hfind], fun j hj hid hstatus => ?_⟩
    -- the first job with the id is this one
    have hsome : (q.jobs.find? fun k => k.id = id).isSome := List.find?_isSome.2 ⟨j, hj, by simpa using hid⟩
    obtain ⟨k, hk⟩ := Option.isSome_iff_exists.1 hsome
    have hkid : k.id = id := by simpa using List.find?_some hk
    obtain rfl : k = j := List.inj_on_of_nodup_map hq.nodup (List.mem_of_find?_eq_some hk) hj (hkid.trans hid.symm)
    rw [find, hk, Option.filter_some, if_pos (by simpa using hstatus)] at hfind
    cases hfind
  | some j =>
    obtain ⟨hj, hstatus⟩ := Option.filter_eq_some_iff.1 hfind
    have hmem := List.mem_of_find?_eq_some hj
    have hid : j.id = id := by simpa using List.find?_some hj
    refine .inl ⟨j, hid, by simpa using hstatus, by simp only [move, hfind], hmem, hf.id j, ?_, fun x => ?_⟩
    · simp only [move, hfind]
    · simp only [move, hfind]
      rw [hid]
      exact mem_modifyFirst_iff hq.nodup hmem hid

/-- What is noted about the starts of the teachers. -/
structure Booked (q : GrowthJobQueue) (starts : List String) : Prop where
  wf : q.WellFormed
  attempts : ∀ j ∈ q.jobs, j.attempts = starts.count j.id
  known : ∀ id ∈ starts, ∃ n < q.seq, id = jobId n

/-- Every running job has one call that waits for its teacher. -/
structure Attended (q : GrowthJobQueue) (runs : ℕ → TeacherRun) : Prop where
  owner : ∀ j ∈ q.jobs, j.status = .running → ∃ i, (runs i).current = some j.id
  busy : ∀ i id, (runs i).current = some id → ∃ j ∈ q.jobs, j.id = id ∧ j.status = .running
  single : ∀ i i' id, (runs i).current = some id → (runs i').current = some id → i = i'

variable {q' : GrowthJobQueue} {j' : GrowthJob} {runs : ℕ → TeacherRun} {call : ℕ} {r : TeacherRun}

theorem Booked.moved (h : Booked q starts) (hmoved : Moved q q' j j') (hwf : q'.WellFormed)
    (hattempts : j'.attempts = j.attempts) : Booked q' starts := by
  refine ⟨hwf, fun x hx => ?_, fun id hid => ?_⟩
  · rcases (hmoved.jobs x).1 hx with rfl | ⟨hx, -⟩
    · rw [hattempts, hmoved.id]
      exact h.attempts j hmoved.mem
    · exact h.attempts x hx
  · rw [hmoved.seq]
    exact h.known id hid

theorem Booked.started (h : Booked q starts) (hmoved : Moved q q' j j') (hwf : q'.WellFormed)
    (hattempts : j'.attempts = j.attempts + 1) : Booked q' (starts ++ [j.id]) := by
  refine ⟨hwf, fun x hx => ?_, fun id hid => ?_⟩
  · rw [List.count_append, List.count_singleton]
    rcases (hmoved.jobs x).1 hx with rfl | ⟨hx, hne⟩
    · rw [hattempts, hmoved.id, h.attempts j hmoved.mem, if_pos (by simp)]
    · rw [h.attempts x hx, if_neg (by simpa using fun heq => hne heq.symm), Nat.add_zero]
  · rw [hmoved.seq]
    rcases List.mem_append.1 hid with hid | hid
    · exact h.known id hid
    · obtain rfl := List.mem_singleton.1 hid
      exact h.wf.numbered j hmoved.mem

theorem Attended.moved (h : Attended q runs) (hwf : q.WellFormed) (hmoved : Moved q q' j j') (hj : j.status ≠ .running)
    (hj' : j'.status ≠ .running) : Attended q' runs := by
  refine ⟨fun x hx hrunning => ?_, fun i id hcurrent => ?_, h.single⟩
  · rcases (hmoved.jobs x).1 hx with rfl | ⟨hx, -⟩
    · exact absurd hrunning hj'
    · exact h.owner x hx hrunning
  · obtain ⟨x, hx, hid, hrunning⟩ := h.busy i id hcurrent
    refine ⟨x, (hmoved.jobs x).2 (.inr ⟨hx, fun heq => hj ?_⟩), hid, hrunning⟩
    rwa [← List.inj_on_of_nodup_map hwf.nodup hx hmoved.mem heq]

theorem Attended.ended (h : Attended q runs) (hmoved : Moved q q' j j')
    (hcall : (runs call).current = some j.id) (hj' : j'.status ≠ .running) (hr : r.current = none) :
    Attended q' (Function.update runs call r) := by
  refine ⟨fun x hx hrunning => ?_, fun i id hcurrent => ?_, fun i i' id hi hi' => ?_⟩
  · rcases (hmoved.jobs x).1 hx with rfl | ⟨hx, hne⟩
    · exact absurd hrunning hj'
    · obtain ⟨i, hi⟩ := h.owner x hx hrunning
      have hother : i ≠ call := by
        rintro rfl
        exact hne (Option.some.inj (hi.symm.trans hcall))
      exact ⟨i, by rwa [Function.update_of_ne hother]⟩
  · by_cases hi : i = call
    · subst hi
      rw [Function.update_self, hr] at hcurrent
      cases hcurrent
    · rw [Function.update_of_ne hi] at hcurrent
      obtain ⟨x, hx, hid, hrunning⟩ := h.busy i id hcurrent
      refine ⟨x, (hmoved.jobs x).2 (.inr ⟨hx, fun heq => hi ?_⟩), hid, hrunning⟩
      exact h.single i call id hcurrent (by rw [hcall, ← heq, hid])
  · have hne : ∀ i, (Function.update runs call r i).current = some id → i ≠ call ∧ (runs i).current = some id := by
      intro i hi
      by_cases heq : i = call
      · subst heq
        rw [Function.update_self, hr] at hi
        cases hi
      · rw [Function.update_of_ne heq] at hi
        exact ⟨heq, hi⟩
    exact h.single i i' id (hne i hi).2 (hne i' hi').2

theorem Attended.started (h : Attended q runs) (hwf : q.WellFormed) (hmoved : Moved q q' j j')
    (hcall : (runs call).current = none) (hj : j.status ≠ .running) (hj' : j'.status = .running) (hr : r.current = some j.id) :
    Attended q' (Function.update runs call r) := by
  have hfree : ∀ i, (runs i).current ≠ some j.id := by
    intro i hi
    obtain ⟨x, hx, hid, hrunning⟩ := h.busy i j.id hi
    obtain rfl := List.inj_on_of_nodup_map hwf.nodup hx hmoved.mem hid
    exact hj hrunning
  refine ⟨fun x hx hrunning => ?_, fun i id hcurrent => ?_, fun i i' id hi hi' => ?_⟩
  · rcases (hmoved.jobs x).1 hx with rfl | ⟨hx, -⟩
    · exact ⟨call, by rw [Function.update_self, hr, hmoved.id]⟩
    · obtain ⟨i, hi⟩ := h.owner x hx hrunning
      have hother : i ≠ call := by
        rintro rfl
        rw [hcall] at hi
        cases hi
      exact ⟨i, by rwa [Function.update_of_ne hother]⟩
  · by_cases hi : i = call
    · subst hi
      rw [Function.update_self, hr] at hcurrent
      obtain rfl := Option.some.inj hcurrent
      exact ⟨j', (hmoved.jobs j').2 (.inl rfl), hmoved.id, hj'⟩
    · rw [Function.update_of_ne hi] at hcurrent
      obtain ⟨x, hx, hid, hrunning⟩ := h.busy i id hcurrent
      exact ⟨x, (hmoved.jobs x).2 (.inr ⟨hx, fun heq => hfree i (by rw [hcurrent, ← hid, heq])⟩), hid, hrunning⟩
  · have hcases : ∀ i, (Function.update runs call r i).current = some id →
        i = call ∧ id = j.id ∨ i ≠ call ∧ (runs i).current = some id := by
      intro i hi
      by_cases heq : i = call
      · subst heq
        rw [Function.update_self, hr] at hi
        exact .inl ⟨rfl, (Option.some.inj hi).symm⟩
      · rw [Function.update_of_ne heq] at hi
        exact .inr ⟨heq, hi⟩
    rcases hcases i hi with ⟨hcall₁, hid₁⟩ | ⟨-, hbefore⟩
    · rcases hcases i' hi' with ⟨hcall₂, -⟩ | ⟨-, hbefore'⟩
      · rw [hcall₁, hcall₂]
      · exact absurd (hid₁ ▸ hbefore') (hfree i')
    · rcases hcases i' hi' with ⟨-, hid₂⟩ | ⟨-, hbefore'⟩
      · exact absurd (hid₂ ▸ hbefore) (hfree i)
      · exact h.single i i' id hbefore hbefore'

/-- A call that waits for nothing may be replaced by another. -/
theorem Attended.update (h : Attended q runs) (hcall : (runs call).current = none) (hr : r.current = none) :
    Attended q (Function.update runs call r) := by
  have hsame : ∀ i, (Function.update runs call r i).current = (runs i).current := by
    intro i
    by_cases hi : i = call
    · subst hi
      rw [Function.update_self, hr, hcall]
    · rw [Function.update_of_ne hi]
  refine ⟨fun x hx hrunning => ?_, fun i id hcurrent => h.busy i id (hsame i ▸ hcurrent),
    fun i i' id hi hi' => h.single i i' id (hsame i ▸ hi) (hsame i' ▸ hi')⟩
  obtain ⟨i, hi⟩ := h.owner x hx hrunning
  exact ⟨i, by rw [hsame, hi]⟩

/-- **The loop** starts a job that was pending, or there is none. -/
theorem GrowthJobQueue.proceed_cases (hq : q.WellFormed) (ids : List String) :
    q.proceed ids = (q, none, []) ∨
      ∃ j rest, j.status = .pending ∧ (q.proceed ids).2 = (some j.id, rest) ∧ (q.proceed ids).1.WellFormed ∧
        Moved q (q.proceed ids).1 j { j with status := .running, attempts := j.attempts + 1, failureReason := none } := by
  induction ids with
  | nil => exact .inl rfl
  | cons id ids ih =>
    have hkeeps : Keeps fun j : GrowthJob =>
        { j with status := .running, attempts := j.attempts + 1, failureReason := none } :=
      ⟨fun _ => rfl, fun _ => rfl, fun _ => rfl⟩
    rcases @GrowthJobQueue.move_cases q id .pending _ hq hkeeps with
      ⟨j, rfl, hstatus, hmoves, hmoved⟩ | ⟨hsame, -⟩
    · have hproceed : q.proceed (j.id :: ids) = ((q.markRunning j.id).1, some j.id, ids) := if_pos hmoves
      refine .inr ⟨j, ids, hstatus, by rw [hproceed], ?_, ?_⟩
      · rw [hproceed]
        exact hq.step (.markRunning j.id)
      · rw [hproceed]
        exact hmoved
    · have hproceed : q.proceed (id :: ids) = q.proceed ids := by
        have hmark : q.markRunning id = (q, false) := hsame
        rw [proceed, hmark]
        rfl
      rw [hproceed]
      exact ih

end moves

/-! ## What a run keeps -/

namespace GrowthProgram

variable {d : GrowthProgram} {e : GrowthEvent}

def Counts (r : TeacherRun) : Prop := r.summary.succeeded = r.movedDone ∧ r.summary.failed = r.movedFailed

/-- **No job is lost in the running program.** -/
structure Kept (d : GrowthProgram) : Prop where
  owner : ∀ j ∈ d.queue.jobs, j.status = .pending ∨ j.status = .failed ∨ j.status = .done ∨
    j.status = .running ∧ ∃! i, (d.runs i).current = some j.id
  attempts : ∀ j ∈ d.queue.jobs, j.attempts = d.starts.count j.id
  counts : ∀ i, Counts (d.runs i)

structure Sound (d : GrowthProgram) : Prop where
  booked : Booked d.queue d.starts
  attended : Attended d.queue d.runs
  counts : ∀ i, Counts (d.runs i)
  unused : ∀ i, d.called ≤ i → (d.runs i).current = none
  saved : ∀ s ∈ d.saved, Booked s.1 s.2

theorem Sound.kept (h : Sound d) : Kept d where
  owner j hj := by
    cases hstatus : j.status with
    | pending => exact .inl rfl
    | failed => exact .inr (.inl rfl)
    | done => exact .inr (.inr (.inl rfl))
    | running =>
      obtain ⟨i, hi⟩ := h.attended.owner j hj hstatus
      exact .inr (.inr (.inr ⟨rfl, i, hi, fun i' hi' => h.attended.single i' i j.id hi' hi⟩))
  attempts := h.booked.attempts
  counts := h.counts

theorem booked_new : Booked .new [] :=
  ⟨GrowthJobQueue.wellFormed_new, fun _ hj => absurd hj List.not_mem_nil, fun _ hid => absurd hid List.not_mem_nil⟩

theorem attended_idle {q : GrowthJobQueue} (h : ∀ j ∈ q.jobs, j.status ≠ .running) :
    Attended q fun _ => TeacherRun.idle :=
  ⟨fun j hj hrunning => absurd hrunning (h j hj), fun _ _ hi => (by cases hi), fun _ _ _ hi => (by cases hi)⟩

theorem sound_new : Sound .new where
  booked := booked_new
  attended := attended_idle fun _ hj => absurd hj List.not_mem_nil
  counts _ := ⟨rfl, rfl⟩
  unused _ _ := rfl
  saved _ hs := by cases hs

/-- **A call that goes on.** -/
theorem sound_goOn {call : ℕ} {r : TeacherRun} {ids : List String} (hbooked : Booked d.queue d.starts)
    (hattended : Attended d.queue (Function.update d.runs call { r with current := none }))
    (hcounts : ∀ i, Counts (d.runs i)) (hr : Counts r) (hunused : ∀ i, d.called ≤ i → (d.runs i).current = none)
    (hcall : call < d.called) (hsaved : ∀ s ∈ d.saved, Booked s.1 s.2) : Sound (goOn d call r ids) := by
  have hfree : (Function.update d.runs call { r with current := none } call).current = none := by
    rw [Function.update_self]
  have hwrite : ∀ r' : TeacherRun, Function.update (Function.update d.runs call { r with current := none }) call r' =
      Function.update d.runs call r' := fun r' => Function.update_idem _ _ _
  have hupdate : ∀ r' : TeacherRun, Counts r' → ∀ i, Counts (Function.update d.runs call r' i) := by
    intro r' hr' i
    by_cases hi : i = call
    · subst hi
      rwa [Function.update_self]
    · rw [Function.update_of_ne hi]
      exact hcounts i
  have hlater : ∀ r' : TeacherRun, ∀ i, d.called ≤ i → (Function.update d.runs call r' i).current = none := by
    intro r' i hi
    rw [Function.update_of_ne (by omega)]
    exact hunused i hi
  rcases GrowthJobQueue.proceed_cases hbooked.wf ids with hnone | ⟨j, rest, hpending, hnext, hwf, hmoved⟩
  · have hgo : goOn d call r ids = { d with runs := Function.update d.runs call { r with current := none, remaining := [] } } := by
      rw [goOn, hnone]
      simp
    rw [hgo]
    refine ⟨hbooked, ?_, hupdate _ hr, hlater _, hsaved⟩
    have hidle := @Attended.update _ _ call { r with current := none, remaining := [] } hattended hfree rfl
    rwa [hwrite] at hidle
  · have hgo : goOn d call r ids = { d with
        queue := (d.queue.proceed ids).1
        runs := Function.update d.runs call { r with current := some j.id, remaining := rest }
        starts := d.starts ++ [j.id] } := by
      rw [goOn, hnext]
      rfl
    rw [hgo]
    refine ⟨hbooked.started hmoved hwf rfl, ?_, hupdate _ hr, hlater _, hsaved⟩
    have hstarted := hattended.started (r := { r with current := some j.id, remaining := rest }) hbooked.wf hmoved hfree
      (by simp [hpending]) rfl rfl
    rwa [hwrite] at hstarted

/-- Whether it prints, if it has to be. -/
def TeacherResult.Prints (result : TeacherResult) : Prop := result ≠ .thrown none

/-- What the event must not do: end a call whose error does not print, or restart the program from a save with a running
job, or with one that cannot be read back. -/
def Saves (d : GrowthProgram) : GrowthEvent → Prop
  | .settle call result => (d.runs call).current ≠ none → TeacherResult.Prints result
  | .restart => ∀ s ∈ d.saved, ∀ j ∈ s.1.jobs, j.Readable ∧ j.status ≠ .running
  | .enqueue .. | .retry _ | .runPending | .save => True

/-- After a restart the program has the jobs of the save, and `retry` and `runPending` take each that is not done. -/
def Resumes (d : GrowthProgram) (e : GrowthEvent) : Prop :=
  e = .restart → ∀ s ∈ d.saved, (d.step e).queue.jobs.map (·.id) = s.1.jobs.map (·.id) ∧
    ∀ j ∈ (d.step e).queue.jobs, j.status ≠ .done → j.id ∈ ((d.step e).queue.retry j.id).1.pendingIds

/-! ## The events -/

variable {call : ℕ} {id : String}

theorem Sound.enqueue (h : Sound d) (kind : GrowthJobKind) (payload : List (String × Json)) (now : JsFloat) :
    Sound (d.step (.enqueue kind payload now)) := by
  have hjobs : ∀ x, x ∈ (d.queue.enqueue kind payload now).1.jobs ↔
      x ∈ d.queue.jobs ∨ x = ⟨jobId d.queue.seq, kind, .obj payload, now, .pending, none, 0⟩ := fun x => by
    rw [GrowthJobQueue.enqueue, List.mem_append, List.mem_singleton]
  refine ⟨⟨h.booked.wf.step (.enqueue kind payload now), fun j hj => ?_, fun id hid => ?_⟩,
    ⟨fun j hj hrunning => ?_, fun i id hi => ?_, h.attended.single⟩, h.counts, h.unused, h.saved⟩
  · rcases (hjobs j).1 hj with hj | rfl
    · exact h.booked.attempts j hj
    · -- its id has never been given out
      refine (List.count_eq_zero.2 fun hstarted => ?_).symm
      obtain ⟨n, hn, heq⟩ := h.booked.known _ hstarted
      exact absurd (jobId_injective heq) hn.ne'
  · obtain ⟨n, hn, heq⟩ := h.booked.known id hid
    exact ⟨n, hn.trans (Nat.lt_succ_self _), heq⟩
  · rcases (hjobs j).1 hj with hj | rfl
    · exact h.attended.owner j hj hrunning
    · cases hrunning
  · obtain ⟨j, hj, hrest⟩ := h.attended.busy i id hi
    exact ⟨j, (hjobs j).2 (.inl hj), hrest⟩

theorem Sound.retry (h : Sound d) (id : String) : Sound (d.step (.retry id)) := by
  have hkeeps : Keeps fun j : GrowthJob => { j with status := .pending } := ⟨fun _ => rfl, fun _ => rfl, fun _ => rfl⟩
  have hwf : (d.queue.retry id).1.WellFormed := h.booked.wf.step (.retry id)
  rcases @GrowthJobQueue.move_cases d.queue id .failed _ h.booked.wf hkeeps with ⟨j, -, hstatus, -, hmoved⟩ | ⟨hsame, -⟩
  · exact ⟨h.booked.moved hmoved hwf rfl, h.attended.moved h.booked.wf hmoved (by simp [hstatus]) (by simp), h.counts,
      h.unused, h.saved⟩
  · have hretry : d.step (.retry id) = d := by
      have hq : d.queue.retry id = (d.queue, false) := hsame
      rw [step, hq]
    rwa [hretry]

theorem Sound.runPending (h : Sound d) : Sound (d.step .runPending) := by
  have hidle : ∀ r : TeacherRun, r.current = none → Attended d.queue (Function.update d.runs d.called r) := fun r hr =>
    h.attended.update (h.unused _ le_rfl) hr
  exact sound_goOn (d := { d with called := d.called + 1 }) h.booked (hidle _ rfl) h.counts ⟨rfl, rfl⟩
    (fun i hi => h.unused i ((Nat.le_succ _).trans hi)) (Nat.lt_succ_self _) h.saved

theorem Sound.finish (h : Sound d) (hcurrent : (d.runs call).current = some id) {f : GrowthJob → GrowthJob} (hkeeps : Keeps f)
    (hstatus : ∀ j, (f j).status ≠ .running) (hattempts : ∀ j, (f j).attempts = j.attempts)
    (hwf : (d.queue.move id .running f).1.WellFormed) {r : TeacherRun}
    (hr : (d.queue.move id .running f).2 = true → Counts r) :
    Sound (goOn { d with queue := (d.queue.move id .running f).1 } call r (d.runs call).remaining) := by
  obtain ⟨k, hk, hkid, hkrunning⟩ := h.attended.busy call id hcurrent
  rcases @GrowthJobQueue.move_cases d.queue id .running f h.booked.wf hkeeps with
    ⟨j, hid, hrunning, hmoves, hmoved⟩ | ⟨-, hnone⟩
  · have hcalled : call < d.called := by
      by_contra hle
      rw [h.unused call (Nat.le_of_not_lt hle)] at hcurrent
      cases hcurrent
    exact sound_goOn (d := { d with queue := (d.queue.move id .running f).1 }) (h.booked.moved hmoved hwf (hattempts j))
      (h.attended.ended hmoved (by rw [hcurrent, hid]) (hstatus j) rfl) h.counts (hr hmoves) h.unused hcalled h.saved
  · exact absurd hkrunning (hnone k hk hkid)

theorem Sound.settle (h : Sound d) {result : TeacherResult} (hsaves : Saves d (.settle call result)) :
    Sound (d.step (.settle call result)) := by
  cases hcurrent : (d.runs call).current with
  | none =>
    have hstep : d.step (.settle call result) = d := by simp only [step, hcurrent]
    rwa [hstep]
  | some id =>
    have hprints : TeacherResult.Prints result := hsaves (by rw [hcurrent]; exact Option.some_ne_none _)
    obtain ⟨hsucceeded, hfailed⟩ := h.counts call
    cases hreason : result.reason with
    | none =>
      -- the teacher has succeeded
      obtain ⟨n, rfl⟩ : ∃ n, result = .outcome n := by
        cases result with
        | outcome n => exact ⟨n, rfl⟩
        | malformed shown => cases hreason
        | error message => cases hreason
        | thrown shown =>
          obtain rfl : shown = none := hreason
          exact absurd rfl hprints
      have hkeeps : Keeps fun j : GrowthJob => { j with status := .done } := ⟨fun _ => rfl, fun _ => rfl, fun _ => rfl⟩
      simp only [step, hcurrent, TeacherRun.settle]
      refine h.finish hcurrent hkeeps (fun _ => by simp) (fun _ => rfl) (h.booked.wf.step (.markDone id))
        fun hmoves => ⟨?_, hfailed⟩
      have hmarks : (d.queue.markDone id).2 = true := hmoves
      simp only [hmarks, if_true, hsucceeded]
    | some reason =>
      have hsettle : (d.runs call).settle d.queue id result = some ((d.queue.markFailed id reason).1,
          { d.runs call with
            summary := { (d.runs call).summary with failed := (d.runs call).summary.failed + 1 }
            movedFailed := (d.runs call).movedFailed + if (d.queue.markFailed id reason).2 then 1 else 0 }) := by
        cases result with
        | outcome n => cases hreason
        | malformed shown | error message | thrown shown =>
          simp only [TeacherRun.settle, hreason]
      have hkeeps : Keeps fun j : GrowthJob => { j with status := .failed, failureReason := some reason } :=
        ⟨fun _ => rfl, fun _ => rfl, fun _ => rfl⟩
      simp only [step, hcurrent, hsettle]
      refine h.finish hcurrent hkeeps (fun _ => by simp) (fun _ => rfl) (h.booked.wf.step (.markFailed id reason))
        fun hmoves => ⟨hsucceeded, ?_⟩
      have hmarks : (d.queue.markFailed id reason).2 = true := hmoves
      simp only [hmarks, if_true, hfailed]

theorem Sound.save (h : Sound d) : Sound (d.step .save) where
  booked := h.booked
  attended := h.attended
  counts := h.counts
  unused := h.unused
  saved s hs := by
    obtain rfl := Option.some.inj hs
    exact h.booked

theorem step_restart {q : GrowthJobQueue} {starts : List String} (hsaved : d.saved = some (q, starts)) (hwf : q.WellFormed)
    (hreadable : ∀ j ∈ q.jobs, j.Readable) :
    d.step .restart = { d with queue := q, runs := fun _ => .idle, called := 0, starts } := by
  have hread := (GrowthJobQueue.fromSerialized_serialize hwf).2 ⟨hreadable, rfl⟩
  simp only [step, hsaved, hread]

theorem Sound.restart (h : Sound d) (hsaves : Saves d .restart) : Sound (d.step .restart) := by
  cases hsaved : d.saved with
  | none =>
    have hstep : d.step .restart = { d with queue := .new, runs := fun _ => .idle, called := 0, starts := [] } := by
      simp only [step, hsaved]
    rw [hstep]
    exact ⟨booked_new, sound_new.attended, sound_new.counts, sound_new.unused, h.saved⟩
  | some s =>
    obtain ⟨q, starts⟩ := s
    have hjobs := hsaves (q, starts) hsaved
    have hbooked : Booked q starts := h.saved (q, starts) hsaved
    rw [step_restart hsaved hbooked.wf fun j hj => (hjobs j hj).1]
    exact ⟨hbooked, attended_idle fun j hj => (hjobs j hj).2, sound_new.counts, sound_new.unused, h.saved⟩

/-- What `retry` and `runPending` take: a job that is pending or has failed. -/
theorem mem_pendingIds_retry_iff {q : GrowthJobQueue} (hq : q.WellFormed) {j : GrowthJob} (hj : j ∈ q.jobs) :
    j.id ∈ (q.retry j.id).1.pendingIds ↔ j.status = .pending ∨ j.status = .failed := by
  have hkeeps : Keeps fun j : GrowthJob => { j with status := .pending } := ⟨fun _ => rfl, fun _ => rfl, fun _ => rfl⟩
  have hpending : ∀ q : GrowthJobQueue, j.id ∈ q.pendingIds ↔ ∃ k ∈ q.jobs, k.status = .pending ∧ k.id = j.id := fun q => by
    simp only [GrowthJobQueue.pendingIds, List.mem_map, List.mem_filter, decide_eq_true_iff, and_assoc]
  have hunique : ∀ k ∈ q.jobs, k.id = j.id → k = j := fun k hk heq => List.inj_on_of_nodup_map hq.nodup hk hj heq
  rw [hpending]
  rcases @GrowthJobQueue.move_cases q j.id .failed _ hq hkeeps with ⟨k, hid, hstatus, -, hmoved⟩ | ⟨hsame, hnone⟩
  · obtain rfl := hunique k hmoved.mem hid
    exact iff_of_true ⟨_, (hmoved.jobs _).2 (.inl rfl), rfl, rfl⟩ (.inr hstatus)
  · have hretry : q.retry j.id = (q, false) := hsame
    rw [hretry, or_iff_left (hnone j hj rfl)]
    constructor
    · rintro ⟨k, hk, hstatus, hid⟩
      exact hunique k hk hid ▸ hstatus
    · intro hstatus
      exact ⟨j, hj, hstatus, rfl⟩

/-- **One event.** -/
theorem Sound.step (h : Sound d) (hsaves : Saves d e) : Sound (d.step e) ∧ Resumes d e := by
  cases e with
  | enqueue kind payload now => exact ⟨h.enqueue kind payload now, fun he => (by cases he)⟩
  | retry id => exact ⟨h.retry id, fun he => (by cases he)⟩
  | runPending => exact ⟨h.runPending, fun he => (by cases he)⟩
  | settle call result => exact ⟨h.settle hsaves, fun he => (by cases he)⟩
  | save => exact ⟨h.save, fun he => (by cases he)⟩
  | restart =>
    have hsound := h.restart hsaves
    refine ⟨hsound, fun _ s hs => ?_⟩
    have hjobs := hsaves s hs
    have hqueue : (d.step .restart).queue = s.1 := by
      rw [step_restart hs (h.saved s hs).wf fun j hj => (hjobs j hj).1]
    rw [hqueue]
    refine ⟨rfl, fun j hj hdone => (mem_pendingIds_retry_iff (h.saved s hs).wf hj).2 ?_⟩
    cases hstatus : j.status with
    | pending => exact .inl rfl
    | failed => exact .inr rfl
    | done => exact absurd hstatus hdone
    | running => exact absurd hstatus (hjobs j hj).2

/-- An event that loses no job meets the condition. -/
theorem saves_of_step (h : Sound d) (hkept : Kept (d.step e)) (hresumes : Resumes d e) : Saves d e := by
  cases e with
  | enqueue kind payload now => trivial
  | retry id => trivial
  | runPending => trivial
  | save => trivial
  | settle call result =>
    intro hcurrent
    rintro rfl
    obtain ⟨id, hid⟩ := Option.ne_none_iff_exists'.1 hcurrent
    obtain ⟨j, hj, hjid, hrunning⟩ := h.attended.busy call id hid
    have hstep : d.step (.settle call (.thrown none)) =
        { d with runs := Function.update d.runs call { d.runs call with current := none, remaining := [] } } := by
      simp only [step, hid, TeacherRun.settle, TeacherResult.reason]
    rw [hstep] at hkept
    -- the job is still running, and no call waits for it
    rcases hkept.owner j hj with hs | hs | hs | ⟨-, i, hi, -⟩
    · rw [hrunning] at hs
      cases hs
    · rw [hrunning] at hs
      cases hs
    · rw [hrunning] at hs
      cases hs
    · by_cases heq : i = call
      · subst heq
        simp only [Function.update_self] at hi
        cases hi
      · simp only [Function.update_of_ne heq] at hi
        exact heq (h.attended.single i call j.id hi (by rw [hid, hjid]))
  | restart =>
    intro s hs
    obtain ⟨hids, htaken⟩ := hresumes rfl s hs
    have hbooked := h.saved s hs
    have hreadable : ∀ j ∈ s.1.jobs, j.Readable := by
      by_contra hnot
      have hfails : ∀ q', GrowthJobQueue.fromSerialized (some s.1.serialize) ≠ .ok q' := fun q' hok =>
        hnot ((GrowthJobQueue.fromSerialized_serialize hbooked.wf).1 hok).1
      obtain ⟨error, herror⟩ : ∃ error, GrowthJobQueue.fromSerialized (some s.1.serialize) = .error error := by
        cases hread : GrowthJobQueue.fromSerialized (some s.1.serialize) with
        | ok q' => exact absurd hread (hfails q')
        | error error => exact ⟨error, rfl⟩
      have hsaved : d.saved = some (s.1, s.2) := hs
      have hempty : (d.step .restart).queue.jobs = [] := by
        simp only [GrowthProgram.step, hsaved, herror]
        rfl
      rw [hempty] at hids
      have hnil : s.1.jobs = [] := List.map_eq_nil_iff.1 hids.symm
      exact hnot (by simp [hnil])
    have hqueue : (d.step .restart).queue = s.1 := by
      rw [step_restart hs hbooked.wf hreadable]
    rw [hqueue] at htaken
    intro j hj
    refine ⟨hreadable j hj, fun hrunning => ?_⟩
    have hpending := (mem_pendingIds_retry_iff hbooked.wf hj).1 (htaken j hj (by rw [hrunning]; simp))
    rw [hrunning] at hpending
    rcases hpending with hs | hs
    · cases hs
    · cases hs

/-- **Growth jobs.** In a run no job is lost exactly if every error of a teacher prints and every restart is from a save that
can be read back and has no running job. -/
theorem keepsJobs_iff (events : List GrowthEvent) :
    (Always step Kept .new events ∧ Along step Resumes .new events) ↔ Along step Saves .new events :=
  always_and_along_iff sound_new (fun _ h => h.kept) (fun _ _ h hsaves => h.step hsaves)
    fun _ _ h hkept hresumes => saves_of_step h hkept hresumes

theorem runs_restart : (d.step .restart).runs = fun _ => .idle := by
  simp only [step]
  split
  · rfl
  · split
    · rfl
    · rfl

/-- The program is saved while a teacher is at work, and restarted. -/
def midway : List GrowthEvent := [.enqueue .reflection [] (.finite (JsNumber.ofInt 0)), .runPending, .save]

theorem sound_midway : Sound (run step .new midway) := by
  have halong : Along step Saves .new midway :=
    along_cons.2 ⟨trivial, along_cons.2 ⟨trivial, along_cons.2 ⟨trivial, along_nil⟩⟩⟩
  exact (Always.of_step sound_new (fun _ _ h hsaves => (h.step hsaves).1) halong).last

theorem not_keepsJobs : ¬ ∀ events, Always step Kept .new events ∧ Along step Resumes .new events := by
  intro h
  have howner := (h (midway ++ [.restart])).1.last.owner
  obtain ⟨s, hs, hjobs⟩ : ∃ s, (run step .new midway).saved = some s ∧
      s.1.jobs.map (fun j => (j.enqueuedAt, j.status)) = [(.finite (JsNumber.ofInt 0), .running)] := ⟨_, rfl, rfl⟩
  have hreadable : ∀ j ∈ s.1.jobs, j.Readable := fun j hj => by
    have hmem := List.mem_map_of_mem (f := fun j => (j.enqueuedAt, j.status)) hj
    rw [hjobs, List.mem_singleton, Prod.mk.injEq] at hmem
    rw [GrowthJob.Readable, hmem.1]
    trivial
  have hstatus : (run step .new (midway ++ [.restart])).queue.jobs.map (·.status) = [.running] := by
    rw [run_snoc, step_restart hs (sound_midway.saved s hs).wf hreadable]
    simpa using congrArg (List.map Prod.snd) hjobs
  have hruns : (run step .new (midway ++ [.restart])).runs = fun _ => .idle := by
    rw [run_snoc, runs_restart]
  obtain ⟨j, hj, hrunning⟩ := List.mem_map.1 (hstatus ▸ List.mem_singleton_self _)
  rcases howner j hj with hs | hs | hs | ⟨-, i, hi, -⟩
  · rw [hrunning] at hs
    cases hs
  · rw [hrunning] at hs
    cases hs
  · rw [hrunning] at hs
    cases hs
  · rw [hruns] at hi
    cases hi

end GrowthProgram

end ChronoSynth.Edge

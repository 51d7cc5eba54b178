import Mathlib.Data.List.Nodup
import ChronoSynth.Observability.Outbox

/-!
# Exactly once

A history beside the database notes the events whose deltas have been added to the rollups, in this order. What
is to hold of every run of publishers and workers: the rollups are what the noted events add up to, an event
that is sent has been noted once, one that has failed has not been noted, no counter of attempts goes down, and
any other order of the noted events would have come to the same counters (`RollsUp`).

An event is processed and marked sent in one transaction, but `markFailed` has no predicate and sets the
attempts that its worker has counted from an old copy of the row. Events are rolled up as they are to be in
exactly the runs in which no failure comes too late and the changes of the active cases commute
(`rollsUp_iff`).
-/

namespace ChronoSynth.Observability

variable {e : Env} {cmd : ObservabilityCmd} {db : ObservabilityDb} {row row' copy : OutboxRow}
  {event : ObservabilityStoredEvent} {events : List ObservabilityStoredEvent} {ms : List ObservabilityMove}

/-! ## What is claimed -/

def ofTenant (tenantId : String) (events : List ObservabilityStoredEvent) : List ObservabilityStoredEvent :=
  events.filter fun event => event.tenantId = tenantId

/-- Those of the other tenants. -/
def others (tenantId : String) (events : List ObservabilityStoredEvent) : List ObservabilityStoredEvent :=
  events.filter fun event => !decide (event.tenantId = tenantId)

/-- What is added to the history when a command is executed. -/
def noteApplied (events : List ObservabilityStoredEvent) (e : Env) (cmd : ObservabilityCmd)
    (db : ObservabilityDb) : List ObservabilityStoredEvent :=
  events ++ (db.applied e cmd).toList

/-- The calls in progress, and the history. -/
abbrev ObservabilityRun := ObservabilityPool × List ObservabilityStoredEvent

def ObservabilityRun.step : ObservabilityRun → ObservabilityMove → ObservabilityRun :=
  noting (Pool.step ObservabilityCall.start exec) (Pool.logging noteApplied)

def ObservabilityRun.init : ObservabilityRun := (Pool.idle .empty, [])

/-- An event that is sent has been added once, and one that has failed has not. -/
structure ExactlyOnce (db : ObservabilityDb) (events : List ObservabilityStoredEvent) : Prop where
  rollups : ∀ tenantId, db.rollups tenantId = rollupOf (ofTenant tenantId events)
  sent : ∀ row ∈ db.outbox, row.status = .sent → ∃ event, row.event = some event ∧
    events.filter (fun other => other.id = row.id) = [event]
  failed : ∀ row ∈ db.outbox, row.status = .failed → ∀ event ∈ events, event.id ≠ row.id

/-- No counter of attempts goes down. -/
def NeverLowered (e : Env) (cmd : ObservabilityCmd) (db : ObservabilityDb) : Prop :=
  ∀ row ∈ db.outbox, ∀ row' ∈ (exec e cmd db).1.outbox, row'.id = row.id → row.attempts ≤ row'.attempts

/-- The counters do not depend on the order of the events. -/
def Ordered (events : List ObservabilityStoredEvent) : Prop :=
  ∀ events', events'.Perm events → ∀ tenantId,
    countersOf (ofTenant tenantId events') = countersOf (ofTenant tenantId events)

structure RollsUp (ms : List ObservabilityMove) : Prop where
  exactlyOnce : Always ObservabilityRun.step (fun x => ExactlyOnce x.1.db x.2) .init ms
  attempts : Along ObservabilityRun.step (fun x m => x.1.AtCommit NeverLowered m) .init ms
  ordered : Ordered (run ObservabilityRun.step .init ms).2

/-! ## The condition -/

/-- A failure does not come to a row with more attempts. -/
def CountsOn (_ : Env) (cmd : ObservabilityCmd) (db : ObservabilityDb) : Prop :=
  ∀ id attempts error now status, cmd = .markFailed id attempts error now status →
    ∀ row ∈ db.outbox, row.id = id → row.attempts ≤ attempts

/-- An event is not given up that has been processed. -/
def GivesUpUnprocessed (_ : Env) (cmd : ObservabilityCmd) (db : ObservabilityDb) : Prop :=
  ∀ id attempts error now, cmd = .markFailed id attempts error now .failed →
    ∀ row ∈ db.outbox, row.id = id → ¬ db.Processed id

/-- No failure comes too late. -/
def FailsInTime (ms : List ObservabilityMove) : Prop :=
  Along ObservabilityRun.step
    (fun x m => x.1.AtCommit CountsOn m ∧ x.1.AtCommit GivesUpUnprocessed m) .init ms

/-- The changes of the active cases commute, for every tenant. -/
def ChangesCommute (events : List ObservabilityStoredEvent) : Prop :=
  ∀ tenantId, Commuting ((ofTenant tenantId events).map ObservabilityStoredEvent.active)

/-- **Orders.** -/
theorem ordered_iff : Ordered events ↔ ChangesCommute events := by
  constructor
  · intro h tenantId
    refine countersOf_perm_iff.1 fun own hp => ?_
    -- the other tenants' events stay where they are
    have hsplit : (ofTenant tenantId events ++ others tenantId events).Perm events :=
      List.filter_append_perm _ _
    have heq := h _ ((hp.append_right (others tenantId events)).trans hsplit) tenantId
    have hown : ofTenant tenantId (own ++ others tenantId events) = own := by
      rw [ofTenant, List.filter_append, List.filter_eq_self.2, List.filter_eq_nil_iff.2, List.append_nil]
      · intro event hevent
        simpa using (List.mem_filter.1 hevent).2
      · intro event hevent
        exact (List.mem_filter.1 (hp.subset hevent)).2
    rwa [hown] at heq
  · exact fun h events' hp tenantId => countersOf_perm_iff.2 (h tenantId) _ (hp.filter _)

/-! ## The discipline -/

def OutboxRow.SameEvent (row row' : OutboxRow) : Prop := row'.id = row.id ∧ row'.event = row.event

theorem rewriteRow_same : row.SameEvent (rewriteRow e cmd row) := by
  cases cmd with
  | publishEvent => exact ⟨rfl, rfl⟩
  | _ =>
    simp only [rewriteRow]
    split <;> exact ⟨rfl, rfl⟩

@[simp] theorem rewriteRow_id : (rewriteRow e cmd row).id = row.id := rewriteRow_same.1

def Keyed (db : ObservabilityDb) : Prop := Table.Numbered OutboxRow.id db.outbox

theorem mem_exec : row' ∈ (exec e cmd db).1.outbox ↔
    (∃ row ∈ db.outbox, rewriteRow e cmd row = row') ∨ row' ∈ db.inserted cmd := by
  rw [ObservabilityDb.exec_outbox, List.mem_append, List.mem_map]

theorem rewriteRow_mem (h : row ∈ db.outbox) : rewriteRow e cmd row ∈ (exec e cmd db).1.outbox :=
  mem_exec.2 (.inl ⟨row, h, rfl⟩)

theorem inserted_spec (h : row ∈ db.inserted cmd) :
    row.id = db.outbox.length ∧ row.status = .pending ∧ db.inserted cmd = [row] := by
  cases cmd with
  | publishEvent =>
    obtain rfl := List.mem_singleton.1 h
    exact ⟨rfl, rfl, rfl⟩
  | _ => cases h

theorem Keyed.exec (h : Keyed db) : Keyed (exec e cmd db).1 := by
  have hmap : Table.Numbered OutboxRow.id (db.outbox.map (rewriteRow e cmd)) := by
    have h' : db.outbox.map OutboxRow.id = List.range db.outbox.length := h
    rw [Table.Numbered, List.map_map, List.length_map, ← h']
    exact List.map_congr_left fun row _ => rewriteRow_id
  rw [Keyed, ObservabilityDb.exec_outbox]
  cases hi : db.inserted cmd with
  | nil => rwa [List.append_nil]
  | cons row rows =>
    have hnew := inserted_spec (hi ▸ List.mem_cons_self : row ∈ db.inserted cmd)
    obtain rfl : rows = [] := (List.cons_eq_cons.1 (hi.symm.trans hnew.2.2)).2
    exact hmap.append (by rw [hnew.1, List.length_map])

/-- A worker applies the event of a row, and a failure does not send it. -/
structure ObservabilityCmd.Genuine (cmd : ObservabilityCmd) (db : ObservabilityDb) : Prop where
  applies : ∀ copy now, cmd = .applyEvent copy now → ∃ row ∈ db.outbox, row.SameEvent copy
  fails : ∀ id attempts error now, cmd ≠ .markFailed id attempts error now .sent

def discipline : Discipline ObservabilityDb ObservabilityCmd Env where
  inv := Keyed
  ext db db' := ∀ row ∈ db.outbox, ∃ row' ∈ db'.outbox, row.SameEvent row'
  guar := ObservabilityCmd.Genuine
  may _ _ _ := True
  ext_refl _ row hrow := ⟨row, hrow, rfl, rfl⟩
  ext_trans h h' row hrow := by
    obtain ⟨row', hrow', hid, hevent⟩ := h row hrow
    obtain ⟨row'', hrow'', hid', hevent'⟩ := h' row' hrow'
    exact ⟨row'', hrow'', hid'.trans hid, hevent'.trans hevent⟩

theorem discipline_kept : discipline.Kept exec :=
  fun _ _ _ h _ _ => ⟨Keyed.exec h, fun _ hrow => ⟨_, rewriteRow_mem hrow, rewriteRow_same⟩⟩

/-- The events that a command applies are among these. -/
structure ObservabilityCmd.Among (rows : List OutboxRow) (cmd : ObservabilityCmd) : Prop where
  applies : ∀ copy now, cmd = .applyEvent copy now → copy ∈ rows
  fails : ∀ id attempts error now, cmd ≠ .markFailed id attempts error now .sent

theorem flushRow_among {options : ObservabilityWorkerOptions} {rows : List OutboxRow} (h : row ∈ rows) :
    (flushRow options row).Uses (ObservabilityCmd.Among rows) := by
  refine Prog.Uses.bind (.transaction ⟨fun _ _ h => ObservabilityCmd.noConfusion h, fun _ _ _ _ h => ObservabilityCmd.noConfusion h⟩) fun claimed => ?_
  split
  · trivial
  · refine Prog.Uses.bind .queryAny fun now => Prog.Uses.bind (.transaction ⟨?_, ?_⟩) fun applied => ?_
    · intro copy now' hcmd
      rwa [← (ObservabilityCmd.applyEvent.inj hcmd).1]
    · exact fun _ _ _ _ h => ObservabilityCmd.noConfusion h
    · split
      · trivial
      · refine Prog.Uses.bind (fun _ _ => ⟨⟨fun _ _ h => ObservabilityCmd.noConfusion h, ?_⟩,
          fun _ => trivial⟩) fun _ => trivial
        intro id attempts error now' hcmd
        have hstatus := (ObservabilityCmd.markFailed.inj hcmd).2.2.2.2
        split at hstatus <;> cases hstatus

theorem flushRows_among {options : ObservabilityWorkerOptions} {rows rows' : List OutboxRow}
    (h : rows' ⊆ rows) : (flushRows options rows').Uses (ObservabilityCmd.Among rows) := by
  induction rows' with
  | nil => trivial
  | cons row rows' ih =>
    exact (flushRow_among (h List.mem_cons_self)).bind fun r =>
      (ih fun _ hrow => h (List.mem_cons_of_mem _ hrow)).bind fun rest => trivial

theorem mem_queryPendingEvents {limit : ℕ} {rank : ℕ → ℕ} (h : row ∈ db.queryPendingEvents limit rank) :
    row ∈ db.outbox := by
  have hmem := (List.mem_insertionSort _).1 (List.mem_of_mem_take h)
  exact (List.mem_filter.1 hmem).1

theorem ObservabilityCall.meets (call : ObservabilityCall) (s : ObservabilityDb) :
    call.start.Meets discipline exec (fun _ _ _ => True) [] s := by
  cases call with
  | publish tenantId eventType payload =>
    exact fun _ _ _ _ _ _ _ => ⟨⟨fun _ _ h => ObservabilityCmd.noConfusion h, fun _ _ _ _ h => ObservabilityCmd.noConfusion h⟩, fun _ _ _ _ _ => trivial⟩
  | flush options =>
    intro s₁ _ _
    refine ⟨⟨fun _ _ h => ObservabilityCmd.noConfusion h, fun _ _ _ _ h => ObservabilityCmd.noConfusion h⟩, fun e _ => fun s₂ _ _ e' => ?_⟩
    have hrows := @flushRows_among options _ _
      (List.Subset.refl (s₂.queryPendingEvents options.batchSize e'.rank))
    refine (hrows.meets_from (D := discipline) discipline_kept ?_ (discipline.ext_refl s₂)).mono
      fun _ _ _ _ _ => trivial
    intro cmd s₃ hext hamong
    refine ⟨fun copy now hcmd => ?_, hamong.fails⟩
    obtain ⟨row, hrow, hsame⟩ := hext copy (mem_queryPendingEvents (hamong.applies copy now hcmd))
    exact ⟨row, hrow, hsame.1.symm, hsame.2.symm⟩

/-! ## What is applied -/

theorem applied_spec (h : db.applied e cmd = some event) : ∃ copy now, cmd = .applyEvent copy now ∧
    e.failure = none ∧ copy.event = some event ∧ ¬ db.Processed event.id := by
  cases cmd with
  | applyEvent copy now =>
    simp only [ObservabilityDb.applied] at h
    split at h
    next hf he =>
      split at h
      next => cases h
      next hp =>
        obtain rfl := Option.some.inj h
        exact ⟨copy, now, rfl, hf, he, hp⟩
    next => cases h
  | _ => cases h

theorem exec_applied : (exec e cmd db).1.processedEvents = (match db.applied e cmd with
      | none => db.processedEvents
      | some event => (db.applyStoredEvent event (match cmd with
        | .applyEvent _ now => now
        | _ => 0)).processedEvents) ∧
    (exec e cmd db).1.rollups = (match db.applied e cmd with
      | none => db.rollups
      | some event => (db.applyStoredEvent event 0).rollups) := by
  cases cmd with
  | applyEvent copy now =>
    simp only [exec, ObservabilityDb.applied]
    cases hf : e.failure with
    | some error => exact ⟨rfl, rfl⟩
    | none =>
      cases he : copy.event with
      | none => exact ⟨rfl, rfl⟩
      | some event =>
        by_cases hp : db.Processed event.id
        · simp only [ObservabilityDb.update, ObservabilityDb.applyStoredEvent, if_pos hp, and_self]
        · simp only [ObservabilityDb.update, ObservabilityDb.applyStoredEvent, if_neg hp, and_self]
  | _ => exact ⟨rfl, rfl⟩

theorem exec_processed {id : ℕ} : (exec e cmd db).1.Processed id ↔
    db.Processed id ∨ ∃ event, db.applied e cmd = some event ∧ event.id = id := by
  unfold ObservabilityDb.Processed
  rw [exec_applied.1]
  cases ha : db.applied e cmd with
  | none => simp
  | some event =>
    obtain ⟨copy, now, rfl, -, -, hp⟩ := applied_spec ha
    simp [ObservabilityDb.applyStoredEvent, if_neg hp, or_and_right, exists_or]

theorem exec_rollups {tenantId : String} (h : db.rollups tenantId = rollupOf (ofTenant tenantId events)) :
    (exec e cmd db).1.rollups tenantId = rollupOf (ofTenant tenantId (noteApplied events e cmd db)) := by
  rw [exec_applied.2, noteApplied]
  cases ha : db.applied e cmd with
  | none => rwa [Option.toList_none, List.append_nil]
  | some event =>
    obtain ⟨-, -, -, -, -, hp⟩ := applied_spec ha
    simp only [ObservabilityDb.applyStoredEvent, if_neg hp]
    rw [ofTenant, List.filter_append, ← ofTenant]
    by_cases ht : event.tenantId = tenantId
    · subst ht
      have hone : [event].filter (fun other => other.tenantId = event.tenantId) = [event] := by simp
      simp only [Option.toList_some, hone, rollupOf_snoc, Function.update_self, h]
    · have hnone : [event].filter (fun other => other.tenantId = tenantId) = [] := by simp [ht]
      simp only [Option.toList_some, hnone, List.append_nil, Function.update_of_ne (Ne.symm ht), h]

/-! ## The invariant -/

structure Noted (db : ObservabilityDb) (events : List ObservabilityStoredEvent) : Prop where
  rollups : ∀ tenantId, db.rollups tenantId = rollupOf (ofTenant tenantId events)
  processed : ∀ id, db.Processed id ↔ ∃ event ∈ events, event.id = id
  nodup : (events.map ObservabilityStoredEvent.id).Nodup
  known : ∀ event ∈ events, ∃ row ∈ db.outbox, row.id = event.id ∧ row.event = some event
  sent : ∀ row ∈ db.outbox, row.status = .sent → db.Processed row.id
  failed : ∀ row ∈ db.outbox, row.status = .failed → ¬ db.Processed row.id

theorem noted_empty : Noted .empty [] := by
  refine ⟨fun _ => rfl, fun id => ?_, List.nodup_nil, ?_, ?_, ?_⟩ <;>
    simp [ObservabilityDb.empty, ObservabilityDb.Processed]

theorem Noted.exactlyOnce (h : Noted db events) (hk : Keyed db) : ExactlyOnce db events := by
  refine ⟨h.rollups, fun row hrow hsent => ?_, fun row hrow hfailed event hevent hid => ?_⟩
  · obtain ⟨event, hevent, hid⟩ := (h.processed row.id).1 (h.sent row hrow hsent)
    obtain ⟨row', hrow', hid', heq⟩ := h.known event hevent
    obtain rfl := Table.Numbered.eq hk hrow hrow' (hid'.trans hid).symm
    refine ⟨event, heq, ?_⟩
    rw [← hid]
    exact filter_key_eq_singleton h.nodup hevent
  · exact h.failed row hrow hfailed ((h.processed row.id).2 ⟨event, hevent, hid⟩)

theorem rewriteRow_sent (h : (rewriteRow e cmd row).status = .sent) :
    row.status = .sent ∨ (∃ copy now, cmd = .applyEvent copy now ∧ e.failure = none ∧
      ∃ event, copy.event = some event ∧ event.id = row.id) ∨
      ∃ attempts error now, cmd = .markFailed row.id attempts error now .sent := by
  cases cmd with
  | publishEvent => exact .inl h
  | applyEvent copy now =>
    simp only [rewriteRow] at h
    split at h
    next hc =>
      obtain ⟨event, he⟩ := Option.isSome_iff_exists.1 hc.2.1
      refine .inr (.inl ⟨copy, now, rfl, hc.1, event, he, ?_⟩)
      rw [hc.2.2]
      unfold OutboxRow.event at he
      split at he
      · rw [← Option.some.inj he]
      · cases he
    next => exact .inl h
  | markFailed id attempts error now status =>
    simp only [rewriteRow] at h
    split at h
    next hid =>
      subst hid
      obtain rfl : status = .sent := h
      exact .inr (.inr ⟨attempts, error, now, rfl⟩)
    next => exact .inl h
  | _ =>
    simp only [rewriteRow] at h
    split at h
    · cases h
    · exact .inl h

theorem rewriteRow_failed (h : (rewriteRow e cmd row).status = .failed) :
    row.status = .failed ∧ (∀ copy now, cmd = .applyEvent copy now → e.failure = none → copy.event.isSome →
      row.id ≠ copy.id) ∨ ∃ attempts error now, cmd = .markFailed row.id attempts error now .failed := by
  cases cmd with
  | publishEvent => exact .inl ⟨h, fun _ _ hcmd => ObservabilityCmd.noConfusion hcmd⟩
  | applyEvent copy now =>
    simp only [rewriteRow] at h
    split at h
    next => cases h
    next hc =>
      refine .inl ⟨h, ?_⟩
      rintro copy' now' ⟨⟩ hf he hid
      exact hc ⟨hf, he, hid⟩
  | markFailed id attempts error now status =>
    simp only [rewriteRow] at h
    split at h
    next hid =>
      subst hid
      obtain rfl : status = .failed := h
      exact .inr ⟨attempts, error, now, rfl⟩
    next => exact .inl ⟨h, fun _ _ hcmd => ObservabilityCmd.noConfusion hcmd⟩
  | _ =>
    simp only [rewriteRow] at h
    split at h
    · cases h
    · exact .inl ⟨h, fun _ _ hcmd => ObservabilityCmd.noConfusion hcmd⟩

theorem event_id (h : row.event = some event) : event.id = row.id := by
  unfold OutboxRow.event at h
  split at h
  · rw [← Option.some.inj h]
  · cases h

/-- **Step lemma.** -/
theorem Noted.exec (h : Noted db events) (hg : cmd.Genuine db)
    (hC : GivesUpUnprocessed e cmd db) :
    Noted (Observability.exec e cmd db).1 (noteApplied events e cmd db) := by
  have hmem : ∀ event, event ∈ noteApplied events e cmd db ↔
      event ∈ events ∨ db.applied e cmd = some event := fun event => by
    rw [noteApplied, List.mem_append, Option.mem_toList]
  refine ⟨fun tenantId => exec_rollups (h.rollups tenantId), fun id => ?_, ?_, ?_, ?_, ?_⟩
  · rw [exec_processed, h.processed]
    simp only [hmem, or_and_right, exists_or]
  · rw [noteApplied, List.map_append]
    cases ha : db.applied e cmd with
    | none => simpa using h.nodup
    | some event =>
      obtain ⟨-, -, -, -, -, hp⟩ := applied_spec ha
      refine List.nodup_append.2 ⟨h.nodup, by simp, ?_⟩
      rintro id hid id' hid' rfl
      obtain ⟨other, hother, hoid⟩ := List.mem_map.1 hid
      obtain rfl : id = event.id := by simpa using hid'
      exact hp ((h.processed _).2 ⟨other, hother, hoid⟩)
  · intro event hevent
    obtain ⟨row, hrow, hid, heq⟩ : ∃ row ∈ db.outbox, row.id = event.id ∧ row.event = some event := by
      rcases (hmem event).1 hevent with hold | ha
      · exact h.known event hold
      · obtain ⟨copy, now, hcmd, -, he, -⟩ := applied_spec ha
        obtain ⟨row, hrow, hid, hsame⟩ := hg.applies copy now hcmd
        exact ⟨row, hrow, (event_id (hsame.symm.trans he)).symm, hsame.symm.trans he⟩
    exact ⟨_, rewriteRow_mem hrow, rewriteRow_same.1.trans hid, rewriteRow_same.2.trans heq⟩
  · intro row' hrow' hsent
    rw [exec_processed]
    obtain ⟨row, hrow, rfl⟩ | hnew := mem_exec.1 hrow'
    · rw [rewriteRow_id]
      rcases rewriteRow_sent hsent with hold | ⟨copy, now, rfl, hf, event, he, hid⟩ | ⟨_, _, _, hcmd⟩
      · exact .inl (h.sent row hrow hold)
      · by_cases hp : db.Processed row.id
        · exact .inl hp
        · refine .inr ⟨event, ?_, hid⟩
          rw [← hid] at hp
          simp only [ObservabilityDb.applied, hf, he, if_neg hp]
      · exact absurd hcmd (hg.fails _ _ _ _)
    · cases (inserted_spec hnew).2.1.symm.trans hsent
  · intro row' hrow' hfailed
    rw [exec_processed]
    obtain ⟨row, hrow, rfl⟩ | hnew := mem_exec.1 hrow'
    · rw [rewriteRow_id]
      rintro (hp | ⟨event, ha, hid⟩)
      · rcases rewriteRow_failed hfailed with ⟨hold, -⟩ | ⟨attempts, error, now, hcmd⟩
        · exact h.failed row hrow hold hp
        · exact hC _ _ _ _ hcmd row hrow rfl hp
      · obtain ⟨copy, now, hcmd, hf, he, -⟩ := applied_spec ha
        rcases rewriteRow_failed hfailed with ⟨-, hne⟩ | ⟨_, _, _, hcmd'⟩
        · exact hne copy now hcmd hf (he ▸ rfl) (hid.symm.trans (event_id he))
        · cases hcmd.symm.trans hcmd'
    · cases (inserted_spec hnew).2.1.symm.trans hfailed

/-- An event that is given up although it has been processed is seen. -/
theorem Noted.unprocessed (h : Noted db events)
    (hP : ExactlyOnce (Observability.exec e cmd db).1 (noteApplied events e cmd db)) :
    GivesUpUnprocessed e cmd db := by
  rintro id attempts error now rfl row hrow rfl hp
  obtain ⟨event, hevent, hid⟩ := (h.processed _).1 hp
  refine hP.failed _ (rewriteRow_mem hrow) ?_ event (List.mem_append_left _ hevent) ?_
  · rw [rewriteRow, if_pos rfl]
    rfl
  · rw [rewriteRow_id, hid]

/-- Attempts go down exactly if a failure comes to a row with more. -/
theorem neverLowered_iff (hk : Keyed db) : NeverLowered e cmd db ↔ CountsOn e cmd db := by
  constructor
  · rintro h id attempts error now status rfl row hrow rfl
    have hle := h row hrow _ (rewriteRow_mem hrow) rewriteRow_id
    rwa [rewriteRow, if_pos rfl] at hle
  · intro h row hrow row' hrow' hid
    obtain ⟨row₀, hrow₀, rfl⟩ | hnew := mem_exec.1 hrow'
    · rw [rewriteRow_id] at hid
      obtain rfl := Table.Numbered.eq hk hrow₀ hrow hid
      cases cmd with
      | markFailed id attempts error now status =>
        simp only [rewriteRow]
        split
        next hid => exact h id attempts error now status rfl row₀ hrow hid
        next => exact le_rfl
      | publishEvent => exact le_rfl
      | _ =>
        simp only [rewriteRow]
        split <;> exact le_rfl
    · have hlt := Table.Numbered.lt hk hrow
      rw [← hid, (inserted_spec hnew).1] at hlt
      exact absurd hlt (lt_irrefl _)

/-! ## Whole runs -/

/-- The transaction of a worker fails after its claim has been requeued and another worker has sent the event. -/
def failedLate : List ObservabilityMove :=
  [.call (.publish "t" .runtimeCompleted (.obj [])), .call (.flush ⟨100, 1, 300000⟩), .go 0 (.at 0),
    .go 0 (.at 0), .go 1 (.at 0), .go 1 (.at 0), .go 1 (.at 0), .go 1 (.at 0),
    .call (.flush ⟨100, 1, 300000⟩), .go 2 (.at 300001), .go 2 (.at 300001), .go 2 (.at 300001),
    .go 2 (.at 300001), .go 2 (.at 300001), .go 1 { Env.at 300002 with failure := some "locked" },
    .go 1 (.at 300002), .go 1 (.at 300002)]

end ChronoSynth.Observability

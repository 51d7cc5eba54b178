import ChronoSynth.DataPlane.Appends
import ChronoSynth.DataPlane.DualWrite
import ChronoSynth.Lib.JsText

/-!
# Draining the outbox

What is to hold of every run of commands and workers: the event of a command is in its own stream, once or the row
is still there; a stream has its events in the order of their commands, none before one that is pending
(`DualWritten`); and no failure uses up the last attempt of a command that was not tried (`Fair`).

A worker appends what it has read some time ago and deletes the rows afterwards, so a row goes to the ledger once
more if another worker has appended it in between or was interrupted before the `DELETE`. All is as it is to be in
exactly the runs in which a worker appends rows of one stream that are still there, that nobody holds, and that
are next in turn (`dualWritten_iff`).
-/

namespace ChronoSynth.DataPlane

variable {e : Env} {cmd : DualWriteCmd} {s s' : DualWriteState} {p : DualWritePool} {m : DualWriteMove}
  {tenantId streamId : String} {row : OutboxRow} {rows : List OutboxRow} {command : OutboxCommand} {id : ℕ}

/-! ## What is to hold -/

def DualWriteState.sources (s : DualWriteState) : List ℕ := s.ledger.map fun event => event.event.source

structure DualWritten (s : DualWriteState) : Prop where
  own : ∀ event ∈ s.ledger, ∃ command ∈ s.commands, event.event = command.event ∧
    event.InStream command.tenantId command.streamId
  once : s.sources.Nodup
  kept : ∀ command ∈ s.commands, (∃ row ∈ s.outbox, row.id = command.id) ∨ command.id ∈ s.sources
  ordered : ∀ a ∈ s.ledger, ∀ b ∈ s.ledger, a.InStream b.tenantId b.streamId →
    a.streamVersion < b.streamVersion → a.event.source < b.event.source
  /-- What is pending is not overtaken. -/
  pending : ∀ row ∈ s.outbox, row.attempts < 3 → row.id ∉ s.sources →
    ∀ event ∈ s.ledger, event.InStream row.tenantId row.streamId → event.event.source < row.id

/-- A last attempt is charged to a row that was tried. -/
def Fair (_ : Env) (cmd : DualWriteCmd) (s : DualWriteState) : Prop :=
  match cmd with
  | .recordFailure id _ _ tried => (∃ row ∈ s.outbox, row.id = id ∧ row.attempts = 2) → tried = true
  | _ => True

/-- The call has appended the row and not deleted it. -/
structure Holds (th : DualWriteThread) (id : ℕ) : Prop where
  appended : ∃ tenantId streamId rows, (.append tenantId streamId rows, none) ∈ th.log ∧ ∃ row ∈ rows, row.id = id
  kept : ∀ ids, (.deleteRows ids, none) ∈ th.log → id ∉ ids

/-- The rows may be appended to the stream. -/
structure InTurn (p : DualWritePool) (tenantId streamId : String) (rows : List OutboxRow) : Prop where
  own : ∀ row ∈ rows, row.tenantId = tenantId ∧ row.streamId = streamId
  /-- They are still there, and nobody holds one. -/
  free : ∀ row ∈ rows, (∃ row' ∈ p.db.outbox, row'.id = row.id) ∧ ∀ th ∈ p.threads, ¬ Holds th row.id
  sorted : rows.Pairwise fun a b => a.id < b.id
  /-- No pending row of the stream is left behind. -/
  next : ∀ row ∈ rows, ∀ other ∈ p.db.outbox, other.attempts < 3 → other.tenantId = tenantId →
    other.streamId = streamId → other.id < row.id → (∃ th ∈ p.threads, Holds th other.id) ∨
      ∃ row' ∈ rows, row'.id = other.id
  /-- A row that has been given up has not been overtaken. -/
  late : ∀ row ∈ rows, ∀ row' ∈ p.db.outbox, row'.id = row.id → 3 ≤ row'.attempts →
    ∀ event ∈ p.db.ledger, event.InStream tenantId streamId → event.event.source < row.id

/-- What is appended is in turn, and last attempts are charged to rows that were tried. -/
def Due (p : DualWritePool) (e : Env) (cmd : DualWriteCmd) : Prop :=
  match cmd with
  | .append tenantId streamId rows => e.failure = none → InTurn p tenantId streamId rows
  | _ => Fair e cmd p.db

def Orderly (p : DualWritePool) (m : DualWriteMove) : Prop :=
  ∀ e cmd, p.committing m = some (e, cmd) → Due p e cmd

/-! ## What the calls agree on -/

structure Books (s : DualWriteState) : Prop where
  numbered : Table.Numbered OutboxCommand.id s.commands
  known : ∀ row ∈ s.outbox, row.toOutboxCommand ∈ s.commands
  ascending : s.outbox.Pairwise fun a b => a.id < b.id
  identified : s.ledger.map EventLedgerRow.eventId = (List.range s.ledger.length).map fun n : ℕ => toString n
  versions : s.ledger.Pairwise fun a b => a.InStream b.tenantId b.streamId → a.streamVersion < b.streamVersion
  events : ∀ event ∈ s.ledger, ∃ command ∈ s.commands, event.event = command.event
  kept : ∀ command ∈ s.commands, (∃ row ∈ s.outbox, row.id = command.id) ∨ command.id ∈ s.sources

/-- What a call guarantees of a command. -/
def Agreed (cmd : DualWriteCmd) (s : DualWriteState) : Prop :=
  match cmd with
  | .append _ _ rows => (∀ row ∈ rows, row.toOutboxCommand ∈ s.commands) ∧ (rows.map fun row => row.id).Nodup
  | .deleteRows ids => ∀ id ∈ ids, id ∈ s.sources
  | .enqueue .. | .recordFailure .. => True

/-- What has been enqueued stays known, and what has been appended stays in the ledger. -/
def books : Discipline DualWriteState DualWriteCmd Env where
  inv := Books
  ext s s' := s.commands ⊆ s'.commands ∧ s.sources ⊆ s'.sources
  guar := Agreed
  may _ _ _ := True
  ext_refl _ := ⟨List.Subset.refl _, List.Subset.refl _⟩
  ext_trans h h' := ⟨List.Subset.trans h.1 h'.1, List.Subset.trans h.2 h'.2⟩

/-! ### The commands -/

def appended (e : Env) (s : DualWriteState) (tenantId streamId : String) (rows : List OutboxRow) :
    List (EventLedgerRow OutboxEvent) :=
  newRows tenantId streamId (currentVersion s.ledger tenantId streamId) (s.drafts e rows)

theorem drafts_fst : (s.drafts e rows).map Prod.fst = rows.map fun row => row.event := by
  have h : (s.drafts e rows).map Prod.fst = (rows.zipIdx.map Prod.fst).map fun row => row.event := by
    rw [DualWriteState.drafts, List.map_map, List.map_map]
    rfl
  rw [h, List.zipIdx_map_fst]

theorem drafts_ids : (s.drafts e rows).map (fun draft => draft.2.eventId) =
    (List.range rows.length).map fun n => toString (s.ledger.length + n) := by
  have h : (s.drafts e rows).map (fun draft => draft.2.eventId) =
      (rows.zipIdx.map Prod.snd).map fun n => toString (s.ledger.length + n) := by
    rw [DualWriteState.drafts, List.map_map, List.map_map]
    rfl
  rw [h, List.zipIdx_map_snd, List.range_eq_range']

theorem appended_event :
    (appended e s tenantId streamId rows).map EventLedgerRow.event = rows.map fun row => row.event := by
  rw [appended, newRows_event, drafts_fst]

theorem appended_source :
    (appended e s tenantId streamId rows).map (fun event => event.event.source) = rows.map fun row => row.id := by
  have := congrArg (List.map OutboxEvent.source) (@appended_event e s tenantId streamId rows)
  rwa [List.map_map, List.map_map] at this

theorem length_appended : (appended e s tenantId streamId rows).length = rows.length := by
  rw [← List.length_map EventLedgerRow.event, appended_event, List.length_map]

theorem Books.freshIds (hs : Books s) : FreshIds s.ledger (s.drafts e rows) := by
  have h : s.ledger.map EventLedgerRow.eventId ++ (s.drafts e rows).map (fun draft => draft.2.eventId) =
      (List.range (s.ledger.length + rows.length)).map fun n : ℕ => toString n := by
    rw [hs.identified, drafts_ids, List.range_add, List.map_append, List.map_map]
    rfl
  rw [FreshIds, h]
  exact List.nodup_range.map toString_nat_injective

theorem exec_append (hs : Books s) (hok : e.failure = none) :
    exec e (.append tenantId streamId rows) s =
      ({ s with ledger := s.ledger ++ appended e s tenantId streamId rows }, none) := by
  have hfits : Fits s.ledger tenantId streamId none := fun _ h => by cases h
  have heq := @append_fits _ _ _ _ (s.drafts e rows) _ hs.freshIds hfits
  simp only [exec, hok, heq]
  rfl

theorem sources_append :
    { s with ledger := s.ledger ++ appended e s tenantId streamId rows }.sources =
      s.sources ++ rows.map fun row => row.id := by
  rw [DualWriteState.sources, List.map_append, appended_source, DualWriteState.sources]

/-- A failed append or `DELETE` changes nothing. -/
theorem exec_failed {failure : Failure} (hfail : e.failure = some failure) :
    exec e (.append tenantId streamId rows) s = (s, some failure) := by
  simp only [exec, hfail]

theorem exec_delete {ids : List ℕ} (hok : e.failure = none) :
    exec e (.deleteRows ids) s = ({ s with outbox := s.outbox.filter fun row => row.id ∉ ids }, none) := by
  simp only [exec, hok]

/-- What has been enqueued stays. -/
theorem commands_subset : s.commands ⊆ (exec e cmd s).1.commands := by
  cases cmd with
  | enqueue => exact List.subset_append_left _ _
  | append | deleteRows =>
    simp only [exec]
    split <;> exact List.Subset.refl _
  | recordFailure => exact List.Subset.refl _

theorem sources_subset (hs : Books s) : s.sources ⊆ (exec e cmd s).1.sources := by
  cases cmd with
  | enqueue | recordFailure => exact List.Subset.refl _
  | append tenantId streamId rows =>
    cases hfail : e.failure with
    | some failure =>
      rw [exec_failed hfail]
      exact List.Subset.refl _
    | none =>
      rw [exec_append hs hfail, sources_append]
      exact List.subset_append_left _ _
  | deleteRows =>
    simp only [exec]
    split <;> exact List.Subset.refl _

theorem mem_charged {now : ℤ} {error : String} {tried : Bool}
    (hrow : row ∈ (exec e (.recordFailure id now error tried) s).1.outbox) :
    ∃ row' ∈ s.outbox, row.toOutboxCommand = row'.toOutboxCommand ∧
      row.attempts = if row'.id = id then row'.attempts + 1 else row'.attempts := by
  obtain ⟨row', hrow', rfl⟩ := Table.mem_update.1 hrow
  refine ⟨row', hrow', ?_⟩
  split <;> exact ⟨rfl, rfl⟩

theorem exists_charged {now : ℤ} {error : String} {tried : Bool} (hrow : row ∈ s.outbox) :
    ∃ row' ∈ (exec e (.recordFailure id now error tried) s).1.outbox, row'.toOutboxCommand = row.toOutboxCommand := by
  refine ⟨_, Table.mem_update.2 ⟨row, hrow, rfl⟩, ?_⟩
  split <;> rfl

namespace Books

theorem empty : Books .empty where
  numbered := .nil
  known _ h := (List.not_mem_nil h).elim
  ascending := .nil
  identified := rfl
  versions := .nil
  events _ h := (List.not_mem_nil h).elim
  kept _ h := (List.not_mem_nil h).elim

theorem id_lt (hs : Books s) (hrow : row ∈ s.outbox) : row.id < s.commands.length :=
  hs.numbered.lt (hs.known row hrow)

theorem source_lt (hs : Books s) (hid : id ∈ s.sources) : id < s.commands.length := by
  obtain ⟨event, hevent, rfl⟩ := List.mem_map.1 hid
  obtain ⟨command, hcommand, heq⟩ := hs.events event hevent
  rw [heq]
  exact hs.numbered.lt hcommand

theorem append (hs : Books s) (hknown : ∀ row ∈ rows, row.toOutboxCommand ∈ s.commands) :
    Books { s with ledger := s.ledger ++ appended e s tenantId streamId rows } where
  numbered := hs.numbered
  known := hs.known
  ascending := hs.ascending
  identified := by
    rw [List.map_append, hs.identified, appended, newRows_eventId, drafts_ids, List.length_append, ← appended,
      length_appended, List.range_add, List.map_append, List.map_map]
    rfl
  versions := by
    refine List.pairwise_append.2 ⟨hs.versions, ?_, fun old hold row hrow hin => ?_⟩
    · refine newRows_ascending.imp fun {a b} hlt _ => ?_
      exact hlt
    · obtain ⟨htenant, hstream⟩ := newRows_inStream hrow
      refine (le_currentVersion (List.mem_filter.2 ⟨hold, decide_eq_true ?_⟩)).trans_lt (newRows_gt hrow)
      exact ⟨hin.1.trans htenant, hin.2.trans hstream⟩
  events := by
    intro event hevent
    rcases List.mem_append.1 hevent with hold | hnew
    · exact hs.events event hold
    · have hmem : event.event ∈ (appended e s tenantId streamId rows).map EventLedgerRow.event :=
        List.mem_map_of_mem hnew
      rw [appended_event] at hmem
      obtain ⟨row, hrow, heq⟩ := List.mem_map.1 hmem
      exact ⟨_, hknown row hrow, heq.symm⟩
  kept := by
    intro command hcommand
    refine (hs.kept command hcommand).imp_right fun hmem => ?_
    rw [sources_append]
    exact List.mem_append_left _ hmem

theorem enqueue (hs : Books s) {eventType commandId payloadJson : String} :
    Books (exec e (.enqueue tenantId streamId eventType commandId payloadJson) s).1 where
  numbered := hs.numbered.append rfl
  known := by
    intro row hrow
    rcases List.mem_append.1 hrow with hrow | hrow
    · exact List.mem_append_left _ (hs.known row hrow)
    · obtain rfl := List.mem_singleton.1 hrow
      exact List.mem_append_right _ (List.mem_singleton_self _)
  ascending := by
    refine List.pairwise_append.2 ⟨hs.ascending, List.pairwise_singleton _ _, fun row hrow row' hrow' => ?_⟩
    obtain rfl := List.mem_singleton.1 hrow'
    exact hs.id_lt hrow
  identified := hs.identified
  versions := hs.versions
  events event hevent := by
    obtain ⟨command, hcommand, heq⟩ := hs.events event hevent
    exact ⟨command, List.mem_append_left _ hcommand, heq⟩
  kept := by
    intro command hcommand
    rcases List.mem_append.1 hcommand with hcommand | hcommand
    · refine (hs.kept command hcommand).imp_left ?_
      rintro ⟨row, hrow, heq⟩
      exact ⟨row, List.mem_append_left _ hrow, heq⟩
    · obtain rfl := List.mem_singleton.1 hcommand
      exact .inl ⟨_, List.mem_append_right _ (List.mem_singleton_self _), rfl⟩

theorem delete (hs : Books s) {ids : List ℕ} (hids : ∀ id ∈ ids, id ∈ s.sources) :
    Books { s with outbox := s.outbox.filter fun row => row.id ∉ ids } where
  numbered := hs.numbered
  known row hrow := hs.known row (List.mem_filter.1 hrow).1
  ascending := hs.ascending.filter _
  identified := hs.identified
  versions := hs.versions
  events := hs.events
  kept := by
    intro command hcommand
    rcases hs.kept command hcommand with ⟨row, hrow, heq⟩ | hmem
    · by_cases hdel : row.id ∈ ids
      · exact .inr (heq ▸ hids _ hdel)
      · exact .inl ⟨row, List.mem_filter.2 ⟨hrow, decide_eq_true hdel⟩, heq⟩
    · exact .inr hmem

theorem charge (hs : Books s) {now : ℤ} {error : String} {tried : Bool} :
    Books (exec e (.recordFailure id now error tried) s).1 where
  numbered := hs.numbered
  known := by
    intro row hrow
    obtain ⟨row', hrow', heq, -⟩ := mem_charged hrow
    exact heq ▸ hs.known row' hrow'
  ascending := by
    refine List.pairwise_map.2 (hs.ascending.imp fun {a b} hlt => ?_)
    split <;> split <;> exact hlt
  identified := hs.identified
  versions := hs.versions
  events := hs.events
  kept := by
    intro command hcommand
    refine (hs.kept command hcommand).imp_left ?_
    rintro ⟨row, hrow, heq⟩
    obtain ⟨row', hrow', heq'⟩ := @exists_charged e _ _ id now error tried hrow
    exact ⟨row', hrow', by rw [heq', heq]⟩

end Books

theorem books_kept : books.Kept exec := by
  refine fun e cmd s hs hg _ => ⟨?_, commands_subset, sources_subset hs⟩
  cases cmd with
  | enqueue => exact Books.enqueue hs
  | append tenantId streamId rows =>
    cases hfail : e.failure with
    | some failure =>
      rw [exec_failed hfail]
      exact hs
    | none =>
      rw [exec_append hs hfail]
      exact Books.append hs hg.1
  | deleteRows ids =>
    cases hfail : e.failure with
    | some failure =>
      simp only [exec, hfail]
      exact hs
    | none =>
      rw [exec_delete hfail]
      exact Books.delete hs hg
  | recordFailure => exact Books.charge hs

/-! ### The calls keep to it -/

section
variable {α : Type} {l : List (DualWriteCmd × DualWriteReply)}
  {Q : List (DualWriteCmd × DualWriteReply) → Except Empty α → DualWriteState → Prop}

theorem ext_exec (hs : Books s) : books.ext s (exec e cmd s).1 := ⟨commands_subset, sources_subset hs⟩

theorem chargeRows_meets {now : ℤ} {failure : Failure} {charged : List (OutboxRow × ℕ)}
    {g : Unit → DualWriteProg α} (hg : ∀ l s', books.ext s s' → (g ()).Meets books exec Q l s') :
    (chargeRows now failure charged >>= g).Meets books exec Q l s := by
  induction charged generalizing l s with
  | nil => exact hg l s (books.ext_refl s)
  | cons x charged ih =>
    rw [chargeRows, Prog.bind_assoc]
    refine .transaction fun s₁ hs₁ hinv₁ => ⟨trivial, fun e _ => ih fun l' s' hs' => ?_⟩
    exact hg l' s' (books.ext_trans hs₁ (books.ext_trans (ext_exec hinv₁) hs'))

theorem appendAndDelete_meets {first : OutboxRow} {g : Option Failure → DualWriteProg α}
    (hrows : Agreed (.append first.tenantId first.streamId rows) s)
    (hg : ∀ r l s', books.ext s s' → (g r).Meets books exec Q l s') :
    (appendAndDelete first rows >>= g).Meets books exec Q l s := by
  rw [appendAndDelete, Prog.bind_assoc]
  refine .transaction fun s₁ hs₁ hinv₁ => ⟨⟨fun row hrow => hs₁.1 (hrows.1 row hrow), hrows.2⟩, fun e _ => ?_⟩
  have hext := books.ext_trans hs₁ (@ext_exec e (.append first.tenantId first.streamId rows) _ hinv₁)
  cases hfail : e.failure with
  | some failure =>
    rw [exec_failed hfail] at hext ⊢
    exact hg _ _ _ hext
  | none =>
    -- what is deleted has just been appended
    have hsources : ∀ id ∈ rows.map fun row => row.id,
        id ∈ (exec e (.append first.tenantId first.streamId rows) s₁).1.sources := by
      rw [exec_append hinv₁ hfail, sources_append]
      exact fun id hid => List.mem_append_right _ hid
    have hreply : (exec e (.append first.tenantId first.streamId rows) s₁).2 = none := by
      rw [exec_append hinv₁ hfail]
    rw [hreply]
    simp only
    rw [Prog.bind_assoc]
    refine .transaction fun s₂ hs₂ hinv₂ => ⟨fun id hid => hs₂.2 (hsources id hid), fun e' _ => ?_⟩
    exact hg _ _ _ (books.ext_trans hext (books.ext_trans hs₂ (ext_exec hinv₂)))

theorem flushGroup_meets {g : ℕ × ℕ → DualWriteProg α} (hknown : ∀ row ∈ rows, row.toOutboxCommand ∈ s.commands)
    (hnodup : (rows.map fun row => row.id).Nodup)
    (hg : ∀ r l s', books.ext s s' → (g r).Meets books exec Q l s') :
    (flushGroup rows >>= g).Meets books exec Q l s := by
  cases rows with
  | nil => exact hg _ l s (books.ext_refl s)
  | cons first rest =>
    rw [flushGroup, Prog.bind_assoc]
    refine appendAndDelete_meets ⟨hknown, hnodup⟩ fun failure l' s₁ hs₁ => ?_
    cases failure with
    | none => exact hg _ l' s₁ hs₁
    | some failure =>
      simp only
      rw [Prog.bind_assoc]
      refine .queryAny fun s₂ hs₂ _ e => ?_
      rw [Prog.bind_assoc]
      exact chargeRows_meets fun l'' s₃ hs₃ => hg _ l'' s₃ (books.ext_trans hs₁ (books.ext_trans hs₂ hs₃))

theorem flushGroups_meets {groups : List (List OutboxRow)}
    (hknown : ∀ rows ∈ groups, ∀ row ∈ rows, row.toOutboxCommand ∈ s.commands)
    (hnodup : ∀ rows ∈ groups, (rows.map fun row => row.id).Nodup) :
    (flushGroups groups).Meets books exec (fun _ _ _ => True) l s := by
  have hret : ∀ l s (r : ℕ × ℕ), (pure r : DualWriteProg (ℕ × ℕ)).Meets books exec (fun _ _ _ => True) l s :=
    fun _ _ _ _ _ _ => trivial
  induction groups generalizing l s with
  | nil => exact hret l s _
  | cons rows groups ih =>
    obtain ⟨hrows, hknown⟩ := List.forall_mem_cons.1 hknown
    obtain ⟨hrows', hnodup⟩ := List.forall_mem_cons.1 hnodup
    rw [flushGroups]
    refine flushGroup_meets hrows hrows' fun r l' s' hs' => ?_
    refine .bind ((ih (fun rows' hrows' row hrow => hs'.1 (hknown rows' hrows' row hrow)) hnodup).mono ?_)
    rintro l'' (err | r') s'' - -
    · exact err.elim
    · exact hret l'' s'' _

end

theorem pending_subset {rank : ℕ → ℕ} (hrow : row ∈ s.pending rank) : row ∈ s.outbox := by
  have hmem := List.mem_of_mem_take hrow
  rw [List.mem_insertionSort] at hmem
  exact (List.mem_filter.1 hmem).1

theorem pending_nodup (hs : Books s) {rank : ℕ → ℕ} : ((s.pending rank).map fun row => row.id).Nodup := by
  have hnodup : (s.outbox.map fun row => row.id).Nodup :=
    List.pairwise_map.2 (hs.ascending.imp fun hlt => hlt.ne)
  refine List.Nodup.sublist ((List.take_sublist _ _).map _) ?_
  refine ((List.perm_insertionSort _ _).map _).nodup_iff.2 ?_
  exact hnodup.sublist (List.filter_sublist.map _)

theorem sublist_of_mem_groupRows {group : List OutboxRow} (h : group ∈ groupRows rows) : List.Sublist group rows := by
  obtain ⟨key, -, rfl⟩ := List.mem_map.1 h
  exact List.filter_sublist

theorem DualWriteCall.start_meets (c : DualWriteCall) (s : DualWriteState) :
    c.start.Meets books exec (fun _ _ _ => True) [] s := by
  cases c with
  | enqueuePersonaEvent tenantId streamId eventType commandId payloadJson =>
    exact fun s' _ _ => ⟨trivial, fun _ _ _ _ _ => trivial⟩
  | flushOutbox =>
    refine .queryAny fun s' _ hs' e => flushGroups_meets (fun group hgroup row hrow => ?_) fun group hgroup => ?_
    · exact hs'.known row (pending_subset ((sublist_of_mem_groupRows hgroup).subset hrow))
    · exact (pending_nodup hs').sublist ((sublist_of_mem_groupRows hgroup).map _)

/-! ## Turns -/

/-- What `InTurn` says, read off the database. -/
structure Turn (s : DualWriteState) (tenantId streamId : String) (rows : List OutboxRow) : Prop where
  own : ∀ row ∈ rows, row.tenantId = tenantId ∧ row.streamId = streamId
  fresh : ∀ row ∈ rows, row.id ∉ s.sources
  sorted : rows.Pairwise fun a b => a.id < b.id
  next : ∀ row ∈ rows, ∀ other ∈ s.outbox, other.attempts < 3 → other.tenantId = tenantId →
    other.streamId = streamId → other.id < row.id → other.id ∈ s.sources ∨ ∃ row' ∈ rows, row'.id = other.id
  after : ∀ row ∈ rows, ∀ event ∈ s.ledger, event.InStream tenantId streamId → event.event.source < row.id

theorem mem_appended {event : EventLedgerRow OutboxEvent} (h : event ∈ appended e s tenantId streamId rows) :
    event.InStream tenantId streamId ∧ ∃ row ∈ rows, event.event = row.event := by
  refine ⟨newRows_inStream h, ?_⟩
  have hmem : event.event ∈ (appended e s tenantId streamId rows).map EventLedgerRow.event := List.mem_map_of_mem h
  rw [appended_event] at hmem
  obtain ⟨row, hrow, heq⟩ := List.mem_map.1 hmem
  exact ⟨row, hrow, heq.symm⟩

theorem exists_appended (h : row ∈ rows) :
    ∃ event ∈ appended e s tenantId streamId rows, event.event = row.event := by
  have hmem : row.event ∈ (appended e s tenantId streamId rows).map EventLedgerRow.event := by
    rw [appended_event]
    exact List.mem_map_of_mem h
  exact List.mem_map.1 hmem

variable (e s tenantId streamId) in
theorem appended_sorted :
    (appended e s tenantId streamId rows).Pairwise (fun a b => a.event.source < b.event.source) ↔
      rows.Pairwise fun a b => a.id < b.id := by
  rw [← List.pairwise_map (f := fun row : OutboxRow => row.id), ← @appended_source e s tenantId streamId rows, List.pairwise_map]

theorem appended_ascending :
    (appended e s tenantId streamId rows).Pairwise fun a b => a.streamVersion < b.streamVersion :=
  newRows_ascending

namespace DualWritten

theorem empty : DualWritten .empty where
  own _ h := (List.not_mem_nil h).elim
  once := List.nodup_nil
  kept _ h := (List.not_mem_nil h).elim
  ordered _ h := (List.not_mem_nil h).elim
  pending _ h := (List.not_mem_nil h).elim

theorem enqueue (hw : DualWritten s) (hs : Books s) {eventType commandId payloadJson : String} :
    DualWritten (exec e (.enqueue tenantId streamId eventType commandId payloadJson) s).1 where
  own event hevent := by
    obtain ⟨command, hcommand, heq⟩ := hw.own event hevent
    exact ⟨command, List.mem_append_left _ hcommand, heq⟩
  once := hw.once
  kept := hs.enqueue.kept
  ordered := hw.ordered
  pending := by
    intro row hrow hattempts hfresh event hevent hin
    rcases List.mem_append.1 hrow with hrow | hrow
    · exact hw.pending row hrow hattempts hfresh event hevent hin
    · obtain rfl := List.mem_singleton.1 hrow
      exact hs.source_lt (List.mem_map_of_mem hevent)

theorem delete (hw : DualWritten s) (hs : Books s) {ids : List ℕ} (hids : ∀ id ∈ ids, id ∈ s.sources) :
    DualWritten { s with outbox := s.outbox.filter fun row => row.id ∉ ids } where
  own := hw.own
  once := hw.once
  kept := (hs.delete hids).kept
  ordered := hw.ordered
  pending row hrow := hw.pending row (List.mem_filter.1 hrow).1

theorem charge (hw : DualWritten s) (hs : Books s) {now : ℤ} {error : String} {tried : Bool} :
    DualWritten (exec e (.recordFailure id now error tried) s).1 where
  own := hw.own
  once := hw.once
  kept := hs.charge.kept
  ordered := hw.ordered
  pending := by
    intro row hrow hattempts hfresh event hevent hin
    obtain ⟨row', hrow', heq, hatt⟩ := mem_charged hrow
    have hattempts' : row'.attempts < 3 := by
      split at hatt <;> omega
    rw [heq] at hfresh hin ⊢
    exact hw.pending row' hrow' hattempts' hfresh event hevent hin

/-- **An append** keeps all as it is to be exactly if it is in turn. -/
theorem append_iff (hw : DualWritten s) (hs : Books s) (hg : Agreed (.append tenantId streamId rows) s) :
    DualWritten { s with ledger := s.ledger ++ appended e s tenantId streamId rows } ↔
      Turn s tenantId streamId rows := by
  have hnew : ∀ event ∈ appended e s tenantId streamId rows,
      event ∈ s.ledger ++ appended e s tenantId streamId rows := fun event h => List.mem_append_right _ h
  constructor
  · intro h
    have hown : ∀ row ∈ rows, row.tenantId = tenantId ∧ row.streamId = streamId := by
      intro row hrow
      obtain ⟨event, hevent, heq⟩ := @exists_appended e s tenantId streamId _ _ hrow
      obtain ⟨command, hcommand, heq', htenant, hstream⟩ := h.own event (hnew event hevent)
      obtain ⟨htenant', hstream'⟩ := (mem_appended hevent).1
      have hid : command.id = row.id := congrArg OutboxEvent.source (heq'.symm.trans heq)
      obtain rfl := hs.numbered.eq hcommand (hg.1 row hrow) hid
      exact ⟨htenant.symm.trans htenant', hstream.symm.trans hstream'⟩
    have hafter : ∀ row ∈ rows, ∀ event ∈ s.ledger, event.InStream tenantId streamId →
        event.event.source < row.id := by
      intro row hrow event hevent hin
      obtain ⟨event', hevent', heq⟩ := @exists_appended e s tenantId streamId _ _ hrow
      obtain ⟨htenant', hstream'⟩ := (mem_appended hevent').1
      have hlt := h.ordered event (List.mem_append_left _ hevent) event' (hnew event' hevent')
        (by rwa [htenant', hstream'])
        ((le_currentVersion (List.mem_filter.2 ⟨hevent, decide_eq_true hin⟩)).trans_lt (newRows_gt hevent'))
      rwa [heq] at hlt
    have honce := h.once
    rw [sources_append, List.nodup_append] at honce
    refine ⟨hown, fun row hrow hmem => honce.2.2 _ hmem _ (List.mem_map_of_mem hrow) rfl, ?_, ?_, hafter⟩
    · refine (appended_sorted e s tenantId streamId).1 (appended_ascending.imp_of_mem fun {a b} ha hb hab => ?_)
      obtain ⟨htenant, hstream⟩ := (mem_appended hb).1
      exact h.ordered a (hnew a ha) b (hnew b hb) (by rw [htenant, hstream]; exact (mem_appended ha).1) hab
    · intro row hrow other hother hattempts htenant hstream hlt
      by_contra hnot
      obtain ⟨hold, hrows⟩ := not_or.1 hnot
      obtain ⟨event, hevent, heq⟩ := @exists_appended e s tenantId streamId _ _ hrow
      have := h.pending other hother hattempts ?_ event (hnew event hevent)
        (by rw [htenant, hstream]; exact (mem_appended hevent).1)
      · rw [heq] at this
        exact absurd this (lt_asymm hlt)
      · rw [sources_append, List.mem_append]
        rintro (hmem | hmem)
        · exact hold hmem
        · obtain ⟨row', hrow', heq'⟩ := List.mem_map.1 hmem
          exact hrows ⟨row', hrow', heq'⟩
  · intro hturn
    refine ⟨fun event hevent => ?_, ?_, (hs.append hg.1).kept, fun a ha b hb hin hab => ?_,
      fun row hrow hattempts hfresh event hevent hin => ?_⟩
    · rcases List.mem_append.1 hevent with hevent | hevent
      · exact hw.own event hevent
      · obtain ⟨hin, row, hrow, heq⟩ := mem_appended hevent
        obtain ⟨htenant, hstream⟩ := hturn.own row hrow
        exact ⟨row.toOutboxCommand, hg.1 row hrow, heq, by rwa [htenant, hstream]⟩
    · rw [sources_append, List.nodup_append]
      refine ⟨hw.once, hg.2, fun id hid id' hid' heq => ?_⟩
      obtain ⟨row, hrow, rfl⟩ := List.mem_map.1 hid'
      exact hturn.fresh row hrow (heq ▸ hid)
    · rcases List.mem_append.1 ha with ha | ha
      · rcases List.mem_append.1 hb with hb | hb
        · exact hw.ordered a ha b hb hin hab
        · obtain ⟨⟨htenant, hstream⟩, row, hrow, heq⟩ := mem_appended hb
          rw [htenant, hstream] at hin
          rw [heq]
          exact hturn.after row hrow a ha hin
      · rcases List.mem_append.1 hb with hb | hb
        · -- an older event does not have a later version
          obtain ⟨htenant, hstream⟩ := (mem_appended ha).1
          have hle := le_currentVersion (List.mem_filter.2 ⟨hb, decide_eq_true
            (show b.InStream tenantId streamId from ⟨hin.1.symm.trans htenant, hin.2.symm.trans hstream⟩)⟩)
          exact absurd (hab.trans_le hle) (lt_asymm (newRows_gt ha))
        · have hsorted := (appended_sorted e s tenantId streamId).2 hturn.sorted
          rcases Feed.pairwise_or (appended_ascending.and hsorted) ha hb (fun heq => absurd (heq ▸ hab) (lt_irrefl _)) with hlt | hgt
          · exact hlt.2
          · exact absurd hgt.1 (lt_asymm hab)
    · rw [sources_append, List.mem_append, not_or] at hfresh
      rcases List.mem_append.1 hevent with hevent | hevent
      · exact hw.pending row hrow hattempts hfresh.1 event hevent hin
      · obtain ⟨⟨htenant, hstream⟩, row', hrow', heq⟩ := mem_appended hevent
        rw [heq]
        by_contra hge
        have hne : row'.id ≠ row.id := fun heq' => hfresh.2 (heq' ▸ List.mem_map_of_mem hrow')
        have hlt : row.id < row'.id := lt_of_le_of_ne (le_of_not_gt hge) hne.symm
        rcases hturn.next row' hrow' row hrow hattempts (hin.1.symm.trans htenant) (hin.2.symm.trans hstream) hlt with
          hmem | ⟨row'', hrow'', heq''⟩
        · exact hfresh.1 hmem
        · exact hfresh.2 (heq'' ▸ List.mem_map_of_mem hrow'')

end DualWritten

/-! ## Runs -/

/-- What the logs tell of the database. -/
structure Logbook (p : DualWritePool) : Prop where
  appended : ∀ id, id ∈ p.db.sources ↔
    ∃ tenantId streamId rows, p.Logged (.append tenantId streamId rows, none) ∧ ∃ row ∈ rows, row.id = id
  /-- What has been deleted is in the ledger and does not come back. -/
  deleted : ∀ ids, p.Logged (.deleteRows ids, none) → ∀ id ∈ ids, id ∈ p.db.sources ∧
    ∀ row ∈ p.db.outbox, row.id ≠ id

/-- The invariant of the runs in which all is in turn. -/
structure Draining (p : DualWritePool) : Prop extends Logbook p where
  sound : p.Sound books exec fun _ _ _ _ => True
  written : DualWritten p.db

namespace Draining

theorem init : Draining .init where
  sound := .idle .empty
  appended id := by simp [DualWritePool.init, Pool.idle, Pool.Logged, DualWriteState.sources, DualWriteState.empty]
  deleted _ h := by
    obtain ⟨_, hth, -⟩ := h
    cases hth
  written := .empty

theorem mem_of_holds (h : Draining p) {th : DualWriteThread} (hth : th ∈ p.threads) (hholds : Holds th id) :
    id ∈ p.db.sources := by
  obtain ⟨tenantId, streamId, rows, hlog, row, hrow, heq⟩ := hholds.appended
  exact (h.appended id).2 ⟨tenantId, streamId, rows, ⟨th, hth, hlog⟩, row, hrow, heq⟩

theorem held_iff (h : Draining p) (hrow : row ∈ p.db.outbox) :
    row.id ∈ p.db.sources ↔ ∃ th ∈ p.threads, Holds th row.id := by
  constructor
  · intro hmem
    obtain ⟨tenantId, streamId, rows, ⟨th, hth, hlog⟩, row', hrow', heq⟩ := (h.appended _).1 hmem
    refine ⟨th, hth, ⟨tenantId, streamId, rows, hlog, row', hrow', heq⟩, fun ids hdel hid => ?_⟩
    exact (h.deleted ids ⟨th, hth, hdel⟩ _ hid).2 row hrow rfl
  · rintro ⟨th, hth, hholds⟩
    exact h.mem_of_holds hth hholds

theorem inTurn_iff (h : Draining p) (hg : Agreed (.append tenantId streamId rows) p.db) :
    InTurn p tenantId streamId rows ↔ Turn p.db tenantId streamId rows := by
  have hbooks : Books p.db := h.sound.inv
  constructor
  · intro ht
    have hfresh : ∀ row ∈ rows, row.id ∉ p.db.sources := by
      intro row hrow hmem
      obtain ⟨⟨row', hrow', heq⟩, hfree⟩ := ht.free row hrow
      rw [← heq] at hmem hfree
      obtain ⟨th, hth, hholds⟩ := (h.held_iff hrow').1 hmem
      exact hfree th hth hholds
    refine ⟨ht.own, hfresh, ht.sorted, fun row hrow other hother hattempts htenant hstream hlt => ?_,
      fun row hrow event hevent hin => ?_⟩
    · refine (ht.next row hrow other hother hattempts htenant hstream hlt).imp_left ?_
      rintro ⟨th, hth, hholds⟩
      exact h.mem_of_holds hth hholds
    · obtain ⟨⟨row', hrow', heq⟩, -⟩ := ht.free row hrow
      by_cases hattempts : row'.attempts < 3
      · have hcommand : row'.toOutboxCommand = row.toOutboxCommand :=
          hbooks.numbered.eq (hbooks.known row' hrow') (hg.1 row hrow) heq
        obtain ⟨htenant, hstream⟩ := ht.own row hrow
        rw [← heq]
        refine h.written.pending row' hrow' hattempts (heq ▸ hfresh row hrow) event hevent ?_
        rwa [congrArg OutboxCommand.tenantId hcommand, congrArg OutboxCommand.streamId hcommand, htenant, hstream]
      · exact ht.late row hrow row' hrow' heq (Nat.le_of_not_lt hattempts) event hevent hin
  · intro ht
    refine ⟨ht.own, fun row hrow => ⟨?_, fun th hth hholds => ?_⟩, ht.sorted,
      fun row hrow other hother hattempts htenant hstream hlt => ?_,
      fun row hrow _ _ _ _ => ht.after row hrow⟩
    · exact (hbooks.kept _ (hg.1 row hrow)).resolve_right (ht.fresh row hrow)
    · exact ht.fresh row hrow (h.mem_of_holds hth hholds)
    · exact (ht.next row hrow other hother hattempts htenant hstream hlt).imp_left (h.held_iff hother).1

theorem logged_iff (x : DualWriteCmd × DualWriteReply) : (p.step m).Logged x ↔
    p.Logged x ∨ ∃ e, p.committing m = some (e, x.1) ∧ x.2 = (exec e x.1 p.db).2 :=
  Pool.logged_step DualWriteCall.start exec p m x

theorem logged_commit (hm : p.committing m = some (e, cmd)) (x : DualWriteCmd × DualWriteReply) :
    (p.step m).Logged x ↔ p.Logged x ∨ x = (cmd, (exec e cmd p.db).2) := by
  rw [logged_iff, hm]
  refine or_congr_right ⟨?_, ?_⟩
  · rintro ⟨e', heq, hx⟩
    obtain ⟨rfl, rfl⟩ := Prod.mk.inj (Option.some.inj heq)
    exact Prod.ext rfl hx
  · rintro rfl
    exact ⟨e, rfl, rfl⟩

theorem bookkeeping (h : Draining p) (hm : p.committing m = some (e, cmd))
    (hdb : (p.step m).db = (exec e cmd p.db).1) : Logbook (p.step m) := by
  have hbooks : Books p.db := h.sound.inv
  have hg := h.sound.guar hm
  -- a transaction that is neither an append nor a `DELETE` that has gone through
  have hquiet : (∀ tenantId streamId rows, (DualWriteCmd.append tenantId streamId rows, none) ≠
        (cmd, (exec e cmd p.db).2)) → (∀ ids, (DualWriteCmd.deleteRows ids, none) ≠ (cmd, (exec e cmd p.db).2)) →
      (exec e cmd p.db).1.sources = p.db.sources →
      (∀ row ∈ (exec e cmd p.db).1.outbox, row.id ∉ p.db.sources ∨ ∃ row' ∈ p.db.outbox, row'.id = row.id) →
      Logbook (p.step m) := by
    intro happend hdelete hsources houtbox
    refine ⟨fun id => ?_, fun ids hlog id hid => ?_⟩
    · rw [hdb, hsources, h.appended]
      simp only [logged_commit hm, happend, or_false]
    · rw [logged_commit hm, or_iff_left (hdelete ids)] at hlog
      obtain ⟨hmem, hgone⟩ := h.deleted ids hlog id hid
      rw [hdb, hsources]
      refine ⟨hmem, fun row hrow heq => ?_⟩
      rcases houtbox row hrow with hfresh | ⟨row', hrow', heq'⟩
      · exact hfresh (heq ▸ hmem)
      · exact hgone row' hrow' (heq'.trans heq)
  cases cmd with
  | enqueue tenantId streamId eventType commandId payloadJson =>
    refine hquiet (fun _ _ _ h => by cases h) (fun _ h => by cases h) rfl fun row hrow => ?_
    rcases List.mem_append.1 hrow with hrow | hrow
    · exact .inr ⟨row, hrow, rfl⟩
    · obtain rfl := List.mem_singleton.1 hrow
      exact .inl fun hmem => lt_irrefl _ (hbooks.source_lt hmem)
  | recordFailure id now error tried =>
    refine hquiet (fun _ _ _ h => by cases h) (fun _ h => by cases h) rfl fun row hrow => ?_
    obtain ⟨row', hrow', heq, -⟩ := mem_charged hrow
    exact .inr ⟨row', hrow', congrArg OutboxCommand.id heq.symm⟩
  | append tenantId streamId rows =>
    cases hfail : e.failure with
    | some failure =>
      rw [exec_failed hfail] at hquiet
      exact hquiet (fun _ _ _ h => by cases h) (fun _ h => by cases h) rfl fun row hrow => .inr ⟨row, hrow, rfl⟩
    | none =>
      rw [exec_append hbooks hfail] at hdb
      refine ⟨fun id => ?_, fun ids hlog id hid => ?_⟩
      · simp only [logged_commit hm, exec_append hbooks hfail]
        rw [hdb, sources_append, List.mem_append, h.appended, List.mem_map]
        constructor
        · rintro (⟨t, st, rows', hlog, hrow⟩ | hrow)
          · exact ⟨t, st, rows', .inl hlog, hrow⟩
          · exact ⟨tenantId, streamId, rows, .inr rfl, hrow⟩
        · rintro ⟨t, st, rows', hlog | heq, hrow⟩
          · exact .inl ⟨t, st, rows', hlog, hrow⟩
          · cases heq
            exact .inr hrow
      · rw [logged_commit hm, exec_append hbooks hfail] at hlog
        obtain ⟨hmem, hgone⟩ := h.deleted ids (hlog.resolve_right fun heq => by cases heq) id hid
        rw [hdb, sources_append]
        exact ⟨List.mem_append_left _ hmem, hgone⟩
  | deleteRows ids =>
    cases hfail : e.failure with
    | some failure =>
      have hexec : exec e (.deleteRows ids) p.db = (p.db, some failure) := by simp only [exec, hfail]
      rw [hexec] at hquiet
      exact hquiet (fun _ _ _ h => by cases h) (fun _ h => by cases h) rfl fun row hrow => .inr ⟨row, hrow, rfl⟩
    | none =>
      rw [exec_delete hfail] at hdb
      refine ⟨fun id => ?_, fun ids' hlog id hid => ?_⟩
      · simp only [logged_commit hm, exec_delete hfail]
        rw [hdb]
        refine (h.appended id).trans ?_
        simp
      · rw [logged_commit hm, exec_delete hfail] at hlog
        rw [hdb]
        rcases hlog with hlog | heq
        · obtain ⟨hmem, hgone⟩ := h.deleted ids' hlog id hid
          exact ⟨hmem, fun row hrow => hgone row (List.mem_filter.1 hrow).1⟩
        · cases heq
          refine ⟨hg id hid, fun row hrow heq => ?_⟩
          exact of_decide_eq_true (List.mem_filter.1 hrow).2 (heq ▸ hid)

/-- What the transactions have to meet, read off the database. -/
theorem orderly_iff (h : Draining p) (hm : p.committing m = some (e, cmd)) : Orderly p m ↔
    Fair e cmd p.db ∧ DualWritten (exec e cmd p.db).1 := by
  have hbooks : Books p.db := h.sound.inv
  have hg := h.sound.guar hm
  have hiff : Orderly p m ↔ Due p e cmd := by
    refine ⟨fun ho => ho e cmd hm, fun ho e' cmd' hm' => ?_⟩
    obtain ⟨rfl, rfl⟩ := Prod.mk.inj (Option.some.inj (hm.symm.trans hm'))
    exact ho
  rw [hiff]
  cases cmd with
  | enqueue => exact iff_of_true trivial ⟨trivial, h.written.enqueue hbooks⟩
  | recordFailure => exact (and_iff_left (h.written.charge hbooks)).symm
  | append tenantId streamId rows =>
    cases hfail : e.failure with
    | some failure =>
      rw [exec_failed hfail]
      exact iff_of_true (fun hnone => absurd (hfail.symm.trans hnone) (by simp)) ⟨trivial, h.written⟩
    | none =>
      rw [exec_append hbooks hfail, h.written.append_iff hbooks hg, ← h.inTurn_iff hg]
      exact ⟨fun ht => ⟨trivial, ht hfail⟩, fun ht _ => ht.2⟩
  | deleteRows ids =>
    refine iff_of_true trivial ⟨trivial, ?_⟩
    cases hfail : e.failure with
    | some failure =>
      simp only [exec, hfail]
      exact h.written
    | none =>
      rw [exec_delete hfail]
      exact h.written.delete hbooks hg

/-- **Step lemma.** -/
theorem step (h : Draining p) (ho : Orderly p m) : Draining (p.step m) ∧ p.AtCommit Fair m := by
  have hsound : (p.step m).Sound books exec fun _ _ _ _ => True :=
    h.sound.step books_kept (fun c s _ => c.start_meets s) fun _ _ _ => trivial
  obtain ⟨hm, hdb⟩ | ⟨e, cmd, hm, hdb⟩ := Pool.step_db DualWriteCall.start exec p m
  · have hlogged : ∀ x, (p.step m).Logged x ↔ p.Logged x := by
      intro x
      rw [logged_iff, hm]
      simp
    refine ⟨⟨⟨fun id => ?_, fun ids hlog id hid => ?_⟩, hsound, ?_⟩, Pool.atCommit_none hm⟩
    · simp only [hlogged, hdb]
      exact h.appended id
    · rw [hdb]
      exact h.deleted ids ((hlogged _).1 hlog) id hid
    · rw [hdb]
      exact h.written
  · obtain ⟨hfair, hwritten⟩ := (h.orderly_iff hm).1 ho
    exact ⟨⟨h.bookkeeping hm hdb, hsound, hdb ▸ hwritten⟩, (Pool.atCommit_some hm).2 hfair⟩

theorem need (h : Draining p) (hP : DualWritten (p.step m).db) (hF : p.AtCommit Fair m) : Orderly p m := by
  obtain ⟨hm, -⟩ | ⟨e, cmd, hm, hdb⟩ := Pool.step_db DualWriteCall.start exec p m
  · intro e cmd hm'
    rw [hm] at hm'
    cases hm'
  · exact (h.orderly_iff hm).2 ⟨hF e cmd hm, hdb ▸ hP⟩

end Draining

/-- **The dual write** is as it is to be in exactly the runs in which appends are in turn and last attempts are
charged to rows that were tried. -/
theorem dualWritten_iff (ms : List DualWriteMove) :
    (Always DualWritePool.step (fun p => DualWritten p.db) .init ms ∧
      Along DualWritePool.step (fun p => p.AtCommit Fair) .init ms) ↔
      Along DualWritePool.step Orderly .init ms :=
  always_and_along_iff (I := Draining) .init (fun _ h => h.written) (fun _ _ h ho => h.step ho)
    fun _ _ h hP hF => h.need hP hF

/-- A worker that does not come back between the append and the `DELETE`, and the next one. -/
def interrupted : List DualWriteMove :=
  [.call (.enqueuePersonaEvent "t" "s" "persona.created" "cmd" ""), .go 0 (.at 1), .call .flushOutbox, .go 1 (.at 2),
    .go 1 (.at 2), .call .flushOutbox, .go 2 (.at 3), .go 2 (.at 3)]

theorem appended_twice : ¬ ∀ ms, Always DualWritePool.step (fun p => DualWritten p.db) .init ms ∧
    Along DualWritePool.step (fun p => p.AtCommit Fair) .init ms := by
  intro h
  have htwice : ¬ (run DualWritePool.step .init interrupted).db.sources.Nodup := by decide +kernel
  exact htwice (h interrupted).1.last.once

end ChronoSynth.DataPlane

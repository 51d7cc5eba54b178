import Mathlib.Data.List.Nodup
import ChronoSynth.DataPlane.SqliteEventLedger

/-!
# Consumers of the ledger

A consumer reads in the order of the times and the ids. As long as nothing is appended behind its cursor, what it
has received is what is not after the cursor (`InPlace`); if it goes on polling it gets the whole feed
(`drained`). What is behind its cursor without its having received it is lost for good (`Lost.forever`): a cursor
that names no event, the handle of an empty ledger, has everything behind it.
-/

namespace ChronoSynth.DataPlane

open EventLedgerRow (position)

variable {δ : Type} {ledger : List (EventLedgerRow δ)} {row r : EventLedgerRow δ} {checkpoint : Option String}
  {tenantId streamId c c' : String} {s : LedgerState δ} {m : LedgerMove δ}

/-! ## Checkpoints -/

/-- Ids are not given twice. -/
def Distinct (ledger : List (EventLedgerRow δ)) : Prop := (ledger.map EventLedgerRow.eventId).Nodup

namespace Distinct

theorem eq_of_eventId (h : Distinct ledger) (hrow : row ∈ ledger) (hr : r ∈ ledger)
    (heq : row.eventId = r.eventId) : row = r :=
  List.inj_on_of_nodup_map h hrow hr heq

theorem positions (h : Distinct ledger) : (ledger.map position).Nodup := by
  refine List.Nodup.of_map (fun p : Position => (ofLex p).2) ?_
  rw [List.map_map]
  exact h

theorem nodup (h : Distinct ledger) : ledger.Nodup := List.Nodup.of_map _ h

theorem occurredAtOf (h : Distinct ledger) (hr : r ∈ ledger) :
    occurredAtOf ledger r.eventId = some r.occurredAt := by
  unfold DataPlane.occurredAtOf
  cases hfind : ledger.find? fun row => row.eventId = r.eventId with
  | none => exact absurd (List.find?_eq_none.1 hfind r hr) (by simp)
  | some row =>
    have heq := List.find?_some hfind
    rw [h.eq_of_eventId (List.mem_of_find?_eq_some hfind) hr (of_decide_eq_true heq)]
    rfl

end Distinct

theorem occurredAtOf_none {eventId : String} (h : ∀ r ∈ ledger, r.eventId ≠ eventId) :
    occurredAtOf ledger eventId = none := by
  rw [occurredAtOf, Option.map_eq_none_iff, List.find?_eq_none]
  simpa using h

theorem position_lt : r.position < row.position ↔
    r.occurredAt < row.occurredAt ∨ row.occurredAt = r.occurredAt ∧ r.eventId < row.eventId := by
  rw [position, position, Prod.Lex.toLex_lt_toLex, eq_comm]

theorem ahead_iff (h : Distinct ledger) (hr : r ∈ ledger) :
    Ahead ledger (some r.eventId) row ↔ r.position < row.position := by
  rw [position_lt]
  simp only [Ahead, h.occurredAtOf hr]

theorem not_ahead {eventId : String} (h : ∀ r ∈ ledger, r.eventId ≠ eventId) :
    ¬ Ahead ledger (some eventId) row := by
  simp [Ahead, occurredAtOf_none h]

theorem checkpoint_cases (ledger : List (EventLedgerRow δ)) (checkpoint : Option String) :
    checkpoint = none ∨ (∃ r ∈ ledger, checkpoint = some r.eventId) ∨
      ∃ eventId, checkpoint = some eventId ∧ ∀ r ∈ ledger, r.eventId ≠ eventId := by
  cases checkpoint with
  | none => exact .inl rfl
  | some eventId =>
    by_cases h : ∃ r ∈ ledger, r.eventId = eventId
    · obtain ⟨r, hr, rfl⟩ := h
      exact .inr (.inl ⟨r, hr, rfl⟩)
    · exact .inr (.inr ⟨eventId, rfl, fun r hr heq => h ⟨r, hr, heq⟩⟩)

theorem ahead_upward (h : Distinct ledger) {a b : EventLedgerRow δ} (ha : Ahead ledger checkpoint a)
    (hab : a.position < b.position) : Ahead ledger checkpoint b := by
  obtain rfl | ⟨r, hr, rfl⟩ | ⟨eventId, rfl, hnone⟩ := checkpoint_cases ledger checkpoint
  · trivial
  · exact (ahead_iff h hr).2 (((ahead_iff h hr).1 ha).trans hab)
  · exact absurd ha (not_ahead hnone)

/-! ## Batches -/

theorem limit_append {α : Type} (n : ℤ) (rows : List α) : ∃ rest, limit n rows ++ rest = rows := by
  unfold limit
  split
  · exact ⟨[], List.append_nil _⟩
  · exact ⟨_, List.take_append_drop _ _⟩

theorem limit_eq_nil {α : Type} {n : ℤ} {rows : List α} (hn : n ≠ 0) : limit n rows = [] ↔ rows = [] := by
  unfold limit
  split
  · rfl
  · rw [List.take_eq_nil_iff]
    have : n.toNat ≠ 0 := by omega
    simp [this]

/-- The feed of the consumers. -/
abbrev feed (ledger : List (EventLedgerRow δ)) : List (EventLedgerRow δ) := Feed.ordered position ledger

theorem feed_filter (h : Distinct ledger) {p : EventLedgerRow δ → Prop} [DecidablePred p] :
    feed (ledger.filter p) = (feed ledger).filter p :=
  Feed.ordered_filter h.positions

/-- What a consumer at the checkpoint has received. -/
def seen (ledger : List (EventLedgerRow δ)) (checkpoint : Option String) : List (EventLedgerRow δ) :=
  feed (ledger.filter fun row => ¬ Ahead ledger checkpoint row)

theorem mem_seen : row ∈ seen ledger checkpoint ↔ row ∈ ledger ∧ ¬ Ahead ledger checkpoint row := by
  simp [seen]

theorem seen_none : seen ledger none = [] := by
  simp [seen, Ahead]

/-- **A batch** brings the consumer to its last event. -/
theorem seen_batch (h : Distinct ledger) {n : ℤ} {page : List (EventLedgerRow δ)}
    (hbatch : batch ledger checkpoint n = page ++ [r]) :
    r ∈ ledger ∧ Ahead ledger checkpoint r ∧
      seen ledger (some r.eventId) = seen ledger checkpoint ++ batch ledger checkpoint n := by
  obtain ⟨rest, hrest⟩ := limit_append n (feed (ledger.filter fun row => Ahead ledger checkpoint row))
  rw [← batch, hbatch, List.append_assoc, List.singleton_append] at hrest
  have hmem : r ∈ feed (ledger.filter fun row => Ahead ledger checkpoint row) := by
    rw [← hrest]
    simp
  rw [Feed.mem_ordered, List.mem_filter, decide_eq_true_iff] at hmem
  refine ⟨hmem.1, hmem.2, ?_⟩
  rw [feed_filter h] at hrest
  have hseen := Feed.seen_append (Feed.ordered_lt h.positions)
    (fun a _ b _ ha hab => @ahead_upward _ _ checkpoint h _ _ ha hab) hrest.symm
  rw [seen, seen, feed_filter h, feed_filter h, hbatch, ← hseen]
  exact List.filter_congr fun row _ => decide_eq_decide.2 (not_congr (ahead_iff h hmem.1))

theorem batch_subset {n : ℤ} (hrow : row ∈ batch ledger checkpoint n) :
    row ∈ ledger ∧ Ahead ledger checkpoint row := by
  obtain ⟨rest, hrest⟩ := limit_append n (feed (ledger.filter fun row => Ahead ledger checkpoint row))
  have hmem : row ∈ feed (ledger.filter fun row => Ahead ledger checkpoint row) := by
    rw [← hrest]
    exact List.mem_append_left _ hrow
  simpa using hmem

theorem ahead_of_batch_nil {n : ℤ} (hn : n ≠ 0) (hbatch : batch ledger checkpoint n = []) (hrow : row ∈ ledger) :
    ¬ Ahead ledger checkpoint row := by
  rw [batch, limit_eq_nil hn, Feed.ordered_eq_nil, List.filter_eq_nil_iff] at hbatch
  simpa using hbatch row hrow

theorem batchHandle_nil : batchHandle checkpoint ([] : List (EventLedgerRow δ)) = checkpoint.getD "" := rfl

theorem batchHandle_concat {page : List (EventLedgerRow δ)} :
    batchHandle checkpoint (page ++ [r]) = r.eventId := by
  simp [batchHandle]

/-! ## Consumers -/

namespace LedgerState

/-- Where a consumer is: at the end of the batch it has not acknowledged yet, or at its checkpoint. -/
def cursor (s : LedgerState δ) (c : String) : Option String :=
  match (s.consumers c).handle with
  | some handle => some handle
  | none => s.checkpoints c

def InPlace (s : LedgerState δ) (c : String) : Prop := (s.consumers c).received = seen s.ledger (s.cursor c)

/-- A consumer that has never polled. -/
structure Fresh (s : LedgerState δ) (c : String) : Prop where
  checkpoint : s.checkpoints c = none
  consumer : s.consumers c = ⟨none, []⟩

theorem Fresh.cursor (h : s.Fresh c) : s.cursor c = none := by
  rw [LedgerState.cursor, h.consumer]
  exact h.checkpoint

theorem Fresh.inPlace (h : s.Fresh c) : s.InPlace c := by
  rw [InPlace, h.cursor, seen_none, h.consumer]

/-! ### What a move does to a consumer -/

theorem step_append {drafts : List (δ × Draw)} {expectedVersion : Option ℤ} :
    (s.step (.append tenantId streamId drafts expectedVersion)).cursor c = s.cursor c := rfl

theorem nextBatch_other {n : ℤ} (h : c ≠ c') :
    (s.step (.nextBatch c' n)).consumers c = s.consumers c ∧
      (s.step (.nextBatch c' n)).checkpoints = s.checkpoints ∧ (s.step (.nextBatch c' n)).ledger = s.ledger := by
  rw [step]
  cases (s.consumers c').handle with
  | some handle => exact ⟨rfl, rfl, rfl⟩
  | none => exact ⟨Function.update_of_ne h _ _, rfl, rfl⟩

theorem ackBatch_other (h : c ≠ c') :
    (s.step (.ackBatch c')).consumers c = s.consumers c ∧
      (s.step (.ackBatch c')).checkpoints c = s.checkpoints c := by
  rw [step]
  cases (s.consumers c').handle with
  | none => exact ⟨rfl, rfl⟩
  | some handle => exact ⟨Function.update_of_ne h _ _, Function.update_of_ne h _ _⟩

@[simp] theorem step_nextBatch_ledger {n : ℤ} : (s.step (.nextBatch c n)).ledger = s.ledger := by
  rw [step]
  cases (s.consumers c).handle <;> rfl

@[simp] theorem step_ackBatch_ledger : (s.step (.ackBatch c)).ledger = s.ledger := by
  rw [step]
  cases (s.consumers c).handle <;> rfl

theorem nextBatch_open {n : ℤ} {handle : String} (h : (s.consumers c).handle = some handle) :
    s.step (.nextBatch c n) = s := by
  simp only [step, h]

theorem nextBatch_closed {n : ℤ} (h : (s.consumers c).handle = none) :
    (s.step (.nextBatch c n)).consumers c =
      ⟨some (batchHandle (s.cursor c) (batch s.ledger (s.cursor c) n)),
        (s.consumers c).received ++ batch s.ledger (s.cursor c) n⟩ := by
  simp only [step, cursor, h, Function.update_self]

theorem ackBatch_self :
    (s.step (.ackBatch c)).cursor c = s.cursor c ∧
      (s.step (.ackBatch c)).consumers c = ⟨none, (s.consumers c).received⟩ := by
  simp only [step, cursor]
  cases h : (s.consumers c).handle with
  | none =>
    simp only [h]
    exact ⟨trivial, by rw [← h]⟩
  | some handle => simp only [Function.update_self, and_self]

/-- **A poll** brings a consumer to the end of the batch, if an empty batch of one at the start is that of an
empty ledger. -/
theorem InPlace.nextBatch (h : Distinct s.ledger) (hs : s.InPlace c) {n : ℤ}
    (hn : (s.consumers c).handle = none → s.cursor c = none → n = 0 → s.ledger = []) :
    (s.step (.nextBatch c n)).InPlace c := by
  cases hopen : (s.consumers c).handle with
  | some handle => rwa [nextBatch_open hopen]
  | none =>
    have hself := nextBatch_closed (n := n) hopen
    have hcursor : (s.step (.nextBatch c n)).cursor c =
        some (batchHandle (s.cursor c) (batch s.ledger (s.cursor c) n)) := by
      rw [cursor, hself]
    rw [InPlace, hcursor, hself, step_nextBatch_ledger, hs]
    rcases List.eq_nil_or_concat' (batch s.ledger (s.cursor c) n) with hnil | ⟨page, r, hpage⟩
    · rw [hnil, batchHandle_nil, List.append_nil]
      cases hc : s.cursor c with
      | some handle => rfl
      | none =>
        have hempty : s.ledger = [] := by
          by_cases h0 : n = 0
          · exact hn hopen hc h0
          · refine List.eq_nil_iff_forall_not_mem.2 fun row hrow => ?_
            exact ahead_of_batch_nil h0 hnil hrow (by rw [hc]; trivial)
        simp [seen, hempty]
    · have hseen := (seen_batch h hpage).2.2
      rw [hpage, batchHandle_concat] at *
      exact hseen.symm

theorem InPlace.ackBatch (hs : s.InPlace c) : (s.step (.ackBatch c)).InPlace c := by
  obtain ⟨hcursor, hself⟩ := ackBatch_self (s := s) (c := c)
  rw [InPlace, hcursor, hself, step_ackBatch_ledger]
  exact hs

/-- The moves of others leave a consumer where it is. -/
theorem InPlace.nextBatch_other {n : ℤ} (hs : s.InPlace c) (h : c ≠ c') :
    (s.step (.nextBatch c' n)).InPlace c := by
  obtain ⟨hself, hcheck, hledger⟩ := LedgerState.nextBatch_other (s := s) (n := n) h
  rwa [InPlace, cursor, hself, hcheck, hledger]

theorem InPlace.ackBatch_other (hs : s.InPlace c) (h : c ≠ c') : (s.step (.ackBatch c')).InPlace c := by
  obtain ⟨hself, hcheck⟩ := LedgerState.ackBatch_other (s := s) h
  rwa [InPlace, cursor, hself, hcheck, step_ackBatch_ledger]

/-! ### Going on polling -/

/-- A consumer polls and acknowledges, with batches of the given sizes. -/
def rounds (c : String) (sizes : List ℤ) : List (LedgerMove δ) :=
  sizes.flatMap fun n => [.nextBatch c n, .ackBatch c]

/-- What becomes of the ledger when only this consumer goes on. -/
abbrev polled (s : LedgerState δ) (c : String) (sizes : List ℤ) : LedgerState δ := run step s (rounds c sizes)

/-- One poll with its acknowledgement. -/
abbrev round (s : LedgerState δ) (c : String) (n : ℤ) : LedgerState δ :=
  (s.step (.nextBatch c n)).step (.ackBatch c)

theorem polled_cons {n : ℤ} {sizes : List ℤ} : s.polled c (n :: sizes) = (s.round c n).polled c sizes := rfl

theorem round_ledger {n : ℤ} : (s.round c n).ledger = s.ledger := by
  rw [round, step_ackBatch_ledger, step_nextBatch_ledger]

theorem round_closed {n : ℤ} : ((s.round c n).consumers c).handle = none := by
  rw [round, ackBatch_self.2]

theorem InPlace.round (h : Distinct s.ledger) (hs : s.InPlace c) {n : ℤ} (hn : n ≠ 0) :
    (s.round c n).InPlace c :=
  (hs.nextBatch h fun _ _ h0 => absurd h0 hn).ackBatch

theorem InPlace.all (h : Distinct s.ledger) (hs : s.InPlace c)
    (hlen : s.ledger.length ≤ (s.consumers c).received.length) : (s.consumers c).received = feed s.ledger := by
  have hsub : List.Sublist (s.consumers c).received (feed s.ledger) := by
    rw [hs, seen, feed_filter h]
    exact List.filter_sublist
  exact hsub.eq_of_length_le (by rwa [Feed.length_ordered])

theorem InPlace.progress (hs : s.InPlace c) {n : ℤ} (hn : n ≠ 0) (hclosed : (s.consumers c).handle = none) :
    (s.consumers c).received.length < ((s.round c n).consumers c).received.length ∨
      s.ledger.length ≤ ((s.round c n).consumers c).received.length := by
  rw [LedgerState.round, ackBatch_self.2, nextBatch_closed hclosed, List.length_append]
  cases hbatch : batch s.ledger (s.cursor c) n with
  | cons row rows =>
    left
    simp
  | nil =>
    right
    have hall : (s.ledger.filter fun row => ¬ Ahead s.ledger (s.cursor c) row) = s.ledger :=
      List.filter_eq_self.2 fun row hrow => decide_eq_true (ahead_of_batch_nil hn hbatch hrow)
    rw [hs, seen, Feed.length_ordered, hall]
    exact Nat.le_add_right _ _

theorem drained_closed {sizes : List ℤ} (h : Distinct s.ledger) (hs : s.InPlace c)
    (hclosed : (s.consumers c).handle = none) (hsizes : ∀ n ∈ sizes, n ≠ 0)
    (hlen : s.ledger.length ≤ (s.consumers c).received.length + sizes.length) :
    ((s.polled c sizes).consumers c).received = feed s.ledger := by
  induction sizes generalizing s with
  | nil => exact hs.all h hlen
  | cons n sizes ih =>
    obtain ⟨hn, hsizes⟩ := List.forall_mem_cons.1 hsizes
    rw [polled_cons, ← round_ledger (s := s) (c := c) (n := n)]
    refine ih (by rwa [round_ledger]) (hs.round h hn) round_closed hsizes ?_
    rw [round_ledger]
    rw [List.length_cons] at hlen
    rcases hs.progress hn hclosed with hlt | hle
    · omega
    · omega

/-- **Going on.** Who polls often enough gets the whole feed. -/
theorem drained {sizes : List ℤ} (h : Distinct s.ledger) (hs : s.InPlace c) (hsizes : ∀ n ∈ sizes, n ≠ 0)
    (hlen : s.ledger.length < sizes.length) :
    ((s.polled c sizes).consumers c).received = feed s.ledger := by
  cases sizes with
  | nil => exact absurd hlen (Nat.not_lt_zero _)
  | cons n sizes =>
    obtain ⟨hn, hsizes⟩ := List.forall_mem_cons.1 hsizes
    rw [polled_cons, ← round_ledger (s := s) (c := c) (n := n)]
    refine drained_closed (by rwa [round_ledger]) (hs.round h hn) round_closed hsizes ?_
    rw [round_ledger]
    exact (Nat.le_of_lt_succ hlen).trans (Nat.le_add_left _ _)

/-- The event is behind the cursor of a consumer that has not received it. -/
structure Lost (s : LedgerState δ) (c : String) (row : EventLedgerRow δ) : Prop where
  polled : s.cursor c ≠ none
  behind : ¬ Ahead s.ledger (s.cursor c) row
  missing : row ∉ (s.consumers c).received

theorem Lost.round (h : Distinct s.ledger) (hl : s.Lost c row) {n : ℤ} : (s.round c n).Lost c row := by
  have hnext : (s.step (.nextBatch c n)).Lost c row := by
    cases hopen : (s.consumers c).handle with
    | some handle => rwa [nextBatch_open hopen]
    | none =>
      have hself := nextBatch_closed (n := n) hopen
      have hcursor : (s.step (.nextBatch c n)).cursor c =
          some (batchHandle (s.cursor c) (batch s.ledger (s.cursor c) n)) := by
        rw [cursor, hself]
      refine ⟨by simp [hcursor], ?_, ?_⟩
      · rw [hcursor, step_nextBatch_ledger]
        rcases List.eq_nil_or_concat' (batch s.ledger (s.cursor c) n) with hnil | ⟨page, r, hpage⟩
        · obtain ⟨eventId, hc⟩ := Option.ne_none_iff_exists'.1 hl.polled
          rw [hnil, batchHandle_nil, hc]
          exact hc ▸ hl.behind
        · obtain ⟨hr, hahead, -⟩ := seen_batch h hpage
          rw [hpage, batchHandle_concat, ahead_iff h hr]
          exact fun hlt => hl.behind (ahead_upward h hahead hlt)
      · rw [hself, List.mem_append]
        exact not_or.2 ⟨hl.missing, fun hrow => hl.behind (batch_subset hrow).2⟩
  obtain ⟨hcursor, hself⟩ := ackBatch_self (s := s.step (.nextBatch c n)) (c := c)
  refine ⟨?_, ?_, ?_⟩
  · rw [hcursor]
    exact hnext.polled
  · rw [hcursor, step_ackBatch_ledger]
    exact hnext.behind
  · rw [hself]
    exact hnext.missing

theorem Lost.forever (h : Distinct s.ledger) (hl : s.Lost c row) {sizes : List ℤ} :
    row ∉ ((s.polled c sizes).consumers c).received := by
  induction sizes generalizing s with
  | nil => exact hl.missing
  | cons n sizes ih =>
    rw [polled_cons]
    exact ih (by rwa [round_ledger]) (hl.round h)

end LedgerState

end ChronoSynth.DataPlane

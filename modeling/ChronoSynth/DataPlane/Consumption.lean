import Mathlib.Data.Fintype.EquivFin
import ChronoSynth.DataPlane.Appends
import ChronoSynth.DataPlane.Consumers

/-!
# Consumption of the ledger

What is to hold in every state of a run of appends and consumers: the versions of a stream are contiguous, and
whoever goes on polling gets every event of the ledger once, those of a stream in its order (`Consumable`); and
an append adds all its events or none (`AppendedWhole`).

Appends are ordered by the version of the stream and reads by the time and the id. The ledger is consumable in
exactly the runs in which every event is appended after its stream and after the cursors of all consumers
(`consumable_iff`).
-/

namespace ChronoSynth.DataPlane

open EventLedgerRow (position)

variable {δ : Type} {ledger : List (EventLedgerRow δ)} {row r : EventLedgerRow δ} {tenantId streamId c : String}
  {drafts : List (δ × Draw)} {expectedVersion : Option ℤ} {s : LedgerState δ} {m : LedgerMove δ}

/-! ## What is to hold -/

/-- No event stands before an earlier one of its stream. -/
def InOrder (events : List (EventLedgerRow δ)) : Prop :=
  events.Pairwise fun a b => a.InStream b.tenantId b.streamId → a.streamVersion < b.streamVersion

structure Consumable (s : LedgerState δ) : Prop where
  contiguous : ∀ tenantId streamId, (streamRows s.ledger tenantId streamId).map EventLedgerRow.streamVersion =
    (List.range (streamRows s.ledger tenantId streamId).length).map fun n : ℕ => (n : ℤ)
  received : ∀ c, (s.consumers c).received.Nodup ∧ InOrder (s.consumers c).received
  /-- Whoever goes on polling gets every event once. -/
  polled : ∀ c sizes, (∀ n ∈ sizes, n ≠ 0) → s.ledger.length < sizes.length →
    ((s.polled c sizes).consumers c).received.Perm s.ledger ∧ InOrder ((s.polled c sizes).consumers c).received

/-- An append adds all its events, to the stream it is for and if the version is the expected one, or none. -/
def AppendedWhole (s : LedgerState δ) : LedgerMove δ → Prop
  | .append tenantId streamId drafts expectedVersion =>
    match (append tenantId streamId drafts expectedVersion s.ledger).2 with
    | .ok _ => Fits s.ledger tenantId streamId expectedVersion ∧
      ∃ rows, (s.step (.append tenantId streamId drafts expectedVersion)).ledger = s.ledger ++ rows ∧
        rows.map EventLedgerRow.event = drafts.map Prod.fst ∧ ∀ row ∈ rows, row.InStream tenantId streamId
    | .error _ => (s.step (.append tenantId streamId drafts expectedVersion)).ledger = s.ledger
  | .nextBatch _ _ | .ackBatch _ => True

/-- The ids of the events are all different. -/
def Identified (s : LedgerState δ) : LedgerMove δ → Prop
  | .append _ _ drafts _ => FreshIds s.ledger drafts
  | .nextBatch _ _ | .ackBatch _ => True

instance : Decidable (Identified s m) :=
  match m with
  | .append _ _ _ _ => inferInstanceAs (Decidable (List.Nodup _))
  | .nextBatch _ _ => isTrue trivial
  | .ackBatch _ => isTrue trivial

/-- Events are appended after their stream and after all cursors, and a consumer that starts asks for a batch of
some size or the ledger is empty. -/
def Sequential (s : LedgerState δ) : LedgerMove δ → Prop
  | .append tenantId streamId drafts expectedVersion =>
    Fits s.ledger tenantId streamId expectedVersion →
      (drafts.map fun draft => draft.2.position).Pairwise (· < ·) ∧
      ∀ draft ∈ drafts, (∀ row ∈ streamRows s.ledger tenantId streamId, row.position < draft.2.position) ∧
        ∀ c eventId, s.cursor c = some eventId →
          ∃ row ∈ s.ledger, row.eventId = eventId ∧ row.position < draft.2.position
  | .nextBatch c n => (s.consumers c).handle = none → s.cursor c = none → n = 0 → s.ledger = []
  | .ackBatch _ => True

/-- The invariant of the runs in which all is sequential. -/
structure Consuming (s : LedgerState δ) : Prop where
  distinct : Distinct s.ledger
  contiguous : ∀ tenantId streamId, (streamRows s.ledger tenantId streamId).map EventLedgerRow.streamVersion =
    (List.range (streamRows s.ledger tenantId streamId).length).map fun n : ℕ => (n : ℤ)
  ordered : s.ledger.Pairwise fun a b => a.InStream b.tenantId b.streamId →
    a.streamVersion < b.streamVersion ∧ a.position < b.position
  inPlace : ∀ c, s.InPlace c
  /-- There are always consumers that have not polled yet. -/
  fresh : ∃ polled : List String, ∀ c, c ∉ polled → s.Fresh c

/-! ## Orders -/

theorem inOrder_feed (h : Distinct ledger) (ho : ledger.Pairwise fun a b => a.InStream b.tenantId b.streamId →
    a.streamVersion < b.streamVersion ∧ a.position < b.position) : InOrder (feed ledger) := by
  refine List.Pairwise.imp_of_mem (fun {a b} ha hb hab hin => ?_) (Feed.ordered_lt h.positions)
  have hne : a ≠ b := fun heq => absurd (heq ▸ hab) (lt_irrefl _)
  rcases Feed.pairwise_or ho (Feed.mem_ordered.1 ha) (Feed.mem_ordered.1 hb) hne with hlt | hgt
  · exact (hlt hin).1
  · exact absurd (hgt ⟨hin.1.symm, hin.2.symm⟩).2 (lt_asymm hab)

theorem position_of_inOrder (h : Distinct ledger) (ho : InOrder (feed ledger)) {a b : EventLedgerRow δ}
    (ha : a ∈ ledger) (hb : b ∈ ledger) (hin : a.InStream b.tenantId b.streamId)
    (hab : a.streamVersion < b.streamVersion) : a.position < b.position := by
  have hboth := (Feed.ordered_lt h.positions).and ho
  have hne : a ≠ b := fun heq => absurd (heq ▸ hab) (lt_irrefl _)
  rcases Feed.pairwise_or hboth (Feed.mem_ordered.2 ha) (Feed.mem_ordered.2 hb) hne with hlt | hgt
  · exact hlt.1
  · exact absurd (hgt.2 ⟨hin.1.symm, hin.2.symm⟩) (lt_asymm hab)

namespace Consuming

theorem init : Consuming (LedgerState.init δ) where
  distinct := List.nodup_nil
  contiguous _ _ := rfl
  ordered := List.Pairwise.nil
  inPlace _ := LedgerState.Fresh.inPlace ⟨rfl, rfl⟩
  fresh := ⟨[], fun _ _ => ⟨rfl, rfl⟩⟩

theorem consumable (h : Consuming s) : Consumable s := by
  have hfeed := inOrder_feed h.distinct h.ordered
  refine ⟨h.contiguous, fun c => ?_, fun c sizes hsizes hlen => ?_⟩
  · have hsub : List.Sublist (s.consumers c).received (feed s.ledger) := by
      rw [h.inPlace c, seen, feed_filter h.distinct]
      exact List.filter_sublist
    exact ⟨(Feed.ordered_perm.nodup_iff.2 h.distinct.nodup).sublist hsub, hfeed.sublist hsub⟩
  · rw [LedgerState.drained h.distinct (h.inPlace c) hsizes hlen]
    exact ⟨Feed.ordered_perm, hfeed⟩

theorem currentVersion_eq (h : Consuming s) :
    currentVersion s.ledger tenantId streamId = ((streamRows s.ledger tenantId streamId).length : ℤ) - 1 := by
  unfold currentVersion
  rw [h.contiguous]
  cases hlen : (streamRows s.ledger tenantId streamId).length with
  | zero => rfl
  | succ k =>
    have hmax : ((List.range (k + 1)).map fun n : ℕ => (n : ℤ)).max? = some (k : ℤ) := by
      refine List.max?_eq_some_iff.2 ⟨List.mem_map_of_mem (List.mem_range.2 k.lt_succ_self), ?_⟩
      simp only [List.mem_map, List.mem_range]
      omega
    rw [hmax, Option.getD_some]
    omega

theorem streamRows_append {version : ℤ} {tenantId' streamId' : String} :
    streamRows (ledger ++ newRows tenantId streamId version drafts) tenantId' streamId' =
      streamRows ledger tenantId' streamId' ++
        if tenantId = tenantId' ∧ streamId = streamId' then newRows tenantId streamId version drafts else [] := by
  rw [streamRows, List.filter_append, ← streamRows]
  refine congrArg _ ?_
  split
  next heq =>
    obtain ⟨rfl, rfl⟩ := heq
    exact List.filter_eq_self.2 fun row hrow => decide_eq_true (newRows_inStream hrow)
  next hne =>
    refine List.filter_eq_nil_iff.2 fun row hrow hin => hne ?_
    obtain ⟨htenant, hstream⟩ := newRows_inStream hrow
    obtain ⟨htenant', hstream'⟩ := of_decide_eq_true hin
    exact ⟨htenant.symm.trans htenant', hstream.symm.trans hstream'⟩

theorem contiguous_append (h : Consuming s) {tenantId' streamId' : String} :
    let ledger := s.ledger ++ newRows tenantId streamId (currentVersion s.ledger tenantId streamId) drafts
    (streamRows ledger tenantId' streamId').map EventLedgerRow.streamVersion =
      (List.range (streamRows ledger tenantId' streamId').length).map fun n : ℕ => (n : ℤ) := by
  intro ledger
  rw [streamRows_append]
  split
  next heq =>
    obtain ⟨rfl, rfl⟩ := heq
    have hlen : (newRows tenantId streamId (currentVersion s.ledger tenantId streamId) drafts).length =
        drafts.length := by
      rw [← List.length_map EventLedgerRow.event, newRows_event, List.length_map]
    rw [List.map_append, h.contiguous, newRows_version, List.length_append, hlen, List.range_add, List.map_append,
      List.map_map, h.currentVersion_eq]
    refine congrArg _ (List.map_congr_left fun n _ => ?_)
    simp only [Function.comp_apply, Nat.cast_add]
    omega
  next =>
    rw [List.append_nil]
    exact h.contiguous _ _

/-- A consumer stays where it is if nothing is appended behind its cursor. -/
theorem seen_ahead {new : List (EventLedgerRow δ)} {checkpoint : Option String}
    (hd : Distinct (ledger ++ new)) (h : ∀ row ∈ new, ∀ eventId, checkpoint = some eventId →
      ∃ r ∈ ledger, r.eventId = eventId ∧ r.position < row.position) :
    seen (ledger ++ new) checkpoint = seen ledger checkpoint := by
  cases checkpoint with
  | none => rw [seen_none, seen_none]
  | some eventId =>
    rcases List.eq_nil_or_concat' new with rfl | ⟨new, last, rfl⟩
    · rw [List.append_nil]
    · obtain ⟨r, hr, rfl, -⟩ := h last (by simp) eventId rfl
      have hd₀ : Distinct ledger := by
        rw [Distinct, List.map_append] at hd
        exact hd.of_append_left
      have hr' : r ∈ ledger ++ (new ++ [last]) := List.mem_append_left _ hr
      rw [seen, seen, List.filter_append]
      have hnew : ((new ++ [last]).filter fun row => ¬ Ahead (ledger ++ (new ++ [last])) (some r.eventId) row) =
          [] := by
        refine List.filter_eq_nil_iff.2 fun row hrow => ?_
        obtain ⟨r', hr'', heq, hlt⟩ := h row hrow r.eventId rfl
        obtain rfl := hd₀.eq_of_eventId hr'' hr heq
        simpa using (ahead_iff hd hr').2 hlt
      rw [hnew, List.append_nil]
      refine congrArg _ (List.filter_congr fun row _ => decide_eq_decide.2 (not_congr ?_))
      rw [ahead_iff hd hr', ahead_iff hd₀ hr]

theorem append (h : Consuming s) (hid : FreshIds s.ledger drafts)
    (hC : Sequential s (.append tenantId streamId drafts expectedVersion)) :
    Consuming (s.step (.append tenantId streamId drafts expectedVersion)) := by
  by_cases hfits : Fits s.ledger tenantId streamId expectedVersion
  · obtain ⟨hsorted, hdrafts⟩ := hC hfits
    have hledger : (s.step (.append tenantId streamId drafts expectedVersion)).ledger =
        s.ledger ++ newRows tenantId streamId (currentVersion s.ledger tenantId streamId) drafts := by
      rw [LedgerState.step, append_fits hid hfits]
    have hdistinct : Distinct
        (s.ledger ++ newRows tenantId streamId (currentVersion s.ledger tenantId streamId) drafts) := by
      rw [Distinct, List.map_append, newRows_eventId]
      exact hid
    obtain ⟨names, hfresh⟩ := h.fresh
    refine ⟨?_, ?_, ?_, fun c => ?_, names, fun c hc => ⟨(hfresh c hc).checkpoint, (hfresh c hc).consumer⟩⟩
    · rwa [hledger]
    · rw [hledger]
      exact fun _ _ => h.contiguous_append
    · rw [hledger]
      refine List.pairwise_append.2 ⟨h.ordered, ?_, fun old hold row hrow hin => ?_⟩
      · refine (newRows_ascending.and (newRows_pos hsorted)).imp fun {a b} hab _ => ?_
        exact hab
      · obtain ⟨htenant, hstream⟩ := newRows_inStream hrow
        have hmem : old ∈ streamRows s.ledger tenantId streamId :=
          List.mem_filter.2 ⟨hold, decide_eq_true ⟨hin.1.trans htenant, hin.2.trans hstream⟩⟩
        obtain ⟨draft, hdraft, hpos⟩ := exists_draft hrow
        exact ⟨(le_currentVersion hmem).trans_lt (newRows_gt hrow), hpos ▸ (hdrafts draft hdraft).1 old hmem⟩
    · rw [LedgerState.InPlace, LedgerState.step_append, hledger, seen_ahead hdistinct]
      · exact h.inPlace c
      · intro row hrow eventId hcursor
        obtain ⟨draft, hdraft, hpos⟩ := exists_draft hrow
        rw [hpos]
        exact (hdrafts draft hdraft).2 c eventId hcursor
  · obtain ⟨err, heq⟩ := @append_refused _ _ _ _ drafts _ hfits
    have hsame : s.step (.append tenantId streamId drafts expectedVersion) = s := by
      rw [LedgerState.step, heq]
    rwa [hsame]

/-- **Step lemma.** -/
theorem step (h : Consuming s) (hid : Identified s m) (hC : Sequential s m) : Consuming (s.step m) := by
  cases m with
  | append tenantId streamId drafts expectedVersion => exact h.append hid hC
  | nextBatch c n =>
    obtain ⟨names, hfresh⟩ := h.fresh
    refine ⟨by simpa using h.distinct, by simpa using h.contiguous, by simpa using h.ordered, fun c' => ?_,
      c :: names, fun c' hc' => ?_⟩
    · by_cases heq : c' = c
      · subst heq
        exact (h.inPlace c').nextBatch h.distinct hC
      · exact (h.inPlace c').nextBatch_other heq
    · obtain ⟨hne, hc'⟩ := not_or.1 (mt List.mem_cons.2 hc')
      obtain ⟨hself, hcheck, -⟩ := LedgerState.nextBatch_other (s := s) (n := n) hne
      exact ⟨hcheck ▸ (hfresh c' hc').checkpoint, hself ▸ (hfresh c' hc').consumer⟩
  | ackBatch c =>
    obtain ⟨names, hfresh⟩ := h.fresh
    refine ⟨by simpa using h.distinct, by simpa using h.contiguous, by simpa using h.ordered, fun c' => ?_,
      c :: names, fun c' hc' => ?_⟩
    · by_cases heq : c' = c
      · subst heq
        exact (h.inPlace c').ackBatch
      · exact (h.inPlace c').ackBatch_other heq
    · obtain ⟨hne, hc'⟩ := not_or.1 (mt List.mem_cons.2 hc')
      obtain ⟨hself, hcheck⟩ := LedgerState.ackBatch_other (s := s) hne
      exact ⟨hcheck ▸ (hfresh c' hc').checkpoint, hself ▸ (hfresh c' hc').consumer⟩

/-! ### What a run that stays consumable shows -/

/-- Sizes of batches, more than there are events. -/
def enough (n : ℕ) : List ℤ := List.replicate (n + 1) 1

theorem enough_ne {n : ℕ} : ∀ size ∈ enough n, size ≠ 0 := by
  intro size hsize
  rw [List.eq_of_mem_replicate hsize]
  exact one_ne_zero

theorem lt_enough {n : ℕ} : n < (enough n).length := by simp [enough]

theorem not_lost (hd : Distinct s.ledger) (hP : Consumable s) (hrow : row ∈ s.ledger) : ¬ s.Lost c row :=
  fun hl => hl.forever hd ((hP.polled c _ enough_ne lt_enough).1.mem_iff.2 hrow)

theorem exists_fresh (h : Consuming s) : ∃ c, s.Fresh c := by
  obtain ⟨names, hfresh⟩ := h.fresh
  obtain ⟨c, hc⟩ := Infinite.exists_notMem_finset names.toFinset
  exact ⟨c, hfresh c fun hmem => hc (List.mem_toFinset.2 hmem)⟩

theorem need_append (h : Consuming s) (hid : FreshIds s.ledger drafts)
    (hP : Consumable (s.step (.append tenantId streamId drafts expectedVersion))) :
    Sequential s (.append tenantId streamId drafts expectedVersion) := by
  intro hfits
  have hledger : (s.step (.append tenantId streamId drafts expectedVersion)).ledger =
      s.ledger ++ newRows tenantId streamId (currentVersion s.ledger tenantId streamId) drafts := by
    rw [LedgerState.step, append_fits hid hfits]
  have hd : Distinct (s.step (.append tenantId streamId drafts expectedVersion)).ledger := by
    rw [hledger, Distinct, List.map_append, newRows_eventId]
    exact hid
  -- a consumer that has not polled yet gets the feed, which must be in order
  have horder : InOrder (feed (s.step (.append tenantId streamId drafts expectedVersion)).ledger) := by
    obtain ⟨c, hc⟩ := h.exists_fresh
    have hc' : (s.step (.append tenantId streamId drafts expectedVersion)).Fresh c := ⟨hc.checkpoint, hc.consumer⟩
    have := (hP.polled c _ enough_ne lt_enough).2
    rwa [LedgerState.drained hd hc'.inPlace enough_ne lt_enough] at this
  have hnew : ∀ row ∈ newRows tenantId streamId (currentVersion s.ledger tenantId streamId) drafts,
      row ∈ (s.step (.append tenantId streamId drafts expectedVersion)).ledger := by
    intro row hrow
    rw [hledger]
    exact List.mem_append_right _ hrow
  refine ⟨?_, fun draft hdraft => ⟨fun old hold => ?_, fun c eventId hcursor => ?_⟩⟩
  · rw [← @newRows_position δ tenantId streamId drafts (currentVersion s.ledger tenantId streamId), List.pairwise_map]
    refine newRows_ascending.imp_of_mem fun {a b} ha hb hab => ?_
    refine position_of_inOrder hd horder (hnew a ha) (hnew b hb) ?_ hab
    obtain ⟨htenant, hstream⟩ := newRows_inStream hb
    rw [htenant, hstream]
    exact newRows_inStream ha
  · obtain ⟨row, hrow, hpos⟩ := @exists_newRow δ tenantId streamId drafts
      (currentVersion s.ledger tenantId streamId) draft hdraft
    obtain ⟨hmem, hin⟩ := List.mem_filter.1 hold
    rw [← hpos]
    refine position_of_inOrder hd horder ?_ (hnew row hrow) ?_ ((le_currentVersion hold).trans_lt (newRows_gt hrow))
    · rw [hledger]
      exact List.mem_append_left _ hmem
    · obtain ⟨htenant, hstream⟩ := newRows_inStream hrow
      rw [htenant, hstream]
      exact of_decide_eq_true hin
  · -- what is appended is ahead of every cursor, as it has not been received yet
    have hahead : ∀ row ∈ newRows tenantId streamId (currentVersion s.ledger tenantId streamId) drafts,
        Ahead (s.step (.append tenantId streamId drafts expectedVersion)).ledger (some eventId) row := by
      intro row hrow
      by_contra hbehind
      refine not_lost (c := c) hd hP (hnew row hrow) ⟨?_, ?_, fun hmem => ?_⟩
      · rw [LedgerState.step_append, hcursor]
        exact Option.some_ne_none _
      · rwa [LedgerState.step_append, hcursor]
      · have hold : row ∈ s.ledger := (mem_seen.1 (h.inPlace c ▸ hmem : row ∈ seen s.ledger (s.cursor c))).1
        rw [hledger] at hd
        exact (List.nodup_append.1 hd.nodup).2.2 row hold row hrow rfl
    obtain ⟨row, hrow, hpos⟩ := @exists_newRow δ tenantId streamId drafts
      (currentVersion s.ledger tenantId streamId) draft hdraft
    obtain hnone | ⟨r, hr, heq⟩ | ⟨eventId', heq, hnone⟩ :=
      checkpoint_cases (s.step (.append tenantId streamId drafts expectedVersion)).ledger (some eventId)
    · cases hnone
    · obtain rfl := Option.some.inj heq
      refine ⟨r, ?_, rfl, ?_⟩
      · rw [hledger] at hr
        refine (List.mem_append.1 hr).resolve_right fun hrnew => ?_
        exact lt_irrefl _ ((ahead_iff hd (hnew r hrnew)).1 (hahead r hrnew))
      · rw [← hpos]
        exact (ahead_iff hd hr).1 (hahead row hrow)
    · obtain rfl := Option.some.inj heq
      exact absurd (hahead row hrow) (not_ahead hnone)

theorem need_nextBatch (h : Consuming s) {n : ℤ} (hP : Consumable (s.step (.nextBatch c n))) :
    Sequential s (.nextBatch c n) := by
  rintro hclosed hcursor rfl
  by_contra hne
  have hbatch : batch s.ledger (s.cursor c) 0 = [] := rfl
  have hself := LedgerState.nextBatch_closed (n := 0) hclosed
  rw [hbatch, batchHandle_nil, List.append_nil, hcursor, Option.getD_none] at hself
  have hc : (s.step (.nextBatch c 0)).cursor c = some "" := by
    rw [LedgerState.cursor, hself]
  have hreceived : (s.consumers c).received = [] := by
    rw [h.inPlace c, hcursor, seen_none]
  have hd : Distinct (s.step (.nextBatch c 0)).ledger := by simpa using h.distinct
  -- some event is not after the empty id, whether there is one with it or not
  obtain ⟨row, hrow, hbehind⟩ : ∃ row ∈ s.ledger, ¬ Ahead s.ledger (some "") row := by
    obtain hnone | ⟨r, hr, heq⟩ | ⟨eventId, heq, hnone⟩ := checkpoint_cases s.ledger (some "")
    · cases hnone
    · refine ⟨r, hr, ?_⟩
      rw [heq, ahead_iff h.distinct hr]
      exact lt_irrefl _
    · obtain rfl := Option.some.inj heq
      obtain ⟨row, hrow⟩ := List.exists_mem_of_ne_nil _ hne
      exact ⟨row, hrow, not_ahead hnone⟩
  refine @not_lost δ row c _ hd hP (by simpa using hrow) ⟨by simp [hc], ?_, ?_⟩
  · rwa [hc, LedgerState.step_nextBatch_ledger]
  · rw [hself, hreceived]
    exact List.not_mem_nil

theorem need (h : Consuming s) (hid : Identified s m) (hP : Consumable (s.step m)) : Sequential s m := by
  cases m with
  | append tenantId streamId drafts expectedVersion => exact h.need_append hid hP
  | nextBatch c n => exact h.need_nextBatch hP
  | ackBatch c => trivial

end Consuming

theorem appendedWhole (hid : Identified s m) : AppendedWhole s m := by
  cases m with
  | nextBatch | ackBatch => trivial
  | append tenantId streamId drafts expectedVersion =>
    rw [AppendedWhole]
    by_cases hfits : Fits s.ledger tenantId streamId expectedVersion
    · rw [LedgerState.step, append_fits hid hfits]
      exact ⟨hfits, _, rfl, newRows_event, fun _ => newRows_inStream⟩
    · obtain ⟨err, heq⟩ := @append_refused _ _ _ _ drafts _ hfits
      rw [LedgerState.step, heq]

/-- **The ledger.** In a run in which no id is given twice, appends are whole, and the ledger is consumable in all
states exactly if everything is appended in sequence. -/
theorem consumable_iff {ms : List (LedgerMove δ)} (hid : Along LedgerState.step Identified (.init δ) ms) :
    (Always LedgerState.step Consumable (.init δ) ms ∧ Along LedgerState.step AppendedWhole (.init δ) ms) ↔
      Along LedgerState.step Sequential (.init δ) ms := by
  have hwhole : Along LedgerState.step AppendedWhole (.init δ) ms := hid.mono fun _ _ => appendedWhole
  have hiff := @always_and_along_iff _ _ LedgerState.step Consumable Consuming
    (fun s m => Sequential s m ∧ Identified s m) _ ms Identified (@Consuming.init δ)
    (fun _ => Consuming.consumable) (fun s m h hm => ⟨h.step hm.2 hm.1, hm.2⟩)
    fun s m h hP hid => ⟨h.need hid hP, hid⟩
  refine ⟨fun h => (hiff.1 ⟨h.1, hid⟩).mono fun _ _ hm => hm.1, fun h => ⟨(hiff.2 ?_).1, hwhole⟩⟩
  exact fun pre m hpre => ⟨h pre m hpre, hid pre m hpre⟩

/-- An event with an id and a time. -/
def drafted (eventId : String) (occurredAt : ℤ) : DraftEvent × Draw :=
  (⟨"persona.created", 1, "cmd", "\x7b\x7d", none⟩, ⟨eventId, occurredAt⟩)

/-- Two appends with a poll between them. -/
def polledBetween : List (LedgerMove DraftEvent) :=
  [.append "t" "s" [drafted "b" 1] none, .nextBatch "c" 10, .ackBatch "c", .append "t" "s" [drafted "a" 2] (some 0)]

theorem consumable_polledBetween :
    (Always LedgerState.step Consumable (.init DraftEvent) polledBetween ∧
      Along LedgerState.step AppendedWhole (.init DraftEvent) polledBetween) ↔
      Along LedgerState.step Sequential (.init DraftEvent) polledBetween :=
  consumable_iff (by decide +kernel)

/-- A consumer that has acknowledged the empty batch of an empty ledger does not get anything any more. -/
theorem consumer_stuck : ¬ ∀ ms : List (LedgerMove DraftEvent),
    Along LedgerState.step Identified (.init DraftEvent) ms →
    Always LedgerState.step Consumable (.init DraftEvent) ms ∧
      Along LedgerState.step AppendedWhole (.init DraftEvent) ms := by
  intro h
  have hP := (h [.nextBatch "c" 10, .ackBatch "c", .append "t" "s" [drafted "a" 1] none] (by decide +kernel)).1.last
  have hlen := (hP.polled "c" [10, 10] (by decide) (by decide +kernel)).1.length_eq
  exact absurd hlen (by decide +kernel)

end ChronoSynth.DataPlane

import Mathlib.Algebra.Order.Floor.Ring
import Mathlib.Data.List.TakeWhile
import Mathlib.Data.Rat.Floor
import ChronoSynth.Memory.Deletion
import ChronoSynth.Memory.MemoryService

/-!
# Eviction keeps the most salient

`evictExcess` deletes the memories of least salience, batch after batch, until the target is met. Rows of the same
salience come in the order of their last access, and then in any. What a memory has before it (`MemoryTables.before`)
says whether it may be among those that are evicted; the eviction does what it should for every order of the rows
exactly when no edge of another persona ends in one of these.
-/

set_option linter.unusedSectionVars false

namespace ChronoSynth.Memory

variable {K : Type} [Field K] [LinearOrder K]

/-! ## The order -/

/-- The order of the query. -/
def MemoryRow.Leq (a b : MemoryRow K) : Prop :=
  a.salience < b.salience ∨ a.salience = b.salience ∧ a.lastAccessedAt ≤ b.lastAccessedAt

/-- Strictly before in the order of the query. -/
def MemoryRow.Before (a b : MemoryRow K) : Prop :=
  a.salience < b.salience ∨ a.salience = b.salience ∧ a.lastAccessedAt < b.lastAccessedAt

instance : DecidableRel (MemoryRow.Leq (K := K)) := fun _ _ => inferInstanceAs (Decidable (_ ∨ _))

instance : DecidableRel (MemoryRow.Before (K := K)) := fun _ _ => inferInstanceAs (Decidable (_ ∨ _))

/-- How many memories of the persona are strictly before. -/
def MemoryTables.before (t : MemoryTables K) (p : String) (row : MemoryRow K) : ℕ :=
  (t.nodesOf p).countP fun other => other.Before row

variable {a b : MemoryRow K} {rows : List (MemoryRow K)} {p : String} {db : MemoryDb K} {n : ℕ}
  {config : MemoryCognitionConfig K}

theorem before_iff_not_leq : a.Before b ↔ ¬ b.Leq a := by
  simp only [MemoryRow.Before, MemoryRow.Leq, not_or, not_lt, not_and, not_le]
  constructor
  · rintro (h | ⟨h, h'⟩)
    · exact ⟨h.le, fun heq => absurd heq h.ne'⟩
    · exact ⟨h.le, fun _ => h'⟩
  · rintro ⟨h, h'⟩
    rcases h.lt_or_eq with hlt | heq
    · exact .inl hlt
    · exact .inr ⟨heq, h' heq.symm⟩

theorem MemoryRow.Leq.salience (h : a.Leq b) : a.salience ≤ b.salience := by
  rcases h with h | ⟨h, -⟩
  · exact h.le
  · exact h.le

instance : Std.Total (MemoryRow.Leq (K := K)) where
  total a b := by
    by_cases h : a.Leq b
    · exact .inl h
    · rcases before_iff_not_leq.2 h with hb | ⟨hb, hb'⟩
      · exact .inr (.inl hb)
      · exact .inr (.inr ⟨hb, hb'.le⟩)

instance : IsTrans (MemoryRow K) MemoryRow.Leq where
  trans a b c := by
    rintro (hab | ⟨hab, hab'⟩) (hbc | ⟨hbc, hbc'⟩)
    · exact .inl (hab.trans hbc)
    · exact .inl (hab.trans_eq hbc)
    · exact .inl (hab.trans_lt hbc)
    · exact .inr ⟨hab.trans hbc, hab'.trans hbc'⟩

theorem pairwise_sorted (rows : List (MemoryRow K)) : (rows.insertionSort MemoryRow.Leq).Pairwise MemoryRow.Leq :=
  List.pairwise_insertionSort _ _

theorem mem_take_sorted (ha : a ∈ (rows.insertionSort MemoryRow.Leq).take n) :
    a ∈ rows ∧ rows.countP (fun other => other.Before a) < n ∧
      ∀ b ∈ rows, b ∉ (rows.insertionSort MemoryRow.Leq).take n → a.Leq b := by
  have hperm := List.perm_insertionSort MemoryRow.Leq rows
  have hsorted := pairwise_sorted rows
  generalize rows.insertionSort MemoryRow.Leq = sorted at *
  have hrest : ∀ b ∈ sorted.drop n, a.Leq b := by
    rw [← List.take_append_drop n sorted] at hsorted
    exact (List.pairwise_append.1 hsorted).2.2 a ha
  refine ⟨hperm.mem_iff.1 (List.mem_of_mem_take ha), ?_, fun b hb hnot => hrest b ?_⟩
  · have hdrop : (sorted.drop n).countP (fun other => other.Before a) = 0 :=
      List.countP_eq_zero.2 fun b hb => by simpa [before_iff_not_leq] using hrest b hb
    have htake : (sorted.take n).countP (fun other => other.Before a) < (sorted.take n).length :=
      List.countP_lt_length_iff.2 ⟨a, ha, by simp [MemoryRow.Before]⟩
    rw [← hperm.countP_eq, ← List.take_append_drop n sorted, List.countP_append, hdrop, Nat.add_zero]
    exact htake.trans_le (List.length_take_le _ _)
  · have hb' := hperm.mem_iff.2 hb
    rw [← List.take_append_drop n sorted] at hb'
    exact (List.mem_append.1 hb').resolve_left hnot

/-- A row that comes first is put after those before it only. -/
theorem take_sorted_cons (rows : List (MemoryRow K)) (a : MemoryRow K) (n : ℕ) :
    a ∈ ((a :: rows).insertionSort MemoryRow.Leq).take n ∨
      ∀ b ∈ ((a :: rows).insertionSort MemoryRow.Leq).take n, b.Before a := by
  rw [List.insertionSort_cons_eq_take_drop]
  set first := (rows.insertionSort MemoryRow.Leq).takeWhile fun b => ¬ a.Leq b with hfirst
  have hbefore : ∀ b ∈ first, b.Before a := fun b hb => before_iff_not_leq.2 (by simpa using List.mem_takeWhile_imp hb)
  rcases Nat.lt_or_ge first.length n with hlt | hge
  · left
    rw [List.take_append, List.mem_append]
    right
    obtain ⟨k, hk⟩ := Nat.exists_eq_succ_of_ne_zero (Nat.sub_ne_zero_of_lt hlt)
    rw [hk]
    simp
  · right
    rw [List.take_append_of_le_length hge]
    exact fun b hb => hbefore b (List.mem_of_mem_take hb)

/-! ## One batch -/

def MemoryRow.eviction (row : MemoryRow K) : EvictionResult K := ⟨row.id, .capacity_overflow, row.salience⟩

theorem id_notMem_of_nodup (h : ((a :: rows).map fun row => row.id).Nodup) : ∀ r ∈ rows, r.id ∉ [a.id] := by
  intro r hr hmem
  rw [List.map_cons, List.nodup_cons] at h
  exact h.1 (List.mem_map.2 ⟨r, hr, List.mem_singleton.1 hmem⟩)

theorem evictRows_ensures_iff {Q : Except String (List (EvictionResult K)) → MemoryDb K → Prop}
    (hown : ∀ row ∈ rows, db.Owns p row.id) (hnodup : (rows.map fun row => row.id).Nodup)
    (hfree : ∀ row ∈ rows, ¬ db.Foreign p row.id) :
    (evictRows p rows).Ensures exec Q db ↔
      Q (.ok (rows.map MemoryRow.eviction)) (db.without (rows.map fun row => row.id)) := by
  induction rows generalizing db Q with
  | nil =>
    have hnil : db.without [] = db := by simp [MemoryDb.without]
    rw [List.map_nil, List.map_nil, hnil]
    exact Iff.rfl
  | cons row rows ih =>
    have hrest := (List.nodup_cons.1 hnodup).2
    have hother := id_notMem_of_nodup hnodup
    have hfree' : ∀ y ∈ [row.id], ¬ db.Foreign p y := fun y hy =>
      List.mem_singleton.1 hy ▸ hfree row List.mem_cons_self
    rw [evictRows, Prog.ensures_bind_iff, deleteMemoryInternal_ensures_iff (hown row List.mem_cons_self),
      if_neg (hfree row List.mem_cons_self)]
    change Prog.Ensures exec _ _ _ ↔ _
    rw [Prog.ensures_bind_iff, ih (fun r hr => owns_without.2 ⟨hown r (List.mem_cons_of_mem _ hr), hother r hr⟩) hrest
      fun r hr => (foreign_without hfree').not.2 (hfree r (List.mem_cons_of_mem _ hr)), without_without_db]
    exact Iff.rfl

theorem not_foreign_of_evictRows (hown : ∀ row ∈ rows, db.Owns p row.id)
    (hnodup : (rows.map fun row => row.id).Nodup)
    (h : (evictRows p rows).Ensures exec (fun r _ => ∃ evicted, r = .ok evicted) db) :
    ∀ row ∈ rows, ¬ db.Foreign p row.id := by
  induction rows generalizing db with
  | nil => exact nofun
  | cons row rows ih =>
    have hrest := (List.nodup_cons.1 hnodup).2
    have hother := id_notMem_of_nodup hnodup
    rw [evictRows, Prog.ensures_bind_iff, deleteMemoryInternal_ensures_iff (hown row List.mem_cons_self)] at h
    by_cases hf : db.Foreign p row.id
    · rw [if_pos hf] at h
      obtain ⟨_, h⟩ := h
      cases h
    · rw [if_neg hf] at h
      have hfree : ∀ y ∈ [row.id], ¬ db.Foreign p y := fun y hy => List.mem_singleton.1 hy ▸ hf
      have htail : (evictRows p rows).Ensures exec (fun r _ => ∃ evicted, r = .ok evicted) (db.without [row.id]) := by
        refine (Prog.ensures_bind_iff.1 h).mono fun r _ hr => ?_
        cases r with
        | ok evicted => exact ⟨evicted, rfl⟩
        | error e =>
          obtain ⟨_, hr⟩ := hr
          cases hr
      have hall := ih (fun r hr => owns_without.2 ⟨hown r (List.mem_cons_of_mem _ hr), hother r hr⟩) hrest htail
      refine List.forall_mem_cons.2 ⟨hf, fun r hr hforeign => hall r hr ?_⟩
      exact (foreign_without hfree).2 hforeign

/-! ## All batches -/

/-- What is evicted: so many memories of the persona, each once, that no memory that is left has less salience. -/
structure Evicts (t : MemoryTables K) (p : String) (n : ℕ) (evicted : List (EvictionResult K)) : Prop where
  once : (evicted.map fun e => e.memoryId).Nodup
  count : evicted.length = n
  stored : ∀ e ∈ evicted, e.reason = .capacity_overflow ∧
    ∃ row ∈ t.nodesOf p, row.id = e.memoryId ∧ row.salience = e.salience
  least : ∀ e ∈ evicted, ∀ other ∈ t.nodesOf p, (other.id ∉ evicted.map fun e => e.memoryId) →
    e.salience ≤ other.salience

structure Batch (t : MemoryTables K) (p : String) (limit : ℕ) (rows : List (MemoryRow K)) : Prop where
  nodup : (rows.map fun row => row.id).Nodup
  sub : ∀ row ∈ rows, row ∈ t.nodesOf p
  length : rows.length = min limit (t.nodesOf p).length
  before : ∀ row ∈ rows, t.before p row < limit
  least : ∀ row ∈ rows, ∀ other ∈ t.nodesOf p, (other.id ∉ rows.map fun row => row.id) → row.Leq other

theorem batch_of_lowest (db : MemoryDb K) (p : String) (limit tie : ℕ) :
    Batch db.toMemoryTables p limit (((shuffle tie (db.nodesOf p)).insertionSort MemoryRow.Leq).take limit) := by
  have hperm : ((shuffle tie (db.nodesOf p)).insertionSort MemoryRow.Leq).Perm (db.nodesOf p) :=
    (List.perm_insertionSort _ _).trans (shuffle_perm _ _)
  refine ⟨?_, fun row hrow => ?_, ?_, fun row hrow => ?_, fun row hrow other hother hnot => ?_⟩
  · exact ((List.take_sublist _ _).map _).nodup (((hperm.map fun row => row.id).nodup_iff).2 nodesOf_nodup)
  · exact hperm.mem_iff.1 (List.mem_of_mem_take hrow)
  · rw [List.length_take, hperm.length_eq]
  · rw [MemoryTables.before, ← (shuffle_perm tie _).countP_eq]
    exact (mem_take_sorted hrow).2.1
  · exact (mem_take_sorted hrow).2.2 other (mem_shuffle.2 hother) fun hmem => hnot (List.mem_map_of_mem hmem)

theorem lowestSalience_ensures_iff {α : Type} {limit : ℕ} {g : List (MemoryRow K) → MemProg K α}
    {Q : Except String α → MemoryDb K → Prop} : (memLowestSalience limit p >>= g).Ensures exec Q db ↔
      ∀ e : Env K, (g (((shuffle e.tie (db.nodesOf p)).insertionSort MemoryRow.Leq).take limit)).Ensures exec Q db :=
  Iff.rfl

theorem forgetting_before {ids : List String} : (a.forgetting ids).Before (b.forgetting ids) ↔ a.Before b := by
  simp [MemoryRow.Before]

/-- Once memories are deleted, so many fewer are before one that is left. -/
theorem before_without (db : MemoryDb K) (p : String) (ids : List String) (a : MemoryRow K) :
    db.before p a = (db.without ids).before p (a.forgetting ids) +
      ((db.nodesOf p).filter fun row => ¬ row.id ∉ ids).countP fun other => other.Before a := by
  have hleft : (db.without ids).before p (a.forgetting ids) =
      ((db.nodesOf p).filter fun row => row.id ∉ ids).countP fun other => other.Before a := by
    change ((db.toMemoryTables.without ids).nodesOf p).countP _ = _
    rw [nodesOf_without, List.countP_map]
    exact List.countP_congr fun other _ => by simp only [Function.comp_apply, forgetting_before]
  rw [hleft, MemoryTables.before, List.countP_eq_countP_filter_add _ _ fun row => decide (row.id ∉ ids)]
  simp

theorem Batch.filter_perm {limit : ℕ} (h : Batch db.toMemoryTables p limit rows) :
    ((db.nodesOf p).filter fun row => ¬ row.id ∉ rows.map fun row => row.id).Perm rows := by
  refine (List.perm_ext_iff_of_nodup ?_ ?_).2 fun row => ?_
  · exact (List.Nodup.of_map _ nodesOf_nodup).filter _
  · exact List.Nodup.of_map _ h.nodup
  · simp only [List.mem_filter, decide_eq_true_eq, not_not]
    constructor
    · rintro ⟨hrow, hid⟩
      obtain ⟨r, hr, heq⟩ := List.mem_map.1 hid
      exact List.inj_on_of_nodup_map nodesOf_nodup (h.sub r hr) hrow heq ▸ hr
    · exact fun hrow => ⟨h.sub row hrow, List.mem_map_of_mem hrow⟩

theorem length_nodesOf_without {limit : ℕ} (h : Batch db.toMemoryTables p limit rows) :
    ((db.without (rows.map fun row => row.id)).nodesOf p).length + rows.length = (db.nodesOf p).length := by
  change ((db.toMemoryTables.without _).nodesOf p).length + _ = _
  rw [nodesOf_without, List.length_map, ← h.filter_perm.length_eq]
  rw [List.length_eq_length_filter_add (l := db.nodesOf p) fun row => decide (row.id ∉ rows.map fun row => row.id)]
  simp only [← decide_not]

theorem foreign_without_batch (hfree : ∀ row ∈ rows, ¬ db.Foreign p row.id) {x : String} :
    (db.without (rows.map fun row => row.id)).Foreign p x ↔ db.Foreign p x := by
  refine foreign_without fun y hy => ?_
  obtain ⟨row, hrow, rfl⟩ := List.mem_map.1 hy
  exact hfree row hrow

/-- **The round**: a batch, and what is evicted after it. -/
theorem Evicts.append {limit : ℕ} {evicted : List (EvictionResult K)} (hb : Batch db.toMemoryTables p limit rows)
    (h : Evicts (db.without (rows.map fun row => row.id)).toMemoryTables p n evicted) :
    Evicts db.toMemoryTables p (rows.length + n) (rows.map MemoryRow.eviction ++ evicted) := by
  have hids : (rows.map MemoryRow.eviction).map (fun e => e.memoryId) = rows.map fun row => row.id := by
    simp [MemoryRow.eviction, Function.comp_def]
  have hold : ∀ e ∈ evicted, e.reason = .capacity_overflow ∧ ∃ row ∈ db.nodesOf p,
      (row.id ∉ rows.map fun row => row.id) ∧ row.id = e.memoryId ∧ row.salience = e.salience := by
    intro e he
    obtain ⟨hreason, row, hrow, hid, hsalience⟩ := h.stored e he
    obtain ⟨old, hmem, hnot, rfl⟩ := mem_nodesOf_without.1 hrow
    exact ⟨hreason, old, hmem, hnot, by simpa using hid, by simpa using hsalience⟩
  refine ⟨?_, by simp [h.count], fun e he => ?_, fun e he other hother hnot => ?_⟩
  · rw [List.map_append, hids, List.nodup_append]
    refine ⟨hb.nodup, h.once, fun x hx y hy hxy => ?_⟩
    obtain ⟨e, he, rfl⟩ := List.mem_map.1 hy
    obtain ⟨-, row, -, hnot, hid, -⟩ := hold e he
    exact hnot (hid.trans hxy.symm ▸ hx)
  · rcases List.mem_append.1 he with he | he
    · obtain ⟨row, hrow, rfl⟩ := List.mem_map.1 he
      exact ⟨rfl, row, hb.sub row hrow, rfl, rfl⟩
    · obtain ⟨hreason, row, hrow, -, hid, hsalience⟩ := hold e he
      exact ⟨hreason, row, hrow, hid, hsalience⟩
  · rw [List.map_append, hids, List.mem_append, not_or] at hnot
    rcases List.mem_append.1 he with he | he
    · obtain ⟨row, hrow, rfl⟩ := List.mem_map.1 he
      exact (hb.least row hrow other hother hnot.1).salience
    · have hmem := mem_nodesOf_without.2 ⟨other, hother, hnot.1, rfl⟩
      simpa using h.least e he _ hmem (by simpa using hnot.2)

theorem Evicts.nil {t : MemoryTables K} : Evicts t p 0 [] := ⟨.nil, rfl, nofun, nofun⟩

theorem evictRounds_zero {rounds : ℕ} : evictRounds config p rounds 0 = (pure [] : MemProg K _) := by
  cases rounds <;> rfl

/-- A batch that is asked for while there is something to evict is not empty. -/
theorem Batch.length_eq {limit : ℕ} (h : Batch db.toMemoryTables p limit rows) (hn : limit ≤ (db.nodesOf p).length) :
    rows.length = limit := by
  rw [h.length, min_eq_left hn]

theorem evictRounds_ensures (hbatch : 1 ≤ config.batchSize) (rounds : ℕ) (hn : n ≤ rounds)
    (hle : n ≤ (db.nodesOf p).length) (hfree : ∀ row ∈ db.nodesOf p, db.before p row < n → ¬ db.Foreign p row.id) :
    (evictRounds config p rounds n).Ensures exec (fun r db' => ∃ evicted, r = .ok evicted ∧
      Evicts db.toMemoryTables p n evicted ∧ db' = db.without (evicted.map fun e => e.memoryId)) db := by
  induction rounds generalizing n db with
  | zero =>
    obtain rfl := Nat.le_zero.1 hn
    exact ⟨[], rfl, .nil, by simp [MemoryDb.without]⟩
  | succ rounds ih =>
    rcases Nat.eq_zero_or_pos n with rfl | hpos
    · rw [Nat.cast_zero, evictRounds_zero]
      exact ⟨[], rfl, .nil, by simp [MemoryDb.without]⟩
    · have hpos' : ¬ (n : ℤ) ≤ 0 := by omega
      rw [evictRounds, if_neg hpos', Int.toNat_natCast, lowestSalience_ensures_iff]
      intro e
      have hb := batch_of_lowest db p (min n config.batchSize) e.tie
      generalize ((shuffle e.tie (db.nodesOf p)).insertionSort MemoryRow.Leq).take _ = rows at hb
      have hlen := hb.length_eq ((min_le_left _ _).trans hle)
      have hfree' : ∀ row ∈ rows, ¬ db.Foreign p row.id := fun row hrow =>
        hfree row (hb.sub row hrow) ((hb.before row hrow).trans_le (min_le_left _ _))
      have hle' : rows.length ≤ n := hlen ▸ min_le_left _ _
      have hsome : rows.length ≠ 0 := by omega
      rw [if_neg hsome, Prog.ensures_bind_iff,
        evictRows_ensures_iff (fun row hrow => owns_of_mem (hb.sub row hrow)) hb.nodup hfree']
      have hcast : (n : ℤ) - (rows.length : ℤ) = ((n - rows.length : ℕ) : ℤ) := by omega
      have hleft := length_nodesOf_without hb
      change Prog.Ensures exec _ (evictRounds config p rounds (n - rows.length) >>= _) _
      rw [hcast]
      refine .bind ((ih (by omega) (by omega) fun row hrow hbefore => ?_).mono ?_)
      · obtain ⟨old, hold, -, rfl⟩ := mem_nodesOf_without.1 hrow
        have hcount : ((db.nodesOf p).filter fun row => ¬ row.id ∉ rows.map fun row => row.id).countP
            (fun other => other.Before old) ≤ rows.length := by
          rw [hb.filter_perm.countP_eq]
          exact List.countP_le_length
        have hsplit := before_without db p (rows.map fun row => row.id) old
        rw [forgetting_id, foreign_without_batch hfree']
        exact hfree old hold (by omega)
      · rintro r db' ⟨evicted, rfl, hevicts, rfl⟩
        refine ⟨_, rfl, ?_, ?_⟩
        · have happend := hevicts.append hb
          rwa [Nat.add_sub_cancel' hle'] at happend
        · rw [without_without_db, List.map_append]
          simp [MemoryRow.eviction, Function.comp_def]

theorem not_foreign_of_evictRounds (hbatch : 1 ≤ config.batchSize) (rounds : ℕ) (hn : n ≤ rounds)
    (hle : n ≤ (db.nodesOf p).length)
    (h : (evictRounds config p rounds n).Ensures exec (fun r _ => ∃ evicted, r = .ok evicted) db) :
    ∀ row ∈ db.nodesOf p, db.before p row < n → ¬ db.Foreign p row.id := by
  induction rounds generalizing n db with
  | zero =>
    intro row _ hbefore
    omega
  | succ rounds ih =>
    intro row hrow hbefore
    have hpos : ¬ (n : ℤ) ≤ 0 := by omega
    rw [evictRounds, if_neg hpos, Int.toNat_natCast, lowestSalience_ensures_iff] at h
    -- the row may come first among those of its salience and last access
    obtain ⟨tie, rest, hfirst⟩ := exists_shuffle_cons hrow
    have hround := h ⟨0, "", tie⟩
    have hb := batch_of_lowest db p (min n config.batchSize) tie
    have hcases := take_sorted_cons rest row (min n config.batchSize)
    rw [← hfirst] at hcases
    simp only at hround
    generalize ((shuffle tie (db.nodesOf p)).insertionSort MemoryRow.Leq).take _ = rows at hb hcases hround
    have hlen := hb.length_eq ((min_le_left _ _).trans hle)
    have hsome : rows.length ≠ 0 := by omega
    rw [if_neg hsome, Prog.ensures_bind_iff] at hround
    have hown : ∀ r ∈ rows, db.Owns p r.id := fun r hr => owns_of_mem (hb.sub r hr)
    have hfree : ∀ r ∈ rows, ¬ db.Foreign p r.id := by
      refine not_foreign_of_evictRows hown hb.nodup (hround.mono fun r _ hr => ?_)
      cases r with
      | ok evicted => exact ⟨evicted, rfl⟩
      | error e =>
        obtain ⟨_, hr⟩ := hr
        cases hr
    rcases hcases with hmem | hall
    · exact hfree row hmem
    · -- the batch is before the row, which is as much nearer to the front once it is gone
      rw [evictRows_ensures_iff hown hb.nodup hfree] at hround
      change Prog.Ensures exec _ (evictRounds config p rounds (n - rows.length) >>= _) _ at hround
      have hcast : (n : ℤ) - (rows.length : ℤ) = ((n - rows.length : ℕ) : ℤ) := by omega
      rw [hcast, Prog.ensures_bind_iff] at hround
      have hrest : (evictRounds config p rounds (n - rows.length : ℕ)).Ensures exec
          (fun r _ => ∃ evicted, r = .ok evicted) (db.without (rows.map fun row => row.id)) := by
        refine hround.mono fun r _ hr => ?_
        cases r with
        | ok evicted => exact ⟨evicted, rfl⟩
        | error e =>
          obtain ⟨_, hr⟩ := hr
          cases hr
      have hnot : row.id ∉ rows.map fun row => row.id := by
        intro hid
        obtain ⟨r, hr, heq⟩ := List.mem_map.1 hid
        have hsame := List.inj_on_of_nodup_map nodesOf_nodup (hb.sub r hr) hrow heq
        have hself := hall r hr
        rw [hsame] at hself
        simp [MemoryRow.Before] at hself
      have hcount : ((db.nodesOf p).filter fun row => ¬ row.id ∉ rows.map fun row => row.id).countP
          (fun other => other.Before row) = rows.length := by
        rw [hb.filter_perm.countP_eq]
        exact List.countP_eq_length.2 fun r hr => by simpa using hall r hr
      have hsplit := before_without db p (rows.map fun row => row.id) row
      have hleft := length_nodesOf_without hb
      have hgone := ih (by omega) (by omega) hrest _ (mem_nodesOf_without.2 ⟨row, hrow, hnot, rfl⟩) (by omega)
      rwa [forgetting_id, foreign_without_batch hfree] at hgone

/-! ## The eviction -/

/-- What is left is `kept` memories, none of less salience than one that is evicted, and everything else there was. -/
structure KeepsMostSalient (t t' : MemoryTables K) (p : String) (kept : ℤ) (evicted : List (EvictionResult K)) :
    Prop where
  kept : ((t'.nodesOf p).length : ℤ) = kept
  once : (evicted.map fun e => e.memoryId).Nodup
  named : ∀ x, (x ∈ evicted.map fun e => e.memoryId) ↔ t.Owns p x ∧ ¬ t'.Owns p x
  least : ∀ a ∈ t.nodesOf p, ∀ b ∈ t.nodesOf p, ¬ t'.Owns p a.id → t'.Owns p b.id → a.salience ≤ b.salience
  rest : t' = t.without (evicted.map fun e => e.memoryId)

theorem Evicts.length_left {evicted : List (EvictionResult K)} (h : Evicts db.toMemoryTables p n evicted) :
    ((db.without (evicted.map fun e => e.memoryId)).nodesOf p).length + n = (db.nodesOf p).length := by
  have hperm : (((db.nodesOf p).filter fun row => ¬ row.id ∉ evicted.map fun e => e.memoryId).map fun row => row.id).Perm
      (evicted.map fun e => e.memoryId) := by
    refine (List.perm_ext_iff_of_nodup ((List.filter_sublist.map _).nodup nodesOf_nodup) h.once).2 fun x => ?_
    constructor
    · intro hx
      obtain ⟨row, hrow, rfl⟩ := List.mem_map.1 hx
      simpa using (List.mem_filter.1 hrow).2
    · intro hx
      obtain ⟨e, he, rfl⟩ := List.mem_map.1 hx
      obtain ⟨-, row, hrow, hid, -⟩ := h.stored e he
      exact List.mem_map.2 ⟨row, List.mem_filter.2 ⟨hrow, by simpa [hid] using ⟨e, he, rfl⟩⟩, hid⟩
  have hcount := hperm.length_eq
  rw [List.length_map, List.length_map, h.count] at hcount
  change ((db.toMemoryTables.without _).nodesOf p).length + _ = _
  rw [nodesOf_without, List.length_map, ← hcount]
  rw [List.length_eq_length_filter_add (l := db.nodesOf p)
    fun row => decide (row.id ∉ evicted.map fun e => e.memoryId)]
  simp only [← decide_not]

theorem Evicts.keeps {evicted : List (EvictionResult K)} (h : Evicts db.toMemoryTables p n evicted) {kept : ℤ}
    (hkept : ((db.nodesOf p).length : ℤ) - n = kept) :
    KeepsMostSalient db.toMemoryTables (db.without (evicted.map fun e => e.memoryId)).toMemoryTables p kept evicted := by
  have howns : ∀ x, (db.without (evicted.map fun e => e.memoryId)).Owns p x ↔
      db.Owns p x ∧ x ∉ evicted.map fun e => e.memoryId := fun x => owns_without
  have hown : ∀ x, (x ∈ evicted.map fun e => e.memoryId) → db.Owns p x := by
    intro x hx
    obtain ⟨e, he, rfl⟩ := List.mem_map.1 hx
    obtain ⟨-, row, hrow, hid, -⟩ := h.stored e he
    exact hid ▸ owns_of_mem hrow
  refine ⟨?_, h.once, fun x => ?_, fun a ha b hb hgone hleft => ?_, rfl⟩
  · have hleft := h.length_left
    omega
  · rw [howns, not_and, not_not]
    exact ⟨fun hx => ⟨hown x hx, fun _ => hx⟩, fun ⟨ho, hx⟩ => hx ho⟩
  · rw [howns, not_and, not_not] at hgone
    obtain ⟨e, he, hid⟩ := List.mem_map.1 (hgone (owns_of_mem ha))
    obtain ⟨-, row, hrow, hrid, hsalience⟩ := h.stored e he
    have heq := List.inj_on_of_nodup_map nodesOf_nodup hrow ha (hrid.trans hid)
    rw [← heq, hsalience]
    exact h.least e he b hb ((howns _).1 hleft).2

section
variable [FloorRing K]

def EvictsExcess (config : MemoryCognitionConfig K) (p : String) (db : MemoryDb K)
    (r : Except String (List (EvictionResult K))) (db' : MemoryDb K) : Prop :=
  ∃ evicted, r = .ok evicted ∧
    ((db.nodesOf p).length ≤ config.maxMemoryNodes → db' = db ∧ evicted = []) ∧
    (config.maxMemoryNodes < (db.nodesOf p).length →
      KeepsMostSalient db.toMemoryTables db'.toMemoryTables p
        ⌊config.maxMemoryNodes * config.capacityTargetRatio⌋ evicted)

variable [IsStrictOrderedRing K]

theorem target_le (hmax : 0 ≤ config.maxMemoryNodes)
    (hratio : 0 ≤ config.capacityTargetRatio ∧ config.capacityTargetRatio ≤ 1) :
    0 ≤ ⌊config.maxMemoryNodes * config.capacityTargetRatio⌋ ∧
      ⌊config.maxMemoryNodes * config.capacityTargetRatio⌋ ≤ config.maxMemoryNodes := by
  have hmax' : (0 : K) ≤ config.maxMemoryNodes := Int.cast_nonneg hmax
  refine ⟨Int.floor_nonneg.2 (mul_nonneg hmax' hratio.1), ?_⟩
  have hle : (config.maxMemoryNodes : K) * config.capacityTargetRatio ≤ config.maxMemoryNodes :=
    mul_le_of_le_one_right hmax' hratio.2
  exact (Int.floor_le_floor hle).trans (Int.floor_intCast _).le

theorem evictExcess_ensures_iff {Q : Except String (List (EvictionResult K)) → MemoryDb K → Prop} :
    (evictExcess config p).Ensures exec Q db ↔
      if config.maxMemoryNodes < 0 ∨ (db.nodesOf p).length ≤ config.maxMemoryNodes then Q (.ok []) db
      else (evictRounds config p
        ((db.nodesOf p).length - ⌊config.maxMemoryNodes * config.capacityTargetRatio⌋).toNat
        ((db.nodesOf p).length - ⌊config.maxMemoryNodes * config.capacityTargetRatio⌋)).Ensures exec Q db := by
  unfold evictExcess
  by_cases hneg : config.maxMemoryNodes < 0
  · rw [if_pos hneg, if_pos (.inl hneg)]
    exact Iff.rfl
  · rw [if_neg hneg, memCount]
    by_cases hfew : ((db.nodesOf p).length : ℤ) ≤ config.maxMemoryNodes
    · rw [if_pos (.inr hfew)]
      refine Iff.trans (forall_const (Env K)) ?_
      change Prog.Ensures exec Q (if _ then _ else _) db ↔ _
      rw [if_pos hfew]
      exact Iff.rfl
    · rw [if_neg (not_or.2 ⟨hneg, hfew⟩)]
      refine Iff.trans (forall_const (Env K)) ?_
      change Prog.Ensures exec Q (if _ then _ else _) db ↔ _
      rw [if_neg hfew]

/-- **The eviction keeps the most salient**, unless an edge of another persona ends in a memory that may be evicted. -/
theorem evictExcess_iff (config : MemoryCognitionConfig K) (p : String) (db : MemoryDb K)
    (hmax : 0 ≤ config.maxMemoryNodes) (hratio : 0 ≤ config.capacityTargetRatio ∧ config.capacityTargetRatio ≤ 1)
    (hbatch : 1 ≤ config.batchSize) :
    (∀ os, EvictsExcess config p db ((evictExcess config p).solo exec os db).2
        ((evictExcess config p).solo exec os db).1) ↔
      (config.maxMemoryNodes < (db.nodesOf p).length → ∀ row ∈ db.nodesOf p,
        db.before p row < (db.nodesOf p).length - ⌊config.maxMemoryNodes * config.capacityTargetRatio⌋ →
          ¬ db.Foreign p row.id) := by
  rw [← Prog.ensures_iff_solo (Q := EvictsExcess config p db), evictExcess_ensures_iff]
  obtain ⟨htarget, htarget'⟩ := target_le hmax hratio
  split_ifs with hfew
  · have hfew' := hfew.resolve_left hmax.not_gt
    exact ⟨fun _ hmany => absurd hfew' hmany.not_ge,
      fun _ => ⟨[], rfl, fun _ => ⟨rfl, rfl⟩, fun hmany => absurd hfew' hmany.not_ge⟩⟩
  · have hmany : config.maxMemoryNodes < (db.nodesOf p).length := by omega
    obtain ⟨n, hn⟩ : ∃ n : ℕ,
        (n : ℤ) = (db.nodesOf p).length - ⌊config.maxMemoryNodes * config.capacityTargetRatio⌋ :=
      ⟨_, Int.toNat_of_nonneg (by omega)⟩
    have hle : n ≤ (db.nodesOf p).length := by omega
    rw [← hn, Int.toNat_natCast]
    simp only [hmany, forall_const, Nat.cast_lt]
    constructor
    · intro h
      exact not_foreign_of_evictRounds hbatch n le_rfl hle (h.mono fun r _ ⟨evicted, hr, _⟩ => ⟨evicted, hr⟩)
    · intro hfree
      refine (evictRounds_ensures hbatch n le_rfl hle hfree).mono ?_
      rintro r db' ⟨evicted, rfl, hevicts, rfl⟩
      exact ⟨evicted, rfl, fun hfew' => absurd hfew' hmany.not_ge, fun _ => hevicts.keeps (by omega)⟩

end

/-! ## Two memories -/

/-- Two memories of a persona, the first with less salience, and an edge of the given persona at the first. -/
def pairOf (linker : String) : MemoryDb ℚ where
  nodes :=
    [⟨⟨"a", .episodic, "", 0, 1 / 4, 0, 0, 0, 1, 0, none⟩, "p"⟩,
      ⟨⟨"b", .episodic, "", 0, 1 / 2, 0, 0, 0, 1, 0, none⟩, "p"⟩]
  edges := [⟨⟨"a", "a", 1, "self"⟩, linker⟩]
  slots := []
  sound := by
    constructor <;> norm_num
    · decide
    · exact nofun

def roomForOne : MemoryCognitionConfig ℚ :=
  { DEFAULT_COGNITION_CONFIG with maxMemoryNodes := 1, capacityTargetRatio := 1 }

/-- The memory of less salience is evicted, with its edge. -/
theorem evictExcess_iff_pair : EvictsExcess roomForOne "p" (pairOf "p")
    ((evictExcess roomForOne "p").solo exec (fun _ => ⟨0, "", 0⟩) (pairOf "p")).2
    ((evictExcess roomForOne "p").solo exec (fun _ => ⟨0, "", 0⟩) (pairOf "p")).1 :=
  (evictExcess_iff roomForOne "p" (pairOf "p") (by decide) (by decide +kernel) (by decide)).2
    (fun _ => by decide +kernel) _

/-- An edge of another persona holds the memory, and nothing is evicted. -/
theorem held_memory_stays : ¬ ∀ (config : MemoryCognitionConfig ℚ) (p : String) (db : MemoryDb ℚ)
    (os : ℕ → Env ℚ), 0 ≤ config.maxMemoryNodes → 0 ≤ config.capacityTargetRatio ∧ config.capacityTargetRatio ≤ 1 →
      1 ≤ config.batchSize →
        EvictsExcess config p db ((evictExcess config p).solo exec os db).2 ((evictExcess config p).solo exec os db).1 := by
  intro h
  obtain ⟨evicted, hok, -⟩ :=
    h roomForOne "p" (pairOf "q") (fun _ => ⟨0, "", 0⟩) (by decide) (by decide +kernel) (by decide)
  have hfails : ((evictExcess roomForOne "p").solo exec (fun _ => ⟨0, "", 0⟩) (pairOf "q")).2.toBool = false := by
    decide +kernel
  rw [hok] at hfails
  cases hfails

end ChronoSynth.Memory

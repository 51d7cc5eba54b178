import ChronoSynth.Lib.Run
import ChronoSynth.Lib.Relational

/-!
# Rows written back one by one

Rows that are known beforehand, each with a statement that writes it (`Writes`), go into a database one after the
other; a row that is refused is left out.

* `along_accepted_iff` — rows with keys that nothing has are all accepted exactly if each finds what it refers to there
  when its turn comes, and then they are there in order.
* `put_of_mem` — a row with a key that is there already changes nothing; without a key it is there twice
  (`length_put_of_keyless`).
-/

namespace ChronoSynth.Sql

/-- Rows at the end of their tables. -/
def Db.append (db : Db) (xs : List (String × Row)) : Db := fun t => db t ++ (xs.filter (·.1 = t)).map Prod.snd

namespace Db

variable {db : Db} {xs ys : List (String × Row)} {t : String} {r : Row}

@[simp] theorem append_nil : db.append [] = db := by
  funext t
  simp [append]

theorem append_append : (db.append xs).append ys = db.append (xs ++ ys) := by
  funext t
  simp [append]

theorem mem_append : r ∈ db.append xs t ↔ r ∈ db t ∨ (t, r) ∈ xs := by
  simp [append]

theorem append_singleton (x : String × Row) : db.append [x] = db.set x.1 (db x.1 ++ [x.2]) := by
  funext t
  by_cases ht : t = x.1
  · subst ht
    simp [append]
  · simp [append, Db.set_of_ne ht, Ne.symm ht]

theorem append_singleton_inj {db' : Db} {r' : Row} (h : db.append [(t, r)] = db'.append [(t, r')]) : db = db' := by
  funext u
  have hu := congrFun h u
  by_cases ht : t = u
  · simp only [append, ht, List.filter_singleton, decide_true] at hu
    exact (List.append_inj' hu rfl).1
  · simpa [append, ht] using hu

end Db

namespace Schema

variable (S : Schema)

/-- The statement writes the row, whatever is there. -/
structure Writes (stmt : Upsert) (x : String × Row) : Prop where
  table : stmt.table = x.1
  row : ∀ rows, stmt.row (S.table x.1) rows = x.2

/-- A statement on a database, where it is refused without effect. -/
def put (stmt : String × Row → Upsert) (db : Db) (x : String × Row) : Db :=
  match S.upsert (stmt x) db with
  | .ok (db', _) => db'
  | .error () => db

/-- The statement goes through. -/
def Accepted (stmt : String × Row → Upsert) (db : Db) (x : String × Row) : Prop := ∃ out, S.upsert (stmt x) db = .ok out

/-- What the row refers to is there, or is the row itself. -/
def Grounded (db : Db) (x : String × Row) : Prop := ∀ fk ∈ (S.table x.1).foreignKeys, Resolves (db.append [x]) fk x.2

def Keyed (x : String × Row) : Prop :=
  ∃ key ∈ (S.table x.1).pkColumns :: (S.table x.1).uniqueIndexes, SameKey key x.2 x.2

/-- The rows have keys that nothing else has. -/
structure Fresh (db : Db) (xs : List (String × Row)) : Prop where
  listed : ∀ x ∈ xs, x.1 ∈ S.tables
  admits : ∀ x ∈ xs, (S.table x.1).admits x.2 = true
  keys : ∀ t ∈ S.tables, ∀ key ∈ (S.table t).pkColumns :: (S.table t).uniqueIndexes,
    (db.append xs t).Pairwise fun r r' => ¬ SameKey key r r'

variable {S} {db : Db} {x : String × Row} {xs : List (String × Row)} {stmt : Upsert} {stmtOf : String × Row → Upsert}

theorem Fresh.cons (h : S.Fresh db (x :: xs)) : S.Fresh (db.append [x]) xs where
  listed y hy := h.listed y (List.mem_cons_of_mem _ hy)
  admits y hy := h.admits y (List.mem_cons_of_mem _ hy)
  keys := by simpa [Db.append_append] using h.keys

/-- The first of the rows is known by nothing that is there. -/
theorem Fresh.head (h : S.Fresh db (x :: xs)) {key : List String}
    (hkey : key ∈ (S.table x.1).pkColumns :: (S.table x.1).uniqueIndexes) : ∀ r ∈ db x.1, ¬ SameKey key r x.2 := by
  intro r hr
  have hpair := h.keys x.1 (h.listed x (List.mem_cons_self ..)) key hkey
  exact (List.pairwise_append.1 hpair).2.2 r hr x.2 (by simp)

/-- A row more leaves the constraints in force exactly if it finds what it refers to. -/
theorem consistent_append_iff (hc : S.Consistent db) (h : S.Fresh db (x :: xs)) :
    S.Consistent (db.append [x]) ↔ S.Grounded db x := by
  have hmem := h.listed x (List.mem_cons_self ..)
  constructor
  · intro hcons fk hfk
    exact (hcons x.1 hmem).references fk hfk x.2 (Db.mem_append.2 (.inr (List.mem_singleton_self x)))
  · intro hground t ht
    refine ⟨fun r hr => ?_, fun key hkey => ?_, fun fk hfk r hr => ?_⟩
    · rcases Db.mem_append.1 hr with hr | hr
      · exact (hc t ht).admits r hr
      · obtain rfl := List.mem_singleton.1 hr
        exact h.admits _ (List.mem_cons_self ..)
    · have hpair := h.keys t ht key hkey
      refine hpair.sublist (List.Sublist.append_left ?_ _)
      exact (List.Sublist.filter _ (by simp)).map _
    · rcases Db.mem_append.1 hr with hr | hr
      · exact Resolves.mono ((hc t ht).references fk hfk r hr) fun p hp => Db.mem_append.2 (.inl hp)
      · obtain rfl := List.mem_singleton.1 hr
        exact hground fk hfk

/-- **A row that nothing knows is appended, or refused.** -/
theorem upsert_fresh (hw : S.Writes stmt x) (h : S.Fresh db (x :: xs)) : S.upsert stmt db = S.accept (db.append [x]) := by
  have hadmits := h.admits x (List.mem_cons_self ..)
  have hnone : (db x.1).find? (SameKey (S.table x.1).pkColumns x.2) = none := by
    refine List.find?_eq_none.2 fun r hr hsame => ?_
    exact h.head (List.mem_cons_self ..) r hr (sameKey_comm.1 (of_decide_eq_true hsame))
  unfold upsert
  simp only [hw.table, hw.row, hadmits, if_true, hnone]
  rw [Db.append_singleton]

/-- **Rows with new keys are accepted exactly if each finds what it refers to when its turn comes.** -/
theorem along_accepted_iff (hw : ∀ x ∈ xs, S.Writes (stmtOf x) x) (hc : S.Consistent db) (h : S.Fresh db xs) :
    Along (S.put stmtOf) (S.Accepted stmtOf) db xs ↔ Along (fun db x => db.append [x]) S.Grounded db xs := by
  induction xs generalizing db with
  | nil => exact iff_of_true along_nil along_nil
  | cons x xs ih =>
    have hupsert := upsert_fresh (hw x (List.mem_cons_self ..)) h
    have hcons := consistent_append_iff hc h
    rw [along_cons, along_cons]
    by_cases hground : S.Grounded db x
    · have hok : S.upsert (stmtOf x) db = .ok (db.append [x], 1) := by
        rw [hupsert, accept_ok]
        exact ⟨hcons.2 hground, rfl, rfl⟩
      have hput : S.put stmtOf db x = db.append [x] := by rw [put, hok]
      rw [hput, ih (fun y hy => hw y (List.mem_cons_of_mem _ hy)) (hcons.2 hground) h.cons]
      exact and_congr_left fun _ => iff_of_true ⟨_, hok⟩ hground
    · have hrefused : ¬ S.Accepted stmtOf db x := by
        rintro ⟨⟨db', n⟩, hout⟩
        rw [hupsert, accept_ok] at hout
        exact hground (hcons.1 hout.1)
      exact iff_of_false (fun hand => hrefused hand.1) fun hand => hground hand.1

/-- Then they are there in order, and the constraints hold. -/
theorem run_put_of_grounded (hw : ∀ x ∈ xs, S.Writes (stmtOf x) x) (hc : S.Consistent db) (h : S.Fresh db xs)
    (hground : Along (fun db x => db.append [x]) S.Grounded db xs) :
    run (S.put stmtOf) db xs = db.append xs ∧ S.Consistent (db.append xs) := by
  induction xs generalizing db with
  | nil => exact ⟨Db.append_nil.symm, by rwa [Db.append_nil]⟩
  | cons x xs ih =>
    rw [along_cons] at hground
    have hcons := (consistent_append_iff hc h).2 hground.1
    have hput : S.put stmtOf db x = db.append [x] := by
      rw [put, upsert_fresh (hw x (List.mem_cons_self ..)) h, accept_ok.2 ⟨hcons, rfl, rfl⟩]
    obtain ⟨hrun, hlast⟩ := ih (fun y hy => hw y (List.mem_cons_of_mem _ hy)) hcons h.cons hground.2
    rw [Db.append_append, List.singleton_append] at hrun hlast
    exact ⟨by rw [run_cons, hput, hrun], hlast⟩

/-! ## Rows that are there already -/

/-- **A row that has a key and is there already changes nothing.** -/
theorem put_of_mem (hw : S.Writes (stmtOf x) x) (hc : S.Consistent db) (ht : x.1 ∈ S.tables) (hmem : x.2 ∈ db x.1)
    (hkeyed : S.Keyed x) : S.put stmtOf db x = db := by
  obtain ⟨key, hkey, hself⟩ := hkeyed
  have hadmits := (hc x.1 ht).admits x.2 hmem
  unfold put upsert
  simp only [hw.table, hw.row, hadmits, if_true]
  cases hfind : (db x.1).find? (SameKey (S.table x.1).pkColumns x.2) with
  | some old =>
    simp only
    split_ifs
    · rfl
    · -- the update writes what is there
      have hupdated : (stmtOf x).updated (S.table x.1) x.2 (db x.1) = db x.1 := by
        refine (List.map_congr_left fun r hr => ?_).trans (List.map_id _)
        split_ifs with happlies
        · rw [← hc.eq_of_sameKey ht (List.mem_cons_self ..) hmem hr happlies.1]
          funext c
          simp [Upsert.merge]
        · rfl
      have hset : db.set x.1 (db x.1) = db := Function.update_eq_self ..
      rw [hupdated, hset, accept_ok.2 ⟨hc, rfl, rfl⟩]
  | none =>
    have hrefused : ¬ S.Consistent (db.set x.1 (db x.1 ++ [x.2])) := by
      intro hcons
      have hpair := (hcons x.1 ht).keys key hkey
      rw [Db.set_self] at hpair
      exact (List.pairwise_append.1 hpair).2.2 x.2 hmem x.2 (List.mem_singleton_self _) hself
    simp [accept, hrefused]

theorem run_put_of_mem (hw : ∀ x ∈ xs, S.Writes (stmtOf x) x) (hc : S.Consistent db) (ht : ∀ x ∈ xs, x.1 ∈ S.tables)
    (hmem : ∀ x ∈ xs, x.2 ∈ db x.1) (hkeyed : ∀ x ∈ xs, S.Keyed x) : run (S.put stmtOf) db xs = db := by
  induction xs with
  | nil => rfl
  | cons x xs ih =>
    rw [List.forall_mem_cons] at hw ht hmem hkeyed
    rw [run_cons, put_of_mem hw.1 hc ht.1 hmem.1 hkeyed.1]
    exact ih hw.2 ht.2 hmem.2 hkeyed.2

/-- No statement makes a table shorter. -/
theorem length_put_le (t : String) : (db t).length ≤ (S.put stmtOf db x t).length := by
  unfold put
  cases hout : S.upsert (stmtOf x) db with
  | error e => exact le_rfl
  | ok out =>
    obtain ⟨db', n⟩ := out
    rcases upsert_ok hout with ⟨-, rfl⟩ | ⟨-, -, -, rfl⟩ | ⟨-, -, -, rfl⟩
    · exact le_rfl
    · by_cases ht : t = (stmtOf x).table
      · subst ht
        simp
      · simp [Db.set_of_ne ht]
    · by_cases ht : t = (stmtOf x).table
      · subst ht
        simp [Upsert.updated]
      · simp [Db.set_of_ne ht]

theorem length_run_put_le (t : String) : (db t).length ≤ (run (S.put stmtOf) db xs t).length := by
  induction xs generalizing db with
  | nil => exact le_rfl
  | cons x xs ih => exact (length_put_le t).trans ih

/-- **A row without a key is there twice.** -/
theorem length_put_of_keyless (hw : S.Writes (stmtOf x) x) (hc : S.Consistent db) (ht : x.1 ∈ S.tables)
    (hmem : x.2 ∈ db x.1) (hkeyless : ¬ S.Keyed x) : (db x.1).length < (S.put stmtOf db x x.1).length := by
  have hnot : ∀ key ∈ (S.table x.1).pkColumns :: (S.table x.1).uniqueIndexes, ∀ r, ¬ SameKey key x.2 r :=
    fun key hkey r hsame => hkeyless ⟨key, hkey, hsame.self⟩
  have hadmits := (hc x.1 ht).admits x.2 hmem
  have hnone : (db x.1).find? (SameKey (S.table x.1).pkColumns x.2) = none :=
    List.find?_eq_none.2 fun r _ hsame => hnot _ (List.mem_cons_self ..) r (of_decide_eq_true hsame)
  have hcons : S.Consistent (db.set x.1 (db x.1 ++ [x.2])) := by
    rw [← Db.append_singleton]
    intro t htable
    have hmem' : ∀ r, r ∈ db.append [x] t → r ∈ db t := by
      intro r hr
      rcases Db.mem_append.1 hr with hr | hr
      · exact hr
      · obtain rfl := List.mem_singleton.1 hr
        exact hmem
    refine ⟨fun r hr => (hc t htable).admits r (hmem' r hr), fun key hkey => ?_, fun fk hfk r hr => ?_⟩
    · refine List.pairwise_append.2 ⟨(hc t htable).keys key hkey, ?_, fun r _ r' hr' hsame => ?_⟩
      · by_cases htx : x.1 = t
        · simp [htx]
        · simp [htx]
      · obtain ⟨y, hy, rfl⟩ := List.mem_map.1 hr'
        obtain ⟨hy, htx⟩ := List.mem_filter.1 hy
        obtain rfl := List.mem_singleton.1 hy
        obtain rfl := of_decide_eq_true htx
        exact hnot key hkey r (sameKey_comm.1 hsame)
    · exact Resolves.mono ((hc t htable).references fk hfk r (hmem' r hr)) fun p hp => Db.mem_append.2 (.inl hp)
  unfold put upsert
  simp only [hw.table, hw.row, hadmits, if_true, hnone]
  rw [accept_ok.2 ⟨hcons, rfl, rfl⟩]
  simp

theorem run_put_eq_iff (hw : ∀ x ∈ xs, S.Writes (stmtOf x) x) (hc : S.Consistent db) (ht : ∀ x ∈ xs, x.1 ∈ S.tables)
    (hmem : ∀ x ∈ xs, x.2 ∈ db x.1) : run (S.put stmtOf) db xs = db ↔ ∀ x ∈ xs, S.Keyed x := by
  refine ⟨fun hrun => ?_, fun hkeyed => run_put_of_mem hw hc ht hmem hkeyed⟩
  by_contra hsome
  -- up to the first row without a key nothing changes; then its table is longer
  have hgrows : ∃ t, (db t).length < (run (S.put stmtOf) db xs t).length := by
    clear hrun
    induction xs with
    | nil => exact absurd (fun x hx => (List.not_mem_nil hx).elim) hsome
    | cons x xs ih =>
      rw [List.forall_mem_cons] at hw ht hmem
      by_cases hkeyed : S.Keyed x
      · rw [run_cons, put_of_mem hw.1 hc ht.1 hmem.1 hkeyed]
        exact ih hw.2 ht.2 hmem.2 fun hall => hsome (List.forall_mem_cons.2 ⟨hkeyed, hall⟩)
      · exact ⟨x.1, (length_put_of_keyless hw.1 hc ht.1 hmem.1 hkeyed).trans_le (length_run_put_le x.1)⟩
  obtain ⟨t, hlt⟩ := hgrows
  rw [hrun] at hlt
  exact lt_irrefl _ hlt

end Schema

end ChronoSynth.Sql

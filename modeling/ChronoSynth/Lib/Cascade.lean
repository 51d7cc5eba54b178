import Mathlib.Data.List.Pairwise
import ChronoSynth.Lib.Relational

/-!
# Deleting rows that others refer to

`Schema.deleteWhere` is a `DELETE` whose foreign keys are checked later: rows that refer to a deleted one by
`ON DELETE CASCADE` go with it, in turn, and by `ON DELETE SET NULL` they lose the reference.

* `Worn` — a row as it was, up to references that were set null and columns that others are free to change; every
  row afterwards is one (`mem_deleteWhere`).
* `Reached` — the rows that deleting some rows takes with it; rows that are not `Altered` are there afterwards
  (`Descends.deleteWhere`).
* `Reached.left` — where the references hold again in the end, none of these rows is left.
-/

namespace ChronoSynth.Sql

namespace Schema

variable (S : Schema)

/-- A row refers to another one by a foreign key with this action. -/
def RefersBy (action : OnDelete) (t : String) (r : Row) (u : String) (p : Row) : Prop :=
  ∃ fk ∈ (S.table t).foreignKeys, fk.onDelete = action ∧ fk.table = u ∧ r fk.column ≠ .null ∧
    p fk.refColumn = r fk.column

instance (action : OnDelete) (t : String) (r : Row) (u : String) (p : Row) : Decidable (S.RefersBy action t r u p) :=
  inferInstanceAs (Decidable (∃ fk ∈ (S.table t).foreignKeys, _))

def RefersToSome (action : OnDelete) (gone : List (String × Row)) (t : String) (r : Row) : Prop :=
  ∃ g ∈ gone, S.RefersBy action t r g.1 g.2

instance (action : OnDelete) (gone : List (String × Row)) (t : String) :
    DecidablePred (S.RefersToSome action gone t) :=
  fun r => inferInstanceAs (Decidable (∃ g ∈ gone, S.RefersBy action t r g.1 g.2))

/-- The row without its references to the deleted rows. -/
def nullify (gone : List (String × Row)) (t : String) (r : Row) : Row := fun c =>
  if ∃ fk ∈ (S.table t).foreignKeys, fk.onDelete = .setNull ∧ fk.column = c ∧
      ∃ g ∈ gone, fk.table = g.1 ∧ r c ≠ .null ∧ g.2 fk.refColumn = r c then .null
  else r c

/-- The rows that go with the deleted ones. -/
def taken (gone : List (String × Row)) (db : Db) : List (String × Row) :=
  S.tables.flatMap fun t => ((db t).filter (S.RefersToSome .cascade gone t)).map fun r => (t, r)

/-- What is left after one round. -/
def without (gone : List (String × Row)) (db : Db) : Db := fun t =>
  ((db t).filter (¬ S.RefersToSome .cascade gone t ·)).map (S.nullify gone t)

/-- What deleting rows does to the others; every round but the last takes a row out. -/
def cascade : ℕ → List (String × Row) → Db → Db
  | 0, _, db => db
  | n + 1, gone, db =>
    let next := S.taken gone db
    if next = [] then S.without gone db else cascade n next (S.without gone db)

def size (db : Db) : ℕ := (S.tables.map fun t => (db t).length).sum

/-- `DELETE FROM table WHERE …`, and the number of rows it has deleted itself. -/
def deleteWhere (table : String) (cond : Row → Prop) [DecidablePred cond] (db : Db) : Db × ℕ :=
  let gone := (db table).filter cond
  (S.cascade (S.size db + 1) (gone.map fun r => (table, r)) (db.set table ((db table).filter (¬ cond ·))), gone.length)

/-! ## What is left of a row -/

def SetNullColumn (t c : String) : Prop := ∃ fk ∈ (S.table t).foreignKeys, fk.onDelete = .setNull ∧ fk.column = c

/-- A row as it was, up to references that were set null and columns that are free. -/
def Worn (free : String → String → Prop) (t : String) (r' r : Row) : Prop :=
  ∀ c, free t c ∨ r' c = r c ∨ (r' c = .null ∧ S.SetNullColumn t c)

variable {S} {free : String → String → Prop} {t u table : String} {r r' r'' p p' : Row} {db : Db}
  {gone : List (String × Row)}

theorem Worn.refl (t : String) (r : Row) : S.Worn free t r r := fun _ => .inr (.inl rfl)

theorem Worn.trans (h' : S.Worn free t r'' r') (h : S.Worn free t r' r) : S.Worn free t r'' r := by
  intro c
  rcases h' c with hfree | heq' | hnull
  · exact .inl hfree
  · rw [heq']
    exact h c
  · exact .inr (.inr hnull)

theorem Worn.mono {free' : String → String → Prop} (h : S.Worn free t r' r) (hfree : ∀ c, free t c → free' t c) :
    S.Worn free' t r' r := fun c => (h c).imp_left (hfree c)

/-- A column that is not free holds what it held, if it holds anything. -/
theorem Worn.eq_of_ne_null {c : String} (h : S.Worn free t r' r) (hc : ¬ free t c) (hne : r' c ≠ .null) : r' c = r c := by
  rcases h c with hfree | heq | ⟨hnull, -⟩
  · exact absurd hfree hc
  · exact heq
  · exact absurd hnull hne

theorem Worn.eq {c : String} (h : S.Worn free t r' r) (hc : ¬ free t c) (hset : ¬ S.SetNullColumn t c) : r' c = r c := by
  rcases h c with hfree | heq | ⟨-, hnull⟩
  · exact absurd hfree hc
  · exact heq
  · exact absurd hnull hset

theorem worn_nullify (t : String) (r : Row) : S.Worn free t (S.nullify gone t r) r := by
  intro c
  unfold nullify
  split_ifs with h
  · obtain ⟨fk, hfk, hset, hcol, -⟩ := h
    exact .inr (.inr ⟨rfl, fk, hfk, hset, hcol⟩)
  · exact .inr (.inl rfl)

theorem mem_without (h : r' ∈ S.without gone db t) :
    ∃ r ∈ db t, S.Worn free t r' r ∧ r' = S.nullify gone t r ∧ ¬ S.RefersToSome .cascade gone t r := by
  obtain ⟨r, hr, rfl⟩ := List.mem_map.1 h
  obtain ⟨hr, hkept⟩ := List.mem_filter.1 hr
  exact ⟨r, hr, worn_nullify t r, rfl, by simpa using hkept⟩

theorem mem_cascade {n : ℕ} (h : r' ∈ S.cascade n gone db t) : ∃ r ∈ db t, S.Worn free t r' r := by
  induction n generalizing gone db r' with
  | zero => exact ⟨r', h, Worn.refl t r'⟩
  | succ n ih =>
    have hround : ∀ {r₁ : Row}, r₁ ∈ S.without gone db t → ∃ r ∈ db t, S.Worn free t r₁ r := fun h₁ => by
      obtain ⟨r, hr, hworn, -⟩ := mem_without h₁
      exact ⟨r, hr, hworn⟩
    simp only [cascade] at h
    split_ifs at h
    · exact hround h
    · obtain ⟨r₁, hr₁, hworn₁⟩ := ih h
      obtain ⟨r, hr, hworn⟩ := hround hr₁
      exact ⟨r, hr, hworn₁.trans hworn⟩

section
variable {cond : Row → Prop} [DecidablePred cond]

theorem mem_set_filter : r ∈ db.set table ((db table).filter (¬ cond ·)) t ↔ r ∈ db t ∧ (t = table → ¬ cond r) := by
  by_cases ht : t = table
  · subst ht
    simp
  · simp [Db.set_of_ne ht, ht]

/-- Where a row comes from that is there after the deletion. -/
theorem mem_deleteWhere (h : r' ∈ (S.deleteWhere table cond db).1 t) :
    ∃ r ∈ db t, S.Worn free t r' r ∧ (t = table → ¬ cond r) := by
  obtain ⟨r, hr, hworn⟩ := mem_cascade h
  obtain ⟨hmem, hcond⟩ := mem_set_filter.1 hr
  exact ⟨r, hmem, hworn, hcond⟩

theorem exists_cascade {n : ℕ} (hnone : ∀ fk ∈ (S.table t).foreignKeys, fk.onDelete ≠ .cascade) (hr : r ∈ db t) :
    ∃ r' ∈ S.cascade n gone db t, S.Worn free t r' r := by
  induction n generalizing gone db r with
  | zero => exact ⟨r, hr, Worn.refl t r⟩
  | succ n ih =>
    have hround : S.nullify gone t r ∈ S.without gone db t := by
      refine List.mem_map_of_mem (List.mem_filter.2 ⟨hr, ?_⟩)
      rw [decide_eq_true_eq]
      rintro ⟨g, -, fk, hfk, hcascade, -⟩
      exact hnone fk hfk hcascade
    simp only [cascade]
    split_ifs
    · exact ⟨_, hround, worn_nullify t r⟩
    · obtain ⟨r', hr', hworn⟩ := ih hround
      exact ⟨r', hr', hworn.trans (worn_nullify t r)⟩

theorem exists_deleteWhere (hnone : ∀ fk ∈ (S.table t).foreignKeys, fk.onDelete ≠ .cascade) (hr : r ∈ db t)
    (hcond : t = table → ¬ cond r) : ∃ r' ∈ (S.deleteWhere table cond db).1 t, S.Worn free t r' r :=
  exists_cascade hnone (mem_set_filter.2 ⟨hr, hcond⟩)

theorem deleteWhere_none (h : ∀ r ∈ db table, ¬ cond r) : S.deleteWhere table cond db = (db, 0) := by
  have hgone : (db table).filter cond = [] := List.filter_eq_nil_iff.2 fun r hr => by simpa using h r hr
  have hset : db.set table ((db table).filter (¬ cond ·)) = db := by
    funext t
    by_cases ht : t = table
    · subst ht
      rw [Db.set_self]
      exact List.filter_eq_self.2 fun r hr => by simpa using h r hr
    · rw [Db.set_of_ne ht]
  have hwithout : S.without [] db = db := by
    funext t
    have hnull : S.nullify [] t = id := by
      funext r c
      simp [nullify]
    simp [without, hnull, RefersToSome]
  have htaken : S.taken [] db = [] := by simp [taken, RefersToSome]
  simp only [deleteWhere, hgone, hset, List.map_nil, cascade, htaken, hwithout, if_true, List.length_nil]

end

/-! ## What is taken along -/

inductive Reached (S : Schema) (db₀ : Db) (start : String → Row → Prop) : String → Row → Prop
  | start {t : String} {r : Row} : r ∈ db₀ t → start t r → Reached S db₀ start t r
  | cascade {t u : String} {r p : Row} : r ∈ db₀ t → S.RefersBy .cascade t r u p → Reached S db₀ start u p →
      Reached S db₀ start t r

/-- The rows that go, or lose a reference. -/
def Altered (S : Schema) (db₀ : Db) (start : String → Row → Prop) (t : String) (r : Row) : Prop :=
  Reached S db₀ start t r ∨ ∃ u p, S.RefersBy .setNull t r u p ∧ Reached S db₀ start u p

/-- A database on the way: rows that are worn, and all that are not altered. -/
structure Descends (S : Schema) (free : String → String → Prop) (db₀ : Db) (start : String → Row → Prop) (db : Db) :
    Prop where
  worn : ∀ t, ∀ r' ∈ db t, ∃ r ∈ db₀ t, S.Worn free t r' r
  kept : ∀ t, ∀ r ∈ db₀ t, ¬ Altered S db₀ start t r → r ∈ db t

/-- No reference is or refers to a free column. -/
structure KeysFixed (S : Schema) (free : String → String → Prop) : Prop where
  column : ∀ t, ∀ fk ∈ (S.table t).foreignKeys, ¬ free t fk.column
  refColumn : ∀ t, ∀ fk ∈ (S.table t).foreignKeys, ¬ free fk.table fk.refColumn

section
variable {db₀ : Db} {start : String → Row → Prop} {action : OnDelete}

theorem RefersBy.of_worn (hkeys : KeysFixed S free) (hr : S.Worn free t r' r) (hp : S.Worn free u p' p)
    (h : S.RefersBy action t r' u p') : S.RefersBy action t r u p := by
  obtain ⟨fk, hfk, haction, rfl, hne, heq⟩ := h
  have hcol := hr.eq_of_ne_null (hkeys.column t fk hfk) hne
  have href := hp.eq_of_ne_null (hkeys.refColumn t fk hfk) (heq ▸ hne)
  exact ⟨fk, hfk, haction, rfl, hcol ▸ hne, by rw [← href, heq, hcol]⟩

/-- The rows that are taken out are rows that go. -/
def Goes (S : Schema) (free : String → String → Prop) (db₀ : Db) (start : String → Row → Prop)
    (gone : List (String × Row)) : Prop :=
  ∀ g ∈ gone, ∃ p ∈ db₀ g.1, Reached S db₀ start g.1 p ∧ S.Worn free g.1 g.2 p

theorem Goes.taken (hkeys : KeysFixed S free) (hgone : Goes S free db₀ start gone)
    (h : Descends S free db₀ start db) : Goes S free db₀ start (S.taken gone db) := by
  intro g hg
  obtain ⟨t, -, hg⟩ := List.mem_flatMap.1 hg
  obtain ⟨r', hr', rfl⟩ := List.mem_map.1 hg
  obtain ⟨hr', hrefers⟩ := List.mem_filter.1 hr'
  obtain ⟨g, hg, hrefers⟩ := of_decide_eq_true hrefers
  obtain ⟨p, -, hreached, hp⟩ := hgone g hg
  obtain ⟨r, hr, hworn⟩ := h.worn t r' hr'
  exact ⟨r, hr, .cascade hr (hrefers.of_worn hkeys hworn hp) hreached, hworn⟩

theorem Descends.without (hkeys : KeysFixed S free) (hgone : Goes S free db₀ start gone)
    (h : Descends S free db₀ start db) : Descends S free db₀ start (S.without gone db) := by
  refine ⟨fun t r' hr' => ?_, fun t r hr hunaltered => ?_⟩
  · obtain ⟨r₁, hr₁, hworn₁, -⟩ := mem_without hr'
    obtain ⟨r, hr, hworn⟩ := h.worn t r₁ hr₁
    exact ⟨r, hr, hworn₁.trans hworn⟩
  · -- nothing that goes is referred to by the row
    have hrefers : ∀ action ∈ [OnDelete.cascade, .setNull], ∀ g ∈ gone, ¬ S.RefersBy action t r g.1 g.2 := by
      intro action haction g hg hrefers
      obtain ⟨p, -, hreached, hp⟩ := hgone g hg
      have hrefers' := hrefers.of_worn hkeys (Worn.refl t r) hp
      rcases List.mem_cons.1 haction with rfl | haction
      · exact hunaltered (.inl (.cascade hr hrefers' hreached))
      · obtain rfl := List.mem_singleton.1 haction
        exact hunaltered (.inr ⟨_, p, hrefers', hreached⟩)
    have hnull : S.nullify gone t r = r := by
      funext c
      unfold nullify
      rw [if_neg]
      rintro ⟨fk, hfk, hset, rfl, g, hg, htable, hne, heq⟩
      exact hrefers .setNull (by simp) g hg ⟨fk, hfk, hset, htable, hne, heq⟩
    refine List.mem_map.2 ⟨r, List.mem_filter.2 ⟨h.kept t r hr hunaltered, ?_⟩, hnull⟩
    rw [decide_eq_true_eq]
    rintro ⟨g, hg, hcascade⟩
    exact hrefers .cascade (by simp) g hg hcascade

theorem Descends.cascade (hkeys : KeysFixed S free) {n : ℕ} (hgone : Goes S free db₀ start gone)
    (h : Descends S free db₀ start db) : Descends S free db₀ start (S.cascade n gone db) := by
  induction n generalizing gone db with
  | zero => exact h
  | succ n ih =>
    simp only [Schema.cascade]
    split_ifs
    · exact h.without hkeys hgone
    · exact ih (hgone.taken hkeys h) (h.without hkeys hgone)

/-- **Deleting rows of the kind leaves what is not altered.** -/
theorem Descends.deleteWhere (hkeys : KeysFixed S free) {cond : Row → Prop} [DecidablePred cond]
    (h : Descends S free db₀ start db) (hup : ∀ t r' r, S.Worn free t r' r → start t r' → start t r)
    (hcond : ∀ r ∈ db table, cond r → start table r) : Descends S free db₀ start (S.deleteWhere table cond db).1 := by
  refine Descends.cascade hkeys (fun g hg => ?_) ⟨fun t r' hr' => ?_, fun t r hr hunaltered => ?_⟩
  · obtain ⟨r', hr', rfl⟩ := List.mem_map.1 hg
    obtain ⟨hr', hc⟩ := List.mem_filter.1 hr'
    obtain ⟨r, hr, hworn⟩ := h.worn table r' hr'
    exact ⟨r, hr, .start hr (hup _ _ _ hworn (hcond r' hr' (of_decide_eq_true hc))), hworn⟩
  · exact h.worn t r' (mem_set_filter.1 hr').1
  · refine mem_set_filter.2 ⟨h.kept t r hr hunaltered, ?_⟩
    rintro rfl hc
    exact hunaltered (.inl (.start hr (hcond r (h.kept _ r hr hunaltered) hc)))

/-! ## When the references hold again -/

/-- References are to the key of a table, and neither they nor the keys are confused with references to be set null. -/
structure ReferencesKeys (S : Schema) : Prop where
  key : ∀ t, ∀ fk ∈ (S.table t).foreignKeys,
    [fk.refColumn] ∈ (S.table fk.table).pkColumns :: (S.table fk.table).uniqueIndexes
  listed : ∀ t, ∀ fk ∈ (S.table t).foreignKeys, t ∈ S.tables ∧ fk.table ∈ S.tables
  column : ∀ t, ∀ fk ∈ (S.table t).foreignKeys, fk.onDelete = .cascade → ¬ S.SetNullColumn t fk.column
  refColumn : ∀ t, ∀ fk ∈ (S.table t).foreignKeys, ¬ S.SetNullColumn fk.table fk.refColumn

theorem Consistent.eq_of_key (h : S.Consistent db) (ht : t ∈ S.tables) {c : String}
    (hkey : [c] ∈ (S.table t).pkColumns :: (S.table t).uniqueIndexes) (hr : r ∈ db t) (hr' : r' ∈ db t)
    (hne : r c ≠ .null) (heq : r c = r' c) : r = r' := by
  refine h.eq_of_sameKey ht hkey hr hr' ⟨by simp, fun c' hc' => ?_⟩
  rw [List.mem_singleton.1 hc']
  exact ⟨hne, heq⟩

theorem exists_worn (hids : ReferencesKeys S) (hkeys : KeysFixed S free) (h₀ : S.Consistent db₀) (h : S.Consistent db)
    (hworn : ∀ t, ∀ r' ∈ db t, ∃ r ∈ db₀ t, S.Worn free t r' r) {fk : ForeignKey} (hfk : fk ∈ (S.table t).foreignKeys)
    (hr : r ∈ db t) (hne : r fk.column ≠ .null) (hp : p ∈ db₀ fk.table) (heq : p fk.refColumn = r fk.column) :
    ∃ p' ∈ db fk.table, S.Worn free fk.table p' p := by
  obtain ⟨htable, hlisted⟩ := hids.listed t fk hfk
  obtain hnull | ⟨p', hp', hres⟩ := (h t htable).references fk hfk r hr
  · exact absurd hnull hne
  · obtain ⟨p₀, hp₀, hw⟩ := hworn _ p' hp'
    have hid : p' fk.refColumn = p₀ fk.refColumn := hw.eq (hkeys.refColumn t fk hfk) (hids.refColumn t fk hfk)
    have hsame : p fk.refColumn = p₀ fk.refColumn := by rw [← hid, hres, heq]
    have hone := h₀.eq_of_key hlisted (hids.key t fk hfk) hp hp₀ (heq ▸ hne) hsame
    exact ⟨p', hp', hone ▸ hw⟩

variable {solid : String → Prop}

/-- **Where the references hold again, and nothing is left of the rows of the kind, nothing is left of what goes
with them.** -/
theorem Reached.left (hids : ReferencesKeys S) (hkeys : KeysFixed S free) (h₀ : S.Consistent db₀) (h : S.Consistent db)
    (hworn : ∀ t, ∀ r' ∈ db t, ∃ r ∈ db₀ t, S.Worn free t r' r)
    (hsolid : ∀ t, ∀ fk ∈ (S.table t).foreignKeys, solid t ∧ solid fk.table)
    (hstart : ∀ t, ∀ p ∈ db₀ t, solid t → start t p → ∀ p' ∈ db t, ¬ S.Worn free t p' p)
    (hreached : Reached S db₀ start t p) (ht : solid t) : p ∈ db₀ t ∧ ∀ p' ∈ db t, ¬ S.Worn free t p' p := by
  induction hreached with
  | start hr hs => exact ⟨hr, hstart _ _ hr ht hs⟩
  | cascade hr hrefers _ ih =>
    refine ⟨hr, fun r' hr' hw => ?_⟩
    obtain ⟨fk, hfk, hcascade, rfl, hne, heq⟩ := hrefers
    have hcol := hw.eq (hkeys.column _ fk hfk) (hids.column _ fk hfk hcascade)
    obtain ⟨hp, hgone⟩ := ih (hsolid _ fk hfk).2
    obtain ⟨q, hq, hqw⟩ := exists_worn hids hkeys h₀ h hworn hfk hr' (hcol ▸ hne) hp (heq.trans hcol.symm)
    exact hgone q hq hqw

theorem Altered.not_mem (hids : ReferencesKeys S) (hkeys : KeysFixed S free) (h₀ : S.Consistent db₀) (h : S.Consistent db)
    (hworn : ∀ t, ∀ r' ∈ db t, ∃ r ∈ db₀ t, S.Worn free t r' r)
    (hsolid : ∀ t, ∀ fk ∈ (S.table t).foreignKeys, solid t ∧ solid fk.table)
    (hstart : ∀ t, ∀ p ∈ db₀ t, solid t → start t p → ∀ p' ∈ db t, ¬ S.Worn free t p' p)
    (haltered : Altered S db₀ start t r) (ht : solid t) : r ∉ db t := by
  intro hr
  rcases haltered with hreached | ⟨u, p, ⟨fk, hfk, -, rfl, hne, heq⟩, hreached⟩
  · exact (hreached.left hids hkeys h₀ h hworn hsolid hstart ht).2 r hr (Worn.refl t r)
  · obtain ⟨hp, hgone⟩ := hreached.left hids hkeys h₀ h hworn hsolid hstart (hsolid t fk hfk).2
    obtain ⟨q, hq, hqw⟩ := exists_worn hids hkeys h₀ h hworn hfk hr hne hp heq
    exact hgone q hq hqw

end

end Schema

end ChronoSynth.Sql

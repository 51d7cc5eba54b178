import Mathlib.Data.List.Count
import Mathlib.Data.List.Nodup
import Mathlib.Order.Lattice

/-!
# Tables as lists of rows

A table is the list of its rows in the order they were inserted; a key that is unique is a function
`f` of the rows with `(rows.map f).Nodup`. Where rows are numbered as they are inserted, the number
is a key (`Numbered`).

`Table.update` is `UPDATE … SET … WHERE …`, `List.countP` its number of affected rows, `List.find?`
is `SELECT … LIMIT 1`, and `Table.latest` is `SELECT … ORDER BY f DESC LIMIT 1`, which may return
any of the rows with the largest `f`.
-/

namespace ChronoSynth

section
variable {α β : Type*} [DecidableEq β] {f : α → β} {rows : List α} {a : α}

theorem filter_key_eq_singleton (h : (rows.map f).Nodup) (ha : a ∈ rows) :
    rows.filter (fun x => f x = f a) = [a] := by
  induction rows with
  | nil => simp at ha
  | cons b rows ih =>
    rw [List.map_cons, List.nodup_cons] at h
    rcases List.mem_cons.1 ha with rfl | ha'
    · have hnil : rows.filter (fun x => f x = f a) = [] :=
        List.filter_eq_nil_iff.2 fun x hx he => h.1 (List.mem_map.2 ⟨x, hx, by simpa using he⟩)
      simp [hnil]
    · have hne : f b ≠ f a := fun he => h.1 (he ▸ List.mem_map_of_mem ha')
      simp [hne, ih h.2 ha']

theorem countP_key_eq_one (h : (rows.map f).Nodup) {k : β} {q : α → Prop} [DecidablePred q] :
    rows.countP (fun a => f a = k ∧ q a) = 1 ↔ ∃ a ∈ rows, f a = k ∧ q a := by
  refine ⟨fun h1 => ?_, fun ⟨a, ha, hk, hq⟩ => ?_⟩
  · have hpos : 0 < rows.countP (fun a => f a = k ∧ q a) := by omega
    obtain ⟨a, ha, hka⟩ := List.countP_pos_iff.1 hpos
    exact ⟨a, ha, by simpa using hka⟩
  · have hle : rows.countP (fun a => f a = k ∧ q a) ≤ (rows.filter fun b => f b = f a).length := by
      rw [List.countP_eq_length_filter]
      refine List.Sublist.length_le (List.monotone_filter_right _ fun b hb => ?_)
      simp only [decide_eq_true_eq] at hb ⊢
      exact hb.1.trans hk.symm
    rw [filter_key_eq_singleton h ha] at hle
    have hpos : 0 < rows.countP (fun a => f a = k ∧ q a) :=
      List.countP_pos_iff.2 ⟨a, ha, by simpa using ⟨hk, hq⟩⟩
    simp only [List.length_singleton] at hle
    omega

end

namespace Table

variable {α β : Type*}

/-- `UPDATE … SET g WHERE p`. -/
def update (p : α → Prop) [DecidablePred p] (g : α → α) (rows : List α) : List α :=
  rows.map fun a => if p a then g a else a

/-- `SELECT … LIMIT 1`; which row it is, `tie` decides. -/
def pick (tie : ℕ) (rows : List α) : Option α := rows[tie % rows.length]?

/-- `SELECT … ORDER BY f DESC LIMIT 1`; among equals `tie` decides. -/
def latest (f : α → ℕ) (tie : ℕ) (rows : List α) : Option α :=
  let newest := rows.filter fun a => ∀ b ∈ rows, f b ≤ f a
  newest[tie % newest.length]?

variable {p : α → Prop} [DecidablePred p] {f : α → ℕ} {g : α → α} {rows : List α} {a b : α}
  {k tie : ℕ}

/-! ## Updates -/

@[simp] theorem update_nil : update p g [] = [] := rfl

theorem mem_update : b ∈ update p g rows ↔ ∃ a ∈ rows, b = if p a then g a else a := by
  simp [update, eq_comm]

@[simp] theorem length_update : (update p g rows).length = rows.length := List.length_map _

theorem forall_mem_update {P : α → Prop} (h : ∀ a ∈ rows, P a) (hP : ∀ a, p a → P a → P (g a)) :
    ∀ b ∈ update p g rows, P b := by
  intro b hb
  obtain ⟨a, ha, rfl⟩ := mem_update.1 hb
  split_ifs with hp
  · exact hP a hp (h a ha)
  · exact h a ha

theorem exists_mem_update {P : α → Prop} (h : ∃ a ∈ rows, P a) (hP : ∀ a, p a → P a → P (g a)) :
    ∃ b ∈ update p g rows, P b := by
  obtain ⟨a, ha, hPa⟩ := h
  by_cases hp : p a
  · exact ⟨g a, mem_update.2 ⟨a, ha, (if_pos hp).symm⟩, hP a hp hPa⟩
  · exact ⟨a, mem_update.2 ⟨a, ha, (if_neg hp).symm⟩, hPa⟩

theorem mem_update_of_not (ha : a ∈ rows) (hp : ¬ p a) : a ∈ update p g rows :=
  mem_update.2 ⟨a, ha, (if_neg hp).symm⟩

theorem mem_update_of (ha : a ∈ rows) (hp : p a) : g a ∈ update p g rows :=
  mem_update.2 ⟨a, ha, (if_pos hp).symm⟩

theorem map_update {γ : Type*} {c : α → γ} (hc : ∀ a, p a → c (g a) = c a) :
    (update p g rows).map c = rows.map c := by
  simp only [update, List.map_map]
  refine List.map_congr_left fun a _ => ?_
  by_cases hp : p a
  · simp [hp, hc a hp]
  · simp [hp]

theorem update_eq_self (h : ∀ a ∈ rows, ¬ p a) : update p g rows = rows := by
  rw [update]
  conv_rhs => rw [← List.map_id rows]
  exact List.map_congr_left fun a ha => if_neg (h a ha)

theorem filter_update_of_not {q : α → Prop} [DecidablePred q]
    (h : ∀ a ∈ rows, p a → ¬ q a ∧ ¬ q (g a)) :
    (update p g rows).filter (fun a => q a) = rows.filter fun a => q a := by
  induction rows with
  | nil => rfl
  | cons a rows ih =>
    have ih := ih fun b hb => h b (List.mem_cons_of_mem _ hb)
    rw [update, List.map_cons, ← update]
    by_cases hp : p a
    · obtain ⟨hq, hq'⟩ := h a List.mem_cons_self hp
      rw [if_pos hp, List.filter_cons_of_neg (by simpa using hq'), List.filter_cons_of_neg (by simpa using hq), ih]
    · rw [if_neg hp, List.filter_cons, List.filter_cons, ih]

theorem filter_delete_of_not {q : α → Prop} [DecidablePred q] (h : ∀ a ∈ rows, q a → ¬ p a) :
    (rows.filter fun a => ¬ p a).filter (fun a => q a) = rows.filter fun a => q a := by
  rw [List.filter_filter]
  refine List.filter_congr fun a ha => ?_
  by_cases hq : q a
  · simp [hq, h a ha hq]
  · simp [hq]

/-- The rows of either kind are no more than those of the one and those of the other. -/
theorem countP_or_le {p q : α → Prop} [DecidablePred p] [DecidablePred q] :
    rows.countP (fun a => p a ∨ q a) ≤
      rows.countP (fun a => p a) + rows.countP fun a => q a := by
  induction rows with
  | nil => exact le_rfl
  | cons a rows ih =>
    simp only [List.countP_cons, decide_eq_true_eq]
    by_cases hp : p a
    · simp only [hp, true_or, if_true]
      omega
    · simp only [hp, false_or, if_false]
      omega

/-! ## Any row -/

theorem pick_mem (h : pick tie rows = some a) : a ∈ rows := List.mem_of_getElem? h

theorem pick_eq_none (h : pick tie rows = none) : rows = [] := by
  by_contra hne
  have hlt : tie % rows.length < rows.length := Nat.mod_lt _ (List.length_pos_iff.2 hne)
  rw [pick, List.getElem?_eq_getElem hlt] at h
  cases h

/-! ## The latest row -/

theorem latest_mem (h : latest f tie rows = some a) : a ∈ rows :=
  (List.mem_filter.1 (List.mem_of_getElem? h)).1

theorem le_latest (h : latest f tie rows = some a) (hb : b ∈ rows) : f b ≤ f a := by
  have := (List.mem_filter.1 (List.mem_of_getElem? h)).2
  simp only [decide_eq_true_eq] at this
  exact this b hb

theorem exists_latest (h : rows ≠ []) : ∃ a, latest f tie rows = some a := by
  obtain ⟨a, ha, hmax⟩ : ∃ a ∈ rows, ∀ b ∈ rows, f b ≤ f a := by
    induction rows with
    | nil => exact absurd rfl h
    | cons c rows ih =>
      by_cases hr : rows = []
      · exact ⟨c, by simp, by simp [hr]⟩
      · obtain ⟨a, ha, hmax⟩ := ih hr
        rcases le_total (f c) (f a) with hca | hac
        · exact ⟨a, List.mem_cons_of_mem _ ha, by simpa [hca] using hmax⟩
        · exact ⟨c, by simp, by simpa using fun b hb => (hmax b hb).trans hac⟩
  have hpos : 0 < (rows.filter fun a => ∀ b ∈ rows, f b ≤ f a).length :=
    List.length_pos_of_mem (List.mem_filter.2 ⟨ha, by simpa using hmax⟩)
  exact ⟨_, List.getElem?_eq_getElem (Nat.mod_lt _ hpos)⟩

theorem latest_eq_of_lt (ha : a ∈ rows) (h : ∀ b ∈ rows, b ≠ a → f b < f a) :
    latest f tie rows = some a := by
  obtain ⟨c, hc⟩ : ∃ c, latest f tie rows = some c := exists_latest (List.ne_nil_of_mem ha)
  by_cases hca : c = a
  · rw [hc, hca]
  · exact absurd (le_latest hc ha) (not_le.2 (h c (latest_mem hc) hca))

theorem exists_tie (ha : a ∈ rows) (h : ∀ b ∈ rows, f b ≤ f a) :
    ∃ tie, latest f tie rows = some a := by
  have hmem : a ∈ rows.filter fun a => ∀ b ∈ rows, f b ≤ f a :=
    List.mem_filter.2 ⟨ha, by simpa using h⟩
  obtain ⟨i, hi, rfl⟩ := List.mem_iff_getElem.1 hmem
  exact ⟨i, by simp only [latest]; rw [Nat.mod_eq_of_lt hi, List.getElem?_eq_getElem hi]⟩

theorem forall_latest_iff (ha : a ∈ rows) :
    (∀ tie, latest f tie rows = some a) ↔ ∀ b ∈ rows, b ≠ a → f b < f a := by
  refine ⟨fun h b hb hne => ?_, fun h tie => latest_eq_of_lt ha h⟩
  refine lt_of_le_of_ne (le_latest (h 0) hb) fun he => hne ?_
  obtain ⟨tie, htie⟩ := exists_tie hb fun c hc => he ▸ le_latest (h 0) hc
  exact Option.some.inj (htie.symm.trans (h tie))

theorem latest_map (h : ∀ a, f (g a) = f a) : latest f tie (rows.map g) = (latest f tie rows).map g := by
  have hnewest : (rows.map g).filter (fun a => ∀ b ∈ rows.map g, f b ≤ f a) =
      (rows.filter fun a => ∀ b ∈ rows, f b ≤ f a).map g := by
    rw [List.filter_map]
    congr 1
    refine List.filter_congr fun a _ => ?_
    simp [h]
  simp only [latest, hnewest, List.length_map, List.getElem?_map]

/-! ## One write for each key -/

section
variable {σ κ : Type*} [DecidableEq κ] {step : σ → α → σ}

/-- What no write of a loop touches. -/
theorem foldl_keep (c : σ → β) (h : ∀ s a, c (step s a) = c s) (rows : List α) (s : σ) :
    c (rows.foldl step s) = c s := by
  induction rows generalizing s with
  | nil => rfl
  | cons a rows ih => exact (ih (step s a)).trans (h s a)

/-- A loop with one write for each key: what stands at `k` afterwards is what the write for `k` makes of what
stood there before. -/
theorem foldl_key (key : α → κ) (c : σ → β) (write : α → β → β) {k : κ}
    (h : ∀ s a, c (step s a) = if key a = k then write a (c s) else c s) (hrows : (rows.map key).Nodup) (s : σ) :
    c (rows.foldl step s) = (rows.find? fun a => key a = k).elim (c s) fun a => write a (c s) := by
  induction rows generalizing s with
  | nil => rfl
  | cons a rows ih =>
    obtain ⟨ha, hrest⟩ := List.nodup_cons.1 hrows
    rw [List.foldl_cons, ih hrest, h]
    by_cases hk : key a = k
    · have hnone : rows.find? (fun b => key b = k) = none := by
        rw [List.find?_eq_none]
        intro b hb hbk
        refine ha (List.mem_map.2 ⟨b, hb, ?_⟩)
        rw [hk, of_decide_eq_true hbk]
      simp [hk, hnone]
    · simp [hk]

end

/-! ## Numbered rows -/

/-- The key of a row is its number in the order of insertion. -/
def Numbered (f : α → ℕ) (rows : List α) : Prop := rows.map f = List.range rows.length

theorem Numbered.nil : Numbered f [] := rfl

theorem Numbered.append (h : Numbered f rows) (ha : f a = rows.length) :
    Numbered f (rows ++ [a]) := by
  have h' : rows.map f = List.range rows.length := h
  simp [Numbered, h', ha, List.range_succ]

theorem Numbered.update (h : Numbered f rows) (hg : ∀ a, p a → f (g a) = f a) :
    Numbered f (update p g rows) := by
  rw [Numbered, map_update hg, h, Table.update, List.length_map]

theorem Numbered.nodup (h : Numbered f rows) : (rows.map f).Nodup := by
  rw [h]
  exact List.nodup_range

theorem Numbered.lt (h : Numbered f rows) (ha : a ∈ rows) : f a < rows.length := by
  have := List.mem_map_of_mem (f := f) ha
  rw [h] at this
  exact List.mem_range.1 this

theorem Numbered.eq (h : Numbered f rows) (ha : a ∈ rows) (hb : b ∈ rows) (hab : f a = f b) :
    a = b :=
  List.inj_on_of_nodup_map h.nodup ha hb hab

theorem Numbered.find (h : Numbered f rows) (ha : a ∈ rows) :
    rows.find? (fun b => f b = f a) = some a := by
  cases hf : rows.find? (fun b => f b = f a) with
  | none => simpa using List.find?_eq_none.1 hf a ha
  | some b =>
    have hb : f b = f a := by simpa using List.find?_some hf
    rw [h.eq (List.mem_of_find?_eq_some hf) ha hb]

theorem find_spec {q : α → Prop} [DecidablePred q] (h : rows.find? (fun b => q b) = some a) :
    a ∈ rows ∧ q a :=
  ⟨List.mem_of_find?_eq_some h, by simpa using List.find?_some h⟩

theorem Numbered.countP_eq_one (h : Numbered f rows) {q : α → Prop} [DecidablePred q] :
    rows.countP (fun a => f a = k ∧ q a) = 1 ↔ ∃ a ∈ rows, f a = k ∧ q a :=
  countP_key_eq_one h.nodup

/-! ## What stays -/

/-- What a table may become: its rows stay, each up to `R`, and new ones get their numbers. -/
structure Grows (R : α → α → Prop) (f : α → ℕ) (rows rows' : List α) : Prop where
  stay : ∀ a ∈ rows, ∃ b ∈ rows', R a b
  numbered : Numbered f rows → Numbered f rows'

variable {R : α → α → Prop} {rows' rows'' : List α}

theorem Grows.refl (hR : ∀ a, R a a) : Grows R f rows rows := ⟨fun a ha => ⟨a, ha, hR a⟩, id⟩

theorem Grows.trans (hR : ∀ a b c, R a b → R b c → R a c) (h : Grows R f rows rows')
    (h' : Grows R f rows' rows'') : Grows R f rows rows'' := by
  refine ⟨fun a ha => ?_, fun hn => h'.numbered (h.numbered hn)⟩
  obtain ⟨b, hb, hab⟩ := h.stay a ha
  obtain ⟨c, hc, hbc⟩ := h'.stay b hb
  exact ⟨c, hc, hR a b c hab hbc⟩

theorem Grows.insert (hR : ∀ a, R a a) (ha : f a = rows.length) :
    Grows R f rows (rows ++ [a]) :=
  ⟨fun b hb => ⟨b, List.mem_append_left _ hb, hR b⟩, fun hn => hn.append ha⟩

theorem Grows.update (hR : ∀ a, R a a) (hg : ∀ a, p a → R a (g a)) (hf : ∀ a, f (g a) = f a) :
    Grows R f rows (Table.update p g rows) := by
  refine ⟨fun a ha => ?_, fun hn => hn.update fun a _ => hf a⟩
  by_cases hp : p a
  · exact ⟨g a, mem_update_of ha hp, hg a hp⟩
  · exact ⟨a, mem_update_of_not ha hp, hR a⟩

end Table

end ChronoSynth

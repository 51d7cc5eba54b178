import Mathlib.Data.List.Basic

/-!
# The newest versions

A collection of rows takes in versions, one after the other: a version of something that is not there is added, a newer
one replaces what is there, and what is not newer is left out. Whatever the order, every row is then the newest of the
versions of it (`Newest`), and where versions of the same age are the same the rows do not depend on the order
(`Kept.mem_iff`). Rows that are not `owned` never change.
-/

namespace ChronoSynth

variable {α : Type*}

/-- When two are versions of one thing, and when one is newer. -/
structure Versioning (α : Type*) where
  same : α → α → Prop
  newer : α → α → Prop
  same_symm : ∀ {a b}, same a b → same b a
  same_trans : ∀ {a b c}, same a b → same b c → same a c
  newer_irrefl : ∀ a, ¬ newer a a
  newer_trans : ∀ {a b c}, newer a b → newer b c → newer a c

variable (v : Versioning α) (owned originals taken : α → Prop) (rows : List α)

/-- Every row of the owner is one of the versions, and none of its versions is newer. -/
structure Newest : Prop where
  version : ∀ r ∈ rows, owned r → originals r ∨ taken r
  newest : ∀ r ∈ rows, owned r → ∀ w, originals w ∨ taken w → v.same r w → ¬ v.newer w r

/-- What the collection keeps up as it takes in versions. -/
structure Kept : Prop extends Newest v owned originals taken rows where
  present : ∀ w, originals w ∨ taken w → ∃ r ∈ rows, r = w ∨ v.same r w
  original : ∀ r ∈ rows, owned r → ∀ o, originals o → v.same r o → r = o ∨ v.newer r o
  others : ∀ x, ¬ owned x → (x ∈ rows ↔ originals x)

variable {v owned originals taken rows} {taken' : α → Prop} {rows' : List α} {x old : α}

theorem Kept.init (hunique : ∀ r ∈ rows, ∀ w ∈ rows, v.same r w → r = w) :
    Kept v owned (· ∈ rows) (fun _ => False) rows where
  version _ hr _ := .inl hr
  newest r hr _ w hw hsame := by
    obtain rfl := hunique r hr w (hw.resolve_right id) hsame
    exact v.newer_irrefl r
  present w hw := ⟨w, hw.resolve_right id, .inl rfl⟩
  original r hr _ o ho hsame := .inl (hunique r hr o ho hsame)
  others _ _ := Iff.rfl

theorem Kept.congr (h : Kept v owned originals taken rows) (htaken : ∀ w, taken' w ↔ taken w) :
    Kept v owned originals taken' rows := by
  obtain rfl : taken' = taken := funext fun w => propext (htaken w)
  exact h

/-- **What is not newer is left out.** -/
theorem Kept.leave (h : Kept v owned originals taken rows) (hx : ∃ r ∈ rows, v.same r x)
    (hnot : ∀ r ∈ rows, owned r → v.same r x → ¬ v.newer x r) :
    Kept v owned originals (fun w => taken w ∨ w = x) rows where
  version r hr ho := (h.version r hr ho).imp_right .inl
  newest r hr ho w hw hsame := by
    rcases hw with hw | hw | rfl
    · exact h.newest r hr ho w (.inl hw) hsame
    · exact h.newest r hr ho w (.inr hw) hsame
    · exact hnot r hr ho hsame
  present w hw := by
    rcases hw with hw | hw | rfl
    · exact h.present w (.inl hw)
    · exact h.present w (.inr hw)
    · obtain ⟨r, hr, hsame⟩ := hx
      exact ⟨r, hr, .inr hsame⟩
  original := h.original
  others := h.others

/-- **What is not there is added.** -/
theorem Kept.add (h : Kept v owned originals taken rows) (hx : owned x) (hnew : ∀ r ∈ rows, ¬ v.same r x)
    (hrows : ∀ y, y ∈ rows' ↔ y ∈ rows ∨ y = x) : Kept v owned originals (fun w => taken w ∨ w = x) rows' := by
  -- no version of it has been there
  have hfirst : ∀ w, originals w ∨ taken w → v.same x w → w = x := fun w hw hsame => by
    obtain ⟨r, hr, rfl | hrw⟩ := h.present w hw
    · exact absurd (v.same_symm hsame) (hnew r hr)
    · exact absurd (v.same_trans hrw (v.same_symm hsame)) (hnew r hr)
  refine ⟨⟨fun r hr ho => ?_, fun r hr ho w hw hsame => ?_⟩, fun w hw => ?_, fun r hr ho o horig hsame => ?_,
    fun y hy => ?_⟩
  · rcases (hrows r).1 hr with hr | rfl
    · exact (h.version r hr ho).imp_right .inl
    · exact .inr (.inr rfl)
  · rcases (hrows r).1 hr with hr | rfl
    · rcases hw with hw | hw | rfl
      · exact h.newest r hr ho w (.inl hw) hsame
      · exact h.newest r hr ho w (.inr hw) hsame
      · exact absurd hsame (hnew r hr)
    · have heq : w = r := by
        rcases hw with hw | hw | rfl
        · exact hfirst w (.inl hw) hsame
        · exact hfirst w (.inr hw) hsame
        · rfl
      rw [heq]
      exact v.newer_irrefl r
  · rcases hw with hw | hw | rfl
    · obtain ⟨r, hr, hrw⟩ := h.present w (.inl hw)
      exact ⟨r, (hrows r).2 (.inl hr), hrw⟩
    · obtain ⟨r, hr, hrw⟩ := h.present w (.inr hw)
      exact ⟨r, (hrows r).2 (.inl hr), hrw⟩
    · exact ⟨w, (hrows w).2 (.inr rfl), .inl rfl⟩
  · rcases (hrows r).1 hr with hr | rfl
    · exact h.original r hr ho o horig hsame
    · exact .inl (hfirst o (.inl horig) hsame).symm
  · have hne : y ≠ x := fun heq => hy (heq ▸ hx)
    rw [hrows, or_iff_left hne]
    exact h.others y hy

/-- **What is newer replaces what is there.** -/
theorem Kept.replace (h : Kept v owned originals taken rows) (hx : owned x) (hold : old ∈ rows) (ho : owned old)
    (hsame : v.same old x) (hnewer : v.newer x old) (hunique : ∀ r ∈ rows, v.same r x → r = old)
    (hrows : ∀ y, y ∈ rows' ↔ y ∈ rows ∧ y ≠ old ∨ y = x) :
    Kept v owned originals (fun w => taken w ∨ w = x) rows' := by
  have hbefore : ∀ w, originals w ∨ taken w → v.same x w → ¬ v.newer w x := fun w hw hw' hlt =>
    h.newest old hold ho w hw (v.same_trans hsame hw') (v.newer_trans hlt hnewer)
  have hpresent : ∀ w, originals w ∨ taken w → ∃ r ∈ rows', r = w ∨ v.same r w := fun w hw => by
    obtain ⟨r, hr, hrw⟩ := h.present w hw
    by_cases heq : r = old
    · subst heq
      refine ⟨x, (hrows x).2 (.inr rfl), .inr ?_⟩
      rcases hrw with rfl | hrw
      · exact v.same_symm hsame
      · exact v.same_trans (v.same_symm hsame) hrw
    · exact ⟨r, (hrows r).2 (.inl ⟨hr, heq⟩), hrw⟩
  refine ⟨⟨fun r hr hro => ?_, fun r hr hro w hw hrw => ?_⟩, fun w hw => ?_, fun r hr hro o horig hsame' => ?_,
    fun y hy => ?_⟩
  · rcases (hrows r).1 hr with ⟨hr, -⟩ | rfl
    · exact (h.version r hr hro).imp_right .inl
    · exact .inr (.inr rfl)
  · rcases (hrows r).1 hr with ⟨hr, hne⟩ | rfl
    · rcases hw with hw | hw | rfl
      · exact h.newest r hr hro w (.inl hw) hrw
      · exact h.newest r hr hro w (.inr hw) hrw
      · exact absurd (hunique r hr hrw) hne
    · rcases hw with hw | hw | rfl
      · exact hbefore w (.inl hw) hrw
      · exact hbefore w (.inr hw) hrw
      · exact v.newer_irrefl w
  · rcases hw with hw | hw | rfl
    · exact hpresent w (.inl hw)
    · exact hpresent w (.inr hw)
    · exact ⟨w, (hrows w).2 (.inr rfl), .inl rfl⟩
  · rcases (hrows r).1 hr with ⟨hr, -⟩ | rfl
    · exact h.original r hr hro o horig hsame'
    · rcases h.original old hold ho o horig (v.same_trans hsame hsame') with rfl | holder
      · exact .inr hnewer
      · exact .inr (v.newer_trans hnewer holder)
  · have hne : y ≠ x := fun heq => hy (heq ▸ hx)
    have hne' : y ≠ old := fun heq => hy (heq ▸ ho)
    rw [hrows, or_iff_left hne, and_iff_left hne']
    exact h.others y hy

theorem Kept.mem_of_mem (h : Kept v owned originals taken rows) (h' : Kept v owned originals taken' rows')
    (htaken : ∀ w, taken w ↔ taken' w) (hunique : ∀ r ∈ rows, ∀ w ∈ rows, v.same r w → r = w)
    (hagree : ∀ a b, taken a → taken b → v.same a b → ¬ v.newer a b → ¬ v.newer b a → a = b) (hx : x ∈ rows) :
    x ∈ rows' := by
  by_cases ho : owned x
  · have hversion := h.version x hx ho
    obtain ⟨r, hr, rfl | hsame⟩ := h'.present x (hversion.imp_right (htaken x).1)
    · exact hr
    · -- what stands there for it is of the owner as well
      have hro : owned r := by
        by_contra hro
        have hmem : r ∈ rows := (h.others r hro).2 ((h'.others r hro).1 hr)
        exact hro (hunique r hmem x hx hsame ▸ ho)
      have hversion' := (h'.version r hr hro).imp_right (htaken r).2
      have hle : ¬ v.newer r x := h.newest x hx ho r hversion' (v.same_symm hsame)
      have hge : ¬ v.newer x r := h'.newest r hr hro x (hversion.imp_right (htaken x).1) hsame
      have heq : r = x := by
        rcases hversion with horig | htx
        · exact (h'.original r hr hro x horig hsame).resolve_right hle
        · rcases hversion' with horig' | htr
          · exact ((h.original x hx ho r horig' (v.same_symm hsame)).resolve_right hge).symm
          · exact hagree r x htr htx hsame hle hge
      rwa [← heq]
  · exact (h'.others x ho).2 ((h.others x ho).1 hx)

/-- **The order makes no difference** where versions of the same age are the same. -/
theorem Kept.mem_iff (h : Kept v owned originals taken rows) (h' : Kept v owned originals taken' rows')
    (htaken : ∀ w, taken w ↔ taken' w) (hunique : ∀ r ∈ rows, ∀ w ∈ rows, v.same r w → r = w)
    (hunique' : ∀ r ∈ rows', ∀ w ∈ rows', v.same r w → r = w)
    (hagree : ∀ a b, taken a → taken b → v.same a b → ¬ v.newer a b → ¬ v.newer b a → a = b) : x ∈ rows ↔ x ∈ rows' :=
  ⟨h.mem_of_mem h' htaken hunique hagree, h'.mem_of_mem h (fun w => (htaken w).symm) hunique' fun a b ha hb =>
    hagree a b ((htaken a).2 ha) ((htaken b).2 hb)⟩

end ChronoSynth

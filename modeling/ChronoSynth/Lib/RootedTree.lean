import Mathlib.Data.Set.Insert
import Mathlib.Logic.Relation

/-!
# Rooted trees by their upward edges

`up v p` says that `p` is above `v`. A set of nodes is a **rooted tree** if one of them, the root, has
nothing above it, nothing above a node lies outside, and from every node a way up leads to the root.

Three changes keep a tree a tree: hanging a new leaf under a node (`RootedTree.leaf`), moving a node
under another one that is not below it (`RootedTree.move`), and hanging one tree under a node of another
(`RootedTree.graft`).
-/

namespace ChronoSynth

variable {α β : Type*}

structure RootedTree (V : Set α) (up : α → α → Prop) (root : α) : Prop where
  /-- The root is a node. -/
  root_mem : root ∈ V
  /-- Nothing is above the root. -/
  root_top : ∀ p, ¬ up root p
  /-- What is above a node is a node. -/
  closed : ∀ v ∈ V, ∀ p, up v p → p ∈ V
  /-- Going up from a node one gets to the root. -/
  reach : ∀ v ∈ V, Relation.ReflTransGen up v root

namespace RootedTree

variable {V W : Set α} {up up' : α → α → Prop} {root r x m v : α}

theorem eq_root (h : RootedTree V up root) (hv : v ∈ V) (htop : ∀ p, ¬ up v p) : v = root := by
  rcases Relation.ReflTransGen.cases_head (h.reach v hv) with heq | ⟨p, hp, -⟩
  · exact heq
  · exact absurd hp (htop p)

theorem congr (h : RootedTree V up root) (hup : ∀ v ∈ V, ∀ p, up' v p ↔ up v p) :
    RootedTree V up' root where
  root_mem := h.root_mem
  root_top p hp := h.root_top p ((hup root h.root_mem p).1 hp)
  closed v hv p hp := h.closed v hv p ((hup v hv p).1 hp)
  reach v hv := by
    have hreach := h.reach v hv
    induction hreach using Relation.ReflTransGen.head_induction_on with
    | refl => exact .refl
    | head hstep _ ih => exact .head ((hup _ hv _).2 hstep) (ih (h.closed _ hv _ hstep))

theorem leaf (h : RootedTree V up root) (hm : m ∈ V) (hx : ∀ p, up' x p ↔ p = m)
    (hup : ∀ v ∈ V, ∀ p, up' v p ↔ up v p) : RootedTree (insert x V) up' root := by
  have hV : RootedTree V up' root := h.congr hup
  refine ⟨Set.mem_insert_of_mem x hV.root_mem, hV.root_top, fun v hv p hp => ?_, fun v hv => ?_⟩
  · rcases hv with rfl | hv
    · obtain rfl : p = m := (hx p).1 hp
      exact Set.mem_insert_of_mem v hm
    · exact Set.mem_insert_of_mem x (hV.closed v hv p hp)
  · rcases hv with rfl | hv
    · exact .head ((hx m).2 rfl) (hV.reach m hm)
    · exact hV.reach v hv

/-- The way to the root from a node that is not below `x` does not change when `x` is moved. -/
theorem reach_of_not_below (h : RootedTree V up root) (hup : ∀ v ∈ V, v ≠ x → ∀ p, up v p → up' v p)
    (hv : v ∈ V) (hbelow : ¬ Relation.ReflTransGen up v x) : Relation.ReflTransGen up' v root := by
  have hreach := h.reach v hv
  induction hreach using Relation.ReflTransGen.head_induction_on with
  | refl => exact .refl
  | @head v w hstep _ ih =>
    have hne : v ≠ x := fun he => hbelow (he ▸ .refl)
    exact .head (hup v hv hne w hstep)
      (ih (h.closed v hv w hstep) fun hw => hbelow (.head hstep hw))

theorem move (h : RootedTree V up root) (hm : m ∈ V) (hbelow : ¬ Relation.ReflTransGen up m x)
    (hx : ∀ p, up' x p ↔ p = m) (hup : ∀ v ∈ V, v ≠ x → ∀ p, up' v p ↔ up v p) :
    RootedTree V up' root := by
  have hroot : root ≠ x := fun he => hbelow (he ▸ h.reach m hm)
  have hfrom : Relation.ReflTransGen up' m root :=
    h.reach_of_not_below (fun v hv hne p => (hup v hv hne p).2) hm hbelow
  refine ⟨h.root_mem, fun p hp => ?_, fun v hv p hp => ?_, fun v hv => ?_⟩
  · exact h.root_top p ((hup root h.root_mem hroot p).1 hp)
  · by_cases hvx : v = x
    · subst hvx
      obtain rfl : p = m := (hx p).1 hp
      exact hm
    · exact h.closed v hv p ((hup v hv hvx p).1 hp)
  · -- either the way up passes `x`, and goes on through `m`, or it is the old one
    have hreach := h.reach v hv
    induction hreach using Relation.ReflTransGen.head_induction_on with
    | refl => exact .refl
    | @head v w hstep _ ih =>
      by_cases hvx : v = x
      · subst hvx
        exact .head ((hx m).2 rfl) hfrom
      · exact .head ((hup v hv hvx w).2 hstep) (ih (h.closed v hv w hstep))

theorem graft (h : RootedTree V up root) (h' : RootedTree W up r) (hm : m ∈ V)
    (hr : ∀ p, up' r p ↔ p = m) (hV : ∀ v ∈ V, ∀ p, up' v p ↔ up v p)
    (hW : ∀ w ∈ W, w ≠ r → ∀ p, up' w p ↔ up w p) : RootedTree (V ∪ W) up' root := by
  have hold : RootedTree V up' root := h.congr hV
  refine ⟨.inl hold.root_mem, hold.root_top, fun v hv p hp => ?_, fun v hv => ?_⟩
  · rcases hv with hv | hv
    · exact .inl (hold.closed v hv p hp)
    · by_cases hvr : v = r
      · subst hvr
        obtain rfl : p = m := (hr p).1 hp
        exact .inl hm
      · exact .inr (h'.closed v hv p ((hW v hv hvr p).1 hp))
  · rcases hv with hv | hv
    · exact hold.reach v hv
    · have hreach := h'.reach v hv
      induction hreach using Relation.ReflTransGen.head_induction_on with
      | refl => exact .head ((hr m).2 rfl) (hold.reach m hm)
      | @head v w hstep _ ih =>
        by_cases hvr : v = r
        · subst hvr
          exact .head ((hr m).2 rfl) (hold.reach m hm)
        · exact .head ((hW v hv hvr w).2 hstep) (ih (h'.closed v hv w hstep))

theorem image {V : Set α} {up : α → α → Prop} {root : α} (h : RootedTree V up root) {f : α → β}
    {up' : β → β → Prop} (hup : ∀ v ∈ V, ∀ q, up' (f v) q ↔ ∃ p, up v p ∧ f p = q) :
    RootedTree (f '' V) up' (f root) := by
  refine ⟨⟨root, h.root_mem, rfl⟩, fun q hq => ?_, ?_, ?_⟩
  · obtain ⟨p, hp, -⟩ := (hup root h.root_mem q).1 hq
    exact h.root_top p hp
  · rintro - ⟨v, hv, rfl⟩ q hq
    obtain ⟨p, hp, rfl⟩ := (hup v hv q).1 hq
    exact ⟨p, h.closed v hv p hp, rfl⟩
  · rintro - ⟨v, hv, rfl⟩
    have hreach := h.reach v hv
    induction hreach using Relation.ReflTransGen.head_induction_on with
    | refl => exact .refl
    | @head v w hstep _ ih =>
      exact .head ((hup v hv (f w)).2 ⟨w, hstep, rfl⟩) (ih (h.closed v hv w hstep))

end RootedTree

end ChronoSynth

import ChronoSynth.Lib.Run
import ChronoSynth.Workforce.ChartBootstrap
import ChronoSynth.Workforce.ChartMerge

/-!
# Charts over runs

Any commands one after the other. Two of them can break the chart: `bootstrap` of an organisation that has
workers gives it a second root, or throws with a part of the new workers written; and `absorb` mounts the
wrong worker of the source where one without a solid edge is listed before its root. In every other run
the chart stays a tree, and a command that throws leaves it as it was (`chart_always_iff`).
-/

namespace ChronoSynth.Workforce

open Service

variable {s s' : Store} {e : Env} {orgId : OrgId} {v p : Id}

/-- The commands are executed one after the other. -/
def Store.step (s : Store) (x : Env × Cmd) : Store := (exec x.1 x.2 s).1

/-- When a command keeps the chart a tree. -/
def ChartKeeps (s : Store) : Cmd → Prop
  | .bootstrap orgId specs => BootstrapKeeps s orgId specs
  | .absorb input => Absorbable s input → s.SolidAhead input.sourceOrgId
  | _ => True

theorem Restored.map {α β : Type} {f : α → β} {r : Except WorkforceError α} :
    Restored s (f <$> r) s' ↔ Restored s r s' := by
  unfold Restored
  cases r <;> simp [Functor.map, Except.map]

/-- The root of an organisation has no manager in the eyes of `findRoot` either. -/
theorem Charted.findRoot_ne_none (h : Charted s) (hne : (s.Members orgId).Nonempty) :
    s.findRoot orgId ≠ none := by
  obtain ⟨root, htree⟩ := h.tree orgId hne
  obtain ⟨w, hw, ho, rfl⟩ := htree.root_mem
  have hnone : s.getManagerOf orgId w.id = none := by
    by_contra hsome
    obtain ⟨p, hp⟩ := Store.managed_iff.1 (Store.managed_of_getManagerOf hsome)
    exact htree.root_top p hp
  intro hfind
  rw [Store.findRoot, Option.map_eq_none_iff, List.find?_eq_none] at hfind
  exact hfind w (Store.mem_listWorkers.2 ⟨hw, ho⟩) (by simpa using hnone)

theorem findRoot_member (h : s.findRoot orgId = some v) : v ∈ s.Members orgId := by
  obtain ⟨w, hw, rfl⟩ := Option.map_eq_some_iff.1 h
  obtain ⟨hmem, ho⟩ := Store.mem_listWorkers.1 (List.mem_of_find?_eq_some hw)
  exact ⟨w, hmem, ho, rfl⟩

/-- **`absorb`** keeps the chart exactly where it is refused or mounts the root of the source. -/
theorem Charted.absorb (h : Charted s) {input : AbsorbInput} :
    Ensures (absorb e input) s fun r s' =>
      ((Absorbable s input → s.SolidAhead input.sourceOrgId) → Charted s' ∧ Restored s r s') ∧
      (AllTrees s' → Restored s r s' → Absorbable s input → s.SolidAhead input.sourceOrgId) := by
  refine (absorb_ensures h.toRoster h.toPositions).mono fun r s' hr => ?_
  cases r with
  | ok res =>
    obtain ⟨ha, hfind, rfl⟩ := hr
    have hroot := findRoot_member hfind
    refine ⟨fun hk => ⟨h.absorbed ha hroot ((findRoot_top_iff hfind).2 (hk ha)), ?_⟩, fun htrees _ _ => ?_⟩
    · rintro ⟨err, he⟩
      cases he
    · rw [← findRoot_top_iff hfind]
      intro p hp
      refine h.not_orgTree_absorbed ha hroot hp (htrees _ ⟨input.mountUnderWorkerId, ?_⟩)
      exact Store.members_absorbed.2 ⟨_, if_neg ha.distinct, ha.mount_member⟩
  | error err =>
    obtain ⟨rfl, hnot⟩ := hr
    exact ⟨fun _ => ⟨h, fun _ => rfl⟩,
      fun _ _ ha => absurd ⟨ha, h.findRoot_ne_none ha.source⟩ hnot⟩

theorem Charted.of_ensures {α : Type} {p : Service α} {C : Prop} (hC : C)
    (h : Ensures p s fun r s' => match r with
      | .ok _ => Charted s'
      | .error _ => s' = s) (hs : Charted s) :
    Ensures p s fun r s' => (C → Charted s' ∧ Restored s r s') ∧ (AllTrees s' → Restored s r s' → C) := by
  refine h.mono fun r s' hr => ⟨fun _ => ?_, fun _ _ => hC⟩
  cases r with
  | ok _ => exact ⟨hr, fun ⟨err, he⟩ => by cases he⟩
  | error _ =>
    obtain rfl := hr
    exact ⟨hs, fun _ => rfl⟩

theorem Charted.map {α : Type} {p : Service α} {f : α → Answer} {C : Prop}
    (h : Ensures p s fun r s' => (C → Charted s' ∧ Restored s r s') ∧ (AllTrees s' → Restored s r s' → C)) :
    Ensures (f <$> p) s fun r s' =>
      (C → Charted s' ∧ Restored s r s') ∧ (AllTrees s' → Restored s r s' → C) := by
  refine ensures_map.2 (h.mono fun r s' hr => ?_)
  rw [← Restored.map (f := f)] at hr
  cases r <;> exact hr

/-- **Step lemma.** A command keeps the chart exactly where it may. -/
theorem Charted.exec (h : Charted s) (cmd : Cmd) :
    (ChartKeeps s cmd → Charted (Workforce.exec e cmd s).1 ∧
      Restored s (Workforce.exec e cmd s).2 (Workforce.exec e cmd s).1) ∧
    (AllTrees (Workforce.exec e cmd s).1 →
      Restored s (Workforce.exec e cmd s).2 (Workforce.exec e cmd s).1 → ChartKeeps s cmd) := by
  have hframe : SameOff cmd.tables s (Workforce.exec e cmd s).1 := exec_sameOff cmd s
  have hother : Tbl.positions ∉ cmd.tables → Tbl.workers ∉ cmd.tables → Tbl.edges ∉ cmd.tables →
      Charted (Workforce.exec e cmd s).1 ∧
        Restored s (Workforce.exec e cmd s).2 (Workforce.exec e cmd s).1 := by
    intro hp hw he
    have hp := hframe.same .positions hp
    have hw := hframe.same .workers hw
    have he := hframe.same .edges he
    exact ⟨h.of_eq hframe.drawn hp hw he, fun _ => Prod.ext hp (Prod.ext hw he)⟩
  unfold Workforce.exec
  rw [← ensures_iff_runService (p := cmd.service e) (Q := fun r s' =>
    (ChartKeeps s cmd → Charted s' ∧ Restored s r s') ∧ (AllTrees s' → Restored s r s' → ChartKeeps s cmd))]
  cases cmd with
  | bootstrap => exact Charted.map h.bootstrap
  | absorb => exact Charted.map h.absorb
  | hireWorker => exact Charted.map (Charted.of_ensures trivial h.hireWorker h)
  | reparent => exact Charted.map (Charted.of_ensures trivial h.reparent h)
  | offboard => exact Charted.map (Charted.of_ensures trivial h.offboard h)
  | _ =>
    rw [ensures_iff_runService]
    refine ⟨fun _ => hother ?_ ?_ ?_, fun _ _ => trivial⟩ <;> simp [Cmd.tables, settledTables]

/-- **The chart stays a tree**, and a command that throws leaves it as it was, exactly in the runs in which
`bootstrap` is asked for a new organisation or refused at once, and `absorb` for one whose root is found. -/
theorem chart_always_iff (es : List (Env × Cmd)) :
    (Always Store.step AllTrees .empty es ∧
      Along Store.step (fun s x => Restored s (Workforce.exec x.1 x.2 s).2 (s.step x)) .empty es) ↔
    Along Store.step (fun s x => ChartKeeps s x.2) .empty es :=
  always_and_along_iff (I := Charted) .empty (fun _ h => h.allTrees)
    (fun _ x h => (h.exec x.2).1) fun _ x h => (h.exec x.2).2

theorem not_allTrees_of_roots (h : ∃ a ∈ s.workers, ∃ b ∈ s.workers, a.orgId = b.orgId ∧ a.id ≠ b.id ∧
    ¬ s.Managed a.orgId a.id ∧ ¬ s.Managed a.orgId b.id) : ¬ AllTrees s := by
  obtain ⟨a, ha, b, hb, ho, hne, ham, hbm⟩ := h
  intro htrees
  have hmember : a.id ∈ s.Members a.orgId := ⟨a, ha, rfl, rfl⟩
  exact hne <| (htrees a.orgId ⟨a.id, hmember⟩).one_root.unique
    ⟨hmember, fun p hp => ham (Store.managed_iff.2 ⟨p, hp⟩)⟩
    ⟨⟨b, hb, ho.symm, rfl⟩, fun p hp => hbm (Store.managed_iff.2 ⟨p, hp⟩)⟩

/-- An aide with a dotted edge, listed before the head, is taken for the root when his organisation is
absorbed: the head stays without a manager. -/
theorem dotted_aide_absorbed :
    let e : Env := ⟨0, id, fun _ => [], [], .error ""⟩
    ¬ Always Store.step AllTrees .empty [
      (e, .bootstrap "A" [⟨"ceo", "p", none, none⟩]),
      (e, .bootstrap "B" [⟨"aide", "q", some "head", some .dotted⟩, ⟨"head", "r", none, none⟩]),
      (e, .absorb ⟨"A", "B", 1⟩)] := fun h =>
  not_allTrees_of_roots (by decide +kernel) h.last

end ChronoSynth.Workforce

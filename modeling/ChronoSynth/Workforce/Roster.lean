import Mathlib.Algebra.Order.BigOperators.Group.List
import ChronoSynth.Lib.RootedTree
import ChronoSynth.Workforce.OrgChartService
import ChronoSynth.Workforce.OrgRestructureService

/-!
# Workers, positions and reporting edges

What holds of the chart tables whatever the services are asked to do (`Roster`): identifiers are used
once, a role code occurs once in an organisation, a worker has at most one edge, and an edge joins workers
of one organisation.
-/

namespace ChronoSynth.Workforce

open Service

namespace Store

variable {s s' : Store} {e : Env} {orgId : OrgId} {workerId m v : Id}

/-! ## Reading the tables -/

theorem fresh_not_mem : s.fresh e ∉ s.drawn := by
  rw [fresh]
  split
  next => exact fun hmem => absurd (List.single_le_sum (fun _ _ => Nat.zero_le _) _ hmem) (by omega)
  next hne => exact hne

theorem mem_byAge {α : Type} {createdAt : α → Time} {id : α → Id} {rows : List α} {a : α} :
    a ∈ byAge createdAt id rows ↔ a ∈ rows := List.mem_insertionSort _

@[simp] theorem mem_listWorkers {w : DigitalWorker} :
    w ∈ s.listWorkers orgId ↔ w ∈ s.workers ∧ w.orgId = orgId := by
  simp [listWorkers, mem_byAge]

@[simp] theorem mem_listPositions {p : OrgPosition} :
    p ∈ s.listPositions orgId ↔ p ∈ s.positions ∧ p.orgId = orgId := by
  simp [listPositions, mem_byAge]

theorem mem_of_getWorker {w : DigitalWorker} (h : s.getWorker orgId workerId = some w) :
    w ∈ s.workers ∧ w.orgId = orgId ∧ w.id = workerId :=
  Table.find_spec h

/-- A worker of the organisation. -/
def Members (s : Store) (orgId : OrgId) : Set Id := {i | ∃ w ∈ s.workers, w.orgId = orgId ∧ w.id = i}

/-- A worker and a manager of his, along an edge of any type. -/
def ReportsTo (s : Store) (orgId : OrgId) (v p : Id) : Prop :=
  ∃ edge ∈ s.edges, edge.orgId = orgId ∧ edge.reportWorkerId = v ∧ edge.managerWorkerId = some p

theorem getWorker_ne_none_iff :
    s.getWorker orgId workerId ≠ none ↔ workerId ∈ s.Members orgId := by
  rw [getWorker, Ne, List.find?_eq_none]
  simp [Members]

theorem listWorkers_ne_nil_iff : s.listWorkers orgId ≠ [] ↔ (s.Members orgId).Nonempty := by
  constructor
  · intro hne
    obtain ⟨w, hw⟩ := List.exists_mem_of_ne_nil _ hne
    exact ⟨w.id, w, (mem_listWorkers.1 hw).1, (mem_listWorkers.1 hw).2, rfl⟩
  · rintro ⟨i, w, hw, horg, -⟩
    exact List.ne_nil_of_mem (mem_listWorkers.2 ⟨hw, horg⟩)

@[simp] theorem mem_listDirectReports :
    v ∈ s.listDirectReports orgId m ↔ s.ReportsTo orgId v m := by
  simp only [listDirectReports, List.mem_insertionSort, List.mem_map, List.mem_filter,
    decide_eq_true_eq, ReportsTo]
  exact ⟨fun ⟨edge, ⟨he, ho, hm⟩, hv⟩ => ⟨edge, he, ho, hv, hm⟩,
    fun ⟨edge, he, ho, hv, hm⟩ => ⟨edge, ⟨he, ho, hm⟩, hv⟩⟩

/-- The search that keeps `reparent` from making cycles finds everyone who is above by the edges. -/
theorem not_below_of_isInSubtree
    (hreport : ∀ v p, s.ReportsTo orgId v p → v ∈ s.Members orgId)
    (hworker : workerId ∈ s.Members orgId) (h : s.isInSubtree orgId workerId m = false) :
    ¬ Relation.ReflTransGen (s.ReportsTo orgId) m workerId := by
  simp only [isInSubtree, decide_eq_false_iff_not, not_or, Bool.not_eq_true] at h
  obtain ⟨hne, hsearch⟩ := h
  intro hreach
  rcases Relation.reflTransGen_iff_eq_or_transGen.1 hreach with heq | htrans
  · exact hne heq
  · have hmem : ∀ i, i ∈ (s.listWorkers orgId).map (·.id) ↔ i ∈ s.Members orgId := by
      simp [Members, and_assoc]
    have hfound : search (s.listDirectReports orgId) m ((s.listWorkers orgId).length + 1)
        [workerId] [workerId] = true := by
      refine search_complete (U := (s.listWorkers orgId).map (·.id)) (fun v _ w hw => ?_)
        ((hmem _).2 hworker) (by simp) ?_
      · exact (hmem w).2 (hreport w v (mem_listDirectReports.1 hw))
      · simp only [mem_listDirectReports]
        exact (Relation.transGen_swap (r := s.ReportsTo orgId)).2 htrans
    rw [hsearch] at hfound
    cases hfound

end Store

/-! ## The roster -/

/-- What holds of the chart tables in every state. -/
structure Roster (s : Store) : Prop where
  /-- A worker's number has been drawn. -/
  drawn : ∀ w ∈ s.workers, w.id ∈ s.drawn
  /-- A worker is one row. -/
  workers_nodup : (s.workers.map (·.id)).Nodup
  /-- A role code occurs once in an organisation. -/
  roles_nodup : (s.positions.map fun p => (p.orgId, p.roleCode)).Nodup
  /-- A worker has at most one edge. -/
  edges_nodup : (s.edges.map (·.reportWorkerId)).Nodup
  report_member : ∀ edge ∈ s.edges, edge.reportWorkerId ∈ s.Members edge.orgId
  /-- A manager is in the organisation of the one who reports to him. -/
  manager_member : ∀ edge ∈ s.edges, ∀ p ∈ edge.managerWorkerId, p ∈ s.Members edge.orgId

/-- A position is one row. -/
structure Positions (s : Store) : Prop where
  positions_drawn : ∀ p ∈ s.positions, p.id ∈ s.drawn
  positions_nodup : (s.positions.map (·.id)).Nodup

namespace Roster

variable {s s' : Store} {orgId orgId' : OrgId} {workerId v p : Id}

theorem empty : Roster .empty := by
  constructor <;> simp [Store.empty]

theorem of_eq (h : Roster s) (hdrawn : s.drawn ⊆ s'.drawn) (hpositions : s'.positions = s.positions)
    (hworkers : s'.workers = s.workers) (hedges : s'.edges = s.edges) : Roster s' := by
  have hmembers : s'.Members = s.Members := by
    funext org
    simp [Store.Members, hworkers]
  constructor
  · rw [hworkers]
    exact fun w hw => hdrawn (h.drawn w hw)
  · rw [hworkers]
    exact h.workers_nodup
  · rw [hpositions]
    exact h.roles_nodup
  · rw [hedges]
    exact h.edges_nodup
  · rw [hedges, hmembers]
    exact h.report_member
  · rw [hedges, hmembers]
    exact h.manager_member

theorem worker_eq (h : Roster s) {w w' : DigitalWorker} (hw : w ∈ s.workers) (hw' : w' ∈ s.workers)
    (hid : w.id = w'.id) : w = w' :=
  List.inj_on_of_nodup_map h.workers_nodup hw hw' hid

/-- A worker is in one organisation. -/
theorem member_org (h : Roster s) (hv : v ∈ s.Members orgId) (hv' : v ∈ s.Members orgId') :
    orgId = orgId' := by
  obtain ⟨w, hw, rfl, hid⟩ := hv
  obtain ⟨w', hw', rfl, hid'⟩ := hv'
  rw [h.worker_eq hw hw' (hid.trans hid'.symm)]

theorem edge_eq (h : Roster s) {a b : ReportingEdge} (ha : a ∈ s.edges) (hb : b ∈ s.edges)
    (hab : a.reportWorkerId = b.reportWorkerId) : a = b :=
  List.inj_on_of_nodup_map h.edges_nodup ha hb hab

theorem member_of_reportsTo (h : Roster s) (hv : s.ReportsTo orgId v p) : v ∈ s.Members orgId := by
  obtain ⟨edge, hedge, rfl, rfl, -⟩ := hv
  exact h.report_member edge hedge

end Roster

end ChronoSynth.Workforce

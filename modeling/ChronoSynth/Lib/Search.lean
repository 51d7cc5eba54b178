import Mathlib.Data.List.Dedup
import Mathlib.Data.List.Nodup
import Mathlib.Logic.Relation

/-!
# Breadth-first search with a bound

`search succ target bound queue seen` takes the nodes of `queue` one after the other, stops at one that
has `target` among its successors, and queues the successors it has not seen. It gives up after `bound`
nodes. On a finite set of nodes that the successors do not leave, a bound above its size is never the
reason to stop (`search_complete`).
-/

namespace ChronoSynth

variable {α : Type*} [DecidableEq α] (succ : α → List α) (target : α)

/-- The search; `true` says that the target was found. -/
def search : ℕ → List α → List α → Bool
  | 0, _, _ => false
  | _ + 1, [], _ => false
  | bound + 1, cur :: queue, seen =>
    if target ∈ succ cur then true
    else
      let fresh := ((succ cur).filter fun child => child ∉ seen).dedup
      search bound (queue ++ fresh) (seen ++ fresh)

variable {succ target}

/-- A search that fails in time has seen everything below the nodes it has seen; `done` are those it
has been through. -/
theorem search_closed {U : List α} (hU : ∀ v ∈ U, ∀ w ∈ succ v, w ∈ U) (bound : ℕ)
    {queue : List α} (done : List α) {seen : List α} (hfail : search succ target bound queue seen = false)
    (hperm : seen.Perm (done ++ queue)) (hnodup : seen.Nodup) (hsub : ∀ v ∈ seen, v ∈ U)
    (hdone : ∀ v ∈ done, target ∉ succ v ∧ ∀ w ∈ succ v, w ∈ seen)
    (hbound : U.length < done.length + bound) :
    ∃ all : List α, (∀ v ∈ seen, v ∈ all) ∧ ∀ v ∈ all, target ∉ succ v ∧ ∀ w ∈ succ v, w ∈ all := by
  induction bound generalizing queue done seen with
  | zero =>
    -- more nodes would have been gone through than there are
    have hle : seen.length ≤ U.length := hnodup.length_le_of_subset fun v hv => hsub v hv
    have hlen : seen.length = done.length + queue.length := by simpa using hperm.length_eq
    omega
  | succ bound ih =>
    cases queue with
    | nil =>
      refine ⟨seen, fun v hv => hv, fun v hv => hdone v ?_⟩
      simpa using hperm.mem_iff.1 hv
    | cons cur queue =>
      rw [search] at hfail
      split at hfail
      next => cases hfail
      next hcur =>
        set fresh := ((succ cur).filter fun child => child ∉ seen).dedup with hfresh
        have hmem : ∀ w, w ∈ fresh ↔ w ∈ succ cur ∧ w ∉ seen := by simp [hfresh]
        have hcurSeen : cur ∈ seen := hperm.mem_iff.2 (by simp)
        obtain ⟨all, hall, hclosed⟩ := ih (done ++ [cur]) hfail
          (by
            have h := hperm.append_right fresh
            simpa using h)
          (List.Nodup.append hnodup (List.nodup_dedup _) fun v hv hv' => ((hmem v).1 hv').2 hv)
          (fun v hv => by
            rcases List.mem_append.1 hv with hv | hv
            · exact hsub v hv
            · exact hU cur (hsub cur hcurSeen) v ((hmem v).1 hv).1)
          (fun v hv => by
            rcases List.mem_append.1 hv with hv | hv
            · exact ⟨(hdone v hv).1, fun w hw => List.mem_append_left _ ((hdone v hv).2 w hw)⟩
            · obtain rfl := List.mem_singleton.1 hv
              refine ⟨hcur, fun w hw => ?_⟩
              by_cases hws : w ∈ seen
              · exact List.mem_append_left _ hws
              · exact List.mem_append_right _ ((hmem w).2 ⟨hw, hws⟩))
          (by
            rw [List.length_append, List.length_singleton]
            omega)
        exact ⟨all, fun v hv => hall v (List.mem_append_left _ hv), hclosed⟩

/-- **Completeness.** A target that can be reached from `start` in at least one step is found. -/
theorem search_complete {U : List α} (hU : ∀ v ∈ U, ∀ w ∈ succ v, w ∈ U) {start : α}
    (hstart : start ∈ U) {bound : ℕ} (hbound : U.length < bound)
    (hreach : Relation.TransGen (fun v w => w ∈ succ v) start target) :
    search succ target bound [start] [start] = true := by
  by_contra hfail
  rw [Bool.not_eq_true] at hfail
  obtain ⟨all, hall, hclosed⟩ := search_closed hU bound [] hfail (List.Perm.refl _)
    (List.nodup_singleton start) (by simpa using hstart) (by simp) (by simpa using hbound)
  obtain ⟨last, hlast, hstep⟩ := Relation.TransGen.tail'_iff.1 hreach
  have hin : last ∈ all := by
    clear hstep
    induction hlast with
    | refl => exact hall start (by simp)
    | tail _ hstep ih => exact (hclosed _ ih).2 _ hstep
  exact (hclosed last hin).1 hstep

end ChronoSynth

import ChronoSynth.Lib.Grouping
import ChronoSynth.Lib.JsText
import Mathlib.Data.List.Dedup
import Mathlib.Data.List.Perm.Basic

/-!
# Conflict resolution between devices

Translation of `edge/sync/conflict.ts`. Changes of several devices are grouped by their target, and each group is
decided by the most delicate class in it: an identity change is held for approval, projections are rebuilt, facts
are merged.

`settles_iff` says for which changes the outcome depends on nothing but the changes themselves and loses no fact.
-/

namespace ChronoSynth.Edge

inductive ChangeClass
  | fact
  | projection
  | identity
  deriving DecidableEq, Repr

/-- A change to be decided. -/
structure ChangeRef where
  deviceId : String
  seq : ℕ
  changeClass : ChangeClass
  opKind : String
  targetId : String
  deriving DecidableEq, Repr

inductive Resolution
  | merge (entries : List ChangeRef)
  | rebuild (targetId : String)
  | pending (conflict : List ChangeRef)
  deriving DecidableEq, Repr

inductive ConflictError
  | severalTargets (n : ℕ)
  deriving DecidableEq, Repr

def ConflictError.message : ConflictError → String
  | .severalTargets n => s!"resolveConflict 要求单一 targetId（收到 {n} 个）；跨目标请用 resolveConflictsByTarget"

def ChangeRef.key (c : ChangeRef) : String := c.deviceId ++ ":" ++ toString c.seq

def dedupe (changes : List ChangeRef) : List ChangeRef := dedupeBy ChangeRef.key changes

/-- The source counts the sources of the identity changes, and does the same whatever their number. -/
def resolveConflict : List ChangeRef → Except ConflictError Resolution
  | [] => .ok (.merge [])
  | first :: rest =>
    let changes := first :: rest
    let targets := (changes.map ChangeRef.targetId).dedup
    if 1 < targets.length then .error (.severalTargets targets.length)
    else if changes.any fun c => c.changeClass = .identity then
      .ok (.pending (changes.filter fun c => c.changeClass = .identity))
    else if changes.all fun c => c.changeClass = .projection then .ok (.rebuild first.targetId)
    else .ok (.merge (dedupe (changes.filter fun c => c.changeClass = .fact)))

def resolveConflictsByTarget (changes : List ChangeRef) : Except ConflictError (List (String × Resolution)) :=
  (groupBy ChangeRef.targetId changes).mapM fun x => do return (x.1, ← resolveConflict x.2)

/-! ## Keys -/

theorem append_colon_number_inj {a a' : String} {n n' : ℕ} :
    a ++ ":" ++ toString n = a' ++ ":" ++ toString n' ↔ a = a' ∧ n = n' := by
  have hlist : ∀ (a : String) (n : ℕ), (a ++ ":" ++ toString n).toList.reverse =
      (toString n).toList.reverse ++ ':' :: a.toList.reverse := by
    intro a n
    simp
  have hcolon : ∀ n : ℕ, ':' ∉ (toString n).toList.reverse := fun n h =>
    notMem_repr (by decide) n (List.mem_reverse.1 h)
  rw [← String.toList_inj, ← List.reverse_inj, hlist, hlist, append_cons_inj (hcolon n) (hcolon n'),
    List.reverse_inj, List.reverse_inj, String.toList_inj, String.toList_inj, and_comm]
  exact and_congr_right fun _ => ⟨fun h => toString_nat_injective h, fun h => h ▸ rfl⟩

theorem ChangeRef.key_inj {c c' : ChangeRef} : c.key = c'.key ↔ c.deviceId = c'.deviceId ∧ c.seq = c'.seq :=
  append_colon_number_inj

/-! ## Decisions -/

/-- Changes of any devices, in which a device's number tells the change. -/
structure Changes where
  refs : List ChangeRef
  identified : ∀ c ∈ refs, ∀ c' ∈ refs, c.deviceId = c'.deviceId → c.seq = c'.seq → c = c'

/-- What is decided about the changes of one target. -/
def decision (targetId : String) (group : List ChangeRef) : Resolution :=
  if ∃ c ∈ group, c.changeClass = .identity then .pending (group.filter fun c => c.changeClass = .identity)
  else if ∀ c ∈ group, c.changeClass = .projection then .rebuild targetId
  else .merge (dedupe (group.filter fun c => c.changeClass = .fact))

def ofTarget (changes : List ChangeRef) (targetId : String) : List ChangeRef :=
  changes.filter fun c => c.targetId = targetId

variable {refs refs' group : List ChangeRef} {targetId : String} {c : ChangeRef}

theorem mem_ofTarget : c ∈ ofTarget refs targetId ↔ c ∈ refs ∧ c.targetId = targetId := by
  simp [ofTarget]

theorem resolveConflict_eq (hne : group ≠ []) (htarget : ∀ c ∈ group, c.targetId = targetId) :
    resolveConflict group = .ok (decision targetId group) := by
  cases group with
  | nil => exact absurd rfl hne
  | cons first rest =>
    have hone : ((first :: rest).map ChangeRef.targetId).dedup.length ≤ 1 := by
      have hsub : ((first :: rest).map ChangeRef.targetId).dedup ⊆ [targetId] := by
        intro t ht
        obtain ⟨c, hc, rfl⟩ := List.mem_map.1 (List.mem_dedup.1 ht)
        exact List.mem_singleton.2 (htarget c hc)
      exact (List.subperm_of_subset (List.nodup_dedup _) hsub).length_le
    have hfirst : first.targetId = targetId := htarget first List.mem_cons_self
    simp only [resolveConflict, if_neg (not_lt.2 hone), decision, List.any_eq_true, List.all_eq_true,
      decide_eq_true_eq, hfirst]
    split_ifs <;> rfl

/-- **The outcome** has one decision for every target. -/
theorem resolveConflictsByTarget_eq : resolveConflictsByTarget refs =
    .ok ((groupBy ChangeRef.targetId refs).map fun x => (x.1, decision x.1 x.2)) := by
  rw [resolveConflictsByTarget]
  refine mapM_ok fun x hx => ?_
  obtain ⟨hkey, hgroup⟩ := mem_groupBy.1 (show (x.1, x.2) ∈ _ from hx)
  have hmem : ∀ c ∈ x.2, c.targetId = x.1 := by
    rw [hgroup]
    exact fun c hc => (mem_ofTarget.1 hc).2
  have hne : x.2 ≠ [] := by
    obtain ⟨c, hc, ht⟩ := List.mem_map.1 hkey
    rw [hgroup]
    exact List.ne_nil_of_mem (mem_ofTarget.2 ⟨hc, ht⟩)
  rw [resolveConflict_eq hne hmem]
  rfl

/-! ## What is to hold of an outcome -/

/-- The changes in a decision. -/
def Resolution.changes : Resolution → List ChangeRef
  | .merge entries => entries
  | .rebuild _ => []
  | .pending conflict => conflict

def Resolution.merged : Resolution → List ChangeRef
  | .merge entries => entries
  | .rebuild _ | .pending _ => []

/-- Two decisions that differ in the order of their changes at most, or in how often an approval lists one. -/
def Resolution.Same : Resolution → Resolution → Prop
  | .merge entries, .merge entries' => entries.Perm entries'
  | .rebuild targetId, .rebuild targetId' => targetId = targetId'
  | .pending conflict, .pending conflict' => ∀ c, c ∈ conflict ↔ c ∈ conflict'
  | _, _ => False

/-- Every decision of the first outcome is made in the second. -/
def Within (out out' : List (String × Resolution)) : Prop :=
  ∀ x ∈ out, ∃ y ∈ out', x.1 = y.1 ∧ x.2.Same y.2

/-- The outcome is decided by the changes alone, merges no identity change, loses no fact and joins no targets. -/
structure Settles (changes : List ChangeRef) (out : List (String × Resolution)) : Prop where
  decided : resolveConflictsByTarget changes = .ok out
  /-- It is the same in whatever order the changes come, and how often. -/
  same : ∀ changes' out', (∀ c, c ∈ changes' ↔ c ∈ changes) → resolveConflictsByTarget changes' = .ok out' →
    Within out out' ∧ Within out' out
  identity : ∀ x ∈ out, ∀ c ∈ x.2.merged, c.changeClass ≠ .identity
  fact : ∀ c ∈ changes, c.changeClass = .fact →
    (out.flatMap fun x => x.2.merged).count c = 1 ∨ ∃ conflict, (c.targetId, .pending conflict) ∈ out ∧ c ∈ conflict
  targets : ∀ x ∈ out, ∀ c ∈ x.2.changes, c.targetId = x.1

/-- What is decided about all targets. -/
def outcome (changes : List ChangeRef) : List (String × Resolution) :=
  (groupBy ChangeRef.targetId changes).map fun x => (x.1, decision x.1 x.2)

theorem mem_outcome {x : String × Resolution} : x ∈ outcome refs ↔
    (∃ c ∈ refs, c.targetId = x.1) ∧ x.2 = decision x.1 (ofTarget refs x.1) := by
  constructor
  · intro h
    obtain ⟨⟨t, g⟩, hg, rfl⟩ := List.mem_map.1 h
    obtain ⟨hkey, rfl⟩ := mem_groupBy.1 hg
    exact ⟨List.mem_map.1 hkey, rfl⟩
  · rintro ⟨hkey, hx⟩
    exact List.mem_map.2 ⟨(x.1, ofTarget refs x.1), mem_groupBy.2 ⟨List.mem_map.2 hkey, rfl⟩, Prod.ext rfl hx.symm⟩

/-! ## Order and repetition -/

theorem mem_changes_decision (h : c ∈ (decision targetId group).changes) : c ∈ group := by
  unfold decision at h
  split_ifs at h
  · exact (List.mem_filter.1 h).1
  · exact (List.not_mem_nil h).elim
  · exact (List.mem_filter.1 (dedupeFrom_sublist.subset h)).1

theorem class_of_merged (h : c ∈ (decision targetId group).merged) : c.changeClass = .fact := by
  unfold decision at h
  split_ifs at h
  · exact (List.not_mem_nil h).elim
  · exact (List.not_mem_nil h).elim
  · exact of_decide_eq_true (List.mem_filter.1 (dedupeFrom_sublist.subset h)).2

theorem nodup_dedupe : (dedupe refs).Nodup := nodup_dedupeBy.of_map

section
variable (hid : ∀ c ∈ refs, ∀ c' ∈ refs, c.deviceId = c'.deviceId → c.seq = c'.seq → c = c')
include hid

theorem mem_dedupe (hsub : group ⊆ refs) : c ∈ dedupe group ↔ c ∈ group := by
  refine mem_dedupeBy fun a ha b hb hkey => ?_
  obtain ⟨hd, hs⟩ := ChangeRef.key_inj.1 hkey
  exact hid a (hsub ha) b (hsub hb) hd hs

theorem decision_same {group' : List ChangeRef} (hsub : group ⊆ refs) (h : ∀ c, c ∈ group ↔ c ∈ group') :
    (decision targetId group).Same (decision targetId group') := by
  have hsub' : group' ⊆ refs := fun c hc => hsub ((h c).2 hc)
  have hidentity : (∃ c ∈ group, c.changeClass = .identity) ↔ ∃ c ∈ group', c.changeClass = .identity := by
    simp only [h]
  have hprojection : (∀ c ∈ group, c.changeClass = .projection) ↔ ∀ c ∈ group', c.changeClass = .projection := by
    simp only [h]
  unfold decision
  rw [if_congr hidentity rfl rfl, if_congr hprojection rfl rfl]
  split_ifs
  · exact fun c => by simp [h]
  · exact rfl
  · refine (List.perm_ext_iff_of_nodup nodup_dedupe nodup_dedupe).2 fun c => ?_
    rw [mem_dedupe hid (fun a ha => hsub (List.mem_filter.1 ha).1),
      mem_dedupe hid (fun a ha => hsub' (List.mem_filter.1 ha).1), List.mem_filter, List.mem_filter, h]

theorem outcome_within (h : ∀ c, c ∈ refs' ↔ c ∈ refs) :
    Within (outcome refs) (outcome refs') ∧ Within (outcome refs') (outcome refs) := by
  have hof : ∀ t c, c ∈ ofTarget refs t ↔ c ∈ ofTarget refs' t := fun t c => by
    rw [mem_ofTarget, mem_ofTarget, h]
  constructor
  · intro x hx
    obtain ⟨⟨c, hc, ht⟩, hd⟩ := mem_outcome.1 hx
    refine ⟨(x.1, decision x.1 (ofTarget refs' x.1)), mem_outcome.2 ⟨⟨c, (h c).2 hc, ht⟩, rfl⟩, rfl, ?_⟩
    rw [hd]
    exact decision_same hid (fun a ha => (mem_ofTarget.1 ha).1) (hof x.1)
  · intro x hx
    obtain ⟨⟨c, hc, ht⟩, hd⟩ := mem_outcome.1 hx
    refine ⟨(x.1, decision x.1 (ofTarget refs x.1)), mem_outcome.2 ⟨⟨c, (h c).1 hc, ht⟩, rfl⟩, rfl, ?_⟩
    rw [hd]
    exact decision_same hid (fun a ha => (h a).1 (mem_ofTarget.1 ha).1) fun c => (hof x.1 c).symm

theorem mem_merged_decision (hc : c ∈ refs) (hfact : c.changeClass = .fact)
    (hnone : ∀ c' ∈ refs, c'.targetId = c.targetId → c'.changeClass ≠ .identity) :
    c ∈ (decision c.targetId (ofTarget refs c.targetId)).merged := by
  have hmem : c ∈ ofTarget refs c.targetId := mem_ofTarget.2 ⟨hc, rfl⟩
  unfold decision
  rw [if_neg, if_neg]
  · exact (mem_dedupe hid fun a ha => (mem_ofTarget.1 (List.mem_filter.1 ha).1).1).2
      (List.mem_filter.2 ⟨hmem, by simp [hfact]⟩)
  · intro hall
    have hproj := hall c hmem
    rw [hfact] at hproj
    cases hproj
  · rintro ⟨c', hc', hi⟩
    obtain ⟨hin, ht⟩ := mem_ofTarget.1 hc'
    exact hnone c' hin ht hi

end

/-! ## Conservation -/

theorem target_of_mem_outcome {x : String × Resolution} (hx : x ∈ outcome refs) (hc : c ∈ x.2.changes) :
    c.targetId = x.1 := by
  rw [(mem_outcome.1 hx).2] at hc
  exact (mem_ofTarget.1 (mem_changes_decision hc)).2

theorem merged_subset {r : Resolution} (h : c ∈ r.merged) : c ∈ r.changes := by
  cases r with
  | merge entries => exact h
  | rebuild targetId | pending conflict => exact (List.not_mem_nil h).elim

theorem nodup_merged : ((outcome refs).flatMap fun x => x.2.merged).Nodup := by
  have hkeys : ((outcome refs).map Prod.fst).Nodup := by
    rw [outcome, List.map_map]
    exact nodup_groupBy
  refine List.nodup_flatMap.2 ⟨fun x hx => ?_, ?_⟩
  · rw [(mem_outcome.1 hx).2]
    unfold decision
    split_ifs
    · exact List.nodup_nil
    · exact List.nodup_nil
    · exact nodup_dedupe
  · refine (List.pairwise_map.1 hkeys).imp_of_mem fun {x y} hx hy hne => ?_
    intro c hcx hcy
    exact hne ((target_of_mem_outcome hx (merged_subset hcx)).symm.trans
      (target_of_mem_outcome hy (merged_subset hcy)))

theorem decision_of_identity (h : ∃ c ∈ group, c.changeClass = .identity) :
    decision targetId group = .pending (group.filter fun c => c.changeClass = .identity) := if_pos h

/-- **Exactly when a resolution settles its changes**: when no fact has the target of an identity change. -/
theorem settles_iff (changes : Changes) : (∃ out, Settles changes.refs out) ↔
    ∀ c ∈ changes.refs, c.changeClass = .fact →
      ∀ c' ∈ changes.refs, c'.targetId = c.targetId → c'.changeClass ≠ .identity := by
  constructor
  · rintro ⟨out, h⟩ c hc hfact c' hc' ht hidentity
    obtain rfl : outcome changes.refs = out := Except.ok.inj (resolveConflictsByTarget_eq.symm.trans h.decided)
    have hheld := @decision_of_identity (ofTarget changes.refs c.targetId) c.targetId
      ⟨c', mem_ofTarget.2 ⟨hc', ht⟩, hidentity⟩
    rcases h.fact c hc hfact with hcount | ⟨conflict, hmem, hin⟩
    · have hpos : 0 < ((outcome changes.refs).flatMap fun x => x.2.merged).count c := by omega
      obtain ⟨x, hx, hcx⟩ := List.mem_flatMap.1 (List.count_pos_iff.1 hpos)
      have htx := target_of_mem_outcome hx (merged_subset hcx)
      rw [(mem_outcome.1 hx).2, ← htx, hheld] at hcx
      exact List.not_mem_nil hcx
    · have hd := (mem_outcome.1 hmem).2
      rw [hheld] at hd
      obtain rfl := Resolution.pending.inj hd
      have hclass := of_decide_eq_true (List.mem_filter.1 hin).2
      rw [hfact] at hclass
      cases hclass
  · intro hfacts
    refine ⟨outcome changes.refs, resolveConflictsByTarget_eq, fun refs' out' hsame hout' => ?_, fun x hx c hc => ?_,
      fun c hc hfact => .inl ?_, fun x hx c => target_of_mem_outcome hx⟩
    · obtain rfl : outcome refs' = out' := Except.ok.inj (resolveConflictsByTarget_eq.symm.trans hout')
      exact outcome_within changes.identified hsame
    · rw [(mem_outcome.1 hx).2] at hc
      rw [class_of_merged hc]
      nofun
    · have hx : (c.targetId, decision c.targetId (ofTarget changes.refs c.targetId)) ∈ outcome changes.refs :=
        mem_outcome.2 ⟨⟨c, hc, rfl⟩, rfl⟩
      refine List.count_eq_one_of_mem nodup_merged (List.mem_flatMap.2 ⟨_, hx, ?_⟩)
      exact mem_merged_decision changes.identified hc hfact (hfacts c hc hfact)

def factAndIdentity : Changes where
  refs := [⟨"A", 1, .fact, "op", "value-x"⟩, ⟨"B", 2, .identity, "op", "value-x"⟩]
  identified := by decide

/-- The fact is lost. -/
theorem fact_lost : ¬ ∀ changes : Changes, ∃ out, Settles changes.refs out := by
  intro h
  obtain ⟨out, h⟩ := h factAndIdentity
  have hout : resolveConflictsByTarget factAndIdentity.refs =
    .ok [("value-x", .pending [⟨"B", 2, .identity, "op", "value-x"⟩])] := by decide
  obtain rfl := Except.ok.inj (hout.symm.trans h.decided)
  rcases h.fact ⟨"A", 1, .fact, "op", "value-x"⟩ (by decide) rfl with hcount | ⟨conflict, hmem, hin⟩
  · exact absurd hcount (by decide)
  · obtain rfl : conflict = [⟨"B", 2, .identity, "op", "value-x"⟩] := by simpa using hmem
    exact absurd hin (by decide)

end ChronoSynth.Edge

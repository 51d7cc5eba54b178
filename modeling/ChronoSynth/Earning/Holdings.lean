import ChronoSynth.Earning.EarningService
import ChronoSynth.Persona.Growth
import Mathlib.Tactic.Linarith
import Mathlib.Tactic.Ring

/-!
# What the persona holds

The three quantities that the caps bound — tasks taken and not finished, what those of the last day pay, tasks of the
last day by publisher — read off the whole table (`openCount`, `exposure`, `takenFrom`).

A transaction takes a task for a persona, publishes one, or at most finishes tasks or puts them up again (`exec_tasks`).
So the quantities only grow when a task is taken for the persona (`exec_eases`), and then by that task
(`exec_takes`); as time passes they fall.
-/

namespace ChronoSynth

namespace Persona

variable (env : Env) (t : Tx) (db : TenantDb)

/-- Whom the transaction takes which task for, if it is open. -/
def Tx.takes : Tx → Option (Id × Id)
  | .assignTask taskId personaId _ | .acceptTask taskId personaId _ => some (taskId, personaId)
  | _ => none

/-- What becomes of a task that is not taken: if it is held, it was held so before. -/
structure MarketplaceTask.Eases (x y : MarketplaceTask) : Prop where
  fixed : y.fixed = x.fixed
  held : y.status = .accepted ∨ y.status = .completed →
    (x.status = .accepted ∨ x.status = y.status) ∧ y.assigneePersonaId = x.assigneePersonaId ∧
      y.acceptedAt = x.acceptedAt

theorem MarketplaceTask.Eases.refl (x : MarketplaceTask) : x.Eases x := ⟨rfl, fun _ => ⟨.inr rfl, rfl, rfl⟩⟩

structure Taking (now : Time) (personaId : Id) (f : MarketplaceTask → MarketplaceTask) : Prop where
  fixed : ∀ x, (f x).fixed = x.fixed
  status : ∀ x, (f x).status = .accepted
  assignee : ∀ x, (f x).assigneePersonaId = some personaId
  acceptedAt : ∀ x, (f x).acceptedAt = some now

theorem eases_update {q : MarketplaceTask → Prop} [DecidablePred q] {f : MarketplaceTask → MarketplaceTask}
    (h : ∀ x, q x → x.Eases (f x)) :
    ∃ g : MarketplaceTask → MarketplaceTask, Table.update q f db.tasks = db.tasks.map g ∧ ∀ x : MarketplaceTask, x.Eases (g x) :=
  ⟨_, rfl, fun x => by
    split
    next hq => exact h x hq
    next => exact .refl x⟩

/-- **What a transaction does to the tasks.** -/
theorem exec_tasks :
    (∃ u reward currency, t = .publishTask u reward currency ∧
      (exec env t db).1.tasks = db.tasks ++ [.publish env.now db.tasks.length u reward currency]) ∨
    (∃ x p f, t.takes = some (x, p) ∧ Taking env.now p f ∧
      (exec env t db).1.tasks = Table.update (fun y => y.id = x ∧ y.status = .open) f db.tasks) ∨
    (t.takes = none ∧
      ∃ g : MarketplaceTask → MarketplaceTask, (exec env t db).1.tasks = db.tasks.map g ∧ ∀ x : MarketplaceTask, x.Eases (g x)) := by
  have h0 : ∃ g : MarketplaceTask → MarketplaceTask, db.tasks = db.tasks.map g ∧ ∀ x : MarketplaceTask, x.Eases (g x) :=
    ⟨id, (List.map_id _).symm, .refl⟩
  have et : _ → _ = _ := exec_agree env t db .tasks
  have hcomplete : ∀ (q : MarketplaceTask → Prop) [DecidablePred q] (score growth : ℚ),
      (∀ x, q x → x.status = .accepted) →
      ∀ x, q x → x.Eases (x.complete env.now score growth) := fun q _ score growth hq x hx =>
    ⟨rfl, fun _ => ⟨.inl (hq x hx), rfl, rfl⟩⟩
  cases t with
  | publishTask u reward currency => exact .inl ⟨u, reward, currency, rfl, rfl⟩
  | assignTask x p a =>
    exact .inr (.inl ⟨x, p, (·.assign env.now p), rfl, ⟨fun _ => rfl, fun _ => rfl, fun _ => rfl, fun _ => rfl⟩, rfl⟩)
  | acceptTask x p fork =>
    exact .inr (.inl ⟨x, p, (·.accept env.now p fork), rfl,
      ⟨fun _ => rfl, fun _ => rfl, fun _ => rfl, fun _ => rfl⟩, rfl⟩)
  | submitTaskResult x a =>
    exact .inr (.inr ⟨rfl, eases_update db fun y _ => ⟨rfl, fun _ => ⟨.inr rfl, rfl, rfl⟩⟩⟩)
  | acceptSubmittedTask a =>
    refine .inr (.inr ⟨rfl, ?_⟩)
    rw [exec_acceptSubmittedTask]
    split
    · exact eases_update db (hcomplete _ _ _ fun _ h => h.2)
    · exact h0
  | rejectSubmittedTask x a r app =>
    refine .inr (.inr ⟨rfl, ?_⟩)
    rw [exec_rejectSubmittedTask]
    split
    · exact eases_update db fun y _ => ⟨rfl, by rintro (h | h) <;> cases h⟩
    · exact h0
  | disputeTask x a r =>
    refine .inr (.inr ⟨rfl, ?_⟩)
    rw [exec_disputeTask]
    exact eases_update db fun y _ => ⟨rfl, fun _ => ⟨.inr rfl, rfl, rfl⟩⟩
  | completeTask c =>
    refine .inr (.inr ⟨rfl, ?_⟩)
    obtain ⟨e, -⟩ | ⟨-, -, e⟩ := exec_completeTask_cases env db c
    · rwa [e]
    · rw [e]
      exact eases_update db (hcomplete _ _ _ fun _ h => h.2)
  | _ =>
    refine .inr (.inr ⟨rfl, ?_⟩)
    rw [et (by simp [Tx.writes])]
    exact h0

end Persona

namespace Earning

open Persona (Id Time TenantDb MarketplaceTask)

variable {P : Id} {now now' : Time} {l l' : List MarketplaceTask} {u : Id}

/-! ## The three quantities -/

/-- The tasks of the last day from one publisher. -/
def takenFromOf (P : Id) (now : Time) (u : Id) (l : List MarketplaceTask) : List MarketplaceTask :=
  (amlWindowOf P now l).filter (·.publisherUserId = u)

/-- The quantities of one list of tasks are at most those of another. -/
structure Below (P : Id) (now : Time) (l : List MarketplaceTask) (now' : Time) (l' : List MarketplaceTask) :
    Prop where
  openCount : (openOf P l).length ≤ (openOf P l').length
  exposure : rewardOf (exposedOf P now l) ≤ rewardOf (exposedOf P now' l')
  takenFrom : ∀ u, (takenFromOf P now u l).length ≤ (takenFromOf P now' u l').length

theorem Below.refl : Below P now l now l := ⟨le_rfl, le_rfl, fun _ => le_rfl⟩

theorem Below.trans {now'' : Time} {l'' : List MarketplaceTask} (h : Below P now l now' l')
    (h' : Below P now' l' now'' l'') : Below P now l now'' l'' :=
  ⟨h.openCount.trans h'.openCount, h.exposure.trans h'.exposure, fun u => (h.takenFrom u).trans (h'.takenFrom u)⟩

section
variable {q q' : MarketplaceTask → Prop} [DecidablePred q] [DecidablePred q'] {g : MarketplaceTask → MarketplaceTask}

/-- What is selected after a change was selected before. -/
theorem length_filter_map_le (h : ∀ x ∈ l, q (g x) → q' x) :
    ((l.map g).filter fun x => q x).length ≤ (l.filter fun x => q' x).length := by
  rw [← List.countP_eq_length_filter, ← List.countP_eq_length_filter, List.countP_map]
  exact List.countP_mono_left fun x hx hq => by simpa using h x hx (by simpa using hq)

theorem rewardOf_filter_map_le (h : ∀ x ∈ l, q (g x) → q' x ∧ (g x).reward = x.reward)
    (hpos : ∀ x ∈ l, 0 ≤ x.reward) :
    rewardOf ((l.map g).filter fun x => q x) ≤ rewardOf (l.filter fun x => q' x) := by
  induction l with
  | nil => exact le_rfl
  | cons x l ih =>
    have ih := ih (fun y hy => h y (List.mem_cons_of_mem _ hy)) fun y hy => hpos y (List.mem_cons_of_mem _ hy)
    have hx := h x (List.mem_cons_self ..)
    have h0 := hpos x (List.mem_cons_self ..)
    by_cases hq : q (g x)
    · obtain ⟨hq', hr⟩ := hx hq
      simp only [rewardOf, List.map_cons, List.filter_cons, hq, hq', decide_true, if_true, List.sum_cons, hr] at ih ⊢
      linarith
    · by_cases hq' : q' x
      · simp only [rewardOf, List.map_cons, List.filter_cons, hq, hq', decide_true, decide_false, if_true,
          Bool.false_eq_true, if_false, List.sum_cons] at ih ⊢
        linarith
      · simpa only [rewardOf, List.map_cons, List.filter_cons, hq, hq', decide_false, Bool.false_eq_true, if_false]
          using ih

end

/-- A task that the persona holds after a change was held by it before, taken at the same time. -/
structure Cools (P : Id) (x y : MarketplaceTask) : Prop where
  fixed : y.fixed = x.fixed
  held : y.assigneePersonaId = some P → y.status = .accepted ∨ y.status = .completed →
    (x.status = .accepted ∨ x.status = y.status) ∧ x.assigneePersonaId = some P ∧ y.acceptedAt = x.acceptedAt

theorem Cools.of_eases {x y : MarketplaceTask} (h : x.Eases y) : Cools P x y :=
  ⟨h.fixed, fun ha hs => by
    obtain ⟨h₁, h₂, h₃⟩ := h.held hs
    exact ⟨h₁, h₂ ▸ ha, h₃⟩⟩

theorem InWindow.mono {x y : MarketplaceTask} (h : InWindow now' y) (ha : y.acceptedAt = x.acceptedAt)
    (hnow : now ≤ now') : InWindow now x := by
  unfold InWindow at h ⊢
  rw [← ha]
  exact hnow.trans h

/-- **The quantities fall** when no task is taken and time passes. -/
theorem below_of_cools {g : MarketplaceTask → MarketplaceTask} (hnow : now ≤ now')
    (h : ∀ x ∈ l, Cools P x (g x)) (hpos : ∀ x ∈ l, 0 ≤ x.reward) : Below P now' (l.map g) now l := by
  have hfixed : ∀ x ∈ l, (g x).publisherUserId = x.publisherUserId ∧ (g x).reward = x.reward := by
    intro x hx
    have hf := (h x hx).fixed
    simp only [MarketplaceTask.fixed, Prod.mk.injEq] at hf
    exact ⟨hf.2.1, hf.2.2.1⟩
  have haccepted : ∀ x ∈ l, (g x).assigneePersonaId = some P → (g x).status = .accepted →
      x.assigneePersonaId = some P ∧ x.status = .accepted ∧ (g x).acceptedAt = x.acceptedAt := by
    intro x hx ha hs
    obtain ⟨hst, ha', hat⟩ := (h x hx).held ha (.inl hs)
    exact ⟨ha', hst.elim id fun h => h.trans hs, hat⟩
  refine ⟨length_filter_map_le fun x hx hq => ?_, rewardOf_filter_map_le (fun x hx hq => ?_) hpos, fun u => ?_⟩
  · obtain ⟨ha, hs, -⟩ := haccepted x hx hq.1 hq.2
    exact ⟨ha, hs⟩
  · obtain ⟨ha, hs, hat⟩ := haccepted x hx hq.1 hq.2.1
    exact ⟨⟨ha, hs, hq.2.2.mono hat hnow⟩, (hfixed x hx).2⟩
  · simp only [takenFromOf, amlWindowOf, List.filter_filter, ← Bool.decide_and]
    refine length_filter_map_le fun x hx hq => ?_
    obtain ⟨hu, ha, hs, hw⟩ := hq
    obtain ⟨hst, ha', hat⟩ := (h x hx).held ha hs
    refine ⟨(hfixed x hx).1 ▸ hu, ha', ?_, hw.mono hat hnow⟩
    rcases hst with hst | hst
    · exact .inl hst
    · exact hst ▸ hs

theorem below_later (hnow : now ≤ now') (hpos : ∀ x ∈ l, 0 ≤ x.reward) : Below P now' l now l := by
  have h : Below P now' (l.map id) now l := below_of_cools hnow (fun x _ => .of_eases (.refl x)) hpos
  rwa [List.map_id] at h

theorem below_append {y : MarketplaceTask} (hy : y.assigneePersonaId = none) : Below P now (l ++ [y]) now l := by
  have hempty : ∀ (q : MarketplaceTask → Prop) [DecidablePred q], (∀ x, q x → x.assigneePersonaId = some P) →
      (l ++ [y]).filter (fun x => q x) = l.filter fun x => q x := by
    intro q _ hq
    have hn : ¬ q y := fun h => by
      have := hq y h
      rw [hy] at this
      cases this
    rw [List.filter_append, List.filter_singleton, decide_eq_false hn, cond_false, List.append_nil]
  refine ⟨?_, ?_, fun u => ?_⟩
  · rw [openOf, hempty _ fun x h => h.1]
    rfl
  · rw [exposedOf, hempty _ fun x h => h.1]
    rfl
  · rw [takenFromOf, amlWindowOf, hempty _ fun x h => h.1]
    rfl

/-! ## Taking one task -/

section
variable {f : MarketplaceTask → MarketplaceTask} {row : MarketplaceTask}

theorem update_open (hn : Table.Numbered MarketplaceTask.id l) (hrow : row ∈ l) (hs : row.status = .open) :
    ∃ l₁ l₂, l = l₁ ++ row :: l₂ ∧
      Table.update (fun y => y.id = row.id ∧ y.status = .open) f l = l₁ ++ f row :: l₂ := by
  obtain ⟨l₁, l₂, rfl⟩ := List.append_of_mem hrow
  refine ⟨l₁, l₂, rfl, ?_⟩
  have hnd := hn.nodup
  rw [List.map_append, List.map_cons, List.nodup_append] at hnd
  obtain ⟨-, h₂, h₁⟩ := hnd
  have hl₁ : Table.update (fun y => y.id = row.id ∧ y.status = .open) f l₁ = l₁ :=
    Table.update_eq_self fun y hy h => h₁ y.id (List.mem_map_of_mem hy) row.id (List.mem_cons_self ..) h.1
  have hl₂ : Table.update (fun y => y.id = row.id ∧ y.status = .open) f l₂ = l₂ :=
    Table.update_eq_self fun y hy h => (List.nodup_cons.1 h₂).1 (List.mem_map.2 ⟨y, hy, h.1⟩)
  have happ : Table.update (fun y => y.id = row.id ∧ y.status = .open) f (l₁ ++ row :: l₂) =
      Table.update (fun y => y.id = row.id ∧ y.status = .open) f l₁ ++ f row ::
        Table.update (fun y => y.id = row.id ∧ y.status = .open) f l₂ := by
    simp [Table.update, hs]
  rw [happ, hl₁, hl₂]

/-- **A task that is taken counts once, in each quantity.** -/
theorem quantities_take (hn : Table.Numbered MarketplaceTask.id l) (hrow : row ∈ l) (hs : row.status = .open)
    (hf : Persona.Taking now P f) :
    (openOf P (Table.update (fun y => y.id = row.id ∧ y.status = .open) f l)).length = (openOf P l).length + 1 ∧
    rewardOf (exposedOf P now (Table.update (fun y => y.id = row.id ∧ y.status = .open) f l)) =
      rewardOf (exposedOf P now l) + row.reward ∧
    ∀ u, (takenFromOf P now u (Table.update (fun y => y.id = row.id ∧ y.status = .open) f l)).length =
      (takenFromOf P now u l).length + if row.publisherUserId = u then 1 else 0 := by
  obtain ⟨l₁, l₂, rfl, hu⟩ := update_open (f := f) hn hrow hs
  have hfix := hf.fixed row
  simp only [MarketplaceTask.fixed, Prod.mk.injEq] at hfix
  have hwin : InWindow now (f row) := by
    rw [InWindow, hf.acceptedAt]
    exact Nat.le_add_right _ _
  rw [hu]
  refine ⟨?_, ?_, fun u => ?_⟩
  · simp [openOf, hs, hf.status, hf.assignee]
    omega
  · simp [exposedOf, rewardOf, hs, hf.status, hf.assignee, hwin, hfix.2.2.1]
    ring
  · simp only [takenFromOf, amlWindowOf, List.filter_append, List.filter_cons, hs, hf.status, hf.assignee, hwin,
      List.length_append]
    by_cases hpu : row.publisherUserId = u
    · simp [hpu, hfix.2.1]
      omega
    · simp [hpu, hfix.2.1]

end

end Earning

end ChronoSynth

import ChronoSynth.Earning.Holdings
import ChronoSynth.Lib.Undisturbed

/-!
# The caps of autonomous earning

A cycle checks the caps when it applies, against what it counted when it began. The task is taken later, by the
publisher, without another check. So the caps hold for a task that is taken while its application is *fresh*: since
the cycle that made it began no other task was taken for the persona, and the cycle saw all tasks of the persona each
time it looked (`Room` is then kept from the application on). They hold along a run exactly if every task whose
application is stale still finds room when it is taken.
-/

namespace ChronoSynth.Earning

open Persona (Id Time TenantDb Tx MarketplaceTask TaskApplication getPersonaDetail)

/-! ## What is promised -/

structure WithinCaps (policy : EarningPolicyConfig) (P : Id) (db : EarningDb) : Prop where
  exposure : rewardOf (exposedOf P db.now db.tenant.tasks) ≤ policy.dailyRewardExposureCap
  concurrent : (openOf P db.tenant.tasks).length ≤ policy.maxConcurrentTasks
  publishers : ∀ u, (takenFromOf P db.now u db.tenant.tasks).length ≤ policy.aml.maxTasksPerPublisherPerWindow

def AppliedOnce (db : EarningDb) : Prop := (db.tenant.applications.map fun a => (a.taskId, a.personaId)).Nodup

/-- The persona could take the task and stay within the caps. -/
def Room (policy : EarningPolicyConfig) (P : Id) (db : EarningDb) (taskId : Id) : Prop :=
  ∃ row ∈ db.tenant.tasks, row.id = taskId ∧
    (openOf P db.tenant.tasks).length < policy.maxConcurrentTasks ∧
    rewardOf (exposedOf P db.now db.tenant.tasks) + row.reward ≤ policy.dailyRewardExposureCap ∧
    (takenFromOf P db.now row.publisherUserId db.tenant.tasks).length < policy.aml.maxTasksPerPublisherPerWindow

/-! ## Fresh applications -/

section
variable (P : EarningPersona)

/-- The task that the transaction takes for the persona. -/
def EarningTx.taking (db : EarningDb) : EarningTx → Option Id
  | .market t =>
    match t.takes with
    | some (taskId, personaId) =>
      if personaId = P.personaId ∧ ∃ row ∈ db.tenant.tasks, row.id = taskId ∧ row.status = .open then some taskId
      else none
    | none => none
  | _ => none

/-- The task that a move takes for the persona. -/
def taking (p : EarningPool) (m : EarningMove) : Option Id :=
  (p.committing m).bind fun x => x.2.taking P p.db

/-- The owner's detail of the persona is there and lists all tasks of the persona. -/
def Legible (ownerUserId : Id) (db : EarningDb) : Prop :=
  (getPersonaDetail db.tenant P.personaId ownerUserId).isSome ∧
    (db.tenant.tasks.filter fun t =>
      t.publisherUserId = ownerUserId ∨ t.assigneePersonaId = some P.personaId).length ≤ 12

instance (ownerUserId : Id) (db : EarningDb) : Decidable (Legible P ownerUserId db) :=
  inferInstanceAs (Decidable (_ ∧ _))

/-- Whether a call sees all it looks at. -/
def sees : EarningCall → EarningDb → Bool
  | .cycle ownerUserId _, db => Legible P ownerUserId db
  | _, _ => true

/-- What is fresh: the calls since whose beginning no task was taken for the persona and that have seen all they
looked at, and the tasks such a cycle has applied for without a task being taken since. -/
structure Freshness where
  calls : List Bool
  tasks : List Id

def Freshness.none : Freshness := ⟨[], []⟩

/-- The task a fresh cycle applies for with the move, for the first time. -/
def applying (p : EarningPool) (h : Freshness) : EarningMove → Option Id
  | .call _ => .none
  | .go i _ =>
    match p.threads[i]? with
    | some ⟨.cycle ownerUserId _, _, .txn (.market (.applyToTask taskId personaId)) _⟩ =>
      if h.calls[i]? = some true ∧ Legible P ownerUserId p.db ∧ personaId = P.personaId ∧
        ¬ ∃ a ∈ p.db.tenant.applications, a.taskId = taskId ∧ a.personaId = personaId then some taskId else .none
    | _ => .none

def Freshness.note (p : EarningPool) (h : Freshness) (m : EarningMove) : Freshness where
  calls := Pool.watch (sees P) (fun p m => (taking P p m).isNone) p h.calls m
  tasks := if (taking P p m).isSome then [] else (applying P p h m).toList ++ h.tasks

/-- A task that is taken while its application is not fresh still finds room. -/
def StaleFindsRoom (policy : EarningPolicyConfig) (x : EarningPool × Freshness) (m : EarningMove) : Prop :=
  ∀ taskId, taking P x.1 m = some taskId → taskId ∉ x.2.tasks → Room policy P.personaId x.1.db taskId

end

/-! ## Steps -/

section
variable {P : EarningPersona} {policy : EarningPolicyConfig} {db db' db'' : EarningDb} {o : EarningEnv} {t : EarningTx}

/-- The tables are as the services make them. -/
structure EarningDb.Sound (db : EarningDb) : Prop where
  numbered : Table.Numbered MarketplaceTask.id db.tenant.tasks
  rewards : ∀ task ∈ db.tenant.tasks, 0 ≤ task.reward
  once : AppliedOnce db

/-- No task is taken for the persona, and time passes. -/
structure Eases (P : Id) (db db' : EarningDb) : Prop where
  now : db.now ≤ db'.now
  below : Below P db'.now db'.tenant.tasks db.now db.tenant.tasks
  rows : ∀ task ∈ db.tenant.tasks, ∃ task' ∈ db'.tenant.tasks, task'.fixed = task.fixed

theorem Eases.refl {P : Id} : Eases P db db := ⟨le_rfl, .refl, fun task h => ⟨task, h, rfl⟩⟩

theorem Eases.trans {P : Id} (h : Eases P db db') (h' : Eases P db' db'') : Eases P db db'' :=
  ⟨h.now.trans h'.now, h'.below.trans h.below, fun task htask => by
    obtain ⟨task', hmem, he⟩ := h.rows task htask
    obtain ⟨task'', hmem', he'⟩ := h'.rows task' hmem
    exact ⟨task'', hmem', he'.trans he⟩⟩

theorem Eases.of_eq {P : Id} (hnow : db'.now = db.now) (ht : db'.tenant.tasks = db.tenant.tasks) : Eases P db db' := by
  refine ⟨hnow.ge, ?_, fun task h => ⟨task, ht ▸ h, rfl⟩⟩
  rw [hnow, ht]
  exact .refl

theorem WithinCaps.eases {P : Id} (h : WithinCaps policy P db) (he : Eases P db db') : WithinCaps policy P db' :=
  ⟨he.below.exposure.trans h.exposure, he.below.openCount.trans h.concurrent,
    fun u => (he.below.takenFrom u).trans (h.publishers u)⟩

theorem Room.eases {P taskId : Id} (h : Room policy P db taskId) (he : Eases P db db') : Room policy P db' taskId := by
  obtain ⟨row, hrow, hid, ho, hx, hu⟩ := h
  obtain ⟨row', hrow', hfix⟩ := he.rows row hrow
  simp only [MarketplaceTask.fixed, Prod.mk.injEq] at hfix
  refine ⟨row', hrow', hfix.1.trans hid, he.below.openCount.trans_lt ho, ?_, ?_⟩
  · rw [hfix.2.2.1]
    linarith [he.below.exposure]
  · rw [hfix.2.1]
    exact (he.below.takenFrom _).trans_lt hu

theorem fixed_grows (t : Tx) : ∀ task ∈ db.tenant.tasks,
    ∃ task' ∈ (Persona.exec (o.at db) t db.tenant).1.tasks, task'.fixed = task.fixed := fun task htask => by
  obtain ⟨task', hmem, he⟩ := (Persona.exec_grows (o.at db) t db.tenant).tasks.stay task htask
  exact ⟨task', hmem, he.1⟩

/-- **A transaction that takes no task for the persona** lets the quantities fall. -/
theorem exec_eases (hpos : ∀ task ∈ db.tenant.tasks, 0 ≤ task.reward) (ht : t.taking P db = none) :
    Eases P.personaId db (exec o t db).1 := by
  cases t with
  | lease cmd => exact .of_eq rfl rfl
  | tick ms =>
    exact ⟨Nat.le_add_right _ _, below_later (Nat.le_add_right _ _) hpos, fun task h => ⟨task, h, rfl⟩⟩
  | market t =>
    refine ⟨le_rfl, ?_, fixed_grows t⟩
    obtain ⟨u, reward, currency, -, e⟩ | ⟨x, p, f, htk, hf, e⟩ | ⟨-, g, e, hg⟩ :=
      Persona.exec_tasks (o.at db) t db.tenant
    · change Below _ _ (Persona.exec (o.at db) t db.tenant).1.tasks _ _
      rw [e]
      exact below_append rfl
    · change Below _ _ (Persona.exec (o.at db) t db.tenant).1.tasks _ _
      rw [e, Table.update]
      refine below_of_cools le_rfl (fun y hy => ?_) hpos
      split
      next hmatch =>
        -- the task is taken for somebody else
        refine ⟨hf.fixed y, fun ha _ => ?_⟩
        rw [hf.assignee] at ha
        simp only [EarningTx.taking, htk, Option.some.inj ha, true_and] at ht
        rw [if_pos ⟨y, hy, hmatch⟩] at ht
        cases ht
      next => exact .of_eases (.refl y)
    · change Below _ _ (Persona.exec (o.at db) t db.tenant).1.tasks _ _
      rw [e]
      exact below_of_cools le_rfl (fun y _ => .of_eases (hg y)) hpos

/-- **A transaction that takes a task for the persona** stays within the caps exactly if there was room. -/
theorem exec_takes (hs : db.Sound) (hw : WithinCaps policy P.personaId db) {taskId : Id}
    (ht : t.taking P db = some taskId) :
    WithinCaps policy P.personaId (exec o t db).1 ↔ Room policy P.personaId db taskId := by
  cases t with
  | lease cmd => cases ht
  | tick ms => cases ht
  | market t =>
    -- it is one of the two that take a task, and the task is open
    obtain ⟨htk, row, hrow, hid, hopen⟩ : t.takes = some (taskId, P.personaId) ∧
        ∃ row ∈ db.tenant.tasks, row.id = taskId ∧ row.status = .open := by
      simp only [EarningTx.taking] at ht
      split at ht
      next x p htk =>
        split at ht
        next hc =>
          obtain rfl := Option.some.inj ht
          exact ⟨hc.1 ▸ htk, hc.2⟩
        next => cases ht
      next => cases ht
    obtain ⟨u, reward, currency, rfl, -⟩ | ⟨x, p, f, htk', hf, e⟩ | ⟨hnone, -⟩ :=
      Persona.exec_tasks (o.at db) t db.tenant
    · cases htk
    · obtain ⟨rfl, rfl⟩ : x = taskId ∧ p = P.personaId := by simpa [htk] using htk'.symm
      subst hid
      have hf' : Persona.Taking db.now P.personaId f := hf
      obtain ⟨hcount, hexp, hfrom⟩ := quantities_take hs.numbered hrow hopen hf'
      have e' : (exec o (.market t) db).1.tenant.tasks =
          Table.update (fun y => y.id = row.id ∧ y.status = .open) f db.tenant.tasks := e
      have hnow : (exec o (.market t) db).1.now = db.now := rfl
      constructor
      · intro h
        refine ⟨row, hrow, rfl, ?_, ?_, ?_⟩
        · have := h.concurrent
          rw [e', hcount] at this
          exact this
        · have := h.exposure
          rwa [e', hnow, hexp] at this
        · have := h.publishers row.publisherUserId
          rw [e', hnow, hfrom, if_pos rfl] at this
          exact this
      · rintro ⟨row', hrow', hid, ho, hx, hu⟩
        obtain rfl := hs.numbered.eq hrow' hrow hid
        refine ⟨?_, ?_, fun u => ?_⟩
        · rwa [e', hnow, hexp]
        · rw [e', hcount]
          exact ho
        · rw [e', hnow, hfrom]
          split
          next hpu => exact hpu ▸ hu
          next => exact hw.publishers u
    · rw [htk] at hnone
      cases hnone

/-- Only tasks that pay something are published. -/
def EarningTx.Pays : EarningTx → Prop
  | .market (.publishTask _ reward _) => 0 < reward
  | _ => True

theorem exec_once (h : AppliedOnce db) : AppliedOnce (exec o t db).1 := by
  cases t with
  | lease cmd => exact h
  | tick ms => exact h
  | market t =>
    change ((Persona.exec (o.at db) t db.tenant).1.applications.map fun a => (a.taskId, a.personaId)).Nodup
    have hupd : ∀ (q : TaskApplication → Prop) [DecidablePred q] (g : TaskApplication → TaskApplication),
        (∀ a, ((g a).taskId, (g a).personaId) = (a.taskId, a.personaId)) →
        ((Table.update q g db.tenant.applications).map fun a => (a.taskId, a.personaId)).Nodup := by
      intro q _ g hg
      rw [Table.map_update fun a _ => hg a]
      exact h
    have ea : _ → _ = _ := Persona.exec_agree (o.at db) t db.tenant .applications
    cases t with
    | applyToTask x p =>
      rw [Persona.exec_applyToTask]
      split
      next => exact h
      next hfree =>
        rw [List.map_append, List.nodup_append]
        refine ⟨h, List.nodup_singleton _, ?_⟩
        rintro k hk k' hk' rfl
        obtain ⟨a, ha, rfl⟩ := List.mem_map.1 hk
        simp only [List.map_cons, List.map_nil, List.mem_singleton, Prod.mk.injEq] at hk'
        exact hfree ⟨a, ha, hk'⟩
    | assignTask x p a =>
      rw [Persona.exec_assignTask]
      exact hupd _ _ fun y => rfl
    | rejectSubmittedTask x a r app =>
      rw [Persona.exec_rejectSubmittedTask]
      split
      · exact hupd _ _ fun y => rfl
      · exact h
    | _ =>
      rw [ea (by simp [Tx.writes])]
      exact h

theorem EarningDb.Sound.exec (h : db.Sound) (hp : t.Pays) : (exec o t db).1.Sound := by
  refine ⟨?_, ?_, exec_once h.once⟩
  · cases t with
    | lease cmd => exact h.numbered
    | tick ms => exact h.numbered
    | market t => exact (Persona.exec_grows (o.at db) t db.tenant).tasks.numbered h.numbered
  · cases t with
    | lease cmd => exact h.rewards
    | tick ms => exact h.rewards
    | market t =>
      have hkeep : ∀ (g : MarketplaceTask → MarketplaceTask), (∀ x, (g x).fixed = x.fixed) →
          ∀ task ∈ db.tenant.tasks.map g, 0 ≤ task.reward := by
        intro g hg task htask
        obtain ⟨x, hx, rfl⟩ := List.mem_map.1 htask
        have hfix := hg x
        simp only [MarketplaceTask.fixed, Prod.mk.injEq] at hfix
        rw [hfix.2.2.1]
        exact h.rewards x hx
      change ∀ task ∈ (Persona.exec (o.at db) t db.tenant).1.tasks, 0 ≤ task.reward
      obtain ⟨u, reward, currency, rfl, e⟩ | ⟨x, p, f, -, hf, e⟩ | ⟨-, g, e, hg⟩ :=
        Persona.exec_tasks (o.at db) t db.tenant
      · rw [e]
        intro task htask
        rcases List.mem_append.1 htask with htask | htask
        · exact h.rewards task htask
        · obtain rfl := List.mem_singleton.1 htask
          exact le_of_lt hp
      · rw [e]
        refine hkeep _ fun y => ?_
        split
        · exact hf.fixed y
        · rfl
      · rw [e]
        exact hkeep g fun y => (hg y).fixed

end

end ChronoSynth.Earning

import ChronoSynth.Earning.Cycles
import ChronoSynth.Persona.Hands
import ChronoSynth.Persona.Calls

/-!
# When earning stays inside its caps

Any number of cycles of one persona, and all other calls of the persona services, in any order. The caps hold in every
state of a run exactly if every task that is taken for the persona while its application is not fresh finds room: for a
fresh application the gates have made sure (`Inside`).
-/

namespace ChronoSynth.Earning

open Persona (Id Time TenantDb Tx MarketplaceTask)

variable {P : EarningPersona}

/-! ## Published tasks pay -/

theorem personaStart_pays (c : Persona.Call) : (Persona.start c).Uses fun t => (EarningTx.market t).Pays := by
  by_cases h : ∃ i, c = .publishTask i
  · obtain ⟨i, rfl⟩ := h
    refine (Persona.start_uses (.publishTask i) nofun nofun nofun).mono fun t ht => ?_
    cases t with
    | publishTask u reward currency => exact (ht (.fresh [])).1
    | _ => trivial
  · refine (Persona.start_hands c).mono fun t ht => ?_
    cases t with
    | publishTask u reward currency => exact absurd ht h
    | _ => trivial

theorem considerTask_pays (i : EarningCycleInput) (snapshot : EarningPersonaSnapshot) (task : MarketplaceTask)
    (p : EarningCycleInput.Progress) : (i.considerTask snapshot task p).Uses EarningTx.Pays := by
  have hread : ∀ {α β : Type} {f : EarningEnv → EarningDb → α} {g : α → EarningProg β},
      (∀ a, (g a).Uses EarningTx.Pays) → (Prog.queryAny f >>= g).Uses EarningTx.Pays := fun h => .bind .queryAny h
  unfold EarningCycleInput.considerTask
  split
  · trivial
  refine .bind (hread fun _ => trivial) fun reason => ?_
  split
  · trivial
  change Prog.Uses _ (if (evaluateAmlAggregate _).blocked = true then _ else _)
  split
  · trivial
  refine .bind (hread fun _ => trivial) fun completed => .bind (hread fun _ => trivial) fun isNew => ?_
  generalize evaluateEarningAdmission _ = admission
  dsimp only
  split
  · trivial
  refine .bind (hread fun _ => trivial) fun decision => ?_
  split
  · trivial
  split
  · trivial
  refine .bind ((applyViaPipeline_uses i task).mono fun t ht => ?_) fun ok => ?_
  · rw [ht]
    trivial
  · split
    · exact .bind .query fun _ => trivial
    · trivial

theorem runCycleBody_pays (i : EarningCycleInput) (persona : Persona.PersonaCore) :
    (i.runCycleBody persona).Uses EarningTx.Pays := by
  have htasks : ∀ snapshot tasks p, (i.considerTasks snapshot tasks p).Uses EarningTx.Pays := by
    intro snapshot tasks
    induction tasks with
    | nil => exact fun p => trivial
    | cons task tasks ih => exact fun p => .bind (considerTask_pays i snapshot task p) fun p' => ih p'
  refine .bind .queryAny fun openTasks => .bind ?_ fun snapshot => ?_
  · exact .bind (.bind .queryAny fun _ => trivial) fun _ => .bind (.bind .queryAny fun _ => trivial) fun _ => trivial
  · refine .bind (.bind .query fun _ => .bind .queryAny fun _ => trivial) fun exposure => ?_
    refine .bind (.bind .query fun _ => .bind .queryAny fun _ => trivial) fun window => ?_
    exact .bind (htasks _ _ _) fun p => trivial

-- what a call of the lease does in detail does not matter
attribute [local irreducible] leaseCall

theorem withLease_pays {α : Type} {scope : Lease.LeaseScope} {ttlMs : ℚ} {fn : EarningProg α}
    (h : fn.Uses EarningTx.Pays) : (withLease scope ttlMs fn).Uses EarningTx.Pays := by
  have hlease : ∀ {β : Type} (p : Lease.LeaseProg β), (leaseCall p).Uses EarningTx.Pays := fun p =>
    (leaseCall_uses p).mono fun t ⟨cmd, ht⟩ => ht ▸ trivial
  have hwork : (fn.attempt : EarningProg (Except EarningError α)).Uses EarningTx.Pays := h.attempt
  refine Prog.Uses.bind .query fun now => ?_
  refine Prog.Uses.bind (hlease _) fun handle => ?_
  split
  · trivial
  · refine Prog.Uses.bind hwork fun result => Prog.Uses.bind (hlease _) fun _ => ?_
    split <;> trivial

theorem runEarningCycle_pays (i : EarningCycleInput) : (runEarningCycle i).Uses EarningTx.Pays := by
  unfold runEarningCycle
  refine .bind .query fun detail => ?_
  split
  · trivial
  split
  · trivial
  next detail _ =>
  have hlease := @withLease_pays _ ⟨i.tenantId, toString i.personaId, .earning⟩ EARNING_LEASE_TTL_MS _
    (runCycleBody_pays i detail.persona)
  generalize withLease ⟨i.tenantId, toString i.personaId, .earning⟩ EARNING_LEASE_TTL_MS
    (i.runCycleBody detail.persona) = work at hlease ⊢
  refine Prog.Uses.bind hlease fun result => ?_
  split <;> trivial

theorem start_pays (c : EarningCall) : (start P c).Uses EarningTx.Pays := by
  cases c with
  | cycle ownerUserId n => exact .bind (runEarningCycle_pays _) fun _ => trivial
  | market call => exact .bind ((personaStart_pays call).embed fun _ h => h) fun _ => trivial
  | wait ms => exact .bind (.transaction trivial) fun _ => trivial

/-! ## Runs -/

/-- What is kept: the tables are sound and within the caps, undisturbed calls go on as they should, and for the tasks
with a fresh application there is room. -/
structure Inside (P : EarningPersona) (x : EarningPool × Freshness) : Prop where
  sound : x.1.db.Sound
  caps : WithinCaps P.effectivePolicy P.personaId x.1.db
  uses : x.1.Uses fun _ => EarningTx.Pays
  followed : Pool.Followed (undisturbed P) exec (AppliesWithRoom P) (fun _ _ _ _ => True) x.1 x.2.calls
  room : ∀ taskId ∈ x.2.tasks, Room P.effectivePolicy P.personaId x.1.db taskId

section
variable {x : EarningPool × Freshness} {m : EarningMove}

theorem step_eases (hs : x.1.db.Sound) (hm : taking P x.1 m = none) :
    Eases P.personaId x.1.db (EarningPool.step P x.1 m).db := by
  obtain ⟨-, hdb⟩ | ⟨o, t, hc, hdb⟩ := Pool.step_db (start P) exec x.1 m
  · rw [EarningPool.step, hdb]
    exact .refl
  · rw [EarningPool.step, hdb]
    refine exec_eases hs.rewards ?_
    rwa [taking, hc] at hm

theorem step_takes (hx : Inside P x) {taskId : Id} (hm : taking P x.1 m = some taskId) :
    WithinCaps P.effectivePolicy P.personaId (EarningPool.step P x.1 m).db ↔
      Room P.effectivePolicy P.personaId x.1.db taskId := by
  obtain ⟨hc, -⟩ | ⟨o, t, hc, hdb⟩ := Pool.step_db (start P) exec x.1 m
  · rw [taking, hc] at hm
    cases hm
  · rw [EarningPool.step, hdb]
    rw [taking, hc] at hm
    exact exec_takes hx.sound hx.caps hm

theorem inv_of_sees (hs : x.1.db.Sound) (c : EarningCall) (h : sees P c x.1.db = true) :
    (undisturbed P c).inv x.1.db := by
  cases c with
  | cycle ownerUserId n => exact ⟨of_decide_eq_true h, hs.rewards⟩
  | market call | wait ms => trivial

theorem room_of_applying (hx : Inside P x) {taskId : Id} (h : applying P x.1 x.2 m = some taskId) :
    Room P.effectivePolicy P.personaId x.1.db taskId := by
  cases m with
  | call c => cases h
  | go i o =>
    simp only [applying] at h
    split at h
    next ownerUserId n l t personaId k hi =>
      split at h
      next hc =>
        obtain rfl := Option.some.inj h
        exact hx.followed.committing (inv_of_sees hx.sound) hi hc.1 (decide_eq_true hc.2.1)
      next => cases h
    next => cases h

/-- **Step lemma.** -/
theorem Inside.step (hx : Inside P x) (hm : StaleFindsRoom P P.effectivePolicy x m) :
    Inside P (noting (EarningPool.step P) (Freshness.note P) x m) := by
  refine ⟨?_, ?_, hx.uses.step start_pays, ?_, ?_⟩
  · obtain ⟨-, hdb⟩ | ⟨o, t, hc, hdb⟩ := Pool.step_db (start P) exec x.1 m
    · rw [noting, EarningPool.step, hdb]
      exact hx.sound
    · obtain ⟨c, hp⟩ := hx.uses.committing hc
      rw [noting, EarningPool.step, hdb]
      exact hx.sound.exec hp
  · cases htk : taking P x.1 m with
    | none => exact hx.caps.eases (step_eases hx.sound htk)
    | some taskId =>
      refine (step_takes hx htk).2 ?_
      by_cases hfresh : taskId ∈ x.2.tasks
      · exact hx.room taskId hfresh
      · exact hm taskId htk hfresh
  · have hext : (taking P x.1 m).isNone = true → ∀ c, (undisturbed P c).ext x.1.db (EarningPool.step P x.1 m).db := by
      intro hcalm c
      have he := step_eases (m := m) hx.sound (Option.isNone_iff_eq_none.1 hcalm)
      cases c <;> exact he
    have hf : Pool.Followed (undisturbed P) exec (AppliesWithRoom P) (fun _ _ _ _ => True)
        (Pool.step (start P) exec x.1 m)
        (Pool.watch (sees P) (fun p m => (taking P p m).isNone) x.1 x.2.calls m) :=
      hx.followed.step hext (inv_of_sees hx.sound) start_follows
    exact hf
  · intro taskId hmem
    cases htk : taking P x.1 m with
    | some _ => simp [noting, Freshness.note, htk] at hmem
    | none =>
      have he := step_eases hx.sound htk
      simp only [noting, Freshness.note, htk, Option.isSome_none, Bool.false_eq_true, if_false, List.mem_append,
        Option.mem_toList] at hmem
      rcases hmem with happ | hold
      · exact (room_of_applying hx happ).eases he
      · exact (hx.room taskId hold).eases he

end

/-- A marketplace in which the persona is within its caps. -/
structure EarningStart (P : EarningPersona) where
  db : EarningDb
  sound : db.Sound
  caps : WithinCaps P.effectivePolicy P.personaId db

/-- **Earning stays inside its caps, and applies for no task twice**, in a run exactly if every task that is taken for
the persona while its application is not fresh finds room. -/
theorem earning_inside_iff (P : EarningPersona) (s : EarningStart P) (ms : List EarningMove) :
    Always (EarningPool.step P)
        (fun p => WithinCaps P.effectivePolicy P.personaId p.db ∧ AppliedOnce p.db) (Pool.idle s.db) ms ↔
      Along (noting (EarningPool.step P) (Freshness.note P)) (StaleFindsRoom P P.effectivePolicy)
        (Pool.idle s.db, .none) ms := by
  have hstart : Inside P (Pool.idle s.db, .none) :=
    ⟨s.sound, s.caps, fun _ h => (List.not_mem_nil h).elim, .idle, fun _ h => (List.not_mem_nil h).elim⟩
  have hiff : Always (noting (EarningPool.step P) (Freshness.note P))
        (fun x => WithinCaps P.effectivePolicy P.personaId x.1.db ∧ AppliedOnce x.1.db) (Pool.idle s.db, .none) ms ↔
      Along (noting (EarningPool.step P) (Freshness.note P)) (StaleFindsRoom P P.effectivePolicy)
        (Pool.idle s.db, .none) ms :=
    always_iff_along hstart (fun x hx => ⟨hx.caps, hx.sound.once⟩) (fun x m hx hm => hx.step hm)
      fun x m hx hP taskId htk _ => (step_takes hx htk).1 hP.1
  exact always_noting.symm.trans hiff

/-! ## A cycle that applies for more than it may take -/

/-- Earlier work for the publisher, and four tasks that it now offers. -/
def offers : TenantDb :=
  { TenantDb.fresh [0, 1] with
    personas := [{ Persona.PersonaCore.create 0 0 0 50 with status := .active }]
    wallets := [.create 0 0 0]
    tasks := [((MarketplaceTask.publish 0 0 1 5 Persona.WALLET_CURRENCY).assign 0 0).complete 0 1 0,
      .publish 0 1 1 1 Persona.WALLET_CURRENCY, .publish 0 2 1 2 Persona.WALLET_CURRENCY,
      .publish 0 3 1 3 Persona.WALLET_CURRENCY, .publish 0 4 1 4 Persona.WALLET_CURRENCY] }

/-- Two days later. -/
def offersStart : EarningStart ⟨"t", 0, none, fun _ => .research⟩ where
  db := ⟨172800000, offers, .empty 0⟩
  sound := ⟨rfl, by decide, List.nodup_nil⟩
  caps := ⟨by decide +kernel, by decide, fun u => by
    have hnone : amlWindowOf 0 172800000 offers.tasks = [] := by decide
    simp only [takenFromOf, hnone, List.filter_nil, List.length_nil]
    exact Nat.zero_le _⟩

/-- The engine accepts, the pipeline permits. -/
def willing : EarningEnv := ⟨0, none, fun rows => ⟨rows, .refl _⟩, fun _ _ => "接受任务", true⟩

/-- A cycle applies for the four tasks, and the publisher assigns them one after the other. -/
def assignAll : List EarningMove :=
  [.call (.cycle 0 (some 4))] ++ List.replicate 60 (.go 0 willing) ++
  [.call (.market (.assignTask ⟨1, 1, 0⟩)), .call (.market (.assignTask ⟨1, 2, 0⟩)),
    .call (.market (.assignTask ⟨1, 3, 0⟩)), .call (.market (.assignTask ⟨1, 4, 0⟩))] ++
  List.replicate 7 (.go 1 willing) ++ List.replicate 7 (.go 2 willing) ++ List.replicate 7 (.go 3 willing) ++
  List.replicate 7 (.go 4 willing)

/-- The persona may have three tasks at a time, and has four. -/
theorem four_tasks_at_a_time : ¬ Always (EarningPool.step ⟨"t", 0, none, fun _ => .research⟩)
    (fun p => WithinCaps DEFAULT_EARNING_POLICY 0 p.db ∧ AppliedOnce p.db) (Pool.idle offersStart.db) assignAll := by
  intro h
  have hcount : (openOf 0 (run (EarningPool.step ⟨"t", 0, none, fun _ => .research⟩) (Pool.idle offersStart.db)
      assignAll).db.tenant.tasks).length = 4 := by decide +kernel
  have hle := h.last.1.concurrent
  rw [hcount] at hle
  exact absurd hle (by decide)

end ChronoSynth.Earning

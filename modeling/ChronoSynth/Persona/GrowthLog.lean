import Mathlib.Algebra.Group.Prod
import ChronoSynth.Lib.Replay
import ChronoSynth.Persona.Named

/-!
# The log of a persona's growth

What a persona has grown to is kept in three columns of its row, and every change of them is written
to `persona_growth_events` as well. The two are written by separate statements; the log is to say what
the columns say (`Grown`), after any run.
-/

namespace ChronoSynth.Persona

variable {env : Env} {t : Tx} {db : TenantDb}

/-- What the events of a persona add up to in one of their columns. -/
def sumOfGrowth (delta : PersonaGrowthEvent → ℚ) (db : TenantDb) (personaId : Id) : ℚ :=
  ((db.growthEvents.filter fun e => e.personaId = personaId).map delta).sum

/-- The persona is what its log says. -/
structure PersonaCore.Grown (db : TenantDb) (pc : PersonaCore) : Prop where
  reputation : pc.reputation = 50 + sumOfGrowth PersonaGrowthEvent.reputationDelta db pc.id
  growthIndex : pc.growthIndex = sumOfGrowth PersonaGrowthEvent.growthDelta db pc.id
  trainingInvestment :
    pc.trainingInvestment = sumOfGrowth PersonaGrowthEvent.trainingDelta db pc.id

/-! ## Personas as aggregates -/

/-- What a persona has grown to. -/
def PersonaCore.growth (pc : PersonaCore) : ℚ × ℚ × ℚ :=
  (pc.reputation, pc.growthIndex, pc.trainingInvestment)

/-- What an event adds to it. -/
def PersonaGrowthEvent.deltas (e : PersonaGrowthEvent) : ℚ × ℚ × ℚ :=
  (e.reputationDelta, e.growthDelta, e.trainingDelta)

/-- The personas are the replays of their log. -/
def GrowthReplays (db : TenantDb) : Prop :=
  Replays PersonaCore.id PersonaCore.growth PersonaGrowthEvent.personaId
    (fun growth e => growth + e.deltas) (50, 0, 0) db.personas db.growthEvents

theorem GrowthReplays.grown (h : GrowthReplays db) : ∀ pc ∈ db.personas, pc.Grown db := by
  intro pc hpc
  have hvalue := (h.value_eq pc hpc).trans (replay_add (M := ℚ × ℚ × ℚ))
  set events := db.growthEvents.filter fun e => e.personaId = pc.id
  have hsum : (events.map PersonaGrowthEvent.deltas).sum =
      ((events.map PersonaGrowthEvent.reputationDelta).sum,
        (events.map PersonaGrowthEvent.growthDelta).sum,
        (events.map PersonaGrowthEvent.trainingDelta).sum) := by
    induction events with
    | nil => rfl
    | cons e events ih =>
      simp only [List.map_cons, List.sum_cons, ih]
      rfl
  rw [hsum] at hvalue
  simp only [PersonaCore.growth, Prod.mk_add_mk, Prod.mk.injEq, zero_add] at hvalue
  exact ⟨hvalue.1, hvalue.2.1, hvalue.2.2⟩

/-- **Step lemma**: whoever changes what a persona has grown to writes it to the log. -/
theorem GrowthReplays.exec (h : GrowthReplays db) (hn : db.Numbered) (ht : t.Named db) :
    GrowthReplays (exec env t db).1 := by
  have ep : _ → _ = _ := exec_agree env t db .personas
  have ee : _ → _ = _ := exec_agree env t db .growthEvents
  cases t with
  | createPersona u =>
    exact h.created rfl fun pc hpc => (hn.personas.lt hpc).ne
  | activatePersona k => exact h.kept (fun _ => rfl) fun _ => rfl
  | deactivatePersona k => exact h.kept (fun _ => rfl) fun _ => rfl
  | approveTransfer k x u =>
    rw [exec_approveTransfer]
    split
    · exact h.kept (fun _ => rfl) fun _ => rfl
    · exact h
  | addKnowledge k g r =>
    refine h.logged ht (by simp) (fun _ => rfl) fun pc => ?_
    simp [PersonaCore.growth, PersonaCore.knowledgeSync, PersonaGrowthEvent.deltas]
  | addGovernanceEvent k r g next =>
    rw [exec_addGovernanceEvent]
    refine h.logged ht (by simp) (fun _ => rfl) fun pc => ?_
    by_cases hne : g ≠ 0 ∨ r ≠ 0
    · rw [if_pos hne]
      simp [PersonaCore.growth, PersonaCore.governanceEvent, PersonaGrowthEvent.deltas]
    · -- no event is written, and nothing is added
      rw [if_neg hne]
      rw [not_or, not_not, not_not] at hne
      simp [PersonaCore.growth, PersonaCore.governanceEvent, hne]
  | applyGovernanceAction g k action dur actor next r =>
    rw [exec_applyGovernanceAction]
    split
    · refine h.logged ht (by simp) (fun _ => rfl) fun pc => ?_
      by_cases hne : r = 0
      · simp [PersonaCore.growth, PersonaCore.governanceAction, hne]
      · simp [PersonaCore.growth, PersonaCore.governanceAction, PersonaGrowthEvent.deltas, hne]
    · exact h
  | acceptSubmittedTask a =>
    rw [exec_acceptSubmittedTask]
    split
    · refine h.logged ht (by simp) (fun _ => rfl) fun pc => ?_
      simp [PersonaCore.growth, PersonaCore.taskAccepted, PersonaGrowthEvent.deltas]
    · exact h
  | completeTask c =>
    obtain ⟨e, -⟩ | ⟨-, -, e⟩ := exec_completeTask_cases env db c
    · rwa [e]
    · rw [e]
      refine h.logged ht (by simp) (fun _ => rfl) fun pc => ?_
      simp [PersonaCore.growth, PersonaCore.taskCompleted, PersonaGrowthEvent.deltas]
  | _ =>
    rw [GrowthReplays, ep (by simp [Tx.writes]), ee (by simp [Tx.writes])]
    exact h

/-- **The log replays to the personas** after every run of all calls, in any order of their reads and
transactions. -/
theorem personas_grown (users : List Id) (ms : List PersonaMove) :
    Always PersonaPool.step (fun p => ∀ pc ∈ p.db.personas, pc.Grown p.db)
      (PersonaPool.init users) ms := by
  have h : Always PersonaPool.step (fun p => GrowthReplays p.db) (PersonaPool.init users) ms :=
    PersonaPool.always_of_named .empty fun _ _ _ hn _ ht h => h.exec hn ht
  exact h.mono fun p h => h.grown

end ChronoSynth.Persona

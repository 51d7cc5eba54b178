import ChronoSynth.Persona.System

/-!
# What each transaction does

One equation for each transaction: the tables it leaves behind and the reply, or the condition under
which it is rolled back. The transactions that have to win an update — their update must affect one
row — are rolled back unless the row is there in the expected state (`claims_iff`).

Settlement makes its checks in the transaction; `Settles` collects them.
-/

namespace ChronoSynth.Persona

variable (env : Env) (db : TenantDb)

section
variable {env db} {t : Tx}

/-- A transaction that has to win an update: `n` rows were affected. -/
theorem exec_claim {n : ℕ} {m m' : TxM Reply} {db₁ db' : TenantDb} {r : Reply} {e : PersonaError}
    (hb : t.body env db = (if n ≠ 1 then m' else m : TxM Reply) db₁)
    (hm' : m' db₁ = .error e) (hm : m db₁ = .ok (r, db')) :
    exec env t db = if n = 1 then (db', r) else (db, .failed e) := by
  by_cases hn : n = 1
  · rw [if_pos hn]
    rw [if_neg (not_not.2 hn)] at hb
    exact exec_of_ok (hb.trans hm)
  · rw [if_neg hn]
    rw [if_pos hn] at hb
    exact exec_of_error (hb.trans hm')

end

/-! ## Personas -/

section personas
variable (personaId ownerUserId : Id)

theorem exec_createPersona : exec env (.createPersona ownerUserId) db =
    ({ db with
        personas := db.personas ++ [.create env.now db.personas.length ownerUserId 50]
        wallets := db.wallets ++ [.create env.now db.wallets.length db.personas.length] },
      .inserted db.personas.length) := rfl

theorem exec_createFork : exec env (.createFork personaId) db =
    ({ db with forks := db.forks ++ [⟨db.forks.length, personaId⟩] },
      .inserted db.forks.length) := rfl

theorem exec_activatePersona : exec env (.activatePersona personaId) db =
    ({ db with personas := Table.update (·.id = personaId) (·.activate env.now) db.personas },
      .committed) := rfl

theorem exec_deactivatePersona : exec env (.deactivatePersona personaId) db =
    ({ db with personas := Table.update (·.id = personaId) (·.deactivate env.now) db.personas },
      .committed) := rfl

theorem exec_requestTransfer (u v : Id) : exec env (.requestTransfer personaId u v) db =
    ({ db with transfers := db.transfers ++
        [.create personaId env.now db.transfers.length u v] },
      .inserted db.transfers.length) := rfl

theorem exec_approveTransfer (transferId u : Id) :
    exec env (.approveTransfer personaId transferId u) db =
      if db.transfers.countP (fun t => t.id = transferId ∧ t.status = .pending_review) = 1 then
        ({ db with
            personas := Table.update (·.id = personaId) (·.transferOwner env.now u) db.personas
            transfers := Table.update (·.id = transferId) (·.complete env.now)
              (Table.update (fun t => t.id = transferId ∧ t.status = .pending_review)
                (·.approve env.now) db.transfers) },
          .committed)
      else (db, .failed .TransferClaimLostError) :=
  exec_claim rfl rfl rfl

theorem exec_addKnowledge (g r : ℚ) : exec env (.addKnowledge personaId g r) db =
    ({ db with
        growthEvents := db.growthEvents ++
          [⟨db.growthEvents.length, personaId, none, .knowledge_sync, g, r, 0, env.now⟩]
        personas := Table.update (·.id = personaId) (·.knowledgeSync env.now g r) db.personas },
      .committed) := rfl

theorem exec_addGovernanceEvent (r g : ℚ) (next : Option PersonaCoreStatus) :
    exec env (.addGovernanceEvent personaId r g next) db =
    ({ db with
        growthEvents := db.growthEvents ++ if g ≠ 0 ∨ r ≠ 0 then
          [⟨db.growthEvents.length, personaId, none, .governance, g, r, 0, env.now⟩] else []
        personas := Table.update (·.id = personaId)
          (·.governanceEvent env.now r g (next.map fun st => (st, toLegacyStatus st)))
          db.personas },
      .committed) := by
  refine exec_of_ok ?_
  simp only [Tx.body, addGovernanceEventTx]
  split
  · rfl
  · rw [List.append_nil]
    rfl

end personas

/-! ## Governance -/

theorem exec_openGovernanceCase (personaId : Id) (taskId : Option Id)
    (severity : GovernanceCaseSeverity) :
    exec env (.openGovernanceCase personaId taskId severity) db =
      match getPersonaById db personaId with
      | none => (db, .committed)
      | some _ =>
        ({ db with cases := db.cases ++
            [.create env.now db.cases.length personaId taskId severity] },
          .inserted db.cases.length) := by
  cases h : getPersonaById db personaId with
  | none =>
    refine exec_of_ok ?_
    change (match getPersonaById db personaId with | none => _ | some _ => _ : TxM Reply) _ = _
    rw [h]
    rfl
  | some pc =>
    refine exec_of_ok ?_
    change (match getPersonaById db personaId with | none => _ | some _ => _ : TxM Reply) _ = _
    rw [h]
    rfl

theorem exec_applyGovernanceAction (caseId personaId : Id) (actionType : GovernanceActionType)
    (dur : Option ℕ) (actor : Id) (next : PersonaCoreStatus) (r : ℚ) :
    exec env (.applyGovernanceAction caseId personaId actionType dur actor next r) db =
      if db.cases.countP (fun c => c.id = caseId ∧ c.status ≠ .resolved) = 1 then
        ({ db with
            actions := db.actions ++ [⟨db.actions.length, caseId, actionType, dur, actor, env.now⟩]
            cases := Table.update (fun c => c.id = caseId ∧ c.status ≠ .resolved)
              (·.act (caseStatusForAction actionType)
                (if caseStatusForAction actionType = .resolved then some env.now else none))
              db.cases
            personas := Table.update (·.id = personaId)
              (·.governanceAction env.now r next (toLegacyStatus next)) db.personas
            growthEvents := db.growthEvents ++ if r ≠ 0 then
              [⟨db.growthEvents.length, personaId, none, .governance, 0, r, 0, env.now⟩] else [] },
          .inserted db.actions.length)
      else (db, .failed .GovernanceClaimLostError) := by
  by_cases hr : r = 0
  · subst hr
    simp only [ne_eq, not_true, if_false, List.append_nil]
    exact exec_claim rfl rfl rfl
  · rw [if_pos hr]
    refine exec_claim rfl rfl ?_
    simp only [ne_eq, hr, not_false_eq_true, if_true]
    rfl

theorem exec_appealGovernanceCase (caseId : Id) :
    exec env (.appealGovernanceCase caseId) db =
      if db.cases.countP (fun c => c.id = caseId ∧ c.status ≠ .resolved ∧ c.status ≠ .appealed) = 1
      then
        ({ db with
            cases := Table.update
              (fun c => c.id = caseId ∧ c.status ≠ .resolved ∧ c.status ≠ .appealed)
              (·.appeal env.now) db.cases },
          .committed)
      else (db, .failed .GovernanceClaimLostError) :=
  exec_claim rfl rfl rfl

/-! ## Tasks, applications and assignments -/

section marketplace
variable (taskId personaId assignmentId resultId : Id)

theorem exec_publishTask (u : Id) (reward : ℚ) (currency : String) :
    exec env (.publishTask u reward currency) db =
    ({ db with tasks := db.tasks ++ [.publish env.now db.tasks.length u reward currency] },
      .inserted db.tasks.length) := rfl

theorem exec_applyToTask : exec env (.applyToTask taskId personaId) db =
    if ∃ a ∈ db.applications, a.taskId = taskId ∧ a.personaId = personaId then
      (db, .failed (.UniqueViolation .task_applications))
    else
      ({ db with applications := db.applications ++
          [.create taskId env.now db.applications.length personaId] },
        .inserted db.applications.length) := by
  split
  next h =>
    refine exec_of_error ?_
    simp only [Tx.body, applyToTaskTx, generateId, createTaskApplication, bind, StateT.bind,
      Except.bind, if_pos h]
  next h =>
    refine exec_of_ok ?_
    simp only [Tx.body, applyToTaskTx, generateId, createTaskApplication, bind, StateT.bind,
      Except.bind, if_neg h]
    rfl

theorem exec_assignTask (applicationId : Id) :
    exec env (.assignTask taskId personaId applicationId) db =
    ({ db with
        assignments := db.assignments ++
          [.create taskId env.now db.assignments.length personaId (some applicationId)]
        applications := Table.update (·.taskId = taskId) (·.mark env.now applicationId)
          db.applications
        tasks := Table.update (fun t => t.id = taskId ∧ t.status = .open)
          (·.assign env.now personaId) db.tasks },
      .inserted db.assignments.length) := rfl

theorem exec_acceptTask (forkId : Option Id) :
    exec env (.acceptTask taskId personaId forkId) db =
    ({ db with
        tasks := Table.update (fun t => t.id = taskId ∧ t.status = .open)
          (·.accept env.now personaId forkId) db.tasks
        assignments := db.assignments ++
          [.create taskId env.now db.assignments.length personaId none] },
      .committed) := rfl

theorem exec_submitTaskResult : exec env (.submitTaskResult taskId assignmentId) db =
    ({ db with
        results := db.results ++ [.create taskId assignmentId env.now db.results.length]
        assignments := Table.update (·.id = assignmentId) (·.submit env.now) db.assignments
        tasks := Table.update (·.id = taskId) (·.touch env.now) db.tasks },
      .inserted db.results.length) := rfl

theorem exec_acceptSubmittedTask (a : TaskAcceptance) :
    exec env (.acceptSubmittedTask a) db =
      if db.tasks.countP (fun t => t.id = a.taskId ∧ t.status = .accepted) = 1 then
        ({ db with
            results := Table.update (·.id = a.resultId)
              (·.accept env.now a.qualityScore a.clientRating) db.results
            assignments := Table.update (fun x => x.id = a.assignmentId ∧ x.status = .submitted)
              (·.accept env.now) db.assignments
            tasks := Table.update (fun t => t.id = a.taskId ∧ t.status = .accepted)
              (·.complete env.now a.qualityScore a.growthDelta) db.tasks
            personas := Table.update (·.id = a.personaId)
              (·.taskAccepted env.now a.growthDelta a.reputationDelta) db.personas
            growthEvents := db.growthEvents ++
              [⟨db.growthEvents.length, a.personaId, some a.taskId, .task_completed,
                a.growthDelta, a.reputationDelta, 0, env.now⟩] },
          .committed)
      else (db, .failed .LeaseLostError) :=
  exec_claim rfl rfl rfl

theorem exec_rejectSubmittedTask (applicationId : Option Id) :
    exec env (.rejectSubmittedTask taskId assignmentId resultId applicationId) db =
      if db.tasks.countP (fun t => t.id = taskId ∧ t.status = .accepted) = 1 then
        ({ db with
            results := Table.update (·.id = resultId) (·.reject env.now) db.results
            assignments := Table.update (fun x => x.id = assignmentId ∧ x.status = .submitted)
              TaskAssignment.reject db.assignments
            applications := Table.update (fun x => some x.id = applicationId) (·.reject env.now)
              db.applications
            tasks := Table.update (fun t => t.id = taskId ∧ t.status = .accepted)
              (·.reopen env.now) db.tasks },
          .committed)
      else (db, .failed .LeaseLostError) := by
  cases applicationId with
  | none =>
    have hsame : Table.update (fun x => some x.id = none) (·.reject env.now) db.applications
        = db.applications := Table.update_eq_self (by simp)
    rw [hsame]
    exact exec_claim rfl rfl rfl
  | some applicationId =>
    simp only [Option.some.injEq]
    exact exec_claim rfl rfl rfl

theorem exec_disputeTask (resultId : Option Id) :
    exec env (.disputeTask taskId assignmentId resultId) db =
    ({ db with
        assignments := Table.update (·.id = assignmentId) TaskAssignment.dispute db.assignments
        results := Table.update (fun x => some x.id = resultId) (·.dispute env.now) db.results
        tasks := Table.update (·.id = taskId) (·.touch env.now) db.tasks },
      .committed) := by
  cases resultId with
  | none =>
    have hsame : Table.update (fun x => some x.id = none) (·.dispute env.now) db.results
        = db.results := Table.update_eq_self (by simp)
    rw [hsame]
    rfl
  | some resultId =>
    simp only [Option.some.injEq]
    rfl

end marketplace

/-! ## Sessions -/

section sessions
variable (sessionId : Id)

theorem exec_createRuntimeSession (personaId taskId assignmentId : Id) (ms : ℕ) :
    exec env (.createRuntimeSession personaId taskId assignmentId ms) db =
    ({ db with
        sessions := db.sessions ++
          [.create env db.sessions.length personaId taskId assignmentId ms]
        assignments := Table.update (·.id = assignmentId) (·.link db.sessions.length)
          db.assignments },
      .inserted db.sessions.length) := rfl

theorem exec_planRuntimeSession (ms : ℕ) : exec env (.planRuntimeSession sessionId ms) db =
    ({ db with sessions := Table.update (·.id = sessionId) (·.renew env .EXECUTE ms) db.sessions },
      .committed) := rfl

theorem exec_executeRuntimeSession (assignmentId : Option Id) (ms : ℕ) :
    exec env (.executeRuntimeSession sessionId assignmentId ms) db =
    ({ db with
        sessions := Table.update (·.id = sessionId) (·.renew env .EVALUATE ms) db.sessions
        assignments := Table.update
          (fun a => some a.id = assignmentId ∧ (a.status = .assigned ∨ a.status = .in_progress))
          (·.start env.now) db.assignments },
      .committed) := by
  cases assignmentId with
  | none =>
    have hsame : Table.update
        (fun a => some a.id = none ∧ (a.status = .assigned ∨ a.status = .in_progress))
        (·.start env.now) db.assignments = db.assignments := Table.update_eq_self (by simp)
    rw [hsame]
    rfl
  | some assignmentId =>
    simp only [Option.some.injEq]
    rfl

theorem exec_evaluateRuntimeSession (ms : ℕ) : exec env (.evaluateRuntimeSession sessionId ms) db =
    ({ db with
        sessions := Table.update (·.id = sessionId) (·.renew env .MEMORY_UPDATE ms) db.sessions },
      .committed) := rfl

theorem exec_completeRuntimeSession : exec env (.completeRuntimeSession sessionId) db =
    ({ db with sessions := Table.update (·.id = sessionId) (·.complete env) db.sessions },
      .committed) := rfl

theorem exec_retryRuntimeSession (st st' : RuntimeSessionState) (ms : ℕ) :
    exec env (.retryRuntimeSession sessionId st st' ms) db =
    ({ db with
        sessions := Table.update (fun s => s.id = sessionId ∧ s.state = st')
          (·.retry env st ms) db.sessions },
      .affected (db.sessions.countP fun s => s.id = sessionId ∧ s.state = st')) := rfl

theorem exec_timeoutRuntimeSession (st : RuntimeSessionState) :
    exec env (.timeoutRuntimeSession sessionId st) db =
    ({ db with
        sessions := Table.update (fun s => s.id = sessionId ∧ s.state = st)
          (·.timeout env) db.sessions },
      .affected (db.sessions.countP fun s => s.id = sessionId ∧ s.state = st)) := rfl

end sessions

end ChronoSynth.Persona

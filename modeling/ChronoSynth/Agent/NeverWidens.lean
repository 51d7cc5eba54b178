import ChronoSynth.Agent.AutoAuthorization
import ChronoSynth.Lib.Solo

/-!
# Automatic authorisation and human decisions

Runs of the bridge may overlap with one another and with grants and revocations by people. What is asked of them
(`NeverWidens`): a permission is written only for a suggestion that may be used, under the whitelist, and expires;
a revoked permission stays revoked until a person grants it again; a live one does not become more permissive; the
other suggestions have one pending request each when the run is over; and the permissions do not depend on the order
of the suggestions.

A grant replaces the row of its tool whatever is in it. So this holds in exactly the runs in which a grant finds no
row, or one that is not revoked and, if it is live, restricts nothing that the grant does not restrict
(`neverWidens_iff`).
-/

namespace ChronoSynth.Agent

/-! ## What is asked -/

/-- What the first scope allows includes what the second allows. -/
def ToolScope.Covers (old new : ToolScope) : Prop := old = .any ∨ old = new

/-- The first constraints restrict all that the second do. An empty allow list restricts nothing. -/
structure ToolConstraints.Within (new old : ToolConstraints) : Prop where
  daily : ∀ n, old.maxActionsPerDay = some n → ∃ m, new.maxActionsPerDay = some m ∧ m ≤ n
  confirmation : old.requireConfirmation = some true → new.requireConfirmation = some true
  budget : ∀ n, old.budgetLimitCents = some n → ∃ m, new.budgetLimitCents = some m ∧ m ≤ n
  allowed : ∀ l, old.allowList = some l → l ≠ [] → ∃ l', new.allowList = some l' ∧ l' ≠ [] ∧ l' ⊆ l
  denied : old.denyList.getD [] ⊆ new.denyList.getD []

namespace ToolPermission

/-- The first permission is no more permissive than the second. -/
structure Within (new old : ToolPermission) : Prop where
  scope : old.scope.Covers new.scope
  constraints : new.constraints.Within old.constraints
  expiry : ∀ t, old.expiresAt = some t → ∃ t', new.expiresAt = some t' ∧ t' ≤ t

/-- The permission is neither revoked nor expired. -/
def Live (now : ℚ) (row : ToolPermission) : Prop :=
  row.revokedAt = none ∧ ∀ t, row.expiresAt = some t → now ≤ t

/-- What a permission says, without what identifies it. -/
def terms (row : ToolPermission) : ToolScope × ToolConstraints × String × Option ℚ × Option ℚ :=
  (row.scope, row.constraints, row.grantedBy, row.expiresAt, row.revokedAt)

theorem Within.refl (row : ToolPermission) : row.Within row where
  scope := .inr rfl
  constraints := ⟨fun n h => ⟨n, h, le_rfl⟩, fun h => h, fun n h => ⟨n, h, le_rfl⟩,
    fun l h hl => ⟨l, h, hl, List.Subset.refl l⟩, List.Subset.refl _⟩
  expiry t h := ⟨t, h, le_rfl⟩

end ToolPermission

namespace Db

/-- The permission has been revoked, and not granted again. -/
def Revoked (db : Db) (key : PermissionKey) : Prop :=
  ∃ row, db.permissions.get? key = some row ∧ row.revokedAt ≠ none

def Whitelisted (db : Db) (key : PermissionKey) (policy : ToolAutoAuthPolicy) : Prop :=
  db.whitelistEntry key = some (.policy policy)

end Db

namespace AuthPool

variable (p : AuthPool) (m : AuthMove)

def Writes (a : RunInput) (env : Env) (g : ToolPermissionGrantParams) : Prop :=
  ∃ i l k, m = .go i env ∧ p.threads[i]? = some ⟨.run a, l, .txn (.grant g) k⟩

/-- The move is a person's grant of the permission. -/
def HumanGrants (key : PermissionKey) : Prop :=
  ∃ i env input l g k, m = .go i env ∧ p.threads[i]? = some ⟨.grant input, l, .txn (.grant g) k⟩ ∧ g.key = key

def StepsRun (env : Env) : Prop := ∃ i a l q, m = .go i env ∧ p.threads[i]? = some ⟨.run a, l, q⟩

end AuthPool

/-- A suggestion allows the permission: it may be used now, it is of low risk, its tool is on the whitelist, and the
permission expires, no later than the whitelist and the suggestion say. -/
def Warranted (a : RunInput) (g : ToolPermissionGrantParams) (db : Db) : Prop :=
  ∃ e ∈ db.eligibility, ∃ policy, ∃ t, a.Valid e ∧ e.riskClass = .low ∧ g.key = a.permissionKey e ∧
    db.Whitelisted g.key policy ∧ g.expiresAt = some t ∧ t ≤ a.now + policy.maxExpiryMs.val ∧
    ∀ x, e.expiresAt = some x → t ≤ x

def LeftToPerson (a : RunInput) (db : Db) (e : CapabilityToolEligibility) : Prop :=
  ¬ (e.riskClass = .low ∧ ∃ policy, db.Whitelisted (a.permissionKey e) policy)

/-- Every run that is over has returned, and every suggestion that it leaves to a person has one pending request. -/
def Answered (p : AuthPool) : Prop :=
  ∀ th ∈ p.threads, ∀ a, th.call = .run a → th.prog.Done → (∃ answer, th.prog = .ret answer) ∧
    ∀ e ∈ p.db.eligibility, a.Valid e → LeftToPerson a p.db e →
      p.db.requests.rows.countP (fun r => r.PendingFor (a.requestKey e)) = 1

/-- Runs of the call alone leave the same terms in whatever order they list the suggestions. -/
def OrderFree (a : RunInput) (db : Db) : Prop :=
  ∀ os os' : ℕ → Env, ∀ key,
    (((runBridge a).solo exec os db).1.permissions.get? key).map ToolPermission.terms =
      (((runBridge a).solo exec os' db).1.permissions.get? key).map ToolPermission.terms

structure NeverWidens (db : Db) (ms : List AuthMove) : Prop where
  warranted : Along AuthPool.step (fun p m => ∀ a env g, AuthPool.Writes p m a env g → g.scope ≠ none →
    Warranted a g p.db) (Pool.idle db) ms
  revoked : ∀ key, Between AuthPool.step (fun p m => ¬ AuthPool.HumanGrants p m key)
    (fun p p' => p.db.Revoked key → p'.db.Revoked key) (Pool.idle db) ms
  narrow : Along AuthPool.step (fun p m => ∀ env, AuthPool.StepsRun p m env → ∀ key row row',
    p.db.permissions.get? key = some row → row.Live env.now →
      (AuthPool.step p m).db.permissions.get? key = some row' → row'.Within row) (Pool.idle db) ms
  requested : Always AuthPool.step Answered (Pool.idle db) ms
  ordered : Always AuthPool.step (fun p => ∀ th ∈ p.threads, ∀ a, th.call = .run a → OrderFree a p.db)
    (Pool.idle db) ms

/-! ## When it holds -/

/-- The row restricts nothing that a grant for the suggestion under the policy does not restrict. -/
structure RoomFor (a : RunInput) (policy : ToolAutoAuthPolicy) (e : CapabilityToolEligibility)
    (row : ToolPermission) : Prop where
  scope : row.scope = .any ∨ row.scope = policy.scope
  daily : row.constraints.maxActionsPerDay = none
  budget : row.constraints.budgetLimitCents = none
  allowed : row.constraints.allowList.getD [] = []
  denied : row.constraints.denyList.getD [] = []
  confirmation : row.constraints.requireConfirmation = some true → policy.requireConfirmation ≠ some false
  expiry : ∀ t, row.expiresAt = some t →
    a.now + policy.maxExpiryMs.val ≤ t ∨ ∃ x, e.expiresAt = some x ∧ x ≤ t

/-- Two suggestions for one tool on the whitelist expire at one time, or both not before the whitelist says. -/
def SameExpiry (a : RunInput) (db : Db) : Prop :=
  ∀ e ∈ db.eligibility, ∀ e' ∈ db.eligibility, a.Valid e → a.Valid e' → e.riskClass = .low → e'.riskClass = .low →
    e.toolId = e'.toolId → ∀ policy, db.Whitelisted (a.permissionKey e) policy → ∀ x x', e.expiresAt = some x →
      e'.expiresAt = some x' →
        x = x' ∨ a.now + policy.maxExpiryMs.val ≤ x ∧ a.now + policy.maxExpiryMs.val ≤ x'

/-- What a run comes to grant is on the whitelist, and the tool has no permission, or one that is not revoked and,
if it is live, has room for it; and a run that is started finds no two suggestions that let one tool be used for
different times. -/
def FindsRoom (p : AuthPool) (m : AuthMove) : Prop :=
  (∀ a env g, AuthPool.Writes p m a env g → ∃ e ∈ p.db.eligibility, ∃ policy, a.Valid e ∧ e.riskClass = .low ∧
    p.db.Whitelisted (a.permissionKey e) policy ∧ g = a.grantParams e (.policy policy) ∧
    ∀ row, p.db.permissions.get? (a.permissionKey e) = some row →
      row.revokedAt = none ∧ (row.Live env.now → RoomFor a policy e row)) ∧
  ∀ a, m = .call (.run a) → SameExpiry a p.db

/-! ## Commands -/

variable {a : RunInput} {env : Env} {cmd : Cmd} {db db' : Db} {g : ToolPermissionGrantParams}
  {e : CapabilityToolEligibility} {key : PermissionKey} {row : ToolPermission} {policy : ToolAutoAuthPolicy}

/-- What no command changes, and the requests that only a decision ends. -/
structure Extends (db db' : Db) : Prop where
  eligibility : db'.eligibility = db.eligibility
  governance : db'.governance = db.governance
  pending : ∀ key, db.Pending key → db'.Pending key

theorem Extends.refl (db : Db) : Extends db db := ⟨rfl, rfl, fun _ => id⟩

theorem Extends.trans {db'' : Db} (h : Extends db db') (h' : Extends db' db'') : Extends db db'' :=
  ⟨h'.eligibility.trans h.eligibility, h'.governance.trans h.governance, fun key hp => h'.pending key (h.pending key hp)⟩

theorem Extends.whitelistEntry (h : Extends db db') : db'.whitelistEntry = db.whitelistEntry := by
  funext key
  simp only [Db.whitelistEntry, Db.whitelist, h.governance]

theorem Extends.whitelisted (h : Extends db db') : db'.Whitelisted key policy ↔ db.Whitelisted key policy := by
  rw [Db.Whitelisted, h.whitelistEntry, ← Db.Whitelisted]

theorem pending_insert {requests : RequestTable} {input : CreateToolAuthorizationRequestInput} {id : ℕ}
    (h : ¬ ∃ r ∈ requests.rows, r.PendingFor input.key) : input.row id ∈ (requests.insert input id h).rows :=
  List.mem_append_right _ (List.mem_singleton_self _)

theorem extends_exec : Extends db (exec env cmd db).1 := by
  cases cmd with
  | grant p =>
    simp only [exec]
    split <;> exact ⟨rfl, rfl, fun _ h => h⟩
  | revoke | revokeByKey => exact ⟨rfl, rfl, fun _ h => h⟩
  | insertRequest input =>
    simp only [exec]
    split
    · exact ⟨rfl, rfl, fun _ h => h⟩
    · exact ⟨rfl, rfl, fun key ⟨r, hr, hp⟩ => ⟨r, List.mem_append_left _ hr, hp⟩⟩

theorem pending_exec {input : CreateToolAuthorizationRequestInput} :
    (exec env (.insertRequest input) db).1.Pending input.key := by
  simp only [exec]
  split
  next h => exact h
  next h => exact ⟨input.row db.draws, pending_insert h, rfl, rfl⟩

theorem get?_exec_grant {scope : ToolScope} (hg : g.scope = some scope) :
    (exec env (.grant g) db).1.permissions.get? key =
      if key = g.key then some (db.grantedRow env.now g scope) else db.permissions.get? key := by
  simp only [exec, hg]
  exact RowMap.get?_set

theorem exec_grant_none (hg : g.scope = none) :
    (exec env (.grant g) db).1.permissions = db.permissions ∧ (exec env (.grant g) db).2 = .notNull := by
  simp only [exec, hg]
  trivial

theorem exec_grant_some {scope : ToolScope} (hg : g.scope = some scope) :
    (exec env (.grant g) db).2 = .rowsAffected 1 := by
  simp only [exec, hg]

theorem Revoked_revokeWhere {now : ℚ} {p : ToolPermission → Prop} [DecidablePred p] (h : db.Revoked key) :
    (db.revokeWhere now p).1.Revoked key := by
  obtain ⟨row, hget, hrev⟩ := h
  obtain ⟨hmem, hkey⟩ := RowMap.get?_eq_some.1 hget
  refine ⟨row, RowMap.get?_eq_some.2 ⟨List.mem_map.2 ⟨row, hmem, ?_⟩, hkey⟩, hrev⟩
  exact if_neg fun h => hrev h.2

theorem revoked_exec (h : db.Revoked key) (hcmd : ∀ g, cmd = .grant g → g.key = key → g.scope = none) :
    (exec env cmd db).1.Revoked key := by
  cases cmd with
  | grant g =>
    cases hs : g.scope with
    | none =>
      rw [Db.Revoked, (exec_grant_none hs).1]
      exact h
    | some scope =>
      have hne : key ≠ g.key := fun hk => by
        have := hcmd g rfl hk.symm
        rw [hs] at this
        cases this
      rw [Db.Revoked, get?_exec_grant hs, if_neg hne]
      exact h
  | revoke | revokeByKey => exact Revoked_revokeWhere h
  | insertRequest input =>
    simp only [exec]
    split <;> exact h

theorem permissions_exec_insertRequest {input : CreateToolAuthorizationRequestInput} :
    (exec env (.insertRequest input) db).1.permissions = db.permissions := by
  simp only [exec]
  split <;> rfl

/-! ## What a run hands over -/

/-- A command of a run: a request, or a grant for a suggestion that may be used under an entry for its tool. -/
def Grants (a : RunInput) (_ : List (Cmd × Reply)) (cmd : Cmd) (db : Db) : Prop :=
  match cmd with
  | .grant g => ∃ e ∈ db.eligibility, ∃ entry, a.Valid e ∧ e.riskClass = .low ∧
    db.whitelistEntry (a.permissionKey e) = some entry ∧ g = a.grantParams e entry
  | .insertRequest _ => True
  | .revoke .. | .revokeByKey .. => False

/-- A grant without a scope has been handed over. -/
def Refused (l : List (Cmd × Reply)) : Prop := ∃ x ∈ l, ∃ g, x.1 = .grant g ∧ g.scope = none

/-- A run that returns leaves the requests it should; one that throws has had a grant refused. -/
def Ends {α : Type} (a : RunInput) (l : List (Cmd × Reply)) (r : Except Reply α) (db : Db) : Prop :=
  match r with
  | .ok _ => ∀ e ∈ db.eligibility, a.Valid e → LeftToPerson a db e → db.Pending (a.requestKey e)
  | .error _ => Refused l

/-- What a call may rely on. -/
def trust : Discipline Db Cmd Env where
  inv _ := True
  ext := Extends
  guar _ _ := True
  may _ _ _ := True
  ext_refl := Extends.refl
  ext_trans := Extends.trans

theorem Extends.leftToPerson (h : Extends db db') : LeftToPerson a db' e ↔ LeftToPerson a db e := by
  simp only [LeftToPerson, h.whitelisted]

theorem createIfAbsent_traces {input : CreateToolAuthorizationRequestInput} {l : List (Cmd × Reply)} :
    (createIfAbsent input).Traces trust exec (Grants a) (fun l r db' => match r with
      | .ok _ => Extends db db' ∧ db'.Pending input.key
      | .error _ => Refused l) l db := by
  unfold createIfAbsent
  refine Prog.Traces.query fun db₁ h₁ _ => ?_
  by_cases hex : db₁.Pending input.key
  · rw [if_pos (decide_eq_true hex)]
    exact fun db₂ h₂ _ => ⟨h₁.trans h₂, h₂.pending _ hex⟩
  · rw [if_neg (by simpa using hex)]
    refine Prog.Traces.transaction fun db₂ h₂ _ => ⟨trivial, fun env => ?_⟩
    have hend : ∀ db₃, Extends (exec env (.insertRequest input) db₂).1 db₃ → True →
        Extends db db₃ ∧ db₃.Pending input.key := fun db₃ h₃ _ =>
      ⟨h₁.trans (h₂.trans (extends_exec.trans h₃)), h₃.pending _ pending_exec⟩
    split <;> exact hend

theorem handle_traces (he : e ∈ db.eligibility) (hv : a.Valid e) {l : List (Cmd × Reply)}
    {result : ToolAutoAuthorizationResult} :
    (handle a (db.whitelistEntry (a.permissionKey e)) e result).Traces trust exec (Grants a) (fun l r db' => match r with
      | .ok _ => Extends db db' ∧ (LeftToPerson a db' e → db'.Pending (a.requestKey e))
      | .error _ => Refused l) l db := by
  unfold handle
  split
  next entry hentry hlow =>
    intro db₁ h₁ _
    refine ⟨?_, fun env => ?_⟩
    · exact ⟨e, h₁.eligibility ▸ he, entry, hv, hlow, by rw [h₁.whitelistEntry, hentry], rfl⟩
    · cases hs : (a.grantParams e entry).scope with
      | none =>
        rw [(exec_grant_none hs).2]
        exact fun db₂ h₂ _ => ⟨_, List.mem_append_right _ (List.mem_singleton_self _), _, rfl, hs⟩
      | some scope =>
        rw [exec_grant_some hs]
        intro db₂ h₂ _ _ db₃ h₃ _
        have h : Extends db db₃ := h₁.trans (extends_exec.trans (h₂.trans h₃))
        refine ⟨h, fun hleft => absurd ⟨hlow, ?_⟩ (h.leftToPerson.1 hleft)⟩
        cases entry with
        | policy policy => exact ⟨policy, hentry⟩
        | inherited => cases hs
  next hother =>
    refine Prog.Traces.bind (createIfAbsent_traces.mono (fun _ _ _ _ h => h) fun l r db₁ _ h => ?_)
    cases r with
    | error err => exact h
    | ok created =>
      have hend : ∀ db₂, Extends db₁ db₂ → True →
          Extends db db₂ ∧ (LeftToPerson a db₂ e → db₂.Pending (a.requestKey e)) := fun db₂ h₂ _ =>
        ⟨h.1.trans h₂, fun _ => h₂.pending _ h.2⟩
      cases created <;> exact hend

theorem handleAll_traces {entry : PermissionKey → Option WhitelistEntry} {rest : List CapabilityToolEligibility}
    {result : ToolAutoAuthorizationResult} {l : List (Cmd × Reply)} (hentry : entry = db.whitelistEntry)
    (hrest : ∀ e ∈ rest, e ∈ db.eligibility ∧ a.Valid e)
    (hdone : ∀ e ∈ db.eligibility, a.Valid e → e ∉ rest → LeftToPerson a db e → db.Pending (a.requestKey e)) :
    (handleAll a entry rest result).Traces trust exec (Grants a) (Ends a) l db := by
  induction rest generalizing result l db with
  | nil =>
    intro db₁ h₁ _ e he hv hleft
    rw [h₁.eligibility] at he
    exact h₁.pending _ (hdone e he hv List.not_mem_nil (h₁.leftToPerson.1 hleft))
  | cons e rest ih =>
    obtain ⟨he, hv⟩ := hrest e List.mem_cons_self
    refine Prog.Traces.bind (hentry ▸ (handle_traces he hv).mono (fun _ _ _ _ h => h) fun l r db₁ _ h => ?_)
    cases r with
    | error err => exact h
    | ok result =>
      obtain ⟨h₁, hpend⟩ := h
      change (handleAll a db.whitelistEntry rest result).Traces trust exec (Grants a) (Ends a) l db₁
      rw [← hentry]
      refine ih (hentry.trans h₁.whitelistEntry.symm) (fun e' he' => ?_) fun e' he' hv' hnot hleft => ?_
      · rw [h₁.eligibility]
        exact hrest e' (List.mem_cons_of_mem e he')
      · by_cases heq : e' = e
        · exact heq ▸ hpend (heq ▸ hleft)
        · rw [h₁.eligibility] at he'
          exact h₁.pending _ (hdone e' he' hv' (by simp [heq, hnot]) (h₁.leftToPerson.1 hleft))

theorem runBridge_traces {l : List (Cmd × Reply)} : (runBridge a).Traces trust exec (Grants a) (Ends a) l db := by
  unfold runBridge
  refine Prog.Traces.query fun db₁ h₁ _ => Prog.Traces.queryAny fun db₂ h₂ _ env => ?_
  have hmem : ∀ e, e ∈ (env.order (a.valid db₂)).val ↔ e ∈ db₂.eligibility ∧ a.Valid e := fun e => by
    rw [(env.order (a.valid db₂)).2.mem_iff]
    simp [RunInput.valid]
  refine handleAll_traces h₂.whitelistEntry.symm (fun e he => (hmem e).1 he) fun e he hv hnot => ?_
  exact absurd ((hmem e).2 ⟨he, hv⟩) hnot

/-! ## Refused grants -/

def EndsRefused {α : Type} (cmd : Cmd) (k : Reply → Call α) : Prop := ∀ g, cmd = .grant g → ∃ err, k .notNull = .throw err

theorem EndsRefused.bind {α β : Type} {k : Reply → Call α} {f : α → Call β} (h : EndsRefused cmd k) :
    EndsRefused cmd fun r => k r >>= f := by
  intro g hg
  obtain ⟨err, herr⟩ := h g hg
  exact ⟨err, by simp only [herr, Prog.throw_bind]⟩

theorem grant_each {p : ToolPermissionGrantParams} : (grant p).Each EndsRefused := by
  unfold grant
  refine ⟨fun g _ => ⟨.notNull, rfl⟩, fun r => ?_⟩
  cases r <;> exact trivial

theorem createIfAbsent_each {input : CreateToolAuthorizationRequestInput} : (createIfAbsent input).Each EndsRefused := by
  unfold createIfAbsent
  refine Prog.Each.bind (R := EndsRefused) (fun _ _ => trivial) (fun _ _ h => h.bind) fun existing => ?_
  cases existing with
  | true => exact trivial
  | false =>
    refine ⟨fun g hg => (by cases hg), fun r => ?_⟩
    cases r <;> exact trivial

theorem handle_each {entry : Option WhitelistEntry} {result : ToolAutoAuthorizationResult} :
    (handle a entry e result).Each EndsRefused := by
  unfold handle
  split
  · exact grant_each.bind (fun _ _ h => h.bind) fun _ _ _ => trivial
  · refine createIfAbsent_each.bind (fun _ _ h => h.bind) fun created => ?_
    cases created <;> exact trivial

theorem handleAll_each {entry : PermissionKey → Option WhitelistEntry} {l : List CapabilityToolEligibility}
    {result : ToolAutoAuthorizationResult} : (handleAll a entry l result).Each EndsRefused := by
  induction l generalizing result with
  | nil => exact trivial
  | cons e rest ih => exact handle_each.bind (fun _ _ h => h.bind) fun _ => ih

theorem start_each (c : AuthCall) : c.start.Each EndsRefused := by
  cases c with
  | run a =>
    refine Prog.Each.bind (R := EndsRefused) ?_ (fun _ _ h => h.bind) fun _ => trivial
    exact fun _ _ _ _ => handleAll_each
  | grant input => exact grant_each.bind (fun _ _ h => h.bind) fun _ => trivial
  | revoke | revokeByKey =>
    refine ⟨fun g hg => (by cases hg), fun r => ?_⟩
    cases r <;> exact trivial

/-! ## The order of the suggestions -/

abbrev Terms := ToolScope × ToolConstraints × String × Option ℚ × Option ℚ

def Db.terms (db : Db) (key : PermissionKey) : Option Terms := (db.permissions.get? key).map ToolPermission.terms

def RunInput.grantTerms (a : RunInput) (e : CapabilityToolEligibility) (policy : ToolAutoAuthPolicy) : Terms :=
  (policy.scope, (a.grantParams e (.policy policy)).constraints, a.grantedBy,
    some (policy.computeGrantExpiry a.now e.expiresAt), none)

/-- The terms that a suggestion gives the permission. -/
def RunInput.termsFor (a : RunInput) (entry : PermissionKey → Option WhitelistEntry) (key : PermissionKey)
    (e : CapabilityToolEligibility) : Option Terms :=
  match entry (a.permissionKey e), e.riskClass with
  | some (.policy policy), .low => if key = a.permissionKey e then some (a.grantTerms e policy) else none
  | _, _ => none

theorem termsFor_eq_some {entry : PermissionKey → Option WhitelistEntry} {t : Terms} :
    a.termsFor entry key e = some t ↔ ∃ policy, entry (a.permissionKey e) = some (.policy policy) ∧
      e.riskClass = .low ∧ key = a.permissionKey e ∧ t = a.grantTerms e policy := by
  unfold RunInput.termsFor
  split
  next policy hentry hlow =>
    rw [Option.ite_none_right_eq_some]
    constructor
    · rintro ⟨hkey, ht⟩
      exact ⟨policy, hentry, hlow, hkey, (Option.some.inj ht).symm⟩
    · rintro ⟨policy', hentry', -, hkey, rfl⟩
      obtain rfl : policy = policy' := by
        rw [hentry] at hentry'
        cases hentry'
        rfl
      exact ⟨hkey, rfl⟩
  next hnone =>
    refine iff_of_false nofun ?_
    rintro ⟨policy, hentry, hlow, -⟩
    exact hnone policy hentry hlow

/-- The last of the terms that the suggestions give. -/
def RunInput.lastTerms (a : RunInput) (entry : PermissionKey → Option WhitelistEntry) (key : PermissionKey)
    (l : List CapabilityToolEligibility) (before : Option Terms) : Option Terms :=
  (l.filterMap (a.termsFor entry key)).getLast?.or before

theorem lastTerms_cons {entry : PermissionKey → Option WhitelistEntry} {l : List CapabilityToolEligibility}
    {before : Option Terms} :
    a.lastTerms entry key (e :: l) before = a.lastTerms entry key l ((a.termsFor entry key e).or before) := by
  unfold RunInput.lastTerms
  cases h : a.termsFor entry key e with
  | none => rw [List.filterMap_cons_none h, Option.none_or]
  | some t =>
    rw [List.filterMap_cons_some h, List.getLast?_cons]
    cases (l.filterMap (a.termsFor entry key)).getLast? <;> rfl

theorem terms_exec_insertRequest {input : CreateToolAuthorizationRequestInput} :
    (exec env (.insertRequest input) db).1.terms key = db.terms key := by
  rw [Db.terms, permissions_exec_insertRequest, ← Db.terms]

theorem terms_exec_grant : (exec env (.grant (a.grantParams e (.policy policy))) db).1.terms key =
    if key = a.permissionKey e then some (a.grantTerms e policy) else db.terms key := by
  have hscope : (a.grantParams e (.policy policy)).scope = some policy.scope := rfl
  rw [Db.terms, get?_exec_grant hscope]
  change Option.map _ (if key = a.permissionKey e then _ else _) = _
  split <;> rfl

theorem handle_terms (key : PermissionKey) {entry : PermissionKey → Option WhitelistEntry}
    {result : ToolAutoAuthorizationResult} :
    (handle a (entry (a.permissionKey e)) e result).Ensures exec (fun r db' =>
      db'.terms key = (a.termsFor entry key e).or (db.terms key) ∧
        ∀ err, r = .error err → entry (a.permissionKey e) = some .inherited) db := by
  unfold handle
  split
  next entry' hentry hlow =>
    cases entry' with
    | policy policy =>
      intro env _
      refine ⟨?_, nofun⟩
      rw [terms_exec_grant]
      simp only [RunInput.termsFor, hentry, hlow]
      split <;> rfl
    | inherited =>
      have hnone : a.termsFor entry key e = none := by simp only [RunInput.termsFor, hentry]
      intro env
      rw [hnone]
      exact ⟨rfl, fun _ _ => hentry⟩
  next hother =>
    have hnone : a.termsFor entry key e = none := by
      refine Option.eq_none_iff_forall_ne_some.2 fun t ht => ?_
      obtain ⟨policy, hentry, hlow, -⟩ := termsFor_eq_some.1 ht
      exact hother _ hentry hlow
    rw [hnone, Option.none_or]
    refine Prog.Ensures.bind ?_
    unfold createIfAbsent
    refine Prog.Ensures.query ?_
    cases decide (db.Pending (a.requestInput e).key) with
    | true => exact ⟨rfl, nofun⟩
    | false =>
      intro env
      have hterms : (exec env (.insertRequest (a.requestInput e)) db).1.terms key = db.terms key :=
        terms_exec_insertRequest
      generalize (exec env (.insertRequest (a.requestInput e)) db).2 = reply
      cases reply <;> exact ⟨hterms, nofun⟩

/-- No entry is a property of the prototype, or none is a policy. -/
def Uniform (entry : PermissionKey → Option WhitelistEntry) (a : RunInput) : Prop :=
  (∀ e, entry (a.permissionKey e) ≠ some .inherited) ∨ ∀ e policy, entry (a.permissionKey e) ≠ some (.policy policy)

theorem uniform_whitelistEntry : Uniform db.whitelistEntry a := by
  cases h : db.whitelist a.tenantId a.personaId with
  | none =>
    refine .inr fun e policy he => ?_
    have hnone : db.whitelist (a.permissionKey e).tenantId (a.permissionKey e).personaId = none := h
    simp only [Db.whitelistEntry, hnone, Option.ite_none_right_eq_some] at he
    cases he.2
  | some whitelist =>
    refine .inl fun e he => ?_
    simp only [Db.whitelistEntry, RunInput.permissionKey, h] at he
    obtain ⟨_, -, he⟩ := Option.map_eq_some_iff.1 he
    cases he

theorem handleAll_terms {entry : PermissionKey → Option WhitelistEntry} (hentry : Uniform entry a)
    {l : List CapabilityToolEligibility} {result : ToolAutoAuthorizationResult} :
    (handleAll a entry l result).Ensures exec (fun _ db' => db'.terms key = a.lastTerms entry key l (db.terms key))
      db := by
  induction l generalizing result db with
  | nil => rfl
  | cons e rest ih =>
    refine Prog.Ensures.bind ((handle_terms key).mono fun r db' h => ?_)
    rw [lastTerms_cons, ← h.1]
    cases r with
    | ok result => exact ih
    | error err =>
      -- without a policy, there is nothing to grant
      have hnone : ∀ e, a.termsFor entry key e = none := fun e' => by
        refine Option.eq_none_iff_forall_ne_some.2 fun t ht => ?_
        obtain ⟨policy, he', -⟩ := termsFor_eq_some.1 ht
        exact hentry.elim (fun hne => hne e (h.2 err rfl)) fun hne => hne e' policy he'
      have hnil : rest.filterMap (a.termsFor entry key) = [] := List.filterMap_eq_nil_iff.2 fun e' _ => hnone e'
      change db'.terms key = (rest.filterMap (a.termsFor entry key)).getLast?.or (db'.terms key)
      rw [hnil]
      rfl

theorem solo_terms (os : ℕ → Env) : ((runBridge a).solo exec os db).1.terms key =
    a.lastTerms db.whitelistEntry key ((os 1).order (a.valid db)).val (db.terms key) :=
  (handleAll_terms uniform_whitelistEntry).solo fun n => os (n + 1 + 1)

/-! ### Suggestions for one tool -/

theorem min_eq_iff {b x x' : ℚ} : min b x = min b x' ↔ x = x' ∨ b ≤ x ∧ b ≤ x' := by
  constructor
  · intro h
    rcases le_total b x with hx | hx
    · rw [min_eq_left hx] at h
      exact .inr ⟨hx, h ▸ min_le_right b x'⟩
    · rcases le_total b x' with hx' | hx'
      · rw [min_eq_right hx, min_eq_left hx'] at h
        exact .inr ⟨h.ge, hx'⟩
      · rw [min_eq_right hx, min_eq_right hx'] at h
        exact .inl h
  · rintro (rfl | ⟨hx, hx'⟩)
    · rfl
    · rw [min_eq_left hx, min_eq_left hx']

/-- The list with one of its elements at the end. -/
def toLast (e : CapabilityToolEligibility) (l : List CapabilityToolEligibility) :
    { l' : List CapabilityToolEligibility // l'.Perm l } :=
  if h : e ∈ l then ⟨l.erase e ++ [e], (List.perm_append_singleton e _).trans (List.perm_cons_erase h).symm⟩
  else ⟨l, .refl l⟩

theorem lastTerms_toLast {entry : PermissionKey → Option WhitelistEntry} {l : List CapabilityToolEligibility} {t : Terms}
    {before : Option Terms} (he : e ∈ l) (ht : a.termsFor entry key e = some t) :
    a.lastTerms entry key (toLast e l).val before = some t := by
  rw [toLast, dif_pos he, RunInput.lastTerms, List.filterMap_append, List.filterMap_cons_some ht, List.filterMap_nil,
    List.getLast?_append, List.getLast?_singleton]
  rfl

theorem lastTerms_perm {entry : PermissionKey → Option WhitelistEntry} {l l' : List CapabilityToolEligibility}
    {before : Option Terms} (hl : l.Perm l')
    (hsame : ∀ e ∈ l, ∀ e' ∈ l, ∀ t t', a.termsFor entry key e = some t → a.termsFor entry key e' = some t' → t = t') :
    a.lastTerms entry key l before = a.lastTerms entry key l' before := by
  unfold RunInput.lastTerms
  have hperm := hl.filterMap (a.termsFor entry key)
  cases hts : l.filterMap (a.termsFor entry key) with
  | nil =>
    rw [hts] at hperm
    rw [List.nil_perm.1 hperm]
  | cons t ts =>
    -- all of them are the first
    have hall : ∀ t' ∈ l.filterMap (a.termsFor entry key), t' = t := fun t' ht' => by
      obtain ⟨e', he', ht'⟩ := List.mem_filterMap.1 ht'
      obtain ⟨e, he, ht⟩ := List.mem_filterMap.1 (hts ▸ List.mem_cons_self : t ∈ _)
      exact hsame e' he' e he t' t ht' ht
    have hrep := List.eq_replicate_of_mem hall
    rw [← hts]
    rw [hrep] at hperm ⊢
    rw [List.replicate_perm.1 hperm]

theorem whitelisted_unique {policy' : ToolAutoAuthPolicy} (h : db.Whitelisted key policy) (h' : db.Whitelisted key policy') :
    policy = policy' := by
  rw [Db.Whitelisted] at h h'
  rw [h] at h'
  cases h'
  rfl

theorem terms_eq_iff {e' : CapabilityToolEligibility} {x x' : ℚ} (hx : e.expiresAt = some x) (hx' : e'.expiresAt = some x') :
    a.grantTerms e policy = a.grantTerms e' policy ↔
      x = x' ∨ a.now + policy.maxExpiryMs.val ≤ x ∧ a.now + policy.maxExpiryMs.val ≤ x' := by
  rw [← min_eq_iff]
  simp [RunInput.grantTerms, RunInput.grantParams, hx, hx', ToolAutoAuthPolicy.computeGrantExpiry]

theorem orderFree_iff : OrderFree a db ↔ SameExpiry a db := by
  have hmem : ∀ e, e ∈ a.valid db ↔ e ∈ db.eligibility ∧ a.Valid e := fun e => by simp [RunInput.valid]
  constructor
  · intro h e he e' he' hv hv' hlow hlow' htool policy hpolicy x x' hx hx'
    have hkey : a.permissionKey e' = a.permissionKey e := by rw [RunInput.permissionKey, ← htool, RunInput.permissionKey]
    have hterms := termsFor_eq_some.2 ⟨policy, hpolicy, hlow, rfl, rfl⟩
    have hterms' := termsFor_eq_some.2 ⟨policy, hkey ▸ hpolicy, hlow', hkey.symm, rfl⟩
    -- once the one suggestion is listed last, once the other
    have hlast := h (fun _ => ⟨0, toLast e⟩) (fun _ => ⟨0, toLast e'⟩) (a.permissionKey e)
    change Db.terms _ _ = Db.terms _ _ at hlast
    rw [solo_terms, solo_terms, lastTerms_toLast ((hmem e).2 ⟨he, hv⟩) hterms,
      lastTerms_toLast ((hmem e').2 ⟨he', hv'⟩) hterms'] at hlast
    exact (terms_eq_iff hx hx').1 (Option.some.inj hlast)
  · intro h os os' key
    change Db.terms _ _ = Db.terms _ _
    rw [solo_terms, solo_terms]
    refine lastTerms_perm (((os 1).order (a.valid db)).2.trans ((os' 1).order (a.valid db)).2.symm)
      fun e he e' he' t t' ht ht' => ?_
    obtain ⟨he, hv⟩ := (hmem e).1 (((os 1).order (a.valid db)).2.mem_iff.1 he)
    obtain ⟨he', hv'⟩ := (hmem e').1 (((os 1).order (a.valid db)).2.mem_iff.1 he')
    obtain ⟨policy, hpolicy, hlow, hkey, rfl⟩ := termsFor_eq_some.1 ht
    obtain ⟨policy', hpolicy', hlow', hkey', rfl⟩ := termsFor_eq_some.1 ht'
    obtain rfl : policy = policy' := whitelisted_unique hpolicy (hkey ▸ hkey' ▸ hpolicy')
    obtain ⟨x, hx, -⟩ := hv.2.2.2.1
    obtain ⟨x', hx', -⟩ := hv'.2.2.2.1
    refine (terms_eq_iff hx hx').2 (h e he e' he' hv hv' hlow hlow' ?_ policy hpolicy x x' hx hx')
    exact congrArg PermissionKey.toolId (hkey.symm.trans hkey')

/-! ## Room -/

theorem within_iff (he : a.Valid e) : (db.grantedRow env.now (a.grantParams e (.policy policy)) policy.scope).Within row ↔
    RoomFor a policy e row := by
  obtain ⟨x, hx, -⟩ := he.2.2.2.1
  have hexp : (a.grantParams e (.policy policy)).expiresAt = some (min (a.now + policy.maxExpiryMs.val) x) := by
    simp [RunInput.grantParams, WhitelistEntry.computeGrantExpiry, ToolAutoAuthPolicy.computeGrantExpiry, hx]
  constructor
  · rintro ⟨hscope, ⟨hdaily, hconf, hbudget, hallow, hdeny⟩, hexpiry⟩
    refine ⟨hscope, ?_, ?_, ?_, ?_, fun h => ?_, fun t ht => ?_⟩
    · refine Option.eq_none_iff_forall_ne_some.2 fun n hn => ?_
      obtain ⟨m, hm, -⟩ := hdaily n hn
      cases hm
    · refine Option.eq_none_iff_forall_ne_some.2 fun n hn => ?_
      obtain ⟨m, hm, -⟩ := hbudget n hn
      cases hm
    · cases hl : row.constraints.allowList with
      | none => rfl
      | some l =>
        by_contra hne
        obtain ⟨l', hl', -⟩ := hallow l hl hne
        cases hl'
    · exact List.subset_nil.1 hdeny
    · have hc : some (WhitelistEntry.policy policy).confirms = some true := hconf h
      simpa [WhitelistEntry.confirms] using hc
    · obtain ⟨t', ht', hle⟩ := hexpiry t ht
      obtain rfl : min (a.now + policy.maxExpiryMs.val) x = t' := Option.some.inj (hexp.symm.trans ht')
      rcases min_le_iff.1 hle with h | h
      · exact .inl h
      · exact .inr ⟨x, hx, h⟩
  · rintro ⟨hscope, hdaily, hbudget, hallow, hdeny, hconf, hexpiry⟩
    refine ⟨hscope, ⟨fun n hn => ?_, fun h => ?_, fun n hn => ?_, fun l hl hne => ?_, ?_⟩, fun t ht => ?_⟩
    · rw [hdaily] at hn
      cases hn
    · change some (WhitelistEntry.policy policy).confirms = some true
      simpa [WhitelistEntry.confirms] using hconf h
    · rw [hbudget] at hn
      cases hn
    · rw [hl] at hallow
      exact absurd hallow hne
    · rw [hdeny]
      exact List.nil_subset _
    · refine ⟨_, hexp, min_le_iff.2 ?_⟩
      rcases hexpiry t ht with h | ⟨x', hx', h⟩
      · exact .inl h
      · obtain rfl : x = x' := Option.some.inj (hx.symm.trans hx')
        exact .inr h

theorem warranted_of_grantParams (he : e ∈ db.eligibility) (hv : a.Valid e) (hlow : e.riskClass = .low)
    (hpolicy : db.Whitelisted (a.permissionKey e) policy) : Warranted a (a.grantParams e (.policy policy)) db := by
  refine ⟨e, he, policy, policy.computeGrantExpiry a.now e.expiresAt, hv, hlow, rfl, hpolicy, rfl, ?_, fun x hx => ?_⟩
  · cases e.expiresAt with
    | none => exact le_rfl
    | some x => exact min_le_left _ _
  · rw [hx]
    exact min_le_right _ _

/-! ## Runs -/

/-- What a call may hand over. -/
def MayGrant : AuthCall → List (Cmd × Reply) → Cmd → Db → Prop
  | .run a => Grants a
  | .grant _ => fun _ _ _ => True
  | .revoke .. | .revokeByKey .. => fun _ cmd _ => ∀ g, cmd ≠ .grant g

/-- What a run ends with. -/
def MayEnd : AuthCall → List (Cmd × Reply) → Except Reply Answer → Db → Prop
  | .run a => Ends a
  | .grant _ | .revoke .. | .revokeByKey .. => fun _ _ _ => True

theorem start_traces (c : AuthCall) : c.start.Traces trust exec (MayGrant c) (MayEnd c) [] db := by
  cases c with
  | run a =>
    refine Prog.Traces.bind (runBridge_traces.mono (fun _ _ _ _ h => h) fun l r db' _ h => ?_)
    cases r with
    | ok result =>
      intro db'' h' _ e he hv hleft
      rw [h'.eligibility] at he
      exact h'.pending _ (h e he hv (h'.leftToPerson.1 hleft))
    | error err => exact h
  | grant => exact Prog.traces_any (fun _ _ _ => trivial) fun _ _ _ => trivial
  | revoke | revokeByKey =>
    refine Prog.Traces.transaction fun db₁ _ _ => ⟨fun g hg => (by cases hg), fun env => ?_⟩
    split <;> exact fun _ _ _ => trivial

theorem extends_step {p : AuthPool} {m : AuthMove} : Extends p.db (AuthPool.step p m).db := by
  obtain ⟨-, hdb⟩ | ⟨env, cmd, -, hdb⟩ := Pool.step_db AuthCall.start exec p m
  · rw [hdb]
    exact .refl _
  · rw [hdb]
    exact extends_exec

theorem traced_always {ms : List AuthMove} :
    Always AuthPool.step (Pool.Traced trust exec MayGrant MayEnd) (Pool.idle db) ms :=
  Always.of_inductive .idle fun _ _ h => h.step trivial extends_step fun c _ _ => start_traces c

theorem AuthPool.Writes.committing {p : AuthPool} {m : AuthMove} (h : p.Writes m a env g) :
    p.committing m = some (env, .grant g) := by
  obtain ⟨i, l, k, rfl, hi⟩ := h
  simp only [Pool.committing, hi]

theorem AuthPool.Writes.grants {p : AuthPool} {m : AuthMove} (h : p.Writes m a env g)
    (hp : p.Traced trust exec MayGrant MayEnd) : ∃ e ∈ p.db.eligibility, ∃ entry, a.Valid e ∧ e.riskClass = .low ∧
      p.db.whitelistEntry (a.permissionKey e) = some entry ∧ g = a.grantParams e entry := by
  obtain ⟨i, l, k, -, hi⟩ := h
  exact hp.committing trivial hi

/-- A move leaves the permissions, is a grant of a run, a person's grant, or a revocation, which leaves what a
permission allows. -/
theorem AuthPool.writes_or {p : AuthPool} {m : AuthMove} (hp : p.Traced trust exec MayGrant MayEnd)
    (hm : p.committing m = some (env, .grant g)) : (∃ a, AuthPool.Writes p m a env g) ∨ AuthPool.HumanGrants p m g.key := by
  cases m with
  | call c => cases hm
  | go i env' =>
    obtain ⟨rfl, c, l, k, hi⟩ := Pool.committing_go hm
    cases c with
    | run a => exact .inl ⟨a, i, l, k, rfl, hi⟩
    | grant input => exact .inr ⟨i, env', input, l, g, k, rfl, hi, rfl⟩
    | revoke | revokeByKey => exact absurd rfl (hp.committing trivial hi g)

theorem AuthPool.Writes.db_eq {p : AuthPool} {m : AuthMove} (h : p.Writes m a env g) :
    (AuthPool.step p m).db = (exec env (.grant g) p.db).1 := by
  have hm := h.committing
  obtain ⟨hnone, -⟩ | ⟨env', cmd, hm', hdb⟩ := Pool.step_db AuthCall.start exec p m
  · rw [hnone] at hm
    cases hm
  · obtain ⟨rfl, rfl⟩ : env' = env ∧ cmd = .grant g := by simpa [hm'] using hm
    exact hdb

theorem AuthPool.Writes.not_human {p : AuthPool} {m : AuthMove} (h : p.Writes m a env g) : ¬ p.HumanGrants m key := by
  obtain ⟨i, l, k, rfl, hi⟩ := h
  rintro ⟨i', env', input, l', g', k', hm, hi', -⟩
  cases hm
  rw [hi] at hi'
  cases hi'

section
variable {p : AuthPool} {m : AuthMove}

/-- **Step lemma** for revoked permissions. -/
theorem revoked_step (hp : p.Traced trust exec MayGrant MayEnd) (hhuman : ¬ p.HumanGrants m key)
    (hroom : ∀ a env g, p.Writes m a env g → g.scope ≠ none → ¬ p.db.Revoked g.key) (h : p.db.Revoked key) :
    (AuthPool.step p m).db.Revoked key := by
  obtain ⟨-, hdb⟩ | ⟨env, cmd, hm, hdb⟩ := Pool.step_db AuthCall.start exec p m
  · rwa [hdb]
  · rw [hdb]
    refine revoked_exec h fun g hcmd hkey => ?_
    subst hcmd
    by_contra hscope
    rcases AuthPool.writes_or hp hm with ⟨a, hw⟩ | hw
    · exact hroom a env g hw hscope (hkey ▸ h)
    · exact hhuman (hkey ▸ hw)

theorem AuthPool.Writes.written (h : p.Writes m a env g) {scope : ToolScope} (hs : g.scope = some scope) :
    (AuthPool.step p m).db.permissions.get? g.key = some (p.db.grantedRow env.now g scope) := by
  rw [h.db_eq, get?_exec_grant hs, if_pos rfl]

theorem AuthPool.Writes.not_revoked (h : p.Writes m a env g) (hscope : g.scope ≠ none) :
    ¬ (AuthPool.step p m).db.Revoked g.key := by
  obtain ⟨scope, hs⟩ := Option.ne_none_iff_exists'.1 hscope
  rintro ⟨row, hget, hrev⟩
  rw [h.written hs] at hget
  obtain rfl := Option.some.inj hget
  exact hrev rfl

/-- **Step lemma** for live permissions. -/
theorem narrow_step (hp : p.Traced trust exec MayGrant MayEnd) (hm : p.StepsRun m env)
    (hroom : ∀ a env g scope row, p.Writes m a env g → g.scope = some scope → p.db.permissions.get? g.key = some row →
      row.Live env.now → (p.db.grantedRow env.now g scope).Within row) {row' : ToolPermission}
    (hrow : p.db.permissions.get? key = some row) (hlive : row.Live env.now)
    (hrow' : (AuthPool.step p m).db.permissions.get? key = some row') : row'.Within row := by
  have hsame : (AuthPool.step p m).db.permissions.get? key = p.db.permissions.get? key → row'.Within row := fun h => by
    obtain rfl : row = row' := Option.some.inj (hrow.symm.trans (h.symm.trans hrow'))
    exact .refl row
  obtain ⟨-, hdb⟩ | ⟨env', cmd, hcommit, hdb⟩ := Pool.step_db AuthCall.start exec p m
  · exact hsame (by rw [hdb])
  obtain ⟨i, a, l, q, rfl, hi⟩ := hm
  obtain ⟨rfl, c, l', k, hi'⟩ := Pool.committing_go hcommit
  obtain ⟨⟩ := hi.symm.trans hi'
  have hgrants := hp.committing trivial hi
  cases cmd with
  | revoke | revokeByKey => exact hgrants.elim
  | insertRequest input => exact hsame (by rw [hdb, permissions_exec_insertRequest])
  | grant g =>
    cases hs : g.scope with
    | none => exact hsame (by rw [hdb, (exec_grant_none hs).1])
    | some scope =>
      have hget := hrow'
      rw [hdb, get?_exec_grant hs] at hget
      split at hget
      next hkey =>
        obtain rfl := Option.some.inj hget
        exact hroom a env g scope row ⟨i, l, k, rfl, hi⟩ hs (hkey ▸ hrow) hlive
      next hkey => exact hsame (by rw [hdb, get?_exec_grant hs, if_neg hkey])

theorem AuthPool.Writes.throws (h : p.Writes m a env g) (heach : ∀ th ∈ p.threads, th.prog.Each EndsRefused)
    (hscope : g.scope = none) : ∃ l err, ⟨.run a, l, .throw err⟩ ∈ (AuthPool.step p m).threads := by
  obtain ⟨i, l, k, rfl, hi⟩ := h
  obtain ⟨err, herr⟩ := (heach _ (List.mem_of_getElem? hi)).1 g rfl
  refine ⟨l ++ [(.grant g, .notNull)], err, ?_⟩
  have hlen : i < p.threads.length := (List.getElem?_eq_some_iff.1 hi).1
  have hstep : AuthPool.step p (.go i env) = p.goStep exec i env ⟨.run a, l, .txn (.grant g) k⟩ := by
    simp only [AuthPool.step, Pool.step, hi]
  rw [hstep]
  simp only [Pool.goStep, (exec_grant_none hscope).2, herr]
  exact List.mem_set hlen _

end

/-! ### What is over, and what was started -/

def NoneRefused (p : AuthPool) : Prop := ∀ th ∈ p.threads, ∀ a, th.call = .run a → ¬ Refused th.log

def StartedAgreed (p : AuthPool) : Prop := ∀ th ∈ p.threads, ∀ a, th.call = .run a → SameExpiry a p.db

theorem Extends.sameExpiry (h : Extends db db') : SameExpiry a db' ↔ SameExpiry a db := by
  simp only [SameExpiry, h.eligibility, h.whitelisted]

section
variable {p : AuthPool} {m : AuthMove}

theorem NoneRefused.step (h : NoneRefused p) (hroom : FindsRoom p m) : NoneRefused (AuthPool.step p m) := by
  rintro th hth a hcall ⟨x, hx, g, hg, hscope⟩
  obtain ⟨j, hj⟩ := List.mem_iff_getElem?.1 hth
  obtain (hnil | ⟨th₀, hj₀, hcall₀, hlog⟩) | ⟨env, cmd, l, k, rfl, hi, hlog⟩ := Pool.log_step hj
  · rw [hnil] at hx
    cases hx
  · exact h th₀ (List.mem_of_getElem? hj₀) a (hcall₀.trans hcall) ⟨x, hlog ▸ hx, g, hg, hscope⟩
  · rw [hlog] at hx
    rw [hcall] at hi
    rcases List.mem_append.1 hx with hx | hx
    · exact h _ (List.mem_of_getElem? hi) a rfl ⟨x, hx, g, hg, hscope⟩
    · obtain rfl := List.mem_singleton.1 hx
      obtain rfl : cmd = .grant g := hg
      -- what is granted is on the whitelist, so it has a scope
      obtain ⟨e, -, policy, -, -, -, rfl, -⟩ := hroom.1 a env g ⟨j, l, k, rfl, hi⟩
      cases hscope

theorem mem_threads_step {th : Thread AuthCall Db Cmd Reply Env Reply Answer} (h : th ∈ (AuthPool.step p m).threads) :
    (∃ th₀ ∈ p.threads, th₀.call = th.call) ∨ m = .call th.call := by
  obtain ⟨c, hm, -, hs⟩ | ⟨-, hs⟩ | ⟨i, o, c, l, f, hi, -, hs⟩ | ⟨i, o, c, l, t, k, hi, -, hs⟩ :=
    Pool.step_cases AuthCall.start exec p m
  · rw [AuthPool.step, hs] at h
    rcases List.mem_append.1 h with h | h
    · exact .inl ⟨th, h, rfl⟩
    · obtain rfl := List.mem_singleton.1 h
      exact .inr hm
  · rw [AuthPool.step, hs] at h
    exact .inl ⟨th, h, rfl⟩
  · rw [AuthPool.step, hs] at h
    rcases List.mem_or_eq_of_mem_set h with h | rfl
    · exact .inl ⟨th, h, rfl⟩
    · exact .inl ⟨_, List.mem_of_getElem? hi, rfl⟩
  · rw [AuthPool.step, hs] at h
    rcases List.mem_or_eq_of_mem_set h with h | rfl
    · exact .inl ⟨th, h, rfl⟩
    · exact .inl ⟨_, List.mem_of_getElem? hi, rfl⟩

theorem StartedAgreed.step (h : StartedAgreed p) (hroom : FindsRoom p m) : StartedAgreed (AuthPool.step p m) := by
  intro th hth a hcall
  rw [extends_step.sameExpiry]
  rcases mem_threads_step hth with ⟨th₀, hth₀, hcall₀⟩ | hm
  · exact h th₀ hth₀ a (hcall₀.trans hcall)
  · exact hroom.2 a (hcall ▸ hm)

theorem NoneRefused.answered (h : NoneRefused p) (hp : p.Traced trust exec MayGrant MayEnd) : Answered p := by
  rintro ⟨c, l, q⟩ hth a rfl hdone
  cases q with
  | read f | txn t k => exact hdone.elim
  | throw err => exact absurd (hp _ hth p.db (.refl _) trivial) (h _ hth a rfl)
  | ret answer =>
    refine ⟨⟨answer, rfl⟩, fun e he hv hleft => ?_⟩
    have hpend : p.db.Pending (a.requestKey e) := hp.returned trivial hth e he hv hleft
    obtain ⟨r, hr, hfor⟩ := hpend
    have hpos : 0 < p.db.requests.rows.countP (fun r => r.PendingFor (a.requestKey e)) :=
      List.countP_pos_iff.2 ⟨r, hr, by simpa using hfor⟩
    have hle := p.db.requests.unique (a.requestKey e)
    omega

end

theorem revoked_between_iff {ms : List AuthMove} (key : PermissionKey) :
    Between AuthPool.step (fun p m => ¬ AuthPool.HumanGrants p m key) (fun p p' => p.db.Revoked key → p'.db.Revoked key)
        (Pool.idle db) ms ↔
      Along AuthPool.step (fun p m => ¬ AuthPool.HumanGrants p m key → p.db.Revoked key →
        (AuthPool.step p m).db.Revoked key) (Pool.idle db) ms :=
  between_iff_along (fun _ h => h) fun _ _ _ h h' hrev => h' (h hrev)

/-- **Necessity**: a grant that finds no room is seen in what it leaves. -/
theorem NeverWidens.findsRoom {ms : List AuthMove} (h : NeverWidens db ms) :
    Along AuthPool.step FindsRoom (Pool.idle db) ms := by
  intro pre m hpre
  have hprefix : pre <+: ms := (List.prefix_append pre [m]).trans hpre
  refine ⟨fun a env g hw => ?_, fun a hm => ?_⟩
  · obtain ⟨e, he, entry, hv, hlow, hentry, rfl⟩ := hw.grants (traced_always pre hprefix)
    cases entry with
    | inherited =>
      have heach : Always AuthPool.step (fun p => ∀ th ∈ p.threads, th.prog.Each EndsRefused) (Pool.idle db) ms :=
        Pool.each_always start_each
      obtain ⟨l, err, hth⟩ := hw.throws (heach pre hprefix) rfl
      have hans := h.requested _ hpre
      rw [run_snoc] at hans
      obtain ⟨answer, hret⟩ := (hans _ hth a rfl trivial).1
      cases hret
    | policy policy =>
      refine ⟨e, he, policy, hv, hlow, hentry, rfl, fun row hrow => ⟨?_, fun hlive => ?_⟩⟩
      · by_contra hrev
        have hkept := (revoked_between_iff _).1 (h.revoked (a.permissionKey e)) pre m hpre hw.not_human ⟨row, hrow, hrev⟩
        exact hw.not_revoked nofun hkept
      · have hwritten := hw.written rfl
        obtain ⟨i, l, k, hm, hi⟩ := hw
        exact (within_iff hv).1 (h.narrow pre m hpre env ⟨i, a, l, _, hm, hi⟩ _ row _ hrow hlive hwritten)
  · subst hm
    have hord := h.ordered _ hpre
    rw [run_snoc] at hord
    exact orderFree_iff.1 (hord _ (List.mem_append_right _ (List.mem_singleton_self _)) a rfl)

/-- **Sufficiency.** -/
theorem neverWidens_of_findsRoom {ms : List AuthMove} (h : Along AuthPool.step FindsRoom (Pool.idle db) ms) :
    NeverWidens db ms := by
  have htraced : ∀ pre m, pre ++ [m] <+: ms →
      (run AuthPool.step (Pool.idle db) pre).Traced trust exec MayGrant MayEnd := fun pre m hpre =>
    traced_always pre ((List.prefix_append pre [m]).trans hpre)
  have hnone : Always AuthPool.step NoneRefused (Pool.idle db) ms :=
    Always.of_step (fun _ hth => (List.not_mem_nil hth).elim) (fun _ _ hp hm => hp.step hm) h
  have hagreed : Always AuthPool.step StartedAgreed (Pool.idle db) ms :=
    Always.of_step (fun _ hth => (List.not_mem_nil hth).elim) (fun _ _ hp hm => hp.step hm) h
  refine ⟨fun pre m hpre a env g hw _ => ?_, fun key => (revoked_between_iff key).2 fun pre m hpre hhuman => ?_,
    fun pre m hpre env hrun key row row' hrow hlive hrow' => ?_, fun pre hpre => ?_, fun pre hpre th hth a hcall => ?_⟩
  · obtain ⟨e, he, policy, hv, hlow, hpol, rfl, -⟩ := (h pre m hpre).1 a env g hw
    exact warranted_of_grantParams he hv hlow hpol
  · refine revoked_step (htraced pre m hpre) hhuman fun a env g hw _ => ?_
    obtain ⟨e, -, policy, -, -, -, rfl, hrow⟩ := (h pre m hpre).1 a env g hw
    rintro ⟨row, hget, hrev⟩
    exact hrev (hrow row hget).1
  · refine narrow_step (htraced pre m hpre) hrun (fun a env g scope row hw hs hget hlive => ?_) hrow hlive hrow'
    obtain ⟨e, -, policy, hv, -, -, rfl, hroom⟩ := (h pre m hpre).1 a env g hw
    obtain rfl : policy.scope = scope := Option.some.inj hs
    exact (within_iff hv).2 ((hroom row hget).2 hlive)
  · exact (hnone pre hpre).answered (traced_always pre hpre)
  · exact orderFree_iff.2 (hagreed pre hpre th hth a hcall)

/-- The requirements are met by exactly the runs in which what a run grants finds room. -/
theorem neverWidens_iff (db : Db) (ms : List AuthMove) :
    NeverWidens db ms ↔ Along AuthPool.step FindsRoom (Pool.idle db) ms :=
  ⟨NeverWidens.findsRoom, neverWidens_of_findsRoom⟩

/-! ## A permission that was revoked -/

theorem any_ne_execute : ToolScope.any ≠ .execute := by decide

/-- The permission of a tool has been revoked, which is on the whitelist and has a suggestion. -/
def revokedDb : Db where
  draws := 1
  permissions :=
    ⟨[⟨0, ⟨"t", "p", "tool"⟩, .read, ⟨none, some true, none, none, none⟩, "admin", 1, none, some 5, 0⟩], by simp⟩
  requests := ⟨[], fun _ => Nat.zero_le _⟩
  eligibility := [⟨"t", "p", "invoicing", "tool", "v1", "r1", .low, some 100, true⟩]
  governance _ _ := some ⟨some [("tool", ⟨.any, JsNumber.ofInt 50, none, any_ne_execute, by decide +kernel⟩)]⟩

def bridgeRun : RunInput := ⟨"t", ⟨[⟨"tool", none, false⟩], by simp⟩, 10, "p", "owner"⟩

def plainEnv : Env := ⟨10, fun l => ⟨l, .refl l⟩⟩

/-- A run that reads the whitelist and the suggestions and has come to its grant. -/
def untilGrant : List AuthMove := [.call (.run bridgeRun), .go 0 plainEnv, .go 0 plainEnv]

/-- A run gives the permission back that was taken. -/
theorem revoked_permission_revived : ¬ NeverWidens revokedDb (untilGrant ++ [.go 0 plainEnv]) := by
  intro h
  have hcalls : (run AuthPool.step (Pool.idle revokedDb) untilGrant).threads.map Thread.call = [.run bridgeRun] := rfl
  have hbefore : ((run AuthPool.step (Pool.idle revokedDb) untilGrant).db.permissions.get? ⟨"t", "p", "tool"⟩).map
      ToolPermission.revokedAt = some (some 5) := by decide +kernel
  have hafter : ((run AuthPool.step (Pool.idle revokedDb) (untilGrant ++ [.go 0 plainEnv])).db.permissions.get?
      ⟨"t", "p", "tool"⟩).map ToolPermission.revokedAt = some none := by decide +kernel
  have hhuman : ¬ AuthPool.HumanGrants (run AuthPool.step (Pool.idle revokedDb) untilGrant) (.go 0 plainEnv)
      ⟨"t", "p", "tool"⟩ := by
    rintro ⟨i, env, input, l, g, k, -, hi, -⟩
    have hmem := List.mem_map_of_mem (f := Thread.call) (List.mem_of_getElem? hi)
    rw [hcalls] at hmem
    cases List.mem_singleton.1 hmem
  obtain ⟨row, hrow, hrev⟩ := Option.map_eq_some_iff.1 hbefore
  obtain ⟨row', hrow', hrev'⟩ := h.revoked ⟨"t", "p", "tool"⟩ untilGrant [.go 0 plainEnv] (List.prefix_refl _)
    (along_cons.2 ⟨hhuman, along_nil⟩) ⟨row, hrow, by rw [hrev]; nofun⟩
  rw [hrow'] at hafter
  exact hrev' (Option.some.inj hafter)

end ChronoSynth.Agent

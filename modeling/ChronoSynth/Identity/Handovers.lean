import ChronoSynth.Identity.AuthService
import ChronoSynth.Lib.Traces

/-!
# Which commands a call hands over

Whatever a call reads, its commands are of a few kinds (`Call.May`, `Call.start_uses`).
-/

namespace ChronoSynth.Identity

open Prog

variable {ports : Ports} {S : Cmd → Prop}

theorem uses_send {cmd : Cmd} (h : S cmd) : (send cmd).Uses S :=
  .bind (.transaction h) fun r => by cases r <;> trivial

theorem uses_rows {cmd : Cmd} (h : S cmd) : (rows cmd).Uses S :=
  .bind (uses_send h) fun a => by cases a <;> trivial

theorem uses_checking {c : Prop} [Decidable c] {err : AuthError} : (checking c err).Uses S := by
  unfold checking
  split <;> trivial

theorem uses_ite {α : Type} {c : Prop} [Decidable c] {p q : IdentityCall α} (hp : p.Uses S) (hq : q.Uses S) :
    (if c then p else q).Uses S := by
  split
  · exact hp
  · exact hq

theorem readLookup_uses {lookup : Lookup} : (readLookup lookup).Uses S :=
  .bind .query fun row => by cases row <;> trivial

theorem resolveByRefreshTokenHash_uses {token : Token} : (resolveByRefreshTokenHash token).Uses S :=
  .bind .query fun row => by
    cases row with
    | none => trivial
    | some row => exact uses_ite trivial trivial

theorem completeEmailChange_uses {oldEmail newEmail operationId : String}
    (h : S (.completeEmailChange (ports.canonicalizeEmail oldEmail) (ports.canonicalizeEmail newEmail)
      operationId)) : (completeEmailChange ports oldEmail newEmail operationId).Uses S :=
  .bind (uses_send h) fun _ => trivial

theorem activateTenant_uses {email operationId : String}
    (h : S (.dirActivate (.email (ports.canonicalizeEmail email)) operationId)) :
    (activateTenant ports email operationId).Uses S :=
  .bind (uses_rows h) fun _ => trivial

def Issues (exchanged : Option Token) : Cmd → Prop
  | .createRefreshToken _ _ given => given = exchanged
  | .recordActiveLookup .. => True
  | _ => False

theorem generateTokenPair_uses {exchanged : Option Token} {userId : UserId} {tenantId : TenantId}
    (h : ∀ cmd, Issues exchanged cmd → S cmd) : (generateTokenPair userId tenantId exchanged).Uses S :=
  .bind (uses_send (h _ rfl)) fun a => by
    cases a with
    | rowsAffected => trivial
    | token =>
      exact .bind (.bind (uses_send (h _ trivial)) fun _ => .bind readLookup_uses fun _ => uses_checking)
        fun _ => trivial

/-- The commands that revoke. -/
def Revokes : Cmd → Prop
  | .revokeTokenByHash .. | .dirDeleteByLookup (.refresh_token_hash _) | .revokeTokensByUser .. => True
  | _ => False

/-- The commands a call may hand over. -/
def Call.May (ports : Ports) : Call → Cmd → Prop
  | .register email password operationId, cmd => Issues none cmd ∨
    (∃ salt, cmd = .reserveTenant (ports.canonicalizeEmail email) operationId (ports.hash salt password)) ∨
    (∃ tenantId userId, cmd = .createIdentity tenantId userId) ∨
    (∃ tenantId userId passwordHash, cmd =
      .createUser tenantId userId (ports.canonicalizeEmail email) passwordHash operationId) ∨
    cmd = .dirActivate (.email (ports.canonicalizeEmail email)) operationId
  | .login .., cmd => Issues none cmd
  | .refresh token, cmd => Issues (some token) cmd ∨ (∃ tenantId, cmd = .revokeTokenById tenantId token) ∨
    cmd = .dirDeleteByLookup (.refresh_token_hash token)
  | .logout .., cmd | .revokeByTokenHash _, cmd => Revokes cmd
  | .updateEmail tenantId userId email, cmd =>
    let newEmail := ports.canonicalizeEmail email
    let operationId := ports.changeOperationId tenantId userId newEmail
    (∃ oldEmail, cmd = .reserveEmailChange tenantId userId oldEmail newEmail operationId) ∨
      cmd = .updateEmail tenantId userId newEmail ∨
      ∃ oldEmail, cmd = .completeEmailChange oldEmail newEmail operationId
  | .reconcile, cmd => (∃ lookup operationId, cmd = .dirActivate lookup operationId) ∨
    (∃ oldEmail newEmail operationId, cmd = .completeEmailChange oldEmail newEmail operationId) ∨
    ∃ lookup operationId, cmd = .dirDeleteByLookupOp lookup operationId
  | .cleanupExpired shard cutoff, cmd => cmd = .cleanupExpiredTokens shard cutoff

theorem register_uses {email password operationId : String} :
    (register ports email password operationId).Uses (Call.May ports (.register email password operationId)) := by
  have hissue : ∀ cmd, Issues none cmd → Call.May ports (.register email password operationId) cmd :=
    fun _ h => .inl h
  have hactivate : Call.May ports (.register email password operationId)
      (.dirActivate (.email (ports.canonicalizeEmail (ports.canonicalizeEmail email))) operationId) := by
    rw [ports.canonicalizeEmail_idem]
    exact .inr (.inr (.inr (.inr rfl)))
  have hreserve : ∀ salt, Call.May ports (.register email password operationId) (.reserveTenant
      (ports.canonicalizeEmail (ports.canonicalizeEmail email)) operationId (ports.hash salt password)) := by
    intro salt
    rw [ports.canonicalizeEmail_idem]
    exact .inr (.inl ⟨salt, rfl⟩)
  have hconfirm : ∀ tenantId userId, (register.confirm ports operationId tenantId userId
      (ports.canonicalizeEmail email)).Uses (Call.May ports (.register email password operationId)) :=
    fun tenantId userId => .bind (activateTenant_uses hactivate) fun activated =>
      uses_ite (generateTokenPair_uses hissue)
        (.bind .query fun _ => .bind uses_checking fun _ => generateTokenPair_uses hissue)
  refine .bind .query fun _ => .bind uses_checking fun _ =>
    .bind_yields (R := fun firstHash => ∃ salt, firstHash = ports.hash salt password) .queryAny
      (fun e _ => ⟨e.salt, rfl⟩) ?_
  rintro _ ⟨salt, rfl⟩
  refine .bind (.bind (uses_send (hreserve salt)) fun _ => .bind readLookup_uses fun row => ?_) fun reserved => ?_
  · split
    · trivial
    · exact .bind uses_checking fun _ => trivial
  · refine uses_ite (.bind .query fun _ => trivial) ?_
    split
    · trivial
    · refine .bind uses_checking fun _ => .bind .query fun _ => uses_ite ?_ (hconfirm _ _)
      exact .bind (uses_send (.inr (.inr (.inl ⟨_, _, rfl⟩)))) fun _ =>
        .bind (uses_send (.inr (.inr (.inr (.inl ⟨_, _, _, rfl⟩))))) fun _ => hconfirm _ _

theorem login_uses {email password : String} : (login ports email password).Uses (Issues none) := by
  refine .bind .query fun entry => ?_
  cases entry with
  | none => trivial
  | some entry =>
    refine .bind uses_checking fun _ => ?_
    split
    · trivial
    · refine .bind .query fun user => ?_
      cases user with
      | none => trivial
      | some user =>
        exact .bind uses_checking fun _ => .bind uses_checking fun _ => generateTokenPair_uses fun _ h => h

theorem refresh_uses {token : Token} :
    (refresh ports token).Uses (Call.May ports (.refresh token)) := by
  refine .bind resolveByRefreshTokenHash_uses fun tenantId => ?_
  cases tenantId with
  | none => trivial
  | some tenantId =>
    -- the row that is found is the token's own
    refine .bind_yields (R := fun found => ∀ row ∈ found, row.tokenHash = token) .queryAny ?_ fun found hfound => ?_
    · intro e db row hrow
      exact (Table.find_spec (Option.filter_eq_some_iff.1 hrow).1).2.1
    · cases found with
      | none => trivial
      | some row =>
        obtain rfl := hfound row rfl
        refine .bind .query fun user => ?_
        cases user with
        | none => trivial
        | some user =>
          exact .bind (uses_send (.inr (.inl ⟨_, rfl⟩))) fun _ => .bind (uses_send (.inr (.inr rfl))) fun _ =>
            generateTokenPair_uses fun _ h => .inl h

theorem revokeByTokenHash_uses {token : Token} : (revokeByTokenHash token).Uses Revokes := by
  refine .bind resolveByRefreshTokenHash_uses fun tenantId => ?_
  cases tenantId with
  | none => trivial
  | some tenantId =>
    exact .bind (uses_send trivial) fun _ => .bind (uses_send trivial) fun _ => trivial

theorem logout_uses {token : Option Token} {jwtUser : Option (TenantId × UserId)} :
    (logout token jwtUser).Uses Revokes := by
  have hlast : (logout none jwtUser).Uses Revokes := by
    cases jwtUser with
    | none => trivial
    | some user => exact .bind (uses_send trivial) fun _ => trivial
  cases token with
  | none => exact hlast
  | some token => exact .bind revokeByTokenHash_uses fun _ => hlast

theorem readProfile_uses {tenantId : TenantId} {userId : UserId} :
    (updateEmail.readProfile ports tenantId userId).Uses S :=
  .bind .query fun user => by cases user <;> trivial

theorem updateEmail_uses {tenantId : TenantId} {userId : UserId} {email : String} :
    (updateEmail ports tenantId userId email).Uses (Call.May ports (.updateEmail tenantId userId email)) := by
  have hcanon := ports.canonicalizeEmail_idem email
  have hcomplete : ∀ oldEmail, Call.May ports (.updateEmail tenantId userId email) (.completeEmailChange oldEmail
      (ports.canonicalizeEmail (ports.canonicalizeEmail email))
      (ports.changeOperationId tenantId userId (ports.canonicalizeEmail email))) := by
    intro oldEmail
    rw [hcanon]
    exact .inr (.inr ⟨oldEmail, rfl⟩)
  have hreserve : ∀ oldEmail, Call.May ports (.updateEmail tenantId userId email) (.reserveEmailChange tenantId
      userId oldEmail (ports.canonicalizeEmail (ports.canonicalizeEmail email))
      (ports.changeOperationId tenantId userId (ports.canonicalizeEmail email))) := by
    intro oldEmail
    rw [hcanon]
    exact .inl ⟨oldEmail, rfl⟩
  refine .bind .query fun user => ?_
  cases user with
  | none => trivial
  | some user =>
    refine .bind uses_checking fun _ => uses_ite (.bind .query fun entry => ?_) ?_
    · split
      · exact uses_ite (.bind (completeEmailChange_uses (hcomplete _)) fun _ => readProfile_uses)
          readProfile_uses
      · exact readProfile_uses
    · exact .bind .query fun _ => .bind uses_checking fun _ =>
        .bind (.bind (uses_send (hreserve _)) fun _ => .bind readLookup_uses fun _ => uses_checking) fun _ =>
          .bind (uses_send (.inr (.inl rfl))) fun _ =>
            .bind (completeEmailChange_uses (hcomplete _)) fun _ => readProfile_uses

theorem isolated_uses {p : IdentityCall Unit} (h : p.Uses S) : (isolated p).Uses S := by
  induction p with
  | ret a | throw e => trivial
  | read f ih => exact fun e db => ih e db (h e db)
  | txn t k ih => exact ⟨h.1, fun r => ih r (h.2 r)⟩

theorem reconcileOne_uses {pending : DirectoryRow} :
    (reconcileOne ports pending).Uses (Call.May ports .reconcile) := by
  have hsettle : ∀ email shardEmail,
      (reconcileEmailChange.settle ports pending email shardEmail).Uses (Call.May ports .reconcile) := by
    intro email shardEmail
    refine uses_ite (completeEmailChange_uses (.inr (.inl ⟨_, _, _, rfl⟩))) (uses_ite ?_ trivial)
    exact .bind (uses_send (.inr (.inr ⟨_, _, rfl⟩))) fun _ => trivial
  unfold reconcileOne
  split
  · exact .bind .query fun boot => uses_ite trivial
      (.bind (activateTenant_uses (.inl ⟨_, _, rfl⟩)) fun _ => trivial)
  · unfold reconcileEmailChange
    split
    · exact hsettle _ _
    · exact .bind .query fun _ => hsettle _ _
  · trivial

theorem reconcile_uses : (reconcile ports).Uses (Call.May ports .reconcile) := by
  refine .bind .queryAny fun stale => ?_
  induction stale with
  | nil => trivial
  | cons pending rest ih => exact .bind (isolated_uses reconcileOne_uses) fun _ => ih

/-- **Every call only hands over its own commands.** -/
theorem Call.start_uses (c : Call) : (c.start ports).Uses (c.May ports) := by
  cases c with
  | register => exact .bind register_uses fun _ => trivial
  | login => exact .bind login_uses fun _ => trivial
  | refresh => exact .bind refresh_uses fun _ => trivial
  | logout => exact .bind logout_uses fun _ => trivial
  | revokeByTokenHash => exact .bind revokeByTokenHash_uses fun _ => trivial
  | updateEmail => exact .bind updateEmail_uses fun _ => trivial
  | reconcile => exact .bind reconcile_uses fun _ => trivial
  | cleanupExpired => exact .bind (uses_send rfl) fun _ => trivial

end ChronoSynth.Identity

import Mathlib.Logic.Relation
import ChronoSynth.Identity.Effects
import ChronoSynth.Identity.Handovers

/-!
# Refresh tokens

A refresh token is exchanged for a new pair, whose token may be exchanged in turn; a logout of a user revokes
the tokens there are. An exchange reads the row of its token, revokes it by an `UPDATE` that does not ask
whether it still is valid, and issues the successor, all in steps of their own: two exchanges of one token
that overlap both go through, and so does one that a logout comes between (`refreshTokens_singleUse`).
-/

namespace ChronoSynth.Identity

open Prog

/-! ## Histories -/

/-- What has been executed with what reply, the last first. -/
abbrev History := List (Cmd × Reply)

namespace History

variable (ports : Ports) (h : History)

def Issued (shard : ShardId) (userId : UserId) (token : Token) : Prop :=
  ∃ tenantId exchanged, ports.shardOf tenantId = shard ∧
    (Cmd.createRefreshToken tenantId userId exchanged, Except.ok (Answer.token token)) ∈ h

def Exchanged (token : Token) : Prop :=
  ∃ tenantId userId reply, (Cmd.createRefreshToken tenantId userId (some token), reply) ∈ h

def Revoked (token : Token) : Prop := ∃ tenantId reply, (Cmd.revokeTokenById tenantId token, reply) ∈ h

/-- The second token comes of the first by exchanges. -/
def Descends : Token → Token → Prop :=
  Relation.ReflTransGen fun token successor => ∃ tenantId userId,
    (Cmd.createRefreshToken tenantId userId (some token), Except.ok (Answer.token successor)) ∈ h

/-- After the token was issued, its user has logged out. -/
def Ended : History → Token → Prop
  | [], _ => False
  | (cmd, _) :: h, token => Ended h token ∨
    ∃ tenantId userId, cmd = .revokeTokensByUser tenantId userId ∧
      Issued ports h (ports.shardOf tenantId) userId token

/-- The token was issued before a logout of its user, or comes of one that was by exchanges. -/
def LoggedOut (token : Token) : Prop := ∃ ancestor, Ended ports h ancestor ∧ Descends h ancestor token

/-- Since the token was revoked by an exchange, its user has logged out. -/
def LogoutSince : History → Token → Prop
  | [], _ => False
  | (cmd, _) :: h, token => (∀ tenantId, cmd ≠ .revokeTokenById tenantId token) ∧ (LogoutSince h token ∨
    ∃ tenantId userId, cmd = .revokeTokensByUser tenantId userId ∧
      Issued ports h (ports.shardOf tenantId) userId token)

end History

section
variable (ports : Ports)

/-- What is to hold of a token that is exchanged: it has not been exchanged, and no logout has ended it. -/
def SingleUse (h : History) (cmd : Cmd) : Prop :=
  ∀ tenantId userId token, cmd = .createRefreshToken tenantId userId (some token) →
    ¬ h.Exchanged token ∧ ¬ h.LoggedOut ports token

/-- An exchange is left alone: when it revokes its token, the token is still valid, and when it issues the
successor, the user has not logged out since. -/
def ExchangeAlone (h : History) (cmd : Cmd) (db : Db) : Prop :=
  (∀ tenantId token, cmd = .revokeTokenById tenantId token →
    ((db.dbForTenant ports tenantId).refreshToken token).isSome) ∧
  ∀ tenantId userId token, cmd = .createRefreshToken tenantId userId (some token) →
    ¬ h.LogoutSince ports token

/-- A refresh that has returned has exchanged its token for the one it returns, and a logout of a user that
has returned has revoked his tokens. -/
def Answered (p : IdentityPool) : Prop :=
  (∀ token pair l, ⟨.refresh token, l, .ret (.tokens pair)⟩ ∈ p.threads → ∃ tenantId userId,
    (Cmd.createRefreshToken tenantId userId (some token), Except.ok (Answer.token pair.refreshToken)) ∈ l) ∧
  ∀ token tenantId userId l outcome, ⟨.logout token (some (tenantId, userId)), l, .ret outcome⟩ ∈ p.threads →
    ∃ reply, (Cmd.revokeTokensByUser tenantId userId, reply) ∈ l

/-- The identity services with the history of their commands. -/
abbrev recorded : IdentityPool × History → IdentityMove → IdentityPool × History :=
  noting (IdentityPool.step ports) (Pool.logging (Pool.record (exec ports)))

end

/-! ### Deciding -/

section
variable (ports : Ports) (h : History) (shard : ShardId) (userId : UserId) (token : Token) (cmd : Cmd)

instance : Decidable (h.Issued ports shard userId token) :=
  decidable_of_iff (h.any fun entry => match entry with
    | (.createRefreshToken tenantId user _, .ok (.token t)) =>
      ports.shardOf tenantId = shard ∧ user = userId ∧ t = token
    | _ => false) <| by
    rw [List.any_eq_true]
    constructor
    · rintro ⟨entry, hmem, hentry⟩
      split at hentry
      next tenantId user exchanged t =>
        obtain ⟨rfl, rfl, rfl⟩ := of_decide_eq_true hentry
        exact ⟨tenantId, exchanged, rfl, hmem⟩
      next => cases hentry
    · rintro ⟨tenantId, exchanged, rfl, hmem⟩
      exact ⟨_, hmem, by simp⟩

instance : Decidable (∀ tenantId, cmd ≠ .revokeTokenById tenantId token) :=
  match cmd with
  | .revokeTokenById tenantId given => decidable_of_iff (given ≠ token) (by simp)
  | .reserveTenant .. | .recordActiveLookup .. | .reserveEmailChange .. | .dirActivate .. | .dirDeleteByLookup ..
  | .dirDeleteByLookupOp .. | .completeEmailChange .. | .createIdentity .. | .createUser .. | .updateEmail ..
  | .createRefreshToken .. | .revokeTokenByHash .. | .revokeTokensByUser .. | .cleanupExpiredTokens .. =>
    isTrue nofun

instance : Decidable (∃ tenantId userId, cmd = .revokeTokensByUser tenantId userId ∧
    h.Issued ports (ports.shardOf tenantId) userId token) :=
  match cmd with
  | .revokeTokensByUser tenantId userId =>
    decidable_of_iff (h.Issued ports (ports.shardOf tenantId) userId token) (by simp)
  | .reserveTenant .. | .recordActiveLookup .. | .reserveEmailChange .. | .dirActivate .. | .dirDeleteByLookup ..
  | .dirDeleteByLookupOp .. | .completeEmailChange .. | .createIdentity .. | .createUser .. | .updateEmail ..
  | .createRefreshToken .. | .revokeTokenById .. | .revokeTokenByHash .. | .cleanupExpiredTokens .. =>
    isFalse nofun

instance History.LogoutSince.decidable : ∀ (h : History) (token : Token), Decidable (h.LogoutSince ports token)
  | [], _ => isFalse id
  | _ :: h, token =>
    have := History.LogoutSince.decidable h token
    inferInstanceAs (Decidable (_ ∧ (_ ∨ _)))

instance (db : Db) : Decidable (ExchangeAlone ports h cmd db) :=
  match cmd with
  | .revokeTokenById tenantId token =>
    decidable_of_iff ((db.dbForTenant ports tenantId).refreshToken token).isSome (by simp [ExchangeAlone])
  | .createRefreshToken tenantId userId (some token) =>
    decidable_of_iff (¬ h.LogoutSince ports token) (by simp [ExchangeAlone])
  | .createRefreshToken _ _ none
  | .reserveTenant .. | .recordActiveLookup .. | .reserveEmailChange .. | .dirActivate .. | .dirDeleteByLookup ..
  | .dirDeleteByLookupOp .. | .completeEmailChange .. | .createIdentity .. | .createUser .. | .updateEmail ..
  | .revokeTokenByHash .. | .revokeTokensByUser .. | .cleanupExpiredTokens .. => isTrue ⟨nofun, nofun⟩

end

variable {ports : Ports} {h H : History} {cmd : Cmd} {reply : Reply} {shard shard' : ShardId}
  {userId userId' : UserId} {token token' : Token}

namespace History

theorem Issued.mono (hi : Issued ports h shard userId token) (hsub : h ⊆ H) :
    Issued ports H shard userId token := by
  obtain ⟨tenantId, exchanged, hshard, hmem⟩ := hi
  exact ⟨tenantId, exchanged, hshard, hsub hmem⟩

theorem issued_cons : Issued ports ((cmd, reply) :: h) shard userId token ↔
    Issued ports h shard userId token ∨ ∃ tenantId exchanged, ports.shardOf tenantId = shard ∧
      cmd = .createRefreshToken tenantId userId exchanged ∧ reply = .ok (.token token) := by
  simp only [Issued, List.mem_cons, Prod.mk.injEq]
  constructor
  · rintro ⟨tenantId, exchanged, hshard, ⟨hc, hr⟩ | hmem⟩
    · exact .inr ⟨tenantId, exchanged, hshard, hc.symm, hr.symm⟩
    · exact .inl ⟨tenantId, exchanged, hshard, hmem⟩
  · rintro (⟨tenantId, exchanged, hshard, hmem⟩ | ⟨tenantId, exchanged, hshard, rfl, rfl⟩)
    · exact ⟨tenantId, exchanged, hshard, .inr hmem⟩
    · exact ⟨tenantId, exchanged, hshard, .inl ⟨rfl, rfl⟩⟩

theorem revoked_cons :
    Revoked ((cmd, reply) :: h) token ↔ Revoked h token ∨ ∃ tenantId, cmd = .revokeTokenById tenantId token := by
  simp only [Revoked, List.mem_cons, Prod.mk.injEq]
  constructor
  · rintro ⟨tenantId, r, ⟨hc, -⟩ | hmem⟩
    · exact .inr ⟨tenantId, hc.symm⟩
    · exact .inl ⟨tenantId, r, hmem⟩
  · rintro (⟨tenantId, r, hmem⟩ | ⟨tenantId, rfl⟩)
    · exact ⟨tenantId, r, .inr hmem⟩
    · exact ⟨tenantId, reply, .inl ⟨rfl, rfl⟩⟩

theorem descends_cons (hc : ∀ tenantId userId given, cmd ≠ .createRefreshToken tenantId userId (some given)) :
    Descends ((cmd, reply) :: h) token token' ↔ Descends h token token' := by
  have heq : ∀ a b, (∃ tenantId userId,
      (Cmd.createRefreshToken tenantId userId (some a), Except.ok (Answer.token b)) ∈ (cmd, reply) :: h) ↔
      ∃ tenantId userId, (Cmd.createRefreshToken tenantId userId (some a), Except.ok (Answer.token b)) ∈ h := by
    refine fun a b => exists_congr fun tenantId => exists_congr fun userId => ?_
    rw [List.mem_cons, or_iff_right fun he => hc _ _ _ (Prod.mk.inj he).1.symm]
  unfold Descends
  simp only [heq]

theorem descends_issue {tenantId : TenantId} {given fresh : Token}
    (hnew : ∀ shard userId, ¬ Issued ports h shard userId fresh) (hne : given ≠ fresh)
    (hchild : ¬ Exchanged h fresh)
    (hd : Descends ((.createRefreshToken tenantId userId (some given), .ok (.token fresh)) :: h) token token') :
    (token' ≠ fresh ∧ Descends h token token') ∨ (token' = fresh ∧ (token = fresh ∨ Descends h token given)) := by
  induction hd with
  | refl =>
    by_cases he : token = fresh
    · exact .inr ⟨he, .inl he⟩
    · exact .inl ⟨he, .refl⟩
  | @tail b c _ hbc ih =>
    obtain ⟨tenant, user, hstep⟩ := hbc
    rcases List.mem_cons.1 hstep with he | hmem
    · -- the new step: from `given` to `fresh`
      obtain ⟨hcmd, hreply⟩ := Prod.mk.inj he
      obtain ⟨-, -, hb⟩ := Cmd.createRefreshToken.inj hcmd
      obtain rfl := Option.some.inj hb
      obtain rfl : c = fresh := by simpa using hreply
      rcases ih with ⟨-, hd⟩ | ⟨rfl, -⟩
      · exact .inr ⟨rfl, .inr hd⟩
      · exact absurd rfl hne
    · have hc : c ≠ fresh := by
        rintro rfl
        exact hnew _ user ⟨tenant, some b, rfl, hmem⟩
      rcases ih with ⟨-, hd⟩ | ⟨rfl, -⟩
      · exact .inl ⟨hc, hd.tail ⟨tenant, user, hmem⟩⟩
      · exact absurd ⟨tenant, user, _, hmem⟩ hchild

theorem Ended.issued (he : Ended ports h token) : ∃ shard userId, Issued ports h shard userId token := by
  induction h with
  | nil => exact he.elim
  | cons e h ih =>
    obtain ⟨cmd, reply⟩ := e
    rcases he with he | ⟨tenantId, userId, -, hi⟩
    · obtain ⟨shard, userId, hi⟩ := ih he
      exact ⟨shard, userId, hi.mono (List.subset_cons_self _ _)⟩
    · exact ⟨_, userId, hi.mono (List.subset_cons_self _ _)⟩

end History

/-! ## Whose the tokens are -/

variable {e : Env} {db : Db}

/-- Every token has been issued, once, to the user its row names; and users are kept in the shard of their
tenant. -/
structure Sessions (ports : Ports) (db : Db) (h : History) : Prop where
  issued : ∀ shard, ∀ row ∈ (db.shard shard).refreshTokens, h.Issued ports shard row.userId row.tokenHash
  drawn : ∀ shard userId token, h.Issued ports shard userId token → token ∈ db.drawn
  once : ∀ shard shard' userId userId' token, h.Issued ports shard userId token →
    h.Issued ports shard' userId' token → shard = shard' ∧ userId = userId'
  home : ∀ shard, ∀ user ∈ (db.shard shard).users, ports.shardOf user.tenantId = shard

theorem Sessions.empty : Sessions ports .empty [] where
  issued _ _ h := (List.not_mem_nil h).elim
  drawn _ _ _ h := by
    obtain ⟨_, _, -, hmem⟩ := h
    exact (List.not_mem_nil hmem).elim
  once _ _ _ _ _ h := by
    obtain ⟨_, _, -, hmem⟩ := h
    exact (List.not_mem_nil hmem).elim
  home _ _ h := (List.not_mem_nil h).elim

theorem issued_new
    (hi : History.Issued ports ((cmd, (exec ports e cmd db).2) :: h) shard userId token) :
    h.Issued ports shard userId token ∨ (token = db.fresh e ∧ ∃ tenantId exchanged,
      ports.shardOf tenantId = shard ∧ cmd = .createRefreshToken tenantId userId exchanged) := by
  rcases History.issued_cons.1 hi with hi | ⟨tenantId, exchanged, hshard, hcmd, hr⟩
  · exact .inl hi
  · exact .inr ⟨(exec_reply cmd hr).1, tenantId, exchanged, hshard, hcmd⟩

theorem Sessions.exec (hs : Sessions ports db h) (cmd : Cmd) :
    Sessions ports (Identity.exec ports e cmd db).1 ((cmd, (Identity.exec ports e cmd db).2) :: h) where
  issued shard row hrow := by
    rcases exec_rows cmd row hrow with ⟨old, hold, hhash, huser, -⟩ | ⟨tenantId, userId, exchanged, rfl, rfl, rfl, hnew⟩
    · rw [← hhash, ← huser]
      exact (hs.issued shard old hold).mono (List.subset_cons_self _ _)
    · exact History.issued_cons.2 (.inr ⟨tenantId, exchanged, rfl, rfl, by rw [hnew]; rfl⟩)
  drawn shard userId token hi := by
    rcases issued_new hi with hi | ⟨rfl, tenantId, exchanged, -, rfl⟩
    · exact drawn_subset_exec cmd (hs.drawn shard userId token hi)
    · exact List.mem_cons_self
  once shard shard' userId userId' token hi hi' := by
    rcases issued_new hi with hi | ⟨rfl, tenantId, exchanged, rfl, rfl⟩
    · rcases issued_new hi' with hi' | ⟨rfl, -⟩
      · exact hs.once shard shard' userId userId' token hi hi'
      · exact absurd (hs.drawn _ _ _ hi) Db.fresh_not_mem
    · rcases issued_new hi' with hi' | ⟨-, tenantId', exchanged', rfl, heq⟩
      · exact absurd (hs.drawn _ _ _ hi') Db.fresh_not_mem
      · obtain ⟨rfl, rfl, -⟩ := Cmd.createRefreshToken.inj heq
        exact ⟨rfl, rfl⟩
  home shard user huser := by
    rcases exec_users cmd user huser with ⟨old, hold, -, htenant, -⟩ | ⟨_, rfl, -⟩
    · rw [← htenant]
      exact hs.home shard old hold
    · rfl

/-- A step of the services: the database and the history are left alone, or a command is executed and noted. -/
theorem recorded_cases (x : IdentityPool × History) (m : IdentityMove) :
    (x.1.committing m = none ∧ (recorded ports x m).1.db = x.1.db ∧ (recorded ports x m).2 = x.2) ∨
    ∃ e cmd, x.1.committing m = some (e, cmd) ∧ (recorded ports x m).1.db = (exec ports e cmd x.1.db).1 ∧
      (recorded ports x m).2 = (cmd, (exec ports e cmd x.1.db).2) :: x.2 :=
  Pool.logging_cases (Call.start ports) (exec ports) (Pool.record (exec ports)) x m

theorem sessions_always {ms : List IdentityMove} :
    Always (recorded ports) (fun x => Sessions ports x.1.db x.2) (.init, []) ms := by
  refine Always.of_inductive Sessions.empty fun x m hx => ?_
  obtain ⟨-, hdb, hh⟩ | ⟨e, cmd, -, hdb, hh⟩ := recorded_cases x m
  · rw [hdb, hh]
    exact hx
  · rw [hdb, hh]
    exact hx.exec cmd

/-! ## Tokens that are spent -/

theorem refreshToken_isSome {s : Shard} (hsome : (s.refreshToken token).isSome) :
    ∃ row ∈ s.refreshTokens, row.tokenHash = token ∧ row.isRevoked = false := by
  obtain ⟨row, hrow⟩ := Option.isSome_iff_exists.1 hsome
  exact ⟨row, Table.find_spec hrow⟩

/-- A token that is valid is neither revoked nor ended by a logout, and one that is both has been logged out
after it was revoked. -/
structure Spent (ports : Ports) (db : Db) (h : History) : Prop where
  live : ∀ shard, ∀ row ∈ (db.shard shard).refreshTokens, row.isRevoked = false →
    ¬ h.Revoked row.tokenHash ∧ ¬ h.LoggedOut ports row.tokenHash
  since : ∀ token, h.Revoked token → h.LoggedOut ports token → h.LogoutSince ports token
  heirs : ∀ shard userId token token', h.Descends token token' → h.Issued ports shard userId token →
    h.Issued ports shard userId token'
  known : ∀ token, h.Revoked token → ∃ shard userId, h.Issued ports shard userId token
  exchanged : ∀ token, h.Exchanged token → h.Revoked token

theorem Spent.empty : Spent ports .empty [] where
  live _ _ h := (List.not_mem_nil h).elim
  since _ h := by
    obtain ⟨_, _, hmem⟩ := h
    exact (List.not_mem_nil hmem).elim
  heirs _ _ _ _ _ h := by
    obtain ⟨_, _, -, hmem⟩ := h
    exact (List.not_mem_nil hmem).elim
  known _ h := by
    obtain ⟨_, _, hmem⟩ := h
    exact (List.not_mem_nil hmem).elim
  exchanged _ h := by
    obtain ⟨_, _, _, hmem⟩ := h
    exact (List.not_mem_nil hmem).elim

namespace Spent

/-- A number that is not drawn yet has no part in the history. -/
theorem fresh_unused (hs : Sessions ports db h) (hp : Spent ports db h) :
    (∀ shard userId, ¬ h.Issued ports shard userId (db.fresh e)) ∧ ¬ h.Revoked (db.fresh e) ∧
      ¬ h.Exchanged (db.fresh e) := by
  have hnew : ∀ shard userId, ¬ h.Issued ports shard userId (db.fresh e) :=
    fun shard userId hi => Db.fresh_not_mem (hs.drawn shard userId _ hi)
  have hrev : ¬ h.Revoked (db.fresh e) := by
    intro hr
    obtain ⟨shard, userId, hi⟩ := hp.known _ hr
    exact hnew shard userId hi
  exact ⟨hnew, hrev, fun hx => hrev (hp.exchanged _ hx)⟩

theorem not_loggedOut_fresh (hs : Sessions ports db h) (hp : Spent ports db h) :
    ¬ h.LoggedOut ports (db.fresh e) := by
  rintro ⟨ancestor, hended, hd⟩
  obtain ⟨shard, userId, hi⟩ := hended.issued
  exact (fresh_unused hs hp).1 shard userId (hp.heirs _ _ _ _ hd hi)

/-- **Whom a command ends**: those ended before; by a logout, what was issued to the user; and what is given
for one that is ended. -/
theorem loggedOut_cons (hs : Sessions ports db h) (hp : Spent ports db h)
    (hgiven : ∀ tenantId userId given, cmd = .createRefreshToken tenantId userId (some given) → h.Revoked given)
    (hl : History.LoggedOut ports ((cmd, (exec ports e cmd db).2) :: h) token) : h.LoggedOut ports token ∨
    (∃ tenantId userId, cmd = .revokeTokensByUser tenantId userId ∧
      h.Issued ports (ports.shardOf tenantId) userId token) ∨
    ∃ tenantId userId given, cmd = .createRefreshToken tenantId userId (some given) ∧ token = db.fresh e ∧
      h.LoggedOut ports given := by
  obtain ⟨ancestor, hended, hd⟩ := hl
  by_cases hc : ∃ tenantId userId given, cmd = .createRefreshToken tenantId userId (some given)
  · obtain ⟨tenantId, userId, given, rfl⟩ := hc
    obtain ⟨hnew, hrev, hchild⟩ := fresh_unused (e := e) hs hp
    have hne : given ≠ db.fresh e := fun he => hrev (he ▸ hgiven _ _ _ rfl)
    rcases hended with hended | ⟨_, _, hcmd, -⟩
    · rcases History.descends_issue hnew hne hchild hd with ⟨-, hd⟩ | ⟨rfl, rfl | hd⟩
      · exact .inl ⟨ancestor, hended, hd⟩
      · obtain ⟨shard, user, hi⟩ := hended.issued
        exact (hnew shard user hi).elim
      · exact .inr (.inr ⟨tenantId, userId, given, rfl, rfl, ancestor, hended, hd⟩)
    · cases hcmd
  · replace hd := (History.descends_cons fun tenantId userId given he => hc ⟨tenantId, userId, given, he⟩).1 hd
    rcases hended with hended | ⟨tenantId, userId, hcmd, hi⟩
    · exact .inl ⟨ancestor, hended, hd⟩
    · exact .inr (.inl ⟨tenantId, userId, hcmd, hp.heirs _ _ _ _ hd hi⟩)

theorem heir_eq (hx : ¬ h.Exchanged token) (hd : h.Descends token token') : token' = token := by
  rcases hd.cases_head with rfl | ⟨b, ⟨tenantId, userId, hmem⟩, -⟩
  · rfl
  · exact absurd ⟨tenantId, userId, _, hmem⟩ hx

theorem heirs_exec (hs : Sessions ports db h) (hp : Spent ports db h)
    (hH : ∀ shard shard' userId userId' token, H.Issued ports shard userId token →
      H.Issued ports shard' userId' token → shard = shard' ∧ userId = userId') (hsub : h ⊆ H)
    (hgiven : ∀ tenantId userId given, cmd = .createRefreshToken tenantId userId (some given) →
      h.Revoked given ∧ H.Issued ports (ports.shardOf tenantId) userId given)
    (hd : History.Descends ((cmd, (exec ports e cmd db).2) :: h) token token')
    (hi : History.Issued ports ((cmd, (exec ports e cmd db).2) :: h) shard userId token) :
    History.Issued ports ((cmd, (exec ports e cmd db).2) :: h) shard userId token' := by
  obtain ⟨hnew, hrev, hchild⟩ := fresh_unused (e := e) hs hp
  have hold : h.Descends token token' → History.Issued ports ((cmd, (exec ports e cmd db).2) :: h) shard userId token' := by
    intro hd
    rcases issued_new hi with hi' | ⟨rfl, -⟩
    · exact (hp.heirs _ _ _ _ hd hi').mono (List.subset_cons_self _ _)
    · rwa [heir_eq hchild hd]
  by_cases hc : ∃ tenantId userId given, cmd = .createRefreshToken tenantId userId (some given)
  · obtain ⟨tenantId, user, given, rfl⟩ := hc
    obtain ⟨hgrev, hgissued⟩ := hgiven _ _ _ rfl
    have hne : given ≠ db.fresh e := fun he => hrev (he ▸ hgrev)
    rcases History.descends_issue hnew hne hchild hd with ⟨-, hd⟩ | ⟨rfl, rfl | hd⟩
    · exact hold hd
    · exact hi
    · rcases issued_new hi with hi | ⟨rfl, -⟩
      · obtain ⟨rfl, rfl⟩ := hH _ _ _ _ _ ((hp.heirs _ _ _ _ hd hi).mono hsub) hgissued
        exact History.issued_cons.2 (.inr ⟨tenantId, some given, rfl, rfl, rfl⟩)
      · exact absurd (heir_eq hchild hd) hne
  · exact hold ((History.descends_cons fun tenantId userId given he => hc ⟨tenantId, userId, given, he⟩).1 hd)

/-- **Step lemma.** A command that leaves exchanges alone spends tokens as they are to be spent. -/
theorem exec (hs : Sessions ports db h) (hp : Spent ports db h)
    (hH : ∀ shard shard' userId userId' token, H.Issued ports shard userId token →
      H.Issued ports shard' userId' token → shard = shard' ∧ userId = userId') (hsub : h ⊆ H)
    (halone : ExchangeAlone ports h cmd db)
    (hgiven : ∀ tenantId userId given, cmd = .createRefreshToken tenantId userId (some given) →
      h.Revoked given ∧ H.Issued ports (ports.shardOf tenantId) userId given) :
    Spent ports (Identity.exec ports e cmd db).1 ((cmd, (Identity.exec ports e cmd db).2) :: h) := by
  have hcons : ∀ {token}, History.LoggedOut ports ((cmd, (Identity.exec ports e cmd db).2) :: h) token → _ :=
    fun hl => loggedOut_cons hs hp (fun _ _ _ hc => (hgiven _ _ _ hc).1) hl
  obtain ⟨hnew, hrev, hchild⟩ := fresh_unused (e := e) hs hp
  refine ⟨?_, ?_, fun shard userId token token' hd hi => heirs_exec hs hp hH hsub hgiven hd hi, ?_, ?_⟩
  · intro shard row hrow hlive
    rcases exec_rows cmd row hrow with ⟨old, hold, hhash, -, hkill⟩ | ⟨tenantId, userId, exchanged, rfl, rfl, -, hfresh⟩
    · obtain ⟨holdlive, hkill⟩ := hkill hlive
      obtain ⟨hnotrev, hnotout⟩ := hp.live shard old hold holdlive
      have hissued := hs.issued shard old hold
      rw [← hhash]
      refine ⟨fun hr => ?_, fun hl => ?_⟩
      · rcases History.revoked_cons.1 hr with hr | ⟨tenantId, rfl⟩
        · exact hnotrev hr
        · -- the row that is revoked is this one, as a token is issued once
          obtain ⟨other, hother, hsame, -⟩ := refreshToken_isSome (halone.1 _ _ rfl)
          have hi := hs.issued _ other hother
          rw [hsame] at hi
          exact hkill ⟨(hs.once _ _ _ _ _ hi hissued).1, rfl⟩
      · rcases hcons hl with hl | ⟨tenantId, userId, rfl, hi⟩ | ⟨_, _, _, -, hfresh, -⟩
        · exact hnotout hl
        · obtain ⟨hshard, huser⟩ := hs.once _ _ _ _ _ hi hissued
          exact hkill ⟨hshard, huser.symm⟩
        · exact hnew shard old.userId (hfresh ▸ hissued)
    · rw [hfresh]
      refine ⟨fun hr => ?_, fun hl => ?_⟩
      · rcases History.revoked_cons.1 hr with hr | ⟨_, hcmd⟩
        · exact hrev hr
        · cases hcmd
      · rcases hcons hl with hl | ⟨_, _, hcmd, -⟩ | ⟨_, _, given, hcmd, -, hl⟩
        · exact not_loggedOut_fresh hs hp hl
        · cases hcmd
        · exact halone.2 _ _ _ hcmd (hp.since given (hgiven _ _ _ hcmd).1 hl)
  · intro token hr hl
    by_cases hc : ∃ tenantId, cmd = .revokeTokenById tenantId token
    · obtain ⟨tenantId, rfl⟩ := hc
      obtain ⟨row, hrow, rfl, hlive⟩ := refreshToken_isSome (halone.1 _ _ rfl)
      rcases hcons hl with hl | ⟨_, _, hcmd, -⟩ | ⟨_, _, _, hcmd, -⟩
      · exact absurd hl (hp.live _ row hrow hlive).2
      · cases hcmd
      · cases hcmd
    · have hr : h.Revoked token := (History.revoked_cons.1 hr).resolve_right hc
      refine ⟨fun tenantId he => hc ⟨tenantId, he⟩, ?_⟩
      rcases hcons hl with hl | hl | ⟨_, _, _, -, rfl, -⟩
      · exact .inl (hp.since token hr hl)
      · exact .inr hl
      · exact absurd hr hrev
  · intro token hr
    rcases History.revoked_cons.1 hr with hr | ⟨tenantId, rfl⟩
    · obtain ⟨shard, userId, hi⟩ := hp.known token hr
      exact ⟨shard, userId, hi.mono (List.subset_cons_self _ _)⟩
    · obtain ⟨row, hrow, rfl, -⟩ := refreshToken_isSome (halone.1 _ _ rfl)
      exact ⟨_, _, (hs.issued _ row hrow).mono (List.subset_cons_self _ _)⟩
  · rintro token ⟨tenantId, userId, r, hmem⟩
    refine History.revoked_cons.2 (.inl ?_)
    rcases List.mem_cons.1 hmem with he | hmem
    · exact (hgiven _ _ _ (Prod.mk.inj he).1.symm).1
    · exact hp.exchanged token ⟨tenantId, userId, r, hmem⟩

end Spent

/-! ## How an exchange goes -/

/-- What a call may rely on in a run whose whole history is `H`. -/
def sessionsOf (ports : Ports) (H : History) : Discipline Db Cmd Env where
  inv db := (∀ shard, ∀ row ∈ (db.shard shard).refreshTokens, H.Issued ports shard row.userId row.tokenHash) ∧
    ∀ shard, ∀ user ∈ (db.shard shard).users, ports.shardOf user.tenantId = shard
  ext _ _ := True
  guar _ _ := True
  may _ _ _ := True
  ext_refl _ := trivial
  ext_trans _ _ := trivial

/-- What a call hands over after what it has had executed: a token is only exchanged by a refresh, once, after
it was revoked, and the successor is issued to its user. -/
def Exchanges (ports : Ports) (H l : History) : Cmd → Db → Prop
  | .createRefreshToken tenantId userId (some token), _ =>
    l.Revoked token ∧ (∀ token', ¬ l.Exchanged token') ∧ H.Issued ports (ports.shardOf tenantId) userId token
  | _, _ => True

def Leaves : Call → History → Except AuthError Outcome → Db → Prop
  | .refresh token, l, .ok (.tokens pair), _ => ∃ tenantId userId,
    (Cmd.createRefreshToken tenantId userId (some token), Except.ok (Answer.token pair.refreshToken)) ∈ l
  | .logout _ (some (tenantId, userId)), l, .ok _, _ =>
    ∃ reply, (Cmd.revokeTokensByUser tenantId userId, reply) ∈ l
  | _, _, _, _ => True

/-- A command that exchanges nothing. -/
def Cmd.Idle (cmd : Cmd) : Prop := ∀ tenantId userId token, cmd ≠ .createRefreshToken tenantId userId (some token)

theorem exchanges_of_idle {l : History} (hc : cmd.Idle) : Exchanges ports H l cmd db := by
  cases cmd with
  | createRefreshToken tenantId userId exchanged =>
    cases exchanged with
    | none => trivial
    | some token => exact absurd rfl (hc tenantId userId token)
  | _ => trivial

theorem Call.may_idle {c : Call} (hc : ∀ token, c ≠ .refresh token) (hm : c.May ports cmd) : cmd.Idle := by
  rintro tenantId userId token rfl
  cases c with
  | register =>
    rcases hm with hi | ⟨_, hm⟩ | ⟨_, _, hm⟩ | ⟨_, _, _, hm⟩ | hm
    · cases (hi : some token = none)
    all_goals cases hm
  | login => cases (hm : some token = none)
  | refresh token => exact hc token rfl
  | logout | revokeByTokenHash => exact hm
  | updateEmail => rcases hm with ⟨_, hm⟩ | hm | ⟨_, hm⟩ <;> cases hm
  | reconcile => rcases hm with ⟨_, _, hm⟩ | ⟨_, _, _, hm⟩ | ⟨_, _, hm⟩ <;> cases hm
  | cleanupExpired => cases (hm : Cmd.createRefreshToken _ _ _ = _)

section
variable {α β : Type} {l : History} {G : History → Cmd → Db → Prop} {Q : History → Except AuthError β → Db → Prop}
  {D : Discipline Db Cmd Env}

theorem traces_send {Q : History → Except AuthError β → Db → Prop} {g : Answer → IdentityCall β}
    (herr : ∀ l err db, Q l (.error err) db)
    (hG : ∀ db, D.inv db → G l cmd db)
    (hk : ∀ db e a, (exec ports e cmd db).2 = .ok a →
      (g a).Traces D (exec ports) G Q (l ++ [(cmd, .ok a)]) (exec ports e cmd db).1) :
    (send cmd >>= g).Traces D (exec ports) G Q l db := by
  refine .bind (.transaction fun db' _ hinv => ⟨hG db' hinv, fun e => ?_⟩)
  cases hr : (exec ports e cmd db').2 with
  | ok a => exact fun db'' hext _ => (hk db' e a hr).ext hext
  | error err => exact fun db'' _ _ => herr _ _ _

theorem traces_checking {c : Prop} [Decidable c] {err : AuthError} {g : Unit → IdentityCall β}
    (herr : ∀ l err db, Q l (.error err) db) (hk : c → (g ()).Traces D (exec ports) G Q l db) :
    (checking c err >>= g).Traces D (exec ports) G Q l db := by
  unfold checking
  split
  next hc => exact hk hc
  next => exact fun _ _ _ => herr _ _ _

end

section
variable {α : Type} {l : History} {Q : History → Except AuthError Outcome → Db → Prop} {tenantId : TenantId}
  {exchanged : Option Token}

theorem generateTokenPair_traces (herr : ∀ l err db, Q l (.error err) db)
    (hG : Exchanges ports H l (.createRefreshToken tenantId userId exchanged) db)
    (hQ : ∀ l' pair db, (Cmd.createRefreshToken tenantId userId exchanged,
      Except.ok (Answer.token pair.refreshToken)) ∈ l' → Q l' (.ok (.tokens pair)) db) :
    (generateTokenPair userId tenantId exchanged >>= fun pair => return .tokens pair).Traces
      (sessionsOf ports H) (exec ports) (Exchanges ports H) Q l db := by
  unfold generateTokenPair
  rw [bind_assoc]
  refine traces_send herr (fun _ _ => by cases exchanged <;> exact hG) fun db' e a ha => ?_
  cases a with
  | rowsAffected n => exact fun _ _ _ => herr _ _ _
  | token refreshToken =>
    unfold recordActiveLookup
    rw [bind_assoc, bind_assoc]
    refine traces_send herr (fun _ _ => trivial) fun db'' e' a' ha' => ?_
    unfold readLookup
    rw [bind_assoc, bind_assoc]
    refine .query fun _ _ _ => ?_
    split
    · exact fun _ _ _ => herr _ _ _
    · refine traces_checking herr fun _ => fun _ _ _ => hQ _ _ _ ?_
      simp

theorem refresh_traces : ((Call.refresh token).start ports).Traces (sessionsOf ports H) (exec ports)
    (Exchanges ports H) (Leaves (.refresh token)) [] db := by
  have herr : ∀ l err db, Leaves (.refresh token) l (.error err) db := fun _ _ _ => trivial
  rw [Call.start]
  unfold Identity.refresh resolveByRefreshTokenHash
  rw [bind_assoc, bind_assoc]
  refine .query fun db₁ _ _ => ?_
  cases hlookup : db₁.byLookup (.refresh_token_hash token) with
  | none => exact fun _ _ _ => herr _ _ _
  | some entry =>
    simp only
    split
    · simp only [pure_eq, ret_bind]
      rw [bind_assoc]
      refine .queryAny fun db₂ _ hinv₂ e => ?_
      cases hrow : ((db₂.dbForTenant ports entry.tenantId).refreshToken token).filter
          fun row => e.now ≤ row.expiresAt with
      | none => exact fun _ _ _ => herr _ _ _
      | some row =>
        obtain ⟨hmem, rfl, -⟩ := Table.find_spec (Option.filter_eq_some_iff.1 hrow).1
        have hissued := hinv₂.1 _ row hmem
        simp only
        rw [bind_assoc]
        refine .query fun db₃ _ hinv₃ => ?_
        cases huser : (db₃.dbForTenant ports entry.tenantId).userById row.userId with
        | none => exact fun _ _ _ => herr _ _ _
        | some user =>
          obtain ⟨husermem, huserid⟩ := Table.find_spec huser
          have hhome := hinv₃.2 _ user husermem
          simp only
          rw [bind_assoc]
          refine traces_send herr (fun _ _ => trivial) fun db₄ e₄ a ha => ?_
          rw [bind_assoc]
          refine traces_send herr (fun _ _ => trivial) fun db₅ e₅ a' ha' => ?_
          refine generateTokenPair_traces herr ⟨⟨entry.tenantId, .ok a, by simp⟩, ?_, ?_⟩
            fun l' pair _ hmem => ⟨_, _, hmem⟩
          · rintro token' ⟨_, _, _, hmem⟩
            simp at hmem
          · rw [hhome, huserid]
            exact hissued
    · exact fun _ _ _ => herr _ _ _

theorem logout_traces {given : Option Token} {tenantId : TenantId} {userId : UserId} :
    ((Call.logout given (some (tenantId, userId))).start ports).Traces (sessionsOf ports H) (exec ports)
      (Exchanges ports H) (Leaves (.logout given (some (tenantId, userId)))) [] db := by
  have herr : ∀ l err db, Leaves (.logout given (some (tenantId, userId))) l (.error err) db :=
    fun _ _ _ => trivial
  have hrevokes : ∀ l cmd (db : Db), Revokes cmd → Exchanges ports H l cmd db := by
    intro l cmd db hr
    refine exchanges_of_idle ?_
    rintro _ _ _ rfl
    exact hr
  -- whatever the token was, the tokens of the user are revoked last
  have hlast : ∀ l db, (do
      let _ ← send (.revokeTokensByUser tenantId userId)
      return () : IdentityCall Unit).Traces (sessionsOf ports H) (exec ports) (Exchanges ports H)
      (fun l r db => match r with
        | .ok _ => (return Outcome.done : IdentityCall Outcome).Traces (sessionsOf ports H) (exec ports)
          (Exchanges ports H) (Leaves (.logout given (some (tenantId, userId)))) l db
        | .error err => Leaves (.logout given (some (tenantId, userId))) l (.error err) db) l db :=
    fun l db => traces_send herr (fun _ _ => trivial) fun db' e a ha => fun _ _ _ _ _ _ => ⟨.ok a, by simp⟩
  cases given with
  | none => exact .bind (hlast [] db)
  | some given =>
    refine .bind (.bind (Uses.traces (S := Revokes) revokeByTokenHash_uses
      (fun l cmd db _ hr => hrevokes l cmd db hr) fun l r db _ => ?_))
    cases r with
    | ok a => exact hlast l db
    | error err => exact herr l err db

theorem Call.start_traces (c : Call) : (c.start ports).Traces (sessionsOf ports H) (exec ports)
    (Exchanges ports H) (Leaves c) [] db := by
  have hidle : ∀ c : Call, (∀ token, c ≠ .refresh token) → (∀ l r db, Leaves c l r db) →
      (c.start ports).Traces (sessionsOf ports H) (exec ports) (Exchanges ports H) (Leaves c) [] db :=
    fun c hc hleaves => (c.start_uses).traces
      (fun l cmd _ _ hmay => exchanges_of_idle (Call.may_idle hc hmay)) fun l r db _ => hleaves l r db
  cases c with
  | refresh => exact refresh_traces
  | logout given jwtUser =>
    cases jwtUser with
    | none => exact hidle _ (fun _ h => by cases h) fun _ _ _ => trivial
    | some user => exact logout_traces
  | _ => exact hidle _ (fun _ h => by cases h) fun _ _ _ => trivial

end

/-! ## Runs -/

/-- What holds in a run whose whole history is `H`, and whose exchanges are all left alone. -/
structure Exchanging (ports : Ports) (H : History) (x : IdentityPool × History) : Prop where
  sessions : Sessions ports x.1.db x.2
  spent : Spent ports x.1.db x.2
  traced : x.1.Traced (sessionsOf ports H) (exec ports) (fun _ => Exchanges ports H) Leaves
  logged : ∀ entry, entry ∈ x.2 ↔ x.1.Logged entry
  paid : ∀ th ∈ x.1.threads, ∀ token, History.Exchanged th.log token → History.Revoked th.log token
  own : ∀ (i j : ℕ) (thi thj : IdentityThread) (token : Token), x.1.threads[i]? = some thi → x.1.threads[j]? = some thj →
    History.Revoked thi.log token → History.Revoked thj.log token → i = j

namespace Exchanging

variable {x : IdentityPool × History} {m : IdentityMove}

theorem inv (hx : Exchanging ports H x) (hsub : x.2 ⊆ H) : (sessionsOf ports H).inv x.1.db :=
  ⟨fun shard row hrow => (hx.sessions.issued shard row hrow).mono hsub, hx.sessions.home⟩

theorem revoked_of_log (hx : Exchanging ports H x) {i : ℕ} {th : IdentityThread}
    (hi : x.1.threads[i]? = some th) (hr : History.Revoked th.log token) : x.2.Revoked token := by
  obtain ⟨tenantId, reply, hmem⟩ := hr
  exact ⟨tenantId, reply, (hx.logged _).2 ⟨th, List.mem_of_getElem? hi, hmem⟩⟩

theorem exchanges (hx : Exchanging ports H x) (hsub : x.2 ⊆ H) {i : ℕ} {c : Call} {l : History}
    {k : Reply → IdentityCall Outcome} (hi : x.1.threads[i]? = some ⟨c, l, .txn cmd k⟩) :
    Exchanges ports H l cmd x.1.db :=
  hx.traced.committing (hx.inv hsub) hi

/-- **A token that is exchanged has not been exchanged, and no logout has ended it.** -/
theorem singleUse (hx : Exchanging ports H x) (hsub : x.2 ⊆ H)
    (halone : x.1.AtCommit (fun _ cmd db => ExchangeAlone ports x.2 cmd db) m) :
    x.1.AtCommit (fun _ cmd _ => SingleUse ports x.2 cmd) m := by
  rintro e _ hm tenantId userId token rfl
  have hsince := (halone e _ hm).2 _ _ _ rfl
  cases m with
  | call c => cases hm
  | go i e' =>
    obtain ⟨-, c, l, k, hi⟩ := Pool.committing_go hm
    obtain ⟨hrev, hfirst, -⟩ := hx.exchanges hsub hi
    refine ⟨?_, fun hl => hsince (hx.spent.since token (hx.revoked_of_log hi hrev) hl)⟩
    rintro ⟨tenantId', userId', reply, hmem⟩
    -- whoever has exchanged it has revoked it, and that was this call, which has exchanged nothing
    obtain ⟨th, hth, hlog⟩ := (hx.logged _).1 hmem
    obtain ⟨j, hj⟩ := List.mem_iff_getElem?.1 hth
    have hex : History.Exchanged th.log token := ⟨tenantId', userId', reply, hlog⟩
    obtain rfl := hx.own i j _ th token hi hj hrev (hx.paid th hth token hex)
    obtain rfl := Option.some.inj (hi.symm.trans hj)
    exact hfirst token hex

/-- **Step lemma.** -/
theorem step (hx : Exchanging ports H x) (hsub : (recorded ports x m).2 ⊆ H)
    (hH : ∀ shard shard' userId userId' token, H.Issued ports shard userId token →
      H.Issued ports shard' userId' token → shard = shard' ∧ userId = userId')
    (halone : x.1.AtCommit (fun _ cmd db => ExchangeAlone ports x.2 cmd db) m) :
    Exchanging ports H (recorded ports x m) := by
  have hold : x.2 ⊆ H := List.Subset.trans Pool.subset_recorded hsub
  have htraced : (recorded ports x m).1.Traced (sessionsOf ports H) (exec ports) (fun _ => Exchanges ports H) Leaves :=
    hx.traced.step (hx.inv hold) trivial fun c db _ => c.start_traces
  refine ⟨?_, ?_, htraced, Pool.recorded_step hx.logged, fun th hth token hex => ?_, fun i j thi thj token hi hj hri hrj => ?_⟩
  · obtain ⟨-, hdb, hh⟩ | ⟨e, cmd, -, hdb, hh⟩ := recorded_cases x m
    · rw [hdb, hh]
      exact hx.sessions
    · rw [hdb, hh]
      exact hx.sessions.exec cmd
  · obtain ⟨-, hdb, hh⟩ | ⟨e, cmd, hm, hdb, hh⟩ := recorded_cases x m
    · rw [hdb, hh]
      exact hx.spent
    · rw [hdb, hh]
      refine hx.spent.exec hx.sessions hH hold (halone e cmd hm) ?_
      rintro tenantId userId given rfl
      cases m with
      | call c => cases hm
      | go i e' =>
        obtain ⟨-, c, l, k, hi⟩ := Pool.committing_go hm
        obtain ⟨hrev, -, hissued⟩ := hx.exchanges hold hi
        exact ⟨hx.revoked_of_log hi hrev, hissued⟩
  · obtain ⟨j, hj⟩ := List.mem_iff_getElem?.1 hth
    obtain (hnil | ⟨th₀, hj₀, -, hlog⟩) | ⟨e, cmd, l, k, rfl, hi, hlog⟩ := Pool.log_step hj
    · obtain ⟨_, _, _, hmem⟩ := hex
      rw [hnil] at hmem
      cases hmem
    · rw [← hlog] at hex ⊢
      exact hx.paid th₀ (List.mem_of_getElem? hj₀) token hex
    · rw [hlog] at hex ⊢
      obtain ⟨tenantId, userId, reply, hmem⟩ := hex
      have hrev : History.Revoked l token := by
        rcases List.mem_append.1 hmem with hmem | hmem
        · exact hx.paid _ (List.mem_of_getElem? hi) token ⟨tenantId, userId, reply, hmem⟩
        · obtain ⟨rfl, -⟩ := Prod.mk.inj (List.mem_singleton.1 hmem)
          exact (hx.exchanges hold hi).1
      obtain ⟨tenantId, reply, hmem⟩ := hrev
      exact ⟨tenantId, reply, List.mem_append_left _ hmem⟩
  · -- who revokes a token finds it valid, so that nobody has revoked it before
    have hfirst : ∀ (i j : ℕ) (th : IdentityThread), (∃ e c l k tenantId, m = .go i e ∧
        x.1.threads[i]? = some ⟨c, l, .txn (.revokeTokenById tenantId token) k⟩) →
        x.1.threads[j]? = some th → ¬ History.Revoked th.log token := by
      rintro i j th ⟨e, c, l, k, tenantId, rfl, hti⟩ htj hr
      obtain ⟨row, hrow, rfl, hlive⟩ :=
        refreshToken_isSome ((halone e _ (by simp [Pool.committing, hti])).1 tenantId token rfl)
      exact (hx.spent.live _ row hrow hlive).1 (hx.revoked_of_log htj hr)
    have hcases : ∀ (i : ℕ) (th : IdentityThread), (recorded ports x m).1.threads[i]? = some th →
        History.Revoked th.log token →
        (∃ th₀ : IdentityThread, x.1.threads[i]? = some th₀ ∧ History.Revoked th₀.log token) ∨
        ∃ e c l k tenantId, m = .go i e ∧
          x.1.threads[i]? = some ⟨c, l, .txn (.revokeTokenById tenantId token) k⟩ := by
      intro i th hi hr
      obtain (hnil | ⟨th₀, hi₀, -, hlog⟩) | ⟨e, cmd, l, k, hm, hi, hlog⟩ := Pool.log_step hi
      · obtain ⟨_, _, hmem⟩ := hr
        rw [hnil] at hmem
        cases hmem
      · exact .inl ⟨th₀, hi₀, hlog ▸ hr⟩
      · obtain ⟨tenantId, reply, hmem⟩ := hr
        rw [hlog] at hmem
        rcases List.mem_append.1 hmem with hmem | hmem
        · exact .inl ⟨_, hi, tenantId, reply, hmem⟩
        · obtain ⟨rfl, -⟩ := Prod.mk.inj (List.mem_singleton.1 hmem)
          exact .inr ⟨e, _, l, k, tenantId, hm, hi⟩
    rcases hcases i thi hi hri with ⟨th₀, hi₀, hri₀⟩ | hnew
    · rcases hcases j thj hj hrj with ⟨th₁, hj₁, hrj₁⟩ | hnew
      · exact hx.own i j th₀ th₁ token hi₀ hj₁ hri₀ hrj₁
      · exact absurd hri₀ (hfirst j i th₀ hnew hi₀)
    · rcases hcases j thj hj hrj with ⟨th₁, hj₁, hrj₁⟩ | hnew'
      · exact absurd hrj₁ (hfirst i j th₁ hnew hj₁)
      · obtain ⟨e, _, _, _, _, rfl, -⟩ := hnew
        obtain ⟨_, _, _, _, _, hm, -⟩ := hnew'
        exact (Move.go.inj hm).1

/-- What calls that have returned have done. -/
theorem answered (hx : Exchanging ports H x) (hsub : x.2 ⊆ H) : Answered x.1 := by
  refine ⟨fun token pair l hth => ?_, fun token tenantId userId l outcome hth => ?_⟩
  · exact hx.traced.returned (hx.inv hsub) hth
  · exact hx.traced.returned (hx.inv hsub) hth

end Exchanging

/-- **Refresh tokens.** In a run in which every exchange is left alone, a token is exchanged once at most, and no
token that a logout has ended, nor any that comes of one, is exchanged. -/
theorem refreshTokens_singleUse (ports : Ports) (ms : List IdentityMove)
    (halone : Along (recorded ports) (fun x => x.1.AtCommit fun _ cmd db => ExchangeAlone ports x.2 cmd db)
      (.init, []) ms) :
    Along (recorded ports) (fun x => x.1.AtCommit fun _ cmd _ => SingleUse ports x.2 cmd) (.init, []) ms ∧
      Always (recorded ports) (fun x => Answered x.1) (.init, []) ms := by
  have hboth : Along (recorded ports) (fun x m => x.1.AtCommit (fun _ cmd db => ExchangeAlone ports x.2 cmd db) m ∧
      (recorded ports x m).2 ⊆ (run (recorded ports) (.init, []) ms).2) (.init, []) ms :=
    fun pre m hpre => ⟨halone pre m hpre, Pool.along_recorded pre m hpre⟩
  have hinit : Exchanging ports (run (recorded ports) (.init, []) ms).2 (.init, []) :=
    ⟨.empty, .empty, Pool.Traced.idle, fun _ => by simp [IdentityPool.init, Pool.Logged, Pool.idle],
      fun _ hth => (List.not_mem_nil hth).elim, fun i _ _ _ _ hi => by simp [IdentityPool.init, Pool.idle] at hi⟩
  have hall := @Always.of_step _ _ (recorded ports)
    (fun x => Exchanging ports (run (recorded ports) (.init, []) ms).2 x ∧
      x.2 ⊆ (run (recorded ports) (.init, []) ms).2) _ _ _ ⟨hinit, List.nil_subset _⟩
    (fun x m hx hm => ⟨hx.1.step hm.2 sessions_always.last.once hm.1, hm.2⟩)
    hboth
  refine ⟨fun pre m hpre => ?_, hall.mono fun x hx => hx.1.answered hx.2⟩
  obtain ⟨hx, hpresub⟩ := hall pre ((List.prefix_append _ _).trans hpre)
  exact hx.singleUse hpresub (halone pre m hpre)

/-! ## A session -/

/-- A registration, whose token 2 is exchanged for 3, a logout, and an exchange that is refused. -/
theorem refreshTokens_session :
    Along (recorded .plain) (fun x => x.1.AtCommit fun _ cmd _ => SingleUse .plain x.2 cmd) (.init, [])
      ([.call (.register "a" "p" "op")] ++ steps 0 12 0 ++ [.call (.refresh 2)] ++ steps 1 8 1 ++
        [.call (.logout none (some (0, 1)))] ++ steps 2 1 2 ++ [.call (.refresh 3)] ++ steps 3 8 3) :=
  (refreshTokens_singleUse .plain _ (by decide +kernel)).1


/-- Two exchanges of one token read its row before either revokes it, and both go through. -/
theorem token_exchanged_twice : ¬ Along (recorded .plain)
    (fun x => x.1.AtCommit fun _ cmd _ => SingleUse .plain x.2 cmd) (.init, [])
    ([.call (.register "a" "p" "op")] ++ steps 0 12 0 ++ [.call (.refresh 2), .call (.refresh 2)] ++
      steps 1 3 1 ++ steps 2 8 1 ++ steps 1 2 1 ++ [.go 1 (.plain 1)]) := by
  intro h
  have hne : Pool.AtCommit (fun _ cmd _ => cmd ≠ .createRefreshToken 0 1 (some 2))
      (run (recorded .plain) (.init, []) ([.call (.register "a" "p" "op")] ++ steps 0 12 0 ++
        [.call (.refresh 2), .call (.refresh 2)] ++ steps 1 3 1 ++ steps 2 8 1 ++ steps 1 2 1)).1
      (.go 1 (.plain 1)) := by
    rintro e _ hm rfl
    exact (h.last e _ hm 0 1 2 rfl).1 ⟨0, 1, .ok (.token 3), by decide +kernel⟩
  exact absurd hne (by decide +kernel)

end ChronoSynth.Identity

import Mathlib.Algebra.Order.BigOperators.Group.List
import Mathlib.Algebra.Order.Group.Nat
import ChronoSynth.Identity.Types

/-!
# What commands do to the tables

For each table, where a row comes from that is there after a command.
-/

namespace ChronoSynth.Identity

variable {ports : Ports} {e : Env} {db : Db} {cmd : Cmd} {shard : ShardId} {token : Token}

/-! ## Numbers that are drawn -/

theorem Db.fresh_not_mem : db.fresh e ∉ db.drawn := by
  unfold Db.fresh
  split
  · intro hmem
    have hle := List.single_le_sum (fun _ _ => Nat.zero_le _) _ hmem
    omega
  · assumption

theorem drawn_subset_exec (cmd : Cmd) : db.drawn ⊆ (exec ports e cmd db).1.drawn := by
  cases cmd with
  | createRefreshToken => exact List.subset_cons_self _ _
  | reserveTenant | recordActiveLookup | reserveEmailChange =>
    simp only [exec, Db.reserve]
    split
    all_goals
      intro n hn
      simp [hn]
  | completeEmailChange | createIdentity | updateEmail =>
    simp only [exec]
    split <;> exact fun _ hn => hn
  | createUser =>
    simp only [exec]
    split
    · exact fun _ hn => hn
    · split <;> exact fun _ hn => hn
  | _ => exact fun _ hn => hn

/-! ## Refresh tokens -/

/-- The command revokes the row. -/
def Cmd.Kills (ports : Ports) (shard : ShardId) (row : RefreshToken) : Cmd → Prop
  | .revokeTokenById tenantId token => ports.shardOf tenantId = shard ∧ row.tokenHash = token
  | .revokeTokensByUser tenantId userId => ports.shardOf tenantId = shard ∧ row.userId = userId
  | _ => False

/-- Where a row comes from: it was there, no less valid and not revoked by the command. -/
def Cmd.Leaves (ports : Ports) (cmd : Cmd) (shard : ShardId) (rows : List RefreshToken) (row : RefreshToken) :
    Prop :=
  ∃ old ∈ rows, old.tokenHash = row.tokenHash ∧ old.userId = row.userId ∧
    (row.isRevoked = false → old.isRevoked = false ∧ ¬ cmd.Kills ports shard old)

theorem Cmd.Leaves.same {row : RefreshToken} {rows : List RefreshToken} (hrow : row ∈ rows)
    (hk : ¬ cmd.Kills ports shard row) : cmd.Leaves ports shard rows row :=
  ⟨row, hrow, rfl, rfl, fun hlive => ⟨hlive, hk⟩⟩

theorem Db.mem_putShard {tenantId : TenantId} {s : Shard} {row : RefreshToken}
    (hrow : row ∈ ((db.putShard ports tenantId s).shard shard).refreshTokens)
    (hs : s.refreshTokens = (db.dbForTenant ports tenantId).refreshTokens) :
    row ∈ (db.shard shard).refreshTokens := by
  by_cases hsh : shard = ports.shardOf tenantId
  · subst hsh
    simpa [Db.putShard, Db.dbForTenant, hs] using hrow
  · simpa [Db.putShard, Function.update_of_ne hsh] using hrow

theorem Db.updateTokens_leaves {tenantId : TenantId} {p : RefreshToken → Prop} [DecidablePred p]
    (hkill : ∀ old, cmd.Kills ports shard old → ports.shardOf tenantId = shard ∧ p old) :
    ∀ row ∈ ((db.updateTokens (ports.shardOf tenantId) p).shard shard).refreshTokens,
      cmd.Leaves ports shard (db.shard shard).refreshTokens row := by
  intro row hrow
  unfold Db.updateTokens at hrow
  by_cases hsh : shard = ports.shardOf tenantId
  · subst hsh
    simp only [Function.update_self] at hrow
    obtain ⟨old, hold, rfl⟩ := Table.mem_update.1 hrow
    by_cases hp : p old
    · exact ⟨old, hold, by simp [hp], by simp [hp], by simp [hp]⟩
    · rw [if_neg hp]
      exact .same hold fun hk => hp (hkill old hk).2
  · simp only [Function.update_of_ne hsh] at hrow
    exact .same hrow fun hk => hsh (hkill row hk).1.symm

/-- **What a command does to the tokens**: a row that is there was there, with no more validity and not
revoked by it, or has just been issued. -/
theorem exec_rows (cmd : Cmd) : ∀ row ∈ ((exec ports e cmd db).1.shard shard).refreshTokens,
    cmd.Leaves ports shard (db.shard shard).refreshTokens row ∨
    ∃ tenantId userId exchanged, cmd = .createRefreshToken tenantId userId exchanged ∧
      shard = ports.shardOf tenantId ∧ row.userId = userId ∧ row.tokenHash = db.fresh e := by
  intro row hrow
  cases cmd with
  | createRefreshToken tenantId userId exchanged =>
    simp only [exec] at hrow
    by_cases hsh : shard = ports.shardOf tenantId
    · subst hsh
      simp only [Db.putShard, Function.update_self, List.mem_append, List.mem_singleton] at hrow
      rcases hrow with hrow | rfl
      · exact .inl (.same hrow id)
      · exact .inr ⟨tenantId, userId, exchanged, rfl, rfl, rfl, rfl⟩
    · simp only [Db.putShard, Function.update_of_ne hsh] at hrow
      exact .inl (.same hrow id)
  | revokeTokenById tenantId token | revokeTokenByHash tenantId token =>
    exact .inl (Db.updateTokens_leaves (p := (·.tokenHash = token)) (by simp [Cmd.Kills]) row hrow)
  | revokeTokensByUser tenantId userId =>
    exact .inl (Db.updateTokens_leaves (p := (·.userId = userId)) (by simp [Cmd.Kills]) row hrow)
  | cleanupExpiredTokens shard' cutoff =>
    simp only [exec] at hrow
    by_cases hsh : shard = shard'
    · subst hsh
      simp only [Function.update_self] at hrow
      exact .inl (.same (List.mem_filter.1 hrow).1 id)
    · simp only [Function.update_of_ne hsh] at hrow
      exact .inl (.same hrow id)
  | createIdentity tenantId userId =>
    refine .inl (.same ?_ id)
    simp only [exec] at hrow
    split at hrow
    · exact hrow
    · exact Db.mem_putShard hrow rfl
  | createUser tenantId userId email passwordHash operationId =>
    refine .inl (.same ?_ id)
    simp only [exec] at hrow
    split at hrow
    · exact hrow
    · split at hrow
      · exact hrow
      · exact Db.mem_putShard hrow rfl
  | updateEmail tenantId userId email =>
    refine .inl (.same ?_ id)
    simp only [exec] at hrow
    split at hrow
    · exact hrow
    · exact Db.mem_putShard hrow rfl
  | reserveTenant | recordActiveLookup | reserveEmailChange =>
    refine .inl (.same ?_ id)
    simp only [exec, Db.reserve] at hrow
    split at hrow <;> exact hrow
  | completeEmailChange =>
    refine .inl (.same ?_ id)
    simp only [exec] at hrow
    split at hrow <;> exact hrow
  | dirActivate | dirDeleteByLookup | dirDeleteByLookupOp => exact .inl (.same hrow id)

theorem exec_reply (cmd : Cmd) (hr : (exec ports e cmd db).2 = .ok (.token token)) :
    token = db.fresh e ∧ ∃ tenantId userId exchanged, cmd = .createRefreshToken tenantId userId exchanged := by
  cases cmd with
  | createRefreshToken tenantId userId exchanged =>
    simp only [exec, Except.ok.injEq, Answer.token.injEq] at hr
    exact ⟨hr.symm, tenantId, userId, exchanged, rfl⟩
  | reserveTenant | recordActiveLookup | reserveEmailChange =>
    simp only [exec, Db.reserve] at hr
    split at hr <;> cases hr
  | completeEmailChange | createIdentity | updateEmail =>
    simp only [exec] at hr
    split at hr <;> cases hr
  | createUser =>
    simp only [exec] at hr
    split at hr
    · cases hr
    · split at hr <;> cases hr
  | _ => cases hr

/-! ## Users -/

theorem Db.mem_putShard_users {tenantId : TenantId} {s : Shard} {user : User}
    (huser : user ∈ ((db.putShard ports tenantId s).shard shard).users) :
    user ∈ (db.shard shard).users ∨ shard = ports.shardOf tenantId ∧ user ∈ s.users := by
  by_cases hsh : shard = ports.shardOf tenantId
  · subst hsh
    exact .inr ⟨rfl, by simpa [Db.putShard] using huser⟩
  · exact .inl (by simpa [Db.putShard, Function.update_of_ne hsh] using huser)

/-- **What a command does to the users**: one that is there was there, with the same identifiers and the same
password, and the same email unless the command has changed it, or has just been registered. -/
theorem exec_users (cmd : Cmd) : ∀ user ∈ ((exec ports e cmd db).1.shard shard).users,
    (∃ old ∈ (db.shard shard).users, old.id = user.id ∧ old.tenantId = user.tenantId ∧
      old.passwordHash = user.passwordHash ∧
      (old.email = user.email ∨ cmd = .updateEmail user.tenantId user.id user.email)) ∨
    ∃ operationId, shard = ports.shardOf user.tenantId ∧
      cmd = .createUser user.tenantId user.id user.email user.passwordHash operationId := by
  intro user huser
  have hsame : user ∈ (db.shard shard).users → (∃ old ∈ (db.shard shard).users, old.id = user.id ∧
      old.tenantId = user.tenantId ∧ old.passwordHash = user.passwordHash ∧
      (old.email = user.email ∨ cmd = .updateEmail user.tenantId user.id user.email)) ∨
      ∃ operationId, shard = ports.shardOf user.tenantId ∧
        cmd = .createUser user.tenantId user.id user.email user.passwordHash operationId :=
    fun h => .inl ⟨user, h, rfl, rfl, rfl, .inl rfl⟩
  cases cmd with
  | createUser tenantId userId email passwordHash operationId =>
    simp only [exec] at huser
    split at huser
    · exact hsame huser
    · split at huser
      · exact hsame huser
      · rcases Db.mem_putShard_users huser with huser | ⟨rfl, hmem⟩
        · exact hsame huser
        · rcases List.mem_append.1 hmem with hmem | hmem
          · exact hsame hmem
          · obtain rfl := List.mem_singleton.1 hmem
            exact .inr ⟨operationId, rfl, rfl⟩
  | updateEmail tenantId userId email =>
    simp only [exec] at huser
    split at huser
    · exact hsame huser
    · rcases Db.mem_putShard_users huser with huser | ⟨rfl, hmem⟩
      · exact hsame huser
      · obtain ⟨old, hold, rfl⟩ := Table.mem_update.1 hmem
        split
        next hp =>
          obtain ⟨rfl, rfl⟩ := hp
          exact .inl ⟨old, hold, rfl, rfl, rfl, .inr rfl⟩
        next => exact .inl ⟨old, hold, rfl, rfl, rfl, .inl rfl⟩
  | createIdentity tenantId userId =>
    simp only [exec] at huser
    split at huser
    · exact hsame huser
    · rcases Db.mem_putShard_users huser with huser | ⟨rfl, hmem⟩
      · exact hsame huser
      · exact hsame hmem
  | createRefreshToken tenantId userId exchanged =>
    rcases Db.mem_putShard_users huser with huser | ⟨rfl, hmem⟩
    · exact hsame huser
    · exact hsame hmem
  | revokeTokenById tenantId token | revokeTokenByHash tenantId token | revokeTokensByUser tenantId userId =>
    by_cases hsh : shard = ports.shardOf tenantId
    · subst hsh
      exact hsame (by simpa [exec, Db.updateTokens] using huser)
    · exact hsame (by simpa [exec, Db.updateTokens, Function.update_of_ne hsh] using huser)
  | cleanupExpiredTokens shard' cutoff =>
    by_cases hsh : shard = shard'
    · subst hsh
      exact hsame (by simpa [exec] using huser)
    · exact hsame (by simpa [exec, Function.update_of_ne hsh] using huser)
  | reserveTenant | recordActiveLookup | reserveEmailChange =>
    simp only [exec, Db.reserve] at huser
    split at huser <;> exact hsame huser
  | completeEmailChange =>
    simp only [exec] at huser
    split at huser <;> exact hsame huser
  | dirActivate | dirDeleteByLookup | dirDeleteByLookupOp => exact hsame huser

/-! ## Accounts -/

/-- The directory, the users and the completed operations are as they were. -/
structure Db.SameAccounts (db db' : Db) : Prop where
  drawn : db.drawn ⊆ db'.drawn
  directory : db'.directory = db.directory
  users : ∀ shard, (db'.shard shard).users = (db.shard shard).users
  bootstraps : ∀ shard, (db'.shard shard).bootstraps = (db.shard shard).bootstraps

theorem Db.putShard_accounts {tenantId : TenantId} {s : Shard} {drawn : List ℕ} (hdrawn : db.drawn ⊆ drawn)
    (hu : s.users = (db.dbForTenant ports tenantId).users)
    (hb : s.bootstraps = (db.dbForTenant ports tenantId).bootstraps) :
    db.SameAccounts { db.putShard ports tenantId s with drawn } where
  drawn := hdrawn
  directory := rfl
  users shard := by
    by_cases hsh : shard = ports.shardOf tenantId
    · subst hsh
      simpa [Db.putShard, Db.dbForTenant] using hu
    · simp [Db.putShard, Function.update_of_ne hsh]
  bootstraps shard := by
    by_cases hsh : shard = ports.shardOf tenantId
    · subst hsh
      simpa [Db.putShard, Db.dbForTenant] using hb
    · simp [Db.putShard, Function.update_of_ne hsh]

theorem Db.updateShard_accounts {s : Shard} (hu : s.users = (db.shard shard).users)
    (hb : s.bootstraps = (db.shard shard).bootstraps) :
    db.SameAccounts { db with shard := Function.update db.shard shard s } where
  drawn := fun _ hn => hn
  directory := rfl
  users shard' := by
    by_cases hsh : shard' = shard
    · subst hsh
      simpa using hu
    · simp [Function.update_of_ne hsh]
  bootstraps shard' := by
    by_cases hsh : shard' = shard
    · subst hsh
      simpa using hb
    · simp [Function.update_of_ne hsh]

/-- The commands that are about sessions and identities only. -/
def Cmd.Sessional : Cmd → Prop
  | .createRefreshToken .. | .revokeTokenById .. | .revokeTokenByHash .. | .revokeTokensByUser ..
  | .cleanupExpiredTokens .. | .createIdentity .. => True
  | _ => False

theorem exec_sessional (hc : cmd.Sessional) : db.SameAccounts (exec ports e cmd db).1 := by
  have hrefl : db.SameAccounts db := ⟨fun _ hn => hn, rfl, fun _ => rfl, fun _ => rfl⟩
  cases cmd with
  | createRefreshToken => exact Db.putShard_accounts (List.subset_cons_self _ _) rfl rfl
  | revokeTokenById | revokeTokenByHash | revokeTokensByUser | cleanupExpiredTokens =>
    exact Db.updateShard_accounts rfl rfl
  | createIdentity =>
    simp only [exec]
    split
    · exact hrefl
    · exact Db.putShard_accounts (fun _ hn => hn) rfl rfl
  | _ => exact hc.elim

end ChronoSynth.Identity

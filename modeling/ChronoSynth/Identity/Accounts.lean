import ChronoSynth.Lib.Interleave
import ChronoSynth.Identity.Effects

/-!
# Entries and accounts

What holds of the directory and the shards while nobody changes his email (`Registered`), how they may change
(`Db.Grows`), and what a call is to guarantee about a command for both to be kept (`registration_kept`).
-/

namespace ChronoSynth.Identity

open Prog

variable {ports : Ports} {e : Env} {db db' db'' : Db} {cmd : Cmd} {email operationId : String}
  {tenantId : TenantId} {userId : UserId} {hash password : String}

structure DirectoryRow.Reserves (row : DirectoryRow) (email operationId : String) (tenantId : TenantId)
    (userId : UserId) (hash : String) : Prop where
  lookup : row.lookup = .email email
  operationId : row.operationId = operationId
  tenantId : row.tenantId = tenantId
  userId : row.userId = some userId
  hash : row.pendingPasswordHash = some hash

/-- The user of the tenant is there. -/
def Landed (ports : Ports) (tenantId : TenantId) (db : Db) : Prop :=
  ∃ user ∈ (db.dbForTenant ports tenantId).users, user.tenantId = tenantId

/-- What holds while nobody changes his email: an email has one entry, which reserves it for a tenant and a user
of its own; a user is the one its entry reserves the email for, and has come with its operation; and an entry is
active when its user is there. -/
structure Registered (ports : Ports) (db : Db) : Prop where
  lookups : (db.directory.map (·.lookup)).Nodup
  canon : ∀ row ∈ db.directory, ∀ email, row.lookup = .email email → ports.canonicalizeEmail email = email
  email : ∀ row ∈ db.directory, ∀ email, row.lookup = .email email → row.operationKind = .REGISTER ∧
    row.tenantId ∈ db.drawn ∧ ∃ userId hash, userId ∈ db.drawn ∧
      row.Reserves email row.operationId row.tenantId userId hash
  token : ∀ row ∈ db.directory, ∀ token, row.lookup = .refresh_token_hash token →
    token ∈ db.drawn ∧ row.status = .ACTIVE
  distinct : ∀ row ∈ db.directory, ∀ row' ∈ db.directory, ∀ email email', row.lookup = .email email →
    row'.lookup = .email email' → row.tenantId = row'.tenantId ∨ row.userId = row'.userId → row = row'
  user : ∀ shard, ∀ user ∈ (db.shard shard).users, ports.shardOf user.tenantId = shard ∧
    ∃ row ∈ db.directory, ∃ operationId,
      row.Reserves user.email operationId user.tenantId user.id user.passwordHash ∧
      ⟨user.tenantId, operationId⟩ ∈ (db.shard shard).bootstraps
  boot : ∀ shard, ∀ boot ∈ (db.shard shard).bootstraps, ∃ user ∈ (db.shard shard).users,
    user.tenantId = boot.tenantId
  active : ∀ row ∈ db.directory, ∀ email, row.lookup = .email email → row.status = .ACTIVE →
    Landed ports row.tenantId db

/-- How the accounts may change: what is reserved, registered or completed stays, and what is active stays
active. -/
structure Db.Grows (db db' : Db) : Prop where
  drawn : db.drawn ⊆ db'.drawn
  entry : ∀ row ∈ db.directory, ∀ email operationId tenantId userId hash,
    row.Reserves email operationId tenantId userId hash → ∃ row' ∈ db'.directory,
      row'.Reserves email operationId tenantId userId hash ∧ (row.status = .ACTIVE → row'.status = .ACTIVE)
  user : ∀ shard, (db.shard shard).users ⊆ (db'.shard shard).users
  boot : ∀ shard, (db.shard shard).bootstraps ⊆ (db'.shard shard).bootstraps

theorem Db.Grows.refl (db : Db) : db.Grows db where
  drawn _ hn := hn
  entry row hrow _ _ _ _ _ hres := ⟨row, hrow, hres, id⟩
  user _ _ hu := hu
  boot _ _ hb := hb

theorem Db.Grows.trans (h : db.Grows db') (h' : db'.Grows db'') : db.Grows db'' where
  drawn := List.Subset.trans h.drawn h'.drawn
  entry row hrow _ _ _ _ _ hres := by
    obtain ⟨row', hrow', hres', hact⟩ := h.entry row hrow _ _ _ _ _ hres
    obtain ⟨row'', hrow'', hres'', hact'⟩ := h'.entry row' hrow' _ _ _ _ _ hres'
    exact ⟨row'', hrow'', hres'', fun ha => hact' (hact ha)⟩
  user shard := List.Subset.trans (h.user shard) (h'.user shard)
  boot shard := List.Subset.trans (h.boot shard) (h'.boot shard)

theorem Landed.grows (hl : Landed ports tenantId db) (h : db.Grows db') : Landed ports tenantId db' := by
  obtain ⟨user, huser, ht⟩ := hl
  exact ⟨user, h.user _ huser, ht⟩

/-- What a call guarantees about a command: a user is registered as its entry says, and an entry is activated
when its user is there. -/
def Guarantees (ports : Ports) : Cmd → Db → Prop
  | .reserveTenant email .., _ => ports.canonicalizeEmail email = email
  | .createUser tenantId userId email passwordHash operationId, db =>
    ∃ row ∈ db.directory, row.Reserves email operationId tenantId userId passwordHash
  | .dirActivate lookup operationId, db => ∀ row ∈ db.directory, Db.Pends row lookup operationId →
    ∀ email, row.lookup = .email email → Landed ports row.tenantId db
  | .recordActiveLookup _ token, db => token ∈ db.drawn
  | .dirDeleteByLookup (.email _), _ | .dirDeleteByLookupOp .., _ | .completeEmailChange .., _
  | .reserveEmailChange .., _ | .updateEmail .., _ => False
  | _, _ => True

/-- What the callers agree on while nobody changes his email. -/
def registration (ports : Ports) : Discipline Db Cmd Env where
  inv := Registered ports
  ext := Db.Grows
  guar := Guarantees ports
  may _ _ _ := True
  ext_refl := Db.Grows.refl
  ext_trans := Db.Grows.trans

namespace Registered

theorem empty : Registered ports .empty where
  lookups := List.nodup_nil
  canon _ h := (List.not_mem_nil h).elim
  email _ h := (List.not_mem_nil h).elim
  token _ h := (List.not_mem_nil h).elim
  distinct _ h := (List.not_mem_nil h).elim
  user _ _ h := (List.not_mem_nil h).elim
  boot _ _ h := (List.not_mem_nil h).elim
  active _ h := (List.not_mem_nil h).elim

theorem row_eq (hd : Registered ports db) {row row' : DirectoryRow} (hrow : row ∈ db.directory)
    (hrow' : row' ∈ db.directory) (h : row.lookup = row'.lookup) : row = row' :=
  List.inj_on_of_nodup_map hd.lookups hrow hrow' h

theorem byLookup (hd : Registered ports db) {row : DirectoryRow} (hrow : row ∈ db.directory) :
    db.byLookup row.lookup = some row := by
  cases hf : db.byLookup row.lookup with
  | none =>
    have := List.find?_eq_none.1 hf row hrow
    simp at this
  | some row' =>
    obtain ⟨hmem, hl⟩ := Table.find_spec hf
    rw [hd.row_eq hmem hrow hl]

/-- **Whose the user is**: the user of a tenant is the one its entry reserves the email for. -/
theorem user_eq (hd : Registered ports db) {row : DirectoryRow} (hrow : row ∈ db.directory)
    (hres : row.Reserves email operationId tenantId userId hash) {shard : ShardId} {user : User}
    (huser : user ∈ (db.shard shard).users)
    (h : user.tenantId = tenantId ∨ user.id = userId ∨ user.email = email) :
    user = ⟨userId, email, hash, tenantId⟩ ∧ shard = ports.shardOf tenantId ∧
      ⟨tenantId, operationId⟩ ∈ (db.shard shard).bootstraps := by
  obtain ⟨hshard, row', hrow', operationId', hres', hboot⟩ := hd.user shard user huser
  have heq : row = row' := by
    rcases h with h | h | h
    · exact hd.distinct row hrow row' hrow' _ _ hres.lookup hres'.lookup
        (.inl (by rw [hres.tenantId, hres'.tenantId, h]))
    · exact hd.distinct row hrow row' hrow' _ _ hres.lookup hres'.lookup
        (.inr (by rw [hres.userId, hres'.userId, h]))
    · exact hd.row_eq hrow hrow' (by rw [hres.lookup, hres'.lookup, h])
  subst heq
  obtain ⟨id, email', hash', tenantId'⟩ := user
  obtain rfl : email' = email := by simpa [hres.lookup] using hres'.lookup.symm
  obtain rfl : tenantId' = tenantId := hres'.tenantId.symm.trans hres.tenantId
  obtain rfl : id = userId := by simpa [hres.userId] using hres'.userId.symm
  obtain rfl : hash' = hash := by simpa [hres.hash] using hres'.hash.symm
  obtain rfl : operationId' = operationId := hres'.operationId.symm.trans hres.operationId
  exact ⟨rfl, hshard.symm, hboot⟩

theorem same (hd : Registered ports db) (h : db.SameAccounts db') : Registered ports db' where
  lookups := by
    rw [h.directory]
    exact hd.lookups
  canon := by
    rw [h.directory]
    exact hd.canon
  email row hrow email he := by
    rw [h.directory] at hrow
    obtain ⟨hk, ht, userId, hash, hu, hres⟩ := hd.email row hrow email he
    exact ⟨hk, h.drawn ht, userId, hash, h.drawn hu, hres⟩
  token row hrow token ht := by
    rw [h.directory] at hrow
    exact (hd.token row hrow token ht).imp_left fun hm => h.drawn hm
  distinct := by
    rw [h.directory]
    exact hd.distinct
  user shard user huser := by
    rw [h.users] at huser
    rw [h.directory, h.bootstraps]
    exact hd.user shard user huser
  boot shard := by
    rw [h.users, h.bootstraps]
    exact hd.boot shard
  active row hrow email he ha := by
    rw [h.directory] at hrow
    unfold Landed Db.dbForTenant
    rw [h.users]
    exact hd.active row hrow email he ha

end Registered

theorem Db.SameAccounts.grows (h : db.SameAccounts db') : db.Grows db' where
  drawn := h.drawn
  entry row hrow _ _ _ _ _ hres := ⟨row, h.directory ▸ hrow, hres, id⟩
  user shard := by
    rw [h.users]
    exact List.Subset.refl _
  boot shard := by
    rw [h.bootstraps]
    exact List.Subset.refl _

/-! ## What commands keep -/

section
variable (hd : Registered ports db)
include hd

theorem reserve_registered {row : DirectoryRow} {drawn : List ℕ} (hdrawn : db.drawn ⊆ drawn)
    (hfree : db.byLookup row.lookup = none)
    (hcanon : ∀ email, row.lookup = .email email → ports.canonicalizeEmail email = email)
    (hemail : ∀ email, row.lookup = .email email → row.status = .PENDING ∧ row.operationKind = .REGISTER ∧
      row.tenantId ∈ drawn ∧ row.tenantId ∉ db.drawn ∧ ∃ userId hash, userId ∈ drawn ∧ userId ∉ db.drawn ∧
        row.Reserves email row.operationId row.tenantId userId hash)
    (htoken : ∀ token, row.lookup = .refresh_token_hash token → token ∈ drawn ∧ row.status = .ACTIVE) :
    Registered ports { db with drawn, directory := db.directory ++ [row] } ∧
      db.Grows { db with drawn, directory := db.directory ++ [row] } := by
  have hne : ∀ row' ∈ db.directory, row'.lookup ≠ row.lookup := fun row' hrow' => by
    have := List.find?_eq_none.1 hfree row' hrow'
    simpa using this
  -- the identifiers are new, so that no other entry has them
  have hnew : ∀ row' ∈ db.directory, ∀ email email', row'.lookup = .email email → row.lookup = .email email' →
      ¬ (row'.tenantId = row.tenantId ∨ row'.userId = row.userId) := by
    rintro row' hrow' email email' he' he h
    obtain ⟨-, -, -, ht, userId, hash, -, hu, hres⟩ := hemail email' he
    obtain ⟨-, ht', userId', hash', hu', hres'⟩ := hd.email row' hrow' email he'
    rcases h with h | h
    · exact ht (h ▸ ht')
    · rw [hres.userId, hres'.userId] at h
      exact hu (Option.some.inj h ▸ hu')
  refine ⟨⟨?_, ?_, ?_, ?_, ?_, ?_, hd.boot, ?_⟩, ⟨hdrawn, ?_, fun _ _ h => h, fun _ _ h => h⟩⟩
  · simp only [List.map_append, List.map_cons, List.map_nil]
    refine List.nodup_append.2 ⟨hd.lookups, by simp, ?_⟩
    rintro l hl l' hl' rfl
    obtain ⟨row', hrow', rfl⟩ := List.mem_map.1 hl
    exact hne row' hrow' (by simpa using hl')
  · intro row' hrow' email he
    rcases List.mem_append.1 hrow' with hrow' | hrow'
    · exact hd.canon row' hrow' email he
    · obtain rfl := List.mem_singleton.1 hrow'
      exact hcanon email he
  · intro row' hrow' email he
    rcases List.mem_append.1 hrow' with hrow' | hrow'
    · obtain ⟨hk, ht, userId, hash, hu, hres⟩ := hd.email row' hrow' email he
      exact ⟨hk, hdrawn ht, userId, hash, hdrawn hu, hres⟩
    · obtain rfl := List.mem_singleton.1 hrow'
      obtain ⟨-, hk, ht, -, userId, hash, hu, -, hres⟩ := hemail email he
      exact ⟨hk, ht, userId, hash, hu, hres⟩
  · intro row' hrow' token ht
    rcases List.mem_append.1 hrow' with hrow' | hrow'
    · exact (hd.token row' hrow' token ht).imp_left fun hm => hdrawn hm
    · obtain rfl := List.mem_singleton.1 hrow'
      exact htoken token ht
  · intro row₁ h₁ row₂ h₂ email₁ email₂ he₁ he₂ h
    rcases List.mem_append.1 h₁ with hm₁ | hm₁
    · rcases List.mem_append.1 h₂ with hm₂ | hm₂
      · exact hd.distinct row₁ hm₁ row₂ hm₂ _ _ he₁ he₂ h
      · obtain rfl := List.mem_singleton.1 hm₂
        exact absurd h (hnew row₁ hm₁ _ _ he₁ he₂)
    · obtain rfl := List.mem_singleton.1 hm₁
      rcases List.mem_append.1 h₂ with hm₂ | hm₂
      · exact absurd (h.imp Eq.symm Eq.symm) (hnew row₂ hm₂ _ _ he₂ he₁)
      · exact (List.mem_singleton.1 hm₂).symm
  · intro shard user huser
    obtain ⟨hshard, row', hrow', operationId, hres, hboot⟩ := hd.user shard user huser
    exact ⟨hshard, row', List.mem_append_left _ hrow', operationId, hres, hboot⟩
  · intro row' hrow' email he ha
    rcases List.mem_append.1 hrow' with hrow' | hrow'
    · exact hd.active row' hrow' email he ha
    · obtain rfl := List.mem_singleton.1 hrow'
      rw [(hemail email he).1] at ha
      cases ha
  · exact fun row' hrow' _ _ _ _ _ hres => ⟨row', List.mem_append_left _ hrow', hres, id⟩

theorem activate_registered {lookup : Lookup}
    (hland : ∀ row ∈ db.directory, Db.Pends row lookup operationId → ∀ email, row.lookup = .email email →
      Landed ports row.tenantId db) :
    Registered ports (db.activate e lookup operationId) ∧ db.Grows (db.activate e lookup operationId) := by
  have hcases : ∀ row ∈ (db.activate e lookup operationId).directory, ∃ old ∈ db.directory,
      (row = old ∧ ¬ Db.Pends old lookup operationId) ∨
      (row = { old with status := .ACTIVE, updatedAt := e.now } ∧ Db.Pends old lookup operationId) := by
    intro row hrow
    obtain ⟨old, hold, rfl⟩ := Table.mem_update.1 hrow
    by_cases hp : Db.Pends old lookup operationId
    · exact ⟨old, hold, .inr ⟨if_pos hp, hp⟩⟩
    · exact ⟨old, hold, .inl ⟨if_neg hp, hp⟩⟩
  have hlookups : (db.activate e lookup operationId).directory.map (·.lookup) = db.directory.map (·.lookup) :=
    Table.map_update fun _ _ => rfl
  refine ⟨⟨hlookups ▸ hd.lookups, ?_, ?_, ?_, ?_, ?_, hd.boot, ?_⟩, ⟨fun _ h => h, ?_, fun _ _ h => h, fun _ _ h => h⟩⟩
  · intro row hrow email he
    obtain ⟨old, hold, ⟨rfl, -⟩ | ⟨rfl, -⟩⟩ := hcases row hrow
    · exact hd.canon row hold email he
    · exact hd.canon old hold email he
  · intro row hrow email he
    obtain ⟨old, hold, ⟨rfl, -⟩ | ⟨rfl, -⟩⟩ := hcases row hrow
    · exact hd.email row hold email he
    · obtain ⟨hk, ht, userId, hash, hu, hres⟩ := hd.email old hold email he
      exact ⟨hk, ht, userId, hash, hu, ⟨hres.lookup, rfl, rfl, hres.userId, hres.hash⟩⟩
  · intro row hrow token ht
    obtain ⟨old, hold, ⟨rfl, -⟩ | ⟨rfl, -⟩⟩ := hcases row hrow
    · exact hd.token row hold token ht
    · exact ⟨(hd.token old hold token ht).1, rfl⟩
  · intro row₁ h₁ row₂ h₂ email₁ email₂ he₁ he₂ h
    have hl : row₁.lookup = row₂.lookup := by
      obtain ⟨old₁, hold₁, hr₁⟩ := hcases row₁ h₁
      obtain ⟨old₂, hold₂, hr₂⟩ := hcases row₂ h₂
      have heq : old₁ = old₂ := by
        rcases hr₁ with ⟨rfl, -⟩ | ⟨rfl, -⟩ <;> rcases hr₂ with ⟨rfl, -⟩ | ⟨rfl, -⟩ <;>
          exact hd.distinct _ hold₁ _ hold₂ _ _ he₁ he₂ h
      subst heq
      rcases hr₁ with ⟨rfl, -⟩ | ⟨rfl, -⟩ <;> rcases hr₂ with ⟨rfl, -⟩ | ⟨rfl, -⟩ <;> rfl
    exact List.inj_on_of_nodup_map (hlookups ▸ hd.lookups) h₁ h₂ hl
  · intro shard user huser
    obtain ⟨hshard, row, hrow, operationId', hres, hboot⟩ := hd.user shard user huser
    refine ⟨hshard, ?_⟩
    by_cases hp : Db.Pends row lookup operationId
    · exact ⟨_, Table.mem_update_of hrow hp, operationId',
        ⟨hres.lookup, hres.operationId, hres.tenantId, hres.userId, hres.hash⟩, hboot⟩
    · exact ⟨row, Table.mem_update_of_not hrow hp, operationId', hres, hboot⟩
  · intro row hrow email he ha
    obtain ⟨old, hold, ⟨rfl, -⟩ | ⟨rfl, hp⟩⟩ := hcases row hrow
    · exact hd.active row hold email he ha
    · exact hland old hold hp email he
  · intro row hrow email operationId' tenantId userId hash hres
    by_cases hp : Db.Pends row lookup operationId
    · exact ⟨_, Table.mem_update_of hrow hp,
        ⟨hres.lookup, hres.operationId, hres.tenantId, hres.userId, hres.hash⟩, fun _ => rfl⟩
    · exact ⟨row, Table.mem_update_of_not hrow hp, hres, id⟩

theorem deleteToken_registered {token : Token} :
    Registered ports (db.deleteByLookup (.refresh_token_hash token)) ∧
      db.Grows (db.deleteByLookup (.refresh_token_hash token)) := by
  have hsub : ∀ row ∈ (db.deleteByLookup (.refresh_token_hash token)).directory, row ∈ db.directory :=
    fun row hrow => (List.mem_filter.1 hrow).1
  have hkeep : ∀ row ∈ db.directory, ∀ email, row.lookup = .email email →
      row ∈ (db.deleteByLookup (.refresh_token_hash token)).directory :=
    fun row hrow email he => List.mem_filter.2 ⟨hrow, by simp [he]⟩
  refine ⟨⟨hd.lookups.sublist (List.filter_sublist.map _), fun row hrow => hd.canon row (hsub row hrow),
    fun row hrow => hd.email row (hsub row hrow),
    fun row hrow => hd.token row (hsub row hrow),
    fun row hrow row' hrow' => hd.distinct row (hsub row hrow) row' (hsub row' hrow'), ?_, hd.boot,
    fun row hrow => hd.active row (hsub row hrow)⟩, ⟨fun _ h => h, ?_, fun _ _ h => h, fun _ _ h => h⟩⟩
  · intro shard user huser
    obtain ⟨hshard, row, hrow, operationId, hres, hboot⟩ := hd.user shard user huser
    exact ⟨hshard, row, hkeep row hrow _ hres.lookup, operationId, hres, hboot⟩
  · exact fun row hrow _ _ _ _ _ hres => ⟨row, hkeep row hrow _ hres.lookup, hres, id⟩

theorem addUser_registered {row : DirectoryRow} (hrow : row ∈ db.directory)
    (hres : row.Reserves email operationId tenantId userId hash) {s : Shard}
    (hu : s.users = (db.dbForTenant ports tenantId).users ++ [⟨userId, email, hash, tenantId⟩])
    (hb : ∀ boot, boot ∈ s.bootstraps ↔
      boot ∈ (db.dbForTenant ports tenantId).bootstraps ∨ boot = ⟨tenantId, operationId⟩) :
    Registered ports (db.putShard ports tenantId s) ∧ db.Grows (db.putShard ports tenantId s) := by
  have hself : (db.putShard ports tenantId s).shard (ports.shardOf tenantId) = s := by simp [Db.putShard]
  have hother : ∀ shard, shard ≠ ports.shardOf tenantId →
      (db.putShard ports tenantId s).shard shard = db.shard shard :=
    fun shard hsh => by simp [Db.putShard, Function.update_of_ne hsh]
  have husers : ∀ shard, (db.shard shard).users ⊆ ((db.putShard ports tenantId s).shard shard).users := by
    intro shard user huser
    by_cases hsh : shard = ports.shardOf tenantId
    · subst hsh
      rw [hself, hu]
      exact List.mem_append_left _ huser
    · rwa [hother shard hsh]
  have hboots : ∀ shard, (db.shard shard).bootstraps ⊆ ((db.putShard ports tenantId s).shard shard).bootstraps := by
    intro shard boot hboot
    by_cases hsh : shard = ports.shardOf tenantId
    · subst hsh
      rw [hself, hb]
      exact .inl hboot
    · rwa [hother shard hsh]
  have hgrows : db.Grows (db.putShard ports tenantId s) :=
    ⟨fun _ h => h, fun row hrow _ _ _ _ _ hres => ⟨row, hrow, hres, id⟩, husers, hboots⟩
  refine ⟨⟨hd.lookups, hd.canon, hd.email, hd.token, hd.distinct, ?_, ?_,
    fun row hrow email he ha => (hd.active row hrow email he ha).grows hgrows⟩, hgrows⟩
  · intro shard user huser
    have hold : user ∈ (db.shard shard).users → ports.shardOf user.tenantId = shard ∧ ∃ row ∈ db.directory,
        ∃ operationId, row.Reserves user.email operationId user.tenantId user.id user.passwordHash ∧
          ⟨user.tenantId, operationId⟩ ∈ ((db.putShard ports tenantId s).shard shard).bootstraps := by
      intro huser
      obtain ⟨hshard, row', hrow', operationId', hres', hboot⟩ := hd.user shard user huser
      exact ⟨hshard, row', hrow', operationId', hres', hboots shard hboot⟩
    by_cases hsh : shard = ports.shardOf tenantId
    · subst hsh
      rw [hself, hu] at huser
      rcases List.mem_append.1 huser with huser | huser
      · exact hold huser
      · obtain rfl := List.mem_singleton.1 huser
        refine ⟨rfl, row, hrow, operationId, hres, ?_⟩
        rw [hself]
        exact (hb _).2 (.inr rfl)
    · rw [hother shard hsh] at huser
      exact hold huser
  · intro shard boot hboot
    by_cases hsh : shard = ports.shardOf tenantId
    · subst hsh
      rw [hself, hb] at hboot
      rcases hboot with hboot | rfl
      · obtain ⟨user, huser, ht⟩ := hd.boot _ boot hboot
        exact ⟨user, husers _ huser, ht⟩
      · exact ⟨⟨userId, email, hash, tenantId⟩, by simp [hself, hu], rfl⟩
    · rw [hother shard hsh] at hboot ⊢
      exact hd.boot shard boot hboot

theorem createUser_registered {row : DirectoryRow} (hrow : row ∈ db.directory)
    (hres : row.Reserves email operationId tenantId userId hash) :
    Registered ports (exec ports e (.createUser tenantId userId email hash operationId) db).1 ∧
      db.Grows (exec ports e (.createUser tenantId userId email hash operationId) db).1 := by
  simp only [exec]
  split
  · exact ⟨hd, .refl db⟩
  · split
    · exact ⟨hd, .refl db⟩
    · refine addUser_registered hd hrow hres rfl fun boot => ?_
      split
      next hsome =>
        obtain ⟨found, hfound⟩ := Option.isSome_iff_exists.1 hsome
        obtain ⟨hmem, ht, ho⟩ := Table.find_spec hfound
        obtain rfl : found = ⟨tenantId, operationId⟩ := by rw [← ht, ← ho]
        exact ⟨.inl, fun h => h.elim id fun h => h ▸ hmem⟩
      next => simp

end

theorem createUser_mem {a : Answer}
    (ha : (exec ports e (.createUser tenantId userId email hash operationId) db).2 = .ok a) :
    ⟨userId, email, hash, tenantId⟩ ∈
      ((exec ports e (.createUser tenantId userId email hash operationId) db).1.dbForTenant ports tenantId).users := by
  simp only [exec] at ha ⊢
  split at ha
  · cases ha
  next hid =>
    rw [if_neg hid]
    split at ha
    · cases ha
    next hemail =>
      rw [if_neg hemail]
      simp [Db.dbForTenant, Db.putShard]

theorem createUser_ok (h : ∀ user ∈ (db.dbForTenant ports tenantId).users, ¬ (user.id = userId ∨ user.email = email)) :
    (exec ports e (.createUser tenantId userId email hash operationId) db).2 = .ok (.rowsAffected 1) := by
  simp only [exec]
  rw [if_neg fun hid => hid.elim fun user huser => h user huser.1 (.inl huser.2),
    if_neg fun hemail => hemail.elim fun user huser => h user huser.1 (.inr huser.2)]
  rfl

theorem createUser_directory :
    (exec ports e (.createUser tenantId userId email hash operationId) db).1.directory = db.directory := by
  simp only [exec]
  split
  · rfl
  · split <;> rfl

/-- **What the agreement keeps.** -/
theorem registration_kept : (registration ports).Kept (exec ports) := by
  intro e cmd db hd hg _
  have hsame : db.SameAccounts (exec ports e cmd db).1 →
      Registered ports (exec ports e cmd db).1 ∧ db.Grows (exec ports e cmd db).1 :=
    fun h => ⟨Registered.same hd h, h.grows⟩
  cases cmd with
  | reserveTenant email operationId hash =>
    have h1 : db.fresh e ∉ db.drawn := Db.fresh_not_mem
    have h2 : Db.fresh (e := e) { db with drawn := db.fresh e :: db.drawn } ∉ db.fresh e :: db.drawn :=
      @Db.fresh_not_mem _ { db with drawn := db.fresh e :: db.drawn }
    simp only [exec, Db.reserve]
    split
    · exact ⟨Registered.same hd ⟨fun n hn => by simp [hn], rfl, fun _ => rfl, fun _ => rfl⟩,
        Db.SameAccounts.grows ⟨fun n hn => by simp [hn], rfl, fun _ => rfl, fun _ => rfl⟩⟩
    next hfree =>
      refine reserve_registered hd (fun n hn => by simp [hn]) (Option.not_isSome_iff_eq_none.1 hfree) ?_ ?_
        (by simp)
      all_goals
        rintro email' he
        obtain rfl : email = email' := by simpa using he
      · exact hg
      exact ⟨rfl, rfl, by simp, h1, _, hash, List.mem_cons_self, fun hm => h2 (by simp [hm]), rfl, rfl, rfl, rfl, rfl⟩
  | recordActiveLookup tenantId token =>
    simp only [exec, Db.reserve]
    split
    · exact ⟨hd, .refl db⟩
    next hfree =>
      refine reserve_registered hd (fun n hn => hn) (Option.not_isSome_iff_eq_none.1 hfree) (by simp) (by simp) ?_
      rintro token' ht
      obtain rfl : token = token' := by simpa using ht
      exact ⟨hg, rfl⟩
  | dirActivate lookup operationId => exact activate_registered hd hg
  | dirDeleteByLookup lookup =>
    cases lookup with
    | email => exact hg.elim
    | refresh_token_hash token => exact deleteToken_registered hd
  | createUser tenantId userId email hash operationId =>
    obtain ⟨row, hrow, hres⟩ := hg
    exact createUser_registered hd hrow hres
  | createRefreshToken | revokeTokenById | revokeTokenByHash | revokeTokensByUser | cleanupExpiredTokens
  | createIdentity => exact hsame (exec_sessional trivial)
  | reserveEmailChange | dirDeleteByLookupOp | completeEmailChange | updateEmail => exact hg.elim

end ChronoSynth.Identity

import Mathlib.Data.List.Rotate
import ChronoSynth.Lib.Solo
import ChronoSynth.Identity.Accounts
import ChronoSynth.Identity.Handovers

/-!
# Registration

A registration reserves the email in the directory, creates the identity and the user in the shard, activates
the entry and only then issues tokens; a retry reads back what has been reserved. As long as nobody changes his
email, an email has one entry and one user for ever, whatever calls crash or overlap, and tokens are only given
to a user whose entry is active and whose password is the one that is stored (`registration_safe`).

A retry of a reservation that is still pending goes on where the crashed call stopped, and gives tokens for the
user that was reserved. Once the entry is active, a registration never authenticates: the email exists.
-/

namespace ChronoSynth.Identity

open Prog

variable {ports : Ports} {e : Env} {db db' db'' : Db} {cmd : Cmd} {email operationId : String}
  {tenantId : TenantId} {userId : UserId} {hash password : String}

/-! ## What calls keep -/

section
variable {α β : Type} {l : List (Cmd × Reply)} {Q : List (Cmd × Reply) → Except AuthError β → Db → Prop}

theorem meets_send_of {g : Answer → IdentityCall β}
    (herr : ∀ l err db', db.Grows db' → Q l (.error err) db')
    (hG : ∀ db', db.Grows db' → Registered ports db' → Guarantees ports cmd db')
    (hk : ∀ db' e a, db.Grows db' → Registered ports db' → (exec ports e cmd db').2 = .ok a →
      db.Grows (exec ports e cmd db').1 → Registered ports (exec ports e cmd db').1 →
      (g a).Meets (registration ports) (exec ports) Q (l ++ [(cmd, .ok a)]) (exec ports e cmd db').1) :
    (send cmd >>= g).Meets (registration ports) (exec ports) Q l db := by
  refine .bind (.transaction fun db₁ hext hinv => ⟨hG db₁ hext hinv, fun e _ => ?_⟩)
  obtain ⟨hinv', hext'⟩ := registration_kept e cmd db₁ hinv (hG db₁ hext hinv) trivial
  cases hr : (exec ports e cmd db₁).2 with
  | ok a =>
    exact fun db₂ hext₂ _ =>
      (hk db₁ e a hext hinv hr (hext.trans hext') hinv').ext (D := registration ports) hext₂
  | error err => exact fun db₂ hext₂ _ => herr _ _ _ ((hext.trans hext').trans hext₂)

variable (herr : ∀ l err db, Q l (.error err) db)
include herr

theorem meets_send {g : Answer → IdentityCall β}
    (hG : ∀ db', db.Grows db' → Registered ports db' → Guarantees ports cmd db')
    (hk : ∀ db' e a, db.Grows db' → Registered ports db' → (exec ports e cmd db').2 = .ok a →
      db.Grows (exec ports e cmd db').1 → Registered ports (exec ports e cmd db').1 →
      (g a).Meets (registration ports) (exec ports) Q (l ++ [(cmd, .ok a)]) (exec ports e cmd db').1) :
    (send cmd >>= g).Meets (registration ports) (exec ports) Q l db :=
  meets_send_of (fun l err db _ => herr l err db) hG hk

theorem meets_checking {c : Prop} [Decidable c] {err : AuthError} {g : Unit → IdentityCall β}
    (hk : c → (g ()).Meets (registration ports) (exec ports) Q l db) :
    (checking c err >>= g).Meets (registration ports) (exec ports) Q l db := by
  unfold checking
  split
  next hc => exact hk hc
  next => exact fun _ _ _ => herr _ _ _

theorem generateTokenPair_meets {exchanged : Option Token} {g : TokenPair → IdentityCall β}
    (hk : ∀ l db' pair, db.Grows db' → pair.userId = userId → pair.tenantId = tenantId →
      (g pair).Meets (registration ports) (exec ports) Q l db') :
    (generateTokenPair userId tenantId exchanged >>= g).Meets (registration ports) (exec ports) Q l db := by
  unfold generateTokenPair
  rw [bind_assoc]
  refine meets_send herr (fun _ _ _ => trivial) fun db₁ e₁ a _ _ ha hgrows₁ _ => ?_
  cases a with
  | rowsAffected n => exact fun _ _ _ => herr _ _ _
  | token refreshToken =>
    have hdrawn : refreshToken ∈ (exec ports e₁ (.createRefreshToken tenantId userId exchanged) db₁).1.drawn := by
      obtain ⟨rfl, -⟩ := exec_reply _ ha
      exact List.mem_cons_self
    unfold recordActiveLookup
    rw [bind_assoc, bind_assoc]
    refine meets_send herr (fun db₂ hgrows _ => hgrows.drawn hdrawn) fun db₂ e₂ a₂ _ _ _ hgrows₂ _ => ?_
    unfold readLookup
    rw [bind_assoc, bind_assoc]
    refine .query fun db₃ hgrows₃ _ => ?_
    split
    · exact fun _ _ _ => herr _ _ _
    · exact meets_checking herr fun _ => hk _ _ _ ((hgrows₁.trans hgrows₂).trans hgrows₃) rfl rfl

end

def Reserved (email operationId : String) (tenantId : TenantId) (userId : UserId) (hash : String) (db : Db) :
    Prop := ∃ row ∈ db.directory, row.Reserves email operationId tenantId userId hash

/-- And the entry is active. -/
def Confirmed (email operationId : String) (tenantId : TenantId) (userId : UserId) (hash : String) (db : Db) :
    Prop := ∃ row ∈ db.directory, row.Reserves email operationId tenantId userId hash ∧ row.status = .ACTIVE

theorem Reserved.grows (h : Reserved email operationId tenantId userId hash db) (hg : db.Grows db') :
    Reserved email operationId tenantId userId hash db' := by
  obtain ⟨row, hrow, hres⟩ := h
  obtain ⟨row', hrow', hres', -⟩ := hg.entry row hrow _ _ _ _ _ hres
  exact ⟨row', hrow', hres'⟩

theorem Confirmed.grows (h : Confirmed email operationId tenantId userId hash db) (hg : db.Grows db') :
    Confirmed email operationId tenantId userId hash db' := by
  obtain ⟨row, hrow, hres, hact⟩ := h
  obtain ⟨row', hrow', hres', hact'⟩ := hg.entry row hrow _ _ _ _ _ hres
  exact ⟨row', hrow', hres', hact' hact⟩

theorem Reserved.guarantees (h : Reserved email operationId tenantId userId hash db) (hd : Registered ports db)
    (hland : Landed ports tenantId db) : Guarantees ports (.dirActivate (.email email) operationId) db := by
  intro row hrow hpends _ _
  obtain ⟨row', hrow', hres⟩ := h
  obtain rfl := hd.row_eq hrow hrow' (hpends.1.trans hres.lookup.symm)
  rwa [hres.tenantId]

/-- The tokens are for a user whose entry is active, and whose password is the one that is stored. -/
def Backed (ports : Ports) (email password : String) (pair : TokenPair) (db : Db) : Prop :=
  (∃ row ∈ db.directory, row.lookup = .email email ∧ row.status = .ACTIVE ∧ row.tenantId = pair.tenantId ∧
    row.userId = some pair.userId) ∧
  ∃ user ∈ (db.dbForTenant ports pair.tenantId).users, user.id = pair.userId ∧
    user.tenantId = pair.tenantId ∧ ports.verify user.passwordHash password = true

theorem Confirmed.backed (h : Confirmed email operationId tenantId userId hash db) (hd : Registered ports db)
    (hverify : ports.verify hash password = true) {pair : TokenPair} (hu : pair.userId = userId)
    (ht : pair.tenantId = tenantId) : Backed ports email password pair db := by
  obtain ⟨row, hrow, hres, hact⟩ := h
  obtain ⟨user, huser, htenant⟩ := hd.active row hrow email hres.lookup hact
  rw [hres.tenantId] at huser htenant
  obtain ⟨rfl, -, -⟩ := hd.user_eq hrow hres huser (.inl htenant)
  subst hu ht
  exact ⟨⟨row, hrow, hres.lookup, hact, hres.tenantId, hres.userId⟩, _, huser, rfl, rfl, hverify⟩

def Returns (ports : Ports) : Call → List (Cmd × Reply) → Except AuthError Outcome → Db → Prop
  | .register email password _, _, .ok (.tokens pair), db =>
    Backed ports (ports.canonicalizeEmail email) password pair db
  | .login email password, _, .ok (.tokens pair), db =>
    Backed ports (ports.canonicalizeEmail email) password pair db
  | _, _, _, _ => True

section
variable {β : Type} {l : List (Cmd × Reply)} {Q : List (Cmd × Reply) → Except AuthError β → Db → Prop}

theorem confirm_meets (herr : ∀ l err db, Q l (.error err) db) (hcanon : ports.canonicalizeEmail email = email)
    (hres : Reserved email operationId tenantId userId hash db) (hland : Landed ports tenantId db)
    {g : TokenPair → IdentityCall β}
    (hk : ∀ l db' pair, db.Grows db' → Confirmed email operationId tenantId userId hash db' →
      pair.userId = userId → pair.tenantId = tenantId →
      (g pair).Meets (registration ports) (exec ports) Q l db') :
    (register.confirm ports operationId tenantId userId email >>= g).Meets (registration ports) (exec ports) Q l
      db := by
  have hissue : ∀ l db', db.Grows db' → Confirmed email operationId tenantId userId hash db' →
      (generateTokenPair userId tenantId none >>= g).Meets (registration ports) (exec ports) Q l db' :=
    fun l db' hg hc => generateTokenPair_meets herr fun l db'' pair hg' hu ht =>
      hk l db'' pair (hg.trans hg') (hc.grows hg') hu ht
  have hconverged : ∀ l db', db.Grows db' → ((resolveByEmail ports email >>= fun row => do
      checking (∃ entry ∈ row, entry.tenantId = tenantId ∧ entry.status = .ACTIVE)
        (.AUTH_REGISTRATION_RETRY "注册未确认，请携原 Idempotency-Key 重试")
      generateTokenPair userId tenantId none) >>= g).Meets (registration ports) (exec ports) Q l db' := by
    intro l db' hg
    unfold resolveByEmail
    rw [hcanon, bind_assoc]
    refine .query fun db'' hg' hd => ?_
    rw [bind_assoc]
    refine meets_checking herr fun ⟨entry, hentry, htenant, hact⟩ => hissue l db'' (hg.trans hg') ?_
    -- what is active under the email is what was reserved
    obtain ⟨hmem, hlookup⟩ := Table.find_spec hentry
    obtain ⟨row, hrow, hres⟩ := hres.grows (hg.trans hg')
    obtain rfl := hd.row_eq hmem hrow (hlookup.trans hres.lookup.symm)
    exact ⟨entry, hrow, hres, hact⟩
  unfold register.confirm activateTenant rows
  rw [hcanon, bind_assoc, bind_assoc, bind_assoc]
  refine meets_send herr (fun db₁ hg₁ hd₁ => (hres.grows hg₁).guarantees hd₁ (hland.grows hg₁))
    fun db₁ e₁ a hg₁ hd₁ ha hg₁' _ => ?_
  · obtain rfl : a = .rowsAffected (db₁.directory.countP (Db.Pends · (.email email) operationId)) := by
      simpa [exec, Db.count, eq_comm] using ha
    simp only [pure_eq, ret_bind, decide_eq_true_eq]
    split
    next hone =>
      refine hissue _ _ hg₁' ?_
      -- the entry that has been activated is the reservation
      obtain ⟨row, hrow, hpends⟩ := List.countP_pos_iff.1 (hone ▸ Nat.one_pos)
      have hpends := of_decide_eq_true hpends
      obtain ⟨row', hrow', hres'⟩ := hres.grows hg₁
      obtain rfl := hd₁.row_eq hrow hrow' (hpends.1.trans hres'.lookup.symm)
      exact ⟨_, Table.mem_update_of hrow hpends,
        ⟨hres'.lookup, hres'.operationId, hres'.tenantId, hres'.userId, hres'.hash⟩, rfl⟩
    next => exact hconverged _ _ hg₁'

theorem register_meets : ((Call.register email password operationId).start ports).Meets (registration ports)
    (exec ports) (Returns ports (.register email password operationId)) [] db := by
  have herr : ∀ l err db, Returns ports (.register email password operationId) l (.error err) db :=
    fun _ _ _ => trivial
  have hcanon := ports.canonicalizeEmail_idem email
  rw [Call.start]
  unfold Identity.register resolveByEmail reserveTenant
  simp only [hcanon]
  rw [bind_assoc]
  refine .query fun db₁ _ _ => ?_
  rw [bind_assoc]
  refine meets_checking herr fun _ => ?_
  rw [bind_assoc]
  refine .queryAny fun db₂ _ _ e₂ => ?_
  rw [bind_assoc, bind_assoc]
  refine meets_send herr (fun _ _ _ => hcanon) fun db₃ e₃ a _ _ _ _ _ => ?_
  unfold readLookup
  rw [bind_assoc, bind_assoc]
  refine .query fun db₄ _ hd₄ => ?_
  cases hrow : db₄.byLookup (.email (ports.canonicalizeEmail email)) with
  | none => exact fun _ _ _ => herr _ _ _
  | some row =>
    obtain ⟨hmem, hlookup⟩ := Table.find_spec hrow
    simp only [pure_eq, ret_bind]
    cases huser : row.userId with
    | none => exact fun _ _ _ => herr _ _ _
    | some userId =>
      simp only
      rw [bind_assoc]
      refine meets_checking herr fun _ => ?_
      simp only [ret_bind, decide_eq_false_iff_not]
      split
      · rw [bind_assoc]
        exact .query fun _ _ _ => fun _ _ _ => herr _ _ _
      next hop =>
        obtain rfl : row.operationId = operationId := not_not.1 hop
        cases hhash : row.pendingPasswordHash with
        | none => exact fun _ _ _ => herr _ _ _
        | some hash =>
          simp only
          have hres : Reserved (ports.canonicalizeEmail email) row.operationId row.tenantId userId hash db₄ :=
            ⟨row, hmem, hlookup, rfl, rfl, huser, hhash⟩
          rw [bind_assoc]
          refine meets_checking herr fun hverify => ?_
          rw [bind_assoc]
          refine .query fun db₅ hg₅ hd₅ => ?_
          have hres₅ := hres.grows hg₅
          have hend : ∀ l db₆ pair, Confirmed (ports.canonicalizeEmail email) row.operationId row.tenantId userId
              hash db₆ → pair.userId = userId → pair.tenantId = row.tenantId →
              (return Outcome.tokens pair : IdentityCall Outcome).Meets (registration ports) (exec ports)
                (Returns ports (.register email password row.operationId)) l db₆ :=
            fun l db₆ pair hc hu ht db₇ hg₇ hd₇ => (hc.grows hg₇).backed hd₇ hverify hu ht
          split
          · rw [bind_assoc]
            refine meets_send herr (fun _ _ _ => trivial) fun db₆ e₆ a₆ hg₆ _ _ hg₆' _ => ?_
            rw [bind_assoc]
            refine meets_send herr (fun db₇ hg₇ _ => hres₅.grows (hg₆'.trans hg₇))
              fun db₇ e₇ a₇ hg₇ hd₇ ha₇ hg₇' _ => ?_
            have hland : Landed ports row.tenantId (exec ports e₇ (.createUser row.tenantId userId
                (ports.canonicalizeEmail email) hash row.operationId) db₇).1 :=
              ⟨_, createUser_mem ha₇, rfl⟩
            exact confirm_meets herr hcanon (hres₅.grows (hg₆'.trans hg₇')) hland
              fun l db₈ pair _ hc hu ht => hend l db₈ pair hc hu ht
          next hboot =>
            have hland : Landed ports row.tenantId db₅ := by
              obtain ⟨boot, hboot⟩ := Option.ne_none_iff_exists'.1 hboot
              obtain ⟨hbootmem, ht, -⟩ := Table.find_spec hboot
              obtain ⟨user, husermem, hut⟩ := hd₅.boot _ boot hbootmem
              exact ⟨user, husermem, hut.trans ht⟩
            exact confirm_meets herr hcanon hres₅ hland fun l db₈ pair _ hc hu ht => hend l db₈ pair hc hu ht

theorem login_meets : ((Call.login email password).start ports).Meets (registration ports) (exec ports)
    (Returns ports (.login email password)) [] db := by
  have herr : ∀ l err db, Returns ports (.login email password) l (.error err) db := fun _ _ _ => trivial
  have hcanon := ports.canonicalizeEmail_idem email
  rw [Call.start]
  unfold Identity.login resolveByEmail
  simp only [hcanon]
  rw [bind_assoc]
  refine .query fun db₁ _ hd₁ => ?_
  cases hentry : db₁.byLookup (.email (ports.canonicalizeEmail email)) with
  | none => exact fun _ _ _ => herr _ _ _
  | some entry =>
    obtain ⟨hmem, hlookup⟩ := Table.find_spec hentry
    simp only
    rw [bind_assoc]
    refine meets_checking herr fun hact => ?_
    cases huser : entry.userId with
    | none => exact fun _ _ _ => herr _ _ _
    | some userId =>
      obtain ⟨-, -, userId', hash, -, hres⟩ := hd₁.email entry hmem _ hlookup
      obtain rfl : userId' = userId := by simpa [huser] using hres.userId.symm
      have hconf : Confirmed (ports.canonicalizeEmail email) entry.operationId entry.tenantId userId' hash db₁ :=
        ⟨entry, hmem, hres, hact⟩
      simp only
      rw [bind_assoc]
      refine .query fun db₂ hg₂ hd₂ => ?_
      cases hfound : (db₂.dbForTenant ports entry.tenantId).userById userId' with
      | none => exact fun _ _ _ => herr _ _ _
      | some user =>
        obtain ⟨humem, -⟩ := Table.find_spec hfound
        simp only
        rw [bind_assoc]
        refine meets_checking herr fun ⟨hid, htenant⟩ => ?_
        rw [bind_assoc]
        refine meets_checking herr fun hverify => ?_
        -- the user that is read is the entry's
        obtain ⟨row, hrow, hrres, -⟩ := hconf.grows hg₂
        obtain ⟨rfl, -, -⟩ := hd₂.user_eq hrow hrres humem (.inl htenant)
        exact generateTokenPair_meets herr fun l db₃ pair hg₃ hu ht =>
          fun db₄ hg₄ hd₄ => (hconf.grows ((hg₂.trans hg₃).trans hg₄)).backed hd₄ hverify hu ht

theorem refresh_meets {token : Token} : ((Call.refresh token).start ports).Meets (registration ports)
    (exec ports) (Returns ports (.refresh token)) [] db := by
  have herr : ∀ l err db, Returns ports (.refresh token) l (.error err) db := fun _ _ _ => trivial
  rw [Call.start]
  unfold Identity.refresh resolveByRefreshTokenHash
  rw [bind_assoc, bind_assoc]
  refine .query fun db₁ _ _ => ?_
  cases db₁.byLookup (.refresh_token_hash token) with
  | none => exact fun _ _ _ => herr _ _ _
  | some entry =>
    simp only
    split
    · simp only [pure_eq, ret_bind]
      rw [bind_assoc]
      refine .queryAny fun db₂ _ _ e₂ => ?_
      split
      · exact fun _ _ _ => herr _ _ _
      · rw [bind_assoc]
        refine .query fun db₃ _ _ => ?_
        split
        · exact fun _ _ _ => herr _ _ _
        · rw [bind_assoc]
          refine meets_send herr (fun _ _ _ => trivial) fun _ _ _ _ _ _ _ _ => ?_
          rw [bind_assoc]
          refine meets_send herr (fun _ _ _ => trivial) fun _ _ _ _ _ _ _ _ => ?_
          exact generateTokenPair_meets herr fun _ _ _ _ _ _ => fun _ _ _ => trivial
    · exact fun _ _ _ => herr _ _ _

/-! ### Recovery -/

/-- The entry was in the directory. -/
def Known (ports : Ports) (pending : DirectoryRow) (db : Db) : Prop := ∀ email, pending.lookup = .email email →
  ports.canonicalizeEmail email = email ∧ pending.operationKind = .REGISTER ∧
    ∃ userId hash, Reserved email pending.operationId pending.tenantId userId hash db

theorem isolated_meets {Q : List (Cmd × Reply) → Except AuthError Unit → Db → Prop} {p : IdentityCall Unit}
    (h : p.Meets (registration ports) (exec ports) (fun l _ db => Q l (.ok ()) db) l db) :
    (isolated p).Meets (registration ports) (exec ports) Q l db := by
  induction p generalizing l db with
  | ret a | throw err => exact h
  | read f ih => exact fun db' hg hd o => ih o db' (h db' hg hd o)
  | txn cmd k ih => exact fun db' hg hd => ⟨(h db' hg hd).1, fun o ho => ih _ ((h db' hg hd).2 o ho)⟩

theorem reconcileOne_meets {Q : List (Cmd × Reply) → Except AuthError Unit → Db → Prop} {pending : DirectoryRow}
    (hknown : Known ports pending db) (hQ : ∀ l r db', db.Grows db' → Q l r db') :
    (reconcileOne ports pending).Meets (registration ports) (exec ports) Q l db := by
  unfold reconcileOne
  split
  next email hlookup hkind =>
    obtain ⟨hcanon, -, userId, hash, hres⟩ := hknown email hlookup
    unfold reconcileRegister
    refine .query fun db₁ hg₁ hd₁ => ?_
    split
    · exact fun db' hg _ => hQ _ _ _ (hg₁.trans hg)
    next hboot =>
      obtain ⟨boot, hboot⟩ := Option.ne_none_iff_exists'.1 hboot
      obtain ⟨hbootmem, ht, -⟩ := Table.find_spec hboot
      obtain ⟨user, husermem, hut⟩ := hd₁.boot _ boot hbootmem
      have hland : Landed ports pending.tenantId db₁ := ⟨user, husermem, hut.trans ht⟩
      unfold activateTenant rows
      rw [hcanon, bind_assoc, bind_assoc]
      refine meets_send_of (fun l err db' hg => hQ _ _ _ (hg₁.trans hg))
        (fun db₂ hg₂ hd₂ => (hres.grows (hg₁.trans hg₂)).guarantees hd₂ (hland.grows hg₂)) ?_
      intro db₂ e₂ a _ _ _ hg₂ _
      cases a <;> exact fun db' hg _ => hQ _ _ _ ((hg₁.trans hg₂).trans hg)
  next email hlookup hkind =>
    rw [(hknown email hlookup).2.1] at hkind
    cases hkind
  next => exact fun db' hg _ => hQ _ _ _ hg

theorem Known.grows {pending : DirectoryRow} (h : Known ports pending db) (hg : db.Grows db') :
    Known ports pending db' := by
  intro email hlookup
  obtain ⟨hcanon, hkind, userId, hash, hres⟩ := h email hlookup
  exact ⟨hcanon, hkind, userId, hash, hres.grows hg⟩

theorem reconcile_meets :
    (Call.reconcile.start ports).Meets (registration ports) (exec ports) (Returns ports .reconcile) [] db := by
  have hall : ∀ (stale : List DirectoryRow) l db, (∀ pending ∈ stale, Known ports pending db) →
      (reconcileAll ports stale).Meets (registration ports) (exec ports) (fun _ _ _ => True) l db := by
    intro stale
    induction stale with
    | nil => exact fun _ _ _ => fun _ _ _ => trivial
    | cons pending rest ih =>
      intro l db hknown
      refine .bind (isolated_meets (reconcileOne_meets (hknown pending List.mem_cons_self) ?_))
      exact fun l r db' hg => ih l db' fun pending hp => (hknown pending (List.mem_cons_of_mem _ hp)).grows hg
  rw [Call.start]
  refine .bind ?_
  unfold Identity.reconcile
  refine .queryAny fun db' _ hd e => (hall _ _ _ ?_).mono fun l r db'' _ _ => ?_
  · intro pending hpending email hlookup
    have hmem : pending ∈ db'.directory := (List.mem_filter.1 (List.mem_rotate.1 hpending)).1
    obtain ⟨hkind, -, userId, hash, -, hres⟩ := hd.email pending hmem email hlookup
    exact ⟨hd.canon pending hmem email hlookup, hkind, userId, hash, pending, hmem, hres⟩
  · cases r with
    | ok a => exact fun _ _ _ => trivial
    | error err => trivial

/-! ### All calls -/

/-- The call does not change anybody's email. -/
def Call.KeepsEmails : Call → Prop
  | .updateEmail .. => False
  | _ => True

instance : DecidablePred Call.KeepsEmails := fun c => by
  cases c <;> unfold Call.KeepsEmails <;> infer_instance

theorem Call.start_meets {c : Call} (hc : c.KeepsEmails) :
    (c.start ports).Meets (registration ports) (exec ports) (Returns ports c) [] db := by
  have hrevokes : ∀ c : Call, (∀ cmd, c.May ports cmd → Revokes cmd ∨
      ∃ shard cutoff, cmd = .cleanupExpiredTokens shard cutoff) → (∀ l r db, Returns ports c l r db) →
      (c.start ports).Meets (registration ports) (exec ports) (Returns ports c) [] db := by
    refine fun c hmay hret => c.start_uses.meets registration_kept (fun cmd db hcmd => ?_)
      fun l r db _ _ _ => hret l r db
    rcases hmay cmd hcmd with hr | ⟨_, _, rfl⟩
    · cases cmd with
      | revokeTokenByHash | revokeTokensByUser => exact trivial
      | dirDeleteByLookup lookup =>
        cases lookup with
        | email => exact hr.elim
        | refresh_token_hash => exact trivial
      | _ => exact hr.elim
    · exact trivial
  cases c with
  | register => exact register_meets
  | login => exact login_meets
  | refresh => exact refresh_meets
  | reconcile => exact reconcile_meets
  | logout | revokeByTokenHash => exact hrevokes _ (fun _ h => .inl h) fun _ _ _ => trivial
  | cleanupExpired => exact hrevokes _ (fun _ h => .inr ⟨_, _, h⟩) fun _ _ _ => trivial
  | updateEmail => exact hc.elim

end

/-! ## A retry -/

section
variable {α β : Type} {Q : Except AuthError β → Db → Prop}

theorem ensures_send {g : Answer → IdentityCall β} (h : ∀ e, match (exec ports e cmd db).2 with
    | .ok a => (g a).Ensures (exec ports) Q (exec ports e cmd db).1
    | .error err => Q (.error err) (exec ports e cmd db).1) : (send cmd >>= g).Ensures (exec ports) Q db := by
  refine .bind fun e => ?_
  have h := h e
  cases hr : (exec ports e cmd db).2 with
  | ok a | error err =>
    rw [hr] at h
    exact h

theorem ensures_checking {c : Prop} [Decidable c] (hc : c) {err : AuthError} {g : Unit → IdentityCall β}
    (h : (g ()).Ensures (exec ports) Q db) : (checking c err >>= g).Ensures (exec ports) Q db := by
  unfold checking
  rw [if_pos hc]
  exact h

end

/-- The call returns tokens for the user. -/
def Issued (userId : UserId) (tenantId : TenantId) (r : Except AuthError TokenPair) (_ : Db) : Prop :=
  ∃ token, r = .ok ⟨userId, tenantId, token⟩

theorem generateTokenPair_ensures (hd : Registered ports db) {exchanged : Option Token} :
    (generateTokenPair userId tenantId exchanged).Ensures (exec ports) (Issued userId tenantId) db := by
  refine ensures_send fun e => ?_
  -- the token is new, and so is its entry
  have hfree : ∀ row ∈ db.directory, row.lookup ≠ .refresh_token_hash (db.fresh e) :=
    fun row hrow hl => Db.fresh_not_mem (hd.token row hrow _ hl).1
  have hnone : db.directory.find? (fun row => row.lookup = .refresh_token_hash (db.fresh e)) = none :=
    List.find?_eq_none.2 fun row hrow => by simpa using hfree row hrow
  unfold recordActiveLookup
  simp only [exec]
  rw [bind_assoc]
  refine ensures_send fun e' => ?_
  simp only [exec, Db.reserve, Db.byLookup, Db.putShard, hnone, Option.isSome_none, Bool.false_eq_true, if_false]
  unfold readLookup
  rw [bind_assoc, bind_assoc]
  refine .query ?_
  simp only [Db.byLookup, List.find?_append, hnone, Option.none_or, List.find?_singleton, decide_true, if_true,
    pure_eq, ret_bind]
  exact ensures_checking trivial ⟨_, rfl⟩

/-- The entry is activated, and the tokens are issued. -/
theorem confirm_ensures (hd : Registered ports db) (hcanon : ports.canonicalizeEmail email = email)
    {row : DirectoryRow} (hrow : row ∈ db.directory)
    (hres : row.Reserves email operationId tenantId userId hash) (hpending : row.status = .PENDING)
    (hland : Landed ports tenantId db) :
    (register.confirm ports operationId tenantId userId email).Ensures (exec ports) (Issued userId tenantId) db := by
  have hone : db.directory.countP (Db.Pends · (.email email) operationId) = 1 :=
    (countP_key_eq_one hd.lookups).2 ⟨row, hrow, hres.lookup, hres.operationId, hpending⟩
  unfold register.confirm activateTenant rows
  rw [hcanon, bind_assoc, bind_assoc]
  refine ensures_send fun e => ?_
  have hd' := (activate_registered (e := e) hd (Reserved.guarantees ⟨row, hrow, hres⟩ hd hland)).1
  simp only [exec, Db.count, hone, pure_eq, ret_bind, decide_true, if_true]
  exact generateTokenPair_ensures hd'

/-- The user is registered, unless his operation is completed, and confirmed. -/
theorem bootstrap_ensures (hd : Registered ports db) (hcanon : ports.canonicalizeEmail email = email)
    {row : DirectoryRow} (hrow : row ∈ db.directory)
    (hres : row.Reserves email operationId tenantId userId hash) (hpending : row.status = .PENDING)
    (hidentity : ((db.dbForTenant ports tenantId).bootByOperation tenantId operationId).isSome ∨
      ∀ identity ∈ (db.dbForTenant ports tenantId).identities, identity.userId ≠ userId) :
    (if (db.dbForTenant ports tenantId).bootByOperation tenantId operationId = none then do
      let _ ← send (.createIdentity tenantId userId)
      let _ ← send (.createUser tenantId userId email hash operationId)
      register.confirm ports operationId tenantId userId email
    else register.confirm ports operationId tenantId userId email).Ensures (exec ports)
      (Issued userId tenantId) db := by
  split
  next hnone =>
    have hfree := hidentity.resolve_left (by simp [hnone])
    -- without its operation, the user cannot be there either
    have husers : ∀ user ∈ (db.dbForTenant ports tenantId).users,
        ¬ (user.tenantId = tenantId ∨ user.id = userId ∨ user.email = email) := by
      intro user huser h
      obtain ⟨-, -, hboot⟩ := hd.user_eq hrow hres huser h
      have := List.find?_eq_none.1 hnone _ hboot
      simp at this
    have hno : ¬ ∃ identity ∈ (db.dbForTenant ports tenantId).identities, identity.userId = userId :=
      fun ⟨identity, hmem, hu⟩ => hfree identity hmem hu
    refine ensures_send fun e₁ => ?_
    have hsame : db.SameAccounts (exec ports e₁ (.createIdentity tenantId userId) db).1 := exec_sessional trivial
    have hd₁ := hd.same hsame
    have hok : (exec ports e₁ (.createIdentity tenantId userId) db).2 = .ok (.rowsAffected 1) := by
      simp only [exec, if_neg hno]
      rfl
    rw [hok]
    refine ensures_send fun e₂ => ?_
    have husers₁ : ∀ user ∈ ((exec ports e₁ (.createIdentity tenantId userId) db).1.dbForTenant ports tenantId).users,
        ¬ (user.tenantId = tenantId ∨ user.id = userId ∨ user.email = email) := by
      unfold Db.dbForTenant
      rw [hsame.users]
      exact husers
    have hrow₁ : row ∈ (exec ports e₁ (.createIdentity tenantId userId) db).1.directory := hsame.directory ▸ hrow
    have hok₂ := @createUser_ok ports e₂ _ _ operationId _ _ hash
      fun user huser h => husers₁ user huser (.inr h)
    obtain ⟨hd₂, hgrows₂⟩ := createUser_registered (e := e₂) hd₁ hrow₁ hres
    rw [hok₂]
    refine confirm_ensures hd₂ hcanon ?_ hres hpending ⟨_, createUser_mem hok₂, rfl⟩
    rwa [createUser_directory]
  next hsome =>
    obtain ⟨boot, hboot⟩ := Option.ne_none_iff_exists'.1 hsome
    obtain ⟨hbootmem, ht, -⟩ := Table.find_spec hboot
    obtain ⟨user, husermem, hut⟩ := hd.boot _ boot hbootmem
    exact confirm_ensures hd hcanon hrow hres hpending ⟨user, husermem, hut.trans ht⟩

theorem register_active (hd : Registered ports db)
    (hconf : Confirmed (ports.canonicalizeEmail email) operationId tenantId userId hash db) :
    (register ports email password operationId).Ensures (exec ports)
      (fun r db' => r = .error (.AUTH_EMAIL_EXISTS "该邮箱已注册") ∧ db' = db) db := by
  obtain ⟨row, hrow, hres, hact⟩ := hconf
  have hfound := hd.byLookup hrow
  rw [hres.lookup] at hfound
  unfold register resolveByEmail
  simp only [ports.canonicalizeEmail_idem]
  refine .query ?_
  simp only [hfound]
  unfold checking
  rw [if_neg fun hall => hall row rfl hact]
  exact ⟨rfl, rfl⟩

/-- **A retry of a reservation that is pending gives tokens for the user that was reserved**, unless the identity
of the user is there without the user. -/
theorem register_resumes (hd : Registered ports db) {row : DirectoryRow} (hrow : row ∈ db.directory)
    (hres : row.Reserves (ports.canonicalizeEmail email) operationId tenantId userId hash)
    (hpending : row.status = .PENDING) (hverify : ports.verify hash password = true)
    (hidentity : ((db.dbForTenant ports tenantId).bootByOperation tenantId operationId).isSome ∨
      ∀ identity ∈ (db.dbForTenant ports tenantId).identities, identity.userId ≠ userId) :
    (register ports email password operationId).Ensures (exec ports)
      (Issued userId tenantId) db := by
  have hcanon := ports.canonicalizeEmail_idem email
  have hfound := hd.byLookup hrow
  rw [hres.lookup] at hfound
  unfold register resolveByEmail reserveTenant
  simp only [hcanon]
  refine .query (ensures_checking ?_ (.queryAny fun e₁ => ?_))
  · rintro entry hentry
    obtain rfl : row = entry := Option.some.inj (hfound.symm.trans hentry)
    simp [hpending]
  rw [bind_assoc]
  refine ensures_send fun e₂ => ?_
  obtain ⟨hd₂, -⟩ := registration_kept e₂ (.reserveTenant (ports.canonicalizeEmail email) operationId
    (ports.hash e₁.salt password)) db hd hcanon trivial
  have hfound₂ : ∀ drawn, Db.byLookup { db with drawn } (.email (ports.canonicalizeEmail email)) = some row :=
    fun _ => hfound
  simp only [exec, Db.reserve, hfound₂, Option.isSome_some, if_true] at hd₂ ⊢
  unfold readLookup
  rw [bind_assoc, bind_assoc]
  refine .query ?_
  simp only [hfound₂, pure_eq, ret_bind, hres.userId]
  rw [bind_assoc]
  refine ensures_checking (by simp [hres.hash]) ?_
  simp only [ret_bind, hres.operationId, hres.hash, hres.tenantId, decide_true, Bool.true_eq_false, if_false]
  exact ensures_checking hverify (.query (bootstrap_ensures hd₂ hcanon hrow hres hpending hidentity))

/-! ## Runs -/

/-- An email has one entry and one user; and tokens are for a user whose entry is active and whose password is the
one that is given. -/
structure OneToOne (ports : Ports) (p : IdentityPool) : Prop where
  entry : (p.db.directory.map (·.lookup)).Nodup
  user : ∀ email tenantId userId hash operationId a tenantId' userId' hash' operationId' a',
    p.Logged (.createUser tenantId userId email hash operationId, .ok a) →
    p.Logged (.createUser tenantId' userId' email hash' operationId', .ok a') →
    tenantId = tenantId' ∧ userId = userId'
  registered : ∀ email password operationId l pair,
    ⟨.register email password operationId, l, .ret (.tokens pair)⟩ ∈ p.threads →
    Backed ports (ports.canonicalizeEmail email) password pair p.db
  loggedIn : ∀ email password l pair, ⟨.login email password, l, .ret (.tokens pair)⟩ ∈ p.threads →
    Backed ports (ports.canonicalizeEmail email) password pair p.db

/-- What a call has reserved stays reserved, with a hash of its password; and of what is reserved, a retry with the
key, the email and the password gives tokens for the user while the entry is pending, unless the identity of the
user is there without the user, and says that the email exists once the entry is active. -/
structure Resumable (ports : Ports) (p : IdentityPool) : Prop where
  reserved : ∀ email password operationId l prog email' operationId' hash,
    ⟨.register email password operationId, l, prog⟩ ∈ p.threads →
    (Cmd.reserveTenant email' operationId' hash, Except.ok (Answer.rowsAffected 1)) ∈ l →
    ports.verify hash password = true ∧
      ∃ tenantId userId, Reserved (ports.canonicalizeEmail email) operationId tenantId userId hash p.db
  resumes : ∀ email password operationId tenantId userId hash,
    Reserved (ports.canonicalizeEmail email) operationId tenantId userId hash p.db →
    ¬ Confirmed (ports.canonicalizeEmail email) operationId tenantId userId hash p.db →
    ports.verify hash password = true →
    (((p.db.dbForTenant ports tenantId).bootByOperation tenantId operationId).isSome ∨
      ∀ identity ∈ (p.db.dbForTenant ports tenantId).identities, identity.userId ≠ userId) →
    (register ports email password operationId).Ensures (exec ports) (Issued userId tenantId) p.db
  refuses : ∀ email password operationId tenantId userId hash,
    Confirmed (ports.canonicalizeEmail email) operationId tenantId userId hash p.db →
    (register ports email password operationId).Ensures (exec ports)
      (fun r db' => r = .error (.AUTH_EMAIL_EXISTS "该邮箱已注册") ∧ db' = p.db) p.db

/-- What the logs say is in the tables. -/
structure Kept (ports : Ports) (p : IdentityPool) : Prop where
  user : ∀ email tenantId userId hash operationId a,
    p.Logged (.createUser tenantId userId email hash operationId, .ok a) →
    ⟨userId, email, hash, tenantId⟩ ∈ (p.db.dbForTenant ports tenantId).users
  reserved : ∀ email operationId hash, p.Logged (.reserveTenant email operationId hash, .ok (.rowsAffected 1)) →
    ∃ tenantId userId, Reserved email operationId tenantId userId hash p.db

theorem reserveTenant_reserved
    (h : (exec ports e (.reserveTenant email operationId hash) db).2 = .ok (.rowsAffected 1)) :
    ∃ tenantId userId, Reserved email operationId tenantId userId hash
      (exec ports e (.reserveTenant email operationId hash) db).1 := by
  simp only [exec, Db.reserve] at h ⊢
  split at h
  · simp at h
  next hfree =>
    rw [if_neg hfree]
    exact ⟨_, _, _, List.mem_append_right _ List.mem_cons_self, rfl, rfl, rfl, rfl, rfl⟩

section
variable {p : IdentityPool} {m : IdentityMove}

/-- **Step lemma.** -/
theorem Kept.step (hk : Kept ports p) (hs : p.Sound (registration ports) (exec ports) (Returns ports)) :
    Kept ports (IdentityPool.step ports p m) := by
  have hgrows : p.db.Grows (IdentityPool.step ports p m).db := by
    obtain ⟨-, hdb⟩ | ⟨e, cmd, hm, hdb⟩ := Pool.step_db (Call.start ports) (exec ports) p m
    · rw [IdentityPool.step, hdb]
      exact .refl _
    · rw [IdentityPool.step, hdb]
      exact (registration_kept e cmd p.db hs.inv (hs.guar hm) trivial).2
  refine ⟨fun email tenantId userId hash operationId a hlog => ?_, fun email operationId hash hlog => ?_⟩
  · rcases (Pool.logged_step (Call.start ports) (exec ports) p m _).1 hlog with hlog | ⟨e, hm, hr⟩
    · exact hgrows.user _ (hk.user _ _ _ _ _ _ hlog)
    · obtain ⟨hnone, -⟩ | ⟨e', cmd, hm', hdb⟩ := Pool.step_db (Call.start ports) (exec ports) p m
      · rw [hnone] at hm
        cases hm
      · obtain ⟨rfl, rfl⟩ : e' = e ∧ cmd = _ := by simpa [hm'] using hm
        rw [IdentityPool.step, hdb]
        exact createUser_mem hr.symm
  · rcases (Pool.logged_step (Call.start ports) (exec ports) p m _).1 hlog with hlog | ⟨e, hm, hr⟩
    · obtain ⟨tenantId, userId, hres⟩ := hk.reserved _ _ _ hlog
      exact ⟨tenantId, userId, hres.grows hgrows⟩
    · obtain ⟨hnone, -⟩ | ⟨e', cmd, hm', hdb⟩ := Pool.step_db (Call.start ports) (exec ports) p m
      · rw [hnone] at hm
        cases hm
      · obtain ⟨rfl, rfl⟩ : e' = e ∧ cmd = _ := by simpa [hm'] using hm
        rw [IdentityPool.step, hdb]
        exact reserveTenant_reserved hr.symm

theorem Kept.oneToOne (hk : Kept ports p) (hs : p.Sound (registration ports) (exec ports) (Returns ports)) :
    OneToOne ports p where
  entry := hs.inv.lookups
  user email tenantId userId hash operationId a tenantId' userId' hash' operationId' a' h h' := by
    have huser := hk.user _ _ _ _ _ _ h
    have huser' := hk.user _ _ _ _ _ _ h'
    obtain ⟨-, row, hrow, operationId'', hres, -⟩ := hs.inv.user _ _ huser
    obtain ⟨heq, -, -⟩ := hs.inv.user_eq hrow hres huser' (.inr (.inr rfl))
    obtain ⟨rfl, -, -, rfl⟩ := User.mk.inj heq
    exact ⟨rfl, rfl⟩
  registered email password operationId l pair hth := hs.meets _ hth p.db (Db.Grows.refl _) hs.inv
  loggedIn email password l pair hth := hs.meets _ hth p.db (Db.Grows.refl _) hs.inv

theorem Kept.resumable (hk : Kept ports p) (hs : p.Sound (registration ports) (exec ports) (Returns ports))
    (hlog : ∀ th ∈ p.threads, ∀ entry ∈ th.log, th.call.May ports entry.1) : Resumable ports p where
  reserved email password operationId l prog email' operationId' hash hth hmem := by
    rcases hlog _ hth _ hmem with hi | ⟨salt, hcmd⟩ | ⟨_, _, hcmd⟩ | ⟨_, _, _, hcmd⟩ | hcmd
    · exact hi.elim
    · obtain ⟨rfl, rfl, rfl⟩ := Cmd.reserveTenant.inj hcmd
      exact ⟨ports.verify_hash _ _, hk.reserved _ _ _ ⟨_, hth, hmem⟩⟩
    all_goals cases hcmd
  resumes email password operationId tenantId userId hash hres hconf hverify hidentity := by
    obtain ⟨row, hrow, hres⟩ := hres
    refine register_resumes hs.inv hrow hres ?_ hverify hidentity
    cases hstatus : row.status with
    | PENDING => rfl
    | ACTIVE => exact absurd ⟨row, hrow, hres, hstatus⟩ hconf
  refuses email password operationId tenantId userId hash hconf := register_active hs.inv hconf

end

/-- **Registration.** While nobody changes his email, whatever calls overlap or crash. -/
theorem registration_safe (ports : Ports) (ms : List IdentityMove)
    (hms : ∀ c, .call c ∈ ms → c.KeepsEmails) :
    Always (IdentityPool.step ports) (fun p => OneToOne ports p ∧ Resumable ports p) .init ms := by
  have hcalls : Along (IdentityPool.step ports) (fun _ m => ∀ c, m = .call c → c.KeepsEmails) .init ms := by
    rintro pre m hpre c rfl
    exact hms c (hpre.subset (by simp))
  have hlogs : Always (IdentityPool.step ports)
      (fun p => p.Uses (Call.May ports) ∧ ∀ th ∈ p.threads, ∀ entry ∈ th.log, th.call.May ports entry.1) .init ms :=
    Pool.uses_log_always (@Call.start_uses ports)
  have hall := @Always.of_step _ _ (IdentityPool.step ports)
    (fun p => p.Sound (registration ports) (exec ports) (Returns ports) ∧ Kept ports p) _ _ _
    ⟨.idle .empty, ⟨fun _ _ _ _ _ _ h => by simp [Pool.idle, Pool.Logged] at h,
      fun _ _ _ h => by simp [Pool.idle, Pool.Logged] at h⟩⟩
    (fun p m hp hm => ⟨hp.1.step_call registration_kept (fun c hc db _ => Call.start_meets (hm c hc))
      fun _ _ _ => trivial, hp.2.step hp.1⟩) hcalls
  exact fun pre hpre => ⟨(hall pre hpre).2.oneToOne (hall pre hpre).1,
    (hall pre hpre).2.resumable (hall pre hpre).1 (hlogs pre hpre).2⟩

/-- Somebody registers, and another one who wants the email is refused; the first call crashes before its tokens,
and is recovered. -/
theorem registration_run : Always (IdentityPool.step .plain)
    (fun p => OneToOne .plain p ∧ Resumable .plain p) .init
    ([.call (.register "a" "p" "op"), .call (.register "a" "q" "key")] ++ steps 0 7 0 ++ steps 1 6 1 ++
      [.call .reconcile] ++ steps 2 4 2) :=
  registration_safe .plain _ fun c hc => by
    obtain rfl | rfl | rfl : c = .register "a" "p" "op" ∨ c = .register "a" "q" "key" ∨ c = .reconcile := by
      simpa [steps] using hc
    all_goals trivial

/-- A call that has crashed after its entry was activated cannot be repeated: the email exists. -/
theorem register_crashed_active : ¬ ∀ (ms : List IdentityMove) (email password operationId hash : String)
    (th : IdentityThread), th ∈ (run (IdentityPool.step .plain) .init ms).threads →
    th.call = .register email password operationId →
    (.reserveTenant email operationId hash, .ok (.rowsAffected 1)) ∈ th.log → ∀ os, ∃ pair,
      ((register .plain email password operationId).solo (exec .plain) os
        (run (IdentityPool.step .plain) .init ms).db).2 = .ok pair := by
  intro h
  obtain ⟨th, hth, hcall, hlog⟩ : ∃ th ∈ (run (IdentityPool.step .plain) .init
      ([.call (.register "a" "p" "op")] ++ steps 0 8 0)).threads, th.call = .register "a" "p" "op" ∧
      (.reserveTenant "a" "op" "p", .ok (.rowsAffected 1)) ∈ th.log := by decide +kernel
  obtain ⟨pair, hpair⟩ := h _ _ _ _ _ th hth hcall hlog fun _ => .plain 0
  have herr : ((register .plain "a" "p" "op").solo (exec .plain) (fun _ => .plain 0)
      (run (IdentityPool.step .plain) .init ([.call (.register "a" "p" "op")] ++ steps 0 8 0)).db).2 =
      .error (.AUTH_EMAIL_EXISTS "该邮箱已注册") := by decide +kernel
  rw [herr] at hpair
  cases hpair

end ChronoSynth.Identity

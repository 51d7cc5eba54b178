import Mathlib.Data.List.Chain
import ChronoSynth.Persona.Named

/-!
# The transfers of a persona

A transfer is requested by the owner of the persona and approved by the user it is for. The owner and
the pending transfers are looked at before the transaction of a request, and the approval only wins
its own row, so that two requests may both come through, and both be approved.

Ownership is to be handed on link by link (`TransfersChain`): the transfers of a persona that are
completed are to start with its owner at that time, none is to be completed twice, and of two that have
been pending at the same time only one recipient is to get the persona. `TransferLog` has what is needed
to say so: the transfers that were completed, in their order, and the pairs that were pending together.
-/

namespace ChronoSynth.Persona

variable {env : Env} {t : Tx} {db db' : TenantDb} {k u : Id}

/-! ## The log of a run -/

/-- A transfer that was completed. -/
structure Completion where
  transfer : PersonaTransfer
  /-- The owner of the persona immediately before. -/
  owner : Option Id
  deriving DecidableEq, Repr

/-- What has happened to the transfers. -/
structure TransferLog where
  /-- The transfers that were completed, in their order. -/
  completions : List Completion
  /-- The numbers of two transfers of one persona that have been pending together. -/
  raced : List (Id × Id)
  deriving DecidableEq, Repr

/-- The personas with their owners. -/
def TenantDb.owners (db : TenantDb) : List (Id × Id) :=
  db.personas.map fun pc => (pc.id, pc.ownerUserId)

/-- The owner of a persona. -/
def TenantDb.ownerOf (db : TenantDb) (k : Id) : Option Id :=
  (getPersonaById db k).map PersonaCore.ownerUserId

def TenantDb.pendingTransfers (db : TenantDb) (k : Id) : List PersonaTransfer :=
  db.transfers.filter fun y => y.personaId = k ∧ y.status = .pending_review

/-- A request is inserted beside the pending transfers of its persona; an approval that has committed
completes its transfer. -/
def TransferLog.write (log : TransferLog) (env : Env) (t : Tx) (db : TenantDb) : TransferLog :=
  match t with
  | .requestTransfer k _ _ =>
    { log with
      raced := log.raced ++ (db.pendingTransfers k).map fun y => (y.id, db.transfers.length) }
  | .approveTransfer _ x _ =>
    if (exec env t db).2 = .committed then
      { log with
        completions := log.completions ++
          (db.transfers.filter (·.id = x)).map fun y => ⟨y, db.ownerOf y.personaId⟩ }
    else log
  | _ => log

/-- The transfers of a persona that were completed, in their order. -/
def TransferLog.completionsOf (log : TransferLog) (k : Id) : List Completion :=
  log.completions.filter fun c => c.transfer.personaId = k

/-- The calls in progress, and what has happened to the transfers. -/
abbrev TransferPool := PersonaPool × TransferLog

def TransferPool.step : TransferPool → PersonaMove → TransferPool :=
  noting PersonaPool.step (Pool.logging TransferLog.write)

def TransferPool.init (users : List Id) : TransferPool := (PersonaPool.init users, ⟨[], []⟩)

/-! ## The chain -/

/-- Two transfers of one owner to different users that have been pending together. -/
def TransferLog.Rivals (log : TransferLog) (y y' : PersonaTransfer) : Prop :=
  ((y.id, y'.id) ∈ log.raced ∨ (y'.id, y.id) ∈ log.raced) ∧
    y.fromOwnerUserId = y'.fromOwnerUserId ∧ y.toOwnerUserId ≠ y'.toOwnerUserId

instance (log : TransferLog) (y y' : PersonaTransfer) : Decidable (log.Rivals y y') :=
  inferInstanceAs (Decidable (_ ∧ _))

/-- Ownership is handed on link by link. -/
structure TransfersChain (db : TenantDb) (log : TransferLog) : Prop where
  logged : ∀ y ∈ db.transfers, y.status = .completed ↔ ∃ c ∈ log.completions, c.transfer.id = y.id
  owned : ∀ c ∈ log.completions, c.owner = some c.transfer.fromOwnerUserId
  last : ∀ o ∈ db.owners, ∀ c ∈ (log.completionsOf o.1).getLast?, o.2 = c.transfer.toOwnerUserId
  /-- Each transfer starts where the one before has led to. -/
  linked : ∀ k, (log.completionsOf k).IsChain fun c c' =>
    c'.transfer.fromOwnerUserId = c.transfer.toOwnerUserId
  once : (log.completions.map fun c => c.transfer.id).Nodup
  /-- Of two rivals at most one is completed. -/
  rivals : ∀ c ∈ log.completions, ∀ c' ∈ log.completions, ¬ log.Rivals c.transfer c'.transfer

/-- An approval that wins is of a transfer whose owner still has the persona, and of none that is a rival
of a completed one. -/
def Rightful (log : TransferLog) (_ : Env) (t : Tx) (db : TenantDb) : Prop :=
  match t with
  | .approveTransfer k x _ => ∀ y ∈ db.transfers, y.id = x → y.status = .pending_review →
    db.ownerOf k = some y.fromOwnerUserId ∧
      ∀ c ∈ log.completions, ¬ log.Rivals c.transfer y
  | _ => True

/-! ## What the transactions do to owners and transfers -/

/-- What a transaction does to the owners, the transfers and their log. -/
inductive TransferWrite (db : TenantDb) (log : TransferLog) :
    Tx → TenantDb → TransferLog → Prop
  | create {db' : TenantDb} (owner : Id) (hx : db'.transfers = db.transfers)
      (ho : db'.owners = db.owners ++ [(db.personas.length, owner)]) :
      TransferWrite db log (.createPersona owner) db' log
  | request {db' : TenantDb} (k u v : Id) (y : PersonaTransfer) (hid : y.id = db.transfers.length)
      (hy : y.status = .pending_review) (hx : db'.transfers = db.transfers ++ [y])
      (ho : db'.owners = db.owners) :
      TransferWrite db log (.requestTransfer k u v) db'
        { log with
          raced := log.raced ++ (db.pendingTransfers k).map fun y => (y.id, db.transfers.length) }
  | approve {db' : TenantDb} (k u : Id) (y : PersonaTransfer) (hmem : y ∈ db.transfers)
      (hy : y.status = .pending_review) (hk : y.personaId = k) (hu : y.toOwnerUserId = u)
      (g : PersonaTransfer → PersonaTransfer) (hg : ∀ y, (g y).id = y.id ∧ (g y).status = .completed)
      (hx : db'.transfers = Table.update (·.id = y.id) g db.transfers)
      (ho : db'.owners = Table.update (·.1 = k) (fun o => (o.1, u)) db.owners) :
      TransferWrite db log (.approveTransfer k y.id u) db'
        { log with completions := log.completions ++ [⟨y, db.ownerOf k⟩] }
  /-- Nothing changes. -/
  | none {t : Tx} {db' : TenantDb} (hx : db'.transfers = db.transfers) (ho : db'.owners = db.owners)
      (ht : ∀ k u y, t = .approveTransfer k y u → ∀ x ∈ db.transfers, x.id = y →
        x.status ≠ .pending_review) :
      TransferWrite db log t db' log

theorem mem_owners_iff (hn : db.Numbered) : (k, u) ∈ db.owners ↔ db.ownerOf k = some u := by
  rw [TenantDb.owners, List.mem_map, TenantDb.ownerOf, Option.map_eq_some_iff]
  constructor
  · rintro ⟨pc, hpc, he⟩
    obtain ⟨rfl, rfl⟩ := Prod.mk.inj he
    exact ⟨pc, hn.personas.find hpc, rfl⟩
  · rintro ⟨pc, hpc, rfl⟩
    obtain ⟨hmem, hid⟩ := Table.find_spec hpc
    exact ⟨pc, hmem, Prod.ext hid rfl⟩

theorem owners_update {p : PersonaCore → Prop} [DecidablePred p] {g : PersonaCore → PersonaCore}
    (hp : db'.personas = Table.update p g db.personas)
    (hg : ∀ pc, (g pc).id = pc.id ∧ (g pc).ownerUserId = pc.ownerUserId) :
    db'.owners = db.owners := by
  rw [TenantDb.owners, hp]
  exact Table.map_update fun pc _ => Prod.ext (hg pc).1 (hg pc).2

theorem owners_transfer (hp : db'.personas =
      Table.update (·.id = k) (·.transferOwner env.now u) db.personas) :
    db'.owners = Table.update (·.1 = k) (fun o => (o.1, u)) db.owners := by
  rw [TenantDb.owners, hp, TenantDb.owners, Table.update, Table.update, List.map_map, List.map_map]
  refine List.map_congr_left fun pc _ => ?_
  by_cases hk : pc.id = k
  · simp [hk, PersonaCore.transferOwner]
  · simp [hk]

/-- **What a transaction does** to the owners, the transfers and their log. -/
theorem exec_transferWrite (env : Env) (log : TransferLog) (hn : db.Numbered) (ht : t.Named db) :
    TransferWrite db log t (exec env t db).1 (log.write env t db) := by
  have ep : _ → _ = _ := exec_agree env t db .personas
  have ex : _ → _ = _ := exec_agree env t db .transfers
  have eo : TableName.personas ∉ t.writes → (exec env t db).1.owners = db.owners := fun h => by
    rw [TenantDb.owners, ep h, TenantDb.owners]
  cases t with
  | createPersona owner =>
    refine .create owner rfl ?_
    rw [exec_createPersona]
    simp [TenantDb.owners, PersonaCore.create]
  | requestTransfer k u v => exact .request k u v _ rfl rfl rfl rfl
  | approveTransfer k x u =>
    by_cases hc : db.transfers.countP (fun y => y.id = x ∧ y.status = .pending_review) = 1
    · obtain ⟨y, hmem, rfl, hy⟩ := hn.transfers.countP_eq_one.1 hc
      obtain ⟨y', hmem', hid, rfl, rfl⟩ := ht
      obtain rfl := hn.transfers.eq hmem' hmem hid
      have hlog : log.write env (.approveTransfer y'.personaId y'.id y'.toOwnerUserId) db =
          { log with completions := log.completions ++ [⟨y', db.ownerOf y'.personaId⟩] } := by
        simp only [TransferLog.write, exec_approveTransfer, if_pos hc]
        rw [filter_key_eq_singleton hn.transfers.nodup hmem]
        rfl
      rw [hlog, exec_approveTransfer, if_pos hc]
      refine .approve _ _ y' hmem hy rfl rfl (fun y => (if y.status = .pending_review then
        y.approve env.now else y).complete env.now) (fun y => ⟨?_, rfl⟩) ?_ (owners_transfer rfl)
      · split <;> rfl
      · dsimp only
        rw [Table.update, Table.update, Table.update, List.map_map]
        refine List.map_congr_left fun y _ => ?_
        by_cases hid : y.id = y'.id
        · by_cases hp : y.status = .pending_review
          · simp [hid, hp, PersonaTransfer.approve]
          · simp [hid, hp]
        · simp [hid]
    · have hlog : log.write env (.approveTransfer k x u) db = log := by
        simp only [TransferLog.write, exec_approveTransfer, if_neg hc]
        exact if_neg (by simp)
      rw [hlog, exec_approveTransfer, if_neg hc]
      refine .none rfl rfl fun k' u' y' he z hz hid hpending => ?_
      cases he
      exact hc (hn.transfers.countP_eq_one.2 ⟨z, hz, hid, hpending⟩)
  | activatePersona k =>
    exact .none rfl (owners_update rfl fun _ => ⟨rfl, rfl⟩) (by simp)
  | deactivatePersona k =>
    exact .none rfl (owners_update rfl fun _ => ⟨rfl, rfl⟩) (by simp)
  | addKnowledge k g r => exact .none rfl (owners_update rfl fun _ => ⟨rfl, rfl⟩) (by simp)
  | addGovernanceEvent k r g next =>
    refine .none (ex (by simp [Tx.writes])) ?_ (by simp)
    rw [exec_addGovernanceEvent]
    exact owners_update rfl fun _ => ⟨rfl, rfl⟩
  | applyGovernanceAction g k action dur actor next r =>
    refine .none (ex (by simp [Tx.writes])) ?_ (by simp)
    rw [exec_applyGovernanceAction]
    split
    · exact owners_update rfl fun _ => ⟨rfl, rfl⟩
    · rfl
  | acceptSubmittedTask a =>
    refine .none (ex (by simp [Tx.writes])) ?_ (by simp)
    rw [exec_acceptSubmittedTask]
    split
    · exact owners_update rfl fun _ => ⟨rfl, rfl⟩
    · rfl
  | completeTask c =>
    refine .none (ex (by simp [Tx.writes])) ?_ (by simp)
    obtain ⟨e, -⟩ | ⟨-, -, e⟩ := exec_completeTask_cases env db c
    · rw [e]
    · rw [e]
      exact owners_update rfl fun _ => ⟨rfl, rfl⟩
  | _ => exact .none (ex (by simp [Tx.writes])) (eo (by simp [Tx.writes])) (by simp)

/-! ## Steps -/

section
variable {log log' : TransferLog} {c : Completion}

theorem completionsOf_append : TransferLog.completionsOf ⟨log.completions ++ [c], log.raced⟩ k =
    log.completionsOf k ++ if c.transfer.personaId = k then [c] else [] := by
  rw [TransferLog.completionsOf, List.filter_append, List.filter_singleton]
  simp [TransferLog.completionsOf]

theorem TransferLog.Rivals.symm {y y' : PersonaTransfer} (h : log.Rivals y y') : log.Rivals y' y :=
  ⟨h.1.symm, h.2.1.symm, h.2.2.symm⟩

/-- The chain, and that what was completed is there. -/
structure ChainKept (db : TenantDb) (log : TransferLog) : Prop extends TransfersChain db log where
  completed : ∀ c ∈ log.completions, ∃ y ∈ db.transfers, y.id = c.transfer.id
  personas : ∀ c ∈ log.completions, db.HasPersona c.transfer.personaId

theorem ChainKept.init (users : List Id) : ChainKept (TenantDb.fresh users) ⟨[], []⟩ where
  logged := nofun
  owned := nofun
  last := nofun
  linked _ := .nil
  once := List.nodup_nil
  rivals := nofun
  completed := nofun
  personas := nofun

theorem ChainKept.create (h : ChainKept db log) (hn : db.Numbered) (hg : db.Grows db') {owner : Id}
    (hx : db'.transfers = db.transfers)
    (ho : db'.owners = db.owners ++ [(db.personas.length, owner)]) : ChainKept db' log where
  logged := hx ▸ h.logged
  owned := h.owned
  last := by
    intro o hmem c hc
    rw [ho] at hmem
    rcases List.mem_append.1 hmem with hmem | hmem
    · exact h.last o hmem c hc
    · obtain rfl := List.mem_singleton.1 hmem
      obtain ⟨hc, hk⟩ := List.mem_filter.1 (List.mem_of_getLast? hc)
      obtain ⟨pc, hpc, hid⟩ := h.personas c hc
      exact absurd (hn.personas.lt hpc) (by rw [hid, of_decide_eq_true hk]; exact lt_irrefl _)
  linked := h.linked
  once := h.once
  rivals := h.rivals
  completed := hx ▸ h.completed
  personas c hc := (h.personas c hc).grows hg

theorem ChainKept.request (h : ChainKept db log) (hn : db.Numbered) (hg : db.Grows db')
    {y : PersonaTransfer} {ys : List PersonaTransfer} (hid : y.id = db.transfers.length)
    (hy : y.status = .pending_review) (hx : db'.transfers = db.transfers ++ [y])
    (ho : db'.owners = db.owners) :
    ChainKept db'
      { log with raced := log.raced ++ ys.map fun y => (y.id, db.transfers.length) } := by
  have hnew : ∀ c ∈ log.completions, c.transfer.id ≠ db.transfers.length := by
    intro c hc he
    obtain ⟨x, hmem, hxid⟩ := h.completed c hc
    exact absurd (hn.transfers.lt hmem) (by rw [hxid, he]; exact lt_irrefl _)
  refine ⟨⟨fun x hmem => ?_, h.owned, ho ▸ h.last, h.linked, h.once, fun c hc c' hc' hrivals => ?_⟩,
    fun c hc => ?_, fun c hc => (h.personas c hc).grows hg⟩
  · rw [hx] at hmem
    rcases List.mem_append.1 hmem with hmem | hmem
    · exact h.logged x hmem
    · obtain rfl := List.mem_singleton.1 hmem
      rw [hy]
      exact iff_of_false nofun fun ⟨c, hc, he⟩ => hnew c hc (he.trans hid)
  · have hold : ∀ c ∈ log.completions, ∀ c' ∈ log.completions,
        (c.transfer.id, c'.transfer.id) ∈ log.raced ++ ys.map (fun y => (y.id, db.transfers.length)) →
          (c.transfer.id, c'.transfer.id) ∈ log.raced := by
      intro c hc c' hc' hmem
      refine (List.mem_append.1 hmem).resolve_right fun hmem => ?_
      obtain ⟨x, -, he⟩ := List.mem_map.1 hmem
      exact hnew c' hc' (Prod.mk.inj he).2.symm
    obtain ⟨hraced, hsame⟩ := hrivals
    exact h.rivals c hc c' hc' ⟨hraced.imp (hold c hc c' hc') (hold c' hc' c hc), hsame⟩
  · obtain ⟨x, hmem, he⟩ := h.completed c hc
    exact ⟨x, hx ▸ List.mem_append_left _ hmem, he⟩

/-- A rightful approval adds a link. -/
theorem ChainKept.approve (h : ChainKept db log) (hn : db.Numbered) (hg : db.Grows db')
    {y : PersonaTransfer} (hmem : y ∈ db.transfers) (hy : y.status = .pending_review)
    (hk : db.HasPersona y.personaId) {g : PersonaTransfer → PersonaTransfer}
    (hcomplete : ∀ y, (g y).id = y.id ∧ (g y).status = .completed)
    (hx : db'.transfers = Table.update (·.id = y.id) g db.transfers)
    (ho : db'.owners = Table.update (·.1 = y.personaId) (fun o => (o.1, y.toOwnerUserId)) db.owners)
    (howner : db.ownerOf y.personaId = some y.fromOwnerUserId)
    (hrivals : ∀ c ∈ log.completions, ¬ log.Rivals c.transfer y) :
    ChainKept db'
      { log with completions := log.completions ++ [⟨y, db.ownerOf y.personaId⟩] } := by
  have hpending : ∀ c ∈ log.completions, c.transfer.id ≠ y.id := by
    intro c hc he
    rw [(h.logged y hmem).2 ⟨c, hc, he⟩] at hy
    cases hy
  refine ⟨⟨fun x hmem' => ?_, fun c hc => ?_, fun o hmem' c hc => ?_, fun k => ?_, ?_,
    fun c hc c' hc' hr => ?_⟩, fun c hc => ?_, fun c hc => ?_⟩
  · rw [hx] at hmem'
    obtain ⟨x, hold, rfl⟩ := Table.mem_update.1 hmem'
    by_cases hid : x.id = y.id
    · rw [if_pos hid]
      refine iff_of_true (hcomplete x).2 ⟨_, List.mem_append_right _ (List.mem_singleton_self _), ?_⟩
      exact (hid.symm.trans (hcomplete x).1.symm)
    · rw [if_neg hid, h.logged x hold]
      constructor
      · rintro ⟨c, hc, he⟩
        exact ⟨c, List.mem_append_left _ hc, he⟩
      · rintro ⟨c, hc, he⟩
        rcases List.mem_append.1 hc with hc | hc
        · exact ⟨c, hc, he⟩
        · obtain rfl := List.mem_singleton.1 hc
          exact absurd he.symm hid
  · rcases List.mem_append.1 hc with hc | hc
    · exact h.owned c hc
    · rwa [List.mem_singleton.1 hc]
  · rw [ho] at hmem'
    obtain ⟨o, hold, rfl⟩ := Table.mem_update.1 hmem'
    rw [completionsOf_append] at hc
    by_cases hk : o.1 = y.personaId
    · simp only [hk, if_true, List.getLast?_concat, Option.mem_some_iff] at hc ⊢
      rw [← hc]
    · simp only [if_neg hk, if_neg (Ne.symm hk), List.append_nil] at hc ⊢
      exact h.last o hold c hc
  · rw [completionsOf_append]
    split
    next hk =>
      refine (h.linked k).append (.singleton _) fun c hc c' hc' => ?_
      -- the owner has the persona from the last transfer
      obtain rfl : (⟨y, db.ownerOf y.personaId⟩ : Completion) = c' := by simpa using hc'
      have hown := (mem_owners_iff hn).2 howner
      exact h.last _ hown c (hk ▸ hc)
    next =>
      rw [List.append_nil]
      exact h.linked k
  · rw [List.map_append, List.map_singleton, List.nodup_append]
    refine ⟨h.once, List.nodup_singleton _, fun a ha b hb => ?_⟩
    obtain ⟨c, hc, rfl⟩ := List.mem_map.1 ha
    rw [List.mem_singleton.1 hb]
    exact hpending c hc
  · rcases List.mem_append.1 hc with hc | hc
    · rcases List.mem_append.1 hc' with hc' | hc'
      · exact h.rivals c hc c' hc' hr
      · obtain rfl := List.mem_singleton.1 hc'
        exact hrivals c hc hr
    · obtain rfl := List.mem_singleton.1 hc
      rcases List.mem_append.1 hc' with hc' | hc'
      · exact hrivals c' hc' hr.symm
      · obtain rfl := List.mem_singleton.1 hc'
        exact hr.2.2 rfl
  · have hthere : ∃ x ∈ db.transfers, x.id = c.transfer.id := by
      rcases List.mem_append.1 hc with hc | hc
      · exact h.completed c hc
      · exact ⟨y, hmem, by rw [List.mem_singleton.1 hc]⟩
    rw [hx]
    exact Table.exists_mem_update hthere fun x _ he => (hcomplete x).1.trans he
  · rcases List.mem_append.1 hc with hc | hc
    · exact (h.personas c hc).grows hg
    · rw [List.mem_singleton.1 hc]
      exact hk.grows hg

/-- Where nothing changes nothing changes. -/
theorem ChainKept.none (h : ChainKept db log) (hg : db.Grows db') (hx : db'.transfers = db.transfers)
    (ho : db'.owners = db.owners) : ChainKept db' log :=
  ⟨⟨hx ▸ h.logged, h.owned, ho ▸ h.last, h.linked, h.once, h.rivals⟩, hx ▸ h.completed,
    fun c hc => (h.personas c hc).grows hg⟩

/-- **Step lemma**: a rightful transaction keeps the chain. -/
theorem ChainKept.step (h : ChainKept db log) (hn : db.Numbered)
    (hp : ∀ x ∈ db.transfers, db.HasPersona x.personaId) (ht : t.Named db)
    (hr : Rightful log env t db) : ChainKept (exec env t db).1 (log.write env t db) := by
  have hg := exec_grows env t db
  have hw := exec_transferWrite env log hn ht
  generalize (exec env t db).1 = db' at hg hw ⊢
  generalize log.write env t db = log' at hw ⊢
  cases hw with
  | create owner hx ho => exact h.create hn hg hx ho
  | request k u v y hid hy hx ho => exact h.request hn hg hid hy hx ho
  | approve k u y hmem hy hk hu g hcomplete hx ho =>
    subst hk hu
    obtain ⟨howner, hrivals⟩ := hr y hmem rfl hy
    exact h.approve hn hg hmem hy (hp y hmem) hcomplete hx ho howner hrivals
  | none hx ho _ => exact h.none hg hx ho

theorem TransfersChain.rightful (hn : db.Numbered) (ht : t.Named db)
    (h : TransfersChain (exec env t db).1 (log.write env t db)) : Rightful log env t db := by
  have hw := exec_transferWrite env log hn ht
  generalize (exec env t db).1 = db' at h hw
  generalize log.write env t db = log' at h hw
  cases hw with
  | create owner hx ho => trivial
  | request k u v y hid hy hx ho => trivial
  | approve k u y hmem hy hk hu g hcomplete hx ho =>
    intro x hmem' hid _
    obtain rfl := hn.transfers.eq hmem' hmem hid
    have hnew : (⟨x, db.ownerOf k⟩ : Completion) ∈ log.completions ++ [⟨x, db.ownerOf k⟩] :=
      List.mem_append_right _ (List.mem_singleton_self _)
    refine ⟨h.owned _ hnew, fun c hc hr => ?_⟩
    exact h.rivals c (List.mem_append_left _ hc) _ hnew hr
  | none hx ho hlost =>
    cases t with
    | approveTransfer k x u => exact fun y hmem hid hy => absurd hy (hlost k u x rfl y hmem hid)
    | _ => trivial

end

/-! ## Runs -/

/-- **Ownership is handed on link by link** in exactly the runs in which every approval that wins finds
the persona with the owner who has requested the transfer, and no rival of it completed. -/
theorem transfersChain_iff (users : List Id) (ms : List PersonaMove) :
    Always TransferPool.step (fun x => TransfersChain x.1.db x.2) (.init users) ms ↔
      Along TransferPool.step (fun x m => x.1.AtCommit (Rightful x.2) m) (.init users) ms :=
  Pool.always_iff_logging (I := ChainKept) (D := named) (Q := fun _ => anything)
    ⟨.fresh users, by simp [TenantDb.fresh]⟩ (.init users) named_kept (fun _ _ _ => trivial)
    (fun c db _ => start_named c db) (fun _ _ h => h.toTransfersChain)
    (fun _ _ _ _ hinv ht h hr => h.step hinv.1 hinv.2 ht hr)
    fun _ _ _ _ hinv ht _ h => h.rightful hinv.1 ht

/-- Two requests of the owner come through, and both recipients approve: the second transfer does not
start with the owner. -/
theorem transferred_twice :
    ¬ Always TransferPool.step (fun x => TransfersChain x.1.db x.2) (.init [1, 2, 3])
      ([.call (.createPersona ⟨1⟩), .call (.requestTransfer ⟨1, 0, 2⟩),
        .call (.requestTransfer ⟨1, 0, 3⟩), .call (.approveTransfer ⟨0, 0, 3⟩),
        .call (.approveTransfer ⟨0, 1, 2⟩), .go 0 (.ofTime 1)] ++
      List.replicate 3 (.go 1 (.ofTime 2)) ++
      List.replicate 4 (.go 2 (.ofTime 2)) ++ [.go 1 (.ofTime 3)] ++
      List.replicate 2 (.go 3 (.ofTime 4)) ++ List.replicate 2 (.go 4 (.ofTime 5))) := by
  intro h
  have howned := h.last.owned
  revert howned
  decide +kernel

end ChronoSynth.Persona

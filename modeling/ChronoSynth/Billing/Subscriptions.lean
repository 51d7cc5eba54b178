import ChronoSynth.Billing.PlanSync

/-!
# Dead subscriptions

Stripe delivers the events of a subscription in any order and may deliver one more than once. After its
`customer.subscription.deleted` a subscription is dead: it should never be active or past due again, and the
quotas should stay those of the free plan. The handlers ask neither when an event was made nor whether the
subscription is dead, so an `invoice.paid` that comes late makes it active again.

`dead_iff` says which events spare a dead subscription; the invariant `Settled` also says that synchronising the
free plan once more would change nothing.
-/

namespace ChronoSynth.Stripe

open Tenancy (QuotaLimits QuotaLimitRow)

/-- An event is delivered; where the transaction fails it is rolled back. -/
structure Delivery where
  event : StripeEvent
  now : ℕ
  fails : Bool
  deriving DecidableEq

/-- What has been processed: the events, and the quotas as they were after the latest deletion. -/
structure Past where
  processed : List String
  quotas : Option QuotaLimits

/-- Nothing has been processed. -/
def Past.none : Past := ⟨[], Option.none⟩

variable (prices : StripePrices)

def deliver (db : BillingDb) (d : Delivery) : BillingDb :=
  if d.fails then db else (processEvent prices d.now db d.event).1

def Processes (db : BillingDb) (d : Delivery) : Prop := d.fails = false ∧ ¬ db.Recorded d.event

instance (db : BillingDb) (d : Delivery) : Decidable (Processes db d) := inferInstanceAs (Decidable (_ ∧ _))

def note (db : BillingDb) (past : Past) (d : Delivery) : Past :=
  if Processes db d then {
    processed := d.event.id :: past.processed
    quotas := if d.event.kind = .subscriptionDeleted then some (deliver prices db d).quotaLimits else past.quotas }
  else past

def SubscriptionStatus.isLive (status : SubscriptionStatus) : Prop := status = .active ∨ status = .pastDue

instance (status : SubscriptionStatus) : Decidable status.isLive := inferInstanceAs (Decidable (_ ∨ _))

/-- Once its deletion has been processed the customer's subscription is neither active nor past due, and the
quotas are what the deletion has left. -/
def StaysDead (customerId : String) (x : BillingDb × Past) : Prop :=
  ∀ quotas, x.2.quotas = some quotas →
    (∀ row ∈ x.1.subscriptions, row.stripeCustomerId = some customerId → ¬ row.status.isLive) ∧
      x.1.quotaLimits = quotas

/-- An event that has been processed has no further effect. -/
def NoFurtherEffect (x : BillingDb × Past) (d : Delivery) : Prop :=
  d.event.id ∈ x.2.processed → processEvent prices d.now x.1 d.event = (x.1, true)

/-- What an event may say of a dead subscription. -/
def SparesRow (d : Delivery) (row : SubscriptionRow) : EventKind → Prop
  | .subscriptionUpsert =>
    ¬ (mapStatus d.event.object.status).isLive ∧
      getPlanLimits (resolvePlanId prices d.event.object.priceId row.planId) = freePlan.limits
  | .invoicePaid => d.event.object.customer.id = "" ∨ row.status = .trialing
  | .invoicePaymentFailed => d.event.object.customer.id = ""
  | .subscriptionDeleted | .trialWillEnd | .unhandled => True

instance (d : Delivery) (row : SubscriptionRow) : (kind : EventKind) → Decidable (SparesRow prices d row kind)
  | .subscriptionUpsert => inferInstanceAs (Decidable (_ ∧ _))
  | .invoicePaid => inferInstanceAs (Decidable (_ ∨ _))
  | .invoicePaymentFailed => inferInstanceAs (Decidable (_ = _))
  | .subscriptionDeleted | .trialWillEnd | .unhandled => inferInstanceAs (Decidable True)

def Spares (customerId : String) (x : BillingDb × Past) (d : Delivery) : Prop :=
  x.2.quotas.isSome → Processes x.1 d → ∀ row ∈ x.1.subByStripeCustomer customerId,
    SparesRow prices d row d.event.kind

instance (customerId : String) (x : BillingDb × Past) (d : Delivery) :
    Decidable (Spares prices customerId x d) := inferInstanceAs (Decidable (_ → _ → ∀ _ ∈ _, _))

variable {prices} {db : BillingDb} {customerId tenantId : String} {x : BillingDb × Past} {d : Delivery}
  {row tenantSub : SubscriptionRow}

/-! ## Lookups and updates -/

/-- An update that does not touch what subscriptions are looked up by. -/
structure KeepsKeys (f : SubscriptionRow → SubscriptionRow) : Prop where
  id : ∀ row, (f row).id = row.id
  tenantId : ∀ row, (f row).tenantId = row.tenantId
  stripeCustomerId : ∀ row, (f row).stripeCustomerId = row.stripeCustomerId
  createdAt : ∀ row, (f row).createdAt = row.createdAt

section
variable {p : SubscriptionRow → Prop} [DecidablePred p] {f : SubscriptionRow → SubscriptionRow}

theorem subByStripeCustomer_mem (h : db.subByStripeCustomer customerId = some row) :
    row ∈ db.subscriptions ∧ row.stripeCustomerId = some customerId := by
  simpa using List.mem_filter.1 (Table.latest_mem h)

/-- The same row is found, with its new values. -/
theorem subByStripeCustomer_update (hk : KeepsKeys f) :
    (db.updateSubscriptions p f hk.id).subByStripeCustomer customerId =
      (db.subByStripeCustomer customerId).map fun row => if p row then f row else row := by
  have hfilter : (db.updateSubscriptions p f hk.id).subscriptions.filter
      (fun row => row.stripeCustomerId = some customerId) =
        (db.subscriptions.filter fun row => row.stripeCustomerId = some customerId).map
          fun row => if p row then f row else row := by
    simp only [BillingDb.updateSubscriptions, Table.update, List.filter_map]
    congr 1
    refine List.filter_congr fun row _ => ?_
    by_cases hp : p row
    · simp [hp, hk.stripeCustomerId]
    · simp [hp]
  rw [BillingDb.subByStripeCustomer, hfilter, Table.latest_map]
  · rfl
  · intro row
    split_ifs
    · exact hk.createdAt row
    · rfl

theorem subByStripeCustomer_updated (hk : KeepsKeys f)
    (hsub : db.subByStripeCustomer customerId = some tenantSub) :
    (db.updateSubscriptions (fun row => row.id = tenantSub.id) f hk.id).subByStripeCustomer customerId =
      some (f tenantSub) := by
  rw [subByStripeCustomer_update hk, hsub, Option.map_some, if_pos rfl]

theorem latestSubscription_update (hk : KeepsKeys f) :
    (db.updateSubscriptions p f hk.id).latestSubscription tenantId =
      (db.latestSubscription tenantId).map fun row => if p row then f row else row := by
  have hfilter : (db.updateSubscriptions p f hk.id).subscriptions.filter (fun row => row.tenantId = tenantId) =
      (db.subscriptions.filter fun row => row.tenantId = tenantId).map fun row => if p row then f row else row := by
    simp only [BillingDb.updateSubscriptions, Table.update, List.filter_map]
    congr 1
    refine List.filter_congr fun row _ => ?_
    by_cases hp : p row
    · simp [hp, hk.tenantId]
    · simp [hp]
  rw [BillingDb.latestSubscription, hfilter, Table.latest_map]
  · rfl
  · intro row
    split_ifs
    · exact hk.createdAt row
    · rfl

end

theorem row_eq_of_id (h : row ∈ db.subscriptions) (h' : tenantSub ∈ db.subscriptions)
    (hid : row.id = tenantSub.id) : row = tenantSub :=
  List.inj_on_of_nodup_map db.ids h h' hid

theorem updateSubscriptions_twice {f g : SubscriptionRow → SubscriptionRow} {hf : ∀ row, (f row).id = row.id}
    {hg : ∀ row, (g row).id = row.id} {rowId : String} :
    (db.updateSubscriptions (fun row => row.id = rowId) f hf).updateSubscriptions (fun row => row.id = rowId) g hg =
      db.updateSubscriptions (fun row => row.id = rowId) (fun row => g (f row))
        fun row => (hg (f row)).trans (hf row) := by
  have h : Table.update (fun row : SubscriptionRow => row.id = rowId) g
      (Table.update (fun row => row.id = rowId) f db.subscriptions) =
        Table.update (fun row => row.id = rowId) (fun row => g (f row)) db.subscriptions := by
    simp only [Table.update, List.map_map]
    refine List.map_congr_left fun row _ => ?_
    by_cases hp : row.id = rowId
    · simp [hp, hf row]
    · simp [hp]
  simp only [BillingDb.updateSubscriptions, h]

/-! ## The invariant -/

/-- Synchronising the free plan once more would change no quota of the tenant. -/
def Synced (db : BillingDb) (tenantId : String) : Prop := (db.syncPlan tenantId "free").quotaLimits = db.quotaLimits

/-- A dead subscription: its rows are not live, their plan has no more than the free one, and the quotas are
those of the free plan. -/
structure Settled (customerId : String) (db : BillingDb) : Prop where
  status : ∀ row ∈ db.subscriptions, row.stripeCustomerId = some customerId → ¬ row.status.isLive
  plan : ∀ row ∈ db.subscriptions, row.stripeCustomerId = some customerId →
    getPlanLimits row.planId = freePlan.limits
  synced : ∀ row ∈ db.subByStripeCustomer customerId, Synced db row.tenantId

/-- What has been processed is recorded, and a subscription spared so far is settled. -/
structure Sparing (customerId : String) (x : BillingDb × Past) : Prop where
  recorded : ∀ id ∈ x.2.processed, ∃ row ∈ x.1.webhookEvents, row.eventId = id
  settled : ∀ quotas, x.2.quotas = some quotas → Settled customerId x.1 ∧ x.1.quotaLimits = quotas

namespace Sparing

theorem staysDead (h : Sparing customerId x) : StaysDead customerId x :=
  fun quotas hq => ⟨(h.settled quotas hq).1.status, (h.settled quotas hq).2⟩

theorem noFurtherEffect (h : Sparing customerId x) : NoFurtherEffect prices x d := fun hd => by
  have hrec : x.1.Recorded d.event := h.recorded _ hd
  rw [processEvent, if_pos hrec]

end Sparing

/-- Only the rows with the id of the row found are written, so an update of that row which keeps it dead keeps
the customer's rows dead. -/
theorem forall_update {P : SubscriptionRow → Prop} {f : SubscriptionRow → SubscriptionRow}
    {hf : ∀ row, (f row).id = row.id} (hsub : db.subByStripeCustomer customerId = some tenantSub)
    (h : ∀ row ∈ db.subscriptions, row.stripeCustomerId = some customerId → P row) (hP : P (f tenantSub)) :
    ∀ row ∈ (db.updateSubscriptions (fun row => row.id = tenantSub.id) f hf).subscriptions,
      row.stripeCustomerId = some customerId → P row := by
  intro row hrow hc
  obtain ⟨row₀, hrow₀, rfl⟩ := Table.mem_update.1 hrow
  by_cases hid : row₀.id = tenantSub.id
  · rw [if_pos hid, row_eq_of_id hrow₀ (subByStripeCustomer_mem hsub).1 hid]
    exact hP
  · rw [if_neg hid] at hc ⊢
    exact h row₀ hrow₀ hc

theorem computeEffectiveLimits_update {f : SubscriptionRow → SubscriptionRow} (hk : KeepsKeys f)
    (hsub : db.subByStripeCustomer customerId = some tenantSub)
    (hp : getPlanLimits (f tenantSub).planId = getPlanLimits tenantSub.planId) :
    (db.updateSubscriptions (fun row => row.id = tenantSub.id) f hk.id).computeEffectiveLimits tenantId =
      db.computeEffectiveLimits tenantId := by
  refine BillingDb.computeEffectiveLimits_congr ?_ rfl
  rw [latestSubscription_update hk]
  cases hl : db.latestSubscription tenantId with
  | none => rfl
  | some row =>
    simp only [Option.map_some, Option.elim_some]
    by_cases hid : row.id = tenantSub.id
    · have hrow : row ∈ db.subscriptions := List.mem_of_mem_filter (Table.latest_mem hl)
      rw [if_pos hid, row_eq_of_id hrow (subByStripeCustomer_mem hsub).1 hid, hp]
    · rw [if_neg hid]

/-- **An update of a dead subscription** that keeps its row dead. -/
theorem Settled.update {f : SubscriptionRow → SubscriptionRow} (h : Settled customerId db) (hk : KeepsKeys f)
    (hsub : db.subByStripeCustomer customerId = some tenantSub) (hlive : ¬ (f tenantSub).status.isLive)
    (hp : getPlanLimits (f tenantSub).planId = freePlan.limits) :
    Settled customerId (db.updateSubscriptions (fun row => row.id = tenantSub.id) f hk.id) := by
  have hmem := subByStripeCustomer_mem hsub
  have hplan := hp.trans (h.plan tenantSub hmem.1 hmem.2).symm
  refine ⟨forall_update hsub h.status hlive, forall_update hsub h.plan hp, fun row hrow => ?_⟩
  rw [subByStripeCustomer_updated hk hsub] at hrow
  obtain rfl : f tenantSub = row := by simpa using hrow
  rw [Synced, hk.tenantId]
  exact (BillingDb.syncPlan_congr rfl (computeEffectiveLimits_update hk hsub hplan) rfl).trans
    (h.synced tenantSub hsub)

theorem synced_congr {db' : BillingDb} (h : Synced db tenantId) (hsubs : db'.subscriptions = db.subscriptions)
    (hadd : db'.addOns = db.addOns) (htadd : db'.tenantAddOns = db.tenantAddOns)
    (hq : db'.quotaLimits = db.quotaLimits) : Synced db' tenantId := by
  have heff : db'.computeEffectiveLimits tenantId = db.computeEffectiveLimits tenantId := by
    refine BillingDb.computeEffectiveLimits_congr ?_ ?_
    · rw [BillingDb.latestSubscription, BillingDb.latestSubscription, hsubs]
    · rw [BillingDb.addOnQuotas, BillingDb.addOnQuotas, hadd, htadd]
  exact (BillingDb.syncPlan_congr rfl heff hq).trans (h.trans hq.symm)

theorem synced_syncPlan : Synced (db.syncPlan tenantId "free") tenantId := by
  have heff : (db.syncPlan tenantId "free").computeEffectiveLimits tenantId = db.computeEffectiveLimits tenantId := by
    refine BillingDb.computeEffectiveLimits_congr ?_ ?_
    · rw [BillingDb.latestSubscription, BillingDb.latestSubscription, BillingDb.syncPlan_subscriptions]
    · rw [BillingDb.addOnQuotas, BillingDb.addOnQuotas, BillingDb.syncPlan_addOns,
        BillingDb.syncPlan_tenantAddOns]
  funext t r
  rw [BillingDb.syncPlan_quotaLimits, heff]
  by_cases ht : t = tenantId
  · by_cases hr : isStandard r
    · simp [BillingDb.syncPlan_quotaLimits, ht, hr]
    · cases hq : (getPlanLimits "free").quota r with
      | none => simp [ht, hr]
      | some value => simp [BillingDb.syncPlan_quotaLimits, ht, hr, hq]
  · simp [ht]

/-- Being settled does not depend on what has been recorded, nor on the entitlements. -/
theorem Settled.congr {db' : BillingDb} (h : Settled customerId db)
    (hsubs : db'.subscriptions = db.subscriptions) (hadd : db'.addOns = db.addOns)
    (htadd : db'.tenantAddOns = db.tenantAddOns) (hq : db'.quotaLimits = db.quotaLimits) :
    Settled customerId db' := by
  refine ⟨hsubs ▸ h.status, hsubs ▸ h.plan, fun row hrow => synced_congr (h.synced row ?_) hsubs hadd htadd hq⟩
  rwa [BillingDb.subByStripeCustomer, hsubs] at hrow

theorem Settled.syncPlan {planId : String} (h : Settled customerId db)
    (hsub : db.subByStripeCustomer customerId = some tenantSub) (hp : getPlanLimits planId = freePlan.limits) :
    (db.syncPlan tenantSub.tenantId planId).quotaLimits = db.quotaLimits ∧
      Settled customerId (db.syncPlan tenantSub.tenantId planId) := by
  have hq : (db.syncPlan tenantSub.tenantId planId).quotaLimits = db.quotaLimits :=
    (BillingDb.syncPlan_congr (hp.trans (by decide)) rfl rfl).trans (h.synced tenantSub hsub)
  exact ⟨hq, h.congr (BillingDb.syncPlan_subscriptions) (BillingDb.syncPlan_addOns)
    (BillingDb.syncPlan_tenantAddOns) hq⟩

/-! ## The handlers -/

theorem mem_cancelByCustomer {now : ℕ} (h : row ∈ (db.cancelByCustomer customerId now).subscriptions)
    (hc : row.stripeCustomerId = some customerId) : row.status = .canceled ∧ row.planId = "free" := by
  obtain ⟨row₀, -, rfl⟩ := Table.mem_update.1 h
  by_cases hp : row₀.stripeCustomerId = some customerId
  · rw [if_pos hp]
    exact ⟨rfl, rfl⟩
  · rw [if_neg hp] at hc
    exact absurd hc hp

theorem tenantId_cancelByCustomer {now : ℕ} :
    ((db.cancelByCustomer customerId now).subByStripeCustomer customerId).map SubscriptionRow.tenantId =
      (db.subByStripeCustomer customerId).map SubscriptionRow.tenantId := by
  rw [BillingDb.cancelByCustomer, subByStripeCustomer_update, Option.map_map]
  · congr 1
    funext row
    simp only [Function.comp_apply]
    split_ifs <;> rfl
  · exact ⟨fun _ => rfl, fun _ => rfl, fun _ => rfl, fun _ => rfl⟩

/-- **A deletion** settles the subscription. -/
theorem settled_deleted {object : StripeObject} {now : ℕ} (hc : object.customer.id = customerId) :
    Settled customerId (handleSubscriptionDeleted object now db) := by
  subst hc
  have htenant : ((db.cancelByCustomer object.customer.id now).subByStripeCustomer object.customer.id).map
      SubscriptionRow.tenantId = _ := tenantId_cancelByCustomer
  rw [BillingDb.handleSubscriptionDeleted_eq]
  cases h : db.subByStripeCustomer object.customer.id with
  | none =>
    refine ⟨fun row hrow hcust => ?_, fun row hrow hcust => ?_, fun row hrow => ?_⟩
    · rw [(mem_cancelByCustomer hrow hcust).1]
      decide
    · rw [(mem_cancelByCustomer hrow hcust).2]
      decide
    · rw [h, Option.map_none, Option.map_eq_none_iff] at htenant
      rw [htenant] at hrow
      cases hrow
  | some canceledSub =>
    refine ⟨fun row hrow hcust => ?_, fun row hrow hcust => ?_, fun row hrow => ?_⟩
    · rw [BillingDb.syncPlan_subscriptions] at hrow
      rw [(mem_cancelByCustomer hrow hcust).1]
      decide
    · rw [BillingDb.syncPlan_subscriptions] at hrow
      rw [(mem_cancelByCustomer hrow hcust).2]
      decide
    · rw [BillingDb.subByStripeCustomer, BillingDb.syncPlan_subscriptions] at hrow
      have hrow' : row ∈ (db.cancelByCustomer object.customer.id now).subByStripeCustomer object.customer.id := hrow
      rw [Option.mem_def.1 hrow', h] at htenant
      have ht : row.tenantId = canceledSub.tenantId := by simpa using htenant
      rw [ht]
      exact synced_syncPlan

theorem handleSubscriptionUpsert_eq {object : StripeObject} {now : ℕ}
    (hsub : db.subByStripeCustomer object.customer.id = some tenantSub) :
    handleSubscriptionUpsert prices object now db =
      let planId := resolvePlanId prices object.priceId tenantSub.planId
      let db := db.updateSubscriptions (fun row => row.id = tenantSub.id)
        (fun row => (row.update object now planId).finalizeTrialPeriod object now) fun _ => rfl
      if planId ≠ tenantSub.planId then db.syncPlan tenantSub.tenantId planId else db := by
  have htwice : ∀ planId, (db.updateSubscriptions (fun row => row.id = tenantSub.id)
      (fun row => row.update object now planId) fun _ => rfl).updateSubscriptions
        (fun row => row.id = tenantSub.id) (fun row => row.finalizeTrialPeriod object now) (fun _ => rfl) =
      db.updateSubscriptions (fun row => row.id = tenantSub.id)
        (fun row => (row.update object now planId).finalizeTrialPeriod object now) fun _ => rfl :=
    fun _ => updateSubscriptions_twice
  rw [handleSubscriptionUpsert, hsub]
  simp only [htwice]

/-- **An event that spares a dead subscription** changes no quota, and the subscription stays settled. -/
theorem Settled.spared {now : ℕ} {kind : EventKind} (h : Settled customerId db)
    (hc : d.event.object.customer.id = customerId) (hkind : kind ≠ .subscriptionDeleted)
    (hs : ∀ row ∈ db.subByStripeCustomer customerId, SparesRow prices d row kind) :
    Settled customerId (handle prices d.event.object now db kind) ∧
      (handle prices d.event.object now db kind).quotaLimits = db.quotaLimits := by
  subst hc
  cases kind with
  | subscriptionDeleted => exact absurd rfl hkind
  | trialWillEnd | unhandled => exact ⟨h, rfl⟩
  | subscriptionUpsert =>
    cases hsub : db.subByStripeCustomer d.event.object.customer.id with
    | none =>
      simp only [handle, handleSubscriptionUpsert, hsub, and_true]
      exact h
    | some tenantSub =>
      obtain ⟨hlive, hplan⟩ := hs tenantSub hsub
      have hk : KeepsKeys fun row => (row.update d.event.object now
          (resolvePlanId prices d.event.object.priceId tenantSub.planId)).finalizeTrialPeriod d.event.object now :=
        ⟨fun _ => rfl, fun _ => rfl, fun _ => rfl, fun _ => rfl⟩
      have hset := h.update hk hsub hlive hplan
      simp only [handle, handleSubscriptionUpsert_eq hsub]
      split_ifs with hne
      · obtain ⟨hq, hset'⟩ := hset.syncPlan (subByStripeCustomer_updated hk hsub) hplan
        exact ⟨hset', hq⟩
      · exact ⟨hset, rfl⟩
  | invoicePaid =>
    by_cases hempty : d.event.object.customer.id = ""
    · simp only [handle, handleInvoicePaid, if_pos hempty, and_true]
      exact h
    cases hsub : db.subByStripeCustomer d.event.object.customer.id with
    | none =>
      simp only [handle, handleInvoicePaid, if_neg hempty, hsub, and_true]
      exact h
    | some tenantSub =>
      have htrial : tenantSub.status = .trialing := (hs tenantSub hsub).resolve_left hempty
      have hmem := subByStripeCustomer_mem hsub
      have hk : KeepsKeys fun row => row.reviveInvoicePaid d.event.object now :=
        ⟨fun _ => rfl, fun _ => rfl, fun _ => rfl, fun _ => rfl⟩
      have hne : tenantSub.status ≠ .pastDue := by
        rw [htrial]
        decide
      simp only [handle, handleInvoicePaid, if_neg hempty, hsub, if_neg hne]
      refine ⟨h.update hk hsub ?_ (h.plan tenantSub hmem.1 hmem.2), rfl⟩
      simp [SubscriptionRow.reviveInvoicePaid, htrial, SubscriptionStatus.isLive]
  | invoicePaymentFailed =>
    cases hsub : db.subByStripeCustomer d.event.object.customer.id with
    | none =>
      simp only [handle, handleInvoicePaymentFailed, hsub, ite_self, and_true]
      exact h
    | some tenantSub =>
      have hempty : d.event.object.customer.id = "" := hs tenantSub hsub
      simp only [handle, handleInvoicePaymentFailed, if_pos hempty, and_true]
      exact h

theorem limitRow_conversation (planId : String) (h : getPlanLimits planId ≠ freePlan.limits) :
    limitRow (getPlanLimits planId).conversationMessagesPerMonth ≠
      limitRow freePlan.limits.conversationMessagesPerMonth := by
  have hall : ∀ limits ∈ kernelPlans.map KernelPlan.limits, limits ≠ freePlan.limits →
      limitRow limits.conversationMessagesPerMonth ≠ limitRow freePlan.limits.conversationMessagesPerMonth := by
    decide
  exact hall _ (getPlanLimits_mem planId) h

theorem quota_conversation (limits : PlanLimits) :
    limits.quota "conversation_message" = some limits.conversationMessagesPerMonth := by
  simp [PlanLimits.quota, PlanLimits.quotas]

theorem Synced.syncPlan_ne {db' : BillingDb} {planId : String} (h : Synced db tenantId)
    (hp : getPlanLimits planId ≠ freePlan.limits) : (db'.syncPlan tenantId planId).quotaLimits ≠ db.quotaLimits := by
  intro heq
  have hstd : ¬ isStandard "conversation_message" := by decide
  have h₁ := congrFun (congrFun heq tenantId) "conversation_message"
  have h₂ := congrFun (congrFun h tenantId) "conversation_message"
  rw [BillingDb.syncPlan_quotaLimits, if_pos rfl, if_neg hstd, quota_conversation] at h₁ h₂
  exact limitRow_conversation planId hp (h₁.trans h₂.symm)

theorem mem_updated {f : SubscriptionRow → SubscriptionRow} (hk : KeepsKeys f)
    (hsub : db.subByStripeCustomer customerId = some tenantSub) :
    f tenantSub ∈ (db.updateSubscriptions (fun row => row.id = tenantSub.id) f hk.id).subscriptions ∧
      (f tenantSub).stripeCustomerId = some customerId :=
  subByStripeCustomer_mem (subByStripeCustomer_updated hk hsub)

/-- **An event that does not spare a dead subscription** makes a row live or changes the quotas. -/
theorem Settled.not_spared {now : ℕ} {kind : EventKind} (h : Settled customerId db)
    (hc : d.event.object.customer.id = customerId) (hsub : db.subByStripeCustomer customerId = some tenantSub)
    (hs : ¬ SparesRow prices d tenantSub kind) :
    (∃ row ∈ (handle prices d.event.object now db kind).subscriptions,
      row.stripeCustomerId = some customerId ∧ row.status.isLive) ∨
      (handle prices d.event.object now db kind).quotaLimits ≠ db.quotaLimits := by
  subst hc
  obtain ⟨hmem, hcust⟩ := subByStripeCustomer_mem hsub
  cases kind with
  | subscriptionDeleted | trialWillEnd | unhandled => exact absurd trivial hs
  | subscriptionUpsert =>
    have hk : KeepsKeys fun row => (row.update d.event.object now
        (resolvePlanId prices d.event.object.priceId tenantSub.planId)).finalizeTrialPeriod d.event.object now :=
      ⟨fun _ => rfl, fun _ => rfl, fun _ => rfl, fun _ => rfl⟩
    have hrow := mem_updated hk hsub
    simp only [handle, handleSubscriptionUpsert_eq hsub]
    by_cases hlive : (mapStatus d.event.object.status).isLive
    · refine .inl ⟨_, ?_, hrow.2, hlive⟩
      split_ifs
      · rw [BillingDb.syncPlan_subscriptions]
        exact hrow.1
      · exact hrow.1
    · -- the plan is a paid one, so it is not the row's own
      have hplan : getPlanLimits (resolvePlanId prices d.event.object.priceId tenantSub.planId) ≠ freePlan.limits :=
        fun hp => hs ⟨hlive, hp⟩
      have hne : resolvePlanId prices d.event.object.priceId tenantSub.planId ≠ tenantSub.planId := fun he =>
        hplan ((congrArg getPlanLimits he).trans (h.plan tenantSub hmem hcust))
      rw [if_pos hne]
      exact .inr ((h.synced tenantSub hsub).syncPlan_ne hplan)
  | invoicePaid =>
    obtain ⟨hempty, htrial⟩ := not_or.1 hs
    have hk : KeepsKeys fun row => row.reviveInvoicePaid d.event.object now :=
      ⟨fun _ => rfl, fun _ => rfl, fun _ => rfl, fun _ => rfl⟩
    have hrow := mem_updated hk hsub
    have hnot : ¬ tenantSub.status.isLive := h.status tenantSub hmem hcust
    have hcanceled : tenantSub.status = .canceled := by
      revert hnot htrial
      cases tenantSub.status <;> decide
    have hne : tenantSub.status ≠ .pastDue := by
      rw [hcanceled]
      decide
    simp only [handle, handleInvoicePaid, if_neg hempty, hsub, if_neg hne]
    refine .inl ⟨_, hrow.1, hrow.2, .inl ?_⟩
    simp [SubscriptionRow.reviveInvoicePaid, hcanceled]
  | invoicePaymentFailed =>
    have hk : KeepsKeys fun row => row.markPastDue d.event.object now :=
      ⟨fun _ => rfl, fun _ => rfl, fun _ => rfl, fun _ => rfl⟩
    have hrow := mem_updated hk hsub
    simp only [handle, handleInvoicePaymentFailed, if_neg (show ¬ d.event.object.customer.id = "" from hs), hsub]
    exact .inl ⟨_, hrow.1, hrow.2, .inr rfl⟩

/-! ## Deliveries -/

theorem handle_webhookEvents {object : StripeObject} {now : ℕ} {kind : EventKind} :
    (handle prices object now db kind).webhookEvents = db.webhookEvents := by
  cases kind with
  | trialWillEnd | unhandled => rfl
  | subscriptionUpsert =>
    simp only [handle, handleSubscriptionUpsert]
    split
    · rfl
    · split_ifs
      · rw [BillingDb.syncPlan_webhookEvents]
        rfl
      · rfl
  | subscriptionDeleted =>
    rw [handle, BillingDb.handleSubscriptionDeleted_eq]
    split
    · rfl
    · rw [BillingDb.syncPlan_webhookEvents]
      rfl
  | invoicePaid =>
    simp only [handle, handleInvoicePaid]
    split_ifs
    · rfl
    · split
      · rfl
      · split_ifs
        · rw [BillingDb.syncPlan_webhookEvents]
          rfl
        · rfl
  | invoicePaymentFailed =>
    simp only [handle, handleInvoicePaymentFailed]
    split_ifs
    · rfl
    · split <;> rfl

/-- The database with the event recorded. -/
def BillingDb.record (db : BillingDb) (d : Delivery) : BillingDb :=
  { db with webhookEvents := db.webhookEvents ++ [⟨d.event.id, d.event.type, d.now⟩] }

theorem deliver_of_not (h : ¬ Processes db d) : deliver prices db d = db := by
  unfold deliver
  split_ifs with hf
  · rfl
  · have hrec : db.Recorded d.event := not_not.1 fun hrec => h ⟨by simpa using hf, hrec⟩
    rw [processEvent, if_pos hrec]

theorem deliver_of (h : Processes db d) :
    deliver prices db d = handle prices d.event.object d.now (db.record d) d.event.kind := by
  rw [deliver, if_neg (by simp [h.1]), processEvent, if_neg h.2]
  rfl

theorem Settled.record (h : Settled customerId db) : Settled customerId (db.record d) :=
  h.congr rfl rfl rfl rfl

theorem recorded_deliver {id : String} (h : ∃ row ∈ db.webhookEvents, row.eventId = id) :
    ∃ row ∈ (deliver prices db d).webhookEvents, row.eventId = id := by
  by_cases hp : Processes db d
  · rw [deliver_of hp, handle_webhookEvents]
    obtain ⟨row, hrow, hid⟩ := h
    exact ⟨row, List.mem_append_left _ hrow, hid⟩
  · rwa [deliver_of_not hp]

/-- **Step lemma.** A delivery that spares the subscription keeps the invariant. -/
theorem Sparing.step (h : Sparing customerId x) (hc : d.event.object.customer.id = customerId)
    (hs : Spares prices customerId x d) :
    Sparing customerId (noting (deliver prices) (note prices) x d) := by
  by_cases hp : Processes x.1 d
  · refine ⟨fun id hid => ?_, fun quotas hq => ?_⟩
    · rw [noting, note, if_pos hp] at hid
      rcases List.mem_cons.1 hid with rfl | hid
      · refine ⟨⟨d.event.id, d.event.type, d.now⟩, ?_, rfl⟩
        rw [noting, deliver_of hp, handle_webhookEvents]
        exact List.mem_append_right _ (List.mem_singleton_self _)
      · exact recorded_deliver (h.recorded id hid)
    · rw [noting, note, if_pos hp] at hq
      by_cases hkind : d.event.kind = .subscriptionDeleted
      · rw [if_pos hkind] at hq
        refine ⟨?_, Option.some.inj hq⟩
        rw [noting, deliver_of hp, hkind]
        exact settled_deleted hc
      · rw [if_neg hkind] at hq
        obtain ⟨hset, hquotas⟩ := h.settled quotas hq
        have hrec : Settled customerId (x.1.record d) := hset.record
        obtain ⟨hset', hsame⟩ := hrec.spared hc hkind (hs (Option.isSome_iff_exists.2 ⟨_, hq⟩) hp)
        rw [noting, deliver_of hp]
        exact ⟨hset', hsame.trans hquotas⟩
  · have hsame : noting (deliver prices) (note prices) x d = x := by
      rw [noting, note, if_neg hp, deliver_of_not hp]
    rwa [hsame]

/-- **A delivery that does not spare it** revives the subscription or its quotas. -/
theorem Sparing.not_staysDead (h : Sparing customerId x) (hc : d.event.object.customer.id = customerId)
    (hs : ¬ Spares prices customerId x d) :
    ¬ StaysDead customerId (noting (deliver prices) (note prices) x d) := by
  intro hdead
  simp only [Spares, not_forall] at hs
  obtain ⟨hsome, hp, tenantSub, hsub, hs⟩ := hs
  obtain ⟨quotas, hq⟩ := Option.isSome_iff_exists.1 hsome
  obtain ⟨hset, hquotas⟩ := h.settled quotas hq
  have hkind : d.event.kind ≠ .subscriptionDeleted := fun hkind => hs (hkind ▸ trivial)
  have hq' : (noting (deliver prices) (note prices) x d).2.quotas = some quotas := by
    rw [noting, note, if_pos hp, if_neg hkind]
    exact hq
  obtain ⟨hrows, hsame⟩ := hdead quotas hq'
  rw [noting, deliver_of hp] at hrows hsame
  rcases (hset.record (d := d)).not_spared hc hsub hs with ⟨row, hrow, hcust, hlive⟩ | hne
  · exact hrows row hrow hcust hlive
  · exact hne (hsame.trans hquotas.symm)

/-! ## Runs -/

variable (customerId) in
def OfCustomer (ds : List Delivery) : Prop := ∀ d ∈ ds, d.event.object.customer.id = customerId

instance (ds : List Delivery) : Decidable (OfCustomer customerId ds) := inferInstanceAs (Decidable (∀ _ ∈ ds, _))

/-- **Dead subscriptions.** Whatever events of a subscription are delivered, in whatever order and however often:
once its deletion has been processed it is neither active nor past due and the quotas are what the deletion has
left, and no event has an effect twice, exactly if every event that is processed after the deletion spares the
row it finds. -/
theorem dead_iff {ds : List Delivery} (hds : OfCustomer customerId ds) :
    (Always (noting (deliver prices) (note prices)) (StaysDead customerId) (db, .none) ds ∧
      Along (noting (deliver prices) (note prices)) (NoFurtherEffect prices) (db, .none) ds) ↔
    Along (noting (deliver prices) (note prices)) (Spares prices customerId) (db, .none) ds := by
  have hof : ∀ pre d, pre ++ [d] <+: ds → d.event.object.customer.id = customerId :=
    fun pre d hp => hds d (hp.subset (by simp))
  have h0 : Sparing customerId (db, Past.none) :=
    ⟨fun _ h => (List.not_mem_nil h).elim, fun _ h => by cases h⟩
  have hiff : (Always (noting (deliver prices) (note prices)) (StaysDead customerId) (db, .none) ds ∧
      Along (noting (deliver prices) (note prices))
        (fun x d => d.event.object.customer.id = customerId ∧ NoFurtherEffect prices x d) (db, .none) ds) ↔
      Along (noting (deliver prices) (note prices))
        (fun x d => d.event.object.customer.id = customerId ∧ Spares prices customerId x d) (db, .none) ds :=
    always_and_along_iff h0 (fun _ h => h.staysDead)
      (fun _ _ hI hC => ⟨hI.step hC.1 hC.2, hC.1, hI.noFurtherEffect⟩)
      (fun _ _ hI hP hR => ⟨hR.1, by_contra fun hs => hI.not_staysDead hR.1 hs hP⟩)
  constructor
  · rintro ⟨hP, hR⟩
    exact (hiff.1 ⟨hP, fun pre d hp => ⟨hof pre d hp, hR pre d hp⟩⟩).mono fun _ _ h => h.2
  · intro hC
    obtain ⟨hP, hR⟩ := hiff.2 fun pre d hp => ⟨hof pre d hp, hC pre d hp⟩
    exact ⟨hP, hR.mono fun _ _ h => h.2⟩

/-- No prices are configured. -/
def noPrices : StripePrices := ⟨none, none, none, none⟩

/-- A tenant with a subscription of the starter plan. -/
def subscribed : BillingDb where
  webhookEvents := []
  subscriptions := [⟨"sub_1", "tenant_1", some "cus_1", some "stripe_sub_1", "starter", .active, 0, 0, none, false,
    none, none, 0, 0⟩]
  ids := by decide
  addOns := []
  tenantAddOns := []
  entitlements := fun _ _ => none
  quotaLimits := fun _ _ => none

/-- An event of that subscription, without anything but its id. -/
def eventOf (id type : String) : Delivery :=
  ⟨⟨id, type, ⟨.text "cus_1", none, none, none, none, none, none, false⟩⟩, 1, false⟩

/-- The deletion is delivered twice, and a reminder after it. -/
theorem dead_twice :
    Always (noting (deliver noPrices) (note noPrices)) (StaysDead "cus_1") (subscribed, .none)
      [eventOf "evt_2" "customer.subscription.deleted", eventOf "evt_2" "customer.subscription.deleted",
        eventOf "evt_1" "customer.subscription.trial_will_end"] :=
  ((dead_iff (by decide)).2 (by decide)).1

/-- An invoice paid before the deletion is delivered after it. -/
theorem revived_by_late_invoice : ¬ ∀ (prices : StripePrices) (db : BillingDb) (customerId : String)
    (ds : List Delivery), OfCustomer customerId ds →
      Always (noting (deliver prices) (note prices)) (StaysDead customerId) (db, .none) ds ∧
        Along (noting (deliver prices) (note prices)) (NoFurtherEffect prices) (db, .none) ds := by
  intro h
  have hdead := (h noPrices subscribed "cus_1"
    [eventOf "evt_2" "customer.subscription.deleted", eventOf "evt_1" "invoice.paid"] (by decide)).1.last _ rfl
  have hrow : ∃ row ∈ (run (noting (deliver noPrices) (note noPrices)) (subscribed, Past.none)
      [eventOf "evt_2" "customer.subscription.deleted", eventOf "evt_1" "invoice.paid"]).1.subscriptions,
      row.stripeCustomerId = some "cus_1" ∧ row.status.isLive := by decide
  obtain ⟨row, hmem, hcust, hlive⟩ := hrow
  exact hdead.1 row hmem hcust hlive

end ChronoSynth.Stripe

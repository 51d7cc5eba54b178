import ChronoSynth.Lib.Run
import ChronoSynth.Lib.Table
import ChronoSynth.Tenancy.QuotaManager

/-!
# Stripe events, plans and entitlements

Translation of `billing/stripe-webhook-service.ts`, `billing/plans.ts`, `billing/entitlement-service.ts` and of
their executors. An event is processed in one transaction: its id is recorded, and what it says is written to
the subscription of its customer; the tenant's quotas and entitlements follow where the handler synchronises
them.

Of the limits of a plan only those that are synchronised stand here. The tables `entitlements` and
`quota_limits` are functions of their primary keys. Of several subscriptions created in one millisecond the
first in the table counts as the latest.
-/

namespace ChronoSynth.Stripe

open Tenancy (QuotaLimits QuotaLimitRow)

/-! ## Plans -/

/-- The limits of a plan; `-1` is no limit. -/
structure PlanLimits where
  maxSimulations : ℤ
  llmTokensPerMonth : ℤ
  maxMemoryNodes : ℤ
  conversationMessagesPerMonth : ℤ
  bulkImportItemsPerMonth : ℤ
  deriving DecidableEq, Repr

structure KernelPlan where
  id : String
  limits : PlanLimits
  deriving DecidableEq, Repr

def freePlan : KernelPlan := ⟨"free", 3, 10000, 10000, 100, 50⟩

def kernelPlans : List KernelPlan := [
  freePlan,
  ⟨"starter", 50, 500000, 100000, 5000, 1000⟩,
  ⟨"growth", 500, 5000000, 1000000, 50000, 10000⟩,
  ⟨"enterprise", -1, -1, -1, -1, -1⟩,
  ⟨"pro", 50, 500000, 100000, 5000, 1000⟩]

def getKernelPlan (planId : String) : Option KernelPlan := kernelPlans.find? fun plan => plan.id = planId

def getPlanLimits (planId : String) : PlanLimits := ((getKernelPlan planId).getD freePlan).limits

/-- The prices in the environment, `CHRONO_STRIPE_PRICE_…`. -/
structure StripePrices where
  starter : Option String
  growth : Option String
  enterprise : Option String
  pro : Option String

def resolveStripePriceId (prices : StripePrices) (planId : String) : String :=
  match planId with
  | "starter" => prices.starter.getD ""
  | "growth" => prices.growth.getD ""
  | "enterprise" => prices.enterprise.getD ""
  | "pro" => (prices.pro <|> prices.starter).getD ""
  | _ => ""

/-- `PRICE_TO_PLAN`; of several plans of one price it has the last. -/
def priceToPlan (prices : StripePrices) (priceId : String) : Option String :=
  ((kernelPlans.map KernelPlan.id).reverse.find? fun planId =>
    resolveStripePriceId prices planId ≠ "" ∧ resolveStripePriceId prices planId = priceId)

/-! ## Tables -/

inductive SubscriptionStatus
  | active
  | trialing
  | canceled
  | pastDue
  deriving DecidableEq, Repr

/-- A row of `subscriptions`. -/
structure SubscriptionRow where
  id : String
  tenantId : String
  stripeCustomerId : Option String
  stripeSubscriptionId : Option String
  planId : String
  status : SubscriptionStatus
  currentPeriodStart : ℤ
  currentPeriodEnd : ℤ
  trialEnd : Option ℤ
  cancelAtPeriodEnd : Bool
  gracePeriodEndsAt : Option ℤ
  lastInvoiceId : Option String
  createdAt : ℕ
  updatedAt : ℕ
  deriving DecidableEq, Repr

/-- What `CANCEL_BY_CUSTOMER` makes of a row. -/
def SubscriptionRow.cancel (now : ℕ) (row : SubscriptionRow) : SubscriptionRow :=
  { row with status := .canceled, planId := "free", updatedAt := now }

/-- A row of `webhook_events`. -/
structure WebhookEventRow where
  eventId : String
  eventType : String
  processedAt : ℕ
  deriving DecidableEq, Repr

/-- A row of `add_ons`. -/
structure AddOnRow where
  id : String
  resource : String
  quotaAmount : ℤ
  isActive : Bool
  deriving DecidableEq, Repr

/-- A row of `tenant_add_ons`; `isActive` is its status. -/
structure TenantAddOnRow where
  tenantId : String
  addOnId : String
  isActive : Bool
  deriving DecidableEq, Repr

/-- The column `effective_limit` of the table `entitlements`, by its primary key. -/
abbrev Entitlements := String → String → Option ℤ

structure BillingDb where
  webhookEvents : List WebhookEventRow
  subscriptions : List SubscriptionRow
  ids : (subscriptions.map SubscriptionRow.id).Nodup
  addOns : List AddOnRow
  tenantAddOns : List TenantAddOnRow
  entitlements : Entitlements
  quotaLimits : QuotaLimits

/-! ## Quotas and entitlements -/

def monthMs : ℕ := 30 * 24 * 60 * 60 * 1000

/-- The row that limits a month to `value`. -/
def monthly (value : ℤ) : QuotaLimitRow := ⟨value.toNat, monthMs, by decide⟩

/-- `apply` of `syncPlanToQuota`: a negative value is no limit, and nothing is written for zero. -/
def applyLimit (tenantId resource : String) (value : ℤ) (limits : QuotaLimits) : QuotaLimits :=
  if value < 0 then limits.clearLimit tenantId resource
  else if 0 < value then limits.put tenantId resource (monthly value)
  else limits

/-- The resources `syncPlanToQuota` writes, with their limits. -/
def PlanLimits.quotas (limits : PlanLimits) : List (String × ℤ) := [
  ("simulation", limits.maxSimulations),
  ("llm_tokens", limits.llmTokensPerMonth),
  ("memory_nodes", limits.maxMemoryNodes),
  ("conversation_message", limits.conversationMessagesPerMonth),
  ("bulk_knowledge_import_item", limits.bulkImportItemsPerMonth)]

def syncPlanToQuota (tenantId planId : String) (limits : QuotaLimits) : QuotaLimits :=
  (getPlanLimits planId).quotas.foldl (fun limits entry => applyLimit tenantId entry.1 entry.2 limits) limits

/-- Resources with their limits, in the order in which they have been set. -/
abbrev EffectiveLimits := List (String × ℤ)

namespace EffectiveLimits

variable (limits : EffectiveLimits) (resource : String)

def get : Option ℤ := (limits.find? fun entry => entry.1 = resource).map Prod.snd

def set (value : ℤ) : EffectiveLimits :=
  if (get limits resource).isSome then
    limits.map fun entry => if entry.1 = resource then (resource, value) else entry
  else limits ++ [(resource, value)]

end EffectiveLimits

/-- `RESOURCE_TO_LIMIT`, with the limits of a plan. -/
def planLimitsToResourceMap (limits : PlanLimits) : EffectiveLimits := [
  ("simulation", limits.maxSimulations),
  ("llm_tokens", limits.llmTokensPerMonth),
  ("memory_nodes", limits.maxMemoryNodes)]

/-- `RESOURCE_TO_LIMIT.has`. -/
def isStandard (resource : String) : Prop :=
  resource = "simulation" ∨ resource = "llm_tokens" ∨ resource = "memory_nodes"

instance (resource : String) : Decidable (isStandard resource) := inferInstanceAs (Decidable (_ ∨ _ ∨ _))

def mergeAddOn (limits : EffectiveLimits) (addOn : String × ℤ) : EffectiveLimits :=
  match EffectiveLimits.get limits addOn.1 with
  | some base => if base < 0 then limits else EffectiveLimits.set limits addOn.1 (base + addOn.2)
  | none => EffectiveLimits.set limits addOn.1 (0 + addOn.2)

def mergeEffectiveLimits (planLimits : PlanLimits) (addOns : List (String × ℤ)) : EffectiveLimits :=
  addOns.foldl mergeAddOn (planLimitsToResourceMap planLimits)

/-- One turn of the loop of `syncTenantEntitlements`. -/
def writeEntitlement (tenantId : String) (db : BillingDb) (entry : String × ℤ) : BillingDb :=
  { db with
    entitlements := fun t r =>
      if t = tenantId ∧ r = entry.1 then some entry.2 else db.entitlements t r
    quotaLimits :=
      if isStandard entry.1 then
        if entry.2 < 0 then db.quotaLimits.clearLimit tenantId entry.1
        else db.quotaLimits.put tenantId entry.1 (monthly entry.2)
      else db.quotaLimits }

namespace BillingDb

variable (db : BillingDb) (tenantId : String)

def latestSubscription : Option SubscriptionRow :=
  Table.latest SubscriptionRow.createdAt 0 (db.subscriptions.filter fun row => row.tenantId = tenantId)

def subByStripeCustomer (customerId : String) : Option SubscriptionRow :=
  Table.latest SubscriptionRow.createdAt 0
    (db.subscriptions.filter fun row => row.stripeCustomerId = some customerId)

/-- `ENTL_QUERY_ADD_ON_QUOTAS`: what the tenant's active add-ons are worth. -/
def addOnQuotas : List (String × ℤ) :=
  (db.tenantAddOns.filter fun row => row.tenantId = tenantId ∧ row.isActive).flatMap fun row =>
    (db.addOns.filter fun addOn => addOn.id = row.addOnId).map fun addOn => (addOn.resource, addOn.quotaAmount)

def computeEffectiveLimits : EffectiveLimits :=
  mergeEffectiveLimits (getPlanLimits ((db.latestSubscription tenantId).elim "free" SubscriptionRow.planId))
    (db.addOnQuotas tenantId)

def syncTenantEntitlements : BillingDb :=
  (db.computeEffectiveLimits tenantId).foldl (writeEntitlement tenantId) db

/-- The plan's quotas and then the entitlements. -/
def syncPlan (planId : String) : BillingDb :=
  { db with quotaLimits := syncPlanToQuota tenantId planId db.quotaLimits }.syncTenantEntitlements tenantId

/-- `UPDATE subscriptions`. -/
def updateSubscriptions (p : SubscriptionRow → Prop) [DecidablePred p] (f : SubscriptionRow → SubscriptionRow)
    (hf : ∀ row, (f row).id = row.id) : BillingDb :=
  { db with
    subscriptions := Table.update p f db.subscriptions
    ids := by
      rw [Table.map_update fun row _ => hf row]
      exact db.ids }

/-- `CANCEL_BY_CUSTOMER`. -/
def cancelByCustomer (customerId : String) (now : ℕ) : BillingDb :=
  db.updateSubscriptions (fun row => row.stripeCustomerId = some customerId)
    (fun row => row.cancel now) fun _ => rfl

/-- `CANCEL_TENANT_ADDONS`. -/
def cancelTenantAddons : BillingDb :=
  { db with
    tenantAddOns := Table.update (fun row => row.tenantId = tenantId ∧ row.isActive)
      (fun row => { row with isActive := false }) db.tenantAddOns }

end BillingDb

/-! ## Events -/

/-- `customer` of a Stripe object. -/
inductive CustomerField
  | text (id : String)
  | expanded (id : Option String)
  | missing
  deriving DecidableEq, Repr

def CustomerField.id : CustomerField → String
  | .text id => id
  | .expanded id => id.getD ""
  | .missing => ""

/-- What is read of the object an event is about. A field that has not the type it is read at is `none`; times
are in seconds. -/
structure StripeObject where
  customer : CustomerField
  id : Option String
  status : Option String
  priceId : Option String
  currentPeriodStart : Option ℤ
  currentPeriodEnd : Option ℤ
  trialEnd : Option ℤ
  cancelAtPeriodEnd : Bool
  deriving DecidableEq, Repr

inductive EventKind
  | subscriptionUpsert
  | subscriptionDeleted
  | trialWillEnd
  | invoicePaid
  | invoicePaymentFailed
  | unhandled
  deriving DecidableEq, Repr

/-- The `switch` of `processEvent`. -/
def EventKind.ofType : String → EventKind
  | "customer.subscription.created" | "customer.subscription.updated" => .subscriptionUpsert
  | "customer.subscription.deleted" => .subscriptionDeleted
  | "customer.subscription.trial_will_end" => .trialWillEnd
  | "invoice.paid" | "invoice.payment_succeeded" => .invoicePaid
  | "invoice.payment_failed" => .invoicePaymentFailed
  | _ => .unhandled

structure StripeEvent where
  id : String
  type : String
  object : StripeObject
  deriving DecidableEq, Repr

def StripeEvent.kind (event : StripeEvent) : EventKind := .ofType event.type

/-- The status of a subscription in Stripe's words. -/
def mapStatus (status : Option String) : SubscriptionStatus :=
  match status.getD "active" with
  | "active" => .active
  | "trialing" => .trialing
  | "canceled" => .canceled
  | _ => .pastDue

/-- `(priceId && PRICE_TO_PLAN.get(priceId)) ?? plan_id`: an empty price is passed on. -/
def resolvePlanId (prices : StripePrices) (priceId : Option String) (planId : String) : String :=
  match priceId with
  | none => planId
  | some priceId => if priceId = "" then "" else (priceToPlan prices priceId).getD planId

/-! ## Handlers -/

def graceMs : ℕ := 3 * 24 * 60 * 60 * 1000

namespace SubscriptionRow

variable (object : StripeObject) (now : ℕ) (row : SubscriptionRow)

/-- `UPDATE_SUBSCRIPTION`. -/
def update (planId : String) : SubscriptionRow := { row with
  stripeSubscriptionId := object.id
  status := mapStatus object.status
  planId
  currentPeriodStart := object.currentPeriodStart.elim now (· * 1000)
  currentPeriodEnd := object.currentPeriodEnd.elim now (· * 1000)
  updatedAt := now }

/-- `FINALIZE_TRIAL_PERIOD`. -/
def finalizeTrialPeriod : SubscriptionRow := { row with
  trialEnd := (object.trialEnd.filter (0 < ·)).map (· * 1000)
  cancelAtPeriodEnd := object.cancelAtPeriodEnd
  gracePeriodEndsAt := none
  updatedAt := now }

/-- `REVIVE_INVOICE_PAID`. -/
def reviveInvoicePaid : SubscriptionRow := { row with
  status := if row.status = .pastDue ∨ row.status = .canceled then .active else row.status
  gracePeriodEndsAt := none
  lastInvoiceId := object.id <|> row.lastInvoiceId
  updatedAt := now }

/-- `MARK_PAST_DUE`. -/
def markPastDue : SubscriptionRow := { row with
  status := .pastDue
  gracePeriodEndsAt := some (now + graceMs)
  lastInvoiceId := object.id <|> row.lastInvoiceId
  updatedAt := now }

end SubscriptionRow

variable (prices : StripePrices) (object : StripeObject) (now : ℕ) (db : BillingDb)

def handleSubscriptionUpsert : BillingDb :=
  match db.subByStripeCustomer object.customer.id with
  | none => db
  | some tenantSub =>
    let resolvedPlanId := resolvePlanId prices object.priceId tenantSub.planId
    let db := db.updateSubscriptions (fun row => row.id = tenantSub.id)
      (fun row => row.update object now resolvedPlanId) fun _ => rfl
    let db := db.updateSubscriptions (fun row => row.id = tenantSub.id)
      (fun row => row.finalizeTrialPeriod object now) fun _ => rfl
    if resolvedPlanId ≠ tenantSub.planId then db.syncPlan tenantSub.tenantId resolvedPlanId else db

def handleSubscriptionDeleted : BillingDb :=
  let canceledSub := db.subByStripeCustomer object.customer.id
  let db := db.cancelByCustomer object.customer.id now
  match canceledSub with
  | none => db
  | some canceledSub =>
    let db : BillingDb := { db with quotaLimits := syncPlanToQuota canceledSub.tenantId "free" db.quotaLimits }
    (db.cancelTenantAddons canceledSub.tenantId).syncTenantEntitlements canceledSub.tenantId

def handleInvoicePaid : BillingDb :=
  if object.customer.id = "" then db
  else match db.subByStripeCustomer object.customer.id with
    | none => db
    | some tenantSub =>
      let db := db.updateSubscriptions (fun row => row.id = tenantSub.id)
        (fun row => row.reviveInvoicePaid object now) fun _ => rfl
      if tenantSub.status = .pastDue then db.syncPlan tenantSub.tenantId tenantSub.planId else db

def handleInvoicePaymentFailed : BillingDb :=
  if object.customer.id = "" then db
  else match db.subByStripeCustomer object.customer.id with
    | none => db
    | some tenantSub => db.updateSubscriptions (fun row => row.id = tenantSub.id)
        (fun row => row.markPastDue object now) fun _ => rfl

def handle : EventKind → BillingDb
  | .subscriptionUpsert => handleSubscriptionUpsert prices object now db
  | .subscriptionDeleted => handleSubscriptionDeleted object now db
  | .invoicePaid => handleInvoicePaid object now db
  | .invoicePaymentFailed => handleInvoicePaymentFailed object now db
  | .trialWillEnd | .unhandled => db

def BillingDb.Recorded (event : StripeEvent) : Prop := ∃ row ∈ db.webhookEvents, row.eventId = event.id

instance (event : StripeEvent) : Decidable (db.Recorded event) := inferInstanceAs (Decidable (∃ row ∈ _, _))

/-- `processEvent`: the database it leaves, and whether the event was a duplicate. -/
def processEvent (event : StripeEvent) : BillingDb × Bool :=
  if db.Recorded event then (db, true)
  else
    let db : BillingDb := { db with webhookEvents := db.webhookEvents ++ [⟨event.id, event.type, now⟩] }
    (handle prices event.object now db event.kind, false)

/-- `purchaseAddOn`, which the facade lets through for an add-on on offer. -/
def purchaseAddOn (tenantId addOnId : String) : BillingDb :=
  if ∃ addOn ∈ db.addOns, addOn.id = addOnId ∧ addOn.isActive then
    let db : BillingDb := { db with tenantAddOns := db.tenantAddOns ++ [⟨tenantId, addOnId, true⟩] }
    db.syncTenantEntitlements tenantId
  else db

end ChronoSynth.Stripe

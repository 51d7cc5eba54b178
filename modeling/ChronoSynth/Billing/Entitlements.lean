import ChronoSynth.Billing.Subscriptions

/-!
# Entitlements and history

A tenant's quotas and entitlements should be those of its latest subscription and its active add-ons, whatever
events have led there: those that the code computes for a tenant that has just these and nothing else
(`computed`). A canceled subscription grants no more than the free plan.

An event changes subscriptions and add-ons (`moved`) and then synchronises one tenant or none (`syncOf`,
`handle_eq`). A synchronisation writes the rows of what is granted now and leaves the others where they are, so
the entitlement of a canceled add-on stays. `exact_iff` says which events leave the tables right.
-/

namespace ChronoSynth.Stripe

open Tenancy (QuotaLimits QuotaLimitRow)

/-- An event is delivered, or a tenant buys an add-on. -/
inductive BillingStep
  | event (d : Delivery)
  | purchase (tenantId addOnId : String)
  deriving DecidableEq

variable (prices : StripePrices)

def billingStep (db : BillingDb) : BillingStep → BillingDb
  | .event d => deliver prices db d
  | .purchase tenantId addOnId => purchaseAddOn db tenantId addOnId

/-! ## What the tables should say -/

/-- What a subscription is worth: the free plan once it is canceled. -/
def SubscriptionRow.granted (row : SubscriptionRow) : SubscriptionRow :=
  if row.status = .canceled then { row with planId := "free" } else row

/-- The plan a tenant's latest subscription grants. -/
def currentPlan (db : BillingDb) (tenantId : String) : String :=
  (db.latestSubscription tenantId).elim "free" fun row => row.granted.planId

/-- A tenant that has its latest subscription and its active add-ons, and nothing else. -/
def fresh (db : BillingDb) (tenantId : String) : BillingDb where
  webhookEvents := []
  subscriptions := ((db.latestSubscription tenantId).map SubscriptionRow.granted).toList
  ids := by cases db.latestSubscription tenantId <;> simp
  addOns := db.addOns
  tenantAddOns := db.tenantAddOns.filter fun row => row.tenantId = tenantId ∧ row.isActive
  entitlements := fun _ _ => none
  quotaLimits := fun _ _ => none

def computed (db : BillingDb) (tenantId : String) : BillingDb :=
  (fresh db tenantId).syncPlan tenantId (currentPlan db tenantId)

/-- The tenant's rows are those computed from its latest subscription and its active add-ons. -/
def Exact (tenantId : String) (db : BillingDb) : Prop :=
  ∀ r, db.entitlements tenantId r = (computed db tenantId).entitlements tenantId r ∧
    db.quotaLimits tenantId r = (computed db tenantId).quotaLimits tenantId r

/-- The effective limits of the plan the tenant's latest subscription grants. -/
def currentLimits (db : BillingDb) (tenantId : String) : EffectiveLimits :=
  mergeEffectiveLimits (getPlanLimits (currentPlan db tenantId)) (db.addOnQuotas tenantId)

variable {prices} {db : BillingDb} {tenantId planId : String} {d : Delivery} {row : SubscriptionRow}

theorem granted_keys : row.granted.tenantId = row.tenantId ∧ row.granted.createdAt = row.createdAt := by
  unfold SubscriptionRow.granted
  split_ifs <;> exact ⟨rfl, rfl⟩

theorem latestSubscription_fresh :
    (fresh db tenantId).latestSubscription tenantId = (db.latestSubscription tenantId).map SubscriptionRow.granted := by
  have hsubs : (fresh db tenantId).subscriptions =
      ((db.latestSubscription tenantId).map SubscriptionRow.granted).toList := rfl
  cases h : db.latestSubscription tenantId with
  | none =>
    rw [BillingDb.latestSubscription, hsubs, h]
    simp [Table.latest]
  | some row =>
    have hrow : row.tenantId = tenantId := by
      simpa using (List.mem_filter.1 (Table.latest_mem h)).2
    have ht : row.granted.tenantId = tenantId := granted_keys.1.trans hrow
    rw [BillingDb.latestSubscription, hsubs, h]
    simp [ht, Table.latest]

theorem addOnQuotas_fresh : (fresh db tenantId).addOnQuotas tenantId = db.addOnQuotas tenantId := by
  simp [BillingDb.addOnQuotas, fresh, List.filter_filter]

theorem computeEffectiveLimits_fresh :
    (fresh db tenantId).computeEffectiveLimits tenantId = currentLimits db tenantId := by
  rw [BillingDb.computeEffectiveLimits, latestSubscription_fresh, addOnQuotas_fresh, currentLimits, currentPlan]
  cases db.latestSubscription tenantId <;> rfl

theorem computed_entitlements {r : String} :
    (computed db tenantId).entitlements tenantId r = EffectiveLimits.get (currentLimits db tenantId) r := by
  rw [computed, BillingDb.syncPlan_entitlements, if_pos rfl, computeEffectiveLimits_fresh]
  cases EffectiveLimits.get (currentLimits db tenantId) r <;> rfl

theorem computed_quotaLimits {r : String} : (computed db tenantId).quotaLimits tenantId r =
    if isStandard r then limitRow ((EffectiveLimits.get (currentLimits db tenantId) r).getD 0)
    else ((getPlanLimits (currentPlan db tenantId)).quota r).elim none limitRow := by
  rw [computed, BillingDb.syncPlan_quotaLimits, if_pos rfl, computeEffectiveLimits_fresh]
  rfl

/-! ## What an event moves and what it synchronises -/

theorem reviveInvoicePaid_id (object : StripeObject) (now : ℕ) (row : SubscriptionRow) :
    (row.reviveInvoicePaid object now).id = row.id := rfl

variable (prices) in
/-- The database with an event's changes of subscriptions and add-ons, before any synchronisation. -/
def moved (object : StripeObject) (now : ℕ) (db : BillingDb) : EventKind → BillingDb
  | .subscriptionUpsert =>
    match db.subByStripeCustomer object.customer.id with
    | none => db
    | some tenantSub => db.updateSubscriptions (fun row => row.id = tenantSub.id)
        (fun row => (row.update object now (resolvePlanId prices object.priceId tenantSub.planId)).finalizeTrialPeriod
          object now) fun _ => rfl
  | .subscriptionDeleted =>
    match db.subByStripeCustomer object.customer.id with
    | none => db.cancelByCustomer object.customer.id now
    | some canceledSub =>
      (db.cancelByCustomer object.customer.id now).cancelTenantAddons canceledSub.tenantId
  | .invoicePaid =>
    if object.customer.id = "" then db
    else match db.subByStripeCustomer object.customer.id with
      | none => db
      | some tenantSub => db.updateSubscriptions (fun row => row.id = tenantSub.id)
          (fun row => row.reviveInvoicePaid object now) (reviveInvoicePaid_id object now)
  | .invoicePaymentFailed => handleInvoicePaymentFailed object now db
  | .trialWillEnd | .unhandled => db

variable (prices) in
/-- The tenant an event synchronises, and the plan. -/
def syncOf (object : StripeObject) (db : BillingDb) : EventKind → Option (String × String)
  | .subscriptionUpsert =>
    match db.subByStripeCustomer object.customer.id with
    | none => none
    | some tenantSub =>
      if resolvePlanId prices object.priceId tenantSub.planId ≠ tenantSub.planId then
        some (tenantSub.tenantId, resolvePlanId prices object.priceId tenantSub.planId)
      else none
  | .subscriptionDeleted =>
    (db.subByStripeCustomer object.customer.id).map fun canceledSub => (canceledSub.tenantId, "free")
  | .invoicePaid =>
    if object.customer.id = "" then none
    else match db.subByStripeCustomer object.customer.id with
      | none => none
      | some tenantSub =>
        if tenantSub.status = .pastDue then some (tenantSub.tenantId, tenantSub.planId) else none
  | .invoicePaymentFailed | .trialWillEnd | .unhandled => none

/-- **A handler** moves and then synchronises. -/
theorem handle_eq {object : StripeObject} {now : ℕ} {kind : EventKind} :
    handle prices object now db kind =
      (syncOf prices object db kind).elim (moved prices object now db kind)
        fun sync => (moved prices object now db kind).syncPlan sync.1 sync.2 := by
  cases kind with
  | invoicePaymentFailed | trialWillEnd | unhandled => rfl
  | subscriptionUpsert =>
    cases hsub : db.subByStripeCustomer object.customer.id with
    | none => simp only [handle, handleSubscriptionUpsert, syncOf, moved, hsub, Option.elim_none]
    | some tenantSub =>
      simp only [handle, handleSubscriptionUpsert_eq hsub, syncOf, moved, hsub]
      split_ifs <;> rfl
  | subscriptionDeleted =>
    rw [handle, BillingDb.handleSubscriptionDeleted_eq]
    cases hsub : db.subByStripeCustomer object.customer.id <;> simp [syncOf, moved, hsub]
  | invoicePaid =>
    by_cases hempty : object.customer.id = ""
    · simp [handle, handleInvoicePaid, syncOf, moved, hempty]
    · cases hsub : db.subByStripeCustomer object.customer.id with
      | none => simp [handle, handleInvoicePaid, syncOf, moved, hempty, hsub]
      | some tenantSub =>
        simp only [handle, handleInvoicePaid, syncOf, moved, if_neg hempty, hsub]
        split_ifs <;> rfl

theorem moved_tables {object : StripeObject} {now : ℕ} {kind : EventKind} :
    (moved prices object now db kind).entitlements = db.entitlements ∧
      (moved prices object now db kind).quotaLimits = db.quotaLimits := by
  cases kind with
  | trialWillEnd | unhandled => exact ⟨rfl, rfl⟩
  | subscriptionUpsert | subscriptionDeleted =>
    simp only [moved]
    split <;> exact ⟨rfl, rfl⟩
  | invoicePaid =>
    simp only [moved]
    split_ifs
    · exact ⟨rfl, rfl⟩
    · split <;> exact ⟨rfl, rfl⟩
  | invoicePaymentFailed =>
    simp only [moved, handleInvoicePaymentFailed]
    split_ifs
    · exact ⟨rfl, rfl⟩
    · split <;> exact ⟨rfl, rfl⟩

/-! ## Exact tables -/

def planRow (planId r : String) : Option QuotaLimitRow := ((getPlanLimits planId).quota r).elim none limitRow

/-- Two plans have the same quotas for the resources that no add-on can raise. -/
def SameQuotas (planId planId' : String) : Prop := ∀ r, ¬ isStandard r → planRow planId r = planRow planId' r

/-- A synchronisation counts what the subscription grants: it would count a canceled plan. -/
def Counts (tenantId : String) (db : BillingDb) : Prop :=
  ∀ r, EffectiveLimits.get (db.computeEffectiveLimits tenantId) r =
    EffectiveLimits.get (currentLimits db tenantId) r

/-- Whatever the tenant had a limit for in `db` it has a limit for in `db'`. -/
def NothingLost (tenantId : String) (db db' : BillingDb) : Prop :=
  ∀ r, (EffectiveLimits.get (currentLimits db tenantId) r).isSome →
    (EffectiveLimits.get (currentLimits db' tenantId) r).isSome

/-- The tenant's subscription and add-ons are worth in `db'` what they are worth in `db`. -/
def SameWorth (tenantId : String) (db db' : BillingDb) : Prop :=
  (∀ r, EffectiveLimits.get (currentLimits db tenantId) r = EffectiveLimits.get (currentLimits db' tenantId) r) ∧
    SameQuotas (currentPlan db tenantId) (currentPlan db' tenantId)

theorem current_congr {db' : BillingDb} (hsubs : db'.subscriptions = db.subscriptions)
    (hadd : db'.addOns = db.addOns) (htadd : db'.tenantAddOns = db.tenantAddOns) (tenantId : String) :
    currentPlan db' tenantId = currentPlan db tenantId ∧ currentLimits db' tenantId = currentLimits db tenantId := by
  have hlatest : db'.latestSubscription tenantId = db.latestSubscription tenantId := by
    rw [BillingDb.latestSubscription, BillingDb.latestSubscription, hsubs]
  have hquotas : db'.addOnQuotas tenantId = db.addOnQuotas tenantId := by
    rw [BillingDb.addOnQuotas, BillingDb.addOnQuotas, hadd, htadd]
  have hplan : currentPlan db' tenantId = currentPlan db tenantId := by rw [currentPlan, currentPlan, hlatest]
  exact ⟨hplan, by rw [currentLimits, currentLimits, hplan, hquotas]⟩

theorem exact_iff_rows : Exact tenantId db ↔
    (∀ r, db.entitlements tenantId r = EffectiveLimits.get (currentLimits db tenantId) r) ∧
      (∀ r, isStandard r → db.quotaLimits tenantId r =
        limitRow ((EffectiveLimits.get (currentLimits db tenantId) r).getD 0)) ∧
      ∀ r, ¬ isStandard r → db.quotaLimits tenantId r = planRow (currentPlan db tenantId) r := by
  simp only [Exact, computed_entitlements, computed_quotaLimits]
  constructor
  · intro h
    refine ⟨fun r => (h r).1, fun r hr => ?_, fun r hr => ?_⟩
    · rw [(h r).2, if_pos hr]
    · rw [(h r).2, if_neg hr, planRow]
  · rintro ⟨hent, hstd, hplan⟩ r
    refine ⟨hent r, ?_⟩
    split_ifs with hr
    · exact hstd r hr
    · exact hplan r hr

/-- **Without a synchronisation** exact tables stay exact if the tenant's subscription and add-ons are worth
what they were worth. -/
theorem Exact.moved_iff {db' : BillingDb} (h : Exact tenantId db) (hent : db'.entitlements = db.entitlements)
    (hquota : db'.quotaLimits = db.quotaLimits) : Exact tenantId db' ↔ SameWorth tenantId db db' := by
  obtain ⟨h₁, h₂, h₃⟩ := exact_iff_rows.1 h
  rw [exact_iff_rows, hent, hquota]
  constructor
  · rintro ⟨h₁', -, h₃'⟩
    exact ⟨fun r => (h₁ r).symm.trans (h₁' r), fun r hr => (h₃ r hr).symm.trans (h₃' r hr)⟩
  · rintro ⟨hlimits, hplan⟩
    refine ⟨fun r => (h₁ r).trans (hlimits r), fun r hr => ?_, fun r hr => (h₃ r hr).trans (hplan r hr)⟩
    rw [h₂ r hr, hlimits]

theorem counted_isSome {r : String} : (EffectiveLimits.get (db.computeEffectiveLimits tenantId) r).isSome ↔
    (EffectiveLimits.get (currentLimits db tenantId) r).isSome := by
  rw [BillingDb.computeEffectiveLimits, currentLimits, get_mergeEffectiveLimits_isSome,
    get_mergeEffectiveLimits_isSome]

/-- The entitlements after a synchronisation are what is granted exactly if that is what it counts and no row is
left of anything else. -/
theorem entitlements_synced_iff {old : String → Option ℤ} :
    (∀ r, ((EffectiveLimits.get (db.computeEffectiveLimits tenantId) r) <|> old r) =
      EffectiveLimits.get (currentLimits db tenantId) r) ↔
    Counts tenantId db ∧ ∀ r, (old r).isSome → (EffectiveLimits.get (currentLimits db tenantId) r).isSome := by
  have hsome := fun r => @counted_isSome db tenantId r
  constructor
  · intro h
    refine ⟨fun r => ?_, fun r hold => ?_⟩
    · cases hc : EffectiveLimits.get (db.computeEffectiveLimits tenantId) r with
      | none =>
        have hnone := mt (hsome r).2 (by simp [hc])
        exact (Option.not_isSome_iff_eq_none.1 hnone).symm
      | some value => simpa [hc] using h r
    · by_contra hnone
      have hc := Option.not_isSome_iff_eq_none.1 (mt (hsome r).1 hnone)
      have hr := h r
      rw [hc, Option.not_isSome_iff_eq_none.1 hnone] at hr
      obtain ⟨value, hv⟩ := Option.isSome_iff_exists.1 hold
      simp [hv] at hr
  · rintro ⟨hcounts, hleft⟩ r
    cases hk : EffectiveLimits.get (currentLimits db tenantId) r with
    | some value => simp [hcounts r, hk]
    | none =>
      have hold : old r = none := by
        by_contra hne
        have := hleft r (Option.isSome_iff_ne_none.2 hne)
        simp [hk] at this
      simp [hcounts r, hk, hold]

/-- **A synchronisation of the entitlements** leaves the tenant's tables exact if it counts what is granted, no
entitlement is left of anything else and the quotas it does not write are those of the plan. -/
theorem exact_syncTenantEntitlements : Exact tenantId (db.syncTenantEntitlements tenantId) ↔
    Counts tenantId db ∧
      (∀ r, (db.entitlements tenantId r).isSome → (EffectiveLimits.get (currentLimits db tenantId) r).isSome) ∧
      ∀ r, ¬ isStandard r → db.quotaLimits tenantId r = planRow (currentPlan db tenantId) r := by
  obtain ⟨hplan, hlimits⟩ := @current_congr db (db.syncTenantEntitlements tenantId)
    (BillingDb.syncTenantEntitlements_subscriptions _ _) (BillingDb.syncTenantEntitlements_addOns _ _)
    (BillingDb.syncTenantEntitlements_tenantAddOns _ _) tenantId
  rw [exact_iff_rows, hplan, hlimits]
  simp only [BillingDb.syncTenantEntitlements_entitlements, BillingDb.syncTenantEntitlements_quotaLimits, if_true,
    true_and]
  rw [entitlements_synced_iff, and_assoc]
  refine and_congr_right fun hcounts => and_congr_right fun _ => ?_
  constructor
  · rintro ⟨-, hquota⟩ r hr
    simpa [hr] using hquota r hr
  · intro hquota
    refine ⟨fun r hr => ?_, fun r hr => ?_⟩
    · rw [if_pos hr, hcounts r]
    · rw [if_neg hr]
      exact hquota r hr

theorem syncPlanToQuota_planRow {planId' r : String} {limits : QuotaLimits}
    (h : limits tenantId r = planRow planId r) :
    syncPlanToQuota tenantId planId' limits tenantId r = planRow planId' r := by
  rw [syncPlanToQuota_apply, if_pos rfl, planRow]
  cases hq : (getPlanLimits planId').quota r with
  | some value => rfl
  | none =>
    have hnone : (getPlanLimits planId).quota r = none := by
      rw [← Option.not_isSome_iff_eq_none, quota_isSome, ← quota_isSome, Option.not_isSome_iff_eq_none]
      exact hq
    simp [h, planRow, hnone]

/-- **A synchronisation of exact tables** leaves them exact if it counts what is granted, the plan it writes is
worth the one that is granted, and nothing is lost. -/
theorem Exact.syncPlan_iff {db' : BillingDb} {plan : String} (h : Exact tenantId db)
    (hent : db'.entitlements = db.entitlements) (hquota : db'.quotaLimits = db.quotaLimits) :
    Exact tenantId (db'.syncPlan tenantId plan) ↔ Counts tenantId db' ∧ NothingLost tenantId db db' ∧
      SameQuotas plan (currentPlan db' tenantId) := by
  obtain ⟨h₁, -, h₃⟩ := exact_iff_rows.1 h
  have hsync : Exact tenantId (db'.syncPlan tenantId plan) ↔ Counts tenantId db' ∧
      (∀ r, (db'.entitlements tenantId r).isSome → (EffectiveLimits.get (currentLimits db' tenantId) r).isSome) ∧
      ∀ r, ¬ isStandard r → syncPlanToQuota tenantId plan db'.quotaLimits tenantId r =
        planRow (currentPlan db' tenantId) r := exact_syncTenantEntitlements
  rw [hsync, hent, hquota]
  refine and_congr_right fun _ => and_congr ?_ ?_
  · exact forall_congr' fun r => by rw [h₁ r]
  · refine forall_congr' fun r => forall_congr' fun hr => ?_
    rw [syncPlanToQuota_planRow (h₃ r hr)]

theorem exact_of_empty (hent : ∀ r, db.entitlements tenantId r = none) (hquota : ∀ r, db.quotaLimits tenantId r = none)
    (hcounts : Counts tenantId db) : Exact tenantId (db.syncPlan tenantId (currentPlan db tenantId)) := by
  have hsync : Exact tenantId (db.syncPlan tenantId (currentPlan db tenantId)) ↔ Counts tenantId db ∧
      (∀ r, (db.entitlements tenantId r).isSome → (EffectiveLimits.get (currentLimits db tenantId) r).isSome) ∧
      ∀ r, ¬ isStandard r → syncPlanToQuota tenantId (currentPlan db tenantId) db.quotaLimits tenantId r =
        planRow (currentPlan db tenantId) r := exact_syncTenantEntitlements
  refine hsync.2 ⟨hcounts, fun r hr => ?_, fun r _ => ?_⟩
  · simp [hent r] at hr
  · rw [syncPlanToQuota_apply, if_pos rfl, hquota r, planRow]

theorem exact_syncTenantEntitlements_of_ne {other : String} (hne : other ≠ tenantId) :
    Exact tenantId (db.syncTenantEntitlements other) ↔ Exact tenantId db := by
  obtain ⟨hplan, hlimits⟩ := @current_congr db (db.syncTenantEntitlements other)
    (BillingDb.syncTenantEntitlements_subscriptions _ _) (BillingDb.syncTenantEntitlements_addOns _ _)
    (BillingDb.syncTenantEntitlements_tenantAddOns _ _) tenantId
  simp only [exact_iff_rows, hplan, hlimits, BillingDb.syncTenantEntitlements_entitlements,
    BillingDb.syncTenantEntitlements_quotaLimits, hne.symm, false_and, if_false]

theorem exact_syncPlan_of_ne {other plan : String} (hne : other ≠ tenantId) :
    Exact tenantId (db.syncPlan other plan) ↔ Exact tenantId db := by
  obtain ⟨hplan, hlimits⟩ := @current_congr db (db.syncPlan other plan)
    BillingDb.syncPlan_subscriptions BillingDb.syncPlan_addOns BillingDb.syncPlan_tenantAddOns tenantId
  simp only [exact_iff_rows, hplan, hlimits, BillingDb.syncPlan_entitlements, BillingDb.syncPlan_quotaLimits,
    if_neg hne.symm]

/-! ## Runs -/

/-- The tables with an add-on bought. -/
def BillingDb.withAddOn (db : BillingDb) (tenantId addOnId : String) : BillingDb :=
  { db with tenantAddOns := db.tenantAddOns ++ [⟨tenantId, addOnId, true⟩] }

variable (prices) in
/-- A step keeps the tenant's tables exact: either it synchronises the tenant, counts what is granted, and what is
granted has a row wherever the tenant had one; or it changes nothing of what the tenant's subscription and add-ons
are worth. -/
def Tracks (tenantId : String) (db : BillingDb) : BillingStep → Prop
  | .event d => Processes db d →
    let db' := moved prices d.event.object d.now (db.record d) d.event.kind
    match syncOf prices d.event.object (db.record d) d.event.kind with
    | none => SameWorth tenantId db db'
    | some (synced, plan) =>
      if synced = tenantId then
        Counts tenantId db' ∧ NothingLost tenantId db db' ∧ SameQuotas plan (currentPlan db' tenantId)
      else SameWorth tenantId db db'
  | .purchase buyer addOnId => buyer = tenantId → (∃ addOn ∈ db.addOns, addOn.id = addOnId ∧ addOn.isActive) →
    Counts tenantId (db.withAddOn tenantId addOnId)

theorem addOnQuotas_withAddOn {buyer addOnId : String} : (db.withAddOn buyer addOnId).addOnQuotas tenantId =
    db.addOnQuotas tenantId ++ if buyer = tenantId then
      (db.addOns.filter fun addOn => addOn.id = addOnId).map fun addOn => (addOn.resource, addOn.quotaAmount)
    else [] := by
  by_cases hb : buyer = tenantId <;> simp [BillingDb.addOnQuotas, BillingDb.withAddOn, List.filter_append, hb]

/-- **A purchase** keeps exact tables exact if the synchronisation counts what is granted. -/
theorem Exact.purchase_iff {buyer addOnId : String} (h : Exact tenantId db) :
    Exact tenantId (purchaseAddOn db buyer addOnId) ↔ Tracks prices tenantId db (.purchase buyer addOnId) := by
  obtain ⟨h₁, -, h₃⟩ := exact_iff_rows.1 h
  by_cases hoffer : ∃ addOn ∈ db.addOns, addOn.id = addOnId ∧ addOn.isActive
  · have hbuy : purchaseAddOn db buyer addOnId = (db.withAddOn buyer addOnId).syncTenantEntitlements buyer :=
      if_pos hoffer
    rw [hbuy]
    by_cases hb : buyer = tenantId
    · subst hb
      rw [exact_syncTenantEntitlements]
      refine ⟨fun hexact _ _ => hexact.1, fun htracks => ⟨htracks rfl hoffer, fun r hr => ?_, fun r hr => h₃ r hr⟩⟩
      have hr' : (db.entitlements buyer r).isSome := hr
      rw [h₁ r, currentLimits, get_mergeEffectiveLimits_isSome] at hr'
      rw [currentLimits, get_mergeEffectiveLimits_isSome, addOnQuotas_withAddOn]
      exact hr'.imp_right fun ⟨addOn, hmem, hres⟩ => ⟨addOn, List.mem_append_left _ hmem, hres⟩
    · refine ⟨fun _ he => absurd he hb, fun _ => (exact_syncTenantEntitlements_of_ne hb).2 ?_⟩
      have hquotas : (db.withAddOn buyer addOnId).addOnQuotas tenantId = db.addOnQuotas tenantId := by
        rw [addOnQuotas_withAddOn, if_neg hb, List.append_nil]
      have hlimits : currentLimits (db.withAddOn buyer addOnId) tenantId = currentLimits db tenantId := by
        rw [currentLimits, hquotas]
        rfl
      rw [exact_iff_rows, hlimits]
      exact exact_iff_rows.1 h
  · have hbuy : purchaseAddOn db buyer addOnId = db := if_neg hoffer
    rw [hbuy]
    exact ⟨fun _ _ hoffer' => absurd hoffer' hoffer, fun _ => h⟩

/-- **Step lemma.** -/
theorem Exact.step_iff {e : BillingStep} (h : Exact tenantId db) :
    Exact tenantId (billingStep prices db e) ↔ Tracks prices tenantId db e := by
  cases e with
  | purchase buyer addOnId => exact h.purchase_iff
  | event d =>
    simp only [billingStep, Tracks]
    by_cases hp : Processes db d
    · obtain ⟨hent, hquota⟩ := @moved_tables prices (db.record d) d.event.object d.now d.event.kind
      rw [deliver_of hp, handle_eq]
      cases hsync : syncOf prices d.event.object (db.record d) d.event.kind with
      | none => exact (h.moved_iff hent hquota).trans ⟨fun hw _ => hw, fun hw => hw hp⟩
      | some sync =>
        simp only [Option.elim_some]
        by_cases ht : sync.1 = tenantId
        · rw [if_pos ht, ht]
          exact (h.syncPlan_iff hent hquota).trans ⟨fun hw _ => hw, fun hw => hw hp⟩
        · rw [if_neg ht, exact_syncPlan_of_ne ht]
          exact (h.moved_iff hent hquota).trans ⟨fun hw _ => hw, fun hw => hw hp⟩
    · rw [deliver_of_not hp]
      exact ⟨fun _ hp' => absurd hp' hp, fun _ => h⟩

/-- **Entitlements are a function of the subscription.** In every state of a run of events and purchases a
tenant's quotas and entitlements are those computed from its latest subscription and its active add-ons exactly if
they are at the start and every step tracks what it changes. -/
theorem exact_iff {es : List BillingStep} : Always (billingStep prices) (Exact tenantId) db es ↔
    Exact tenantId db ∧ Along (billingStep prices) (Tracks prices tenantId) db es := by
  have hiff : Exact tenantId db → (Always (billingStep prices) (Exact tenantId) db es ↔
      Along (billingStep prices) (Tracks prices tenantId) db es) := fun h =>
    always_iff_along h (fun _ h => h) (fun _ _ hI hC => hI.step_iff.2 hC) fun _ _ hI hP => hI.step_iff.1 hP
  exact ⟨fun h => ⟨h.init, (hiff h.init).1 h⟩, fun h => (hiff h.1).2 h.2⟩

/-- A tenant of the free plan to which an add-on is on offer. -/
def onOffer : BillingDb where
  webhookEvents := []
  subscriptions := [⟨"sub_1", "tenant_1", some "cus_1", none, "free", .active, 0, 0, none, false, none, none, 0, 0⟩]
  ids := by decide
  addOns := [⟨"addon_1", "advanced_models", 1, true⟩]
  tenantAddOns := []
  entitlements := fun _ _ => none
  quotaLimits := fun _ _ => none

/-- The add-on is bought, and the subscription deleted. -/
def boughtAndDeleted : List BillingStep :=
  [.purchase "tenant_1" "addon_1", .event (eventOf "evt_1" "customer.subscription.deleted")]

/-- The entitlement of an add-on that has been canceled stays. -/
theorem entitlement_stays : ¬ ∀ (prices : StripePrices) (db : BillingDb) (tenantId : String)
    (es : List BillingStep), Exact tenantId db → Exact tenantId (run (billingStep prices) db es) := by
  intro h
  have hstart : Exact "tenant_1" (onOffer.syncPlan "tenant_1" (currentPlan onOffer "tenant_1")) :=
    exact_of_empty (fun _ => rfl) (fun _ => rfl) fun _ => rfl
  have hend := (h noPrices _ "tenant_1" boughtAndDeleted hstart "advanced_models").1
  have hrow : (run (billingStep noPrices) (onOffer.syncPlan "tenant_1" (currentPlan onOffer "tenant_1"))
    boughtAndDeleted).entitlements "tenant_1" "advanced_models" = some 1 := by decide
  have hcomputed : (computed (run (billingStep noPrices) (onOffer.syncPlan "tenant_1" (currentPlan onOffer "tenant_1"))
    boughtAndDeleted) "tenant_1").entitlements "tenant_1" "advanced_models" = none := by decide
  rw [hrow, hcomputed] at hend
  cases hend

end ChronoSynth.Stripe

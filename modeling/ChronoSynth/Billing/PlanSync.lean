import ChronoSynth.Billing.StripeWebhookService

/-!
# What a synchronisation writes

The loops of `syncPlanToQuota` and `syncTenantEntitlements` write one row for each resource, so what they leave
can be read off row by row. A plan has a limit other than zero for every resource, and for the standard
resources there is always an effective limit.
-/

namespace ChronoSynth.Stripe

open Tenancy (QuotaLimits QuotaLimitRow)

/-- The row of `quota_limits` for a limit: none for a negative one. -/
def limitRow (value : ℤ) : Option QuotaLimitRow := if value < 0 then none else some (monthly value)

/-! ## Plans -/

theorem getPlanLimits_mem (planId : String) :
    getPlanLimits planId ∈ kernelPlans.map KernelPlan.limits := by
  unfold getPlanLimits getKernelPlan
  cases h : kernelPlans.find? (fun plan => plan.id = planId) with
  | none => decide
  | some plan => exact List.mem_map_of_mem (List.mem_of_find?_eq_some h)

theorem quotas_ne_zero (planId : String) : ∀ entry ∈ (getPlanLimits planId).quotas, entry.2 ≠ 0 := by
  have h : ∀ limits ∈ kernelPlans.map KernelPlan.limits, ∀ entry ∈ limits.quotas, entry.2 ≠ 0 := by decide
  exact h _ (getPlanLimits_mem planId)

def PlanLimits.quota (limits : PlanLimits) (resource : String) : Option ℤ :=
  (limits.quotas.find? fun entry => entry.1 = resource).map Prod.snd

theorem quota_isSome {limits : PlanLimits} {r : String} : (limits.quota r).isSome ↔
    isStandard r ∨ r = "conversation_message" ∨ r = "bulk_knowledge_import_item" := by
  rw [PlanLimits.quota, Option.isSome_map, List.find?_isSome]
  simp [PlanLimits.quotas, isStandard, or_assoc, eq_comm]

/-- `syncPlanToQuota` writes the plan's limits of the tenant, and nothing else. -/
theorem syncPlanToQuota_apply {tenantId planId t r : String} {limits : QuotaLimits} :
    syncPlanToQuota tenantId planId limits t r =
      if t = tenantId then ((getPlanLimits planId).quota r).elim (limits t r) limitRow else limits t r := by
  have hstep : ∀ (limits : QuotaLimits) (entry : String × ℤ), applyLimit tenantId entry.1 entry.2 limits t r =
      if entry.1 = r then if t = tenantId ∧ entry.2 ≠ 0 then limitRow entry.2 else limits t r
      else limits t r := by
    intro limits entry
    rcases lt_trichotomy entry.2 0 with hlt | heq | hgt
    · by_cases hr : entry.1 = r
      · simp [applyLimit, QuotaLimits.clearLimit, limitRow, hlt, hlt.ne, hr]
      · simp [applyLimit, QuotaLimits.clearLimit, hlt, hr, Ne.symm hr]
    · simp [applyLimit, heq]
    · by_cases hr : entry.1 = r
      · simp [applyLimit, QuotaLimits.put, limitRow, hgt, hgt.ne', hgt.not_gt, hr]
      · simp [applyLimit, QuotaLimits.put, hgt, hgt.not_gt, hr, Ne.symm hr]
  have hkeys : ((getPlanLimits planId).quotas.map Prod.fst).Nodup := by
    simp only [PlanLimits.quotas, List.map_cons, List.map_nil]
    decide
  rw [syncPlanToQuota, Table.foldl_key Prod.fst (fun limits : QuotaLimits => limits t r)
    (fun entry old => if t = tenantId ∧ entry.2 ≠ 0 then limitRow entry.2 else old) hstep hkeys, PlanLimits.quota]
  cases h : (getPlanLimits planId).quotas.find? (fun entry => entry.1 = r) with
  | none => simp
  | some entry => simp [quotas_ne_zero planId entry (List.mem_of_find?_eq_some h)]

/-! ## Effective limits -/

namespace EffectiveLimits

variable {limits : EffectiveLimits} {resource r : String} {value : ℤ}

@[simp] theorem get_nil : get [] r = none := rfl

@[simp] theorem get_cons {entry : String × ℤ} :
    get (entry :: limits) r = if entry.1 = r then some entry.2 else get limits r := by
  by_cases he : entry.1 = r
  · simp [get, he]
  · simp [get, he]

theorem get_isSome : (get limits r).isSome ↔ ∃ entry ∈ limits, entry.1 = r := by
  simp [get, List.find?_isSome]

theorem get_append : get (limits ++ [(resource, value)]) r =
    ((get limits r) <|> (if resource = r then some value else none)) := by
  induction limits with
  | nil => simp
  | cons entry limits ih =>
    by_cases he : entry.1 = r
    · simp [he]
    · simpa [he] using ih

theorem get_replace :
    get (limits.map fun entry => if entry.1 = resource then (resource, value) else entry) r =
      if r = resource ∧ (get limits resource).isSome then some value else get limits r := by
  induction limits with
  | nil => simp
  | cons entry limits ih =>
    rw [List.map_cons, get_cons, ih]
    by_cases he : entry.1 = resource
    · by_cases hr : r = resource
      · simp [he, hr]
      · simp [he, hr, Ne.symm hr]
    · by_cases hr : r = resource
      · simp [he, hr]
      · simp [he, hr]

theorem get_set : get (set limits resource value) r = if r = resource then some value else get limits r := by
  unfold set
  split_ifs with hsome hr hr
  · simp [get_replace, hr, hsome]
  · simp [get_replace, hr]
  · subst hr
    have hnone : get limits r = none := by simpa using hsome
    simp [get_append, hnone]
  · simp [get_append, Ne.symm hr]

theorem keys_set (h : (limits.map Prod.fst).Nodup) : ((set limits resource value).map Prod.fst).Nodup := by
  unfold set
  split_ifs with hsome
  · have hkeys : (limits.map fun entry => if entry.1 = resource then (resource, value) else entry).map Prod.fst =
        limits.map Prod.fst := by
      rw [List.map_map]
      refine List.map_congr_left fun entry _ => ?_
      by_cases he : entry.1 = resource
      · simp [he]
      · simp [he]
    rwa [hkeys]
  · rw [List.map_append, List.nodup_append]
    refine ⟨h, List.nodup_singleton _, fun a ha b hb hab => hsome ?_⟩
    obtain ⟨entry, he, rfl⟩ := List.mem_map.1 ha
    have hb' : b = resource := by simpa using hb
    exact get_isSome.2 ⟨entry, he, hab.trans hb'⟩

end EffectiveLimits

theorem get_mergeAddOn_isSome {limits : EffectiveLimits} {addOn : String × ℤ} {r : String} :
    (EffectiveLimits.get (mergeAddOn limits addOn) r).isSome ↔
      (EffectiveLimits.get limits r).isSome ∨ addOn.1 = r := by
  have hset : ∀ value, (EffectiveLimits.get (EffectiveLimits.set limits addOn.1 value) r).isSome ↔
      (EffectiveLimits.get limits r).isSome ∨ addOn.1 = r := by
    intro value
    rw [EffectiveLimits.get_set]
    by_cases hr : r = addOn.1
    · simp [hr]
    · simp [hr, Ne.symm hr]
  cases h : EffectiveLimits.get limits addOn.1 with
  | none =>
    simp only [mergeAddOn, h]
    exact hset _
  | some base =>
    simp only [mergeAddOn, h]
    split_ifs
    · refine ⟨.inl, fun hr => hr.elim id fun hr => ?_⟩
      rw [← hr, h]
      rfl
    · exact hset _

theorem keys_mergeAddOn {limits : EffectiveLimits} {addOn : String × ℤ} (h : (limits.map Prod.fst).Nodup) :
    ((mergeAddOn limits addOn).map Prod.fst).Nodup := by
  unfold mergeAddOn
  split
  · split_ifs
    · exact h
    · exact EffectiveLimits.keys_set h
  · exact EffectiveLimits.keys_set h

theorem keys_mergeEffectiveLimits (planLimits : PlanLimits) (addOns : List (String × ℤ)) :
    ((mergeEffectiveLimits planLimits addOns).map Prod.fst).Nodup := by
  have h : ∀ limits : EffectiveLimits, (limits.map Prod.fst).Nodup →
      ((addOns.foldl mergeAddOn limits).map Prod.fst).Nodup := by
    induction addOns with
    | nil => exact fun _ h => h
    | cons addOn addOns ih => exact fun _ h => ih _ (keys_mergeAddOn h)
  refine h _ ?_
  simp only [planLimitsToResourceMap, List.map_cons, List.map_nil]
  decide

theorem get_mergeEffectiveLimits_isSome {planLimits : PlanLimits} {addOns : List (String × ℤ)} {r : String} :
    (EffectiveLimits.get (mergeEffectiveLimits planLimits addOns) r).isSome ↔
      isStandard r ∨ ∃ addOn ∈ addOns, addOn.1 = r := by
  have h : ∀ limits : EffectiveLimits, (EffectiveLimits.get (addOns.foldl mergeAddOn limits) r).isSome ↔
      (EffectiveLimits.get limits r).isSome ∨ ∃ addOn ∈ addOns, addOn.1 = r := by
    induction addOns with
    | nil => simp
    | cons addOn addOns ih =>
      intro limits
      rw [List.foldl_cons, ih, get_mergeAddOn_isSome]
      simp [or_assoc]
  rw [mergeEffectiveLimits, h]
  refine or_congr_left ?_
  rw [EffectiveLimits.get_isSome]
  simp [planLimitsToResourceMap, isStandard, eq_comm]

/-! ## Synchronising a tenant -/

namespace BillingDb

variable {db : BillingDb} {tenantId planId t r : String}

section
variable (db tenantId)

@[simp] theorem syncTenantEntitlements_subscriptions :
    (db.syncTenantEntitlements tenantId).subscriptions = db.subscriptions :=
  @Table.foldl_keep _ _ _ (writeEntitlement tenantId) BillingDb.subscriptions (fun _ _ => rfl) _ db

@[simp] theorem syncTenantEntitlements_webhookEvents :
    (db.syncTenantEntitlements tenantId).webhookEvents = db.webhookEvents :=
  @Table.foldl_keep _ _ _ (writeEntitlement tenantId) BillingDb.webhookEvents (fun _ _ => rfl) _ db

@[simp] theorem syncTenantEntitlements_addOns :
    (db.syncTenantEntitlements tenantId).addOns = db.addOns :=
  @Table.foldl_keep _ _ _ (writeEntitlement tenantId) BillingDb.addOns (fun _ _ => rfl) _ db

@[simp] theorem syncTenantEntitlements_tenantAddOns :
    (db.syncTenantEntitlements tenantId).tenantAddOns = db.tenantAddOns :=
  @Table.foldl_keep _ _ _ (writeEntitlement tenantId) BillingDb.tenantAddOns (fun _ _ => rfl) _ db

end

theorem keys_computeEffectiveLimits : ((db.computeEffectiveLimits tenantId).map Prod.fst).Nodup :=
  keys_mergeEffectiveLimits _ _

/-- The tenant's entitlements are its effective limits; one that has no effective limit any more stays as it
was. -/
theorem syncTenantEntitlements_entitlements : (db.syncTenantEntitlements tenantId).entitlements t r =
    if t = tenantId then (EffectiveLimits.get (db.computeEffectiveLimits tenantId) r) <|> db.entitlements t r
    else db.entitlements t r := by
  have hstep : ∀ (db : BillingDb) (entry : String × ℤ), (writeEntitlement tenantId db entry).entitlements t r =
      if entry.1 = r then if t = tenantId then some entry.2 else db.entitlements t r
      else db.entitlements t r := by
    intro db entry
    by_cases hr : entry.1 = r
    · simp [writeEntitlement, hr]
    · simp [writeEntitlement, hr, Ne.symm hr]
  rw [syncTenantEntitlements, Table.foldl_key Prod.fst (fun db : BillingDb => db.entitlements t r)
    (fun entry old => if t = tenantId then some entry.2 else old) hstep keys_computeEffectiveLimits,
    EffectiveLimits.get]
  cases (db.computeEffectiveLimits tenantId).find? (fun entry => entry.1 = r) with
  | none => simp
  | some entry => simp

theorem syncTenantEntitlements_quotaLimits : (db.syncTenantEntitlements tenantId).quotaLimits t r =
    if t = tenantId ∧ isStandard r then
      limitRow ((EffectiveLimits.get (db.computeEffectiveLimits tenantId) r).getD 0)
    else db.quotaLimits t r := by
  have hstep : ∀ (db : BillingDb) (entry : String × ℤ), (writeEntitlement tenantId db entry).quotaLimits t r =
      if entry.1 = r then if t = tenantId ∧ isStandard entry.1 then limitRow entry.2 else db.quotaLimits t r
      else db.quotaLimits t r := by
    intro db entry
    by_cases hr : entry.1 = r
    · subst hr
      by_cases hs : isStandard entry.1
      · by_cases hneg : entry.2 < 0
        · simp [writeEntitlement, QuotaLimits.clearLimit, limitRow, hs, hneg]
        · simp [writeEntitlement, QuotaLimits.put, limitRow, hs, hneg]
      · simp [writeEntitlement, hs]
    · simp only [writeEntitlement, hr, if_false]
      split_ifs
      · simp [QuotaLimits.clearLimit, Ne.symm hr]
      · simp [QuotaLimits.put, Ne.symm hr]
      · rfl
  rw [syncTenantEntitlements, Table.foldl_key Prod.fst (fun db : BillingDb => db.quotaLimits t r)
    (fun entry old => if t = tenantId ∧ isStandard entry.1 then limitRow entry.2 else old) hstep
    keys_computeEffectiveLimits]
  cases hf : (db.computeEffectiveLimits tenantId).find? (fun entry => entry.1 = r) with
  | none =>
    have hnot : ¬ isStandard r := fun hr => by
      have hsome : (EffectiveLimits.get (db.computeEffectiveLimits tenantId) r).isSome :=
        get_mergeEffectiveLimits_isSome.2 (.inl hr)
      simp [EffectiveLimits.get, hf] at hsome
    simp [hnot]
  | some entry =>
    have hr : entry.1 = r := by simpa using List.find?_some hf
    simp [EffectiveLimits.get, hf, hr]

theorem syncPlan_quotaLimits : (db.syncPlan tenantId planId).quotaLimits t r =
    if t = tenantId then
      if isStandard r then limitRow ((EffectiveLimits.get (db.computeEffectiveLimits tenantId) r).getD 0)
      else ((getPlanLimits planId).quota r).elim (db.quotaLimits t r) limitRow
    else db.quotaLimits t r := by
  have h : (db.syncPlan tenantId planId).quotaLimits t r = if t = tenantId ∧ isStandard r then
      limitRow ((EffectiveLimits.get (db.computeEffectiveLimits tenantId) r).getD 0)
      else syncPlanToQuota tenantId planId db.quotaLimits t r := syncTenantEntitlements_quotaLimits
  rw [h, syncPlanToQuota_apply]
  by_cases ht : t = tenantId
  · by_cases hr : isStandard r
    · simp [ht, hr]
    · simp [ht, hr]
  · simp [ht]

theorem syncPlan_entitlements : (db.syncPlan tenantId planId).entitlements t r =
    if t = tenantId then (EffectiveLimits.get (db.computeEffectiveLimits tenantId) r) <|> db.entitlements t r
    else db.entitlements t r :=
  syncTenantEntitlements_entitlements

@[simp] theorem syncPlan_subscriptions : (db.syncPlan tenantId planId).subscriptions = db.subscriptions :=
  syncTenantEntitlements_subscriptions _ _

@[simp] theorem syncPlan_webhookEvents : (db.syncPlan tenantId planId).webhookEvents = db.webhookEvents :=
  syncTenantEntitlements_webhookEvents _ _

@[simp] theorem syncPlan_addOns : (db.syncPlan tenantId planId).addOns = db.addOns :=
  syncTenantEntitlements_addOns _ _

@[simp] theorem syncPlan_tenantAddOns : (db.syncPlan tenantId planId).tenantAddOns = db.tenantAddOns :=
  syncTenantEntitlements_tenantAddOns _ _

theorem syncPlan_congr {db' : BillingDb} {planId' : String} (hp : getPlanLimits planId = getPlanLimits planId')
    (he : db.computeEffectiveLimits tenantId = db'.computeEffectiveLimits tenantId)
    (hq : db.quotaLimits = db'.quotaLimits) :
    (db.syncPlan tenantId planId).quotaLimits = (db'.syncPlan tenantId planId').quotaLimits := by
  funext t r
  simp only [syncPlan_quotaLimits, hp, he, hq]

/-- The order of a plan's quotas and the cancellation of the add-ons does not matter. -/
theorem handleSubscriptionDeleted_eq {object : StripeObject} {now : ℕ} :
    handleSubscriptionDeleted object now db =
      match db.subByStripeCustomer object.customer.id with
      | none => db.cancelByCustomer object.customer.id now
      | some canceledSub =>
        ((db.cancelByCustomer object.customer.id now).cancelTenantAddons canceledSub.tenantId).syncPlan
          canceledSub.tenantId "free" := rfl

theorem computeEffectiveLimits_congr {db' : BillingDb}
    (hp : getPlanLimits ((db.latestSubscription tenantId).elim "free" SubscriptionRow.planId) =
      getPlanLimits ((db'.latestSubscription tenantId).elim "free" SubscriptionRow.planId))
    (ha : db.addOnQuotas tenantId = db'.addOnQuotas tenantId) :
    db.computeEffectiveLimits tenantId = db'.computeEffectiveLimits tenantId := by
  simp only [computeEffectiveLimits, hp, ha]

end BillingDb

end ChronoSynth.Stripe

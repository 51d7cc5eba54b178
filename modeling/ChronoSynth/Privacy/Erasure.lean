import ChronoSynth.Lib.Cascade
import ChronoSynth.Privacy.RowImport

/-!
# Erasing a tenant

The transaction of `eraseData`: three lists of tables, each with the statement that deletes the tenant's rows, with
foreign keys checked at the end.

* `serverForeignKeys` — the foreign keys of the server's tables.
* `eraseRows` — the transaction; `relatedRow` is the ownership rule of a table.
* `eraseRows_cleared` — nothing that belonged to the tenant is left but tombstones of media references.
* `eraseRows_unchanged_iff` — the rows that are protected are unchanged exactly if no foreign key makes them go with
  the tenant's rows, or lose a reference to them.
-/

namespace ChronoSynth.Privacy

open Sql

/-! ## Foreign keys -/

/-- A reference to the `id` of a table. -/
def toId (column table : String) (onDelete : OnDelete) : ForeignKey := ⟨column, table, "id", onDelete⟩

def serverForeignKeys : List (String × ForeignKey) :=
  [("avatar_autorun_config", toId "avatar_id" "avatars" .noAction),
    ("avatar_autorun_runlog", toId "config_id" "avatar_autorun_config" .noAction),
    ("avatars", toId "identity_id" "identities" .noAction),
    ("billing_invoices", toId "plan_id" "billing_plans" .noAction),
    ("billing_invoices", toId "subscription_id" "subscriptions" .cascade),
    ("decision_feedbacks", toId "run_id" "decision_runs" .cascade),
    ("decision_runs", toId "case_id" "decision_cases" .cascade),
    ("device_avatars", toId "avatar_id" "avatars" .noAction),
    ("device_avatars", toId "device_id" "devices" .noAction),
    ("evolution_records", toId "after_snapshot_id" "snapshots" .noAction),
    ("evolution_records", toId "before_snapshot_id" "snapshots" .noAction),
    ("governance_actions", toId "actor_user_id" "users" .setNull),
    ("governance_actions", toId "case_id" "governance_cases" .cascade),
    ("governance_cases", toId "persona_id" "persona_core" .cascade),
    ("governance_cases", toId "task_id" "marketplace_tasks" .setNull),
    ("life_simulation_paths", toId "simulation_id" "life_simulations" .cascade),
    ("life_simulations", toId "base_simulation_id" "life_simulations" .setNull),
    ("marketplace_tasks", toId "assignee_fork_id" "persona_forks" .setNull),
    ("marketplace_tasks", toId "assignee_persona_id" "persona_core" .setNull),
    ("marketplace_tasks", toId "publisher_user_id" "users" .noAction),
    ("memory_edges", toId "source" "memory_nodes" .noAction),
    ("memory_edges", toId "target" "memory_nodes" .noAction),
    ("memory_embeddings", toId "memory_id" "memory_nodes" .cascade),
    ("memory_nodes", toId "consolidated_from" "memory_nodes" .setNull),
    ("memory_translations", toId "memory_id" "memory_nodes" .cascade),
    ("onboarding_synthetic_invocations", toId "invocation_id" "tool_invocations" .cascade),
    ("organization_memberships", toId "organization_id" "organizations" .cascade),
    ("organization_memberships", toId "user_id" "users" .cascade),
    ("organization_role_bindings", toId "membership_id" "organization_memberships" .cascade),
    ("organization_role_bindings", toId "organization_id" "organizations" .cascade),
    ("organization_role_bindings", toId "workspace_id" "workspaces" .cascade),
    ("organizations", toId "created_by_user_id" "users" .cascade),
    ("persona_core", toId "owner_user_id" "users" .noAction),
    ("persona_daily_metrics", toId "persona_id" "persona_core" .cascade),
    ("persona_forks", toId "persona_id" "persona_core" .cascade),
    ("persona_governance_events", toId "actor_user_id" "users" .setNull),
    ("persona_governance_events", toId "persona_id" "persona_core" .cascade),
    ("persona_growth_events", toId "persona_id" "persona_core" .cascade),
    ("persona_growth_events", toId "task_id" "marketplace_tasks" .setNull),
    ("persona_knowledge_items", toId "persona_id" "persona_core" .cascade),
    ("persona_memories", toId "fork_id" "persona_forks" .setNull),
    ("persona_memories", toId "persona_id" "persona_core" .cascade),
    ("persona_memory_edges", toId "source" "persona_memory_nodes" .cascade),
    ("persona_memory_edges", toId "target" "persona_memory_nodes" .cascade),
    ("persona_memory_nodes", toId "consolidated_from" "persona_memory_nodes" .setNull),
    ("persona_memory_nodes", toId "fork_id" "persona_forks" .setNull),
    ("persona_memory_nodes", toId "knowledge_item_id" "persona_knowledge_items" .setNull),
    ("persona_memory_nodes", toId "persona_id" "persona_core" .cascade),
    ("persona_memory_nodes", toId "source_memory_id" "persona_memories" .setNull),
    ("persona_transfers", toId "from_owner_user_id" "users" .noAction),
    ("persona_transfers", toId "persona_id" "persona_core" .cascade),
    ("persona_transfers", toId "to_owner_user_id" "users" .noAction),
    ("persona_wallets", toId "persona_id" "persona_core" .cascade),
    ("persona_working_memory", toId "memory_id" "persona_memory_nodes" .cascade),
    ("refresh_tokens", toId "user_id" "users" .cascade),
    ("reputation_history", toId "persona_id" "persona_core" .cascade),
    ("runtime_sessions", toId "assignment_id" "task_assignments" .setNull),
    ("runtime_sessions", toId "persona_id" "persona_core" .cascade),
    ("runtime_sessions", toId "task_id" "marketplace_tasks" .cascade),
    ("task_applications", toId "persona_id" "persona_core" .cascade),
    ("task_applications", toId "task_id" "marketplace_tasks" .cascade),
    ("task_assignments", toId "application_id" "task_applications" .setNull),
    ("task_assignments", toId "persona_id" "persona_core" .cascade),
    ("task_assignments", toId "task_id" "marketplace_tasks" .cascade),
    ("task_results", toId "assignment_id" "task_assignments" .cascade),
    ("task_results", toId "task_id" "marketplace_tasks" .cascade),
    ("tenant_add_ons", toId "add_on_id" "add_ons" .noAction),
    ("wallet_payout_requests", toId "requested_by_user_id" "users" .noAction),
    ("wallet_payout_requests", toId "wallet_id" "persona_wallets" .cascade),
    ("wallet_settlements", toId "assignment_id" "task_assignments" .cascade),
    ("wallet_settlements", toId "task_id" "marketplace_tasks" .cascade),
    ("wallet_settlements", toId "wallet_id" "persona_wallets" .cascade),
    ("wallet_transactions", toId "wallet_id" "persona_wallets" .cascade),
    ("working_memory", toId "memory_id" "memory_nodes" .cascade),
    ("workspaces", toId "organization_id" "organizations" .cascade)]

structure ErasureSchema extends ServerSchema where
  foreignKeys_eq : ∀ t, (toSchema.table t).foreignKeys = (serverForeignKeys.filter (·.1 = t)).map Prod.snd
  tables_mem : ∀ e ∈ serverForeignKeys, e.1 ∈ toSchema.tables ∧ e.2.table ∈ toSchema.tables
  id_key : ∀ e ∈ serverForeignKeys,
    ["id"] ∈ (toSchema.table e.2.table).pkColumns :: (toSchema.table e.2.table).uniqueIndexes

/-! ## The statements -/

/-- `PRIVACY_COVERED_TABLES`, in the order in which they are erased. -/
def coveredTables : List String :=
  relatedTables.map (·.name) ++ tenantTables ++ postTenantRelatedTables.map (·.name)

/-- `PRIVACY_RETENTION_EXEMPT_TABLES`. -/
def exemptTables : List String := exportedExemptTables ++ ["audit_chain_anchors", "audit_chain_anchor_failures"]

def mediaTable : String := "perception_media_refs"

/-- A media reference that is left for the retention worker. -/
def tombstone (r : Row) : Row := fun c =>
  if c = "status" then .text "erased" else if c = "delete_after" then .number (.finite (JsNumber.ofInt 0)) else r c

section
variable (S : Schema) (tenantId : String)

/-- `eraseDeleteQuery`, of a related table. -/
def eraseDeleteQuery (table : String) (db : Db) : Db × ℕ :=
  if table = mediaTable then
    (db.set table ((db table).map fun r => if isTenantRow tenantId r then tombstone r else r),
      (db table).countP (isTenantRow tenantId))
  else S.deleteWhere table (relatedRow db table tenantId) db

def eraseDelete (table : String) (db : Db) : Db × ℕ :=
  if table ∈ tenantTables then S.deleteWhere table (isTenantRow tenantId) db else (db, 0)

def counting (statement : String → Db → Db × ℕ) (st : Db × List (String × ℕ)) (table : String) :
    Db × List (String × ℕ) :=
  let out := statement table st.1
  (out.1, if 0 < out.2 then st.2 ++ [(table, out.2)] else st.2)

/-- The statements of `eraseData`: what they leave, and `tablesAffected`. -/
def eraseRows (db : Db) : Db × List (String × ℕ) :=
  let st := (relatedTables.map (·.name)).foldl (counting (eraseDeleteQuery S tenantId)) (db, [])
  let st := tenantTables.foldl (counting (eraseDelete S tenantId)) st
  (postTenantRelatedTables.map (·.name)).foldl (counting (eraseDeleteQuery S tenantId)) st

/-- What the statement of a table leaves. -/
def eraseStep (db : Db) (table : String) : Db := (eraseDeleteQuery S tenantId table db).1

end

theorem related_not_tenant : ∀ t ∈ tenantTables, t ≠ mediaTable ∧
    t ∉ ["life_simulation_paths", "shared_simulations", "refresh_tokens", "device_avatars", "avatars"] := by
  decide +kernel

/-- Other tables go by their `tenant_id`. -/
theorem relatedRow_eq {db : Db} {t tenantId : String}
    (h : t ∉ ["life_simulation_paths", "shared_simulations", "refresh_tokens", "device_avatars", "avatars"]) :
    relatedRow db t tenantId = isTenantRow tenantId := by
  funext r
  unfold relatedRow
  split
  case h_6 => rfl
  all_goals exact absurd h (by simp)

section
variable {S : Schema} {tenantId : String}

theorem eraseDelete_eq {t : String} (ht : t ∈ tenantTables) (db : Db) :
    (eraseDelete S tenantId t db).1 = eraseStep S tenantId db t := by
  obtain ⟨hmedia, hrelated⟩ := related_not_tenant t ht
  rw [eraseDelete, if_pos ht, eraseStep, eraseDeleteQuery, if_neg hmedia]
  simp only [relatedRow_eq hrelated]

theorem eraseRows_eq (db : Db) : (eraseRows S tenantId db).1 = coveredTables.foldl (eraseStep S tenantId) db := by
  have hfold : ∀ (statement : String → Db → Db × ℕ) (tables : List String) (st : Db × List (String × ℕ)),
      (∀ t ∈ tables, ∀ db, (statement t db).1 = eraseStep S tenantId db t) →
      (tables.foldl (counting statement) st).1 = tables.foldl (eraseStep S tenantId) st.1 := by
    intro statement tables
    induction tables with
    | nil => exact fun _ _ => rfl
    | cons t tables ih =>
      intro st h
      obtain ⟨ht, htables⟩ := List.forall_mem_cons.1 h
      rw [List.foldl_cons, List.foldl_cons, ih _ htables, counting, ht]
  rw [eraseRows, coveredTables, List.foldl_append, List.foldl_append,
    hfold _ _ _ fun _ _ _ => rfl, hfold _ _ _ fun t ht db => eraseDelete_eq ht db, hfold _ _ _ fun _ _ _ => rfl]

end

/-! ## What the foreign keys are like -/

/-- The columns that say whose a row is, and the keys that are referred to. -/
def ownerColumns : List String :=
  ["id", "tenant_id", "simulation_id", "owner_user_id", "shared_with_user_id", "user_id", "device_id", "identity_id"]

/-- The tables through which rows belong to a tenant. -/
def parents : String → List String
  | "life_simulation_paths" => ["life_simulations"]
  | "shared_simulations" => ["life_simulations", "users"]
  | "refresh_tokens" => ["users"]
  | "device_avatars" => ["devices"]
  | "avatars" => ["identities"]
  | _ => []

def parentTables : List String := ["life_simulations", "users", "devices", "identities"]

/-- The columns that the erasure sets itself. -/
def Freed (t c : String) : Prop := t = mediaTable ∧ (c = "status" ∨ c = "delete_after")

namespace ErasureSchema

variable {S : ErasureSchema} {t u : String} {fk : ForeignKey}

theorem mem_foreignKeys : fk ∈ (S.table t).foreignKeys ↔ (t, fk) ∈ serverForeignKeys := by
  rw [S.foreignKeys_eq, List.mem_map]
  constructor
  · rintro ⟨e, he, rfl⟩
    obtain ⟨he, ht⟩ := List.mem_filter.1 he
    rwa [← of_decide_eq_true ht]
  · exact fun h => ⟨(t, fk), List.mem_filter.2 ⟨h, by simp⟩, rfl⟩

theorem serverForeignKeys_spec : ∀ e ∈ serverForeignKeys,
    (e.2.onDelete = .setNull → e.2.column ∉ ownerColumns) ∧ (e.1 ≠ mediaTable ∧ e.2.table ≠ mediaTable) ∧
    e.2.refColumn = "id" ∧ (e.2.onDelete = .cascade → ∀ e' ∈ serverForeignKeys,
      e'.2.onDelete = .setNull → e'.1 = e.1 → e'.2.column ≠ e.2.column) ∧
    (e.1 ∈ parentTables → e.2.onDelete ≠ .cascade) := by
  decide +kernel

theorem setNull_column : ∀ e ∈ serverForeignKeys, e.2.onDelete = .setNull → e.2.column ∉ ownerColumns :=
  fun e he => (serverForeignKeys_spec e he).1

theorem not_setNullColumn {c : String} (hc : c ∈ ownerColumns) : ¬ S.SetNullColumn t c := by
  rintro ⟨fk, hfk, hset, rfl⟩
  exact setNull_column _ (mem_foreignKeys.1 hfk) hset hc

theorem media_not_mem : ∀ e ∈ serverForeignKeys, e.1 ≠ mediaTable ∧ e.2.table ≠ mediaTable :=
  fun e he => (serverForeignKeys_spec e he).2.1

theorem keysFixed : Schema.KeysFixed S.toSchema Freed where
  column _ _ hfk hfree := (media_not_mem _ (mem_foreignKeys.1 hfk)).1 hfree.1
  refColumn _ _ hfk hfree := (media_not_mem _ (mem_foreignKeys.1 hfk)).2 hfree.1

theorem refColumn_eq : ∀ e ∈ serverForeignKeys, e.2.refColumn = "id" :=
  fun e he => (serverForeignKeys_spec e he).2.2.1

theorem cascade_column : ∀ e ∈ serverForeignKeys, e.2.onDelete = .cascade → ∀ e' ∈ serverForeignKeys,
    e'.2.onDelete = .setNull → e'.1 = e.1 → e'.2.column ≠ e.2.column :=
  fun e he => (serverForeignKeys_spec e he).2.2.2.1

theorem referencesKeys : Schema.ReferencesKeys S.toSchema where
  key _ fk hfk := by
    have hmem := mem_foreignKeys.1 hfk
    rw [refColumn_eq _ hmem]
    exact S.id_key _ hmem
  listed _ _ hfk := S.tables_mem _ (mem_foreignKeys.1 hfk)
  column _ _ hfk hcascade := by
    rintro ⟨fk', hfk', hset, hcol⟩
    exact cascade_column _ (mem_foreignKeys.1 hfk) hcascade _ (mem_foreignKeys.1 hfk') hset rfl hcol
  refColumn _ _ hfk := by
    rw [refColumn_eq _ (mem_foreignKeys.1 hfk)]
    exact not_setNullColumn (by decide)

theorem parents_not_cascade : ∀ e ∈ serverForeignKeys, e.1 ∈ parentTables → e.2.onDelete ≠ .cascade :=
  fun e he => (serverForeignKeys_spec e he).2.2.2.2

end ErasureSchema

/-! ## Whose a row is -/

section
variable {S : ErasureSchema} {tenantId t : String} {r r' : Row} {db db₀ : Db} {free : String → String → Prop}

theorem freed_owner {c : String} (hc : c ∈ ownerColumns) : ¬ Freed t c := by
  rintro ⟨-, rfl | rfl⟩
  · exact absurd hc (by decide)
  · exact absurd hc (by decide)

theorem owner_eq {c : String} (hc : c ∈ ownerColumns) (h : S.Worn Freed t r' r) : r' c = r c :=
  h.eq (freed_owner hc) (ErasureSchema.not_setNullColumn hc)

theorem relatedRow_worn (h : S.Worn Freed t r' r) : relatedRow db t tenantId r' ↔ relatedRow db t tenantId r := by
  have heq : ∀ c ∈ ownerColumns, r' c = r c := fun c hc => owner_eq hc h
  unfold relatedRow
  split
  · rw [heq "simulation_id" (by decide)]
  · rw [heq "simulation_id" (by decide), heq "owner_user_id" (by decide), heq "shared_with_user_id" (by decide)]
  · rw [heq "user_id" (by decide)]
  · rw [heq "device_id" (by decide)]
  · rw [heq "identity_id" (by decide)]
  · rw [isTenantRow, isTenantRow, heq "tenant_id" (by decide)]

/-- Every row of the tenant in the table has something left of it. -/
def Remains (S : ErasureSchema) (tenantId : String) (db₀ db : Db) (u : String) : Prop :=
  ∀ p ∈ db₀ u, isTenantRow tenantId p → ∃ p' ∈ db u, S.Worn Freed u p' p

theorem refersTo_of_remains {u : String} {value : SqlValue} (h : Remains S tenantId db₀ db u)
    (hrefers : refersTo db₀ u tenantId value) : refersTo db u tenantId value := by
  obtain ⟨hne, p, hp, hid, htenant⟩ := hrefers
  obtain ⟨p', hp', hw⟩ := h p hp htenant
  exact ⟨hne, p', hp', (owner_eq (by decide) hw).trans hid, (owner_eq (by decide) hw).trans htenant⟩

theorem refersTo_of_worn {u : String} {value : SqlValue} (h : ∀ p' ∈ db u, ∃ p ∈ db₀ u, S.Worn Freed u p' p)
    (hrefers : refersTo db u tenantId value) : refersTo db₀ u tenantId value := by
  obtain ⟨hne, p', hp', hid, htenant⟩ := hrefers
  obtain ⟨p, hp, hw⟩ := h p' hp'
  exact ⟨hne, p, hp, (owner_eq (by decide) hw).symm.trans hid, (owner_eq (by decide) hw).symm.trans htenant⟩

theorem relatedRow_before (h : ∀ u, ∀ p' ∈ db u, ∃ p ∈ db₀ u, S.Worn Freed u p' p) (hr : relatedRow db t tenantId r) :
    relatedRow db₀ t tenantId r := by
  by_cases ht : t ∈ ["life_simulation_paths", "shared_simulations", "refresh_tokens", "device_avatars", "avatars"]
  · simp only [List.mem_cons, List.not_mem_nil, or_false] at ht
    rcases ht with rfl | rfl | rfl | rfl | rfl
    · exact refersTo_of_worn (h _) hr
    · exact hr.imp (refersTo_of_worn (h _)) (.imp (refersTo_of_worn (h _)) (refersTo_of_worn (h _)))
    · exact refersTo_of_worn (h _) hr
    · exact refersTo_of_worn (h _) hr
    · exact refersTo_of_worn (h _) hr
  · rw [relatedRow_eq ht] at hr ⊢
    exact hr

theorem relatedRow_after (h : ∀ u ∈ parents t, Remains S tenantId db₀ db u) (hr : relatedRow db₀ t tenantId r) :
    relatedRow db t tenantId r := by
  by_cases ht : t ∈ ["life_simulation_paths", "shared_simulations", "refresh_tokens", "device_avatars", "avatars"]
  · simp only [List.mem_cons, List.not_mem_nil, or_false] at ht
    rcases ht with rfl | rfl | rfl | rfl | rfl
    · exact refersTo_of_remains (h _ (by simp [parents])) hr
    · exact hr.imp (refersTo_of_remains (h _ (by simp [parents])))
        (.imp (refersTo_of_remains (h _ (by simp [parents]))) (refersTo_of_remains (h _ (by simp [parents]))))
    · exact refersTo_of_remains (h _ (by simp [parents])) hr
    · exact refersTo_of_remains (h _ (by simp [parents])) hr
    · exact refersTo_of_remains (h _ (by simp [parents])) hr
  · rw [relatedRow_eq ht] at hr ⊢
    exact hr

end

/-! ## One statement -/

def Owned (tenantId : String) (db₀ : Db) (t : String) (r : Row) : Prop := t ∈ coveredTables ∧ relatedRow db₀ t tenantId r

/-- The row is a media reference that is left behind. -/
def IsTombstone (t : String) (r : Row) : Prop :=
  t = mediaTable ∧ r "status" = .text "erased" ∧ r "delete_after" = .number (.finite (JsNumber.ofInt 0))

/-- The tenant's rows in the table are gone. -/
def Cleared (tenantId : String) (db₀ db : Db) (t : String) : Prop :=
  ∀ r ∈ db t, relatedRow db₀ t tenantId r → IsTombstone t r

section
variable {S : ErasureSchema} {tenantId t u : String} {db db₀ : Db}

/-- Media references have no foreign keys and stay as they are where others are deleted. -/
theorem media_worn {r r' : Row} (h : S.Worn (fun _ _ => False) mediaTable r' r) : r' = r := by
  funext c
  refine h.eq not_false fun ⟨fk, hfk, _⟩ => ?_
  exact (ErasureSchema.media_not_mem _ (ErasureSchema.mem_foreignKeys.1 hfk)).1 rfl

/-- A row after the statement of its table, if that is the one of the media references. -/
def buried (tenantId : String) (r : Row) : Row := if isTenantRow tenantId r then tombstone r else r

theorem eraseStep_media (db : Db) :
    eraseStep S.toSchema tenantId db mediaTable = db.set mediaTable ((db mediaTable).map (buried tenantId)) := by
  rw [eraseStep, eraseDeleteQuery, if_pos rfl]
  rfl

theorem eraseStep_of_ne (ht : t ≠ mediaTable) (db : Db) :
    eraseStep S.toSchema tenantId db t = (S.deleteWhere t (relatedRow db t tenantId) db).1 := by
  rw [eraseStep, eraseDeleteQuery, if_neg ht]

theorem worn_buried (S : Schema) (tenantId : String) (r : Row) : S.Worn Freed mediaTable (buried tenantId r) r := by
  intro c
  by_cases htenant : isTenantRow tenantId r
  · rw [buried, if_pos htenant, tombstone]
    split_ifs with h₁ h₂
    · exact .inl ⟨rfl, .inl h₁⟩
    · exact .inl ⟨rfl, .inr h₂⟩
    · exact .inr (.inl rfl)
  · rw [buried, if_neg htenant]
    exact .inr (.inl rfl)

theorem isTombstone_tombstone (r : Row) : IsTombstone mediaTable (tombstone r) := ⟨rfl, rfl, rfl⟩

theorem IsTombstone.tombstone_eq {r : Row} (h : IsTombstone t r) : tombstone r = r := by
  funext c
  unfold tombstone
  split_ifs with hstatus hdelete
  · rw [hstatus, h.2.1]
  · rw [hdelete, h.2.2]
  · rfl

theorem worn_eraseStep {r' : Row} (h : r' ∈ eraseStep S.toSchema tenantId db t u) :
    ∃ r ∈ db u, S.Worn Freed u r' r := by
  by_cases ht : t = mediaTable
  · subst ht
    rw [eraseStep_media] at h
    by_cases hu : u = mediaTable
    · subst hu
      rw [Db.set_self] at h
      obtain ⟨r, hr, rfl⟩ := List.mem_map.1 h
      exact ⟨r, hr, worn_buried _ tenantId r⟩
    · rw [Db.set_of_ne hu] at h
      exact ⟨r', h, Schema.Worn.refl u r'⟩
  · rw [eraseStep_of_ne ht] at h
    obtain ⟨r, hr, hw, -⟩ := Schema.mem_deleteWhere h
    exact ⟨r, hr, hw⟩

/-- **What has been cleared stays so.** -/
theorem Cleared.eraseStep (S : ErasureSchema) (t : String) (h : Cleared tenantId db₀ db u) :
    Cleared tenantId db₀ (Privacy.eraseStep S.toSchema tenantId db t) u := by
  intro r' hr' howned
  by_cases ht : t = mediaTable
  · subst ht
    rw [eraseStep_media] at hr'
    by_cases hu : u = mediaTable
    · subst hu
      rw [Db.set_self] at hr'
      obtain ⟨r, hr, rfl⟩ := List.mem_map.1 hr'
      have htomb := h r hr ((relatedRow_worn (worn_buried S.toSchema tenantId r)).1 howned)
      unfold buried
      split_ifs
      · exact isTombstone_tombstone r
      · exact htomb
    · rw [Db.set_of_ne hu] at hr'
      exact h r' hr' howned
  · rw [eraseStep_of_ne ht] at hr'
    obtain ⟨r, hr, hw, -⟩ : ∃ r ∈ db u, S.Worn (fun _ _ => False) u r' r ∧ _ := Schema.mem_deleteWhere hr'
    have htomb := h r hr ((relatedRow_worn (hw.mono fun _ => False.elim)).1 howned)
    obtain rfl := htomb.1
    rwa [media_worn hw]

/-- **A statement clears its table**, if the rows through which rows belong to the tenant are still there. -/
theorem cleared_eraseStep (hparents : ∀ v ∈ parents t, Remains S tenantId db₀ db v) :
    Cleared tenantId db₀ (eraseStep S.toSchema tenantId db t) t := by
  intro r' hr' howned
  by_cases ht : t = mediaTable
  · subst ht
    rw [eraseStep_media, Db.set_self] at hr'
    obtain ⟨r, hr, rfl⟩ := List.mem_map.1 hr'
    have htenant : isTenantRow tenantId r := (relatedRow_worn (worn_buried S.toSchema tenantId r)).1 howned
    rw [buried, if_pos htenant]
    exact isTombstone_tombstone r
  · rw [eraseStep_of_ne ht] at hr'
    obtain ⟨r, hr, hw, hcond⟩ : ∃ r ∈ db t, S.Worn Freed t r' r ∧ _ := Schema.mem_deleteWhere hr'
    have hbefore := (relatedRow_worn hw).1 howned
    exact absurd (relatedRow_after hparents hbefore) (hcond rfl)

theorem Remains.eraseStep (hu : u ∈ parentTables) (hne : u ≠ t) (h : Remains S tenantId db₀ db u) :
    Remains S tenantId db₀ (Privacy.eraseStep S.toSchema tenantId db t) u := by
  intro p hp htenant
  obtain ⟨p', hp', hw⟩ := h p hp htenant
  by_cases ht : t = mediaTable
  · subst ht
    rw [eraseStep_media, Db.set_of_ne hne]
    exact ⟨p', hp', hw⟩
  · rw [eraseStep_of_ne ht]
    have hnone : ∀ fk ∈ (S.table u).foreignKeys, fk.onDelete ≠ .cascade := fun fk hfk =>
      ErasureSchema.parents_not_cascade _ (ErasureSchema.mem_foreignKeys.1 hfk) hu
    obtain ⟨p'', hp'', hw'⟩ : ∃ p'' ∈ (S.deleteWhere t (relatedRow db t tenantId) db).1 u, S.Worn Freed u p'' p' :=
      Schema.exists_deleteWhere hnone hp' fun htable => absurd htable hne
    exact ⟨p'', hp'', hw'.trans hw⟩

/-- A statement keeps the rows that are not altered. -/
theorem descends_eraseStep (ht : t ∈ coveredTables)
    (h : Schema.Descends S.toSchema Freed db₀ (Owned tenantId db₀) db) :
    Schema.Descends S.toSchema Freed db₀ (Owned tenantId db₀) (eraseStep S.toSchema tenantId db t) := by
  by_cases hmedia : t = mediaTable
  · subst hmedia
    refine ⟨fun u r' hr' => ?_, fun u r hr hunaltered => ?_⟩
    · obtain ⟨r₁, hr₁, hw₁⟩ := worn_eraseStep hr'
      obtain ⟨r, hr, hw⟩ := h.worn u r₁ hr₁
      exact ⟨r, hr, hw₁.trans hw⟩
    · have hkept := h.kept u r hr hunaltered
      rw [eraseStep_media]
      by_cases hu : u = mediaTable
      · subst hu
        have htenant : ¬ isTenantRow tenantId r := fun htenant => hunaltered (.inl (.start hr ⟨ht, htenant⟩))
        rw [Db.set_self]
        exact List.mem_map.2 ⟨r, hkept, if_neg htenant⟩
      · rwa [Db.set_of_ne hu]
  · rw [eraseStep_of_ne hmedia]
    exact h.deleteWhere ErasureSchema.keysFixed (fun u r' r hw howned => ⟨howned.1, (relatedRow_worn hw).1 howned.2⟩)
      fun r hr hcond => ⟨ht, relatedRow_before h.worn hcond⟩

/-! ## The whole transaction -/

theorem parents_after : ∀ t ∈ coveredTables, ∀ u ∈ parents t,
    u ∈ parentTables ∧ u ∉ coveredTables.takeWhile (· ≠ t) := by
  decide +kernel

/-- **Nothing that was the tenant's is left.** -/
theorem eraseRows_cleared (S : ErasureSchema) (tenantId : String) (db₀ : Db) :
    ∀ t ∈ coveredTables, Cleared tenantId db₀ (eraseRows S.toSchema tenantId db₀).1 t := by
  intro t ht
  rw [eraseRows_eq]
  obtain ⟨pre, post, hsplit, hnot⟩ := List.eq_append_cons_of_mem ht
  have hpre : pre = coveredTables.takeWhile (· ≠ t) := by
    rw [hsplit, List.takeWhile_append_of_pos fun u hu => by
      rw [decide_eq_true_eq]
      rintro rfl
      exact hnot hu]
    simp
  have hremains : ∀ u ∈ parents t, Remains S tenantId db₀ (pre.foldl (eraseStep S.toSchema tenantId) db₀) u := by
    intro u hu
    obtain ⟨hparent, hafter⟩ := parents_after t ht u hu
    rw [← hpre] at hafter
    refine List.foldlRecOn (motive := fun db : Db => Remains S tenantId db₀ db u) pre _
      (fun p hp _ => ⟨p, hp, Schema.Worn.refl u p⟩) fun db hdb t' ht' => hdb.eraseStep hparent ?_
    rintro rfl
    exact hafter ht'
  rw [hsplit, List.foldl_append, List.foldl_cons]
  exact List.foldlRecOn (motive := fun db : Db => Cleared tenantId db₀ db t) post _ (cleared_eraseStep hremains)
    fun db hdb t' _ => hdb.eraseStep S t'

/-- Rows that no foreign key makes go, or lose a reference, stay as they are. -/
theorem eraseRows_descends (S : ErasureSchema) (tenantId : String) (db₀ : Db) :
    Schema.Descends S.toSchema Freed db₀ (Owned tenantId db₀) (eraseRows S.toSchema tenantId db₀).1 := by
  rw [eraseRows_eq]
  refine List.foldlRecOn (motive := fun db : Db => Schema.Descends S.toSchema Freed db₀ (Owned tenantId db₀) db)
    coveredTables _ ⟨fun t r hr => ⟨r, hr, Schema.Worn.refl t r⟩, fun _ _ hr _ => hr⟩ fun db hdb t ht => ?_
  exact descends_eraseStep ht hdb

/-- Rows that are kept by law, or are other tenants' only. -/
def Protected (tenantId : String) (db₀ : Db) (t : String) (r : Row) : Prop :=
  t ∈ exemptTables ∨
    t ∈ coveredTables ∧ (∃ other, other ≠ tenantId ∧ relatedRow db₀ t other r) ∧ ¬ relatedRow db₀ t tenantId r

theorem owned_of_altered_media {r : Row}
    (h : Schema.Altered S.toSchema db₀ (Owned tenantId db₀) mediaTable r) : Owned tenantId db₀ mediaTable r := by
  have hnone : ∀ {action : OnDelete} {v : String} {p : Row}, ¬ S.RefersBy action mediaTable r v p := by
    rintro action v p ⟨fk, hfk, -⟩
    exact (ErasureSchema.media_not_mem _ (ErasureSchema.mem_foreignKeys.1 hfk)).1 rfl
  rcases h with hreached | ⟨_, _, hrefers, -⟩
  · cases hreached with
    | start _ howned => exact howned
    | cascade _ hrefers _ => exact absurd hrefers hnone
  · exact absurd hrefers hnone

/-- **Rows that are protected are unchanged exactly if none of them is altered with the tenant's rows.** -/
theorem eraseRows_unchanged_iff (h₀ : S.Consistent db₀) (h : S.Consistent (eraseRows S.toSchema tenantId db₀).1) :
    (∀ t, ∀ r ∈ db₀ t, Protected tenantId db₀ t r → r ∈ (eraseRows S.toSchema tenantId db₀).1 t) ↔
      ∀ t, ∀ r ∈ db₀ t, Protected tenantId db₀ t r → ¬ Schema.Altered S.toSchema db₀ (Owned tenantId db₀) t r := by
  have hdescends := eraseRows_descends S tenantId db₀
  constructor
  · intro hkept t r hr hprotected haltered
    by_cases ht : t = mediaTable
    · subst ht
      rcases hprotected with hexempt | ⟨-, -, hnot⟩
      · exact absurd hexempt (by decide)
      · exact hnot (owned_of_altered_media haltered).2
    · have hsolid : ∀ u, ∀ fk ∈ (S.table u).foreignKeys, u ≠ mediaTable ∧ fk.table ≠ mediaTable :=
        fun u fk hfk => ErasureSchema.media_not_mem _ (ErasureSchema.mem_foreignKeys.1 hfk)
      refine haltered.not_mem ErasureSchema.referencesKeys ErasureSchema.keysFixed h₀ h hdescends.worn hsolid
        (fun u p _ hu howned p' hp' hw => ?_) ht (hkept t r hr hprotected)
      exact hu (eraseRows_cleared S tenantId db₀ u howned.1 p' hp' ((relatedRow_worn hw).2 howned.2)).1
  · exact fun hnone t r hr hprotected => hdescends.kept t r hr (hnone t r hr hprotected)

/-- Nothing is changed exactly if nothing was the tenant's, but tombstones. -/
theorem eraseRows_eq_self_iff :
    (eraseRows S.toSchema tenantId db₀).1 = db₀ ↔ ∀ t ∈ coveredTables, Cleared tenantId db₀ db₀ t := by
  constructor
  · intro h t ht
    have hcleared := eraseRows_cleared S tenantId db₀ t ht
    rwa [h] at hcleared
  · intro h
    rw [eraseRows_eq]
    refine List.foldlRecOn (motive := fun db : Db => db = db₀) coveredTables _ rfl fun db hdb t ht => ?_
    subst hdb
    by_cases hmedia : t = mediaTable
    · subst hmedia
      have hmap : (db mediaTable).map (buried tenantId) = db mediaTable := by
        refine (List.map_congr_left fun r hr => ?_).trans (List.map_id _)
        unfold buried
        split_ifs with htenant
        · exact (h mediaTable ht r hr htenant).tombstone_eq
        · rfl
      rw [eraseStep_media, hmap]
      exact Function.update_eq_self ..
    · rw [eraseStep_of_ne hmedia, Schema.deleteWhere_none fun r hr howned => hmedia (h t ht r hr howned).1]

end

end ChronoSynth.Privacy

import ChronoSynth.Lib.Traces
import Mathlib.Algebra.GroupWithZero.Nat
import Mathlib.Data.List.Nodup
import Mathlib.Data.List.Sort

/-!
# Tenant quotas

Translation of `multi-tenant/quota-manager.ts`, of its executors and of the two calls of
`intelligence/model-router.ts` that consume a quota. A limit says how much of a resource a tenant may use in
each window of `windowMs`; what it has used is counted in one row for each window.

No call modelled here writes a limit, so the limits are a parameter of the calls. All shards' rows stand in one
table, and a tenant's shard is a parameter too. What is open about a command is the time that has passed since
the one before it, the order of rows of one `window_start` and how the providers answer (`Env`).

`QuotaDb.pruned` is read by no command: it notes the windows whose rows have been pruned.
-/

namespace ChronoSynth.Tenancy

/-! ## Limits -/

/-- A row of `quota_limits`. -/
structure QuotaLimitRow where
  maxPerWindow : ℕ
  windowMs : ℕ
  window_pos : 0 < windowMs
  deriving DecidableEq

/-- The table `quota_limits`, by its primary key. -/
abbrev QuotaLimits := String → String → Option QuotaLimitRow

inductive QuotaError
  | quantity (quantity : ℤ)
  | limit (maxPerWindow : ℤ)
  | window (windowMs : ℤ)
  | maxTokens (estimatedTokens : ℤ)
  | unsafeInput (reason : String)
  | overBudget (reason : String)
  | quotaExceeded
  | provider (error : String)
  deriving DecidableEq, Repr

def QuotaError.message : QuotaError → String
  | .quantity n => s!"配额数量必须为正整数，收到: {n}"
  | .limit n => s!"配额上限必须为非负整数，收到: {n}"
  | .window n => s!"配额窗口必须为正整数毫秒，收到: {n}"
  | .maxTokens n => s!"maxTokens 必须为正整数，收到: {n}"
  | .unsafeInput reason => s!"LLM 安全策略拒绝: {reason}"
  | .overBudget reason => s!"Token 预算不足: {reason}"
  | .quotaExceeded => "LLM token 配额已用尽，请升级计划"
  | .provider error => error

namespace QuotaLimits

variable (limits : QuotaLimits) (tenantId resource : String)

/-- `SET_LIMIT`. -/
def put (row : QuotaLimitRow) : QuotaLimits := fun t r =>
  if t = tenantId ∧ r = resource then some row else limits t r

def clearLimit : QuotaLimits := fun t r =>
  if t = tenantId ∧ r = resource then none else limits t r

def setLimit (maxPerWindow windowMs : ℤ) : Except QuotaError QuotaLimits :=
  if maxPerWindow < 0 then .error (.limit maxPerWindow)
  else if h : windowMs ≤ 0 then .error (.window windowMs)
  else .ok (limits.put tenantId resource ⟨maxPerWindow.toNat, windowMs.toNat, by omega⟩)

end QuotaLimits

/-- The window that a time lies in. -/
def QuotaLimitRow.windowStart (limit : QuotaLimitRow) (ts : ℕ) : ℕ := ts - ts % limit.windowMs

/-! ## Usage -/

/-- The primary key of `quota_usage`. -/
structure Window where
  tenantId : String
  resource : String
  start : ℕ
  deriving DecidableEq, Repr

/-- A row of `quota_usage`. -/
structure UsageRow where
  window : Window
  used : ℤ
  deriving DecidableEq, Repr

/-- The table `quota_usage`. -/
structure UsageTable where
  rows : List UsageRow
  nodup : (rows.map UsageRow.window).Nodup

namespace UsageTable

def empty : UsageTable := ⟨[], List.nodup_nil⟩

variable (usage : UsageTable) (w : Window)

/-- `QUOTA_QUERY_USAGE`. -/
def lookup : Option UsageRow := usage.rows.find? fun row => row.window = w

/-- What has been counted in a window; a window without a row has not been used. -/
def used : ℤ := (usage.lookup w).elim 0 UsageRow.used

/-- The row of a window gets another count. -/
def modify (f : ℤ → ℤ) : UsageTable where
  rows := usage.rows.map fun row => if row.window = w then { row with used := f row.used } else row
  nodup := by
    have h : ∀ row : UsageRow,
        (if row.window = w then { row with used := f row.used } else row).window = row.window :=
      fun row => by split <;> rfl
    simpa only [List.map_map, Function.comp_def, h] using usage.nodup

/-- A window that has no row gets one. -/
def insert (quantity : ℤ) : UsageTable :=
  if h : ∃ row ∈ usage.rows, row.window = w then usage else {
    rows := usage.rows ++ [⟨w, quantity⟩]
    nodup := by
      rw [List.map_append, List.nodup_append]
      refine ⟨usage.nodup, List.nodup_singleton _, fun a ha b hb hab => h ?_⟩
      obtain ⟨row, hrow, rfl⟩ := List.mem_map.1 ha
      exact ⟨row, hrow, hab.trans (List.mem_singleton.1 hb)⟩ }

def delete (victims : List Window) : UsageTable where
  rows := usage.rows.filter fun row => row.window ∉ victims
  nodup := (List.filter_sublist.map _).nodup usage.nodup

end UsageTable

structure QuotaDb where
  clock : ℕ
  usage : UsageTable
  pruned : List Window

/-- A provider's answer. -/
inductive Attempt
  | served
  /-- It is down, or cannot do this at all: the next tier is tried. -/
  | unavailable (error : String)
  /-- It refuses, and so would the next tier. -/
  | refused (error : String)
  deriving DecidableEq, Repr

structure Env where
  elapsed : ℕ
  order : Window → ℕ
  /-- How the tiers of the chain answer. -/
  attempt : ℕ → Attempt

/-- The limits, and where the tenants' rows are. -/
structure Deployment where
  limits : QuotaLimits
  shardOf : String → ℕ
  shards : List ℕ
  /-- How many tiers follow the first in the chain of providers. -/
  fallbacks : ℕ

/-! ## Commands -/

inductive QuotaCmd
  /-- `Date.now()`. -/
  | now
  | usage (w : Window)
  | consume (w : Window) (quantity : ℤ) (maxPerWindow : ℕ)
  | recordUsage (w : Window) (quantity : ℤ)
  | refund (w : Window) (quantity : ℤ)
  | pruneUsage (shard : ℕ) (now cutoff batchSize : ℕ)
  /-- The chain of providers is asked. -/
  | dispatch
  deriving DecidableEq, Repr

structure QuotaReply where
  rowsAffected : ℕ
  clock : ℕ
  usage : Option UsageRow
  /-- The tier that has served the request, or the last error. -/
  served : Except String ℕ
  deriving DecidableEq, Repr

/-- The reply of a statement. -/
def QuotaReply.affected (rows clock : ℕ) : QuotaReply := ⟨rows, clock, none, .error ""⟩

/-- The first tier that answers, of `tiers` many from the `i`-th on. -/
def dispatchWithFallback (attempt : ℕ → Attempt) : ℕ → ℕ → String → Except String ℕ
  | 0, _, lastErr => .error lastErr
  | tiers + 1, i, _ =>
    match attempt i with
    | .served => .ok i
    | .refused error => .error error
    | .unavailable error => dispatchWithFallback attempt tiers (i + 1) error

variable (d : Deployment)

/-- A row may go: its window is old enough, and is not the one its limit counts in now. -/
def Deployment.Prunable (shard now cutoff : ℕ) (w : Window) : Prop :=
  d.shardOf w.tenantId = shard ∧ w.start < cutoff ∧
    match d.limits w.tenantId w.resource with
    | none => True
    | some limit => w.start < limit.windowStart now

instance (shard now cutoff : ℕ) (w : Window) : Decidable (d.Prunable shard now cutoff w) := by
  unfold Deployment.Prunable
  cases d.limits w.tenantId w.resource <;> exact inferInstance

/-- The windows whose rows a prune deletes. -/
def Deployment.victims (order : Window → ℕ) (shard now cutoff batchSize : ℕ) (usage : UsageTable) :
    List Window :=
  (((usage.rows.map UsageRow.window).filter fun w => d.Prunable shard now cutoff w).mergeSort fun a b =>
    a.start < b.start ∨ a.start = b.start ∧ order a ≤ order b).take batchSize

/-- What a command does once it is time. -/
def execNow (e : Env) (cmd : QuotaCmd) (s : QuotaDb) : QuotaDb × QuotaReply :=
  match cmd with
  | .now => (s, .affected 0 s.clock)
  | .usage w => (s, { QuotaReply.affected 0 s.clock with usage := s.usage.lookup w })
  | .consume w quantity maxPerWindow =>
    match s.usage.lookup w with
    | none => ({ s with usage := s.usage.insert w quantity }, .affected 1 s.clock)
    | some row =>
      if row.used + quantity ≤ maxPerWindow then
        ({ s with usage := s.usage.modify w (· + quantity) }, .affected 1 s.clock)
      else (s, .affected 0 s.clock)
  | .recordUsage w quantity =>
    match s.usage.lookup w with
    | none => ({ s with usage := s.usage.insert w quantity }, .affected 1 s.clock)
    | some _ => ({ s with usage := s.usage.modify w (· + quantity) }, .affected 1 s.clock)
  | .refund w quantity =>
    ({ s with usage := s.usage.modify w fun used => max 0 (used - quantity) },
      .affected ((s.usage.lookup w).elim 0 fun _ => 1) s.clock)
  | .pruneUsage shard now cutoff batchSize =>
    let victims := d.victims e.order shard now cutoff batchSize s.usage
    ({ s with usage := s.usage.delete victims, pruned := victims ++ s.pruned },
      .affected victims.length s.clock)
  | .dispatch =>
    (s, { QuotaReply.affected 0 s.clock with
      served := dispatchWithFallback e.attempt (d.fallbacks + 1) 0 "" })

def exec (e : Env) (cmd : QuotaCmd) (s : QuotaDb) : QuotaDb × QuotaReply :=
  execNow d e cmd { s with clock := s.clock + e.elapsed }

/-! ## The quota manager -/

abbrev QuotaProg := Prog QuotaDb QuotaCmd QuotaReply Env QuotaError

/-- `now ?? Date.now()`. -/
def timeOf : Option ℕ → QuotaProg ℕ
  | some ts => return ts
  | none => do return (← Prog.transaction .now).clock

def checkQuota (tenantId resource : String) (quantity : ℤ) (now : Option ℕ) : QuotaProg Bool :=
  if quantity ≤ 0 then .throw (.quantity quantity)
  else match d.limits tenantId resource with
    | none => return true
    | some limit => do
      let ts ← timeOf now
      let reply ← Prog.transaction (.usage ⟨tenantId, resource, limit.windowStart ts⟩)
      return decide (reply.usage.elim 0 UsageRow.used + quantity ≤ limit.maxPerWindow)

def recordUsage (tenantId resource : String) (quantity : ℤ) (now : Option ℕ) : QuotaProg Unit :=
  if quantity ≤ 0 then .throw (.quantity quantity)
  else do
    let ts ← timeOf now
    let windowStart := (d.limits tenantId resource).elim ts fun limit => limit.windowStart ts
    let _ ← Prog.transaction (.recordUsage ⟨tenantId, resource, windowStart⟩ quantity)
    return

def consumeQuota (tenantId resource : String) (quantity : ℤ) (now : Option ℕ) : QuotaProg Bool :=
  if quantity ≤ 0 then .throw (.quantity quantity)
  else do
    let ts ← timeOf now
    match d.limits tenantId resource with
    | none => do
      recordUsage d tenantId resource quantity (some ts)
      return true
    | some limit =>
      if limit.maxPerWindow ≤ 0 ∨ limit.maxPerWindow < quantity then return false
      else do
        let reply ← Prog.transaction
          (.consume ⟨tenantId, resource, limit.windowStart ts⟩ quantity limit.maxPerWindow)
        return decide (0 < reply.rowsAffected)

/-- The limit is looked up before the clock is read, which nothing can tell from the other order. -/
def refundQuota (tenantId resource : String) (quantity : ℤ) (now : Option ℕ) : QuotaProg Unit :=
  if quantity ≤ 0 then return
  else match d.limits tenantId resource with
    | none => return
    | some limit => do
      let ts ← timeOf now
      let _ ← Prog.transaction (.refund ⟨tenantId, resource, limit.windowStart ts⟩ quantity)
      return

/-- The loop of `pruneUsageBefore` over the shards: how many rows have been deleted, and whether some shard may
have more. -/
def pruneShards (now cutoff batchSize : ℕ) : List ℕ → ℕ → Bool → QuotaProg (ℕ × Bool)
  | [], totalDeleted, mayHaveMore => return (totalDeleted, mayHaveMore)
  | shard :: shards, totalDeleted, mayHaveMore => do
    let removed := (← Prog.transaction (.pruneUsage shard now cutoff batchSize)).rowsAffected
    pruneShards now cutoff batchSize shards (totalDeleted + removed) (mayHaveMore || decide (batchSize ≤ removed))

def pruneUsageBefore (now cutoff batchSize : ℕ) : QuotaProg (ℕ × Bool) :=
  pruneShards now cutoff batchSize d.shards 0 false

/-! ## The model router -/

/-- `chat`, with the number of tokens it may use and what the safety check and the token budget have against
it. -/
def chat (tenantId : String) (estimatedTokens : ℤ) (isUnsafe overBudget : Option String) : QuotaProg ℕ :=
  if estimatedTokens ≤ 0 then .throw (.maxTokens estimatedTokens)
  else match isUnsafe, overBudget with
    | some reason, _ => .throw (.unsafeInput reason)
    | none, some reason => .throw (.overBudget reason)
    | none, none => do
      let accepted ← consumeQuota d tenantId "llm_tokens" estimatedTokens none
      if !accepted then .throw .quotaExceeded
      else do
        let reply ← Prog.transaction .dispatch
        match reply.served with
        | .ok tier => return tier
        | .error error => do
          refundQuota d tenantId "llm_tokens" estimatedTokens none
          .throw (.provider error)

/-- About four characters make a token. -/
def estimateTokens (lengths : List ℕ) : ℕ := (lengths.map fun n => (n + 3) / 4).sum

/-- `embed`, of texts of the given lengths. -/
def embed (tenantId : String) (lengths : List ℕ) (overBudget : Option String) : QuotaProg ℕ :=
  match overBudget with
  | some reason => .throw (.overBudget reason)
  | none => do
    let accepted ← if 0 < estimateTokens lengths then
        consumeQuota d tenantId "llm_tokens" (estimateTokens lengths) none
      else pure true
    if !accepted then .throw .quotaExceeded
    else do
      let reply ← Prog.transaction .dispatch
      match reply.served with
      | .ok tier => return tier
      | .error error => .throw (.provider error)

/-! ## The calls -/

inductive QuotaCall
  | check (tenantId resource : String) (quantity : ℤ)
  | consume (tenantId resource : String) (quantity : ℤ)
  /-- A consumption that is refunded: with the time it was made at, or with a time read anew. -/
  | refund (tenantId resource : String) (quantity : ℤ) (pinned : Bool)
  | prune (cutoff batchSize : ℕ)
  | chat (tenantId : String) (estimatedTokens : ℤ) (isUnsafe overBudget : Option String)
  | embed (tenantId : String) (lengths : List ℕ) (overBudget : Option String)
  deriving DecidableEq

inductive QuotaResult
  | checked (fits : Bool)
  | consumed (accepted : Bool)
  | refunded
  | pruned (totalDeleted : ℕ) (mayHaveMore : Bool)
  | served (tier : ℕ)
  deriving DecidableEq

def QuotaCall.start : QuotaCall → QuotaProg QuotaResult
  | .check tenantId resource quantity => return .checked (← checkQuota d tenantId resource quantity none)
  | .consume tenantId resource quantity => return .consumed (← consumeQuota d tenantId resource quantity none)
  | .refund tenantId resource quantity pinned => do
    let ts ← timeOf none
    let given := if pinned then some ts else none
    let accepted ← consumeQuota d tenantId resource quantity given
    if accepted then
      refundQuota d tenantId resource quantity given
      return .refunded
    else return .consumed false
  | .prune cutoff batchSize => do
    let now ← timeOf none
    let (totalDeleted, mayHaveMore) ← pruneUsageBefore d now cutoff batchSize
    return .pruned totalDeleted mayHaveMore
  | .chat tenantId estimatedTokens isUnsafe overBudget =>
    return .served (← Tenancy.chat d tenantId estimatedTokens isUnsafe overBudget)
  | .embed tenantId lengths overBudget => return .served (← Tenancy.embed d tenantId lengths overBudget)

/-- The calls of any number of replicas. -/
abbrev QuotaPool := Pool QuotaCall QuotaDb QuotaCmd QuotaReply Env QuotaError QuotaResult

abbrev QuotaThread := Thread QuotaCall QuotaDb QuotaCmd QuotaReply Env QuotaError QuotaResult

abbrev QuotaMove := Move QuotaCall Env

end ChronoSynth.Tenancy

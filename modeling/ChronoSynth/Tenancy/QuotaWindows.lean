import ChronoSynth.Lib.Balance
import ChronoSynth.Tenancy.QuotaManager

/-!
# Exact quota windows

What a call has consumed it holds until it gives it back: with the refund of its consumption, or when it fails.
The books are balanced when every window that has not been pruned has been used for just what the calls hold in
it, and for no more than its limit.

A call's log tells what it holds. `Guard` says what a call may hand over after its log, and `End` how it may end;
from these it follows what each command does to both sides of the balance, and `balanced_iff` says when it is
kept.
-/

namespace ChronoSynth.Tenancy

/-! ## The table -/

namespace UsageTable

variable {usage : UsageTable} {w w' : Window} {f : ℤ → ℤ} {quantity : ℤ} {victims : List Window} {row : UsageRow}

theorem lookup_eq_some (h : usage.lookup w = some row) : row ∈ usage.rows ∧ row.window = w :=
  ⟨List.mem_of_find?_eq_some h, by simpa using List.find?_some h⟩

theorem lookup_eq_none : usage.lookup w = none ↔ ∀ row ∈ usage.rows, row.window ≠ w := by
  simp [lookup]

theorem lookup_modify : (usage.modify w f).lookup w' =
    (usage.lookup w').map fun row => if row.window = w then { row with used := f row.used } else row := by
  have hwin : ∀ row : UsageRow,
      (if row.window = w then { row with used := f row.used } else row).window = row.window :=
    fun row => by split <;> rfl
  simp only [lookup, modify, List.find?_map, Function.comp_def, hwin]

theorem lookup_insert (h : usage.lookup w = none) :
    (usage.insert w quantity).lookup w' = if w' = w then some ⟨w, quantity⟩ else usage.lookup w' := by
  have hnone : ¬ ∃ row ∈ usage.rows, row.window = w := fun ⟨row, hrow, hw⟩ => lookup_eq_none.1 h row hrow hw
  rw [insert, dif_neg hnone]
  simp only [lookup, List.find?_append]
  by_cases hw : w' = w
  · subst hw
    have hfind : usage.rows.find? (fun row => row.window = w') = none := h
    simp [hfind]
  · simp [hw, Ne.symm hw]

theorem lookup_delete :
    (usage.delete victims).lookup w = if w ∈ victims then none else usage.lookup w := by
  split_ifs with hw
  · refine lookup_eq_none.2 fun row hrow hwin => ?_
    exact (of_decide_eq_true (List.mem_filter.1 hrow).2) (hwin ▸ hw)
  · simp only [lookup, delete, List.find?_filter]
    congr 1
    funext row
    by_cases hwin : row.window = w
    · simp [hwin, hw]
    · simp [hwin]

theorem used_of_none (h : usage.lookup w = none) : usage.used w = 0 := by
  rw [used, h]
  rfl

/-- A change of one row is seen in its window, where there is a row. -/
theorem used_modify_of_ne (h : w' ≠ w) : (usage.modify w f).used w' = usage.used w' := by
  rw [used, used, lookup_modify]
  cases hl : usage.lookup w' with
  | none => rfl
  | some row => simp [(lookup_eq_some hl).2, h]

theorem used_modify (h : usage.lookup w = some row) : (usage.modify w f).used w = f (usage.used w) := by
  rw [used, used, lookup_modify, h]
  simp [(lookup_eq_some h).2]

theorem used_modify_of_none (h : usage.lookup w = none) : (usage.modify w f).used w = 0 := by
  rw [used, lookup_modify, h]
  rfl

theorem used_insert (h : usage.lookup w = none) :
    (usage.insert w quantity).used w' = if w' = w then quantity else usage.used w' := by
  rw [used, lookup_insert h]
  split_ifs <;> rfl

theorem used_delete (h : w ∉ victims) : (usage.delete victims).used w = usage.used w := by
  rw [used, lookup_delete, if_neg h]
  rfl

end UsageTable

/-! ## What a call holds -/

/-- What an entry of a log has consumed. -/
def consumption : QuotaCmd × QuotaReply → Option (Window × ℤ)
  | (.consume w quantity _, reply) => if 0 < reply.rowsAffected then some (w, quantity) else none
  | (.recordUsage w quantity, _) => some (w, quantity)
  | _ => none

/-- What a call has consumed. -/
def taken (log : List (QuotaCmd × QuotaReply)) : List (Window × ℤ) := log.filterMap consumption

def QuotaCmd.isRefund : QuotaCmd → Bool
  | .refund _ _ => true
  | _ => false

/-- The call has given back what it has consumed. -/
def Refunded (log : List (QuotaCmd × QuotaReply)) : Prop := ∃ e ∈ log, e.1.isRefund

instance (log : List (QuotaCmd × QuotaReply)) : Decidable (Refunded log) := inferInstanceAs (Decidable (∃ e ∈ log, _))

/-- The providers have not served the call. -/
def Unserved (log : List (QuotaCmd × QuotaReply)) : Prop :=
  ∃ e ∈ log, e.1 = .dispatch ∧ ∀ tier, e.2.served ≠ .ok tier

/-- What a call holds in a window: what it has consumed there, unless it has refunded it or failed. -/
def held (th : QuotaThread) (w : Window) : ℤ :=
  if Refunded th.log ∨ th.prog.Failed then 0
  else (((taken th.log).filter fun x => x.1 = w).map Prod.snd).sum

/-- The consumption a call makes. -/
def QuotaCall.asked : QuotaCall → Option (String × String × ℤ)
  | .consume tenantId resource quantity | .refund tenantId resource quantity _ => some (tenantId, resource, quantity)
  | .chat tenantId estimatedTokens _ _ => some (tenantId, "llm_tokens", estimatedTokens)
  | .embed tenantId lengths _ => some (tenantId, "llm_tokens", estimateTokens lengths)
  | .check .. | .prune .. => none

/-- The call has ended because its consumption has been turned down. -/
def TurnedDown (p : QuotaProg QuotaResult) : Prop := p = .ret (.consumed false) ∨ p = .throw .quotaExceeded

variable (d : Deployment)

/-- The call's consumption does not even fit in an empty window. -/
def OverLimit (c : QuotaCall) : Prop :=
  ∃ tenantId resource quantity, c.asked = some (tenantId, resource, quantity) ∧
    ∃ limit, d.limits tenantId resource = some limit ∧ limit.maxPerWindow < quantity

/-- The books of the windows. -/
structure Balanced (p : QuotaPool) : Prop where
  /-- A window is used for what the calls hold in it. -/
  used : ∀ w, w ∉ p.db.pruned → p.db.usage.used w = (p.threads.map fun th => held th w).sum
  /-- A window that has been pruned is not used again. -/
  pruned : ∀ w ∈ p.db.pruned, p.db.usage.lookup w = none
  limit : ∀ w limit, d.limits w.tenantId w.resource = some limit → p.db.usage.used w ≤ limit.maxPerWindow
  /-- A consumption that is turned down before it gets to the table does not fit in an empty window. -/
  refused : ∀ th ∈ p.threads, TurnedDown th.prog → th.log.all (fun e => e.1 = .now) → OverLimit d th.call

/-- A consumption is accepted exactly if it fits. -/
def AcceptsWhatFits (e : Env) (cmd : QuotaCmd) (s : QuotaDb) : Prop :=
  match cmd with
  | .consume w quantity _ => 0 < (exec d e cmd s).2.rowsAffected ↔
    ∃ limit, d.limits w.tenantId w.resource = some limit ∧ s.usage.used w + quantity ≤ limit.maxPerWindow
  | .recordUsage w _ => d.limits w.tenantId w.resource = none
  | _ => True

/-- The call refunds its consumption when the providers fail. -/
def GivesBack : QuotaCall → Prop
  | .chat tenantId _ _ _ => (d.limits tenantId "llm_tokens").isSome
  | _ => False

instance : DecidablePred (GivesBack d)
  | .chat tenantId _ _ _ => inferInstanceAs (Decidable ((d.limits tenantId "llm_tokens").isSome = true))
  | .check .. | .consume .. | .refund .. | .prune .. | .embed .. => inferInstanceAs (Decidable False)

/-- The providers fail. -/
def Fails (e : Env) : Prop := ∀ tier, dispatchWithFallback e.attempt (d.fallbacks + 1) 0 "" ≠ .ok tier

/-- A command of a call keeps the books balanced: no window that has been pruned is consumed from, a refund is
made in the window of its consumption, and the providers of a call that would not refund do not fail it. What
is in a window that has been pruned does not count. -/
def KeepsBooks (th : QuotaThread) (e : Env) (cmd : QuotaCmd) (s : QuotaDb) : Prop :=
  match cmd with
  | .consume w _ _ | .recordUsage w _ => w ∉ s.pruned
  | .refund w _ => ∀ x ∈ taken th.log, w = x.1 ∨ x.1 ∈ s.pruned ∧ s.usage.used w = 0
  | .dispatch => Fails d e → GivesBack d th.call ∨ ∀ x ∈ taken th.log, x.1 ∈ s.pruned
  | .now | .usage _ | .pruneUsage .. => True

/-- Every command that a move executes keeps the books balanced. -/
def Keeps (p : QuotaPool) (m : QuotaMove) : Prop :=
  ∀ th e cmd, p.acting m = some (th, e, cmd) → KeepsBooks d th e cmd p.db

/-! ## Traces -/

/-- What a call may hand over after its log. -/
def Guard (c : QuotaCall) (log : List (QuotaCmd × QuotaReply)) (cmd : QuotaCmd) (_ : QuotaDb) : Prop :=
  ¬ Refunded log ∧ (Unserved log → GivesBack d c) ∧
    match cmd with
    | .consume w quantity maxPerWindow => taken log = [] ∧ ¬ Unserved log ∧ 0 < quantity ∧
      ∃ limit, d.limits w.tenantId w.resource = some limit ∧ limit.maxPerWindow = maxPerWindow ∧
        quantity ≤ maxPerWindow
    | .recordUsage w quantity =>
      taken log = [] ∧ ¬ Unserved log ∧ 0 < quantity ∧ d.limits w.tenantId w.resource = none
    | .refund _ quantity => 0 < quantity ∧ ∃ w₀, taken log = [(w₀, quantity)]
    | .now | .usage _ | .pruneUsage .. | .dispatch => True

def End (c : QuotaCall) (log : List (QuotaCmd × QuotaReply)) (result : Except QuotaError QuotaResult)
    (_ : QuotaDb) : Prop :=
  match result with
  | .error error => (taken log = [] ∨ Refunded log ∨ Unserved log ∧ ¬ GivesBack d c) ∧
    (error = .quotaExceeded → log.all (fun e => e.1 = .now) → OverLimit d c)
  | .ok result => ¬ Unserved log ∧
    (result = .consumed false → log.all (fun e => e.1 = .now) → OverLimit d c)

def Follows (c : QuotaCall) (p : QuotaProg QuotaResult) (log : List (QuotaCmd × QuotaReply)) : Prop :=
  ∀ s, p.Traces .free (exec d) (Guard d c) (End d c) log s

/-- A log without consumption. -/
structure Clean (log : List (QuotaCmd × QuotaReply)) : Prop where
  taken : taken log = []
  refunded : ¬ Refunded log
  unserved : ¬ Unserved log

/-- A log with one consumption, which is still held. -/
structure Took (w : Window) (quantity : ℤ) (log : List (QuotaCmd × QuotaReply)) : Prop where
  taken : taken log = [(w, quantity)]
  refunded : ¬ Refunded log
  unserved : ¬ Unserved log

variable {d} {c : QuotaCall} {log : List (QuotaCmd × QuotaReply)} {cmd : QuotaCmd} {reply : QuotaReply}
  {w : Window} {quantity : ℤ} {k : QuotaReply → QuotaProg QuotaResult}

theorem taken_append : taken (log ++ [(cmd, reply)]) = taken log ++ (consumption (cmd, reply)).toList := by
  rw [taken, List.filterMap_append, List.filterMap_cons]
  cases consumption (cmd, reply) <;> rfl

theorem refunded_append : Refunded (log ++ [(cmd, reply)]) ↔ Refunded log ∨ cmd.isRefund := by
  simp [Refunded, or_and_right, exists_or]

theorem unserved_append : Unserved (log ++ [(cmd, reply)]) ↔
    Unserved log ∨ cmd = .dispatch ∧ ∀ tier, reply.served ≠ .ok tier := by
  simp [Unserved, or_and_right, exists_or]

theorem follows_txn (h : ∀ s, Guard d c log cmd s)
    (hk : ∀ e s, Follows d c (k (exec d e cmd s).2) (log ++ [(cmd, (exec d e cmd s).2)])) :
    Follows d c (.txn cmd k) log :=
  fun _ s' _ _ => ⟨h s', fun e => hk e s' _⟩

theorem follows_ret {a : QuotaResult} (h : ∀ s, End d c log (.ok a) s) : Follows d c (.ret a) log :=
  fun _ s' _ _ => h s'

theorem follows_throw {e : QuotaError} (h : ∀ s, End d c log (.error e) s) : Follows d c (.throw e) log :=
  fun _ s' _ _ => h s'

theorem follows_fail {e : QuotaError} (h : taken log = [] ∨ Refunded log ∨ Unserved log ∧ ¬ GivesBack d c)
    (he : e ≠ .quotaExceeded) : Follows d c (.throw e) log :=
  follows_throw fun _ => ⟨h, fun h' => absurd h' he⟩

/-- A command that consumes nothing, refunds nothing and asks no provider. -/
def Neutral : QuotaCmd → Prop
  | .now | .usage _ | .pruneUsage .. => True
  | .consume .. | .recordUsage .. | .refund .. | .dispatch => False

theorem Neutral.consumption (h : Neutral cmd) : consumption (cmd, reply) = none := by
  cases cmd <;> first | rfl | exact h.elim

theorem Neutral.not_refund (h : Neutral cmd) : ¬ cmd.isRefund := by
  cases cmd <;> first | exact Bool.false_ne_true | exact h.elim

theorem Neutral.not_dispatch (h : Neutral cmd) : cmd ≠ .dispatch := by
  rintro rfl
  exact h

theorem Clean.append (h : Clean log) (hc : Neutral cmd) : Clean (log ++ [(cmd, reply)]) := by
  refine ⟨?_, ?_, ?_⟩
  · rw [taken_append, h.taken, hc.consumption]
    rfl
  · rw [refunded_append]
    exact not_or.2 ⟨h.refunded, hc.not_refund⟩
  · rw [unserved_append]
    exact not_or.2 ⟨h.unserved, fun hd => hc.not_dispatch hd.1⟩

theorem Clean.nil : Clean [] :=
  ⟨rfl, fun ⟨_, h, _⟩ => (List.not_mem_nil h).elim, fun ⟨_, h, _⟩ => (List.not_mem_nil h).elim⟩

/-- The clock is read, or not. -/
theorem follows_timeOf {given : Option ℕ} {g : ℕ → QuotaProg QuotaResult}
    (hr : ¬ Refunded log) (hu : Unserved log → GivesBack d c)
    (h : ∀ ts log', (log' = log ∨ ∃ reply, log' = log ++ [(.now, reply)]) → Follows d c (g ts) log') :
    Follows d c (timeOf given >>= g) log := by
  cases given with
  | some ts => exact h ts log (.inl rfl)
  | none => exact follows_txn (fun _ => ⟨hr, hu, trivial⟩) fun e s => h _ _ (.inr ⟨_, rfl⟩)

/-- **A consumption.** What comes after it knows whether it has been accepted. -/
theorem follows_consumeQuota {tenantId resource : String} {given : Option ℕ} {g : Bool → QuotaProg QuotaResult}
    (hlog : Clean log)
    (htook : ∀ w log', w.tenantId = tenantId → w.resource = resource → Took w quantity log' →
      Follows d c (g true) log')
    (hrefused : ∀ log', Clean log' → (log'.all (fun e => e.1 = .now) →
      ∃ limit, d.limits tenantId resource = some limit ∧ limit.maxPerWindow < quantity) →
      Follows d c (g false) log') :
    Follows d c (consumeQuota d tenantId resource quantity given >>= g) log := by
  by_cases hq : quantity ≤ 0
  · rw [consumeQuota, if_pos hq]
    exact follows_fail (.inl hlog.taken) (by simp)
  rw [consumeQuota, if_neg hq, Prog.bind_assoc]
  refine follows_timeOf hlog.refunded (fun h => (hlog.unserved h).elim) fun ts log' hlog' => ?_
  have hclean : Clean log' := by
    rcases hlog' with rfl | ⟨reply, rfl⟩
    · exact hlog
    · exact hlog.append trivial
  cases hl : d.limits tenantId resource with
  | none =>
    have hrec : (recordUsage d tenantId resource quantity (some ts) >>= fun _ => (return true : QuotaProg Bool)) >>= g =
        .txn (.recordUsage ⟨tenantId, resource, ts⟩ quantity) fun _ => g true := by
      rw [recordUsage, if_neg hq, hl]
      rfl
    simp only [hrec]
    refine follows_txn (fun _ => ⟨hclean.refunded, fun h => (hclean.unserved h).elim, hclean.taken, hclean.unserved,
      not_le.1 hq, hl⟩) fun e s => htook ⟨tenantId, resource, ts⟩ _ rfl rfl ⟨?_, ?_, ?_⟩
    · rw [taken_append, hclean.taken]
      rfl
    · rw [refunded_append]
      exact not_or.2 ⟨hclean.refunded, Bool.false_ne_true⟩
    · rw [unserved_append]
      exact not_or.2 ⟨hclean.unserved, fun h => by cases h.1⟩
  | some limit =>
    by_cases hmax : limit.maxPerWindow ≤ 0 ∨ (limit.maxPerWindow : ℤ) < quantity
    · simp only [if_pos hmax]
      refine hrefused log' hclean fun _ => ⟨limit, hl, ?_⟩
      omega
    · simp only [if_neg hmax]
      have hfits : quantity ≤ limit.maxPerWindow := not_lt.1 (not_or.1 hmax).2
      refine follows_txn (fun _ => ⟨hclean.refunded, fun h => (hclean.unserved h).elim, hclean.taken,
        hclean.unserved, not_le.1 hq, limit, hl, rfl, hfits⟩) fun e s => ?_
      change Follows d c (g (decide (0 < (exec d e (.consume ⟨tenantId, resource, limit.windowStart ts⟩ quantity
        limit.maxPerWindow) s).2.rowsAffected))) _
      have hr : ∀ reply, ¬ Refunded (log' ++ [(QuotaCmd.consume ⟨tenantId, resource, limit.windowStart ts⟩ quantity
          limit.maxPerWindow, reply)]) := fun reply => by
        rw [refunded_append]
        exact not_or.2 ⟨hclean.refunded, Bool.false_ne_true⟩
      have hu : ∀ reply, ¬ Unserved (log' ++ [(QuotaCmd.consume ⟨tenantId, resource, limit.windowStart ts⟩ quantity
          limit.maxPerWindow, reply)]) := fun reply => by
        rw [unserved_append]
        exact not_or.2 ⟨hclean.unserved, fun h => by cases h.1⟩
      by_cases hrows : 0 < (exec d e (.consume ⟨tenantId, resource, limit.windowStart ts⟩ quantity
          limit.maxPerWindow) s).2.rowsAffected
      · rw [decide_eq_true hrows]
        refine htook ⟨tenantId, resource, limit.windowStart ts⟩ _ rfl rfl ⟨?_, hr _, hu _⟩
        rw [taken_append, hclean.taken]
        simp [consumption, hrows]
      · rw [decide_eq_false hrows]
        refine hrefused _ ⟨?_, hr _, hu _⟩ fun hall => ?_
        · rw [taken_append, hclean.taken]
          simp [consumption, hrows]
        · simp at hall

/-- **A refund** of what has been consumed. -/
theorem follows_refundQuota {tenantId resource : String} {given : Option ℕ} {g : Unit → QuotaProg QuotaResult}
    (htaken : taken log = [(w, quantity)]) (hr : ¬ Refunded log) (hu : Unserved log → GivesBack d c)
    (hnone : d.limits tenantId resource = none ∨ quantity ≤ 0 → Follows d c (g ()) log)
    (hdone : ∀ log', Refunded log' → (Unserved log' ↔ Unserved log) → Follows d c (g ()) log') :
    Follows d c (refundQuota d tenantId resource quantity given >>= g) log := by
  by_cases hq : quantity ≤ 0
  · rw [refundQuota, if_pos hq]
    exact hnone (.inr hq)
  rw [refundQuota, if_neg hq]
  cases hl : d.limits tenantId resource with
  | none => exact hnone (.inl hl)
  | some limit =>
    simp only [Prog.bind_assoc]
    refine follows_timeOf hr hu fun ts log' hlog' => ?_
    have hlog : taken log' = [(w, quantity)] ∧ ¬ Refunded log' ∧ (Unserved log' ↔ Unserved log) := by
      rcases hlog' with rfl | ⟨reply, rfl⟩
      · exact ⟨htaken, hr, Iff.rfl⟩
      · refine ⟨?_, ?_, ?_⟩
        · rw [taken_append, htaken]
          rfl
        · rw [refunded_append]
          exact not_or.2 ⟨hr, Bool.false_ne_true⟩
        · rw [unserved_append]
          exact or_iff_left fun h => by cases h.1
    refine follows_txn (fun _ => ⟨hlog.2.1, fun h => hu (hlog.2.2.1 h), not_le.1 hq, w, hlog.1⟩) fun e s => ?_
    refine hdone _ ?_ ?_
    · rw [refunded_append]
      exact .inr rfl
    · rw [unserved_append, hlog.2.2]
      exact or_iff_left fun h => by cases h.1

/-- The providers are asked. -/
theorem follows_dispatch {g : QuotaReply → QuotaProg QuotaResult} (hr : ¬ Refunded log) (hu : ¬ Unserved log)
    (hserved : ∀ log' reply tier, taken log' = taken log → ¬ Refunded log' → ¬ Unserved log' →
      reply.served = .ok tier → Follows d c (g reply) log')
    (hfailed : ∀ log' reply error, taken log' = taken log → ¬ Refunded log' → Unserved log' →
      reply.served = .error error → Follows d c (g reply) log') :
    Follows d c (Prog.transaction .dispatch >>= g) log := by
  refine follows_txn (fun _ => ⟨hr, fun h => (hu h).elim, trivial⟩) fun e s => ?_
  have htaken : ∀ reply, taken (log ++ [(QuotaCmd.dispatch, reply)]) = taken log := fun reply => by
    rw [taken_append]
    exact List.append_nil _
  have href : ∀ reply, ¬ Refunded (log ++ [(QuotaCmd.dispatch, reply)]) := fun reply => by
    rw [refunded_append]
    exact not_or.2 ⟨hr, Bool.false_ne_true⟩
  cases hs : (exec d e .dispatch s).2.served with
  | ok tier =>
    refine hserved _ _ tier (htaken _) (href _) ?_ hs
    rw [unserved_append]
    exact not_or.2 ⟨hu, fun h => h.2 tier hs⟩
  | error error =>
    refine hfailed _ _ error (htaken _) (href _) ?_ hs
    rw [unserved_append]
    exact .inr ⟨rfl, fun tier h => by simp [hs] at h⟩

/-- A call that the providers have not failed may return anything but that its consumption is turned down. -/
theorem follows_done {result : QuotaResult} (hu : ¬ Unserved log) (hresult : result ≠ .consumed false) :
    Follows d c (.ret result) log :=
  follows_ret fun _ => ⟨hu, fun h => absurd h hresult⟩

theorem follows_pruneShards {now cutoff batchSize : ℕ} {shards : List ℕ} {totalDeleted : ℕ} {mayHaveMore : Bool}
    {g : ℕ × Bool → QuotaProg QuotaResult} (hlog : Clean log) (hg : ∀ x log', Clean log' → Follows d c (g x) log') :
    Follows d c (pruneShards now cutoff batchSize shards totalDeleted mayHaveMore >>= g) log := by
  induction shards generalizing log totalDeleted mayHaveMore with
  | nil => exact hg _ log hlog
  | cons shard shards ih =>
    refine follows_txn (fun _ => ⟨hlog.refunded, fun h => (hlog.unserved h).elim, trivial⟩) fun e s => ?_
    exact ih (hlog.append trivial)

theorem follows_check {tenantId resource : String} :
    Follows d (.check tenantId resource quantity) ((QuotaCall.check tenantId resource quantity).start d) [] := by
  have hend : ∀ log : List (QuotaCmd × QuotaReply), Clean log → ∀ fits,
      Follows d (.check tenantId resource quantity) (.ret (.checked fits)) log := fun log h fits =>
    follows_done h.unserved (by simp)
  change Follows d _ (checkQuota d tenantId resource quantity none >>= fun fits => .ret (.checked fits)) []
  by_cases hq : quantity ≤ 0
  · rw [checkQuota, if_pos hq]
    exact follows_fail (.inl rfl) (by simp)
  rw [checkQuota, if_neg hq]
  cases d.limits tenantId resource with
  | none => exact hend [] .nil true
  | some limit =>
    simp only [Prog.bind_assoc]
    refine follows_timeOf Clean.nil.refunded (fun h => (Clean.nil.unserved h).elim) fun ts log' hlog' => ?_
    have hclean : Clean log' := by
      rcases hlog' with rfl | ⟨reply, rfl⟩
      · exact .nil
      · exact Clean.nil.append trivial
    have husage : Neutral (.usage ⟨tenantId, resource, limit.windowStart ts⟩) := trivial
    exact follows_txn (fun _ => ⟨hclean.refunded, fun h => (hclean.unserved h).elim, trivial⟩) fun e s =>
      hend _ (hclean.append husage) _

theorem follows_consume {tenantId resource : String} :
    Follows d (.consume tenantId resource quantity) ((QuotaCall.consume tenantId resource quantity).start d) [] := by
  refine follows_consumeQuota .nil (fun w log' _ _ h => ?_) fun log' h hinfo => ?_
  · exact follows_done h.unserved (by simp)
  · exact follows_ret fun _ => ⟨h.unserved, fun _ hall => ⟨_, _, _, rfl, hinfo hall⟩⟩

theorem follows_refund {tenantId resource : String} {pinned : Bool} : Follows d
    (.refund tenantId resource quantity pinned) ((QuotaCall.refund tenantId resource quantity pinned).start d) [] := by
  refine follows_timeOf Clean.nil.refunded (fun h => (Clean.nil.unserved h).elim) fun ts log' hlog' => ?_
  have hclean : Clean log' := by
    rcases hlog' with rfl | ⟨reply, rfl⟩
    · exact .nil
    · exact Clean.nil.append trivial
  refine follows_consumeQuota hclean (fun w log' _ _ h => ?_) fun log' h hinfo => ?_
  · refine follows_refundQuota h.taken h.refunded (fun hu => (h.unserved hu).elim) (fun _ => ?_) fun log'' _ hu => ?_
    · exact follows_done h.unserved (by simp)
    · exact follows_done (fun h' => h.unserved (hu.1 h')) (by simp)
  · exact follows_ret fun _ => ⟨h.unserved, fun _ hall => ⟨_, _, _, rfl, hinfo hall⟩⟩

theorem follows_prune {cutoff batchSize : ℕ} :
    Follows d (.prune cutoff batchSize) ((QuotaCall.prune cutoff batchSize).start d) [] := by
  refine follows_timeOf Clean.nil.refunded (fun h => (Clean.nil.unserved h).elim) fun ts log' hlog' => ?_
  have hclean : Clean log' := by
    rcases hlog' with rfl | ⟨reply, rfl⟩
    · exact .nil
    · exact Clean.nil.append trivial
  exact follows_pruneShards hclean fun x log'' h =>
    follows_done h.unserved (by simp)

theorem follows_chat {tenantId : String} {estimatedTokens : ℤ} {isUnsafe overBudget : Option String} :
    Follows d (.chat tenantId estimatedTokens isUnsafe overBudget)
      ((QuotaCall.chat tenantId estimatedTokens isUnsafe overBudget).start d) [] := by
  change Follows d _ (chat d tenantId estimatedTokens isUnsafe overBudget >>= fun tier => .ret (.served tier)) []
  by_cases hq : estimatedTokens ≤ 0
  · unfold chat
    rw [if_pos hq]
    exact follows_fail (.inl rfl) (by simp)
  unfold chat
  rw [if_neg hq]
  rcases isUnsafe with _ | reason
  · rcases overBudget with _ | reason
    · simp only [Prog.bind_assoc]
      refine follows_consumeQuota .nil (fun w log' ht hr h => ?_) fun log' h hinfo =>
        follows_throw fun _ => ⟨.inl h.taken, fun _ hall => ⟨_, _, _, rfl, hinfo hall⟩⟩
      simp only [Bool.not_true, Bool.false_eq_true, if_false, Prog.bind_assoc]
      refine follows_dispatch h.refunded h.unserved (fun log'' reply tier htaken href hu hs => ?_)
        fun log'' reply error htaken href hu hs => ?_
      · rw [hs]
        exact follows_done hu (by simp)
      · -- the providers have failed: with a limit the tokens are refunded, without one they are not
        rw [hs]
        simp only [Prog.bind_assoc]
        cases hl : d.limits tenantId "llm_tokens" with
        | none =>
          have hnot : ¬ GivesBack d (.chat tenantId estimatedTokens none none) := by simp [GivesBack, hl]
          have hrefund : refundQuota d tenantId "llm_tokens" estimatedTokens none = .ret () := by
            rw [refundQuota, if_neg hq, hl]
            rfl
          rw [hrefund]
          exact follows_fail (.inr (.inr ⟨hu, hnot⟩)) (by simp)
        | some limit =>
          have hgives : GivesBack d (.chat tenantId estimatedTokens none none) := by simp [GivesBack, hl]
          refine follows_refundQuota (htaken.trans h.taken) href (fun _ => hgives) (fun hnone => ?_)
            fun log₃ href₃ _ => follows_fail (.inr (.inl href₃)) (by simp)
          rcases hnone with hnone | hq'
          · simp [hl] at hnone
          · exact absurd hq' hq
    · exact follows_fail (.inl rfl) (by simp)
  · exact follows_fail (.inl rfl) (by simp)

/-- What `embed` makes of the provider's answer. -/
def QuotaReply.tier (reply : QuotaReply) : QuotaProg ℕ :=
  match reply.served with
  | .ok tier => return tier
  | .error error => .throw (.provider error)

theorem follows_embed {tenantId : String} {lengths : List ℕ} {overBudget : Option String} :
    Follows d (.embed tenantId lengths overBudget) ((QuotaCall.embed tenantId lengths overBudget).start d) [] := by
  have hnot : ¬ GivesBack d (.embed tenantId lengths overBudget) := id
  change Follows d _ (embed d tenantId lengths overBudget >>= fun tier => .ret (.served tier)) []
  unfold embed
  rcases overBudget with _ | reason
  · have hrest : ∀ log, ¬ Refunded log → ¬ Unserved log → Follows d (.embed tenantId lengths none)
        (Prog.transaction .dispatch >>= fun reply => reply.tier >>= fun tier => .ret (.served tier)) log := by
      intro log hr hu
      refine follows_dispatch hr hu (fun log' reply tier _ _ hu' hs => ?_) fun log' reply error _ _ hu' hs => ?_
      · simp only [QuotaReply.tier, hs]
        exact follows_done hu' (by simp)
      · simp only [QuotaReply.tier, hs]
        exact follows_fail (.inr (.inr ⟨hu', hnot⟩)) (by simp)
    by_cases hpos : 0 < estimateTokens lengths
    · simp only [if_pos hpos, Prog.bind_assoc]
      refine follows_consumeQuota .nil (fun w log' ht hr h => ?_) fun log' h hinfo =>
        follows_throw fun _ => ⟨.inl h.taken, fun _ hall => ⟨_, _, _, rfl, hinfo hall⟩⟩
      simp only [Bool.not_true, Bool.false_eq_true, if_false, Prog.bind_assoc]
      exact hrest log' h.refunded h.unserved
    · simp only [if_neg hpos, Prog.bind_assoc]
      exact hrest [] Clean.nil.refunded Clean.nil.unserved
  · exact follows_fail (.inl rfl) (by simp)

/-- **Every call follows its trace.** -/
theorem follows_start (c : QuotaCall) : Follows d c (c.start d) [] := by
  cases c with
  | check tenantId resource quantity => exact follows_check
  | consume tenantId resource quantity => exact follows_consume
  | refund tenantId resource quantity pinned => exact follows_refund
  | prune cutoff batchSize => exact follows_prune
  | chat tenantId estimatedTokens isUnsafe overBudget => exact follows_chat
  | embed tenantId lengths overBudget => exact follows_embed

/-! ## Commands -/

/-- The table against what is held in each window. -/
structure Even (d : Deployment) (usage : UsageTable) (pruned : List Window) (sum : Window → ℤ) : Prop where
  used : ∀ w, w ∉ pruned → usage.used w = sum w
  pruned : ∀ w ∈ pruned, usage.lookup w = none
  limit : ∀ w limit, d.limits w.tenantId w.resource = some limit → usage.used w ≤ limit.maxPerWindow

variable {usage : UsageTable} {pruned : List Window} {sum sum' : Window → ℤ} {s : QuotaDb} {e : Env}

theorem Even.used_nonneg (h : Even d usage pruned sum) (hsum : ∀ w, 0 ≤ sum w) (w : Window) : 0 ≤ usage.used w := by
  by_cases hw : w ∈ pruned
  · rw [UsageTable.used_of_none (h.pruned w hw)]
  · rw [h.used w hw]
    exact hsum w

/-- **An amount is added** in a window: the table stays even exactly if the window has not been pruned. -/
theorem Even.add_iff {usage' : UsageTable} (h : Even d usage pruned sum)
    (hused : ∀ w', usage'.used w' = usage.used w' + if w' = w then quantity else 0)
    (hlookup : ∀ w', w' ≠ w → usage'.lookup w' = usage.lookup w') (hrow : (usage'.lookup w).isSome)
    (hfits : ∀ limit, d.limits w.tenantId w.resource = some limit → usage.used w + quantity ≤ limit.maxPerWindow)
    (hsum : ∀ w', sum' w' = sum w' + if w' = w then quantity else 0) :
    Even d usage' pruned sum' ↔ w ∉ pruned := by
  constructor
  · intro h' hw
    rw [h'.pruned w hw] at hrow
    cases hrow
  · intro hw
    refine ⟨fun w' hw' => ?_, fun w' hw' => ?_, fun w' limit hl => ?_⟩
    · rw [hused, hsum, h.used w' hw']
    · have hne : w' ≠ w := fun he => hw (he ▸ hw')
      rw [hlookup w' hne]
      exact h.pruned w' hw'
    · by_cases he : w' = w
      · subst he
        rw [hused, if_pos rfl]
        exact hfits limit hl
      · rw [hused, if_neg he, add_zero]
        exact h.limit w' limit hl

/-- **An amount is subtracted** in the window `w` for a consumption in `w₀`. -/
theorem Even.refund_iff {w₀ : Window} (h : Even d usage pruned sum) (hq : 0 < quantity) (hpos : ∀ w, 0 ≤ sum w)
    (hle : quantity ≤ sum w₀) (hsum : ∀ w', sum' w' = sum w' - if w' = w₀ then quantity else 0) :
    Even d (usage.modify w fun used => max 0 (used - quantity)) pruned sum' ↔
      w = w₀ ∨ w₀ ∈ pruned ∧ usage.used w = 0 := by
  have hnonneg := h.used_nonneg hpos
  -- what becomes of the window itself
  have hused : (usage.modify w fun used => max 0 (used - quantity)).used w = max 0 (usage.used w - quantity) := by
    cases hl : usage.lookup w with
    | none => rw [UsageTable.used_modify_of_none hl, UsageTable.used_of_none hl]; omega
    | some row => rw [UsageTable.used_modify hl]
  constructor
  · intro h'
    by_cases hw : w = w₀
    · exact .inl hw
    refine .inr ⟨by_contra fun hw₀ => ?_, ?_⟩
    · have h₁ := h'.used w₀ hw₀
      rw [UsageTable.used_modify_of_ne (Ne.symm hw), h.used w₀ hw₀, hsum, if_pos rfl] at h₁
      omega
    · by_cases hp : w ∈ pruned
      · exact UsageTable.used_of_none (h.pruned w hp)
      · have h₁ := h'.used w hp
        rw [hused, hsum, if_neg hw, ← h.used w hp] at h₁
        have := hnonneg w
        omega
  · intro hcond
    refine ⟨fun w' hw' => ?_, fun w' hw' => ?_, fun w' limit hl => ?_⟩
    · by_cases he : w' = w
      · subst he
        rw [hused]
        rcases hcond with rfl | ⟨hw₀, hzero⟩
        · rw [hsum, if_pos rfl, h.used w' hw']
          omega
        · have hne : w' ≠ w₀ := fun he => hw' (he ▸ hw₀)
          rw [hsum, if_neg hne, ← h.used w' hw', hzero]
          omega
      · rw [UsageTable.used_modify_of_ne he, h.used w' hw', hsum]
        have hne : w' ≠ w₀ := by
          rcases hcond with rfl | ⟨hw₀, -⟩
          · exact he
          · exact fun he => hw' (he ▸ hw₀)
        rw [if_neg hne, sub_zero]
    · rw [UsageTable.lookup_modify, h.pruned w' hw']
      rfl
    · have hle' := h.limit w' limit hl
      by_cases he : w' = w
      · subst he
        rw [hused]
        have := hnonneg w'
        omega
      · rwa [UsageTable.used_modify_of_ne he]

theorem Even.drop_iff {w₀ : Window} (h : Even d usage pruned sum) (hq : 0 < quantity)
    (hsum : ∀ w', sum' w' = sum w' - if w' = w₀ then quantity else 0) :
    Even d usage pruned sum' ↔ w₀ ∈ pruned := by
  constructor
  · intro h'
    by_contra hw
    have h₁ := h'.used w₀ hw
    rw [h.used w₀ hw, hsum, if_pos rfl] at h₁
    omega
  · intro hw
    refine ⟨fun w' hw' => ?_, h.pruned, h.limit⟩
    have hne : w' ≠ w₀ := fun he => hw' (he ▸ hw)
    rw [h.used w' hw', hsum, if_neg hne, sub_zero]

/-- **A prune** keeps the table even. -/
theorem Even.delete (h : Even d usage pruned sum) (victims : List Window) :
    Even d (usage.delete victims) (victims ++ pruned) sum := by
  refine ⟨fun w hw => ?_, fun w hw => ?_, fun w limit hl => ?_⟩
  · obtain ⟨hv, hp⟩ := not_or.1 (mt List.mem_append.2 hw)
    rw [UsageTable.used_delete hv, h.used w hp]
  · rw [UsageTable.lookup_delete]
    split_ifs with hv
    · rfl
    · exact h.pruned w ((List.mem_append.1 hw).resolve_left hv)
  · by_cases hv : w ∈ victims
    · rw [UsageTable.used_of_none (by rw [UsageTable.lookup_delete, if_pos hv])]
      exact Int.natCast_nonneg _
    · rw [UsageTable.used_delete hv]
      exact h.limit w limit hl

/-- A consumption that fits is added, one that does not is turned down. -/
theorem exec_consume {maxPerWindow : ℕ} (hfits : quantity ≤ maxPerWindow) :
    (exec d e (.consume w quantity maxPerWindow) s).1.pruned = s.pruned ∧
    (0 < (exec d e (.consume w quantity maxPerWindow) s).2.rowsAffected ↔ s.usage.used w + quantity ≤ maxPerWindow) ∧
    if s.usage.used w + quantity ≤ maxPerWindow then
      (∀ w', (exec d e (.consume w quantity maxPerWindow) s).1.usage.used w' =
        s.usage.used w' + if w' = w then quantity else 0) ∧
      (∀ w', w' ≠ w → (exec d e (.consume w quantity maxPerWindow) s).1.usage.lookup w' = s.usage.lookup w') ∧
      ((exec d e (.consume w quantity maxPerWindow) s).1.usage.lookup w).isSome
    else (exec d e (.consume w quantity maxPerWindow) s).1.usage = s.usage ∧ (s.usage.lookup w).isSome := by
  cases hl : s.usage.lookup w with
  | none =>
    have hexec : exec d e (.consume w quantity maxPerWindow) s =
        (⟨s.clock + e.elapsed, s.usage.insert w quantity, s.pruned⟩, .affected 1 (s.clock + e.elapsed)) := by
      simp only [exec, execNow, hl]
    have hzero := UsageTable.used_of_none hl
    rw [hexec, if_pos (by rw [hzero]; omega)]
    refine ⟨rfl, ⟨fun _ => by rw [hzero]; omega, fun _ => Nat.one_pos⟩, fun w' => ?_, fun w' hw' => ?_, ?_⟩
    · rw [UsageTable.used_insert hl]
      by_cases hw : w' = w
      · rw [if_pos hw, if_pos hw, hw, hzero, zero_add]
      · rw [if_neg hw, if_neg hw, add_zero]
    · rw [UsageTable.lookup_insert hl, if_neg hw']
    · rw [UsageTable.lookup_insert hl, if_pos rfl]
      rfl
  | some row =>
    have hrow : s.usage.used w = row.used := by
      rw [UsageTable.used, hl]
      rfl
    by_cases hfit : s.usage.used w + quantity ≤ maxPerWindow
    · have hexec : exec d e (.consume w quantity maxPerWindow) s =
          (⟨s.clock + e.elapsed, s.usage.modify w (· + quantity), s.pruned⟩, .affected 1 (s.clock + e.elapsed)) := by
        simp only [exec, execNow, hl, if_pos (hrow ▸ hfit)]
      rw [hexec, if_pos hfit]
      refine ⟨rfl, ⟨fun _ => hfit, fun _ => Nat.one_pos⟩, fun w' => ?_, fun w' hw' => ?_, ?_⟩
      · by_cases hw : w' = w
        · subst hw
          rw [if_pos rfl, UsageTable.used_modify hl]
        · rw [if_neg hw, UsageTable.used_modify_of_ne hw, add_zero]
      · rw [UsageTable.lookup_modify]
        cases hl' : s.usage.lookup w' with
        | none => rfl
        | some row' => simp [(UsageTable.lookup_eq_some hl').2, hw']
      · rw [UsageTable.lookup_modify, hl]
        rfl
    · have hexec : exec d e (.consume w quantity maxPerWindow) s =
          (⟨s.clock + e.elapsed, s.usage, s.pruned⟩, .affected 0 (s.clock + e.elapsed)) := by
        simp only [exec, execNow, hl, if_neg (hrow ▸ hfit)]
      rw [hexec, if_neg hfit]
      exact ⟨rfl, ⟨fun h => absurd h (Nat.lt_irrefl 0), fun h => absurd h hfit⟩, rfl, rfl⟩

/-- A consumption without a limit is added. -/
theorem exec_recordUsage :
    (exec d e (.recordUsage w quantity) s).1.pruned = s.pruned ∧
    (∀ w', (exec d e (.recordUsage w quantity) s).1.usage.used w' =
      s.usage.used w' + if w' = w then quantity else 0) ∧
    (∀ w', w' ≠ w → (exec d e (.recordUsage w quantity) s).1.usage.lookup w' = s.usage.lookup w') ∧
    ((exec d e (.recordUsage w quantity) s).1.usage.lookup w).isSome := by
  cases hl : s.usage.lookup w with
  | none =>
    have hexec : exec d e (.recordUsage w quantity) s =
        (⟨s.clock + e.elapsed, s.usage.insert w quantity, s.pruned⟩, .affected 1 (s.clock + e.elapsed)) := by
      simp only [exec, execNow, hl]
    rw [hexec]
    refine ⟨rfl, fun w' => ?_, fun w' hw' => ?_, ?_⟩
    · rw [UsageTable.used_insert hl]
      by_cases hw : w' = w
      · rw [if_pos hw, if_pos hw, hw, UsageTable.used_of_none hl, zero_add]
      · rw [if_neg hw, if_neg hw, add_zero]
    · rw [UsageTable.lookup_insert hl, if_neg hw']
    · rw [UsageTable.lookup_insert hl, if_pos rfl]
      rfl
  | some row =>
    have hexec : exec d e (.recordUsage w quantity) s =
        (⟨s.clock + e.elapsed, s.usage.modify w (· + quantity), s.pruned⟩, .affected 1 (s.clock + e.elapsed)) := by
      simp only [exec, execNow, hl]
    rw [hexec]
    refine ⟨rfl, fun w' => ?_, fun w' hw' => ?_, ?_⟩
    · by_cases hw : w' = w
      · subst hw
        rw [if_pos rfl, UsageTable.used_modify hl]
      · rw [if_neg hw, UsageTable.used_modify_of_ne hw, add_zero]
    · rw [UsageTable.lookup_modify]
      cases hl' : s.usage.lookup w' with
      | none => rfl
      | some row' => simp [(UsageTable.lookup_eq_some hl').2, hw']
    · rw [UsageTable.lookup_modify, hl]
      rfl

/-! ## Calls read nothing besides -/

theorem readFree_timeOf {given : Option ℕ} : (timeOf given).ReadFree := by
  cases given with
  | some ts => trivial
  | none => exact Prog.ReadFree.transaction.bind fun _ => trivial

theorem readFree_checkQuota {tenantId resource : String} : (checkQuota d tenantId resource quantity none).ReadFree := by
  unfold checkQuota
  split_ifs
  · trivial
  · cases d.limits tenantId resource with
    | none => trivial
    | some limit => exact readFree_timeOf.bind fun _ => Prog.ReadFree.transaction.bind fun _ => trivial

theorem readFree_recordUsage {tenantId resource : String} {given : Option ℕ} :
    (recordUsage d tenantId resource quantity given).ReadFree := by
  unfold recordUsage
  split_ifs
  · trivial
  · exact readFree_timeOf.bind fun _ => Prog.ReadFree.transaction.bind fun _ => trivial

theorem readFree_consumeQuota {tenantId resource : String} {given : Option ℕ} :
    (consumeQuota d tenantId resource quantity given).ReadFree := by
  unfold consumeQuota
  split_ifs
  · trivial
  · refine readFree_timeOf.bind fun ts => ?_
    cases d.limits tenantId resource with
    | none => exact readFree_recordUsage.bind fun _ => trivial
    | some limit =>
      simp only
      split_ifs
      · trivial
      · exact Prog.ReadFree.transaction.bind fun _ => trivial

theorem readFree_refundQuota {tenantId resource : String} {given : Option ℕ} :
    (refundQuota d tenantId resource quantity given).ReadFree := by
  unfold refundQuota
  split_ifs
  · trivial
  · cases d.limits tenantId resource with
    | none => trivial
    | some limit => exact readFree_timeOf.bind fun _ => Prog.ReadFree.transaction.bind fun _ => trivial

theorem readFree_pruneShards {now cutoff batchSize : ℕ} {shards : List ℕ} {totalDeleted : ℕ} {mayHaveMore : Bool} :
    (pruneShards now cutoff batchSize shards totalDeleted mayHaveMore).ReadFree := by
  induction shards generalizing totalDeleted mayHaveMore with
  | nil => trivial
  | cons shard shards ih => exact Prog.ReadFree.transaction.bind fun _ => ih

theorem readFree_chat {tenantId : String} {estimatedTokens : ℤ} {isUnsafe overBudget : Option String} :
    (chat d tenantId estimatedTokens isUnsafe overBudget).ReadFree := by
  unfold chat
  split_ifs
  · trivial
  · rcases isUnsafe with _ | reason
    · rcases overBudget with _ | reason
      · refine readFree_consumeQuota.bind fun accepted => ?_
        cases accepted with
        | false => trivial
        | true =>
          refine Prog.ReadFree.transaction.bind fun reply => ?_
          cases reply.served with
          | ok tier => trivial
          | error error => exact readFree_refundQuota.bind fun _ => trivial
      · trivial
    · trivial

theorem readFree_embed {tenantId : String} {lengths : List ℕ} {overBudget : Option String} :
    (embed d tenantId lengths overBudget).ReadFree := by
  unfold embed
  rcases overBudget with _ | reason
  · have hrest : ∀ accepted : Bool, (if !accepted then .throw .quotaExceeded
        else (Prog.transaction .dispatch : QuotaProg QuotaReply) >>= fun reply => reply.tier).ReadFree := by
      intro accepted
      cases accepted with
      | false => trivial
      | true =>
        refine Prog.ReadFree.transaction.bind fun reply => ?_
        rw [QuotaReply.tier]
        cases reply.served with
        | ok tier | error error => trivial
    simp only
    split_ifs
    · exact readFree_consumeQuota.bind hrest
    · exact hrest true
  · trivial

theorem readFree_start (c : QuotaCall) : (c.start d).ReadFree := by
  cases c with
  | check tenantId resource quantity => exact readFree_checkQuota.bind fun _ => trivial
  | consume tenantId resource quantity => exact readFree_consumeQuota.bind fun _ => trivial
  | refund tenantId resource quantity pinned =>
    refine readFree_timeOf.bind fun ts => readFree_consumeQuota.bind fun accepted => ?_
    cases accepted with
    | false => trivial
    | true => exact readFree_refundQuota.bind fun _ => trivial
  | prune cutoff batchSize => exact readFree_timeOf.bind fun _ => readFree_pruneShards.bind fun _ => trivial
  | chat tenantId estimatedTokens isUnsafe overBudget => exact readFree_chat.bind fun _ => trivial
  | embed tenantId lengths overBudget => exact readFree_embed.bind fun _ => trivial

/-! ## What a step does to the balance -/

def amount (log : List (QuotaCmd × QuotaReply)) (w : Window) : ℤ :=
  (((taken log).filter fun x => x.1 = w).map Prod.snd).sum

theorem amount_of_nil (h : taken log = []) (w : Window) : amount log w = 0 := by
  rw [amount, h]
  rfl

theorem amount_of_singleton {w₀ : Window} (h : taken log = [(w₀, quantity)]) (w : Window) :
    amount log w = if w = w₀ then quantity else 0 := by
  rw [amount, h]
  by_cases hw : w = w₀
  · simp [hw]
  · simp [hw, Ne.symm hw]

/-- A log has consumed nothing, or once a positive quantity. -/
def Single (log : List (QuotaCmd × QuotaReply)) : Prop :=
  taken log = [] ∨ ∃ w quantity, 0 < quantity ∧ taken log = [(w, quantity)]

variable {th : QuotaThread}

variable (d s) in
/-- The call follows its log, and reads nothing. -/
structure OnTrack (th : QuotaThread) : Prop where
  traces : th.prog.Traces .free (exec d) (Guard d th.call) (End d th.call) th.log s
  readFree : th.prog.ReadFree
  single : Single th.log

theorem held_nonneg (h : OnTrack d s th) (w : Window) : 0 ≤ held th w := by
  unfold held
  split_ifs
  · exact le_rfl
  · change 0 ≤ amount th.log w
    rcases h.single with h | ⟨w₀, q, hq, h⟩
    · rw [amount_of_nil h]
    · rw [amount_of_singleton h]
      split_ifs <;> omega

/-- **A call holds what it has consumed**, unless it has given it back. -/
theorem held_of_kept (h : OnTrack d s th) (hr : ¬ Refunded th.log) (hu : Unserved th.log → GivesBack d th.call)
    (w : Window) : held th w = amount th.log w := by
  obtain ⟨c, log, prog⟩ := th
  unfold held
  split_ifs with hfailed
  · cases prog with
    | throw e =>
      rcases (h.traces s trivial trivial).1 with hnil | href | ⟨hun, hnot⟩
      · exact (amount_of_nil hnil w).symm
      · exact absurd href hr
      · exact absurd (hu hun) hnot
    | ret a | read f | txn t k => exact absurd hfailed (not_or.2 ⟨hr, id⟩)
  · rfl

theorem held_of_refunded (h : Refunded th.log) (w : Window) : held th w = 0 := if_pos (.inl h)

theorem held_of_unserved (h : OnTrack d s th) (hu : Unserved th.log) (hnot : ¬ GivesBack d th.call) (w : Window) :
    held th w = 0 := by
  obtain ⟨c, log, prog⟩ := th
  refine if_pos (.inr ?_)
  cases prog with
  | throw e => trivial
  | ret a => exact absurd hu (h.traces s trivial trivial).1
  | read f => exact h.readFree.elim
  | txn t k => exact absurd ((h.traces s trivial trivial).1.2.1 hu) hnot

theorem Even.congr (h : ∀ w, sum' w = sum w) : Even d usage pruned sum' ↔ Even d usage pruned sum := by
  rw [funext h]

section
variable {l : List (QuotaCmd × QuotaReply)}

/-- What a call may hand over, it has consumed nothing or once before. -/
theorem Single.step (h : Single l) (hg : Guard d c l cmd s) :
    Single (l ++ [(cmd, (exec d e cmd s).2)]) := by
  rw [Single, taken_append]
  cases cmd with
  | consume w quantity maxPerWindow =>
    obtain ⟨-, -, hnil, -, hq, -⟩ := hg
    rw [hnil, List.nil_append]
    by_cases hrows : 0 < (exec d e (.consume w quantity maxPerWindow) s).2.rowsAffected
    · exact .inr ⟨w, quantity, hq, by simp [consumption, hrows]⟩
    · exact .inl (by simp [consumption, hrows])
  | recordUsage w quantity =>
    obtain ⟨-, -, hnil, -, hq, -⟩ := hg
    exact .inr ⟨w, quantity, hq, by simp [consumption, hnil]⟩
  | now | usage w | refund w quantity | pruneUsage shard now cutoff batchSize | dispatch =>
    simp only [consumption, Option.toList_none, List.append_nil]
    exact h

theorem OnTrack.step (h : OnTrack d s ⟨c, l, .txn cmd k⟩) :
    OnTrack d (exec d e cmd s).1 ⟨c, l ++ [(cmd, (exec d e cmd s).2)], k (exec d e cmd s).2⟩ where
  traces := (h.traces s trivial trivial).2 e
  readFree := h.readFree _
  single := h.single.step (h.traces s trivial trivial).1

/-- A command that changes no log's balance. -/
theorem amount_append_of_none (h : consumption (cmd, reply) = none) (w : Window) :
    amount (l ++ [(cmd, reply)]) w = amount l w := by
  rw [amount, taken_append, h, Option.toList_none, List.append_nil]
  rfl

/-- **A command keeps the table even** with what is held exactly if it keeps the books. -/
theorem Even.commit_iff (h : Even d s.usage s.pruned sum) (hpos : ∀ w, 0 ≤ sum w)
    (hth : OnTrack d s ⟨c, l, .txn cmd k⟩) (hle : ∀ w, held ⟨c, l, .txn cmd k⟩ w ≤ sum w)
    (hsum : ∀ w, sum' w = sum w +
      (held ⟨c, l ++ [(cmd, (exec d e cmd s).2)], k (exec d e cmd s).2⟩ w - held ⟨c, l, .txn cmd k⟩ w)) :
    Even d (exec d e cmd s).1.usage (exec d e cmd s).1.pruned sum' ↔
      KeepsBooks d ⟨c, l, .txn cmd k⟩ e cmd s := by
  have hth' := hth.step (e := e)
  have hg : Guard d c l cmd s := (hth.traces s trivial trivial).1
  have hbefore : ∀ w, held ⟨c, l, .txn cmd k⟩ w = amount l w := held_of_kept hth hg.1 hg.2.1
  -- what the call holds after a command that is neither a refund nor a failure of the providers
  have hafter : ¬ cmd.isRefund → cmd ≠ .dispatch →
      ∀ w, held ⟨c, l ++ [(cmd, (exec d e cmd s).2)], k (exec d e cmd s).2⟩ w =
        amount (l ++ [(cmd, (exec d e cmd s).2)]) w := fun hr hd => held_of_kept hth'
    (fun h' => (refunded_append.1 h').elim hg.1 hr)
    fun h' => (unserved_append.1 h').elim hg.2.1 fun h'' => absurd h''.1 hd
  cases cmd with
  | now | usage w =>
    refine iff_of_true ?_ trivial
    rw [Even.congr fun w => ?_]
    · exact h
    · rw [hsum, hbefore, hafter Bool.false_ne_true (by simp), amount_append_of_none rfl, sub_self, add_zero]
  | pruneUsage shard now cutoff batchSize =>
    refine iff_of_true ?_ trivial
    rw [Even.congr fun w => ?_]
    · exact h.delete _
    · rw [hsum, hbefore, hafter Bool.false_ne_true (by simp), amount_append_of_none rfl, sub_self, add_zero]
  | consume w quantity maxPerWindow =>
    obtain ⟨-, -, hnil, -, hq, limit, hl, rfl, hmax⟩ := hg
    obtain ⟨hpruned, hrows, hstep⟩ := exec_consume (d := d) (e := e) (w := w) (s := s) hmax
    have hsum' : ∀ w', sum' w' = sum w' + amount (l ++ [(.consume w quantity limit.maxPerWindow,
        (exec d e (.consume w quantity limit.maxPerWindow) s).2)]) w' := fun w' => by
      rw [hsum, hbefore, hafter Bool.false_ne_true (by simp), amount_of_nil hnil, sub_zero]
    rw [hpruned]
    by_cases hfits : s.usage.used w + quantity ≤ limit.maxPerWindow
    · rw [if_pos hfits] at hstep
      have htaken : taken (l ++ [(.consume w quantity limit.maxPerWindow,
          (exec d e (.consume w quantity limit.maxPerWindow) s).2)]) = [(w, quantity)] := by
        rw [taken_append, hnil]
        simp [consumption, hrows.2 hfits]
      refine h.add_iff hstep.1 hstep.2.1 hstep.2.2 (fun limit' hl' => ?_) fun w' => ?_
      · obtain rfl := Option.some.inj (hl.symm.trans hl')
        exact hfits
      · rw [hsum', amount_of_singleton htaken]
    · rw [if_neg hfits] at hstep
      have htaken : taken (l ++ [(.consume w quantity limit.maxPerWindow,
          (exec d e (.consume w quantity limit.maxPerWindow) s).2)]) = [] := by
        rw [taken_append, hnil]
        simp [consumption, mt hrows.1 hfits]
      rw [hstep.1]
      refine iff_of_true ?_ fun hw => ?_
      · rw [Even.congr fun w' => ?_]
        · exact h
        · rw [hsum', amount_of_nil htaken, add_zero]
      · rw [h.pruned w hw] at hstep
        exact Bool.false_ne_true hstep.2
  | recordUsage w quantity =>
    obtain ⟨-, -, hnil, -, hq, hl⟩ := hg
    obtain ⟨hpruned, hstep⟩ := @exec_recordUsage d w quantity s e
    rw [hpruned]
    have htaken : taken (l ++ [(.recordUsage w quantity, (exec d e (.recordUsage w quantity) s).2)]) =
        [(w, quantity)] := by
      rw [taken_append, hnil]
      rfl
    refine h.add_iff hstep.1 hstep.2.1 hstep.2.2 (fun limit' hl' => ?_) fun w' => ?_
    · rw [hl] at hl'
      cases hl'
    · rw [hsum, hbefore, hafter Bool.false_ne_true (by simp), amount_of_nil hnil, amount_of_singleton htaken, sub_zero]
  | refund w quantity =>
    obtain ⟨-, -, hq, w₀, htaken⟩ := hg
    have hrefunded : Refunded (l ++ [(.refund w quantity, (exec d e (.refund w quantity) s).2)]) :=
      refunded_append.2 (.inr rfl)
    have hheld : ∀ w', amount l w' = if w' = w₀ then quantity else 0 := amount_of_singleton htaken
    have hcond : KeepsBooks d ⟨c, l, .txn (.refund w quantity) k⟩ e (.refund w quantity) s ↔
        w = w₀ ∨ w₀ ∈ s.pruned ∧ s.usage.used w = 0 := by
      simp only [KeepsBooks, htaken, List.mem_singleton, forall_eq]
    rw [hcond]
    refine h.refund_iff hq hpos ?_ fun w' => ?_
    · have hle' := hle w₀
      rwa [hbefore, hheld, if_pos rfl] at hle'
    · rw [hsum, hbefore, hheld, held_of_refunded hrefunded, zero_sub, sub_eq_add_neg]
  | dispatch =>
    have hreply : (exec d e .dispatch s).2.served = dispatchWithFallback e.attempt (d.fallbacks + 1) 0 "" := rfl
    have hun : Unserved (l ++ [(.dispatch, (exec d e .dispatch s).2)]) ↔ Unserved l ∨ Fails d e := by
      rw [unserved_append, hreply]
      exact or_congr_right (and_iff_right rfl)
    have hsame : (Unserved (l ++ [(.dispatch, (exec d e .dispatch s).2)]) → GivesBack d c) →
        ∀ w, sum' w = sum w := fun hgives w => by
      rw [hsum, hbefore, held_of_kept hth' (fun h' => (refunded_append.1 h').elim hg.1 Bool.false_ne_true) hgives,
        amount_append_of_none rfl, sub_self, add_zero]
    change Even d s.usage s.pruned sum' ↔ (Fails d e → GivesBack d c ∨ ∀ x ∈ taken l, x.1 ∈ s.pruned)
    by_cases hgives : GivesBack d c
    · rw [Even.congr (hsame fun _ => hgives)]
      exact iff_of_true h fun _ => .inl hgives
    by_cases hfails : Fails d e
    · -- what the call holds is given up
      have hzero : ∀ w, sum' w = sum w - amount l w := fun w => by
        rw [hsum, hbefore, held_of_unserved hth' (hun.2 (.inr hfails)) hgives, zero_sub, sub_eq_add_neg]
      rcases hth.single with hnil | ⟨w₀, q, hq, htaken⟩
      · change taken l = [] at hnil
        rw [Even.congr fun w => by rw [hzero, amount_of_nil hnil, sub_zero]]
        exact iff_of_true h fun _ => .inr (by simp [hnil])
      · change taken l = [(w₀, q)] at htaken
        rw [h.drop_iff hq fun w => by rw [hzero, amount_of_singleton htaken]]
        simp [htaken, hgives, hfails]
    · rw [Even.congr (hsame fun h' => (hun.1 h').elim hg.2.1 fun h'' => absurd h'' hfails)]
      exact iff_of_true h fun h' => absurd h' hfails

end

/-! ## Runs -/

/-- What the calls hold in a window. -/
def total (p : QuotaPool) (w : Window) : ℤ := (p.threads.map fun th => held th w).sum

variable (d) in
/-- Every call is on its track, and the table is even with what the calls hold. -/
structure Booked (p : QuotaPool) : Prop where
  traced : p.Traced .free (exec d) (Guard d) (End d)
  readFree : p.ReadFree
  single : ∀ th ∈ p.threads, Single th.log
  even : Even d p.db.usage p.db.pruned (total p)

variable {p : QuotaPool} {m : QuotaMove}

theorem Booked.onTrack (h : Booked d p) (hth : th ∈ p.threads) : OnTrack d p.db th :=
  ⟨h.traced th hth, h.readFree th hth, h.single th hth⟩

theorem Booked.total_nonneg (h : Booked d p) (w : Window) : 0 ≤ total p w := by
  refine List.sum_nonneg fun x hx => ?_
  obtain ⟨th, hth, rfl⟩ := List.mem_map.1 hx
  exact held_nonneg (h.onTrack hth) w

theorem Booked.held_le_total (h : Booked d p) (hth : th ∈ p.threads) (w : Window) : held th w ≤ total p w :=
  le_sum_int (fun th => held th w) (fun _ hb => held_nonneg (h.onTrack hb) w) hth

theorem Booked.balanced (h : Booked d p) : Balanced d p where
  used := h.even.used
  pruned := h.even.pruned
  limit := h.even.limit
  refused := by
    rintro ⟨c, l, prog⟩ hth (rfl | rfl) hall
    · exact (h.traced _ hth p.db trivial trivial).2 rfl hall
    · exact (h.traced _ hth p.db trivial trivial).2 rfl hall

theorem Balanced.even (h : Balanced d p) : Even d p.db.usage p.db.pruned (total p) :=
  ⟨h.used, h.pruned, h.limit⟩

theorem Booked.single_step (h : Booked d p) :
    ∀ th ∈ (p.step (QuotaCall.start d) (exec d) m).threads, Single th.log := by
  obtain ⟨c, -, hp⟩ | ⟨-, hp⟩ | ⟨i, e, c, l, cmd, k, hi, -, hp⟩ := h.readFree.step_cases (QuotaCall.start d) (exec d) m
  · rw [hp]
    intro th hth
    rcases List.mem_append.1 hth with hth | hth
    · exact h.single th hth
    · obtain rfl := List.mem_singleton.1 hth
      exact .inl rfl
  · rw [hp]
    exact h.single
  · rw [hp]
    intro th hth
    rcases List.mem_or_eq_of_mem_set hth with hth | rfl
    · exact h.single th hth
    · exact (h.onTrack (List.mem_of_getElem? hi)).step.single

theorem Booked.step (h : Booked d p)
    (he : Even d (p.step (QuotaCall.start d) (exec d) m).db.usage (p.step (QuotaCall.start d) (exec d) m).db.pruned
      (total (p.step (QuotaCall.start d) (exec d) m))) : Booked d (p.step (QuotaCall.start d) (exec d) m) where
  traced := h.traced.step trivial trivial fun c s _ => follows_start c s
  readFree := h.readFree.step readFree_start
  single := h.single_step
  even := he

/-- **Step lemma**: a move keeps the books balanced exactly if its command keeps them. -/
theorem Booked.even_step_iff (h : Booked d p) :
    Even d (p.step (QuotaCall.start d) (exec d) m).db.usage (p.step (QuotaCall.start d) (exec d) m).db.pruned
      (total (p.step (QuotaCall.start d) (exec d) m)) ↔ Keeps d p m := by
  obtain ⟨c, hm, hp⟩ | ⟨hm, hp⟩ | ⟨i, e, c, l, cmd, k, hi, hm, hp⟩ :=
    h.readFree.step_cases (QuotaCall.start d) (exec d) m
  · rw [hp]
    refine iff_of_true ((Even.congr fun w => ?_).2 h.even) fun th e cmd h' => by simp [hm] at h'
    have hnew : held ⟨c, [], c.start d⟩ w = 0 := by
      unfold held
      split_ifs <;> rfl
    simp [total, hnew]
  · rw [hp]
    exact iff_of_true h.even fun th e cmd h' => by simp [hm] at h'
  · rw [hp]
    have hth := List.mem_of_getElem? hi
    have hkeeps : Keeps d p m ↔ KeepsBooks d ⟨c, l, .txn cmd k⟩ e cmd p.db := by
      refine ⟨fun h' => h' _ _ _ hm, fun h' th e' cmd' h'' => ?_⟩
      obtain ⟨rfl, rfl, rfl⟩ : (⟨c, l, .txn cmd k⟩ : QuotaThread) = th ∧ e = e' ∧ cmd = cmd' := by
        simpa [hm] using h''
      exact h'
    rw [hkeeps]
    exact h.even.commit_iff h.total_nonneg (h.onTrack hth) (h.held_le_total hth) fun w =>
      sum_set_int (fun th => held th w) hi

theorem Booked.accepts (h : Booked d p) : p.AtCommit (AcceptsWhatFits d) m := by
  intro e cmd hm
  obtain ⟨i, o, hgo⟩ : ∃ i o, m = .go i o := by
    cases m with
    | call c => cases hm
    | go i o => exact ⟨i, o, rfl⟩
  subst hgo
  obtain ⟨rfl, c, l, k, hi⟩ := Pool.committing_go hm
  have hg : Guard d c l cmd p.db := h.traced.committing trivial hi
  cases cmd with
  | consume w quantity maxPerWindow =>
    obtain ⟨-, -, -, -, -, limit, hl, rfl, hmax⟩ := hg
    refine (exec_consume hmax).2.1.trans ⟨fun hfits => ⟨limit, hl, hfits⟩, ?_⟩
    rintro ⟨limit', hl', hfits⟩
    obtain rfl := Option.some.inj (hl.symm.trans hl')
    exact hfits
  | recordUsage w quantity => exact hg.2.2.2.2.2
  | now | usage w | refund w quantity | pruneUsage shard now cutoff batchSize | dispatch => trivial

theorem booked_idle {clock : ℕ} : Booked d (Pool.idle ⟨clock, .empty, []⟩) where
  traced := .idle
  readFree := fun _ h => (List.not_mem_nil h).elim
  single := fun _ h => (List.not_mem_nil h).elim
  even := ⟨fun _ _ => rfl, fun _ h => (List.not_mem_nil h).elim, fun _ limit _ => Int.natCast_nonneg limit.maxPerWindow⟩

/-- One tenant with a limit, and one provider. -/
theorem second_pos : 0 < 1000 := by decide

def oneTenant : Deployment where
  limits tenantId resource :=
    if tenantId = "tenant_1" ∧ resource = "llm_tokens" then some ⟨10, 1000, second_pos⟩ else none
  shardOf _ := 0
  shards := [0]
  fallbacks := 0

/-- The provider refuses to embed a text of four characters. -/
def refusedEmbedding : List QuotaMove :=
  .call (.embed "tenant_1" [4] none) :: List.replicate 3 (.go 0 ⟨0, fun _ => 0, fun _ => .refused "invalid"⟩)

end ChronoSynth.Tenancy

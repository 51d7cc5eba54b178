import Mathlib.Algebra.BigOperators.Group.List.Basic
import Mathlib.Algebra.GroupWithZero.Nat
import Mathlib.Data.List.Nodup
import Mathlib.Data.List.Sigma
import Mathlib.Data.Prod.Lex
import ChronoSynth.Lib.IsoTime
import ChronoSynth.Lib.RowMap
import ChronoSynth.Lib.Run

/-!
# Budgets of tokens

`token-budget.ts`: what a tenant has used today and this month is summed over `llm_usage` and then kept in a cache of the
process, to which `recordUsage` adds. Any number of processes share the table; each has a cache of its own.

* A call of a model inserts its row and then tells a process what it has used. Between the two it straddles.
* Of a time only the day is used. The texts of a day and of a month are its fields.
* Checks of a budget, alerts and summaries all begin with `getUsage`, so they are one event.

What was used is the sum over the calls that have been recorded, with some of those that straddle (`Real`). `checks_real` says
which runs this holds for: a cache has to be loaded before every call that is recorded in it and after every other one.
-/

namespace ChronoSynth

namespace UtcTime

/-- The day of `toISOString().slice(0, 10)`. -/
def date (t : UtcTime) : ℕ ×ₗ ℕ ×ₗ ℕ := toLex (t.year, toLex (t.month, t.day))

/-- The month of `toISOString().slice(0, 7)`. -/
def yearMonth (t : UtcTime) : ℕ ×ₗ ℕ := toLex (t.year, t.month)

theorem yearMonth_mono {t t' : UtcTime} (h : t.date ≤ t'.date) : t.yearMonth ≤ t'.yearMonth := by
  rw [date, date, Prod.Lex.toLex_le_toLex] at h
  rw [yearMonth, yearMonth, Prod.Lex.toLex_le_toLex]
  rcases h with h | ⟨hyear, h⟩
  · exact .inl h
  · rw [Prod.Lex.toLex_le_toLex] at h
    rcases h with h | ⟨hmonth, -⟩
    · exact .inr ⟨hyear, h.le⟩
    · exact .inr ⟨hyear, hmonth.le⟩

end UtcTime

namespace Metering

/-! ## The service -/

structure UsageRow where
  tenantId : String
  totalTokens : ℕ
  recordedAt : UtcTime

structure UsageCache where
  tenantId : String
  dailyUsed : ℕ
  monthlyUsed : ℕ
  cacheDay : ℕ ×ₗ ℕ ×ₗ ℕ
  cacheMonth : ℕ ×ₗ ℕ

structure UsageSnapshot where
  dailyUsed : ℕ
  monthlyUsed : ℕ
  deriving DecidableEq

abbrev UsageCaches := RowMap UsageCache.tenantId

def MAX_CACHE_ENTRIES : ℕ := 10000

/-- `SELECT COALESCE(SUM(total_tokens), 0) FROM llm_usage WHERE tenant_id = ? AND recorded_at >= ?`. -/
def periodTotal (rows : List UsageRow) (tenantId : String) (since : UtcTime → Prop) [DecidablePred since] : ℕ :=
  ((rows.filter fun r => r.tenantId = tenantId ∧ since r.recordedAt).map UsageRow.totalTokens).sum

/-- The entry is of today. -/
def UsageCache.Live (now : UtcTime) (c : UsageCache) : Prop := c.cacheDay = now.date ∧ c.cacheMonth = now.yearMonth

instance (now : UtcTime) : DecidablePred (UsageCache.Live now) := fun _ => inferInstanceAs (Decidable (_ ∧ _))

/-- The entry that a look at the table makes. -/
def loaded (rows : List UsageRow) (now : UtcTime) (tenantId : String) : UsageCache :=
  ⟨tenantId, periodTotal rows tenantId (now.date ≤ ·.date), periodTotal rows tenantId (now.yearMonth ≤ ·.yearMonth),
    now.date, now.yearMonth⟩

/-- The oldest entry goes if there are too many. -/
def evict (caches : UsageCaches) : UsageCaches :=
  if caches.rows.length > MAX_CACHE_ENTRIES then
    match caches.rows with
    | [] => caches
    | oldest :: _ => caches.erase oldest.tenantId
  else caches

def liveEntry (caches : UsageCaches) (now : UtcTime) (tenantId : String) : Option UsageCache :=
  (caches.get? tenantId).filter fun c => c.Live now

def getUsage (rows : List UsageRow) (now : UtcTime) (caches : UsageCaches) (tenantId : String) :
    UsageSnapshot × UsageCaches :=
  match liveEntry caches now tenantId with
  | some c => (⟨c.dailyUsed, c.monthlyUsed⟩, caches)
  | none =>
    let c := loaded rows now tenantId
    (⟨c.dailyUsed, c.monthlyUsed⟩, evict (caches.set c))

def recordUsage (now : UtcTime) (caches : UsageCaches) (tenantId : String) (tokens : ℕ) : UsageCaches :=
  match liveEntry caches now tenantId with
  | some c => caches.set { c with dailyUsed := c.dailyUsed + tokens, monthlyUsed := c.monthlyUsed + tokens }
  | none => caches.erase tenantId

/-! ## Runs -/

structure Budgets where
  rows : List UsageRow
  /-- The calls, by their rows, whose `recordUsage` has returned. -/
  recorded : ℕ → Bool
  caches : ℕ → UsageCaches
  now : UtcTime

inductive BudgetEvent
  | tick (now : UtcTime)
  | insert (tenantId : String) (totalTokens : ℕ)
  | record (process call : ℕ)
  | check (process : ℕ) (tenantId : String)

namespace Budgets

/-- Nothing has been used. -/
def new (now : UtcTime) : Budgets := ⟨[], fun _ => false, fun _ => .empty, now⟩

def step (s : Budgets) : BudgetEvent → Budgets
  | .tick now => { s with now }
  | .insert tenantId totalTokens => { s with rows := s.rows ++ [⟨tenantId, totalTokens, s.now⟩] }
  | .record process call =>
    match s.rows[call]? with
    | none => s
    | some row =>
      if s.recorded call then s
      else
        { s with
          recorded := Function.update s.recorded call true
          caches := Function.update s.caches process
            (recordUsage s.now (s.caches process) row.tenantId row.totalTokens) }
  | .check process tenantId =>
    { s with caches := Function.update s.caches process (getUsage s.rows s.now (s.caches process) tenantId).2 }

/-- The tokens of the tenant's calls that meet a condition. -/
def tokens (rows : List UsageRow) (tenantId : String) (p : ℕ → UtcTime → Prop) [∀ n t, Decidable (p n t)] : ℕ :=
  (rows.zipIdx.map fun x => if x.1.tenantId = tenantId ∧ p x.2 x.1.recordedAt then x.1.totalTokens else 0).sum

/-- What was used today and this month by calls that have been recorded, and by these others. -/
def used (s : Budgets) (tenantId : String) (others : ℕ → Bool) : UsageSnapshot where
  dailyUsed := tokens s.rows tenantId fun n t => t.date = s.now.date ∧ (s.recorded n || others n) = true
  monthlyUsed := tokens s.rows tenantId fun n t => t.yearMonth = s.now.yearMonth ∧ (s.recorded n || others n) = true

/-- **The usage is real**: that of the recorded calls, up to calls that straddle. -/
def Real (s : Budgets) (tenantId : String) (usage : UsageSnapshot) : Prop :=
  ∃ straddling : ℕ → Bool, usage = s.used tenantId straddling

def ChecksReal (s : Budgets) : BudgetEvent → Prop
  | .check process tenantId => s.Real tenantId (getUsage s.rows s.now (s.caches process) tenantId).1
  | _ => True

/-- How many calls there were when a process last looked at the table for a tenant. -/
def noteLoad (s : Budgets) (seen : ℕ → String → ℕ) : BudgetEvent → ℕ → String → ℕ
  | .check process tenantId =>
    if liveEntry (s.caches process) s.now tenantId = none then
      Function.update seen process (Function.update (seen process) tenantId s.rows.length)
    else seen
  | _ => seen

/-- The clock goes on by whole days or not at all. A call is recorded in an entry that was loaded before its row was
inserted, on the same day, and any other entry of the tenant was loaded after. -/
def InOrder (x : Budgets × (ℕ → String → ℕ)) : BudgetEvent → Prop
  | .tick now => x.1.now.date ≤ now.date
  | .record process call => ∀ row, x.1.rows[call]? = some row → x.1.recorded call = false →
      ∀ j, liveEntry (x.1.caches j) x.1.now row.tenantId ≠ none →
        if j = process then x.2 j row.tenantId ≤ call ∧ row.recordedAt.date = x.1.now.date
        else call < x.2 j row.tenantId
  | _ => True

/-! ## Sums over the calls -/

section
variable {rows : List UsageRow} {row : UsageRow} {tenantId : String} {p q : ℕ → UtcTime → Prop}
  [∀ n t, Decidable (p n t)] [∀ n t, Decidable (q n t)] {call : ℕ}

theorem tokens_congr (h : ∀ n, ∀ r, rows[n]? = some r → r.tenantId = tenantId → (p n r.recordedAt ↔ q n r.recordedAt)) :
    tokens rows tenantId p = tokens rows tenantId q := by
  refine congrArg List.sum (List.map_congr_left fun x hx => if_congr (and_congr_right fun ht => ?_) rfl rfl)
  exact h x.2 x.1 (List.mem_zipIdx_iff_getElem?.1 hx) ht

theorem tokens_insert (h : ¬ p rows.length row.recordedAt) : tokens (rows ++ [row]) tenantId p = tokens rows tenantId p := by
  rw [tokens, List.zipIdx_append, List.map_append, List.sum_append]
  simp [tokens, h]

/-- The sum over the table is one over all calls. -/
theorem periodTotal_eq {since : UtcTime → Prop} [DecidablePred since] :
    periodTotal rows tenantId since = tokens rows tenantId fun _ t => since t := by
  have hfst : rows.zipIdx.map (fun x => if x.1.tenantId = tenantId ∧ since x.1.recordedAt then x.1.totalTokens else 0) =
      rows.map fun r => if r.tenantId = tenantId ∧ since r.recordedAt then r.totalTokens else 0 := by
    conv_rhs => rw [← List.zipIdx_map_fst 0 rows, List.map_map]
    rfl
  rw [tokens, hfst, periodTotal]
  clear hfst
  induction rows with
  | nil => rfl
  | cons r rows ih =>
    rw [List.map_cons, List.sum_cons, ← ih, List.filter_cons]
    by_cases hr : r.tenantId = tenantId ∧ since r.recordedAt
    · simp [hr]
    · simp [hr]

theorem tokens_record (hrow : rows[call]? = some row) (hsame : ∀ n ≠ call, ∀ t, p n t ↔ q n t)
    (hp : p call row.recordedAt) (hq : ¬ q call row.recordedAt) :
    tokens rows row.tenantId p = tokens rows row.tenantId q + row.totalTokens := by
  have hnodup := List.nodup_zipIdx_map_snd rows
  have hmem : (row, call) ∈ rows.zipIdx := List.mem_zipIdx_iff_getElem?.2 hrow
  obtain ⟨before, after, hsplit⟩ := List.append_of_mem hmem
  rw [hsplit, List.map_append, List.map_cons, List.nodup_middle, ← List.map_append, List.nodup_cons] at hnodup
  have hother : ∀ x ∈ before ++ after, (if x.1.tenantId = row.tenantId ∧ p x.2 x.1.recordedAt then x.1.totalTokens else 0) =
      if x.1.tenantId = row.tenantId ∧ q x.2 x.1.recordedAt then x.1.totalTokens else 0 := fun x hx =>
    if_congr (and_congr_right fun _ => hsame x.2 (fun hn => hnodup.1 (List.mem_map.2 ⟨x, hx, hn⟩)) _) rfl rfl
  simp only [tokens, hsplit, List.map_append, List.map_cons, List.sum_append, List.sum_cons, true_and, if_pos hp, if_neg hq]
  rw [List.map_congr_left fun x hx => hother x (List.mem_append_left _ hx),
    List.map_congr_left fun x hx => hother x (List.mem_append_right _ hx)]
  omega

end

/-! ## What a run keeps -/

/-- What the caches hold: the calls that have been recorded and those that were there when the table was looked at. -/
structure Counted (x : Budgets × (ℕ → String → ℕ)) : Prop where
  past : ∀ row ∈ x.1.rows, row.recordedAt.date ≤ x.1.now.date
  inserted : ∀ n, x.1.recorded n = true → n < x.1.rows.length
  days : ∀ j, ∀ c ∈ (x.1.caches j).rows, c.cacheDay ≤ x.1.now.date
  seen : ∀ j tenantId, x.2 j tenantId ≤ x.1.rows.length
  live : ∀ j tenantId, ∀ c ∈ liveEntry (x.1.caches j) x.1.now tenantId,
    ⟨c.dailyUsed, c.monthlyUsed⟩ = x.1.used tenantId fun n => n < x.2 j tenantId

section
variable {s : Budgets} {seen : ℕ → String → ℕ} {tenantId : String} {caches : UsageCaches} {now : UtcTime} {c : UsageCache}

theorem mem_liveEntry : c ∈ liveEntry caches now tenantId ↔ caches.get? tenantId = some c ∧ c.Live now := by
  simp [liveEntry, Option.mem_def, Option.filter_eq_some_iff]

theorem loaded_eq (h : ∀ row ∈ s.rows, row.recordedAt.date ≤ s.now.date) {others : ℕ → Bool}
    (hall : ∀ n < s.rows.length, (s.recorded n || others n) = true) :
    ⟨(loaded s.rows s.now tenantId).dailyUsed, (loaded s.rows s.now tenantId).monthlyUsed⟩ = s.used tenantId others := by
  have hrow : ∀ {n : ℕ} {r : UsageRow}, s.rows[n]? = some r →
      r.recordedAt.date ≤ s.now.date ∧ (s.recorded n || others n) = true := fun hr =>
    ⟨h _ (List.mem_of_getElem? hr), hall _ (List.getElem?_eq_some_iff.1 hr).1⟩
  simp only [used, loaded, periodTotal_eq, UsageSnapshot.mk.injEq]
  constructor
  · refine tokens_congr fun n r hr _ => ?_
    obtain ⟨hle, hn⟩ := hrow hr
    exact ⟨fun hge => ⟨hle.antisymm hge, hn⟩, fun heq => heq.1.ge⟩
  · refine tokens_congr fun n r hr _ => ?_
    obtain ⟨hle, hn⟩ := hrow hr
    exact ⟨fun hge => ⟨(UtcTime.yearMonth_mono hle).antisymm hge, hn⟩, fun heq => heq.1.ge⟩

theorem Counted.real {x : Budgets × (ℕ → String → ℕ)} (h : Counted x) (e : BudgetEvent) : x.1.ChecksReal e := by
  cases e with
  | tick now => trivial
  | insert tenantId totalTokens => trivial
  | record process call => trivial
  | check process tenantId =>
    change x.1.Real tenantId _
    unfold getUsage
    split
    next c hc => exact ⟨_, h.live process tenantId c hc⟩
    next => exact ⟨fun _ => true, loaded_eq h.past fun n _ => Bool.or_true _⟩

theorem get?_evict : (evict caches).get? tenantId = caches.get? tenantId ∨ (evict caches).get? tenantId = none := by
  unfold evict
  split
  · split
    · exact .inl rfl
    · rw [RowMap.get?_erase]
      split
      · exact .inr rfl
      · exact .inl rfl
  · exact .inl rfl

theorem mem_evict (h : c ∈ (evict caches).rows) : c ∈ caches.rows := by
  unfold evict at h
  split at h
  · split at h
    · exact h
    · exact (List.mem_filter.1 h).1
  · exact h

theorem liveEntry_getUsage {tenantId' : String} (h : c ∈ liveEntry (getUsage s.rows now caches tenantId).2 now tenantId') :
    c ∈ liveEntry caches now tenantId' ∧ (tenantId' = tenantId → liveEntry caches now tenantId ≠ none) ∨
      liveEntry caches now tenantId = none ∧ tenantId' = tenantId ∧ c = loaded s.rows now tenantId := by
  unfold getUsage at h
  split at h
  next c' hc' =>
    exact .inl ⟨h, fun _ hnone => by rw [hc'] at hnone; cases hnone⟩
  next hnone =>
    obtain ⟨hget, hlive⟩ := mem_liveEntry.1 h
    have hevict : (evict (caches.set (loaded s.rows now tenantId))).get? tenantId' =
        (caches.set (loaded s.rows now tenantId)).get? tenantId' ∨
        (evict (caches.set (loaded s.rows now tenantId))).get? tenantId' = none := get?_evict
    rcases hevict with heq | heq
    · rw [heq, RowMap.get?_set] at hget
      split at hget
      next ht => exact .inr ⟨hnone, ht, (Option.some.inj hget).symm⟩
      next ht => exact .inl ⟨mem_liveEntry.2 ⟨hget, hlive⟩, fun he => absurd he ht⟩
    · rw [heq] at hget
      cases hget

theorem liveEntry_recordUsage {tenantId' : String} {tokens : ℕ}
    (h : c ∈ liveEntry (recordUsage now caches tenantId tokens) now tenantId') :
    tenantId' ≠ tenantId ∧ c ∈ liveEntry caches now tenantId' ∨
      tenantId' = tenantId ∧ ∃ c' ∈ liveEntry caches now tenantId, c.dailyUsed = c'.dailyUsed + tokens ∧
        c.monthlyUsed = c'.monthlyUsed + tokens := by
  obtain ⟨hget, hlive⟩ := mem_liveEntry.1 h
  unfold recordUsage at hget
  split at hget
  next c' hc' =>
    have htenant := RowMap.key_of_get? (mem_liveEntry.1 (Option.mem_def.2 hc')).1
    rw [RowMap.get?_set] at hget
    split at hget
    next ht =>
      obtain rfl := Option.some.inj hget
      exact .inr ⟨ht.trans htenant, c', hc', rfl, rfl⟩
    next ht => exact .inl ⟨fun he => ht (he.trans htenant.symm), mem_liveEntry.2 ⟨hget, hlive⟩⟩
  next =>
    rw [RowMap.get?_erase] at hget
    split at hget
    · cases hget
    next ht => exact .inl ⟨ht, mem_liveEntry.2 ⟨hget, hlive⟩⟩

theorem mem_recordUsage {tokens : ℕ} (h : c ∈ (recordUsage now caches tenantId tokens).rows) :
    ∃ c' ∈ caches.rows, c.cacheDay = c'.cacheDay := by
  unfold recordUsage at h
  split at h
  next c' hc' =>
    rcases RowMap.mem_set.1 h with rfl | ⟨hmem, -⟩
    · exact ⟨c', (RowMap.get?_eq_some.1 (mem_liveEntry.1 (Option.mem_def.2 hc')).1).1, rfl⟩
    · exact ⟨c, hmem, rfl⟩
  next => exact ⟨c, (List.mem_filter.1 h).1, rfl⟩

theorem mem_getUsage (h : c ∈ (getUsage s.rows now caches tenantId).2.rows) :
    c ∈ caches.rows ∨ c.cacheDay = now.date := by
  unfold getUsage at h
  split at h
  · exact .inl h
  · rcases RowMap.mem_set.1 (mem_evict h) with rfl | ⟨hmem, -⟩
    · exact .inr rfl
    · exact .inl hmem

theorem counted_new : Counted (new now, fun _ _ => 0) where
  past _ h := nomatch h
  inserted _ h := by cases h
  days _ _ h := by cases h
  seen _ _ := Nat.le_refl _
  live _ _ _ h := by cases h

variable {x : Budgets × (ℕ → String → ℕ)}

/-- The clock goes on. What a cache holds is of today only if the day is the same. -/
theorem Counted.tick (h : Counted x) (hle : x.1.now.date ≤ now.date) :
    Counted (noting step noteLoad x (.tick now)) where
  past row hrow := (h.past row hrow).trans hle
  inserted := h.inserted
  days j c hc := (h.days j c hc).trans hle
  seen := h.seen
  live j tenantId c hc := by
    obtain ⟨hget, hlive⟩ := mem_liveEntry.1 hc
    have hdate : x.1.now.date = now.date :=
      hle.antisymm (hlive.1 ▸ h.days j c (RowMap.get?_eq_some.1 hget).1)
    have hmonth : x.1.now.yearMonth = now.yearMonth :=
      (UtcTime.yearMonth_mono hdate.le).antisymm (UtcTime.yearMonth_mono hdate.ge)
    have hbefore := h.live j tenantId c (mem_liveEntry.2 ⟨hget, by rw [UsageCache.Live, hdate, hmonth]; exact hlive⟩)
    rw [hbefore, used, used, hdate, hmonth]
    rfl

theorem Counted.insert (h : Counted x) (totalTokens : ℕ) :
    Counted (noting step noteLoad x (.insert tenantId totalTokens)) where
  past row hrow := by
    rcases List.mem_append.1 hrow with hrow | hrow
    · exact h.past row hrow
    · rw [List.mem_singleton.1 hrow]
      exact le_rfl
  inserted n hn := by
    change n < (x.1.rows ++ _).length
    rw [List.length_append]
    exact Nat.lt_add_right _ (h.inserted n hn)
  days := h.days
  seen j tenantId' := by
    change _ ≤ (x.1.rows ++ _).length
    rw [List.length_append]
    exact (h.seen j tenantId').trans (Nat.le_add_right _ _)
  live j tenantId' c hc := by
    have hnew : (x.1.recorded x.1.rows.length || decide (x.1.rows.length < x.2 j tenantId')) = false := by
      rw [Bool.or_eq_false_iff, decide_eq_false_iff_not, Nat.not_lt]
      exact ⟨Bool.eq_false_iff.2 fun hr => (h.inserted _ hr).ne rfl, h.seen j tenantId'⟩
    rw [h.live j tenantId' c hc]
    simp only [used, noting, step, noteLoad, UsageSnapshot.mk.injEq]
    constructor
    · exact (tokens_insert (by simp [hnew])).symm
    · exact (tokens_insert (by simp [hnew])).symm

theorem Counted.check (h : Counted x) (process : ℕ) (tenantId : String) :
    Counted (noting step noteLoad x (.check process tenantId)) where
  past := h.past
  inserted := h.inserted
  days j c hc := by
    by_cases hj : j = process
    · subst hj
      simp only [noting, step, Function.update_self] at hc
      rcases mem_getUsage hc with hc | hc
      · exact h.days j c hc
      · exact hc.le
    · simp only [noting, step, Function.update_of_ne hj] at hc
      exact h.days j c hc
  seen j tenantId' := by
    simp only [noting, step, noteLoad]
    split
    · by_cases hj : j = process
      · subst hj
        rw [Function.update_self]
        by_cases ht : tenantId' = tenantId
        · subst ht
          rw [Function.update_self]
        · rw [Function.update_of_ne ht]
          exact h.seen j tenantId'
      · rw [Function.update_of_ne hj]
        exact h.seen j tenantId'
    · exact h.seen j tenantId'
  live j tenantId' c hc := by
    change _ = x.1.used tenantId' fun n => n < noteLoad x.1 x.2 (.check process tenantId) j tenantId'
    by_cases hj : j = process
    · subst hj
      simp only [noting, step, Function.update_self] at hc
      rcases liveEntry_getUsage hc with ⟨hold, hne⟩ | ⟨hnone, rfl, rfl⟩
      · have hseen : noteLoad x.1 x.2 (.check j tenantId) j tenantId' = x.2 j tenantId' := by
          simp only [noteLoad]
          split
          next hload =>
            rw [Function.update_self, Function.update_of_ne fun ht => hne ht hload]
          next => rfl
        rw [hseen]
        exact h.live j tenantId' c hold
      · refine loaded_eq h.past fun n hn => ?_
        simp [noteLoad, hnone, hn]
    · simp only [noting, step, Function.update_of_ne hj] at hc
      have hseen : noteLoad x.1 x.2 (.check process tenantId) j tenantId' = x.2 j tenantId' := by
        simp only [noteLoad]
        split
        · rw [Function.update_of_ne hj]
        · rfl
      rw [hseen]
      exact h.live j tenantId' c hc

theorem used_record {call : ℕ} {row : UsageRow} {caches : ℕ → UsageCaches} (hrow : s.rows[call]? = some row)
    (hnot : s.recorded call = false) (others : ℕ → Bool) :
    { s with recorded := Function.update s.recorded call true, caches }.used tenantId others =
      if tenantId = row.tenantId ∧ others call = false then
        ⟨(s.used tenantId others).dailyUsed + if row.recordedAt.date = s.now.date then row.totalTokens else 0,
          (s.used tenantId others).monthlyUsed + if row.recordedAt.yearMonth = s.now.yearMonth then row.totalTokens else 0⟩
      else s.used tenantId others := by
  have hupdate : ∀ n, (Function.update s.recorded call true n || others n) =
      if n = call then true else s.recorded n || others n := fun n => by
    by_cases hn : n = call
    · simp [hn]
    · simp [hn]
  split
  next h =>
    obtain ⟨rfl, hothers⟩ := h
    have hbefore : (s.recorded call || others call) = false := by rw [hnot, hothers]; rfl
    simp only [used, UsageSnapshot.mk.injEq]
    constructor
    · split
      next hdate =>
        exact tokens_record hrow (fun n hn t => by rw [hupdate, if_neg hn]) (by rw [hupdate]; simp [hdate]) (by simp [hbefore])
      next hdate =>
        refine (tokens_congr fun n r hr ht => and_congr_right fun hd => ?_).trans (Nat.add_zero _).symm
        rw [hupdate, if_neg]
        rintro rfl
        rw [hrow] at hr
        exact hdate (Option.some.inj hr ▸ hd)
    · split
      next hdate =>
        exact tokens_record hrow (fun n hn t => by rw [hupdate, if_neg hn]) (by rw [hupdate]; simp [hdate]) (by simp [hbefore])
      next hdate =>
        refine (tokens_congr fun n r hr ht => and_congr_right fun hd => ?_).trans (Nat.add_zero _).symm
        rw [hupdate, if_neg]
        rintro rfl
        rw [hrow] at hr
        exact hdate (Option.some.inj hr ▸ hd)
  next h =>
    simp only [used, UsageSnapshot.mk.injEq]
    have hsame : ∀ n r, s.rows[n]? = some r → r.tenantId = tenantId →
        (Function.update s.recorded call true n || others n) = (s.recorded n || others n) := fun n r hr ht => by
      rw [hupdate]
      split
      next hn =>
        subst hn
        rw [hrow] at hr
        have htrue : others n = true := Bool.not_eq_false _ ▸ fun hf => h ⟨by rw [← ht, Option.some.inj hr], hf⟩
        rw [htrue, Bool.or_true]
      next => rfl
    exact ⟨tokens_congr fun n r hr ht => by rw [hsame n r hr ht], tokens_congr fun n r hr ht => by rw [hsame n r hr ht]⟩

theorem Counted.record (h : Counted x) {process call : ℕ} (hin : InOrder x (.record process call)) :
    Counted (noting step noteLoad x (.record process call)) := by
  cases hrow : x.1.rows[call]? with
  | none =>
    have hstep : noting step noteLoad x (.record process call) = x := by simp only [noting, step, hrow, noteLoad]
    rwa [hstep]
  | some row =>
    by_cases hnot : x.1.recorded call = true
    · have hstep : noting step noteLoad x (.record process call) = x := by
        simp only [noting, step, hrow, noteLoad, if_pos hnot]
      rwa [hstep]
    replace hnot := Bool.eq_false_iff.2 hnot
    have hstep : noting step noteLoad x (.record process call) =
        ({ x.1 with
            recorded := Function.update x.1.recorded call true
            caches := Function.update x.1.caches process
              (recordUsage x.1.now (x.1.caches process) row.tenantId row.totalTokens) }, x.2) := by
      simp only [noting, step, hrow, noteLoad, hnot, Bool.false_eq_true, if_false]
    rw [hstep]
    have hlive := hin row hrow hnot
    refine ⟨h.past, fun n hn => ?_, fun j c hc => ?_, h.seen, fun j tenantId c hc => ?_⟩
    · by_cases hcall : n = call
      · subst hcall
        exact (List.getElem?_eq_some_iff.1 hrow).1
      · exact h.inserted n (by simpa [Function.update_of_ne hcall] using hn)
    · by_cases hj : j = process
      · subst hj
        simp only [Function.update_self] at hc
        obtain ⟨c', hc', hday⟩ := mem_recordUsage hc
        exact hday ▸ h.days j c' hc'
      · simp only [Function.update_of_ne hj] at hc
        exact h.days j c hc
    · rw [used_record hrow hnot]
      by_cases hj : j = process
      · subst hj
        simp only [Function.update_self] at hc
        rcases liveEntry_recordUsage hc with ⟨hne, hold⟩ | ⟨rfl, c', hold, hdaily, hmonthly⟩
        · rw [if_neg fun hand => hne hand.1]
          exact h.live j tenantId c hold
        · have hentry := hlive j (by rw [Option.mem_def.1 hold]; exact Option.some_ne_none _)
          rw [if_pos rfl] at hentry
          obtain ⟨hseen, hdate⟩ := hentry
          have hmonth : row.recordedAt.yearMonth = x.1.now.yearMonth :=
            (UtcTime.yearMonth_mono hdate.le).antisymm (UtcTime.yearMonth_mono hdate.ge)
          rw [if_pos ⟨rfl, decide_eq_false (Nat.not_lt.2 hseen)⟩, if_pos hdate, if_pos hmonth, hdaily, hmonthly,
            ← h.live j _ c' hold]
      · simp only [Function.update_of_ne hj] at hc
        rw [if_neg]
        · exact h.live j tenantId c hc
        · rintro ⟨rfl, hseen⟩
          have hentry := hlive j (by rw [Option.mem_def.1 hc]; exact Option.some_ne_none _)
          rw [if_neg hj] at hentry
          exact of_decide_eq_false hseen hentry

/-- **One event.** -/
theorem Counted.step (h : Counted x) {e : BudgetEvent} (hin : InOrder x e) : Counted (noting Budgets.step noteLoad x e) := by
  cases e with
  | tick now => exact h.tick hin
  | insert tenantId totalTokens => exact h.insert totalTokens
  | record process call => exact h.record hin
  | check process tenantId => exact h.check process tenantId

/-- **Budgets use the real usage** in a run in which every cache was loaded before the calls that are recorded in it, on the
same day, and after all other calls that are recorded. -/
theorem checks_real (now : UtcTime) (events : List BudgetEvent)
    (h : Along (noting Budgets.step noteLoad) InOrder (new now, fun _ _ => 0) events) :
    Along Budgets.step ChecksReal (new now) events := by
  have hcounted : Always (noting Budgets.step noteLoad) Counted (new now, fun _ _ => 0) events :=
    Always.of_step counted_new (fun _ _ hx hin => hx.step hin) h
  intro pre e hpre
  have hreal := (hcounted pre ((List.prefix_append _ _).trans hpre)).real e
  rwa [run_noting] at hreal

end

/-! ## Two processes -/

/-- A process looks, a call is made, and a process is told. -/
def callBetween (process : ℕ) : List BudgetEvent :=
  [.check 0 "t1", .insert "t1" 10, .record process 0]

/-- If the same process is told, its next check uses the tokens. -/
theorem checks_real_one : Along Budgets.step ChecksReal (new .newYear) (callBetween 0 ++ [.check 0 "t1"]) := by
  refine checks_real _ _ (along_snoc.2 ⟨?_, trivial⟩)
  refine along_cons.2 ⟨trivial, along_cons.2 ⟨trivial, along_cons.2 ⟨?_, along_nil⟩⟩⟩
  intro row hrow _ j hj
  obtain rfl := Option.some.inj hrow
  by_cases hprocess : j = 0
  · subst hprocess
    exact ⟨Nat.le_refl 0, rfl⟩
  · refine absurd ?_ hj
    simp only [noting, Budgets.step, Function.update_of_ne hprocess]
    rfl

/-- If another one is told, it does not. -/
theorem not_checks_real : ¬ ∀ (now : UtcTime) (events : List BudgetEvent),
    Along Budgets.step ChecksReal (new now) events := by
  intro h
  obtain ⟨straddling, hused⟩ := (h .newYear (callBetween 1 ++ [.check 0 "t1"])).last
  have hdaily := congrArg UsageSnapshot.dailyUsed hused
  have hcached : (getUsage (run Budgets.step (new .newYear) (callBetween 1)).rows .newYear
      ((run Budgets.step (new .newYear) (callBetween 1)).caches 0) "t1").1.dailyUsed = 0 := by decide
  have hrecorded : ((run Budgets.step (new .newYear) (callBetween 1)).used "t1" straddling).dailyUsed = 10 := rfl
  exact absurd (hcached.symm.trans (hdaily.trans hrecorded)) (by decide)

end Budgets

end Metering

end ChronoSynth

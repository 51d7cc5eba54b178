import ChronoSynth.Lib.JsText
import ChronoSynth.Lib.Tickets
import ChronoSynth.Metering.BillingOutbox

/-!
# Sources

What is to hold after every run: two calls that name a source are in one row exactly if they are of one
tenant, one event and one source; a call that names none shares no row with one that does, nor with one made
for another operation; and a call returns `false` exactly if it has added no row (`MeteredOnce`).

A key joins its parts by colons, which the parts may contain, and the clock and the counter that stand in for
a source are those of one process. The rows are as they are to be exactly if no two keys are confused
(`meteredOnce_iff`).
-/

namespace ChronoSynth.Metering

variable {shardOf : String → ℕ} {e : Env} {cmd : OutboxCmd} {db : OutboxState} {row row' : OutboxRow}
  {p : OutboxPool} {m : OutboxMove} {ms : List OutboxMove} {i j : ℕ} {a b : EnqueueParams}

/-! ## What is claimed -/

/-- The calls name one source. -/
def EnqueueParams.Same (a b : EnqueueParams) : Prop :=
  a.sourceId.isSome ∧ a.tenantId = b.tenantId ∧ a.eventName = b.eventName ∧ a.sourceId = b.sourceId

/-- The calls name different sources, or one of them names none and they are for different operations. -/
def EnqueueParams.Apart (a b : EnqueueParams) : Prop :=
  (a.sourceId.isSome ∨ b.sourceId.isSome ∨ a.operation ≠ b.operation) ∧ ¬ a.Same b

/-- The `i`-th call has come to the row: it has added it, or has found it there. -/
def Enqueued (p : OutboxPool) (i : ℕ) (a : EnqueueParams) (row : OutboxRow) : Prop :=
  ∃ th, p.threads[i]? = some th ∧ th.call = .enqueue a ∧ row ∈ p.db.rows ∧
    ∃ tenantId customerId eventName quantity now reply,
      (OutboxCmd.enqueue row.shard tenantId customerId eventName quantity row.idempotencyKey now, reply) ∈
        th.log

/-- An `enqueue` is answered with the number of rows it has added. -/
def Counts (e : Env) (cmd : OutboxCmd) (db : OutboxState) : Prop :=
  ∀ shard tenantId customerId eventName quantity key now,
    cmd = .enqueue shard tenantId customerId eventName quantity key now →
      (exec e cmd db).1.rows.length = db.rows.length + (exec e cmd db).2.rowsAffected

/-- A call returns whether its `enqueue` has added a row. -/
def Returned (p : OutboxPool) : Prop :=
  ∀ th ∈ p.threads, ∀ a added, th.call = .enqueue a → th.prog = .ret (.enqueued added) →
    ∃ shard tenantId customerId eventName quantity key now reply,
      (OutboxCmd.enqueue shard tenantId customerId eventName quantity key now, reply) ∈ th.log ∧
        added = decide (0 < reply.rowsAffected)

structure MeteredOnce (shardOf : String → ℕ) (ms : List OutboxMove) : Prop where
  same : ∀ i j a b row row', Enqueued (run (OutboxPool.step shardOf) .init ms) i a row →
    Enqueued (run (OutboxPool.step shardOf) .init ms) j b row' → a.Same b → row = row'
  apart : ∀ i j a b row row', Enqueued (run (OutboxPool.step shardOf) .init ms) i a row →
    Enqueued (run (OutboxPool.step shardOf) .init ms) j b row' → a.Apart b → row ≠ row'
  counts : Along (OutboxPool.step shardOf) (Pool.AtCommit Counts) .init ms
  returned : Returned (run (OutboxPool.step shardOf) .init ms)

/-! ## The condition -/

/-- What stands last in a key. -/
inductive Suffix
  | source (sourceId : String)
  | fallback (now : ℤ) (seq : ℕ)
  deriving DecidableEq

def Suffix.text : Suffix → String
  | .source sourceId => sourceId
  | .fallback now seq => fallbackSuffix now seq

/-- The suffix of a call: the source that it names, or what it has drawn. -/
def Suffix.of (a : EnqueueParams) (log : List (OutboxCmd × OutboxReply)) : Option Suffix :=
  match a.source with
  | some sourceId => some (.source sourceId)
  | none => log.head?.map fun x => .fallback x.2.fallback.1 x.2.fallback.2

def OutboxCmd.IsEnqueue : OutboxCmd → Prop
  | .enqueue .. => True
  | _ => False

/-- The `i`-th call has enqueued its event under this suffix. -/
def Suffixed (p : OutboxPool) (i : ℕ) (a : EnqueueParams) (x : Suffix) : Prop :=
  ∃ th, p.threads[i]? = some th ∧ th.call = .enqueue a ∧ (∃ y ∈ th.log, y.1.IsEnqueue) ∧
    Suffix.of a th.log = some x

/-- The colons of tenant and event lie at the same places. -/
def EnqueueParams.Blur (a b : EnqueueParams) (s s' : String) : Prop :=
  pieces a.tenantId ++ pieces a.eventName ++ pieces s = pieces b.tenantId ++ pieces b.eventName ++ pieces s'

/-- No two keys are confused. -/
structure Unconfused (shardOf : String → ℕ) (p : OutboxPool) : Prop where
  /-- Texts that are the same between their colons are the same. -/
  sources : ∀ i j a b s s', Suffixed p i a (.source s) → Suffixed p j b (.source s') →
    shardOf a.tenantId = shardOf b.tenantId → a.Blur b s s' →
      a.tenantId = b.tenantId ∧ a.eventName = b.eventName ∧ s = s'
  /-- No source looks like the clock and the counter of a call that names none. -/
  mixed : ∀ i j a b s now seq, Suffixed p i a (.source s) → Suffixed p j b (.fallback now seq) →
    shardOf a.tenantId = shardOf b.tenantId → ¬ a.Blur b s (fallbackSuffix now seq)
  /-- Processes whose clocks and counters agree do not meter different operations of one event. -/
  fallbacks : ∀ i j a b now seq, Suffixed p i a (.fallback now seq) → Suffixed p j b (.fallback now seq) →
    a.process ≠ b.process → shardOf a.tenantId = shardOf b.tenantId → a.Apart b →
      pieces a.tenantId ++ pieces a.eventName ≠ pieces b.tenantId ++ pieces b.eventName
  /-- The empty source, which counts as none, is not named by two calls that draw something else. -/
  empty : ∀ i j a b x y, Suffixed p i a x → Suffixed p j b y → a.Same b → a.sourceId = some "" → x = y

/-! ## Keys -/

theorem pieces_key (tenantId eventName suffix : String) :
    pieces (idempotencyKey tenantId eventName suffix) =
      pieces tenantId ++ pieces eventName ++ pieces suffix := by
  rw [idempotencyKey, String.append_assoc, ← String.append_assoc, pieces_append, pieces_append,
    List.append_assoc]

/-- The clock and the counter can be read off what stands for a source. -/
theorem pieces_fallback (now : ℤ) (seq : ℕ) :
    pieces (fallbackSuffix now seq) = [(toString now).toList, (toString seq).toList] := by
  have hnow : pieces (toString now) = [(toString now).toList] :=
    List.splitOn_eq_singleton (colon_notMem_toString now)
  have hseq : pieces (toString seq) = [(toString seq).toList] :=
    List.splitOn_eq_singleton (notMem_repr (by decide) seq)
  rw [fallbackSuffix, pieces_append, hnow, hseq]
  rfl

theorem key_eq_iff {t t' n n' s s' : String} : idempotencyKey t n s = idempotencyKey t' n' s' ↔
    pieces t ++ pieces n ++ pieces s = pieces t' ++ pieces n' ++ pieces s' := by
  rw [← pieces_inj, pieces_key, pieces_key]

/-- Two keys without a source are one if the clocks, the counters and the rest agree. -/
theorem fallback_key_iff {t t' n n' : String} {now now' : ℤ} {seq seq' : ℕ} :
    idempotencyKey t n (fallbackSuffix now seq) = idempotencyKey t' n' (fallbackSuffix now' seq') ↔
      pieces t ++ pieces n = pieces t' ++ pieces n' ∧ now = now' ∧ seq = seq' := by
  rw [key_eq_iff, pieces_fallback, pieces_fallback]
  constructor
  · intro h
    obtain ⟨hrest, hlast⟩ := List.append_inj' h rfl
    simp only [List.cons.injEq, and_true, String.toList_inj] at hlast
    exact ⟨hrest, toString_int_injective hlast.1, toString_nat_injective hlast.2⟩
  · rintro ⟨hrest, rfl, rfl⟩
    rw [hrest]

theorem fallbackSuffix_inj {now now' : ℤ} {seq seq' : ℕ}
    (h : fallbackSuffix now seq = fallbackSuffix now' seq') : now = now' ∧ seq = seq' :=
  (fallback_key_iff.1 (congrArg (idempotencyKey "" "") h)).2

/-! ## What a call does -/

/-- What a call of `enqueue` hands over after what it has had executed. -/
def Enqueues (shardOf : String → ℕ) (a : EnqueueParams) (log : List (OutboxCmd × OutboxReply)) :
    OutboxCmd → Prop
  | .nextFallback process => process = a.process ∧ log = []
  | .enqueue shard _ _ _ _ key _ => shard = shardOf a.tenantId ∧
    ∃ x, Suffix.of a log = some x ∧ key = idempotencyKey a.tenantId a.eventName x.text
  | _ => False

/-- What a call of `enqueue` returns. -/
def Returns (log : List (OutboxCmd × OutboxReply)) (r : Except String OutboxResult) : Prop :=
  ∀ added, r = .ok (.enqueued added) → ∃ shard tenantId customerId eventName quantity key now reply,
    (OutboxCmd.enqueue shard tenantId customerId eventName quantity key now, reply) ∈ log ∧
      added = decide (0 < reply.rowsAffected)

def OutboxCall.Hands (shardOf : String → ℕ) (call : OutboxCall) (log : List (OutboxCmd × OutboxReply))
    (cmd : OutboxCmd) (_ : OutboxState) : Prop :=
  match call with
  | .enqueue a => Enqueues shardOf a log cmd
  | .flush .. => ¬ cmd.IsEnqueue

def OutboxCall.Ends (call : OutboxCall) (log : List (OutboxCmd × OutboxReply))
    (r : Except String OutboxResult) (_ : OutboxState) : Prop :=
  match call with
  | .enqueue _ => Returns log r
  | .flush .. => True

theorem flushRow_quiet (row : OutboxRow) : (flushRow row).Uses fun cmd => ¬ cmd.IsEnqueue := by
  refine Prog.Uses.bind (.transaction id) fun result => ?_
  split
  · trivial
  · refine Prog.Uses.bind (.transaction id) fun reply => ?_
    split
    · exact fun _ _ => ⟨id, fun _ => trivial⟩
    · exact ⟨id, fun _ => trivial⟩

theorem flushRows_quiet (rows : List OutboxRow) : (flushRows rows).Uses fun cmd => ¬ cmd.IsEnqueue := by
  induction rows with
  | nil => trivial
  | cons row rows ih => exact (flushRow_quiet row).bind fun r => ih.bind fun rest => trivial

theorem flush_quiet (batchSize : ℕ) (shards : List ℕ) :
    (flush batchSize shards).Uses fun cmd => ¬ cmd.IsEnqueue := by
  induction shards with
  | nil => trivial
  | cons shard shards ih =>
    refine Prog.Uses.bind (Prog.Uses.bind (.transaction id) fun _ => ?_) fun r =>
      ih.bind fun rest => trivial
    exact fun _ _ => flushRows_quiet _

theorem enqueue_hands (a : EnqueueParams) (s : OutboxState) :
    (OutboxCall.start shardOf (.enqueue a)).Traces .free exec (OutboxCall.Hands shardOf (.enqueue a))
      (OutboxCall.Ends (.enqueue a)) [] s := by
  have hret : ∀ (log : List (OutboxCmd × OutboxReply)) shard tenantId customerId eventName quantity key now
      reply, Returns (log ++ [(OutboxCmd.enqueue shard tenantId customerId eventName quantity key now, reply)])
        (.ok (.enqueued (decide (0 < reply.rowsAffected)))) := by
    intro log shard tenantId customerId eventName quantity key now reply added h
    obtain rfl := OutboxResult.enqueued.inj (Except.ok.inj h)
    exact ⟨shard, tenantId, customerId, eventName, quantity, key, now, reply, by simp, rfl⟩
  cases ha : a.source with
  | some sourceId =>
    have hx : Suffix.of a [] = some (.source sourceId) := by simp only [Suffix.of, ha]
    simp only [OutboxCall.start, enqueue, keySuffix, ha]
    exact fun _ _ _ _ _ _ _ => ⟨⟨rfl, _, hx, rfl⟩, fun _ _ _ _ => hret _ _ _ _ _ _ _ _ _⟩
  | none =>
    have hx : ∀ reply, Suffix.of a [(.nextFallback a.process, reply)] =
        some (.fallback reply.fallback.1 reply.fallback.2) := fun reply => by
      simp only [Suffix.of, ha, List.head?_cons, Option.map_some]
    simp only [OutboxCall.start, enqueue, keySuffix, ha]
    exact fun _ _ _ => ⟨⟨rfl, rfl⟩, fun _ _ _ _ _ _ _ _ =>
      ⟨⟨rfl, _, hx _, rfl⟩, fun _ _ _ _ => hret _ _ _ _ _ _ _ _ _⟩⟩

theorem OutboxCall.hands (call : OutboxCall) (s : OutboxState) :
    (call.start shardOf).Traces .free exec (call.Hands shardOf) call.Ends [] s := by
  cases call with
  | enqueue a => exact enqueue_hands a s
  | flush batchSize shards =>
    have huses : (OutboxCall.start shardOf (.flush batchSize shards)).Uses fun cmd => ¬ cmd.IsEnqueue :=
      (flush_quiet batchSize shards).bind fun _ => trivial
    exact huses.traces (fun _ _ _ _ h => h) fun _ _ _ _ => trivial

/-! ## The table -/

/-- The keys of a database are keys. -/
def Unique (db : OutboxState) : Prop :=
  ∀ row ∈ db.rows, ∀ row' ∈ db.rows, row.shard = row'.shard → row.idempotencyKey = row'.idempotencyKey →
    row = row'

theorem Unique.exec (h : Unique db) : Unique (Metering.exec e cmd db).1 := by
  have hnew : ∀ row ∈ db.rows, ∀ new ∈ db.inserted cmd, row.shard = new.shard →
      row.idempotencyKey ≠ new.idempotencyKey := by
    intro row hrow new hnew hshard hkey
    cases cmd with
    | enqueue shard tenantId customerId eventName quantity key now =>
      simp only [OutboxState.inserted] at hnew
      split at hnew
      next => cases hnew
      next hfree =>
        obtain rfl := List.mem_singleton.1 hnew
        exact hfree ⟨row, hrow, hshard, hkey⟩
    | _ => cases hnew
  intro row₁ h₁ row₂ h₂ hshard hkey
  obtain ⟨a, ha, rfl⟩ | h₁ := OutboxState.mem_exec.1 h₁
  · obtain ⟨-, hs, hk⟩ := @OutboxState.rewrite_fixed e cmd db a
    rw [hs] at hshard
    rw [hk] at hkey
    obtain ⟨b, hb, rfl⟩ | h₂ := OutboxState.mem_exec.1 h₂
    · obtain ⟨-, hs', hk'⟩ := @OutboxState.rewrite_fixed e cmd db b
      rw [h a ha b hb (hshard.trans hs') (hkey.trans hk')]
    · exact (hnew a ha row₂ h₂ hshard hkey).elim
  · obtain ⟨b, hb, rfl⟩ | h₂ := OutboxState.mem_exec.1 h₂
    · obtain ⟨-, hs', hk'⟩ := @OutboxState.rewrite_fixed e cmd db b
      exact (hnew b hb row₁ h₁ (hs'.symm.trans hshard.symm) (hk'.symm.trans hkey.symm)).elim
    · have hone := (OutboxState.inserted_spec h₁).2.2.2.2
      rw [hone] at h₂
      exact (List.mem_singleton.1 h₂).symm

theorem HasKey.exec {shard : ℕ} {key : String} (h : db.HasKey shard key) :
    (Metering.exec e cmd db).1.HasKey shard key := by
  obtain ⟨row, hrow, hshard, hkey⟩ := h
  obtain ⟨-, hs, hk⟩ := @OutboxState.rewrite_fixed e cmd db row
  exact ⟨_, OutboxState.rewrite_mem hrow, hs.trans hshard, hk.trans hkey⟩

theorem enqueue_exec {shard : ℕ} {tenantId customerId eventName key : String} {quantity now : ℤ} :
    (Metering.exec e (.enqueue shard tenantId customerId eventName quantity key now) db).1.HasKey shard key := by
  simp only [Metering.exec]
  split
  next h => exact h
  next => exact ⟨_, List.mem_append_right _ List.mem_cons_self, rfl, rfl⟩

theorem counts_exec : Counts e cmd db := by
  rintro shard tenantId customerId eventName quantity key now rfl
  simp only [Metering.exec]
  split
  · rfl
  · exact List.length_append

/-- The number that a call without a source has drawn in a process. -/
def fallbackNumber (process : ℕ) (x : OutboxCmd × OutboxReply) : Option ℕ :=
  match x.1 with
  | .nextFallback process' => if process' = process then some x.2.fallback.2 else none
  | _ => none

theorem fallback_drawn (process : ℕ) :
    Pool.Draws exec (fallbackNumber process) fun db => db.fallbackSeq process := by
  constructor
  · intro e cmd db
    cases cmd with
    | nextFallback process' =>
      by_cases hp : process = process'
      · subst hp
        simp [Metering.exec]
      · simp [Metering.exec, Function.update_of_ne hp]
    | enqueue =>
      simp only [Metering.exec]
      split <;> exact le_rfl
    | _ => exact le_rfl
  · intro e cmd db n hn
    cases cmd with
    | nextFallback process' =>
      simp only [fallbackNumber] at hn
      split at hn
      next hp =>
        subst hp
        obtain rfl := Option.some.inj hn
        exact ⟨rfl, by simp [Metering.exec]⟩
      next => cases hn
    | _ => cases hn

/-! ## The invariant -/

structure Sourced (shardOf : String → ℕ) (p : OutboxPool) : Prop where
  unique : Unique p.db
  /-- What a call has enqueued stays. -/
  present : ∀ x, p.Logged x → ∀ shard tenantId customerId eventName quantity key now,
    x.1 = .enqueue shard tenantId customerId eventName quantity key now → p.db.HasKey shard key
  tickets : ∀ process, p.Ticketed (fallbackNumber process) fun db => db.fallbackSeq process
  hands : ∀ th ∈ p.threads, ∀ l x l', th.log = l ++ x :: l' → th.call.Hands shardOf l x.1 p.db
  ends : ∀ th ∈ p.threads, ∀ r, th.prog = .ret r → th.call.Ends th.log (.ok r) p.db

theorem Unique.step (h : Unique p.db) : Unique (p.step shardOf m).db := by
  obtain ⟨-, hdb⟩ | ⟨e, cmd, -, hdb⟩ := Pool.step_db (OutboxCall.start shardOf) Metering.exec p m
  · rwa [OutboxPool.step, hdb]
  · rw [OutboxPool.step, hdb]
    exact h.exec

theorem sourced_always : Always (OutboxPool.step shardOf) (Sourced shardOf) .init ms := by
  have hlogs := @Pool.traced_log_always _ _ _ _ _ _ _ _ _ _ _ OutboxState.empty ms
    fun (call : OutboxCall) s => @OutboxCall.hands shardOf call s
  have hrest : Always (OutboxPool.step shardOf) (fun p => Unique p.db ∧
      (∀ x, p.Logged x → ∀ shard tenantId customerId eventName quantity key now,
        x.1 = .enqueue shard tenantId customerId eventName quantity key now → p.db.HasKey shard key) ∧
      ∀ process, p.Ticketed (fallbackNumber process) fun db => db.fallbackSeq process) .init ms := by
    refine Always.of_inductive ⟨fun _ h => (List.not_mem_nil h).elim, fun x h => ?_, fun _ => .idle⟩
      fun p m hp => ⟨hp.1.step, fun x hx shard tenantId customerId eventName quantity key now hcmd => ?_,
        fun process => (hp.2.2 process).step (fallback_drawn process)⟩
    · obtain ⟨_, h, -⟩ := h
      cases h
    · obtain ⟨hnone, hdb⟩ | ⟨e, cmd, hc, hdb⟩ := Pool.step_db (OutboxCall.start shardOf) exec p m
      · rcases (Pool.logged_step _ _ p m x).1 hx with hold | ⟨o, ho, -⟩
        · rw [OutboxPool.step, hdb]
          exact hp.2.1 x hold _ _ _ _ _ _ _ hcmd
        · cases hnone.symm.trans ho
      · rw [OutboxPool.step, hdb]
        rcases (Pool.logged_step _ _ p m x).1 hx with hold | ⟨o, ho, -⟩
        · exact HasKey.exec (hp.2.1 x hold _ _ _ _ _ _ _ hcmd)
        · obtain ⟨rfl, rfl⟩ := Prod.mk.inj (Option.some.inj (hc.symm.trans ho))
          rw [hcmd]
          exact enqueue_exec
  intro pre hpre
  obtain ⟨htraced, hlog⟩ := hlogs pre hpre
  obtain ⟨hunique, hpresent, htickets⟩ := hrest pre hpre
  refine ⟨hunique, hpresent, htickets, fun th hth l x l' heq => ?_, fun th hth r hr => ?_⟩
  · obtain ⟨-, s, hhands, -⟩ := hlog th hth l x l' heq
    exact hhands
  · obtain ⟨call, log, prog⟩ := th
    obtain rfl := hr
    exact htraced.returned trivial hth

namespace Sourced

variable {x y : Suffix}

theorem suffix_append {l l' : List (OutboxCmd × OutboxReply)} (h : Suffix.of a l = some x) :
    Suffix.of a (l ++ l') = some x := by
  unfold Suffix.of at h ⊢
  split at h
  next => exact h
  next =>
    cases l with
    | nil => cases h
    | cons z l => exact h

theorem suffixed (h : Sourced shardOf p) (hrow : Enqueued p i a row) : ∃ x, Suffixed p i a x ∧
    row.shard = shardOf a.tenantId ∧ row.idempotencyKey = idempotencyKey a.tenantId a.eventName x.text := by
  obtain ⟨th, hth, hcall, -, _, _, _, _, _, reply, hlog⟩ := hrow
  obtain ⟨l, l', heq⟩ := List.append_of_mem hlog
  have hhands := h.hands th (List.mem_of_getElem? hth) l _ l' heq
  simp only [OutboxCall.Hands, hcall] at hhands
  obtain ⟨hshard, x, hx, hkey⟩ := hhands
  exact ⟨x, ⟨th, hth, hcall, ⟨_, hlog, trivial⟩, heq ▸ suffix_append hx⟩, hshard, hkey⟩

theorem enqueued (h : Sourced shardOf p) (hx : Suffixed p i a x) : ∃ row, Enqueued p i a row ∧
    row.shard = shardOf a.tenantId ∧ row.idempotencyKey = idempotencyKey a.tenantId a.eventName x.text := by
  obtain ⟨th, hth, hcall, ⟨⟨cmd, reply⟩, hlog, henq⟩, hof⟩ := hx
  cases cmd with
  | enqueue shard tenantId customerId eventName quantity key now =>
    obtain ⟨l, l', heq⟩ := List.append_of_mem hlog
    have hhands := h.hands th (List.mem_of_getElem? hth) l _ l' heq
    simp only [OutboxCall.Hands, hcall] at hhands
    obtain ⟨hshard, x', hx', hkey⟩ := hhands
    have hsame : Suffix.of a th.log = some x' := heq ▸ suffix_append hx'
    obtain rfl := Option.some.inj (hof.symm.trans hsame)
    obtain ⟨row, hrow, rfl, rfl⟩ := h.present _ ⟨th, List.mem_of_getElem? hth, hlog⟩ _ _ _ _ _ _ _ rfl
    exact ⟨row, ⟨th, hth, hcall, hrow, _, _, _, _, _, _, hlog⟩, hshard, hkey⟩
  | _ => exact henq.elim

theorem row_eq_iff (h : Sourced shardOf p) (hrow : Enqueued p i a row) (hrow' : Enqueued p j b row') :
    ∃ x y, Suffixed p i a x ∧ Suffixed p j b y ∧ (row = row' ↔
      shardOf a.tenantId = shardOf b.tenantId ∧
        idempotencyKey a.tenantId a.eventName x.text = idempotencyKey b.tenantId b.eventName y.text) := by
  obtain ⟨x, hx, hshard, hkey⟩ := h.suffixed hrow
  obtain ⟨y, hy, hshard', hkey'⟩ := h.suffixed hrow'
  refine ⟨x, y, hx, hy, ?_⟩
  rw [← hshard, ← hshard', ← hkey, ← hkey']
  refine ⟨fun heq => heq ▸ ⟨rfl, rfl⟩, fun heq => ?_⟩
  obtain ⟨_, -, -, hmem, -⟩ := hrow
  obtain ⟨_, -, -, hmem', -⟩ := hrow'
  exact h.unique row hmem row' hmem' heq.1 heq.2

theorem source_eq {s : String} (hx : Suffixed p i a (.source s)) : a.sourceId = some s ∧ s ≠ "" := by
  obtain ⟨th, -, -, -, hof⟩ := hx
  unfold Suffix.of at hof
  split at hof
  next s' hs =>
    obtain rfl := Suffix.source.inj (Option.some.inj hof)
    obtain ⟨hsome, hne⟩ := Option.filter_eq_some_iff.1 hs
    exact ⟨hsome, by simpa using hne⟩
  next =>
    cases hh : th.log.head? <;> simp [hh] at hof

theorem fallback_eq {now : ℤ} {seq : ℕ} (hx : Suffixed p i a (.fallback now seq)) :
    a.sourceId = none ∨ a.sourceId = some "" := by
  obtain ⟨th, -, -, -, hof⟩ := hx
  unfold Suffix.of at hof
  split at hof
  next => cases hof
  next hs =>
    cases hsrc : a.sourceId with
    | none => exact .inl rfl
    | some s =>
      refine .inr (congrArg some ?_)
      simpa [EnqueueParams.source, hsrc, Option.filter] using hs

/-- The counter of one process is drawn by one call. -/
theorem fallback_inj (h : Sourced shardOf p) {now now' : ℤ} {seq : ℕ}
    (hx : Suffixed p i a (.fallback now seq)) (hy : Suffixed p j b (.fallback now' seq))
    (hp : a.process = b.process) : i = j ∧ a = b := by
  have hdrawn : ∀ {i : ℕ} {a : EnqueueParams} {now : ℤ}, Suffixed p i a (.fallback now seq) →
      ∃ th, p.threads[i]? = some th ∧ th.call = .enqueue a ∧
        ∃ x ∈ th.log, fallbackNumber a.process x = some seq := by
    rintro i a now ⟨th, hth, hcall, -, hof⟩
    refine ⟨th, hth, hcall, ?_⟩
    unfold Suffix.of at hof
    split at hof
    next => cases hof
    next =>
      obtain ⟨⟨cmd, reply⟩, hhead, hfb⟩ := Option.map_eq_some_iff.1 hof
      obtain ⟨rest, hlog⟩ := List.head?_eq_some_iff.1 hhead
      refine ⟨(cmd, reply), hlog ▸ List.mem_cons_self, ?_⟩
      have hhands := h.hands th (List.mem_of_getElem? hth) [] (cmd, reply) rest hlog
      simp only [OutboxCall.Hands, hcall] at hhands
      cases cmd with
      | nextFallback process =>
        obtain rfl := hhands.1
        simp only [fallbackNumber, if_true]
        exact congrArg some (Suffix.fallback.inj hfb).2
      | enqueue =>
        -- nothing is enqueued before something is drawn
        obtain ⟨-, x, hx, -⟩ := hhands
        simp_all [Suffix.of]
      | _ => exact hhands.elim
  obtain ⟨th, hth, hcall, x, hxl, hn⟩ := hdrawn hx
  obtain ⟨th', hth', hcall', y, hyl, hn'⟩ := hdrawn hy
  rw [← hp] at hn'
  obtain rfl := (h.tickets a.process).inj i j th th' hth hth' x hxl y hyl seq hn hn'
  obtain rfl := Option.some.inj (hth.symm.trans hth')
  exact ⟨rfl, OutboxCall.enqueue.inj (hcall.symm.trans hcall')⟩

theorem eq_source {s : String} (ha : a.sourceId = some s) (hs : s ≠ "") (hx : Suffixed p i a x) :
    x = .source s := by
  have hsrc : a.source = some s := by simp [EnqueueParams.source, ha, Option.filter, hs]
  obtain ⟨th, -, -, -, hof⟩ := hx
  simp only [Suffix.of, hsrc] at hof
  exact (Option.some.inj hof).symm

/-- Keys that are confused put two calls in one row. -/
theorem confused (h : Sourced shardOf p) (hx : Suffixed p i a x) (hy : Suffixed p j b y)
    (hshard : shardOf a.tenantId = shardOf b.tenantId)
    (hkey : idempotencyKey a.tenantId a.eventName x.text = idempotencyKey b.tenantId b.eventName y.text) :
    ∃ row, Enqueued p i a row ∧ Enqueued p j b row := by
  obtain ⟨row, hrow, hs, hk⟩ := h.enqueued hx
  obtain ⟨row', hrow', hs', hk'⟩ := h.enqueued hy
  obtain rfl : row = row' := by
    obtain ⟨_, -, -, hmem, -⟩ := hrow
    obtain ⟨_, -, -, hmem', -⟩ := hrow'
    exact h.unique row hmem row' hmem' (by rw [hs, hs', hshard]) (by rw [hk, hk', hkey])
  exact ⟨row, hrow, hrow'⟩

theorem not_apart_self : ¬ a.Apart a := by
  rintro ⟨hor, hne⟩
  have hnone : ¬ a.sourceId.isSome := fun hsome => hne ⟨hsome, rfl, rfl, rfl⟩
  rcases hor with h | h | h
  · exact hnone h
  · exact hnone h
  · exact h rfl

theorem unconfused (h : Sourced shardOf p)
    (hsame : ∀ i j a b row row', Enqueued p i a row → Enqueued p j b row' → a.Same b → row = row')
    (hapart : ∀ i j a b row row', Enqueued p i a row → Enqueued p j b row' → a.Apart b → row ≠ row') :
    Unconfused shardOf p := by
  refine ⟨fun i j a b s s' hx hy hshard hblur => ?_, fun i j a b s now seq hx hy hshard hblur => ?_,
    fun i j a b now seq hx hy hp hshard hab hpieces => ?_, fun i j a b x y hx hy hab hempty => ?_⟩
  · obtain ⟨row, hrow, hrow'⟩ := h.confused hx hy hshard (key_eq_iff.2 hblur)
    obtain ⟨ha, -⟩ := source_eq hx
    obtain ⟨hb, -⟩ := source_eq hy
    by_contra hne
    refine hapart i j a b row row hrow hrow' ⟨.inl (ha ▸ rfl), fun hab => hne ?_⟩ rfl
    obtain ⟨-, htenant, hevent, hsource⟩ := hab
    exact ⟨htenant, hevent, Option.some.inj (ha.symm.trans (hsource.trans hb))⟩
  · obtain ⟨row, hrow, hrow'⟩ := h.confused hx hy hshard (key_eq_iff.2 hblur)
    obtain ⟨ha, hs⟩ := source_eq hx
    refine hapart i j a b row row hrow hrow' ⟨.inl (ha ▸ rfl), fun hab => ?_⟩ rfl
    obtain ⟨-, -, -, hsource⟩ := hab
    rcases fallback_eq hy with hb | hb
    · cases ha.symm.trans (hsource.trans hb)
    · exact hs (Option.some.inj (ha.symm.trans (hsource.trans hb)))
  · obtain ⟨row, hrow, hrow'⟩ := h.confused hx hy hshard (fallback_key_iff.2 ⟨hpieces, rfl, rfl⟩)
    exact hapart i j a b row row hrow hrow' hab rfl
  · obtain ⟨row, hrow, hshard, hkey⟩ := h.enqueued hx
    obtain ⟨row', hrow', hshard', hkey'⟩ := h.enqueued hy
    obtain rfl := hsame i j a b row row' hrow hrow' hab
    obtain ⟨-, htenant, hevent, hsource⟩ := hab
    have htext : x.text = y.text := by
      have hkeys := hkey.symm.trans hkey'
      rw [key_eq_iff, htenant, hevent] at hkeys
      exact pieces_inj.1 (List.append_cancel_left hkeys)
    cases x with
    | source s => exact ((source_eq hx).2 (Option.some.inj ((source_eq hx).1.symm.trans hempty))).elim
    | fallback now seq =>
      cases y with
      | source s =>
        exact ((source_eq hy).2 (Option.some.inj ((source_eq hy).1.symm.trans (hsource.symm.trans hempty)))).elim
      | fallback now' seq' =>
        obtain ⟨rfl, rfl⟩ := fallbackSuffix_inj htext
        rfl

theorem same (h : Sourced shardOf p) (hC : Unconfused shardOf p) (hrow : Enqueued p i a row)
    (hrow' : Enqueued p j b row') (hab : a.Same b) : row = row' := by
  obtain ⟨x, y, hx, hy, hiff⟩ := h.row_eq_iff hrow hrow'
  refine hiff.2 ?_
  have hxy : x = y := by
    obtain ⟨s, hs⟩ := Option.isSome_iff_exists.1 hab.1
    by_cases hempty : s = ""
    · exact hC.empty i j a b x y hx hy hab (hempty ▸ hs)
    · rw [eq_source hs hempty hx, eq_source (hab.2.2.2 ▸ hs) hempty hy]
  obtain ⟨-, htenant, hevent, -⟩ := hab
  rw [htenant, hevent, hxy]
  exact ⟨rfl, rfl⟩

theorem apart (h : Sourced shardOf p) (hC : Unconfused shardOf p) (hrow : Enqueued p i a row)
    (hrow' : Enqueued p j b row') (hab : a.Apart b) : row ≠ row' := by
  obtain ⟨x, y, hx, hy, hiff⟩ := h.row_eq_iff hrow hrow'
  intro heq
  obtain ⟨hshard, hkey⟩ := hiff.1 heq
  cases x with
  | source s =>
    cases y with
    | source s' =>
      obtain ⟨htenant, hevent, rfl⟩ := hC.sources i j a b s s' hx hy hshard (key_eq_iff.1 hkey)
      obtain ⟨ha, -⟩ := source_eq hx
      obtain ⟨hb, -⟩ := source_eq hy
      exact hab.2 ⟨ha ▸ rfl, htenant, hevent, ha.trans hb.symm⟩
    | fallback now seq => exact hC.mixed i j a b s now seq hx hy hshard (key_eq_iff.1 hkey)
  | fallback now seq =>
    cases y with
    | source s => exact hC.mixed j i b a s now seq hy hx hshard.symm (key_eq_iff.1 hkey.symm)
    | fallback now' seq' =>
      obtain ⟨hpieces, rfl, rfl⟩ := fallback_key_iff.1 hkey
      by_cases hp : a.process = b.process
      · obtain ⟨-, rfl⟩ := h.fallback_inj hx hy hp
        exact not_apart_self hab
      · exact hC.fallbacks i j a b now seq hx hy hp hshard hab hpieces

end Sourced

/-! ## Whole runs -/

/-- Two replicas that have just started meter two operations at the same millisecond. -/
def replicas : List OutboxMove :=
  [.call (.enqueue ⟨0, "t", "c", "llm_tokens", 700, none, 0⟩),
    .call (.enqueue ⟨1, "t", "c", "llm_tokens", 900, none, 1⟩), .go 0 (.at 5), .go 0 (.at 5), .go 0 (.at 5),
    .go 1 (.at 5), .go 1 (.at 5), .go 1 (.at 5)]

end ChronoSynth.Metering

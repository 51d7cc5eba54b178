import Mathlib.Data.Fintype.Pigeonhole
import Mathlib.Data.Fintype.Pi
import Mathlib.Data.List.Sort
import ChronoSynth.Lib.JsonNested
import ChronoSynth.Lib.RowMap
import ChronoSynth.Lib.Run
import ChronoSynth.Lib.Utf16

/-!
# The outbox of the web client

`sync-client.ts` wraps a command in an envelope, keeps it in the outbox of `replica-store.ts`, and sends the envelopes of a
tenant one by one when it flushes. Any number of flushes are under way at a time; a flush waits for the server and for each
operation of the database.

* `WebCrypto` — `crypto.subtle.digest('SHA-256', ...)`. A digest stands for the text in base64 that it is printed as.
* `Ambient` — what a command takes from the clock, from random numbers and from the session.
* The index by tenant lists the entries in the order of their primary key, the id of the command.

A command leaves the outbox only when the server has answered for it (`leaves_answered`). What is sent has the digest of the
payload and not the payload, and no run makes up for that (`not_outboxSound`).
-/

namespace ChronoSynth.Web

/-! ## Commands -/

/-- Thirty-two bytes. -/
abbrev Digest := Fin 32 → Fin 256

structure WebCrypto where
  sha256 : String → Digest

structure EnqueueOptions where
  tenantId : String
  actorId : String
  entityRef : String
  payload : Json
  expectedVersion : Option ℕ

structure Ambient where
  runtimeId : String
  createdAt : String
  expiresAt : String
  nonce : String
  enqueuedAt : ℕ

structure SyncEnvelope where
  schemaVersion : String
  commandId : Text
  tenantId : String
  actorId : String
  runtimeId : String
  entityRef : String
  expectedVersion : Option ℕ
  createdAt : String
  expiresAt : String
  nonce : String
  idempotencyKey : Text
  payloadHash : Digest
  signatureKeyId : String
  signature : Digest
  signatureAlgorithm : String

structure OutboxEntry where
  commandId : Text
  tenantId : String
  entityRef : String
  envelope : SyncEnvelope
  enqueuedAt : ℕ
  attempts : ℕ

def MAX_FLUSH_ATTEMPTS : ℕ := 5

namespace SyncClient

variable (crypto : WebCrypto)

def hashPayload (payload : Json) : Digest := crypto.sha256 payload.stringify

def signPayload (payload : Json) : Digest := hashPayload crypto payload

def envelope (ambient : Ambient) (commandId : Text) (opts : EnqueueOptions) : SyncEnvelope where
  schemaVersion := "sync-envelope.v1"
  commandId
  tenantId := opts.tenantId
  actorId := opts.actorId
  runtimeId := ambient.runtimeId
  entityRef := opts.entityRef
  expectedVersion := opts.expectedVersion
  createdAt := ambient.createdAt
  expiresAt := ambient.expiresAt
  nonce := ambient.nonce
  idempotencyKey := commandId
  payloadHash := hashPayload crypto opts.payload
  signatureKeyId := "client-hmac-v1"
  signature := signPayload crypto opts.payload
  signatureAlgorithm := "hmac-sha256"

def entry (ambient : Ambient) (commandId : Text) (opts : EnqueueOptions) : OutboxEntry :=
  ⟨commandId, opts.tenantId, opts.entityRef, envelope crypto ambient commandId opts, ambient.enqueuedAt, 0⟩

end SyncClient

/-! ## The store -/

abbrev Outbox := RowMap OutboxEntry.commandId

namespace Outbox

/-- The entries of the tenant, by primary key. -/
def getOutboxByTenant (outbox : Outbox) (tenantId : String) : List OutboxEntry :=
  (outbox.rows.filter fun e => e.tenantId = tenantId).insertionSort fun e e' => ¬ e'.commandId < e.commandId

def incrementOutboxAttempts (outbox : Outbox) (commandId : Text) : Outbox :=
  match outbox.get? commandId with
  | none => outbox
  | some e => outbox.set { e with attempts := e.attempts + 1 }

end Outbox

/-! ## Flushes -/

/-- What the server says about the command that was sent, or how the request fails. -/
inductive PushAnswer
  | accepted | rejected | neither | error | notFound
  deriving DecidableEq

inductive FlushState
  | finished
  | sending (e : OutboxEntry) (rest : List OutboxEntry)
  | storing (dequeue : Bool) (e : OutboxEntry) (rest : List OutboxEntry)

def FlushState.next : List OutboxEntry → FlushState
  | [] => .finished
  | e :: rest => .sending e rest

def FlushState.answer : FlushState → PushAnswer → FlushState
  | .sending e rest, .accepted | .sending e rest, .rejected => .storing true e rest
  | .sending e rest, .neither | .sending e rest, .error => .storing false e rest
  | .sending _ _, .notFound => .finished
  | st, _ => st

structure WebSync where
  outbox : Outbox
  flushes : ℕ → FlushState

inductive WebSyncEvent
  | enqueueCommand (ambient : Ambient) (commandId : Text) (opts : EnqueueOptions)
  | flushOutbox (flush : ℕ) (tenantId : String)
  | answer (flush : ℕ) (answer : PushAnswer)
  | store (flush : ℕ)

namespace WebSync

def new : WebSync := ⟨.empty, fun _ => .finished⟩

/-- A flush that is under way is not begun again. -/
def step (crypto : WebCrypto) (s : WebSync) : WebSyncEvent → WebSync
  | .enqueueCommand ambient commandId opts => { s with outbox := s.outbox.set (SyncClient.entry crypto ambient commandId opts) }
  | .flushOutbox flush tenantId =>
    match s.flushes flush with
    | .finished =>
      { s with
        flushes := Function.update s.flushes flush
          (.next ((s.outbox.getOutboxByTenant tenantId).filter fun e => e.attempts < MAX_FLUSH_ATTEMPTS)) }
    | _ => s
  | .answer flush answer => { s with flushes := Function.update s.flushes flush ((s.flushes flush).answer answer) }
  | .store flush =>
    match s.flushes flush with
    | .storing dequeue e rest =>
      { s with
        outbox := if dequeue then s.outbox.erase e.commandId else s.outbox.incrementOutboxAttempts e.commandId
        flushes := Function.update s.flushes flush (.next rest) }
    | _ => s

end WebSync

/-! ## What has happened -/

structure Enqueued where
  commandId : Text
  tenantId : String
  entityRef : String

structure SyncHistory where
  /-- In the order of the calls. -/
  enqueued : List Enqueued
  /-- One for each time, the first time first. -/
  sent : List Text
  /-- The server has accepted or rejected them. -/
  answered : List Text
  /-- One for each time it has not. -/
  unanswered : List Text

def FlushState.sends : FlushState → List Text
  | .sending e _ => [e.commandId]
  | _ => []

namespace WebSync

/-- What a step sends. -/
def sends (crypto : WebCrypto) (s : WebSync) : WebSyncEvent → List Text
  | .flushOutbox flush tenantId =>
    match s.flushes flush with
    | .finished => ((s.step crypto (.flushOutbox flush tenantId)).flushes flush).sends
    | _ => []
  | .store flush =>
    match s.flushes flush with
    | .storing _ _ rest => (FlushState.next rest).sends
    | _ => []
  | _ => []

def note (crypto : WebCrypto) (s : WebSync) (h : SyncHistory) (e : WebSyncEvent) : SyncHistory where
  enqueued :=
    match e with
    | .enqueueCommand _ commandId opts => h.enqueued ++ [⟨commandId, opts.tenantId, opts.entityRef⟩]
    | _ => h.enqueued
  sent := h.sent ++ s.sends crypto e
  answered :=
    match e with
    | .answer flush a =>
      match (s.flushes flush).answer a with
      | .storing true e _ => e.commandId :: h.answered
      | _ => h.answered
    | _ => h.answered
  unanswered :=
    match e with
    | .answer flush .notFound => (s.flushes flush).sends ++ h.unanswered
    | .store flush =>
      match s.flushes flush with
      | .storing false e _ => e.commandId :: h.unanswered
      | _ => h.unanswered
    | _ => h.unanswered

/-- The client with its history. -/
def recorded (crypto : WebCrypto) : WebSync × SyncHistory → WebSyncEvent → WebSync × SyncHistory :=
  noting (WebSync.step crypto) (note crypto)

def start : WebSync × SyncHistory := (.new, ⟨[], [], [], []⟩)

end WebSync

/-- The two are commands for one entity, enqueued in this order. -/
def Earlier (h : SyncHistory) (c c' : Enqueued) : Prop :=
  c.tenantId = c'.tenantId ∧ c.entityRef = c'.entityRef ∧ [c, c'].Sublist h.enqueued

/-- Only what the server has answered for has left. -/
def Leaves (x : WebSync × SyncHistory) : Prop :=
  ∀ c ∈ x.2.enqueued, x.1.outbox.get? c.commandId = none → c.commandId ∈ x.2.answered

/-- The commands of an entity are first sent in the order in which they were enqueued. -/
def InOrder (x : WebSync × SyncHistory) : Prop :=
  ∀ c c', Earlier x.2 c c' → c'.commandId ∈ x.2.sent → c.commandId ∈ x.2.sent.takeWhile (· ≠ c'.commandId)

/-- Nothing is sent while an earlier command of its entity is waiting. -/
def Waits (crypto : WebCrypto) (x : WebSync × SyncHistory) (e : WebSyncEvent) : Prop :=
  ∀ c c', Earlier x.2 c c' → c'.commandId ∈ x.1.sends crypto e →
    (x.1.step crypto e).outbox.get? c.commandId = none

/-- The attempts of an entry are its unanswered sends. -/
def CountsAttempts (x : WebSync × SyncHistory) : Prop :=
  ∀ e ∈ x.1.outbox.rows, e.attempts = x.2.unanswered.count e.commandId

/-- The payload of a command can be recovered from what is sent for it. -/
def Recoverable (crypto : WebCrypto) : Prop :=
  ∃ recover : SyncEnvelope → Json, ∀ ambient commandId opts,
    recover (SyncClient.envelope crypto ambient commandId opts) = opts.payload

/-- **The outbox keeps order and loses nothing** in a run. -/
structure OutboxSound (crypto : WebCrypto) (events : List WebSyncEvent) : Prop where
  leaves : Always (WebSync.recorded crypto) Leaves WebSync.start events
  inOrder : Always (WebSync.recorded crypto) InOrder WebSync.start events
  waits : Along (WebSync.recorded crypto) (Waits crypto) WebSync.start events
  attempts : Always (WebSync.recorded crypto) CountsAttempts WebSync.start events
  recoverable : Recoverable crypto

/-! ## What leaves the outbox -/

/-- A flush that is about to delete a command has its answer. -/
structure Answered (x : WebSync × SyncHistory) : Prop where
  leaves : Leaves x
  storing : ∀ flush e rest, x.1.flushes flush = .storing true e rest → e.commandId ∈ x.2.answered

section
variable {crypto : WebCrypto} {x : WebSync × SyncHistory} {outbox : Outbox} {commandId commandId' : Text}

theorem next_ne_storing {rest rest' : List OutboxEntry} {dequeue : Bool} {e : OutboxEntry} :
    FlushState.next rest ≠ .storing dequeue e rest' := by
  cases rest <;> exact nofun

theorem get?_increment : (outbox.incrementOutboxAttempts commandId').get? commandId = none ↔ outbox.get? commandId = none := by
  unfold Outbox.incrementOutboxAttempts
  split
  · rfl
  next e he =>
    have hkey := RowMap.key_of_get? he
    rw [RowMap.get?_set]
    split
    next hk =>
      subst hk
      rw [show OutboxEntry.commandId { e with attempts := e.attempts + 1 } = e.commandId from rfl, hkey, he]
      simp
    next => rfl

theorem Answered.answer (h : Answered x) (flush : ℕ) (a : PushAnswer) :
    Answered (WebSync.recorded crypto x (.answer flush a)) where
  leaves c hc hnone := by
    have hold := h.leaves c hc hnone
    simp only [WebSync.recorded, noting, WebSync.note]
    split
    · exact List.mem_cons_of_mem _ hold
    · exact hold
  storing flush' e rest hstoring := by
    simp only [WebSync.recorded, noting, WebSync.step, WebSync.note] at hstoring ⊢
    by_cases hflush : flush' = flush
    · subst hflush
      rw [Function.update_self] at hstoring
      rw [hstoring]
      exact List.mem_cons_self
    · rw [Function.update_of_ne hflush] at hstoring
      have hold := h.storing flush' e rest hstoring
      split
      · exact List.mem_cons_of_mem _ hold
      · exact hold

theorem Answered.store (h : Answered x) (flush : ℕ) : Answered (WebSync.recorded crypto x (.store flush)) := by
  cases hst : x.1.flushes flush with
  | finished => exact ⟨by simpa [WebSync.recorded, noting, WebSync.step, WebSync.note, hst, Leaves] using h.leaves,
      by simpa [WebSync.recorded, noting, WebSync.step, WebSync.note, hst] using h.storing⟩
  | sending e rest => exact ⟨by simpa [WebSync.recorded, noting, WebSync.step, WebSync.note, hst, Leaves] using h.leaves,
      by simpa [WebSync.recorded, noting, WebSync.step, WebSync.note, hst] using h.storing⟩
  | storing dequeue e rest =>
    refine ⟨fun c hc hnone => ?_, fun flush' e' rest' hstoring => ?_⟩
    · simp only [WebSync.recorded, noting, WebSync.step, hst] at hnone
      change c.commandId ∈ x.2.answered
      cases dequeue with
      | true =>
        rw [if_pos rfl, RowMap.get?_erase] at hnone
        split at hnone
        next hid =>
          rw [hid]
          exact h.storing flush e rest hst
        next => exact h.leaves c hc hnone
      | false =>
        rw [if_neg Bool.false_ne_true, get?_increment] at hnone
        exact h.leaves c hc hnone
    · simp only [WebSync.recorded, noting, WebSync.step, hst] at hstoring
      by_cases hflush : flush' = flush
      · subst hflush
        rw [Function.update_self] at hstoring
        exact absurd hstoring next_ne_storing
      · rw [Function.update_of_ne hflush] at hstoring
        exact h.storing flush' e' rest' hstoring

/-- **One event.** -/
theorem Answered.step (h : Answered x) (e : WebSyncEvent) : Answered (WebSync.recorded crypto x e) := by
  cases e with
  | enqueueCommand ambient commandId opts =>
    refine ⟨fun c hc hnone => ?_, h.storing⟩
    simp only [WebSync.recorded, noting, WebSync.step, RowMap.get?_set] at hnone
    split at hnone
    · cases hnone
    next hne =>
      rcases List.mem_append.1 hc with hc | hc
      · exact h.leaves c hc hnone
      · rw [List.mem_singleton.1 hc] at hne
        exact absurd rfl hne
  | flushOutbox flush tenantId =>
    refine ⟨fun c hc hnone => h.leaves c hc ?_, fun flush' e rest hstoring => ?_⟩
    · simp only [WebSync.recorded, noting, WebSync.step] at hnone
      split at hnone
      · exact hnone
      · exact hnone
    · simp only [WebSync.recorded, noting, WebSync.step] at hstoring
      split at hstoring
      · by_cases hflush : flush' = flush
        · subst hflush
          simp only [Function.update_self] at hstoring
          exact absurd hstoring next_ne_storing
        · simp only [Function.update_of_ne hflush] at hstoring
          exact h.storing flush' e rest hstoring
      · exact h.storing flush' e rest hstoring
  | answer flush a => exact h.answer flush a
  | store flush => exact h.store flush

end

/-- **A command leaves the outbox only when the server has answered for it**, in every run. -/
theorem leaves_answered (crypto : WebCrypto) (events : List WebSyncEvent) :
    Always (WebSync.recorded crypto) Leaves WebSync.start events := by
  have hstart : Answered WebSync.start := ⟨fun _ h => (by cases h), fun _ _ _ h => (by cases h)⟩
  exact (Always.of_inductive hstart fun _ e h => h.step e).mono fun _ h => h.leaves

/-! ## What is sent -/

theorem exists_same_envelope (crypto : WebCrypto) (ambient : Ambient) (commandId : Text) (opts : EnqueueOptions) :
    ∃ payload payload', payload ≠ payload' ∧ SyncClient.envelope crypto ambient commandId { opts with payload } =
      SyncClient.envelope crypto ambient commandId { opts with payload := payload' } := by
  obtain ⟨n, n', hne, hsame⟩ := Finite.exists_ne_map_eq_of_infinite
    fun n : ℕ => SyncClient.hashPayload crypto (.num (.ofInt n))
  refine ⟨.num (.ofInt n), .num (.ofInt n'), fun h => hne (Int.ofNat_inj.1 (JsNumber.ofInt_injective (Json.num.inj h))), ?_⟩
  simp only [SyncClient.envelope, SyncClient.signPayload, hsame]

theorem not_recoverable (crypto : WebCrypto) : ¬ Recoverable crypto := by
  rintro ⟨recover, hrecover⟩
  obtain ⟨payload, payload', hne, hsame⟩ := exists_same_envelope crypto ⟨"", "", "", "", 0⟩ [] ⟨"", "", "", .null, none⟩
  have hpayload := hrecover ⟨"", "", "", "", 0⟩ [] ⟨"", "", "", payload, none⟩
  rw [hsame, hrecover] at hpayload
  exact hne hpayload.symm

/-- **No run is sound**: the payload of a command is not sent. -/
theorem not_outboxSound (crypto : WebCrypto) (events : List WebSyncEvent) : ¬ OutboxSound crypto events :=
  fun h => not_recoverable crypto h.recoverable

/-! ## What is sent first -/

def newPersona : EnqueueOptions := ⟨"t1", "u1", "persona:p1", .null, none⟩

/-- Two commands for a persona whose ids stand the other way round, and a flush. -/
def hasty : List WebSyncEvent :=
  [.enqueueCommand ⟨"web-1", "", "", "", 0⟩ (units "b") newPersona,
    .enqueueCommand ⟨"web-1", "", "", "", 1⟩ (units "a") newPersona, .flushOutbox 0 "t1"]

/-- The second command is sent first. -/
theorem not_inOrder_hasty (crypto : WebCrypto) : ¬ InOrder (run (WebSync.recorded crypto) WebSync.start hasty) := by
  intro h
  have hsent : (run (WebSync.recorded crypto) WebSync.start hasty).2.sent = [units "a"] := rfl
  have hearlier : Earlier (run (WebSync.recorded crypto) WebSync.start hasty).2 ⟨units "b", "t1", "persona:p1"⟩
      ⟨units "a", "t1", "persona:p1"⟩ := ⟨rfl, rfl, List.Sublist.refl _⟩
  have hfirst := h _ _ hearlier (by rw [hsent]; exact List.mem_singleton_self _)
  rw [hsent] at hfirst
  simp at hfirst

theorem not_all_outboxSound : ¬ ∀ (crypto : WebCrypto) (events : List WebSyncEvent), OutboxSound crypto events :=
  fun h => not_inOrder_hasty ⟨fun _ _ => 0⟩ (h ⟨fun _ _ => 0⟩ hasty).inOrder.last

end ChronoSynth.Web

import Mathlib.Data.Rat.Defs
import Mathlib.Algebra.Order.Ring.Rat
import ChronoSynth.Lib.Interleave

/-!
# Persona leases

The table `persona_leases`, its commands and the calls of a `PersonaLeaseStore`.

* The database has its own clock. A command finds it advanced by some time, its oracle; what a command
  grants and what it judges by is this clock, never the caller's.
* The key of the table is the scope of a lease: tenant, persona and purpose. So the table is a function.
* A holder's token is a fresh random one for each attempt; here the attempts are numbered.
* A call reads its lease back by a second command (`get`), which is noted with the handle it is for.
* What runs under a lease in `withLease` is other calls; the call itself acquires and releases.

The times are the numbers of the language, taken as exact.
-/

namespace ChronoSynth.Lease

inductive PersonaLeasePurpose
  | earning | compile
  deriving DecidableEq, Repr

/-- What a lease is for: the primary key. -/
structure LeaseScope where
  tenantId : String
  personaId : String
  purpose : PersonaLeasePurpose
  deriving DecidableEq, Repr

structure PersonaLease where
  holderToken : ℕ
  acquiredAt : ℚ
  expiresAt : ℚ
  deriving DecidableEq, Repr

structure LeaseHandle where
  scope : LeaseScope
  holderToken : ℕ
  expiresAt : ℚ
  deriving DecidableEq, Repr

structure LeaseDb where
  /-- The database's clock, in milliseconds. -/
  clock : ℤ
  /-- How many tokens have been drawn. -/
  tokens : ℕ
  rows : LeaseScope → Option PersonaLease

/-! ## Kernel -/

def validateAcquireIntent (scope : LeaseScope) (now ttlMs : ℚ) : List String :=
  (if scope.tenantId.length = 0 then ["tenantId 必填"] else []) ++
  (if scope.personaId.length = 0 then ["personaId 必填"] else []) ++
  (if now < 0 then ["now 必须是非负有限数（epoch ms）"] else []) ++
  (if ttlMs ≤ 0 then ["ttlMs 必须是正有限数"] else [])

/-- The same checks as for an acquisition. -/
def validateRefreshIntent (scope : LeaseScope) (now ttlMs : ℚ) : List String :=
  validateAcquireIntent scope now ttlMs

def leaseExpiry (now ttlMs : ℚ) : ℚ := now + ttlMs

/-! ## Commands -/

inductive LeaseCmd
  | acquire (scope : LeaseScope) (acquiredAt ttlMs : ℚ)
  | release (scope : LeaseScope) (holderToken : ℕ)
  | refresh (scope : LeaseScope) (holderToken : ℕ) (ttlMs : ℚ)
  /-- The row of the scope is read, to complete the handle. -/
  | get (scope : LeaseScope) (handle : LeaseHandle)
  deriving DecidableEq

structure LeaseReply where
  rowsAffected : ℕ
  /-- The token of the attempt. -/
  holderToken : ℕ
  row : Option PersonaLease
  deriving DecidableEq

namespace LeaseDb

variable (db : LeaseDb) (scope : LeaseScope) (holderToken : ℕ)

/-- No row, or one that has expired: the upsert takes effect. -/
def Free : Prop := ∀ row, db.rows scope = some row → row.expiresAt ≤ db.clock

instance : Decidable (db.Free scope) :=
  match h : db.rows scope with
  | none => isTrue (by simp [Free, h])
  | some row => decidable_of_iff (row.expiresAt ≤ db.clock) (by simp [Free, h])

def HeldBy : Prop := ∃ row, db.rows scope = some row ∧ row.holderToken = holderToken

instance : Decidable (db.HeldBy scope holderToken) :=
  match h : db.rows scope with
  | none => isFalse (by simp [HeldBy, h])
  | some row => decidable_of_iff (row.holderToken = holderToken) (by simp [HeldBy, h])

/-- The row of the scope carries the token and has not expired. -/
def Live : Prop :=
  ∃ row, db.rows scope = some row ∧ row.holderToken = holderToken ∧ db.clock < row.expiresAt

instance : Decidable (db.Live scope holderToken) :=
  match h : db.rows scope with
  | none => isFalse (by simp [Live, h])
  | some row =>
    decidable_of_iff (row.holderToken = holderToken ∧ db.clock < row.expiresAt) (by simp [Live, h])

def set (row : Option PersonaLease) : LeaseDb :=
  { db with rows := Function.update db.rows scope row }

theorem set_rows_of_ne {db : LeaseDb} {scope scope' : LeaseScope} {row : Option PersonaLease}
    (h : scope' ≠ scope) : (db.set scope row).rows scope' = db.rows scope' :=
  Function.update_of_ne h _ _

/-- The time that passes before a command. -/
def wait (elapsed : ℕ) : LeaseDb := { db with clock := db.clock + elapsed }

/-- The expiry of what is granted now. -/
def expiry (ttlMs : ℚ) : ℚ := db.clock + ttlMs

/-- A command at the time the clock shows. -/
def apply : LeaseCmd → LeaseDb × LeaseReply
  | .acquire scope acquiredAt ttlMs =>
    let drawn := { db with tokens := db.tokens + 1 }
    if db.Free scope then
      (drawn.set scope (some ⟨db.tokens, acquiredAt, db.expiry ttlMs⟩), ⟨1, db.tokens, none⟩)
    else (drawn, ⟨0, db.tokens, none⟩)
  | .release scope holderToken =>
    if db.HeldBy scope holderToken then (db.set scope none, ⟨1, holderToken, none⟩)
    else (db, ⟨0, holderToken, none⟩)
  | .refresh scope holderToken ttlMs =>
    if db.Live scope holderToken then
      (db.set scope ((db.rows scope).map fun row => { row with expiresAt := db.expiry ttlMs }),
        ⟨1, holderToken, none⟩)
    else (db, ⟨0, holderToken, none⟩)
  | .get scope handle => (db, ⟨0, handle.holderToken, db.rows scope⟩)

end LeaseDb

def exec (elapsed : ℕ) (cmd : LeaseCmd) (db : LeaseDb) : LeaseDb × LeaseReply :=
  (db.wait elapsed).apply cmd

/-! ## The store -/

inductive LeaseResult
  | handle (h : Option LeaseHandle)
  | released (b : Bool)
  /-- Whether the work was done. -/
  | ran (b : Bool)
  deriving DecidableEq

abbrev LeaseProg := Prog LeaseDb LeaseCmd LeaseReply ℕ String

/-- The handle with the expiry that was read back, if any was. -/
def LeaseHandle.confirm (handle : LeaseHandle) (persisted : Option PersonaLease) : LeaseHandle :=
  { handle with expiresAt := (persisted.map PersonaLease.expiresAt).getD handle.expiresAt }

def acquire (scope : LeaseScope) (now ttlMs : ℚ) : LeaseProg (Option LeaseHandle) :=
  let errors := validateAcquireIntent scope now ttlMs
  if errors.length > 0 then .throw ("PersonaLease acquire 非法输入: " ++ "; ".intercalate errors)
  else do
    let result ← Prog.transaction (.acquire scope now ttlMs)
    if result.rowsAffected ≤ 0 then return none
    else
      let handle : LeaseHandle := ⟨scope, result.holderToken, leaseExpiry now ttlMs⟩
      let persisted ← Prog.transaction (.get scope handle)
      return some (handle.confirm persisted.row)

def release (handle : LeaseHandle) : LeaseProg Bool := do
  let result ← Prog.transaction (.release handle.scope handle.holderToken)
  return result.rowsAffected > 0

/-- The lease is read back under the tenant of the store. -/
def refresh (tenantId : String) (handle : LeaseHandle) (now ttlMs : ℚ) :
    LeaseProg (Option LeaseHandle) :=
  let errors := validateRefreshIntent handle.scope now ttlMs
  if errors.length > 0 then .throw ("PersonaLease refresh 非法输入: " ++ "; ".intercalate errors)
  else do
    let result ← Prog.transaction (.refresh handle.scope handle.holderToken ttlMs)
    if result.rowsAffected ≤ 0 then return none
    else
      let handle := { handle with expiresAt := leaseExpiry now ttlMs }
      let persisted ← Prog.transaction (.get { handle.scope with tenantId := tenantId } handle)
      return some (handle.confirm persisted.row)

def withLease (scope : LeaseScope) (now ttlMs : ℚ) : LeaseProg Bool := do
  match ← acquire scope now ttlMs with
  | none => return false
  | some handle =>
    let _ ← release handle
    return true

inductive LeaseCall
  | acquire (scope : LeaseScope) (now ttlMs : ℚ)
  | release (handle : LeaseHandle)
  | refresh (tenantId : String) (handle : LeaseHandle) (now ttlMs : ℚ)
  | withLease (scope : LeaseScope) (now ttlMs : ℚ)

def LeaseCall.start : LeaseCall → LeaseProg LeaseResult
  | .acquire scope now ttlMs => return .handle (← Lease.acquire scope now ttlMs)
  | .release handle => return .released (← Lease.release handle)
  | .refresh tenantId handle now ttlMs => return .handle (← Lease.refresh tenantId handle now ttlMs)
  | .withLease scope now ttlMs => return .ran (← Lease.withLease scope now ttlMs)

/-- The holders' calls over the table. -/
abbrev LeasePool := Pool LeaseCall LeaseDb LeaseCmd LeaseReply ℕ String LeaseResult

abbrev LeaseMove := Move LeaseCall ℕ

/-- No lease has been granted yet. -/
def LeaseDb.empty (clock : ℤ) : LeaseDb := ⟨clock, 0, fun _ => none⟩

end ChronoSynth.Lease

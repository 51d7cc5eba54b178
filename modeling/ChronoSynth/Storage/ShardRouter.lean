import Mathlib.Data.List.Dedup
import Mathlib.Data.List.Sort
import Mathlib.Data.List.Lex
import ChronoSynth.Lib.Run
import ChronoSynth.Lib.Utf16

/-!
# The shard router

`shard-router.ts` and `shard-hash.ts`: a tenant is routed to a shard by a hash of its name, and there is one database for a
connection string, built when it is first asked for. The router closes what it has built and nothing that it was given.

A call of `buildDb` has a number, by which the database that comes of it is known; `throws` says which of these calls throw.
What was built and what was closed is kept beside the router's own fields, which do not depend on it.
-/

namespace ChronoSynth.Storage

local instance shardLawfulBEq : LawfulBEq (List ℕ) := inferInstance

/-! ## Routing -/

def FNV64_OFFSET : ℕ := 0xcbf29ce484222325

def FNV64_PRIME : ℕ := 0x100000001b3

def fnv1a64 (s : Text) : ℕ := s.foldl (fun h c => (h ^^^ c) * FNV64_PRIME % 2 ^ 64) FNV64_OFFSET

/-- The shard of a tenant; it throws where there are none. -/
def shardIdForTenant (tenantId : Text) (shardIds : List Text) : Option Text :=
  let sorted := shardIds.insertionSort (· ≤ ·)
  sorted[fnv1a64 tenantId % sorted.length]?

structure ShardRouterConfig where
  shards : List (Text × Text)
  homeShardId : Text
  coordinatorConnStr : Option Text
  /-- The databases given, each by a number of its own. -/
  seedDbs : List (Text × ℕ)
  shards_nodup : (shards.map Prod.fst).Nodup
  seedDbs_nodup : (seedDbs.map Prod.fst).Nodup

/-- What the constructor accepts. -/
structure RouterConfig extends ShardRouterConfig where
  home_mem : homeShardId ∈ shards.map Prod.fst

/-- The constructor's check. -/
def ShardRouterConfig.accept (cfg : ShardRouterConfig) : Option RouterConfig :=
  if h : cfg.homeShardId ∈ cfg.shards.map Prod.fst then some { cfg with home_mem := h } else none

namespace RouterConfig

variable (cfg : RouterConfig)

def shardIds : List Text := cfg.shards.map Prod.fst

def connStrs : List Text := cfg.shards.map Prod.snd

def coordinator : Text := cfg.coordinatorConnStr.getD ((cfg.shards.lookup cfg.homeShardId).getD [])

def shardOf (tenantId : Text) : Option Text :=
  if tenantId = units "default" then some cfg.homeShardId else shardIdForTenant tenantId cfg.shardIds

def connOf (tenantId : Text) : Option Text := (cfg.shardOf tenantId).bind fun shardId => cfg.shards.lookup shardId

end RouterConfig

/-! ## Pools -/

inductive Db
  | seeded (name : ℕ)
  | built (call : ℕ)
  deriving DecidableEq, Repr

structure ShardRouter where
  byConnStr : List (Text × Db)
  owned : List Text
  closed : Bool
  /-- How often `buildDb` was called. -/
  calls : ℕ
  built : List (ℕ × Text)
  /-- The databases whose `close` was called. -/
  closes : List Db
  deriving DecidableEq, Repr

def ShardRouter.create (cfg : RouterConfig) : ShardRouter where
  byConnStr := cfg.seedDbs.map fun s => (s.1, .seeded s.2)
  owned := []
  closed := false
  calls := 0
  built := []
  closes := []

inductive RouterCall
  | dbForTenant (tenantId : Text)
  | coordinatorDb | allShardDbs | initialize_ | close
  deriving DecidableEq, Repr

namespace ShardRouter

variable (cfg : RouterConfig) (throws : ℕ → Bool) (r : ShardRouter)

/-- The database for the connection string, or `none` if `buildDb` throws. -/
def dbForConn (connStr : Text) : ShardRouter × Option Db :=
  match r.byConnStr.lookup connStr with
  | some db => (r, some db)
  | none =>
    let db := Db.built r.calls
    if throws r.calls then ({ r with calls := r.calls + 1 }, none)
    else
      ({ r with
          byConnStr := r.byConnStr ++ [(connStr, db)]
          owned := if connStr ∈ r.owned then r.owned else r.owned ++ [connStr]
          calls := r.calls + 1
          built := r.built ++ [(r.calls, connStr)] }, some db)

/-- One after the other, up to the first that throws. -/
def dbForConns (r : ShardRouter) : List Text → ShardRouter × Option (List Db)
  | [] => (r, some [])
  | connStr :: connStrs =>
    match dbForConn throws r connStr with
    | (r, none) => (r, none)
    | (r, some db) => ((dbForConns r connStrs).1, (dbForConns r connStrs).2.map (db :: ·))

def dbForTenant (tenantId : Text) : ShardRouter × Option Db :=
  match cfg.connOf tenantId with
  | some connStr => dbForConn throws r connStr
  | none => (r, none)

def coordinatorDb : ShardRouter × Option Db := dbForConn throws r cfg.coordinator

def allShardDbs : ShardRouter × Option (List Db) := dbForConns throws r cfg.connStrs.eraseDups

/-- What a `close` throws is dropped. -/
def close : ShardRouter :=
  if r.closed then r
  else
    { r with
      closed := true
      closes := r.closes ++ r.owned.filterMap fun connStr => r.byConnStr.lookup connStr
      byConnStr := []
      owned := [] }

/-- Whether it returns. -/
def initialize_ : ShardRouter × Bool :=
  match dbForConns throws r (cfg.connStrs ++ [cfg.coordinator]) with
  | (r, some _) => (r, true)
  | (r, none) => (r.close, false)

def step (r : ShardRouter) : RouterCall → ShardRouter
  | .dbForTenant tenantId => (dbForTenant cfg throws r tenantId).1
  | .coordinatorDb => (coordinatorDb cfg throws r).1
  | .allShardDbs => (allShardDbs cfg throws r).1
  | .initialize_ => (initialize_ cfg throws r).1
  | .close => r.close

end ShardRouter

/-! ## Routing does not depend on the order -/

section routing
variable {β : Type*} {l l' : List (Text × β)} {k : Text} {b : β}

theorem lookup_iff (h : (l.map Prod.fst).Nodup) : l.lookup k = some b ↔ (k, b) ∈ l := by
  rw [List.lookup_eq_some_iff]
  constructor
  · rintro ⟨pre, post, rfl, -⟩
    simp
  · intro hmem
    obtain ⟨pre, post, rfl⟩ := List.append_of_mem hmem
    refine ⟨pre, post, rfl, fun p hp => ?_⟩
    rw [List.map_append, List.map_cons, List.nodup_append] at h
    have hne : p.1 ≠ k := h.2.2 _ (List.mem_map_of_mem hp) _ List.mem_cons_self
    simpa using hne.symm

theorem lookup_none_iff : l.lookup k = none ↔ k ∉ l.map Prod.fst := by
  rw [List.lookup_eq_none_iff]
  constructor
  · intro h hmem
    obtain ⟨p, hp, rfl⟩ := List.mem_map.1 hmem
    simpa using h p hp
  · intro h p hp
    have hne : k ≠ p.1 := fun heq => h (heq ▸ List.mem_map_of_mem hp)
    simpa using hne

theorem lookup_perm (h : (l.map Prod.fst).Nodup) (hp : l'.Perm l) : l'.lookup k = l.lookup k := by
  have h' : (l'.map Prod.fst).Nodup := (hp.map Prod.fst).nodup_iff.2 h
  ext b
  rw [lookup_iff h, lookup_iff h', hp.mem_iff]

theorem shardIdForTenant_perm {tenantId : Text} {ids ids' : List Text} (h : ids'.Perm ids) :
    shardIdForTenant tenantId ids' = shardIdForTenant tenantId ids := by
  have hsort : ids'.insertionSort (· ≤ ·) = ids.insertionSort (· ≤ ·) :=
    List.Perm.eq_of_pairwise (fun _ _ _ _ => le_antisymm) (List.pairwise_insertionSort _ _)
      (List.pairwise_insertionSort _ _)
      (((List.perm_insertionSort _ _).trans h).trans (List.perm_insertionSort _ _).symm)
  simp only [shardIdForTenant, hsort]

variable {cfg cfg' : RouterConfig} {tenantId : Text}

theorem shardOf_perm (h : cfg'.shards.Perm cfg.shards) (ht : tenantId ≠ units "default") :
    cfg'.shardOf tenantId = cfg.shardOf tenantId := by
  rw [RouterConfig.shardOf, RouterConfig.shardOf, if_neg ht, if_neg ht]
  exact shardIdForTenant_perm (h.map Prod.fst)

/-- **Routing.** Another order of the shards routes a tenant to the same shard and the same connection string. -/
theorem connOf_perm (h : cfg'.shards.Perm cfg.shards) (ht : tenantId ≠ units "default") :
    cfg'.connOf tenantId = cfg.connOf tenantId := by
  have hlookup : ∀ shardId, cfg'.shards.lookup shardId = cfg.shards.lookup shardId := fun _ =>
    lookup_perm cfg.shards_nodup h
  simp only [RouterConfig.connOf, shardOf_perm h ht, hlookup]

end routing

/-! ## What a call builds -/

/-- The connection strings that a call asks for, in order. -/
def RouterCall.asks (cfg : RouterConfig) : RouterCall → List Text
  | .dbForTenant tenantId => (cfg.connOf tenantId).toList
  | .coordinatorDb => [cfg.coordinator]
  | .allShardDbs => cfg.connStrs.eraseDups
  | .initialize_ => cfg.connStrs ++ [cfg.coordinator]
  | .close => []

/-- Those of them for which there is nothing yet. -/
def fresh (known : List Text) : List Text → List Text
  | [] => []
  | connStr :: connStrs =>
    if connStr ∈ known then fresh known connStrs else connStr :: fresh (known ++ [connStr]) connStrs

/-- Those before the first for which `buildDb` throws. -/
def builds (throws : ℕ → Bool) : ℕ → List Text → List Text
  | _, [] => []
  | n, connStr :: connStrs => if throws n then [] else connStr :: builds throws (n + 1) connStrs

def numbered : ℕ → List Text → List (ℕ × Text)
  | _, [] => []
  | n, connStr :: connStrs => (n, connStr) :: numbered (n + 1) connStrs

section
variable {known connStrs : List Text} {throws : ℕ → Bool} {n : ℕ}

theorem fresh_spec : (fresh known connStrs).Nodup ∧ ∀ c ∈ fresh known connStrs, c ∉ known := by
  induction connStrs generalizing known with
  | nil => simp [fresh]
  | cons c cs ih =>
    rw [fresh]
    split
    next => exact ih
    next hc =>
      obtain ⟨hnodup, hnew⟩ := @ih (known ++ [c])
      refine ⟨List.nodup_cons.2 ⟨fun hmem => hnew c hmem (by simp), hnodup⟩, fun d hd => ?_⟩
      rcases List.mem_cons.1 hd with rfl | hd
      · exact hc
      · exact fun hknown => hnew d hd (List.mem_append_left _ hknown)

theorem builds_prefix : builds throws n connStrs <+: connStrs := by
  induction connStrs generalizing n with
  | nil => exact List.prefix_refl _
  | cons c cs ih =>
    rw [builds]
    split
    · exact List.nil_prefix
    · exact List.cons_prefix_cons.2 ⟨rfl, ih⟩

@[simp] theorem numbered_map_snd : (numbered n connStrs).map Prod.snd = connStrs := by
  induction connStrs generalizing n with
  | nil => rfl
  | cons c cs ih => rw [numbered, List.map_cons, ih]

theorem numbered_map_fst : (numbered n connStrs).map Prod.fst = List.range' n connStrs.length := by
  induction connStrs generalizing n with
  | nil => rfl
  | cons c cs ih => rw [numbered, List.map_cons, ih, List.length_cons, List.range'_succ]

theorem numbered_fst {b : ℕ × Text} (h : b ∈ numbered n connStrs) : n ≤ b.1 ∧ b.1 < n + connStrs.length := by
  have hmem := List.mem_map_of_mem (f := Prod.fst) h
  rw [numbered_map_fst, List.mem_range'_1] at hmem
  exact hmem

end

namespace ShardRouter

variable {cfg : RouterConfig} {throws : ℕ → Bool} {r : ShardRouter} {connStrs : List Text} {n : ℕ} {e : RouterCall}

def keys (r : ShardRouter) : List Text := r.byConnStr.map Prod.fst

/-- The router with databases built for these connection strings, after `n` calls of `buildDb`. -/
def add (r : ShardRouter) (connStrs : List Text) (n : ℕ) : ShardRouter :=
  { r with
    byConnStr := r.byConnStr ++ (numbered r.calls connStrs).map fun b => (b.2, .built b.1)
    owned := r.owned ++ connStrs
    calls := n
    built := r.built ++ numbered r.calls connStrs }

theorem add_nil : r.add [] r.calls = r := by
  simp [add, numbered]

theorem add_add {c : Text} : (r.add [c] (r.calls + 1)).add connStrs n = r.add (c :: connStrs) n := by
  simp [add, numbered]

theorem keys_add : (r.add connStrs n).keys = r.keys ++ connStrs := by
  have hmap : (numbered r.calls connStrs).map (Prod.fst ∘ fun b => (b.2, Db.built b.1)) =
      (numbered r.calls connStrs).map Prod.snd := rfl
  rw [keys, add, List.map_append, List.map_map, hmap, numbered_map_snd, keys]

theorem dbForConn_known {c : Text} (h : c ∈ r.keys) : ∃ db, dbForConn throws r c = (r, some db) := by
  obtain ⟨db, hdb⟩ := Option.ne_none_iff_exists'.1 fun hnone => lookup_none_iff.1 hnone h
  exact ⟨db, by simp only [dbForConn, hdb]⟩

theorem dbForConn_fresh {c : Text} (hown : ∀ c ∈ r.owned, c ∈ r.keys) (h : c ∉ r.keys) :
    dbForConn throws r c =
      if throws r.calls then (r.add [] (r.calls + 1), none)
      else (r.add [c] (r.calls + 1), some (.built r.calls)) := by
  have howned : c ∉ r.owned := fun hc => h (hown c hc)
  simp [dbForConn, lookup_none_iff.2 h, howned, add, numbered]

/-- **Lookups.** One lookup after the other builds what `builds` says, and returns if that is all there was to build. -/
theorem dbForConns_spec (hown : ∀ c ∈ r.owned, c ∈ r.keys) :
    let got := builds throws r.calls (fresh r.keys connStrs)
    (∃ n ≥ r.calls + got.length, (dbForConns throws r connStrs).1 = r.add got n) ∧
      ((dbForConns throws r connStrs).2 = none ↔ got ≠ fresh r.keys connStrs) := by
  induction connStrs generalizing r with
  | nil => exact ⟨⟨r.calls, le_rfl, add_nil.symm⟩, by simp [dbForConns, fresh, builds]⟩
  | cons c cs ih =>
    by_cases hc : c ∈ r.keys
    · obtain ⟨db, hdb⟩ := @dbForConn_known throws r c hc
      obtain ⟨hstate, hnone⟩ := ih hown
      simp only [dbForConns, hdb, fresh, if_pos hc, Option.map_eq_none_iff]
      exact ⟨hstate, hnone⟩
    · simp only [dbForConns, dbForConn_fresh hown hc, fresh, if_neg hc, builds]
      by_cases hthrows : throws r.calls
      · simp only [if_pos hthrows]
        exact ⟨⟨r.calls + 1, by simp, rfl⟩, by simp⟩
      · have hkeys : (r.add [c] (r.calls + 1)).keys = r.keys ++ [c] := keys_add
        have hown' : ∀ d ∈ (r.add [c] (r.calls + 1)).owned, d ∈ (r.add [c] (r.calls + 1)).keys := by
          intro d hd
          rw [hkeys]
          rcases List.mem_append.1 hd with hd | hd
          · exact List.mem_append_left _ (hown d hd)
          · exact List.mem_append_right _ hd
        obtain ⟨⟨n, hn, hstate⟩, hnone⟩ := ih hown'
        have hcalls : (r.add [c] (r.calls + 1)).calls = r.calls + 1 := rfl
        rw [hkeys, hcalls] at hn hstate hnone
        simp only [if_neg hthrows, Option.map_eq_none_iff]
        refine ⟨⟨n, ?_, hstate.trans add_add⟩, hnone.trans ?_⟩
        · rw [List.length_cons]
          omega
        · rw [Ne, Ne, List.cons_inj_right]

/-! ## What a run keeps -/

def openDbs (r : ShardRouter) : List (ℕ × Text) := r.built.filter fun b => .built b.1 ∉ r.closes

/-- No connection string has two open databases, and no database is closed twice or without having been built here. -/
structure Owned (cfg : RouterConfig) (r : ShardRouter) : Prop where
  one : (cfg.seedDbs.map Prod.fst ++ r.openDbs.map Prod.snd).Nodup
  once : r.closes.Nodup
  own : ∀ db ∈ r.closes, ∃ b ∈ r.built, db = .built b.1

/-- The cache holds the open databases, and until it is closed those that were given. -/
structure Kept (cfg : RouterConfig) (r : ShardRouter) : Prop extends Owned cfg r where
  conns : r.byConnStr = (if r.closed then [] else cfg.seedDbs.map fun s => (s.1, .seeded s.2)) ++
    r.openDbs.map fun b => (b.2, .built b.1)
  owned : r.owned = r.openDbs.map Prod.snd
  lt : ∀ b ∈ r.built, b.1 < r.calls
  numbers : (r.built.map Prod.fst).Nodup

theorem Kept.create : Kept cfg (create cfg) where
  one := by simpa [ShardRouter.create, openDbs] using cfg.seedDbs_nodup
  once := List.nodup_nil
  own _ h := absurd h List.not_mem_nil
  conns := by simp [ShardRouter.create, openDbs]
  owned := rfl
  lt _ h := absurd h List.not_mem_nil
  numbers := List.nodup_nil

theorem Kept.keys_eq (h : Kept cfg r) :
    r.keys = (if r.closed then [] else cfg.seedDbs.map Prod.fst) ++ r.openDbs.map Prod.snd := by
  rw [keys, h.conns, List.map_append, List.map_map]
  split
  · rfl
  · rw [List.map_map]
    rfl

theorem Kept.owned_sub (h : Kept cfg r) : ∀ c ∈ r.owned, c ∈ r.keys := fun c hc => by
  rw [h.keys_eq]
  exact List.mem_append_right _ (h.owned ▸ hc)

/-- What is built now was not closed before. -/
theorem Kept.openDbs_add (h : Kept cfg r) : (r.add connStrs n).openDbs = r.openDbs ++ numbered r.calls connStrs := by
  have hnew : (numbered r.calls connStrs).filter (fun b => .built b.1 ∉ r.closes) = numbered r.calls connStrs := by
    refine List.filter_eq_self.2 fun b hb => decide_eq_true fun hclosed => ?_
    obtain ⟨b', hb', heq⟩ := h.own _ hclosed
    have hlt := h.lt b' hb'
    have hle := (numbered_fst hb).1
    rw [Db.built.inj heq] at hle
    omega
  rw [openDbs, add, List.filter_append, hnew, openDbs]

/-- **Building.** New databases for connection strings that had none. -/
theorem Kept.add (h : Kept cfg r) (hnodup : connStrs.Nodup) (hkeys : ∀ c ∈ connStrs, c ∉ r.keys)
    (hseeds : r.closed → ∀ c ∈ connStrs, c ∉ cfg.seedDbs.map Prod.fst) (hn : r.calls + connStrs.length ≤ n) :
    Kept cfg (r.add connStrs n) := by
  have hnew : ∀ c ∈ connStrs, c ∉ cfg.seedDbs.map Prod.fst ++ r.openDbs.map Prod.snd := by
    intro c hc hmem
    have hkey := hkeys c hc
    rw [h.keys_eq] at hkey
    rcases List.mem_append.1 hmem with hseed | hopen
    · by_cases hclosed : r.closed
      · exact hseeds hclosed c hc hseed
      · rw [if_neg hclosed] at hkey
        exact hkey (List.mem_append_left _ hseed)
    · exact hkey (List.mem_append_right _ hopen)
  have hnumbers : ∀ b ∈ r.built, ∀ b' ∈ numbered r.calls connStrs, b.1 ≠ b'.1 := fun b hb b' hb' => by
    have hlt := h.lt b hb
    have hle := (numbered_fst hb').1
    omega
  refine ⟨⟨?_, h.once, fun db hdb => ?_⟩, ?_, ?_, fun b hb => ?_, ?_⟩
  · rw [h.openDbs_add, List.map_append, numbered_map_snd, ← List.append_assoc, List.nodup_append]
    exact ⟨h.one, hnodup, fun c hc d hd heq => hnew d hd (heq ▸ hc)⟩
  · obtain ⟨b, hb, heq⟩ := h.own db hdb
    exact ⟨b, List.mem_append_left _ hb, heq⟩
  · rw [h.openDbs_add, List.map_append, ← List.append_assoc]
    exact congrArg (· ++ _) h.conns
  · rw [h.openDbs_add, List.map_append, numbered_map_snd]
    exact congrArg (· ++ _) h.owned
  · rcases List.mem_append.1 hb with hb | hb
    · exact (h.lt b hb).trans_le ((Nat.le_add_right _ _).trans hn)
    · exact (numbered_fst hb).2.trans_le hn
  · change ((r.built ++ numbered r.calls connStrs).map Prod.fst).Nodup
    rw [List.map_append, List.nodup_append]
    refine ⟨h.numbers, ?_, fun a ha a' ha' heq => ?_⟩
    · rw [numbered_map_fst]
      exact List.nodup_range'
    · obtain ⟨b, hb, rfl⟩ := List.mem_map.1 ha
      obtain ⟨b', hb', rfl⟩ := List.mem_map.1 ha'
      exact hnumbers b hb b' hb' heq

theorem close_of_closed (h : r.closed) : r.close = r := if_pos h

/-- The first `close` closes every open database. -/
theorem Kept.closes_close (h : Kept cfg r) (hopen : ¬ r.closed) :
    r.close.closes = r.closes ++ r.openDbs.map fun b => .built b.1 := by
  have hnodup : (r.byConnStr.map Prod.fst).Nodup := by
    have hkeys := h.keys_eq
    rw [if_neg hopen] at hkeys
    exact (congrArg List.Nodup hkeys).mpr h.one
  have hlookup : ∀ b ∈ r.openDbs, r.byConnStr.lookup b.2 = some (.built b.1) := fun b hb => by
    rw [lookup_iff hnodup, h.conns]
    exact List.mem_append_right _ (List.mem_map_of_mem (f := fun b => (b.2, Db.built b.1)) hb)
  have hmap : r.owned.filterMap (fun c => r.byConnStr.lookup c) = r.openDbs.map fun b => .built b.1 := by
    rw [h.owned, List.filterMap_map, ← List.filterMap_eq_map]
    exact List.filterMap_congr hlookup
  rw [close, if_neg hopen, ← hmap]

theorem Kept.openDbs_close (h : Kept cfg r) (hopen : ¬ r.closed) : r.close.openDbs = [] := by
  have hbuilt : r.close.built = r.built := by rw [close, if_neg hopen]
  rw [openDbs, hbuilt, h.closes_close hopen, List.filter_eq_nil_iff]
  intro b hb hnot
  refine of_decide_eq_true hnot ?_
  by_cases hclosed : .built b.1 ∈ r.closes
  · exact List.mem_append_left _ hclosed
  · exact List.mem_append_right _ (List.mem_map.2 ⟨b, List.mem_filter.2 ⟨hb, decide_eq_true hclosed⟩, rfl⟩)

/-- **Closing.** -/
theorem Kept.close (h : Kept cfg r) : Kept cfg r.close := by
  by_cases hclosed : r.closed
  · rwa [close_of_closed hclosed]
  have hnone := h.openDbs_close hclosed
  have heq : r.close = ⟨[], [], true, r.calls, r.built, r.close.closes⟩ := by
    rw [ShardRouter.close, if_neg hclosed]
  have hbuilt : r.close.built = r.built := by rw [heq]
  refine ⟨⟨?_, ?_, fun db hdb => ?_⟩, ?_, ?_, fun b hb => ?_, ?_⟩
  · rw [hnone]
    simpa using cfg.seedDbs_nodup
  · rw [h.closes_close hclosed, List.nodup_append]
    have hinj : (r.openDbs.map fun b => Db.built b.1).Nodup := by
      have hfst : (r.openDbs.map Prod.fst).Nodup := h.numbers.sublist (List.filter_sublist.map _)
      have hmap := hfst.map (f := Db.built) fun _ _ => Db.built.inj
      rwa [List.map_map] at hmap
    refine ⟨h.once, hinj, fun db hdb db' hdb' heq => ?_⟩
    obtain ⟨b, hb, rfl⟩ := List.mem_map.1 hdb'
    exact of_decide_eq_true (List.mem_filter.1 hb).2 (heq ▸ hdb)
  · rw [h.closes_close hclosed] at hdb
    rw [hbuilt]
    rcases List.mem_append.1 hdb with hdb | hdb
    · exact h.own db hdb
    · obtain ⟨b, hb, rfl⟩ := List.mem_map.1 hdb
      exact ⟨b, (List.mem_filter.1 hb).1, rfl⟩
  · rw [hnone, heq]
    rfl
  · rw [hnone, heq]
    rfl
  · rw [heq] at hb ⊢
    exact h.lt b hb
  · rw [hbuilt]
    exact h.numbers

/-! ## Leaks -/

/-- What the call builds. -/
def got (cfg : RouterConfig) (throws : ℕ → Bool) (r : ShardRouter) (e : RouterCall) : List Text :=
  builds throws r.calls (fresh r.keys (e.asks cfg))

/-- It closes the router: it is a `close`, or an `initialize` that does not build all there is to build. -/
def Closing (cfg : RouterConfig) (throws : ℕ → Bool) (r : ShardRouter) (e : RouterCall) : Prop :=
  e = .close ∨ e = .initialize_ ∧ got cfg throws r e ≠ fresh r.keys (e.asks cfg)

instance : Decidable (Closing cfg throws r e) := inferInstanceAs (Decidable (_ ∨ _))

/-- After a `close` and after an `initialize` that failed, nothing is left open. -/
def LeavesNone (cfg : RouterConfig) (throws : ℕ → Bool) (r : ShardRouter) (e : RouterCall) : Prop :=
  (e = .close ∨ e = .initialize_ ∧ (initialize_ cfg throws r).2 = false) → (step cfg throws r e).openDbs = []

/-- Once the router is closed, the call builds nothing that was given before, and where it closes the router again there is
nothing left from after the first time. -/
def Idle (cfg : RouterConfig) (throws : ℕ → Bool) (r : ShardRouter) (e : RouterCall) : Prop :=
  r.closed = true → (∀ c ∈ got cfg throws r e, c ∉ cfg.seedDbs.map Prod.fst) ∧
    (Closing cfg throws r e → r.owned = [] ∧ got cfg throws r e = [])

theorem dbForConn_eq {c : Text} : (dbForConn throws r c).1 = (dbForConns throws r [c]).1 := by
  rw [dbForConns]
  split
  next h => rw [h]
  next h => rw [h, dbForConns]

theorem initialize_eq_false_iff (h : Kept cfg r) :
    (initialize_ cfg throws r).2 = false ↔
      got cfg throws r .initialize_ ≠ fresh r.keys (RouterCall.initialize_.asks cfg) := by
  rw [got, ← (dbForConns_spec h.owned_sub).2, initialize_, RouterCall.asks]
  split
  next heq => simp [heq]
  next heq => simp [heq]

/-- **A call.** It builds what it gets, and then perhaps closes the router. -/
theorem step_spec (h : Kept cfg r) : ∃ n ≥ r.calls + (got cfg throws r e).length,
    step cfg throws r e =
      if Closing cfg throws r e then (r.add (got cfg throws r e) n).close else r.add (got cfg throws r e) n := by
  obtain ⟨⟨n, hn, hstate⟩, hnone⟩ := @dbForConns_spec throws r (e.asks cfg) h.owned_sub
  refine ⟨n, hn, ?_⟩
  rw [← show _ = r.add (got cfg throws r e) n from hstate]
  cases e with
  | dbForTenant tenantId =>
    rw [if_neg (by simp [Closing]), step, dbForTenant, RouterCall.asks]
    cases cfg.connOf tenantId with
    | some c => exact dbForConn_eq
    | none => rfl
  | coordinatorDb =>
    rw [if_neg (by simp [Closing])]
    exact dbForConn_eq
  | allShardDbs => rw [if_neg (by simp [Closing])]; rfl
  | close =>
    rw [if_pos (.inl rfl)]
    rfl
  | initialize_ =>
    have hclosing : Closing cfg throws r .initialize_ ↔
        (dbForConns throws r (cfg.connStrs ++ [cfg.coordinator])).2 = none := by
      simp only [Closing, reduceCtorEq, true_and, false_or]
      exact hnone.symm
    rw [step, initialize_, RouterCall.asks]
    split
    next heq => rw [if_neg (by simp [hclosing, heq]), heq]
    next heq => rw [if_pos (by simp [hclosing, heq]), heq]

theorem openDbs_step_of_closed (h : Kept cfg r) (hclosed : r.closed = true) :
    (step cfg throws r e).openDbs = r.openDbs ++ numbered r.calls (got cfg throws r e) := by
  obtain ⟨n, -, hstep⟩ := @step_spec cfg throws r e h
  have hadd : (r.add (got cfg throws r e) n).closed = true := hclosed
  rw [hstep, close_of_closed hadd, ite_self, h.openDbs_add]

/-- **One call.** -/
theorem Kept.step (h : Kept cfg r) (hidle : Idle cfg throws r e) :
    Kept cfg (ShardRouter.step cfg throws r e) ∧ LeavesNone cfg throws r e := by
  obtain ⟨n, hn, hstep⟩ := @step_spec cfg throws r e h
  have hfresh := @fresh_spec r.keys (e.asks cfg)
  have hstart : got cfg throws r e <+: fresh r.keys (e.asks cfg) := builds_prefix
  have hadd : Kept cfg (r.add (got cfg throws r e) n) :=
    h.add (hfresh.1.sublist hstart.sublist) (fun c hc => hfresh.2 c (hstart.subset hc)) (fun hc => (hidle hc).1) hn
  refine ⟨?_, fun hleaves => ?_⟩
  · rw [hstep]
    split
    · exact hadd.close
    · exact hadd
  · have hclosing : Closing cfg throws r e := by
      rcases hleaves with rfl | ⟨rfl, hfail⟩
      · exact .inl rfl
      · exact .inr ⟨rfl, (initialize_eq_false_iff h).1 hfail⟩
    by_cases hclosed : r.closed = true
    · obtain ⟨howned, hgot⟩ := (hidle hclosed).2 hclosing
      have hopen : r.openDbs = [] := by
        rw [h.owned] at howned
        exact List.map_eq_nil_iff.1 howned
      rw [openDbs_step_of_closed h hclosed, hopen, hgot]
      rfl
    · rw [hstep, if_pos hclosing]
      exact hadd.openDbs_close hclosed

theorem idle_of_step (h : Kept cfg r) (howned : Owned cfg (step cfg throws r e)) (hleaves : LeavesNone cfg throws r e) :
    Idle cfg throws r e := by
  intro hclosed
  have hopen := @openDbs_step_of_closed cfg throws r e h hclosed
  constructor
  · intro c hc hseed
    have hone := howned.one
    rw [hopen, List.map_append, numbered_map_snd, List.nodup_append] at hone
    exact hone.2.2 c hseed c (List.mem_append_right _ hc) rfl
  · intro hclosing
    have hnone : (step cfg throws r e).openDbs = [] := by
      refine hleaves ?_
      rcases hclosing with rfl | ⟨rfl, hgot⟩
      · exact .inl rfl
      · exact .inr ⟨rfl, (initialize_eq_false_iff h).2 hgot⟩
    rw [hopen, List.append_eq_nil_iff] at hnone
    refine ⟨by rw [h.owned, hnone.1]; rfl, ?_⟩
    rw [← @numbered_map_snd (got cfg throws r e) r.calls, hnone.2]
    rfl

end ShardRouter

/-! ## Exact ownership -/

open ShardRouter

/-- **What is asked of the router**: over a run its pools are owned exactly, and tenants are routed whatever the order of
the shards. -/
structure OwnsExactly (cfg : RouterConfig) (throws : ℕ → Bool) (calls : List RouterCall) : Prop where
  owned : Always (step cfg throws) (Owned cfg) (create cfg) calls
  leavesNone : Along (step cfg throws) (LeavesNone cfg throws) (create cfg) calls
  routes : ∀ cfg' : RouterConfig, cfg'.shards.Perm cfg.shards → ∀ tenantId, tenantId ≠ units "default" →
    cfg'.shardOf tenantId = cfg.shardOf tenantId ∧ cfg'.connOf tenantId = cfg.connOf tenantId

/-- **Ownership.** The pools of a run are owned exactly if no call on a closed router builds what was given before, or
closes the router again with something left to close. -/
theorem ownsExactly_iff (cfg : RouterConfig) (throws : ℕ → Bool) (calls : List RouterCall) :
    OwnsExactly cfg throws calls ↔ Along (step cfg throws) (Idle cfg throws) (create cfg) calls := by
  have hexact : (Always (step cfg throws) (Owned cfg) (create cfg) calls ∧
      Along (step cfg throws) (LeavesNone cfg throws) (create cfg) calls) ↔
        Along (step cfg throws) (Idle cfg throws) (create cfg) calls :=
    always_and_along_iff Kept.create (fun _ h => h.toOwned) (fun _ _ h hidle => h.step hidle)
      fun _ _ h howned hleaves => idle_of_step h howned hleaves
  constructor
  · intro h
    exact hexact.1 ⟨h.owned, h.leavesNone⟩
  · intro h
    obtain ⟨howned, hleaves⟩ := hexact.2 h
    exact ⟨howned, hleaves, fun _ hperm _ ht => ⟨shardOf_perm hperm ht, connOf_perm hperm ht⟩⟩

/-- One shard, and nothing given. -/
def oneShard : RouterConfig where
  shards := [(units "s1", units "c1")]
  homeShardId := units "s1"
  coordinatorConnStr := none
  seedDbs := []
  shards_nodup := by decide
  seedDbs_nodup := by decide
  home_mem := by decide

/-- A lookup between two calls of `close` leaves a database open. -/
theorem not_ownsExactly :
    ¬ ∀ (cfg : RouterConfig) (throws : ℕ → Bool) (calls : List RouterCall), OwnsExactly cfg throws calls := by
  intro h
  have hlast := (h oneShard (fun _ => false) ([.close, .coordinatorDb] ++ [.close])).leavesNone.last
  have hopen := hlast (.inl rfl)
  revert hopen
  decide +kernel

end ChronoSynth.Storage

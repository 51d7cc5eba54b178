import Mathlib
import ChronoSynth.Lib.Run
import ChronoSynth.Lib.Table

/-!
# The ring of signing keys

A pod keeps its signing keys in a `KeyRing`: a map of entries under their `kid`, each in one of four states,
and beside it the `kid` of the active one. Three calls change it: `rotate`, `applyRemoteStates` (what
another pod has made of the keys) and `markCompromised`.

* A map is the list of its entries in the order they were set.
* A call is a program over the ring that may throw (`EStateM`): what it has changed before it throws stays
  changed.

The invariant is `Valid`: no two entries have one `kid`, and the active entry is the one `activeKidValue`
names. What a call can do to the entries is `Later`: each is still there with its key, and a revoked one is
revoked.
-/

namespace ChronoSynth.Server

inductive JwtKeyState
  | active | grace | retired | compromised
  deriving DecidableEq, Repr

inductive JwtAlgorithm
  | HS256 | HS384 | HS512 | RS256 | ES256
  deriving DecidableEq, Repr

/-- The texts of a key are empty where the algorithm or the state has no use for them. -/
structure JwtKeyEntry where
  kid : String
  state : JwtKeyState
  algorithm : JwtAlgorithm
  privateKey : String
  publicKey : String
  secret : String
  deriving DecidableEq, Repr

structure KeyRing where
  keys : List JwtKeyEntry
  activeKidValue : String
  deriving DecidableEq, Repr

/-- The arguments of `rotate`. -/
structure RotateOpts where
  newActiveKid : String
  oldActiveNewState : Option JwtKeyState
  addNew : Option (List JwtKeyEntry)
  deriving DecidableEq, Repr

def JwtKeyState.text : JwtKeyState → String
  | active => "active"
  | grace => "grace"
  | retired => "retired"
  | compromised => "compromised"

/-- Tokens of the key are refused for good. -/
def JwtKeyState.revoked : JwtKeyState → Bool
  | retired | compromised => true
  | _ => false

def JwtKeyEntry.SameKey (e e' : JwtKeyEntry) : Prop := e' = { e with state := e'.state }

namespace KeyRing

/-- `Map.set` for the entries one by one; a `kid` that is there already is an error. -/
def insertAll (duplicate : String → String) (keys : List JwtKeyEntry) :
    List JwtKeyEntry → Except String (List JwtKeyEntry)
  | [] => .ok keys
  | n :: addNew =>
    if n.kid ∈ keys.map JwtKeyEntry.kid then .error (duplicate n.kid)
    else insertAll duplicate (keys ++ [n]) addNew

/-- The constructor. -/
def new (entries : List JwtKeyEntry) : Except String KeyRing := do
  let keys ← insertAll (fun kid => s!"KeyRing: duplicate kid \"{kid}\"") [] entries
  match entries.filter fun e => e.state = .active with
  | [active] => .ok ⟨keys, active.kid⟩
  | active => .error s!"KeyRing: exactly 1 active key required, got {active.length}"

variable (this : KeyRing)

def activeKid : String := this.activeKidValue

def get (kid : String) : Option JwtKeyEntry := this.keys.find? fun e => e.kid = kid

def signEntry : Except String JwtKeyEntry :=
  match this.get this.activeKidValue with
  | none => .error "KeyRing: active key vanished — internal invariant violated"
  | some e => .ok e

/-- The entry to verify a token with. An empty `kid` is none. -/
def verifyEntry (kid : Option String) : Option JwtKeyEntry :=
  match kid with
  | none => none
  | some kid =>
    if kid = "" then none
    else match this.get kid with
      | none => none
      | some e => if e.state = .retired ∨ e.state = .compromised then none else some e

def publishedEntries : List JwtKeyEntry :=
  this.keys.filter fun e => e.state = .active ∨ e.state = .grace

/-- `e.state = st` for the entry of a `kid`, in a map. -/
def setState (kid : String) (st : JwtKeyState) (keys : List JwtKeyEntry) : List JwtKeyEntry :=
  Table.update (fun e => e.kid = kid) (fun e => { e with state := st }) keys

/-- The remote state of a key is taken over: none of the reasons to skip it applies. -/
def mirrors (kid : String) (remoteState : JwtKeyState) : Bool :=
  match this.get kid with
  | none => false
  | some e =>
    if e.state = remoteState then false
    -- the active key is not demoted here, and no other is promoted
    else if kid = this.activeKidValue ∧ remoteState ≠ .active then false
    else if remoteState = .active ∧ kid ≠ this.activeKidValue then false
    -- what is revoked can only be revoked more
    else if (e.state = .retired ∨ e.state = .compromised) ∧
        ¬ (e.state = .retired ∧ remoteState = .compromised) then false
    else true

/-- The states another pod reports, in the order of its map; the result is the keys that changed. -/
def applyRemoteStates : List (String × JwtKeyState) → EStateM String KeyRing (List String)
  | [] => pure []
  | (kid, remoteState) :: remote => do
    let this ← EStateM.get
    if this.mirrors kid remoteState then
      EStateM.set { this with keys := setState kid remoteState this.keys }
      let changed ← applyRemoteStates remote
      return kid :: changed
    else applyRemoteStates remote

/-- Everything is done to a copy, which becomes the map at the end. -/
def rotate (opts : RotateOpts) : EStateM String KeyRing Unit := do
  let this ← EStateM.get
  let oldActiveNewState := opts.oldActiveNewState.getD .grace
  match insertAll (fun kid => s!"KeyRing.rotate: kid \"{kid}\" already exists") this.keys
      (opts.addNew.getD []) with
  | .error err => throw err
  | .ok cloned =>
    match cloned.find? fun e => e.kid = opts.newActiveKid with
    | none => throw s!"KeyRing.rotate: unknown kid \"{opts.newActiveKid}\""
    | some newActive =>
      if newActive.state ≠ .active ∧ newActive.state ≠ .grace then
        throw (s!"KeyRing.rotate: kid \"{opts.newActiveKid}\" cannot become active " ++
          s!"from state {newActive.state.text}")
      else
        let cloned := if this.activeKidValue ≠ opts.newActiveKid then
            setState this.activeKidValue oldActiveNewState cloned
          else cloned
        let cloned := setState newActive.kid .active cloned
        let activeCount := cloned.countP fun e => e.state = .active
        if activeCount ≠ 1 then
          throw s!"KeyRing.rotate: post-condition violated — {activeCount} active keys after rotate"
        else EStateM.set ⟨cloned, newActive.kid⟩

def markCompromised (kid : String) : EStateM String KeyRing Unit := do
  let this ← EStateM.get
  match this.get kid with
  | none => throw s!"KeyRing.markCompromised: unknown kid \"{kid}\""
  | some e =>
    if e.kid = this.activeKidValue then
      throw s!"KeyRing.markCompromised: refusing to compromise the active key \"{kid}\" — rotate first"
    else EStateM.set { this with keys := setState kid .compromised this.keys }

/-- A call that changes the ring. -/
inductive Call
  | rotate (opts : RotateOpts)
  | applyRemoteStates (remote : List (String × JwtKeyState))
  | markCompromised (kid : String)
  deriving DecidableEq, Repr

def Call.perform : Call → EStateM String KeyRing Unit
  | .rotate opts => KeyRing.rotate opts
  | .applyRemoteStates remote => discard (KeyRing.applyRemoteStates remote)
  | .markCompromised kid => KeyRing.markCompromised kid

/-- The ring after a call, whether it returns or throws. -/
def step (this : KeyRing) (call : Call) : KeyRing :=
  match call.perform.run this with
  | .ok _ r => r
  | .error _ r => r

variable {this} {r r' r'' : KeyRing} {keys addNew : List JwtKeyEntry} {e : JwtKeyEntry} {kid : String}
  {st : JwtKeyState} {call : Call}

/-! ## The map of entries -/

theorem insertAll_ok {duplicate : String → String} {keys' : List JwtKeyEntry}
    (h : insertAll duplicate keys addNew = .ok keys') :
    keys' = keys ++ addNew ∧ ((keys.map JwtKeyEntry.kid).Nodup → (keys'.map JwtKeyEntry.kid).Nodup) := by
  induction addNew generalizing keys with
  | nil =>
    simp only [insertAll, Except.ok.injEq] at h
    subst h
    exact ⟨by simp, id⟩
  | cons n addNew ih =>
    rw [insertAll] at h
    split_ifs at h with hn
    obtain ⟨heq, hnodup⟩ := ih h
    refine ⟨by simpa using heq, fun hk => hnodup ?_⟩
    rw [List.map_append, List.nodup_append]
    refine ⟨hk, by simp, ?_⟩
    rintro kid hkid _ hn' rfl
    rw [List.map_singleton, List.mem_singleton] at hn'
    exact hn (hn' ▸ hkid)

@[simp] theorem map_kid_setState : (setState kid st keys).map JwtKeyEntry.kid = keys.map JwtKeyEntry.kid :=
  Table.map_update fun _ _ => rfl

theorem mem_setState : e ∈ setState kid st keys ↔
    (∃ a ∈ keys, a.kid = kid ∧ e = { a with state := st }) ∨ e ∈ keys ∧ e.kid ≠ kid := by
  rw [setState, Table.mem_update]
  constructor
  · rintro ⟨a, ha, rfl⟩
    by_cases hk : a.kid = kid
    · exact .inl ⟨a, ha, hk, if_pos hk⟩
    · rw [if_neg hk]
      exact .inr ⟨ha, hk⟩
  · rintro (⟨a, ha, hk, rfl⟩ | ⟨he, hk⟩)
    · exact ⟨a, ha, (if_pos hk).symm⟩
    · exact ⟨e, he, (if_neg hk).symm⟩

theorem get_eq_some_iff (hk : (r.keys.map JwtKeyEntry.kid).Nodup) :
    r.get kid = some e ↔ e ∈ r.keys ∧ e.kid = kid := by
  rw [get]
  constructor
  · intro h
    exact ⟨List.mem_of_find?_eq_some h, by simpa using List.find?_some h⟩
  · rintro ⟨he, rfl⟩
    have hsome : (r.keys.find? fun b => b.kid = e.kid).isSome := by
      rw [List.find?_isSome]
      exact ⟨e, he, by simp⟩
    obtain ⟨b, hb⟩ := Option.isSome_iff_exists.1 hsome
    have hbk : b.kid = e.kid := by simpa using List.find?_some hb
    rwa [List.inj_on_of_nodup_map hk (List.mem_of_find?_eq_some hb) he hbk] at hb

/-! ## The invariant -/

def OneActive (r : KeyRing) : Prop :=
  ∃ a, (r.keys.filter fun e => e.state = .active) = [a] ∧ a.kid = r.activeKidValue

structure Valid (r : KeyRing) : Prop where
  nodup : (r.keys.map JwtKeyEntry.kid).Nodup
  active : r.OneActive

theorem Valid.active_iff (h : r.Valid) (he : e ∈ r.keys) :
    e.state = .active ↔ e.kid = r.activeKidValue := by
  obtain ⟨a, ha, hak⟩ := h.active
  have hmem : a ∈ r.keys.filter fun e => e.state = .active := ha ▸ List.mem_singleton_self a
  obtain ⟨har, has⟩ := List.mem_filter.1 hmem
  constructor
  · intro hs
    have : e ∈ [a] := ha ▸ List.mem_filter.2 ⟨he, by simpa using hs⟩
    rw [List.mem_singleton.1 this, hak]
  · intro hk
    rw [List.inj_on_of_nodup_map h.nodup he har (hk.trans hak.symm)]
    simpa using has

theorem Valid.exists_active (h : r.Valid) : ∃ a ∈ r.keys, a.kid = r.activeKidValue := by
  obtain ⟨a, ha, hak⟩ := h.active
  exact ⟨a, (List.mem_filter.1 (ha ▸ List.mem_singleton_self a)).1, hak⟩

theorem valid_of (hn : (r.keys.map JwtKeyEntry.kid).Nodup) (ha : ∃ a ∈ r.keys, a.kid = r.activeKidValue)
    (hs : ∀ e ∈ r.keys, e.state = .active ↔ e.kid = r.activeKidValue) : r.Valid := by
  obtain ⟨a, ha, hak⟩ := ha
  have hfilter : (r.keys.filter fun e => e.state = .active) = r.keys.filter fun e => e.kid = a.kid :=
    List.filter_congr fun e he => by simp [hs e he, hak]
  exact ⟨hn, a, by rw [hfilter, filter_key_eq_singleton hn ha], hak⟩

/-- What became of the entries: each is still there with its key, and a revoked one is revoked. -/
def Later (r r' : KeyRing) : Prop :=
  ∀ e ∈ r.keys, ∃ e' ∈ r'.keys, e.SameKey e' ∧ (e.state.revoked → e'.state.revoked)

theorem Later.refl (r : KeyRing) : r.Later r := fun e he => ⟨e, he, rfl, id⟩

theorem Later.trans (h : r.Later r') (h' : r'.Later r'') : r.Later r'' := by
  intro e he
  obtain ⟨e', he', hs, hr⟩ := h e he
  obtain ⟨e'', he'', hs', hr'⟩ := h' e' he'
  refine ⟨e'', he'', ?_, hr' ∘ hr⟩
  rw [JwtKeyEntry.SameKey] at hs hs' ⊢
  rw [hs', hs]

theorem exists_setState (h : ∀ a ∈ keys, a.kid = kid → a.state.revoked → st.revoked) (he : e ∈ keys) :
    ∃ e' ∈ setState kid st keys, e.SameKey e' ∧ (e.state.revoked → e'.state.revoked) := by
  by_cases hkid : e.kid = kid
  · exact ⟨{ e with state := st }, mem_setState.2 (.inl ⟨e, he, hkid, rfl⟩), rfl, h e he hkid⟩
  · exact ⟨e, mem_setState.2 (.inr ⟨he, hkid⟩), rfl, id⟩

theorem Valid.setState (h : r.Valid) (hk : kid ≠ r.activeKidValue) (hs : st ≠ .active) :
    Valid { r with keys := setState kid st r.keys } := by
  refine valid_of (by simpa using h.nodup) ?_ ?_
  · obtain ⟨a, ha, hak⟩ := h.exists_active
    exact ⟨a, mem_setState.2 (.inr ⟨ha, hak ▸ hk.symm⟩), hak⟩
  · intro e he
    rcases mem_setState.1 he with ⟨a, ha, hak, rfl⟩ | ⟨he, -⟩
    · simp [hs, hak, hk]
    · exact h.active_iff he

/-! ## What a call can do -/

def Keeps (r r' : KeyRing) : Prop := r.Valid → r'.Valid ∧ r.Later r'

theorem Keeps.refl (r : KeyRing) : r.Keeps r := fun h => ⟨h, .refl r⟩

theorem Keeps.trans (h : r.Keeps r') (h' : r'.Keeps r'') : r.Keeps r'' := fun hv =>
  ⟨(h' (h hv).1).1, (h hv).2.trans (h' (h hv).1).2⟩

theorem mirrors_spec (hm : r.mirrors kid st) :
    ∃ e, r.get kid = some e ∧ e.state ≠ st ∧ (kid = r.activeKidValue ↔ st = .active) ∧
      (e.state.revoked → st = .compromised) := by
  rw [mirrors] at hm
  cases hg : r.get kid with
  | none => simp [hg] at hm
  | some e =>
    simp only [hg] at hm
    split_ifs at hm with h1 h2 h3 h4
    refine ⟨e, rfl, h1, ?_, ?_⟩
    · tauto
    · intro hrev
      cases hs : e.state <;> simp_all [JwtKeyState.revoked]

theorem keeps_mirror (hm : r.mirrors kid st) : r.Keeps { r with keys := setState kid st r.keys } := by
  intro h
  obtain ⟨e, hg, hne, hiff, hrev⟩ := mirrors_spec hm
  obtain ⟨he, rfl⟩ := (get_eq_some_iff h.nodup).1 hg
  -- the active key is active already
  have hk : e.kid ≠ r.activeKidValue := fun hk =>
    hne (((h.active_iff he).2 hk).trans (hiff.1 hk).symm)
  refine ⟨h.setState hk fun hs => hk (hiff.2 hs), fun b hb => exists_setState (fun b hb hbk hbr => ?_) hb⟩
  obtain rfl := List.inj_on_of_nodup_map h.nodup hb he hbk
  rw [hrev hbr]
  rfl

theorem applyRemoteStates_spec (remote : List (String × JwtKeyState)) (r : KeyRing) :
    ∃ changed r', applyRemoteStates remote r = .ok changed r' ∧ r.Keeps r' := by
  induction remote generalizing r with
  | nil => exact ⟨[], r, rfl, .refl r⟩
  | cons p remote ih =>
    obtain ⟨kid, remoteState⟩ := p
    by_cases hm : r.mirrors kid remoteState
    · obtain ⟨changed, r', hr', hkeeps⟩ := ih { r with keys := setState kid remoteState r.keys }
      refine ⟨kid :: changed, r', ?_, (keeps_mirror hm).trans hkeeps⟩
      simp [applyRemoteStates, bind, EStateM.bind, EStateM.get, EStateM.set, hm, hr', pure, EStateM.pure]
    · obtain ⟨changed, r', hr', hkeeps⟩ := ih r
      refine ⟨changed, r', ?_, hkeeps⟩
      simp [applyRemoteStates, bind, EStateM.bind, EStateM.get, hm, hr']

theorem markCompromised_spec (kid : String) (r : KeyRing) :
    (∃ err, markCompromised kid r = .error err r) ∨
    ∃ r', markCompromised kid r = .ok () r' ∧ r.Keeps r' := by
  cases hg : r.get kid with
  | none =>
    left
    simp [markCompromised, bind, EStateM.bind, EStateM.get, hg, throw, throwThe, MonadExceptOf.throw,
      EStateM.throw]
  | some e =>
    by_cases hk : e.kid = r.activeKidValue
    · left
      simp [markCompromised, bind, EStateM.bind, EStateM.get, hg, hk, throw, throwThe,
        MonadExceptOf.throw, EStateM.throw]
    · right
      refine ⟨{ r with keys := setState kid .compromised r.keys }, ?_, fun h => ?_⟩
      · simp [markCompromised, bind, EStateM.bind, EStateM.get, EStateM.set, hg, hk]
      · obtain ⟨-, rfl⟩ := (get_eq_some_iff h.nodup).1 hg
        exact ⟨h.setState hk (by decide), fun b hb => exists_setState (fun _ _ _ _ => rfl) hb⟩

/-- The ring after a rotation that returns. -/
def rotated (r : KeyRing) (opts : RotateOpts) (newActive : JwtKeyEntry) : KeyRing where
  keys := setState newActive.kid .active
    (if r.activeKidValue ≠ opts.newActiveKid then
      setState r.activeKidValue (opts.oldActiveNewState.getD .grace) (r.keys ++ opts.addNew.getD [])
    else r.keys ++ opts.addNew.getD [])
  activeKidValue := newActive.kid

/-- A rotation throws before it changes anything, or the copy becomes the map. -/
theorem rotate_cases (opts : RotateOpts) (r : KeyRing) :
    (∃ err, rotate opts r = .error err r) ∨
    ∃ newActive, rotate opts r = .ok () (r.rotated opts newActive) ∧
      ((r.keys.map JwtKeyEntry.kid).Nodup →
        ((r.keys ++ opts.addNew.getD []).map JwtKeyEntry.kid).Nodup) ∧
      newActive ∈ r.keys ++ opts.addNew.getD [] ∧ newActive.kid = opts.newActiveKid ∧
      newActive.state.revoked = false ∧
      (r.rotated opts newActive).keys.countP (fun e => e.state = .active) = 1 := by
  simp only [rotate, bind, EStateM.bind, EStateM.get]
  cases hi : insertAll (fun kid => s!"KeyRing.rotate: kid \"{kid}\" already exists") r.keys
      (opts.addNew.getD []) with
  | error err => exact .inl ⟨err, rfl⟩
  | ok cloned =>
    obtain ⟨rfl, hnodup⟩ := insertAll_ok hi
    cases hf : (r.keys ++ opts.addNew.getD []).find? fun e => e.kid = opts.newActiveKid with
    | none => exact .inl ⟨_, by simp only [hf]; rfl⟩
    | some newActive =>
      have hkid : newActive.kid = opts.newActiveKid := by simpa using List.find?_some hf
      simp only [hf]
      by_cases hs : newActive.state ≠ .active ∧ newActive.state ≠ .grace
      · exact .inl ⟨_, by rw [if_pos hs]; rfl⟩
      rw [if_neg hs]
      by_cases hc : (r.rotated opts newActive).keys.countP (fun e => e.state = .active) = 1
      · refine .inr ⟨newActive, ?_, hnodup, List.mem_of_find?_eq_some hf, hkid, ?_, hc⟩
        · exact congrFun (if_neg (not_not.2 hc)) r
        · cases hst : newActive.state <;> simp_all [JwtKeyState.revoked]
      · exact .inl ⟨_, congrFun (if_pos hc) r⟩

theorem keeps_rotated {opts : RotateOpts} {newActive : JwtKeyEntry}
    (hn : (r.keys.map JwtKeyEntry.kid).Nodup →
      ((r.keys ++ opts.addNew.getD []).map JwtKeyEntry.kid).Nodup)
    (hmem : newActive ∈ r.keys ++ opts.addNew.getD []) (hkid : newActive.kid = opts.newActiveKid)
    (hrev : newActive.state.revoked = false)
    (hc : (r.rotated opts newActive).keys.countP (fun e => e.state = .active) = 1) :
    r.Keeps (r.rotated opts newActive) := by
  intro h
  have hnodup := hn h.nodup
  -- the rotation in two steps: the entries are added and the old key is put aside, the new one is promoted
  let aside : KeyRing := ⟨if r.activeKidValue ≠ opts.newActiveKid then
      setState r.activeKidValue (opts.oldActiveNewState.getD .grace) (r.keys ++ opts.addNew.getD [])
    else r.keys ++ opts.addNew.getD [], r.activeKidValue⟩
  have hkids : aside.keys.map JwtKeyEntry.kid = (r.keys ++ opts.addNew.getD []).map JwtKeyEntry.kid := by
    simp only [aside]
    split_ifs <;> simp
  have hnew : newActive ∈ aside.keys := by
    simp only [aside]
    split_ifs with hne
    · exact mem_setState.2 (.inr ⟨hmem, by rw [hkid]; exact Ne.symm hne⟩)
    · exact hmem
  have haside : r.Later aside := by
    intro e he
    have he' : e ∈ r.keys ++ opts.addNew.getD [] := List.mem_append_left _ he
    simp only [aside]
    split_ifs with hne
    · refine exists_setState (fun b hb hbk hbr => ?_) he'
      obtain ⟨a, ha, hak⟩ := h.exists_active
      obtain rfl := List.inj_on_of_nodup_map hnodup hb (List.mem_append_left _ ha) (hbk.trans hak.symm)
      rw [(h.active_iff ha).2 hak] at hbr
      cases hbr
    · exact ⟨e, he', rfl, id⟩
  have hpromoted : aside.Later (r.rotated opts newActive) := by
    refine fun b hb => exists_setState (fun b hb hbk hbr => ?_) hb
    obtain rfl := List.inj_on_of_nodup_map (hkids ▸ hnodup) hb hnew hbk
    rw [hrev] at hbr
    cases hbr
  refine ⟨⟨?_, ?_⟩, haside.trans hpromoted⟩
  · have : (r.rotated opts newActive).keys.map JwtKeyEntry.kid = aside.keys.map JwtKeyEntry.kid :=
      map_kid_setState
    rw [this, hkids]
    exact hnodup
  · -- the promoted key is active, and so it is the only one
    rw [List.countP_eq_length_filter, List.length_eq_one_iff] at hc
    obtain ⟨a, ha⟩ := hc
    have hin : { newActive with state := .active } ∈ (r.rotated opts newActive).keys.filter
        fun e => e.state = .active :=
      List.mem_filter.2 ⟨mem_setState.2 (.inl ⟨newActive, hnew, rfl, rfl⟩), by simp⟩
    rw [ha, List.mem_singleton] at hin
    exact ⟨a, ha, hin ▸ rfl⟩

/-- **What a call does**: it throws and leaves the ring, or it keeps a valid ring and its keys. -/
theorem perform_spec (call : Call) (r : KeyRing) :
    (∃ err, call.perform r = .error err r) ∨ ∃ r', call.perform r = .ok () r' ∧ r.Keeps r' := by
  cases call with
  | rotate opts =>
    obtain h | ⟨newActive, h, hn, hmem, hkid, hrev, hc⟩ := rotate_cases opts r
    · exact .inl h
    · exact .inr ⟨_, h, keeps_rotated hn hmem hkid hrev hc⟩
  | applyRemoteStates remote =>
    obtain ⟨changed, r', h, hkeeps⟩ := applyRemoteStates_spec remote r
    exact .inr ⟨r', by simp [Call.perform, discard, Functor.discard, Functor.mapConst, EStateM.map, h],
      hkeeps⟩
  | markCompromised kid => exact markCompromised_spec kid r

theorem keeps_step (call : Call) (r : KeyRing) : r.Keeps (r.step call) := by
  obtain ⟨err, h⟩ | ⟨r', h, hkeeps⟩ := perform_spec call r
  · simp [step, EStateM.run, h, Keeps.refl]
  · simpa [step, EStateM.run, h] using hkeeps

/-! ## Whole runs -/

def Revoked (r : KeyRing) (kid : String) : Prop := ∃ e ∈ r.keys, e.kid = kid ∧ e.state.revoked

/-- The ring does not sign with the key, publish it or accept a token of it. -/
structure Denies (r : KeyRing) (kid : String) : Prop where
  sign : ∀ e, r.signEntry = .ok e → e.kid ≠ kid
  publish : ∀ e ∈ r.publishedEntries, e.kid ≠ kid
  verify : r.verifyEntry (some kid) = none

/-- **What a ring promises** along the calls, for tokens whose `kid` is in `named`. -/
structure Kept (named : String → Prop) (r : KeyRing) (calls : List Call) : Prop where
  /-- One key is active, and the ring names it. -/
  active : Always step OneActive r calls
  /-- A token that is signed verifies with the same key until that is revoked. -/
  verify : ∀ pre mid, pre ++ mid <+: calls → ∀ e, (run step r pre).signEntry = .ok e → named e.kid →
    (run step r (pre ++ mid)).Revoked e.kid ∨
    ∃ e', (run step r (pre ++ mid)).verifyEntry (some e.kid) = some e' ∧ e.SameKey e'
  /-- A call that throws changes nothing. -/
  atomic : Along step (fun t call => ∀ err t', call.perform t = .error err t' → t' = t) r calls
  /-- A revoked key is revoked for good. -/
  revoked : ∀ pre mid, pre ++ mid <+: calls → ∀ kid, (run step r pre).Revoked kid →
    (run step r (pre ++ mid)).Revoked kid ∧ (run step r (pre ++ mid)).Denies kid

theorem Valid.denies (h : r.Valid) (hr : r.Revoked kid) : r.Denies kid := by
  obtain ⟨e, he, rfl, hrev⟩ := hr
  -- it is the only entry of its `kid`
  have heq : ∀ b ∈ r.keys, b.kid = e.kid → b = e := fun b hb hk =>
    List.inj_on_of_nodup_map h.nodup hb he hk
  refine ⟨fun b hb hk => ?_, fun b hb hk => ?_, ?_⟩
  · simp only [signEntry] at hb
    split at hb
    · cases hb
    · rename_i b' hg
      cases hb
      obtain ⟨hb, hba⟩ := (get_eq_some_iff h.nodup).1 hg
      have hs := (h.active_iff hb).2 hba
      rw [heq b hb hk] at hs
      rw [hs] at hrev
      cases hrev
  · obtain ⟨hb, hs⟩ := List.mem_filter.1 hb
    rw [heq b hb hk] at hs
    cases hst : e.state <;> simp [hst, JwtKeyState.revoked] at hs hrev
  · simp only [verifyEntry, (get_eq_some_iff h.nodup).2 ⟨he, rfl⟩]
    cases hst : e.state <;> simp [hst, JwtKeyState.revoked] at hrev ⊢

theorem Valid.verifyEntry (h : r.Valid) (he : e ∈ r.keys) (hn : e.kid ≠ "") (hr : ¬ r.Revoked e.kid) :
    r.verifyEntry (some e.kid) = some e := by
  have hrev : ¬ e.state.revoked := fun hrev => hr ⟨e, he, rfl, hrev⟩
  simp only [KeyRing.verifyEntry, hn, if_false, (get_eq_some_iff h.nodup).2 ⟨he, rfl⟩]
  cases hst : e.state <;> simp [hst, JwtKeyState.revoked] at hrev ⊢

theorem Later.revoked (h : r.Later r') (hr : r.Revoked kid) : r'.Revoked kid := by
  obtain ⟨e, he, rfl, hrev⟩ := hr
  obtain ⟨e', he', hs, hrev'⟩ := h e he
  exact ⟨e', he', by rw [hs], hrev' hrev⟩

theorem Valid.keeps_run (h : r.Valid) (calls : List Call) :
    (run step r calls).Valid ∧ r.Later (run step r calls) := by
  induction calls generalizing r with
  | nil => exact ⟨h, .refl r⟩
  | cons call calls ih =>
    obtain ⟨hv, hl⟩ := keeps_step call r h
    obtain ⟨hv', hl'⟩ := ih hv
    exact ⟨hv', hl.trans hl'⟩

theorem valid_new {entries : List JwtKeyEntry} (h : new entries = .ok r) : r.Valid := by
  simp only [new, bind, Except.bind] at h
  split at h
  · cases h
  · rename_i keys hi
    obtain ⟨rfl, hn⟩ := insertAll_ok hi
    split at h
    · rename_i active hf
      cases h
      exact ⟨hn (by simp), active, hf, rfl⟩
    · cases h

/-- **The ring.** From any ring the constructor accepts and along any calls, what it promises is kept for all
tokens but those of an empty `kid`. -/
theorem keyRing_kept {entries : List JwtKeyEntry} (h : new entries = .ok r) (calls : List Call) :
    Kept (fun kid => kid ≠ "") r calls := by
  have hv := valid_new h
  have hmid : ∀ pre mid, (run step r pre).Later (run step r (pre ++ mid)) := fun pre mid => by
    rw [run_append]
    exact ((hv.keeps_run pre).1.keeps_run mid).2
  constructor
  · exact fun pre _ => (hv.keeps_run pre).1.active
  · intro pre mid _ e hs hn
    have hpre := (hv.keeps_run pre).1
    have hlast := (hv.keeps_run (pre ++ mid)).1
    by_cases hr : (run step r (pre ++ mid)).Revoked e.kid
    · exact .inl hr
    · right
      have he : e ∈ (run step r pre).keys := by
        simp only [signEntry] at hs
        split at hs
        · cases hs
        · rename_i e' hg
          cases hs
          exact ((get_eq_some_iff hpre.nodup).1 hg).1
      obtain ⟨e', he', hsame, -⟩ := hmid pre mid e he
      have hkid : e'.kid = e.kid := by rw [hsame]
      refine ⟨e', ?_, hsame⟩
      rw [← hkid] at hr hn ⊢
      exact hlast.verifyEntry he' hn hr
  · intro pre call _ err t' ht
    obtain ⟨err', h'⟩ | ⟨r', h', -⟩ := perform_spec call (run step r pre)
    · rw [h'] at ht
      cases ht
      rfl
    · rw [h'] at ht
      cases ht
  · intro pre mid _ kid hr
    have hr' := (hmid pre mid).revoked hr
    exact ⟨hr', (hv.keeps_run (pre ++ mid)).1.denies hr'⟩

/-- The first key is rotated out, retired by another pod, reported as active and in grace by an old snapshot,
and named in a second rotation. -/
theorem keyRing_replayed :
    Kept (fun kid => kid ≠ "") ⟨[⟨"a", .active, .HS256, "", "", "x"⟩, ⟨"b", .grace, .HS256, "", "", "y"⟩], "a"⟩
      [.rotate ⟨"b", none, some [⟨"c", .grace, .RS256, "", "pub", ""⟩]⟩, .applyRemoteStates [("a", .retired)],
        .applyRemoteStates [("a", .active), ("a", .grace)], .rotate ⟨"a", some .retired, none⟩,
        .markCompromised "b"] :=
  have h : new [⟨"a", .active, .HS256, "", "", "x"⟩, ⟨"b", .grace, .HS256, "", "", "y"⟩] = .ok _ := rfl
  keyRing_kept h _

/-- The active key has the empty `kid`: its tokens are refused at once. -/
theorem empty_kid_refused :
    ¬ ∀ (entries : List JwtKeyEntry) (r : KeyRing) (calls : List Call), new entries = .ok r →
      Kept (fun _ => True) r calls := by
  intro h
  have hk := h [⟨"", .active, .HS256, "", "", "x"⟩] ⟨[⟨"", .active, .HS256, "", "", "x"⟩], ""⟩ [] (by decide)
  have hv := hk.verify [] [] List.nil_prefix ⟨"", .active, .HS256, "", "", "x"⟩ (by decide) trivial
  rcases hv with hr | ⟨e, he, -⟩
  · obtain ⟨e, he, -, hrev⟩ := hr
    obtain rfl := List.mem_singleton.1 he
    cases hrev
  · cases he

end KeyRing

end ChronoSynth.Server

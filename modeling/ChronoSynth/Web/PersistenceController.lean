import ChronoSynth.Lib.Run
import ChronoSynth.Web.UnitOfWork

/-!
# Persistence of the web adapter

Translation of `adapter-web/persistence-controller.ts` over the unit of work, with the store it saves to. What runs
at one go is one step (`Event`): a program on the unit of work, whose commits all tell the controller; a call of
`flushNow` or `dispose`, or the timer's; the end of a save; and the resumption of a call that has waited for one.
When and in what order calls are resumed after a save is left open.

A save has the number of commits its snapshot contains (`version`), which no code reads, and a call the number of
commits before it.
-/

namespace ChronoSynth.Web

variable {P V E : Type}

inductive SaveStatus
  | running
  | saved
  | failed
  deriving DecidableEq, Repr

/-- A call of `store.save`. -/
structure Save where
  snapshot : Snapshot
  version : ℕ
  status : SaveStatus

/-- What a call is waiting in. -/
inductive Waiting
  /-- It has started the save itself. -/
  | started
  | flushNow
  | dispose
  deriving DecidableEq, Repr

inductive CallStatus
  | waiting (kind : Waiting) (save : ℕ)
  | resolved
  | rejected
  deriving DecidableEq, Repr

/-- A call of `flushNow` or `dispose`. -/
structure Call where
  version : ℕ
  status : CallStatus
  deriving DecidableEq, Repr

/-- The unit of work, the controller and the store. -/
structure Host where
  uow : UnitOfWork
  timer : Bool
  pending : Option ℕ
  dirty : Bool
  saves : List Save
  calls : List Call
  /-- What the store holds. -/
  stored : Snapshot
  storedVersion : ℕ

variable (P V E) in
inductive Event
  | run (code : Code P V E)
  | timer
  | flushNow
  | dispose
  /-- The save ends, well or not. -/
  | complete (save : ℕ) (ok : Bool)
  /-- The call goes on, once the save it waits for has ended. -/
  | resume (call : ℕ)

namespace Host

variable (h : Host)

/-- The listener of the unit of work, after some commits. -/
def onCommit (commits : ℕ) : Host :=
  if commits = 0 then h else { h with dirty := true, timer := true }

/-- A call is added. -/
def call (status : CallStatus) : Host := { h with calls := h.calls ++ [⟨h.uow.commits, status⟩] }

/-- The end of `flushNow`: a save is started. -/
def startSave : Host :=
  { h with
    dirty := false
    pending := some h.saves.length
    saves := h.saves ++ [⟨h.uow.tables.serialize, h.uow.commits, .running⟩] }

def flushNow : Host :=
  if !h.dirty && h.pending.isNone then h.call .resolved
  else match h.pending with
    | some save => h.call (.waiting .flushNow save)
    | none => h.startSave.call (.waiting .started h.saves.length)

def dispose : Host :=
  let h := { h with timer := false }
  if h.dirty then h.flushNow
  else match h.pending with
    | some save => h.call (.waiting .dispose save)
    | none => h.call .resolved

/-- `finally` of a save. -/
def complete (save : ℕ) (ok : Bool) : Host :=
  match h.saves[save]? with
  | some ⟨snapshot, version, .running⟩ =>
    let h := { h with pending := none, saves := h.saves.set save ⟨snapshot, version, if ok then .saved else .failed⟩ }
    if ok then { h with stored := snapshot, storedVersion := version } else h
  | _ => h

def setCall (call : ℕ) (version : ℕ) (status : CallStatus) : Host :=
  { h with calls := h.calls.set call ⟨version, status⟩ }

def resume (call : ℕ) : Host :=
  match h.calls[call]? with
  | some ⟨version, .waiting kind save⟩ =>
    match (h.saves[save]?).map Save.status with
    | some .failed => h.setCall call version .rejected
    | some .saved =>
      if kind = .flushNow ∧ h.dirty then h.startSave.setCall call version (.waiting .started h.saves.length)
      else h.setCall call version .resolved
    | some .running | none => h
  | _ => h

end Host

/-- A controller of tables that have been loaded from the store. -/
def Host.start (tables : Tables) : Host :=
  ⟨⟨tables, 0, none, 0⟩, false, none, false, [], [], tables.serialize, 0⟩

variable (registry : Registry P V E)

def hostStep (h : Host) : Event P V E → Host
  | .run code =>
    let u := (runCode registry code h.uow).1
    { h with uow := u }.onCommit (u.commits - h.uow.commits)
  | .timer => if h.timer then { h with timer := false }.flushNow else h
  | .flushNow => h.flushNow
  | .dispose => h.dispose
  | .complete save ok => h.complete save ok
  | .resume call => h.resume call

/-! ## What is to hold -/

/-- Saves do not overlap, and a call that has succeeded has seen to it that the store holds all commits before it. -/
structure Persisted (h : Host) : Prop where
  overlap : h.saves.countP (fun s => s.status = .running) ≤ 1
  resolved : ∀ c ∈ h.calls, c.status = .resolved → c.version ≤ h.storedVersion

/-- The blocks of a program are atomic. -/
def RunsAtomic (h : Host) : Event P V E → Prop
  | .run code => Atomic registry code h.uow
  | _ => True

def Host.LastFailed (h : Host) : Prop := ∃ s ∈ h.saves.getLast?, s.status = .failed

/-- A step keeps to what is to hold: a program's blocks roll back; nothing is called off as clean after a save that
has failed; and a call that goes on after another's save starts one only when none is running, and is done only
when what was committed before it has been saved. -/
def Careful (h : Host) : Event P V E → Prop
  | .run code => RollsBack registry code h.uow.tables
  | .timer => h.timer → h.dirty = false → h.pending = none → ¬ h.LastFailed
  | .flushNow | .dispose => h.dirty = false → h.pending = none → ¬ h.LastFailed
  | .complete _ _ => True
  | .resume call => ∀ version save s, h.calls[call]? = some ⟨version, .waiting .flushNow save⟩ →
      h.saves[save]? = some s → s.status = .saved →
      if h.dirty then h.pending = none else version ≤ h.storedVersion

/-! ## The invariant -/

/-- How many commits the last snapshot has. -/
def Host.snapped (h : Host) : ℕ := h.saves.getLast?.elim 0 Save.version

/-- A call is resolved when what was committed before it is stored; one that waits for its own save, or to be
disposed of, waits for what was committed before it. -/
def CallInv (h : Host) (c : Call) : Prop :=
  c.version ≤ h.uow.commits ∧
  match c.status with
  | .resolved => c.version ≤ h.storedVersion
  | .waiting kind save => ∃ s, h.saves[save]? = some s ∧ (kind ≠ .flushNow → c.version ≤ s.version)
  | .rejected => True

structure Steady (h : Host) : Prop where
  idle : h.uow.Idle
  running : ∀ i s, h.saves[i]? = some s → s.status = .running → h.pending = some i ∧ i + 1 = h.saves.length
  pending : ∀ i, h.pending = some i → ∃ s, h.saves[i]? = some s ∧ s.status = .running
  dirty : if h.dirty then h.snapped < h.uow.commits else h.snapped = h.uow.commits
  saved : ∀ s ∈ h.saves, s.status = .saved → s.version ≤ h.storedVersion
  stored : h.storedVersion ≤ h.snapped
  /-- The last save has something new. -/
  last : ∀ s, h.saves.getLast? = some s → s.status ≠ .saved → h.storedVersion < s.version
  calls : ∀ c ∈ h.calls, CallInv h c

variable {registry} {h : Host}

theorem steady_start {tables : Tables} : Steady (Host.start tables) where
  idle := ⟨rfl, rfl⟩
  running := fun i s hs => by simp [Host.start] at hs
  pending := fun i hi => by cases hi
  dirty := rfl
  saved := fun s hs => (List.not_mem_nil hs).elim
  stored := le_rfl
  last := fun s hs => by cases hs
  calls := fun c hc => (List.not_mem_nil hc).elim

/-- At most one element is of a kind that only the last one may be. -/
theorem countP_le_one {α : Type*} {p : α → Bool} {l : List α} (h : ∀ i a, l[i]? = some a → p a → i + 1 = l.length) :
    l.countP p ≤ 1 := by
  rcases List.eq_nil_or_concat l with rfl | ⟨l, b, rfl⟩
  · exact Nat.zero_le _
  · rw [List.concat_eq_append] at h ⊢
    have hnone : l.countP p = 0 := by
      refine List.countP_eq_zero.2 fun a ha hp => ?_
      obtain ⟨i, hi, rfl⟩ := List.mem_iff_getElem.1 ha
      have := h i l[i] (by rw [List.getElem?_append_left hi, List.getElem?_eq_getElem hi]) hp
      simp at this
      omega
    rw [List.countP_append, hnone, Nat.zero_add]
    exact List.countP_le_length

theorem Steady.persisted (hs : Steady h) : Persisted h where
  overlap := countP_le_one fun i s hi hr => (hs.running i s hi (of_decide_eq_true hr)).2
  resolved := fun c hc hr => by
    have hinv := (hs.calls c hc).2
    rw [hr] at hinv
    exact hinv

/-! ## Calls -/

theorem Steady.timer (hs : Steady h) {timer : Bool} : Steady { h with timer := timer } :=
  ⟨hs.idle, hs.running, hs.pending, hs.dirty, hs.saved, hs.stored, hs.last, hs.calls⟩

theorem Steady.call (hs : Steady h) {status : CallStatus} (hc : CallInv h ⟨h.uow.commits, status⟩) :
    Steady (h.call status) where
  idle := hs.idle
  running := hs.running
  pending := hs.pending
  dirty := hs.dirty
  saved := hs.saved
  stored := hs.stored
  last := hs.last
  calls := fun c hmem => (List.mem_append.1 hmem).elim (hs.calls c) fun he => by
    obtain rfl := List.mem_singleton.1 he
    exact hc

theorem Steady.setCall (hs : Steady h) {call version : ℕ} {status : CallStatus} (hc : CallInv h ⟨version, status⟩) :
    Steady (h.setCall call version status) where
  idle := hs.idle
  running := hs.running
  pending := hs.pending
  dirty := hs.dirty
  saved := hs.saved
  stored := hs.stored
  last := hs.last
  calls := fun c hmem => by
    rcases List.mem_or_eq_of_mem_set hmem with hmem | rfl
    · exact hs.calls c hmem
    · exact hc

theorem Host.snapped_startSave : h.startSave.snapped = h.uow.commits := by
  rw [Host.snapped, Host.startSave, List.getLast?_concat]
  rfl

theorem getElem?_concat_cases {α : Type*} {l : List α} {a b : α} {i : ℕ} (h : (l ++ [a])[i]? = some b) :
    l[i]? = some b ∨ i = l.length ∧ a = b := by
  rcases lt_or_ge i l.length with hi | hi
  · rw [List.getElem?_append_left hi] at h
    exact .inl h
  · rw [List.getElem?_append_right hi] at h
    cases hk : i - l.length with
    | zero =>
      rw [hk] at h
      exact .inr ⟨by omega, Option.some.inj h⟩
    | succ k =>
      rw [hk] at h
      cases h

/-- No save is older than the last one. -/
theorem Steady.not_running (hs : Steady h) (hp : h.pending = none) : ∀ s ∈ h.saves, s.status ≠ .running := by
  intro s hmem hr
  obtain ⟨i, hi⟩ := List.mem_iff_getElem?.1 hmem
  rw [(hs.running i s hi hr).1] at hp
  cases hp

/-- **A save is started** when there is something new and none is running. -/
theorem Steady.startSave (hs : Steady h) (hp : h.pending = none) (hd : h.dirty = true) : Steady h.startSave := by
  have hnew : h.snapped < h.uow.commits := by
    have hdirty := hs.dirty
    rwa [if_pos hd] at hdirty
  have hsnapped : h.startSave.snapped = h.uow.commits := Host.snapped_startSave
  have hold : ∀ {i : ℕ} {s : Save}, h.saves[i]? = some s → h.startSave.saves[i]? = some s := fun {i s} hi => by
    change (h.saves ++ _)[i]? = _
    rw [List.getElem?_append_left (List.getElem?_eq_some_iff.1 hi).1, hi]
  refine ⟨hs.idle, fun i s hi hr => ?_, fun i hi => ?_, ?_, fun s hmem hst => ?_, ?_, fun s hlast hst => ?_,
    fun c hmem => ⟨(hs.calls c hmem).1, ?_⟩⟩
  · change (h.saves ++ _)[i]? = _ at hi
    rcases getElem?_concat_cases hi with hi | ⟨rfl, -⟩
    · exact absurd hr (hs.not_running hp s (List.mem_of_getElem? hi))
    · exact ⟨rfl, by simp [Host.startSave]⟩
  · obtain rfl := Option.some.inj hi
    exact ⟨⟨h.uow.tables.serialize, h.uow.commits, .running⟩, by simp [Host.startSave], rfl⟩
  · rw [if_neg (by simp [Host.startSave]), hsnapped]
    rfl
  · rcases List.mem_append.1 hmem with hmem | hmem
    · exact hs.saved s hmem hst
    · obtain rfl := List.mem_singleton.1 hmem
      cases hst
  · rw [hsnapped]
    exact hs.stored.trans hnew.le
  · obtain rfl : (⟨h.uow.tables.serialize, h.uow.commits, .running⟩ : Save) = s := by
      simpa [Host.startSave] using hlast
    exact lt_of_le_of_lt hs.stored hnew
  · have hinv := (hs.calls c hmem).2
    cases hstatus : c.status with
    | resolved =>
      rw [hstatus] at hinv
      exact hinv
    | rejected => trivial
    | waiting kind save =>
      rw [hstatus] at hinv
      obtain ⟨s, hi, hle⟩ := hinv
      exact ⟨s, hold hi, hle⟩

theorem Steady.stored_of_clean (hs : Steady h) (hd : h.dirty = false) (hp : h.pending = none) (hl : ¬ h.LastFailed) :
    h.uow.commits ≤ h.storedVersion := by
  have hdirty := hs.dirty
  rw [if_neg (by simp [hd])] at hdirty
  rw [← hdirty, Host.snapped]
  cases hlast : h.saves.getLast? with
  | none => exact Nat.zero_le _
  | some s =>
    have hmem := List.mem_of_getLast? hlast
    refine hs.saved s hmem ?_
    cases hst : s.status with
    | saved => rfl
    | running => exact absurd hst (hs.not_running hp s hmem)
    | failed => exact absurd ⟨s, hlast, hst⟩ hl

theorem Steady.not_lastFailed (hs : Steady h) (hd : h.dirty = false) (hle : h.uow.commits ≤ h.storedVersion) :
    ¬ h.LastFailed := by
  rintro ⟨s, hlast, hst⟩
  have hdirty := hs.dirty
  rw [if_neg (by simp [hd]), Host.snapped, hlast] at hdirty
  have hlt := hs.last s hlast (by simp [hst])
  have hversion : s.version = h.uow.commits := hdirty
  omega

/-! ## Steps -/

/-- Nothing to be flushed. -/
theorem Steady.call_resolved_iff (hs : Steady h) (hd : h.dirty = false) (hp : h.pending = none) :
    Persisted (h.call .resolved) ↔ ¬ h.LastFailed := by
  constructor
  · intro hP
    exact hs.not_lastFailed hd (hP.resolved ⟨h.uow.commits, .resolved⟩ (List.mem_append_right _ List.mem_cons_self) rfl)
  · intro hl
    exact (hs.call ⟨le_rfl, hs.stored_of_clean hd hp hl⟩).persisted

theorem Steady.flushNow (hs : Steady h) (hl : h.dirty = false → h.pending = none → ¬ h.LastFailed) :
    Steady h.flushNow := by
  unfold Host.flushNow
  cases hp : h.pending with
  | none =>
    cases hd : h.dirty with
    | false => exact hs.call ⟨le_rfl, hs.stored_of_clean hd hp (hl hd hp)⟩
    | true =>
      refine (hs.startSave hp hd).call ⟨le_rfl, ⟨h.uow.tables.serialize, h.uow.commits, .running⟩, ?_, fun _ => le_rfl⟩
      simp [Host.startSave]
  | some save =>
    simp only [Option.isNone_some, Bool.and_false, Bool.false_eq_true, if_false]
    obtain ⟨s, hi, -⟩ := hs.pending save hp
    exact hs.call ⟨le_rfl, s, hi, fun hne => absurd rfl hne⟩

theorem Steady.not_lastFailed_of_flushNow (hs : Steady h) (hP : Persisted h.flushNow) (hd : h.dirty = false)
    (hp : h.pending = none) : ¬ h.LastFailed := by
  refine (hs.call_resolved_iff hd hp).1 ?_
  rwa [Host.flushNow, hd, hp] at hP

theorem Host.dispose_dirty (hd : h.dirty = true) : h.dispose = { h with timer := false }.flushNow := by
  simp [Host.dispose, hd]

theorem Host.dispose_clean (hd : h.dirty = false) (hp : h.pending = none) :
    h.dispose = { h with timer := false }.call .resolved := by
  simp [Host.dispose, hd, hp]

theorem Host.dispose_pending {save : ℕ} (hd : h.dirty = false) (hp : h.pending = some save) :
    h.dispose = { h with timer := false }.call (.waiting .dispose save) := by
  simp [Host.dispose, hd, hp]

theorem Steady.dispose (hs : Steady h) (hl : h.dirty = false → h.pending = none → ¬ h.LastFailed) :
    Steady h.dispose := by
  have ht : Steady { h with timer := false } := hs.timer
  cases hd : h.dirty with
  | true =>
    rw [Host.dispose_dirty hd]
    exact ht.flushNow hl
  | false =>
    cases hp : h.pending with
    | none =>
      rw [Host.dispose_clean hd hp]
      have hc : CallInv { h with timer := false } ⟨h.uow.commits, .resolved⟩ :=
        ⟨le_rfl, hs.stored_of_clean hd hp (hl hd hp)⟩
      exact ht.call hc
    | some save =>
      rw [Host.dispose_pending hd hp]
      obtain ⟨s, hi, hr⟩ := hs.pending save hp
      -- the save that runs has everything, since nothing is dirty
      have hversion : h.uow.commits = s.version := by
        have hdirty := hs.dirty
        rw [if_neg (by simp [hd]), Host.snapped, List.getLast?_eq_getElem?] at hdirty
        have hlast : h.saves.length - 1 = save := by
          have := (hs.running save s hi hr).2
          omega
        rw [hlast, hi] at hdirty
        exact hdirty.symm
      have hc : CallInv { h with timer := false } ⟨h.uow.commits, .waiting .dispose save⟩ :=
        ⟨le_rfl, s, hi, fun _ => hversion.le⟩
      exact ht.call hc

theorem Steady.not_lastFailed_of_dispose (hs : Steady h) (hP : Persisted h.dispose) (hd : h.dirty = false)
    (hp : h.pending = none) : ¬ h.LastFailed := by
  have ht : Steady { h with timer := false } := hs.timer
  rw [Host.dispose_clean hd hp] at hP
  exact (ht.call_resolved_iff hd hp).1 hP

def Save.ended (s : Save) (ok : Bool) : Save := { s with status := if ok then .saved else .failed }

theorem Host.complete_of_running {save : ℕ} {ok : Bool} {s : Save} (hi : h.saves[save]? = some s)
    (hr : s.status = .running) : h.complete save ok =
      { h with
        pending := none
        saves := h.saves.set save (s.ended ok)
        stored := if ok then s.snapshot else h.stored
        storedVersion := if ok then s.version else h.storedVersion } := by
  obtain ⟨snapshot, version, status⟩ := s
  obtain rfl : status = .running := hr
  unfold Host.complete
  rw [hi]
  cases ok <;> rfl

theorem Host.complete_of_not_running {save : ℕ} {ok : Bool} (h' : ∀ s, h.saves[save]? = some s → s.status ≠ .running) :
    h.complete save ok = h := by
  unfold Host.complete
  split
  next snapshot version hi => exact absurd rfl (h' _ hi)
  next => rfl

/-- **The end of a save.** -/
theorem Steady.complete (hs : Steady h) {save : ℕ} {ok : Bool} : Steady (h.complete save ok) := by
  by_cases hrun : ∃ s, h.saves[save]? = some s ∧ s.status = .running
  swap
  · rw [Host.complete_of_not_running fun s hi hr => hrun ⟨s, hi, hr⟩]
    exact hs
  obtain ⟨s, hi, hr⟩ := hrun
  obtain ⟨hpending, hlen⟩ := hs.running save s hi hr
  have hlast : h.saves.getLast? = some s := by
    rw [List.getLast?_eq_getElem?, ← hi]
    congr 1
    omega
  have hlt : h.storedVersion < s.version := hs.last s hlast (by simp [hr])
  have hsnapped : h.snapped = s.version := by rw [Host.snapped, hlast]; rfl
  have hlast' : (h.saves.set save (s.ended ok)).getLast? = some (s.ended ok) := by
    rw [List.getLast?_eq_getElem?, List.length_set]
    have hidx : h.saves.length - 1 = save := by omega
    rw [hidx, List.getElem?_set_self (by omega)]
  have hstored : h.storedVersion ≤ if ok then s.version else h.storedVersion := by
    split_ifs
    · exact hlt.le
    · exact le_rfl
  rw [Host.complete_of_running hi hr]
  refine ⟨hs.idle, fun i s' hi' hr' => ?_, fun i hp => (by cases hp), ?_, fun s' hmem hst => ?_, ?_, fun s' hl hst => ?_,
    fun c hc => ⟨(hs.calls c hc).1, ?_⟩⟩
  · by_cases hne : i = save
    · subst hne
      rw [List.getElem?_set_self (by omega)] at hi'
      obtain rfl := Option.some.inj hi'
      cases ok <;> cases hr'
    · rw [List.getElem?_set_ne (Ne.symm hne)] at hi'
      have := (hs.running i s' hi' hr').2
      omega
  · have hdirty := hs.dirty
    rw [hsnapped] at hdirty
    have hsnapped' : (h.saves.set save (s.ended ok)).getLast?.elim 0 Save.version = s.version := by
      rw [hlast']
      rfl
    change if h.dirty then _ < h.uow.commits else _ = h.uow.commits
    rw [Host.snapped, hsnapped']
    exact hdirty
  · rcases List.mem_or_eq_of_mem_set hmem with hmem | rfl
    · exact (hs.saved s' hmem hst).trans hstored
    · cases ok with
      | true => exact le_rfl
      | false => cases hst
  · simp only [Host.snapped, hlast']
    split_ifs
    · exact le_rfl
    · exact hlt.le
  · obtain rfl := Option.some.inj (hlast'.symm.trans hl)
    cases ok with
    | true => exact absurd rfl hst
    | false => exact hlt
  · have hinv := (hs.calls c hc).2
    cases hstatus : c.status with
    | resolved =>
      rw [hstatus] at hinv
      exact hinv.trans hstored
    | rejected => trivial
    | waiting kind i =>
      rw [hstatus] at hinv
      obtain ⟨s', hi', hle⟩ := hinv
      by_cases hne : i = save
      · subst hne
        obtain rfl := Option.some.inj (hi.symm.trans hi')
        exact ⟨s.ended ok, List.getElem?_set_self (by omega), hle⟩
      · exact ⟨s', by rw [← hi']; exact List.getElem?_set_ne (Ne.symm hne), hle⟩

/-- **A call goes on.** -/
theorem Steady.resume (hs : Steady h) {call : ℕ}
    (hC : ∀ version save s, h.calls[call]? = some ⟨version, .waiting .flushNow save⟩ →
      h.saves[save]? = some s → s.status = .saved → if h.dirty then h.pending = none else version ≤ h.storedVersion) :
    Steady (h.resume call) := by
  unfold Host.resume
  split
  next version kind save hcall =>
    have hinv := hs.calls _ (List.mem_of_getElem? hcall)
    obtain ⟨hle, s, hi, hkind⟩ := hinv
    simp only [hi, Option.map_some]
    cases hst : s.status with
    | running => exact hs
    | failed => exact hs.setCall ⟨hle, trivial⟩
    | saved =>
      have hsaved := hs.saved s (List.mem_of_getElem? hi) hst
      simp only
      split_ifs with hflush
      · -- what has come since is saved next
        obtain ⟨rfl, hd⟩ := hflush
        have hp := hC version save s hcall hi hst
        rw [if_pos hd] at hp
        refine (hs.startSave hp hd).setCall ⟨hle, ⟨h.uow.tables.serialize, h.uow.commits, .running⟩, ?_, fun _ => hle⟩
        simp [Host.startSave]
      · refine hs.setCall ⟨hle, ?_⟩
        by_cases hk : kind = .flushNow
        · subst hk
          have hstored := hC version save s hcall hi hst
          rwa [if_neg fun hd => hflush ⟨rfl, hd⟩] at hstored
        · exact (hkind hk).trans hsaved
  next => exact hs

theorem Steady.resume_needs (hs : Steady h) {call version save : ℕ} {s : Save}
    (hcall : h.calls[call]? = some ⟨version, .waiting .flushNow save⟩) (hi : h.saves[save]? = some s)
    (hst : s.status = .saved) (hP : Persisted (h.resume call)) :
    if h.dirty then h.pending = none else version ≤ h.storedVersion := by
  have hlen := (List.getElem?_eq_some_iff.1 hcall).1
  cases hd : h.dirty with
  | true =>
    have hresume : h.resume call = h.startSave.setCall call version (.waiting .started h.saves.length) := by
      simp [Host.resume, hcall, hi, hst, hd]
    rw [if_pos rfl]
    cases hp : h.pending with
    | none => rfl
    | some i =>
      -- another save is running
      obtain ⟨s', hi', hr⟩ := hs.pending i hp
      have hcount := hP.overlap
      rw [hresume] at hcount
      change (h.saves ++ _).countP _ ≤ 1 at hcount
      rw [List.countP_append] at hcount
      have hold : 0 < h.saves.countP fun s => s.status = .running :=
        List.countP_pos_iff.2 ⟨s', List.mem_of_getElem? hi', by simp [hr]⟩
      simp only [decide_true, List.countP_singleton, if_pos] at hcount
      omega
  | false =>
    have hresume : h.resume call = h.setCall call version .resolved := by
      simp [Host.resume, hcall, hi, hst, hd]
    rw [if_neg (by simp)]
    rw [hresume] at hP
    exact hP.resolved ⟨version, .resolved⟩ (List.mem_of_getElem? (List.getElem?_set_self hlen)) rfl

theorem Steady.run (hs : Steady h) {u : UnitOfWork} (hidle : u.Idle) (hle : h.uow.commits ≤ u.commits) :
    Steady ({ h with uow := u }.onCommit (u.commits - h.uow.commits)) := by
  have hcalls : ∀ c ∈ h.calls, CallInv { h with uow := u } c := fun c hc =>
    ⟨(hs.calls c hc).1.trans hle, (hs.calls c hc).2⟩
  unfold Host.onCommit
  split_ifs with hzero
  · have heq : u.commits = h.uow.commits := by omega
    have hdirty : if h.dirty then h.snapped < u.commits else h.snapped = u.commits := by
      rw [heq]
      exact hs.dirty
    exact ⟨hidle, hs.running, hs.pending, hdirty, hs.saved, hs.stored, hs.last, hcalls⟩
  · have hnew : h.snapped < u.commits := by
      have hdirty := hs.dirty
      split_ifs at hdirty <;> omega
    have hdirty : if true then h.snapped < u.commits else h.snapped = u.commits := by
      rw [if_pos rfl]
      exact hnew
    exact ⟨hidle, hs.running, hs.pending, hdirty, hs.saved, hs.stored, hs.last, hcalls⟩

variable {e : Event P V E}

/-- **Step lemma.** -/
theorem Steady.step (hs : Steady h) (hC : Careful registry h e) :
    Steady (hostStep registry h e) ∧ RunsAtomic registry h e := by
  cases e with
  | run code =>
    have hrun : (runCode registry code h.uow).1.Idle ∧ h.uow.commits ≤ (runCode registry code h.uow).1.commits :=
      run_idle hs.idle
    exact ⟨hs.run hrun.1 hrun.2, (atomic_iff hs.idle).2 hC⟩
  | timer =>
    refine ⟨?_, trivial⟩
    simp only [hostStep]
    split_ifs with ht
    · have hs' : Steady { h with timer := false } := hs.timer
      exact hs'.flushNow (hC ht)
    · exact hs
  | flushNow => exact ⟨hs.flushNow hC, trivial⟩
  | dispose => exact ⟨hs.dispose hC, trivial⟩
  | complete save ok => exact ⟨hs.complete, trivial⟩
  | resume call => exact ⟨hs.resume hC, trivial⟩

theorem Steady.careful (hs : Steady h) (hP : Persisted (hostStep registry h e)) (hR : RunsAtomic registry h e) :
    Careful registry h e := by
  cases e with
  | run code => exact (atomic_iff hs.idle).1 hR
  | timer =>
    intro ht hd hp
    have hs' : Steady { h with timer := false } := hs.timer
    simp only [hostStep, if_pos ht] at hP
    exact hs'.not_lastFailed_of_flushNow hP hd hp
  | flushNow => exact fun hd hp => hs.not_lastFailed_of_flushNow hP hd hp
  | dispose => exact fun hd hp => hs.not_lastFailed_of_dispose hP hd hp
  | complete save ok => trivial
  | resume call => exact fun version save s hcall hi hst => hs.resume_needs hcall hi hst hP

/-- A store that is out of order, when a commit is flushed twice. -/
def failedSave : List (Event Unit Unit Unit) :=
  [.run (.transaction (.ret ()) fun _ => .ret ()), .flushNow, .complete 0 false, .resume 0, .flushNow]

end ChronoSynth.Web

import ChronoSynth.Edge.GrowthQueue
import ChronoSynth.Edge.Outbox
import ChronoSynth.Edge.ValueStore

/-!
# Restarts of a device

A device has an outbox, a growth queue and its values, each of which is stored and restored on its own.
`survives_iff` says in which runs every state reached survives a restart.
-/

namespace ChronoSynth.Edge

structure Device where
  outbox : SyncOutbox
  growth : GrowthJobQueue
  values : ValueStore

def Device.new (deviceId : String) : Device := ⟨.new deviceId, .new, .empty⟩

inductive DeviceOp
  | outbox (op : OutboxOp)
  | growth (op : GrowthOp)
  | values (op : ValueOp)

def Device.step (d : Device) : DeviceOp → Device
  | .outbox op => { d with outbox := (d.outbox.step op).1 }
  | .growth op => { d with growth := (d.growth.step op).1 }
  | .values op => { d with values := (d.values.step op).1 }

variable (collation : Collation)

/-- All that is stored survives a restart, and a restore of the values that throws changes nothing. -/
structure Device.Survives (d : Device) : Prop where
  outbox : d.outbox.Survives
  growth : d.growth.Survives
  values : d.values.Survives collation
  unchanged : ∀ serialized e, (d.values.restore serialized).2 = .error e → (d.values.restore serialized).1 = d.values

/-- What an operation writes is accepted when it is read back. -/
def WritesReadable (d : Device) : DeviceOp → Prop
  | .outbox op => op.Readable
  | .growth op => op.Readable
  | .values op => op.Readable d.values

/-- Everything stored can be read back. -/
structure Device.Sound (d : Device) : Prop where
  outbox : d.outbox.WellFormed
  growth : d.growth.WellFormed
  entries : ∀ e ∈ d.outbox.entries, e.Readable
  jobs : ∀ j ∈ d.growth.jobs, j.Readable
  rows : ∀ v ∈ d.values.rows, v.Readable

variable {collation} {d : Device} {op : DeviceOp}

theorem Device.sound_new {deviceId : String} : (Device.new deviceId).Sound where
  outbox := SyncOutbox.wellFormed_new
  growth := GrowthJobQueue.wellFormed_new
  entries := fun _ h => (List.not_mem_nil h).elim
  jobs := fun _ h => (List.not_mem_nil h).elim
  rows := fun _ h => (List.not_mem_nil h).elim

theorem Device.Sound.survives (hd : d.Sound) : d.Survives collation where
  outbox := (SyncOutbox.survives_iff hd.outbox).2 hd.entries
  growth := (GrowthJobQueue.survives_iff hd.growth).2 hd.jobs
  values := ValueStore.survives_iff.2 hd.rows
  unchanged := fun _ _ => ValueStore.restore_error

theorem Device.Sound.step (hd : d.Sound) (hop : WritesReadable d op) : (d.step op).Sound := by
  cases op with
  | outbox op =>
    exact ⟨hd.outbox.step op, hd.growth, (SyncOutbox.readable_step_iff hd.entries).2 hop, hd.jobs, hd.rows⟩
  | growth op =>
    exact ⟨hd.outbox, hd.growth.step op, hd.entries, (GrowthJobQueue.readable_step_iff hd.jobs).2 hop, hd.rows⟩
  | values op =>
    exact ⟨hd.outbox, hd.growth, hd.entries, hd.jobs, (ValueStore.readable_step_iff hd.rows).2 hop⟩

theorem Device.Sound.writesReadable (hd : d.Sound) (hs : (d.step op).Survives collation) : WritesReadable d op := by
  cases op with
  | outbox op =>
    exact (SyncOutbox.readable_step_iff hd.entries).1 ((SyncOutbox.survives_iff (hd.outbox.step op)).1 hs.outbox)
  | growth op =>
    exact (GrowthJobQueue.readable_step_iff hd.jobs).1 ((GrowthJobQueue.survives_iff (hd.growth.step op)).1 hs.growth)
  | values op => exact (ValueStore.readable_step_iff hd.rows).1 (ValueStore.survives_iff.1 hs.values)

/-- **Exactly when every state reached survives a restart**: when every operation writes what is accepted when it is
read back. -/
theorem device_survives_iff {deviceId : String} {ops : List DeviceOp} :
    Always Device.step (Device.Survives collation) (.new deviceId) ops ↔
      Along Device.step WritesReadable (.new deviceId) ops :=
  always_iff_along Device.sound_new (fun _ hd => hd.survives) (fun _ _ hd hop => hd.step hop)
    fun _ _ hd hs => hd.writesReadable hs

/-- A fact without an operation kind is queued, and cannot be read back. -/
theorem unnamed_fact_lost : ¬ ∀ (collation : Collation) (deviceId : String) (ops : List DeviceOp),
    Always Device.step (Device.Survives collation) (.new deviceId) ops := by
  intro h
  obtain ⟨o, ho, -⟩ := (h ⟨id, fun _ => List.Perm.refl _⟩ "A"
    [.outbox (.enqueue .fact "" [] (.finite (JsNumber.ofInt 1000)))]).last.outbox
  have hwell : (run Device.step (.new "A")
      [.outbox (.enqueue .fact "" [] (.finite (JsNumber.ofInt 1000)))]).outbox.WellFormed :=
    SyncOutbox.wellFormed_new.step _
  have hread := ((SyncOutbox.fromSerialized_serialize hwell).1 ho).1
  exact (hread ⟨"A", 1, .fact, "", .obj [], .finite (JsNumber.ofInt 1000), false⟩ List.mem_cons_self).1 rfl

end ChronoSynth.Edge

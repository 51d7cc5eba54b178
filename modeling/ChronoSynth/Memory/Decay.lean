import ChronoSynth.Memory.Deletion
import ChronoSynth.Memory.GraphRuns

/-!
# How often memories are decayed

`decayAll` multiplies the salience of a memory by `exp (-λ * dt)` and notes when, so what a memory is worth at a time
(`decayedAt`) is not changed by a pass before it. A pass leaves a memory as it is where the salience would change by less
than `1e-6`, and it does so before it looks at the floor: whether what is below the floor is gone after a pass depends on
what the passes before it wrote (`Settles`).
-/

set_option linter.unusedSectionVars false

namespace ChronoSynth.Memory

variable {K : Type} [Field K] [LinearOrder K]

local instance decayTenAtLeastTwo : Nat.AtLeastTwo 10 := ⟨by decide⟩

structure ExactPorts (K : Type) [Field K] [LinearOrder K] extends MemoryPorts K where
  exp_add : ∀ a b, exp (a + b) = exp a * exp b
  exp_pos : ∀ a, 0 < exp a
  exp_le_one : ∀ a, a ≤ 0 → exp a ≤ 1

variable (ports : ExactPorts K)

/-- What a memory is worth at a time. -/
def decayedAt (t : K) (row : MemoryRow K) : K := row.salience * ports.exp (-row.decayLambda * (t - row.lastDecayedAt))

/-- A pass at the time writes the memory. -/
def Decays (now : K) (row : MemoryRow K) : Prop :=
  row.lastDecayedAt < now ∧ 0 < row.decayLambda ∧ 1 / 10 ^ 6 ≤ row.salience - decayedAt ports now row

/-- What is below the floor at the time is written by a pass, and no edge of another persona ends in it. -/
def Settles (config : MemoryCognitionConfig K) (p : String) (now : K) (t : MemoryTables K) : Prop :=
  0 < config.salienceFloor → ∀ row ∈ t.nodesOf p, decayedAt ports now row < config.salienceFloor →
    Decays ports now row ∧ ¬ t.Foreign p row.id

/-- After a pass at the time in two runs: the same memories are left, they are worth the same, and none of them is below
the floor. -/
structure DecayedAlike (config : MemoryCognitionConfig K) (p : String) (now : K) (often once : MemoryTables K) : Prop where
  survivors : ∀ x, often.Owns p x ↔ once.Owns p x
  worth : ∀ a ∈ often.nodesOf p, ∀ b ∈ once.nodesOf p, a.id = b.id → decayedAt ports now a = decayedAt ports now b
  floor : 0 < config.salienceFloor →
    (∀ row ∈ often.nodesOf p, config.salienceFloor ≤ decayedAt ports now row) ∧
      ∀ row ∈ once.nodesOf p, config.salienceFloor ≤ decayedAt ports now row

/-- A call of `decayAll` at a time. -/
def decayCall (p : String) (pass : K × (ℕ → Env K)) : MemCall K :=
  ⟨p, .decayAll, fun n => { pass.2 n with now := pass.1 }⟩

variable {ports} {config : MemoryCognitionConfig K} {p : String} {db db' : MemoryDb K} {row a b : MemoryRow K} {now t : K}
  {nodes : List (MemoryRow K)}

/-! ## What a memory is worth -/

/-- The same, as far as decay goes. -/
def MemoryRow.SameDecay (a b : MemoryRow K) : Prop :=
  a.id = b.id ∧ a.salience = b.salience ∧ a.decayLambda = b.decayLambda ∧ a.lastDecayedAt = b.lastDecayedAt

theorem MemoryRow.SameDecay.worth (h : a.SameDecay b) (t : K) : decayedAt ports t a = decayedAt ports t b := by
  obtain ⟨-, hs, hl, ht⟩ := h
  simp only [decayedAt, hs, hl, ht]

theorem sameDecay_forgetting (ids : List String) (row : MemoryRow K) : (row.forgetting ids).SameDecay row := by
  unfold MemoryRow.forgetting
  split <;> exact ⟨rfl, rfl, rfl, rfl⟩

/-- The memory once a pass wrote it. -/
def MemoryRow.decayed (ports : ExactPorts K) (now : K) (row : MemoryRow K) : MemoryRow K :=
  { row with salience := decayedAt ports now row, lastDecayedAt := now }

section
variable [IsStrictOrderedRing K]

/-- **What a pass writes is worth what it was.** -/
theorem worth_decayed : decayedAt ports t (row.decayed ports now) = decayedAt ports t row := by
  have hsplit : -row.decayLambda * (t - row.lastDecayedAt) =
      -row.decayLambda * (now - row.lastDecayedAt) + -row.decayLambda * (t - now) := by ring
  simp only [decayedAt, MemoryRow.decayed]
  rw [hsplit, ports.exp_add, mul_assoc]

theorem decayedAt_nonneg (hs : 0 ≤ row.salience) : 0 ≤ decayedAt ports t row :=
  mul_nonneg hs (ports.exp_pos _).le

/-- Later a memory is worth less. -/
theorem decayedAt_anti (hs : 0 ≤ row.salience) (hl : 0 ≤ row.decayLambda) {t' : K} (ht : t ≤ t') :
    decayedAt ports t' row ≤ decayedAt ports t row := by
  have hsplit : -row.decayLambda * (t' - row.lastDecayedAt) =
      -row.decayLambda * (t - row.lastDecayedAt) + -row.decayLambda * (t' - t) := by ring
  have hle : ports.exp (-row.decayLambda * (t' - t)) ≤ 1 :=
    ports.exp_le_one _ (by rw [neg_mul]; exact neg_nonpos.2 (mul_nonneg hl (sub_nonneg.2 ht)))
  simp only [decayedAt]
  rw [hsplit, ports.exp_add, ← mul_assoc]
  exact mul_le_of_le_one_right (mul_nonneg hs (ports.exp_pos _).le) hle

theorem decayedAt_le (hs : 0 ≤ row.salience) (hl : 0 ≤ row.decayLambda) (ht : row.lastDecayedAt ≤ t) :
    decayedAt ports t row ≤ row.salience := by
  have hle : ports.exp (-row.decayLambda * (t - row.lastDecayedAt)) ≤ 1 :=
    ports.exp_le_one _ (by rw [neg_mul]; exact neg_nonpos.2 (mul_nonneg hl (sub_nonneg.2 ht)))
  exact mul_le_of_le_one_right hs hle

theorem applyDecay_eq (hs : 0 ≤ row.salience) (ht : row.lastDecayedAt < now) (hl : 0 < row.decayLambda) :
    applyDecay ports.toMemoryPorts row.salience row.decayLambda (now - row.lastDecayedAt) = decayedAt ports now row := by
  have hskip : ¬ (now - row.lastDecayedAt ≤ 0 ∨ row.decayLambda ≤ 0) := by
    rw [not_or, not_le, not_le, sub_pos]
    exact ⟨ht, hl⟩
  rw [applyDecay, if_neg hskip]
  exact if_neg (decayedAt_nonneg hs).not_gt

theorem skipped_iff (hs : 0 ≤ row.salience) :
    (now - row.lastDecayedAt ≤ 0 ∨ row.decayLambda ≤ 0 ∨
      |row.salience - applyDecay ports.toMemoryPorts row.salience row.decayLambda (now - row.lastDecayedAt)| <
        1 / 10 ^ 6) ↔ ¬ Decays ports now row := by
  by_cases ht : row.lastDecayedAt < now
  · by_cases hl : 0 < row.decayLambda
    · have habs : |row.salience - decayedAt ports now row| = row.salience - decayedAt ports now row :=
        abs_of_nonneg (sub_nonneg.2 (decayedAt_le hs hl.le ht.le))
      rw [applyDecay_eq hs ht hl, habs]
      simp only [Decays, ht, hl, true_and, sub_nonpos, ht.not_ge, hl.not_ge, false_or, not_le]
    · exact ⟨fun _ hd => hl hd.2.1, fun _ => .inr (.inl (not_lt.1 hl))⟩
  · exact ⟨fun _ hd => ht hd.1, fun _ => .inl (sub_nonpos.2 (not_lt.1 ht))⟩

/-! ## One memory -/

/-- The memories that are left are worth what they were. -/
def Carries (ports : ExactPorts K) (p : String) (t t' : MemoryTables K) : Prop :=
  ∀ row' ∈ t'.nodesOf p, ∃ row ∈ t.nodesOf p, row.id = row'.id ∧ row.decayLambda = row'.decayLambda ∧
    ∀ now, decayedAt ports now row' = decayedAt ports now row

theorem Carries.refl {t : MemoryTables K} : Carries ports p t t := fun row hrow => ⟨row, hrow, rfl, rfl, fun _ => rfl⟩

theorem Carries.trans {t t' t'' : MemoryTables K} (h : Carries ports p t t') (h' : Carries ports p t' t'') :
    Carries ports p t t'' := by
  intro row'' hrow''
  obtain ⟨row', hrow', hid', hl', hworth'⟩ := h' row'' hrow''
  obtain ⟨row, hrow, hid, hl, hworth⟩ := h row' hrow'
  exact ⟨row, hrow, hid.trans hid', hl.trans hl', fun now => (hworth' now).trans (hworth now)⟩

theorem carries_without (ids : List String) : Carries ports p db.toMemoryTables (db.without ids).toMemoryTables := by
  intro row' hrow'
  obtain ⟨old, hold, -, rfl⟩ := mem_nodesOf_without.1 hrow'
  have hsame := sameDecay_forgetting ids old
  exact ⟨old, hold, hsame.1.symm, hsame.2.2.1.symm, hsame.worth⟩

/-- What a pass writes to a memory. -/
def MemoryTables.decay (t : MemoryTables K) (p id : String) (salience now : K) : MemoryTables K :=
  t.updateNodes (fun row => row.id = id ∧ row.personaId = p) fun row => { row with salience, lastDecayedAt := now }

theorem Constraints.decay {t : MemoryTables K} (h : Constraints t) {id : String} {salience : K}
    (hs : 0 ≤ salience ∧ salience ≤ 1) : Constraints (t.decay p id salience now) := by
  have hids : (t.decay p id salience now).nodes.map (fun row => row.id) = t.nodes.map fun row => row.id :=
    Table.map_update fun _ _ => rfl
  exact
    { node_key := hids ▸ h.node_key
      valence := Table.forall_mem_update h.valence fun _ _ hv => hv
      salience := Table.forall_mem_update h.salience fun _ _ _ => hs
      consolidatedFrom := fun row hrow source hsource => by
        rw [hids]
        obtain ⟨old, hold, rfl⟩ := Table.mem_update.1 hrow
        refine h.consolidatedFrom old hold source ?_
        split at hsource <;> exact hsource
      edge_key := h.edge_key
      strength := h.strength
      ends := fun edge hedge => hids ▸ h.ends edge hedge
      slot_key := h.slot_key
      memory := fun slot hslot => hids ▸ h.memory slot hslot }

theorem owns_decay {t : MemoryTables K} {id x : String} {salience : K} :
    (t.decay p id salience now).Owns p x ↔ t.Owns p x :=
  owns_updateNodes fun _ _ _ => ⟨rfl, rfl⟩

theorem mem_nodesOf_decay {t : MemoryTables K} {id : String} {salience : K}
    (h : a ∈ (t.decay p id salience now).nodesOf p) : ∃ old ∈ t.nodesOf p,
      old.id ≠ id ∧ a = old ∨ old.id = id ∧ a = { old with salience, lastDecayedAt := now } := by
  obtain ⟨hmem, hp⟩ := List.mem_filter.1 h
  obtain ⟨old, hold, rfl⟩ := Table.mem_update.1 hmem
  split_ifs at hp ⊢ with hid
  · exact ⟨old, List.mem_filter.2 ⟨hold, by simpa using hid.2⟩, .inr ⟨hid.1, rfl⟩⟩
  · exact ⟨old, List.mem_filter.2 ⟨hold, hp⟩, .inl ⟨fun heq => hid ⟨heq, by simpa using hp⟩, rfl⟩⟩

theorem mem_nodesOf_decay_of {t : MemoryTables K} {id : String} {salience : K} (h : a ∈ t.nodesOf p) (hid : a.id ≠ id) :
    a ∈ (t.decay p id salience now).nodesOf p := by
  obtain ⟨hmem, hp⟩ := List.mem_filter.1 h
  exact List.mem_filter.2 ⟨Table.mem_update_of_not hmem fun hboth => hid hboth.1, hp⟩

/-! ## One pass -/

/-- The rows that the loop works through are stored, each once. -/
structure Listed (db : MemoryDb K) (p : String) (nodes : List (MemoryRow K)) : Prop where
  nodup : (nodes.map fun row => row.id).Nodup
  stored : ∀ row ∈ nodes, ∃ old ∈ db.nodesOf p, old.SameDecay row

/-- A pass deletes the memory. -/
def Falls (ports : ExactPorts K) (config : MemoryCognitionConfig K) (now : K) (row : MemoryRow K) : Prop :=
  Decays ports now row ∧ 0 < config.salienceFloor ∧ decayedAt ports now row < config.salienceFloor

theorem Listed.tail (h : Listed db p (row :: nodes)) : Listed db p nodes :=
  ⟨(List.nodup_cons.1 h.nodup).2, fun r hr => h.stored r (List.mem_cons_of_mem _ hr)⟩

theorem Listed.id_ne (h : Listed db p (row :: nodes)) : ∀ r ∈ nodes, r.id ≠ row.id :=
  fun r hr heq => (List.nodup_cons.1 h.nodup).1 (List.mem_map.2 ⟨r, hr, heq⟩)

theorem Listed.salience (h : Listed db p (row :: nodes)) : 0 ≤ row.salience ∧ row.salience ≤ 1 := by
  obtain ⟨old, hold, -, hs, -⟩ := h.stored row List.mem_cons_self
  rw [← hs]
  exact db.sound.salience old (List.mem_filter.1 hold).1

theorem Listed.owns (h : Listed db p (row :: nodes)) : db.Owns p row.id := by
  obtain ⟨old, hold, hid, -⟩ := h.stored row List.mem_cons_self
  exact hid ▸ owns_of_mem hold

theorem Listed.without (h : Listed db p (row :: nodes)) : Listed (db.without [row.id]) p nodes := by
  refine ⟨h.tail.nodup, fun r hr => ?_⟩
  obtain ⟨old, hold, hsame⟩ := h.tail.stored r hr
  refine ⟨_, mem_nodesOf_without.2 ⟨old, hold, ?_, rfl⟩, ?_⟩
  · rw [List.mem_singleton, hsame.1]
    exact h.id_ne r hr
  · have hforget := sameDecay_forgetting [row.id] old
    exact ⟨hforget.1.trans hsame.1, hforget.2.1.trans hsame.2.1, hforget.2.2.1.trans hsame.2.2.1,
      hforget.2.2.2.trans hsame.2.2.2⟩

theorem Listed.decay (h : Listed db p (row :: nodes)) {salience : K} (hs : 0 ≤ salience ∧ salience ≤ 1) :
    Listed ⟨db.toMemoryTables.decay p row.id salience now, db.sound.decay hs⟩ p nodes := by
  refine ⟨h.tail.nodup, fun r hr => ?_⟩
  obtain ⟨old, hold, hsame⟩ := h.tail.stored r hr
  exact ⟨old, mem_nodesOf_decay_of hold (hsame.1 ▸ h.id_ne r hr), hsame⟩

/-- The stored memory is worth the same after the pass wrote it. -/
theorem Listed.carries (h : Listed db p (row :: nodes)) :
    Carries ports p db.toMemoryTables (db.toMemoryTables.decay p row.id (decayedAt ports now row) now) := by
  intro row' hrow'
  obtain ⟨old, hold, ⟨-, rfl⟩ | ⟨hid, rfl⟩⟩ := mem_nodesOf_decay hrow'
  · exact ⟨row', hold, rfl, rfl, fun _ => rfl⟩
  · obtain ⟨listed, hlisted, hsame⟩ := h.stored row List.mem_cons_self
    have heq : old = listed := List.inj_on_of_nodup_map nodesOf_nodup hold hlisted (hid.trans hsame.1.symm)
    refine ⟨old, hold, rfl, rfl, fun t => ?_⟩
    rw [← heq] at hsame
    rw [← hsame.worth now]
    exact worth_decayed

/-- What a pass over the rows does, if no edge of another persona holds what it deletes. -/
structure Passes (ports : ExactPorts K) (config : MemoryCognitionConfig K) (p : String) (now : K)
    (nodes : List (MemoryRow K)) (t t' : MemoryTables K) : Prop where
  free : ∀ row ∈ nodes, Falls ports config now row → ¬ t.Foreign p row.id
  left : ∀ x, t'.Owns p x ↔ t.Owns p x ∧ ∀ row ∈ nodes, Falls ports config now row → row.id ≠ x
  carries : Carries ports p t t'

theorem Passes.skip {t t' : MemoryTables K} (h : Passes ports config p now nodes t t')
    (hrow : ¬ Falls ports config now row) : Passes ports config p now (row :: nodes) t t' where
  free := List.forall_mem_cons.2 ⟨fun hf => absurd hf hrow, h.free⟩
  left x := by
    rw [h.left x, List.forall_mem_cons]
    exact and_congr_right fun _ => ⟨fun hall => ⟨fun hf => absurd hf hrow, hall⟩, And.right⟩
  carries := h.carries

/-- **A pass**, memory by memory. -/
theorem decayNodes_ensures (h : Listed db p nodes) :
    (decayNodes ports.toMemoryPorts config p now nodes).Ensures exec (fun r db' => match r with
      | .ok _ => Passes ports config p now nodes db.toMemoryTables db'.toMemoryTables
      | .error _ => ∃ row ∈ nodes, Falls ports config now row ∧ db.Foreign p row.id) db := by
  induction nodes generalizing db with
  | nil => exact ⟨nofun, fun x => by simp, .refl⟩
  | cons row nodes ih =>
    rw [decayNodes]
    by_cases hd : Decays ports now row
    · have hnew : applyDecay ports.toMemoryPorts row.salience row.decayLambda (now - row.lastDecayedAt) =
          decayedAt ports now row := applyDecay_eq h.salience.1 hd.1 hd.2.1
      rw [if_neg ((skipped_iff h.salience.1).not.2 (not_not.2 hd)), hnew]
      by_cases hfloor : 0 < config.salienceFloor ∧ decayedAt ports now row < config.salienceFloor
      · have hfalls : Falls ports config now row := ⟨hd, hfloor⟩
        rw [if_pos hfloor, Prog.ensures_bind_iff, deleteMemoryInternal_ensures_iff h.owns]
        split_ifs with hf
        · exact ⟨row, List.mem_cons_self, hfalls, hf⟩
        · have hfree : ∀ y ∈ [row.id], ¬ db.Foreign p y := fun y hy => List.mem_singleton.1 hy ▸ hf
          refine .bind ((ih h.without).mono fun r db' hr => ?_)
          cases r with
          | ok r =>
            refine ⟨List.forall_mem_cons.2 ⟨fun _ => hf, fun r hr' hfr => ?_⟩, fun x => ?_,
              (carries_without _).trans hr.carries⟩
            · exact (foreign_without hfree).not.1 (hr.free r hr' hfr)
            · have howns : (db.without [row.id]).Owns p x ↔ db.Owns p x ∧ x ∉ [row.id] := owns_without
              rw [hr.left x, howns, List.forall_mem_cons, List.mem_singleton, and_assoc]
              refine and_congr_right fun _ => and_congr_left fun _ => ?_
              exact ⟨fun hne _ heq => hne heq.symm, fun hne heq => hne hfalls heq.symm⟩
          | error e =>
            obtain ⟨r, hr', hfr, hforeign⟩ := hr
            exact ⟨r, List.mem_cons_of_mem _ hr', hfr, (foreign_without hfree).1 hforeign⟩
      · have hstays : ¬ Falls ports config now row := fun hfalls => hfloor hfalls.2
        have hs : 0 ≤ decayedAt ports now row ∧ decayedAt ports now row ≤ 1 :=
          ⟨decayedAt_nonneg h.salience.1, (decayedAt_le h.salience.1 hd.2.1.le hd.1.le).trans h.salience.2⟩
        have heffect : (MemCmd.updateSalience row.id p (decayedAt ports now row) now).effect db.toMemoryTables =
            ((⟨_, db.sound.decay hs⟩ : MemoryDb K).toMemoryTables, _) := rfl
        rw [if_neg hfloor, Prog.ensures_bind_iff, execute_ensures_iff heffect]
        refine .bind ((ih (h.decay hs)).mono fun r db' hr => ?_)
        cases r with
        | ok r =>
          refine Passes.skip ⟨hr.free, fun x => ?_, h.carries.trans hr.carries⟩ hstays
          rw [hr.left x]
          exact and_congr_left fun _ => owns_decay
        | error e =>
          obtain ⟨r, hr', hfr, hforeign⟩ := hr
          exact ⟨r, List.mem_cons_of_mem _ hr', hfr, hforeign⟩
    · rw [if_pos ((skipped_iff h.salience.1).2 hd)]
      have hstays : ¬ Falls ports config now row := fun hfalls => hd hfalls.1
      refine (ih h.tail).mono fun r db' hr => ?_
      cases r with
      | ok r => exact hr.skip hstays
      | error e =>
        obtain ⟨r, hr', hrest⟩ := hr
        exact ⟨r, List.mem_cons_of_mem _ hr', hrest⟩

theorem Passes.congr {nodes' : List (MemoryRow K)} {t t' : MemoryTables K} (h : Passes ports config p now nodes t t')
    (hmem : ∀ row, row ∈ nodes' ↔ row ∈ nodes) : Passes ports config p now nodes' t t' where
  free row hrow := h.free row ((hmem row).1 hrow)
  left x := (h.left x).trans (and_congr_right fun _ => forall_congr' fun row => by rw [hmem row])
  carries := h.carries

section
variable [FloorRing K] {pass : K × (ℕ → Env K)}

/-- **The call** passes over all memories of the persona, or is undone because a memory that it would delete is held. -/
theorem decay_step (ports : ExactPorts K) (config : MemoryCognitionConfig K) (p : String) (db : MemoryDb K)
    (pass : K × (ℕ → Env K)) :
    Passes ports config p pass.1 (db.nodesOf p) db.toMemoryTables
        (db.step ports.toMemoryPorts config (decayCall p pass)).toMemoryTables ∨
      db.step ports.toMemoryPorts config (decayCall p pass) = db ∧
        ∃ row ∈ db.nodesOf p, Falls ports config pass.1 row ∧ db.Foreign p row.id := by
  -- the first step of the call reads the clock, the second the memories
  have hsolo : ((decayCall p pass).body ports.toMemoryPorts config).solo exec (decayCall p pass).oracle db =
      ((decayNodes ports.toMemoryPorts config p pass.1 (shuffle (pass.2 1).tie (db.nodesOf p)) >>= fun _ =>
        pure ()).solo exec (fun n => { pass.2 (n + 1 + 1) with now := pass.1 }) db) := rfl
  have hlisted : Listed db p (shuffle (pass.2 1).tie (db.nodesOf p)) :=
    ⟨((shuffle_perm _ _).map fun row : MemoryRow K => row.id).nodup_iff.2 nodesOf_nodup,
      fun row hrow => ⟨row, mem_shuffle.1 hrow, rfl, rfl, rfl, rfl⟩⟩
  have hpass : (decayNodes ports.toMemoryPorts config p pass.1 (shuffle (pass.2 1).tie (db.nodesOf p)) >>= fun _ =>
      pure ()).Ensures exec (fun r db' => match r with
        | .ok () => Passes ports config p pass.1 (db.nodesOf p) db.toMemoryTables db'.toMemoryTables
        | .error _ => ∃ row ∈ db.nodesOf p, Falls ports config pass.1 row ∧ db.Foreign p row.id) db := by
    refine .bind ((decayNodes_ensures hlisted).mono fun r db' hr => ?_)
    cases r with
    | ok r => exact hr.congr fun row => mem_shuffle.symm
    | error e =>
      obtain ⟨row, hrow, hrest⟩ := hr
      exact ⟨row, mem_shuffle.1 hrow, hrest⟩
  have hend := hpass.solo fun n => { pass.2 (n + 1 + 1) with now := pass.1 }
  rw [← hsolo] at hend
  rw [MemoryDb.step]
  generalize Prog.solo exec ((decayCall p pass).body ports.toMemoryPorts config) (decayCall p pass).oracle db = done at hend
  obtain ⟨db', r⟩ := done
  cases r with
  | ok r => exact .inl hend
  | error e => exact .inr ⟨rfl, hend⟩

theorem carries_step : Carries ports p db.toMemoryTables
    (db.step ports.toMemoryPorts config (decayCall p pass)).toMemoryTables := by
  rcases decay_step ports config p db pass with hpass | ⟨heq, -⟩
  · exact hpass.carries
  · rw [heq]
    exact .refl

/-- A memory is not below the floor at the time. -/
def Kept (ports : ExactPorts K) (config : MemoryCognitionConfig K) (p : String) (now : K) (t : MemoryTables K)
    (x : String) : Prop :=
  ∃ row ∈ t.nodesOf p, row.id = x ∧ (0 < config.salienceFloor → config.salienceFloor ≤ decayedAt ports now row)

theorem mem_nodesOf_of_owns {t : MemoryTables K} {x : String} (h : t.Owns p x) : ∃ row ∈ t.nodesOf p, row.id = x := by
  obtain ⟨row, hrow, hid, hp⟩ := h
  exact ⟨row, List.mem_filter.2 ⟨hrow, by simpa using hp⟩, hid⟩

theorem Carries.kept {t t' : MemoryTables K} {x : String} (h : Carries ports p t t') (hx : Kept ports config p now t' x) :
    Kept ports config p now t x := by
  obtain ⟨row', hrow', rfl, hfloor⟩ := hx
  obtain ⟨row, hrow, hid, -, hworth⟩ := h row' hrow'
  exact ⟨row, hrow, hid, fun hpos => hworth now ▸ hfloor hpos⟩

/-- **What is not below the floor later is left by a pass.** -/
theorem Kept.step {x : String} (h : Kept ports config p t db.toMemoryTables x) (ht : pass.1 ≤ t) :
    Kept ports config p t (db.step ports.toMemoryPorts config (decayCall p pass)).toMemoryTables x := by
  obtain ⟨row, hrow, rfl, hfloor⟩ := h
  have howns : (db.step ports.toMemoryPorts config (decayCall p pass)).Owns p row.id := by
    rcases decay_step ports config p db pass with hpass | ⟨heq, -⟩
    · refine (hpass.left _).2 ⟨owns_of_mem hrow, fun other hother hfalls hid => ?_⟩
      obtain rfl : other = row := List.inj_on_of_nodup_map nodesOf_nodup hother hrow hid
      have hs := (db.sound.salience other (List.mem_filter.1 hrow).1).1
      have hanti : decayedAt ports t other ≤ decayedAt ports pass.1 other := decayedAt_anti hs hfalls.1.2.1.le ht
      exact absurd ((hfloor hfalls.2.1).trans hanti) hfalls.2.2.not_ge
    · rw [heq]
      exact owns_of_mem hrow
  obtain ⟨row', hrow', hid'⟩ := mem_nodesOf_of_owns howns
  obtain ⟨old, hold, hid, -, hworth⟩ := carries_step row' hrow'
  obtain rfl : old = row := List.inj_on_of_nodup_map nodesOf_nodup hold hrow (hid.trans hid')
  exact ⟨row', hrow', hid', fun hpos => (hworth t).symm ▸ hfloor hpos⟩

/-- **The floor** is met after a pass exactly when the pass settles what is below it. -/
theorem floor_iff_settles : (0 < config.salienceFloor →
    ∀ row ∈ (db.step ports.toMemoryPorts config (decayCall p pass)).nodesOf p,
      config.salienceFloor ≤ decayedAt ports pass.1 row) ↔ Settles ports config p pass.1 db.toMemoryTables := by
  constructor
  · intro h hpos row hrow hlow
    -- a memory below the floor is not left
    have hgone : ¬ (db.step ports.toMemoryPorts config (decayCall p pass)).Owns p row.id := by
      intro howns
      obtain ⟨row', hrow', hid'⟩ := mem_nodesOf_of_owns howns
      obtain ⟨old, hold, hid, -, hworth⟩ := carries_step row' hrow'
      obtain rfl : old = row := List.inj_on_of_nodup_map nodesOf_nodup hold hrow (hid.trans hid')
      exact absurd (h hpos row' hrow') (by rw [hworth]; exact hlow.not_ge)
    rcases decay_step ports config p db pass with hpass | ⟨heq, -⟩
    · rw [hpass.left, not_and] at hgone
      have hfalls := hgone (owns_of_mem hrow)
      push Not at hfalls
      obtain ⟨other, hother, hf, hid⟩ := hfalls
      obtain rfl : other = row := List.inj_on_of_nodup_map nodesOf_nodup hother hrow hid
      exact ⟨hf.1, hpass.free other hother hf⟩
    · rw [heq] at hgone
      exact absurd (owns_of_mem hrow) hgone
  · intro h hpos row' hrow'
    obtain ⟨row, hrow, hid, -, hworth⟩ := carries_step row' hrow'
    by_contra hlow
    rw [hworth, not_le] at hlow
    obtain ⟨hd, hfree⟩ := h hpos row hrow hlow
    rcases decay_step ports config p db pass with hpass | ⟨-, other, hother, hf, hforeign⟩
    · exact ((hpass.left row'.id).1 (owns_of_mem hrow')).2 row hrow ⟨hd, hpos, hlow⟩ hid
    · exact (h hpos other hother hf.2.2).2 hforeign

/-! ## Schedules -/

/-- The passes, one after the other. -/
def decayRun (ports : ExactPorts K) (config : MemoryCognitionConfig K) (p : String) (db : MemoryDb K)
    (passes : List (K × (ℕ → Env K))) : MemoryDb K :=
  run (MemoryDb.step ports.toMemoryPorts config) db (passes.map (decayCall p))

variable {passes : List (K × (ℕ → Env K))}

theorem carries_decayRun : Carries ports p db.toMemoryTables (decayRun ports config p db passes).toMemoryTables := by
  induction passes generalizing db with
  | nil => exact .refl
  | cons pass passes ih => exact carries_step.trans ih

theorem Kept.decayRun {x : String} (h : Kept ports config p t db.toMemoryTables x) (ht : ∀ pass ∈ passes, pass.1 ≤ t) :
    Kept ports config p t (decayRun ports config p db passes).toMemoryTables x := by
  induction passes generalizing db with
  | nil => exact h
  | cons pass passes ih =>
    obtain ⟨hpass, hrest⟩ := List.forall_mem_cons.1 ht
    exact ih (h.step hpass) hrest

theorem owns_step_iff (h : Settles ports config p pass.1 db.toMemoryTables) {x : String} :
    (db.step ports.toMemoryPorts config (decayCall p pass)).Owns p x ↔
      Kept ports config p pass.1 db.toMemoryTables x := by
  constructor
  · intro howns
    obtain ⟨row, hrow, rfl⟩ := mem_nodesOf_of_owns howns
    exact carries_step.kept ⟨row, hrow, rfl, fun hpos => floor_iff_settles.2 h hpos row hrow⟩
  · intro hkept
    obtain ⟨row, hrow, rfl, -⟩ := hkept.step le_rfl
    exact owns_of_mem hrow

/-- **Decay does not depend on how often it is run**, as far as the last pass settles what is below the floor, in the run
with the passes before it and in the run without. -/
theorem decay_schedule_iff (ports : ExactPorts K) (config : MemoryCognitionConfig K) (p : String) (db : MemoryDb K)
    (passes : List (K × (ℕ → Env K))) (T : K) (os os' : ℕ → Env K)
    (hsorted : ((passes ++ [(T, os)]).map Prod.fst).Pairwise (· ≤ ·)) :
    DecayedAlike ports config p T (decayRun ports config p db (passes ++ [(T, os)])).toMemoryTables
        (decayRun ports config p db [(T, os')]).toMemoryTables ↔
      Settles ports config p T db.toMemoryTables ∧
        Settles ports config p T (decayRun ports config p db passes).toMemoryTables := by
  have hbefore : ∀ pass ∈ passes, pass.1 ≤ T := by
    intro pass hpass
    rw [List.map_append, List.pairwise_append] at hsorted
    exact hsorted.2.2 pass.1 (List.mem_map_of_mem hpass) T (by simp)
  have hsplit : decayRun ports config p db (passes ++ [(T, os)]) =
      (decayRun ports config p db passes).step ports.toMemoryPorts config (decayCall p (T, os)) := by
    simp [decayRun]
  have honce : decayRun ports config p db [(T, os')] = db.step ports.toMemoryPorts config (decayCall p (T, os')) := rfl
  have hback : Carries ports p db.toMemoryTables (decayRun ports config p db (passes ++ [(T, os)])).toMemoryTables :=
    carries_decayRun
  rw [hsplit] at hback
  rw [hsplit, honce]
  constructor
  · exact fun h => ⟨floor_iff_settles.1 fun hpos => (h.floor hpos).2, floor_iff_settles.1 fun hpos => (h.floor hpos).1⟩
  · rintro ⟨hdirect, hlast⟩
    refine ⟨fun x => ?_, fun a ha b hb hid => ?_, fun hpos => ?_⟩
    · rw [owns_step_iff hlast, owns_step_iff hdirect]
      exact ⟨carries_decayRun.kept, fun hkept => hkept.decayRun hbefore⟩
    · obtain ⟨old, hold, hida, -, hworth⟩ := hback a ha
      obtain ⟨old', hold', hidb, -, hworth'⟩ := carries_step b hb
      obtain rfl : old = old' := List.inj_on_of_nodup_map nodesOf_nodup hold hold' (hida.trans (hid.trans hidb.symm))
      rw [hworth, hworth']
    · exact ⟨floor_iff_settles.2 hlast hpos, floor_iff_settles.2 hdirect hpos⟩

end

end

/-! ## One memory -/

/-- The exponential of the reals. -/
noncomputable def exactPorts : ExactPorts ℝ :=
  { realPorts with
    exp_add := Real.exp_add
    exp_pos := Real.exp_pos
    exp_le_one := fun _ => Real.exp_le_one_iff.2 }

/-- A memory that loses 1 part in 20000 of its salience in a unit of time. -/
noncomputable def fading (salience : ℝ) (hs : 0 ≤ salience ∧ salience ≤ 1) : MemoryDb ℝ where
  nodes := [⟨⟨"m", .episodic, "", 0, salience, 0, 0, 0, 1 / 20000, 0, none⟩, "p"⟩]
  edges := []
  slots := []
  sound := by constructor <;> simp [hs]

/-- Nothing of interest is left open. -/
noncomputable def anyOracle (_ : ℕ) : Env ℝ := ⟨0, "", 0⟩

theorem worth_fading {salience : ℝ} {hs : 0 ≤ salience ∧ salience ≤ 1} {row : MemoryRow ℝ} {t : ℝ}
    (h : row ∈ (fading salience hs).nodesOf "p") :
    row.salience = salience ∧ decayedAt exactPorts t row = salience * Real.exp (-(1 / 20000) * t) := by
  obtain rfl := List.mem_singleton.1 (List.mem_filter.1 h).1
  simp [decayedAt, exactPorts, realPorts]

/-- A memory that stays above the floor is worth the same, whether it is decayed in between or not. -/
theorem decay_schedule_iff_fading : DecayedAlike exactPorts DEFAULT_COGNITION_CONFIG "p" 2
    (decayRun exactPorts DEFAULT_COGNITION_CONFIG "p" (fading 1 ⟨zero_le_one, le_rfl⟩)
      ([(1, anyOracle)] ++ [(2, anyOracle)])).toMemoryTables
    (decayRun exactPorts DEFAULT_COGNITION_CONFIG "p" (fading 1 ⟨zero_le_one, le_rfl⟩)
      [(2, anyOracle)]).toMemoryTables := by
  have hhigh : ∀ row ∈ (fading 1 ⟨zero_le_one, le_rfl⟩).nodesOf "p", 1 / 100 ≤ decayedAt exactPorts 2 row := by
    intro row hrow
    rw [(worth_fading hrow).2]
    have hexp := Real.add_one_le_exp (-(1 / 20000) * 2 : ℝ)
    norm_num at hexp ⊢
    linarith
  refine (decay_schedule_iff exactPorts DEFAULT_COGNITION_CONFIG "p" _ [(1, anyOracle)] 2 anyOracle anyOracle
    (by norm_num)).2 ⟨fun _ row hrow hlow => absurd (hhigh row hrow) hlow.not_ge, fun _ row hrow hlow => ?_⟩
  obtain ⟨old, hold, -, -, hworth⟩ := carries_decayRun row hrow
  exact absurd (hhigh old hold) (by rw [← hworth]; exact hlow.not_ge)

/-- A memory at the floor is left below it, because it lost so little. -/
theorem below_floor_left : ¬ ∀ (config : MemoryCognitionConfig ℝ) (p : String) (db : MemoryDb ℝ)
    (passes : List (ℝ × (ℕ → Env ℝ))) (T : ℝ) (os os' : ℕ → Env ℝ),
      (∀ row ∈ db.nodesOf p, 0 ≤ row.decayLambda) → ((passes ++ [(T, os)]).map Prod.fst).Pairwise (· ≤ ·) →
        DecayedAlike exactPorts config p T (decayRun exactPorts config p db (passes ++ [(T, os)])).toMemoryTables
          (decayRun exactPorts config p db [(T, os')]).toMemoryTables := by
  intro h
  have hs : (0 : ℝ) ≤ 1 / 100 ∧ (1 / 100 : ℝ) ≤ 1 := by norm_num
  have halike := h DEFAULT_COGNITION_CONFIG "p" (fading (1 / 100) hs) [] 1 anyOracle anyOracle
    (fun row hrow => by
      obtain rfl := List.mem_singleton.1 (List.mem_filter.1 hrow).1
      norm_num)
    (by simp)
  have hsettles := floor_iff_settles.1 fun hpos => (halike.floor hpos).2
  have hmem : (⟨⟨"m", .episodic, "", 0, 1 / 100, 0, 0, 0, 1 / 20000, 0, none⟩, "p"⟩ : MemoryRow ℝ) ∈
      (fading (1 / 100) hs).nodesOf "p" := List.mem_filter.2 ⟨List.mem_singleton_self _, by simp⟩
  obtain ⟨hsalience, hworth⟩ := worth_fading (t := 1) hmem
  obtain ⟨⟨-, -, hdrop⟩, -⟩ := hsettles (by norm_num [DEFAULT_COGNITION_CONFIG]) _ hmem (by
    rw [hworth]
    norm_num [DEFAULT_COGNITION_CONFIG])
  have hexp := Real.add_one_le_exp (-(1 / 20000) * 1 : ℝ)
  rw [hworth] at hdrop
  norm_num at hdrop hexp
  linarith

end ChronoSynth.Memory

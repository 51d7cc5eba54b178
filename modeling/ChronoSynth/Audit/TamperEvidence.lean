import ChronoSynth.Audit.AuditLogStore

/-!
# What a verified chain says about the table

`ChainSound` is what a verification of a tenant's whole chain should stand for: the tenant's
numbered rows, all of them, are numbered from one on without a gap, linked by their hashes from the
genesis hash on, and each carries the hash of its own fields.

The verification says less. It leaves out the rows whose number is set and one of whose hashes is
null (`AuditLogRow.HalfNull`), so they go unnoticed among the others; and a half-null row in front
of the complete ones is asked for the hash the first of them should follow. `verified_sound_iff`
says that these are the only tables it is deceived by (`HidesHalfNull`).

Nothing is assumed about the hash function.
-/

namespace ChronoSynth

/-- The number is set and a hash is missing. -/
def AuditLogRow.HalfNull (r : AuditLogRow) : Prop :=
  r.chain_seq ≠ none ∧ (r.prev_hash = none ∨ r.record_hash = none)

instance (r : AuditLogRow) : Decidable r.HalfNull := inferInstanceAs (Decidable (_ ∧ _))

namespace AuditLog

/-- The rows of a tenant's chain that have both hashes, as the walk sees them. -/
def completeRows (d : Dialect) (log : AuditLog) (tenantId : String) : List VerifiableRow :=
  (log.chainRows tenantId).filterMap (AuditLogRow.verifiable d)

/-- **A sound chain**: what the numbered rows of a tenant, in order, are like when nobody has
tampered with them. -/
structure ChainSound (sha256 : String → String) (log : AuditLog) (tenantId : String) : Prop where
  /-- They are numbered from one on, without a gap. -/
  numbered : ∀ (i : ℕ) (r : AuditLogRow), (log.chainRows tenantId)[i]? = some r →
    r.chain_seq = some (i + 1 : ℤ)
  /-- The first follows the genesis hash. -/
  genesis : ∀ r, (log.chainRows tenantId)[0]? = some r → r.prev_hash = some GENESIS_HASH
  /-- Each later one follows its predecessor. -/
  linked : ∀ (i : ℕ) (r r' : AuditLogRow), (log.chainRows tenantId)[i]? = some r →
    (log.chainRows tenantId)[i + 1]? = some r' → r'.prev_hash = r.record_hash
  /-- Each carries the hash of its own fields. -/
  hashed : ∀ r ∈ log.chainRows tenantId, ∃ n prevHash,
    r.chain_seq = some n ∧ r.prev_hash = some prevHash ∧
      r.record_hash = some (computeRecordHash sha256 (r.hashInput n prevHash))

/-- **A table that deceives the verification**: a half-null row stands among the tenant's rows, and
the complete ones form an unbroken chain, from the beginning or from the hash that a half-null row
in front of them carries. -/
def HidesHalfNull (sha256 : String → String) (d : Dialect) (log : AuditLog) (tenantId : String) :
    Prop :=
  (∃ r ∈ log.chainRows tenantId, r.HalfNull) ∧
    ((auditChain sha256).Linked 1 GENESIS_HASH (log.completeRows d tenantId) ∨
      ∃ p ∈ log.chainRows tenantId, ∃ n h, p.HalfNull ∧ 1 ≤ n ∧ p.chain_seq = some n ∧
        p.record_hash = some h ∧
        (auditChain sha256).Linked (n + 1) h (log.completeRows d tenantId))

variable {sha256 : String → String} {d : Dialect} {log : AuditLog} {tenantId : String}

/-! ## Rows the walk sees -/

theorem exists_verifiable {r : AuditLogRow} (hr : r ∈ log.chainRows tenantId)
    (hn : ¬ r.HalfNull) : ∃ v, r.verifiable d = some v := by
  obtain ⟨n, hseq⟩ := Option.isSome_iff_exists.1 (mem_chainRows.1 hr).2.2
  have hnull : ¬ (r.prev_hash = none ∨ r.record_hash = none) :=
    fun h => hn ⟨by simp [hseq], h⟩
  obtain ⟨p, hp⟩ := Option.ne_none_iff_exists'.1 fun h => hnull (.inl h)
  obtain ⟨h, hh⟩ := Option.ne_none_iff_exists'.1 fun h => hnull (.inr h)
  exact ⟨⟨r.hashInput n p, n, p, h, rfl, rfl⟩,
    AuditLogRow.verifiable_eq_some.2 ⟨hseq, hp, hh, rfl⟩⟩

theorem mem_completeRows {v : VerifiableRow} :
    v ∈ log.completeRows d tenantId ↔
      ∃ r ∈ log.chainRows tenantId, r.verifiable d = some v := by
  simp [completeRows]

theorem getElem?_completeRows (hnull : ∀ r ∈ log.chainRows tenantId, ¬ r.HalfNull) (i : ℕ) :
    (log.completeRows d tenantId)[i]? =
      (log.chainRows tenantId)[i]?.bind (AuditLogRow.verifiable d) := by
  have hsome : ∀ r ∈ log.chainRows tenantId, ∃ v, r.verifiable d = some v :=
    fun r hr => exists_verifiable hr (hnull r hr)
  rw [completeRows]
  generalize log.chainRows tenantId = rs at hsome
  induction rs generalizing i with
  | nil => rfl
  | cons r rs ih =>
    obtain ⟨v, hv⟩ := hsome r (by simp)
    rw [List.filterMap_cons_some hv]
    cases i with
    | zero => simp [hv]
    | succ i => simpa using ih i fun r' hr' => hsome r' (by simp [hr'])

/-- The first row the walk sees has the smallest number among those it sees. -/
theorem head_completeRows_le {v w : VerifiableRow} {vs : List VerifiableRow}
    (hhead : log.completeRows d tenantId = v :: vs) (hw : w ∈ log.completeRows d tenantId) :
    v.chainSeq ≤ w.chainSeq := by
  have hpair : (log.completeRows d tenantId).Pairwise fun a b => a.chainSeq ≤ b.chainSeq := by
    refine List.pairwise_filterMap.2 (log.chainRows_pairwise.imp ?_)
    intro a b hab va hva vb hvb
    obtain ⟨ha, -⟩ := AuditLogRow.verifiable_eq_some.1 hva
    obtain ⟨hb, -⟩ := AuditLogRow.verifiable_eq_some.1 hvb
    simpa [AuditLogRow.seqLE, ha, hb] using hab
  rw [hhead] at hpair hw
  rcases List.mem_cons.1 hw with rfl | hvs
  · exact le_rfl
  · exact (List.pairwise_cons.1 hpair).1 w hvs

/-! ## Sound chains are linked chains -/

theorem chainSound_iff :
    ChainSound sha256 log tenantId ↔
      (∀ r ∈ log.chainRows tenantId, ¬ r.HalfNull) ∧
        (auditChain sha256).Linked 1 GENESIS_HASH (log.completeRows d tenantId) := by
  constructor
  · intro h
    have hnull : ∀ r ∈ log.chainRows tenantId, ¬ r.HalfNull := by
      rintro r hr ⟨-, hh⟩
      obtain ⟨n, p, -, hp, hrec⟩ := h.hashed r hr
      simp [hp, hrec] at hh
    refine ⟨hnull, HashChain.linked_iff_getElem.2 fun i v hv => ?_⟩
    have hget := getElem?_completeRows (d := d) hnull
    rw [hget, Option.bind_eq_some_iff] at hv
    obtain ⟨r, hr, hv⟩ := hv
    obtain ⟨hseq, hprev, hrec, hinput⟩ := AuditLogRow.verifiable_eq_some.1 hv
    refine ⟨?_, ?_, ?_⟩
    · have hi := h.numbered i r hr
      rw [hseq, Option.some.injEq] at hi
      rw [add_comm]
      exact hi
    · -- the row before it, if there is one, is seen by the walk as well
      cases i with
      | zero =>
        have hg := h.genesis r hr
        rw [hprev, Option.some.injEq] at hg
        exact hg
      | succ i =>
        have hlt := (List.getElem?_eq_some_iff.1 hr).1
        obtain ⟨r₀, hr₀⟩ : ∃ r₀, (log.chainRows tenantId)[i]? = some r₀ :=
          ⟨_, List.getElem?_eq_getElem (Nat.lt_of_succ_lt hlt)⟩
        obtain ⟨v₀, hv₀⟩ := exists_verifiable (d := d) (List.mem_of_getElem? hr₀)
          (hnull r₀ (List.mem_of_getElem? hr₀))
        have hl := h.linked i r₀ r hr₀ hr
        rw [hprev, (AuditLogRow.verifiable_eq_some.1 hv₀).2.2.1, Option.some.injEq] at hl
        rw [HashChain.tip_take_succ (r := v₀) (by rw [hget, hr₀]; exact hv₀)]
        exact hl
    · obtain ⟨n, p, hn, hp, hd⟩ := h.hashed r (List.mem_of_getElem? hr)
      rw [hseq, Option.some.injEq] at hn
      rw [hprev, Option.some.injEq] at hp
      rw [hrec, Option.some.injEq, ← hn, ← hp, ← hinput] at hd
      exact hd
  · rintro ⟨hnull, hl⟩
    have hget := getElem?_completeRows (d := d) hnull
    have hpos := HashChain.linked_iff_getElem.1 hl
    -- each numbered row is seen, and what the chain says of it is what is claimed
    have hrow : ∀ (i : ℕ) (r : AuditLogRow), (log.chainRows tenantId)[i]? = some r →
        ∃ v, r.verifiable d = some v ∧ (log.completeRows d tenantId)[i]? = some v := by
      intro i r hr
      obtain ⟨v, hv⟩ := exists_verifiable (d := d) (List.mem_of_getElem? hr)
        (hnull r (List.mem_of_getElem? hr))
      exact ⟨v, hv, by rw [hget, hr]; exact hv⟩
    refine ⟨?_, ?_, ?_, ?_⟩
    · intro i r hr
      obtain ⟨v, hv, hvi⟩ := hrow i r hr
      rw [(AuditLogRow.verifiable_eq_some.1 hv).1, Option.some.injEq, add_comm]
      exact (hpos i v hvi).1
    · intro r hr
      obtain ⟨v, hv, hvi⟩ := hrow 0 r hr
      rw [(AuditLogRow.verifiable_eq_some.1 hv).2.1, Option.some.injEq]
      exact (hpos 0 v hvi).2.1
    · intro i r r' hr hr'
      obtain ⟨v, hv, hvi⟩ := hrow i r hr
      obtain ⟨v', hv', hvi'⟩ := hrow (i + 1) r' hr'
      rw [(AuditLogRow.verifiable_eq_some.1 hv).2.2.1,
        (AuditLogRow.verifiable_eq_some.1 hv').2.1, Option.some.injEq]
      have hp := (hpos (i + 1) v' hvi').2.1
      rw [HashChain.tip_take_succ hvi] at hp
      exact hp
    · intro r hr
      obtain ⟨i, hi⟩ := List.mem_iff_getElem?.1 hr
      obtain ⟨v, hv, hvi⟩ := hrow i r hi
      obtain ⟨hseq, hprev, hrec, hinput⟩ := AuditLogRow.verifiable_eq_some.1 hv
      refine ⟨v.chainSeq, v.prevHash, hseq, hprev, ?_⟩
      rw [hrec, Option.some.injEq, ← hinput]
      exact (hpos i v hvi).2.2

/-! ## What the verification of the whole chain accepts -/

theorem verifyAuditChain_whole :
    verifyAuditChain sha256 d log tenantId {} =
      verifyChain sha256 (log.completeRows d tenantId)
        (verifyStart log tenantId {} (log.completeRows d tenantId)) := rfl

theorem predecessor_halfNull {v : VerifiableRow} {vs : List VerifiableRow} {p : AuditLogRow}
    (hhead : log.completeRows d tenantId = v :: vs) (hp : p ∈ log.chainRows tenantId)
    (hseq : p.chain_seq = some (v.chainSeq - 1)) : p.HalfNull := by
  by_contra hn
  obtain ⟨w, hw⟩ := exists_verifiable (d := d) hp hn
  have hle := head_completeRows_le hhead (mem_completeRows.2 ⟨p, hp, hw⟩)
  rw [(AuditLogRow.verifiable_eq_some.1 hw).1, Option.some.injEq] at hseq
  omega

/-- **The verification of a whole chain, exactly**: it accepts when the rows it sees are linked from
the beginning, or from the hash a half-null row in front of them carries. -/
theorem verifyAuditChain_ok_iff :
    (verifyAuditChain sha256 d log tenantId {}).ok = true ↔
      (auditChain sha256).Linked 1 GENESIS_HASH (log.completeRows d tenantId) ∨
        ∃ p ∈ log.chainRows tenantId, ∃ n h, p.HalfNull ∧ 1 ≤ n ∧ p.chain_seq = some n ∧
          p.record_hash = some h ∧
          (auditChain sha256).Linked (n + 1) h (log.completeRows d tenantId) := by
  rw [verifyAuditChain_whole, verifyChain_ok_iff]
  rcases hrows : log.completeRows d tenantId with _ | ⟨v, vs⟩
  · simp
  by_cases hv : v.chainSeq > 1
  · -- the chain does not start at one, so only a seed in front of it can save it
    have hno : ¬ (auditChain sha256).Linked 1 GENESIS_HASH (v :: vs) := fun h => by
      have : v.chainSeq = 1 := h.1
      omega
    simp only [hno, false_or]
    set q := auditQueryChainRange log
      ⟨tenantId, some (v.chainSeq - 1), some (v.chainSeq - 1), some 1⟩ with hq
    constructor
    · intro hl
      rcases hqs : q with _ | ⟨p, _ | ⟨p', q'⟩⟩
      · simp only [verifyStart, hv, if_true, ← hq, hqs, Option.isSome_none, Bool.false_eq_true,
          if_false] at hl
        exact absurd hl hno
      · rw [hq] at hqs
        obtain ⟨hp, ht, hs⟩ := auditQueryChainRange_single.1 hqs
        rcases hrec : p.record_hash with _ | h
        · simp only [verifyStart, hv, if_true, hqs, hrec, Option.isSome_none, Bool.false_eq_true,
            if_false] at hl
          exact absurd hl hno
        · simp only [verifyStart, hv, if_true, hqs, hrec, Option.getD_some] at hl
          have hmem : p ∈ log.chainRows tenantId := mem_chainRows.2 ⟨hp, ht, by simp [hs]⟩
          refine ⟨p, hmem, v.chainSeq - 1, h, predecessor_halfNull hrows hmem hs, by omega, hs,
            hrec, ?_⟩
          rwa [sub_add_cancel]
      · simp only [verifyStart, hv, if_true, ← hq, hqs, Option.isSome_none, Bool.false_eq_true,
          if_false] at hl
        exact absurd hl hno
    · rintro ⟨p, hp, n, h, -, hn, hs, hrec, hl⟩
      have hvn : v.chainSeq = n + 1 := hl.1
      have hqs : q = [p] := by
        obtain ⟨hpr, ht, -⟩ := mem_chainRows.1 hp
        exact auditQueryChainRange_single.2 ⟨hpr, ht, by rw [hs, hvn]; simp⟩
      rw [hq] at hqs
      simp only [verifyStart, hv, if_true, hqs, hrec, Option.getD_some]
      rwa [hvn]
  · simp only [verifyStart, hv, if_false, Option.getD_none]
    refine ⟨.inl, ?_⟩
    rintro (hl | ⟨p, -, n, h, -, hn, -, -, hl⟩)
    · exact hl
    · have : v.chainSeq = n + 1 := hl.1
      omega

/-- **Tamper evidence, exactly.** For every content of the table, an accepted verification of a
tenant's whole chain means that the chain is sound, if and only if the table does not hide a
half-null row. -/
theorem verified_sound_iff (sha256 : String → String) (d : Dialect) (log : AuditLog)
    (tenantId : String) :
    ((verifyAuditChain sha256 d log tenantId {}).ok = true → ChainSound sha256 log tenantId) ↔
      ¬ HidesHalfNull sha256 d log tenantId := by
  rw [verifyAuditChain_ok_iff, chainSound_iff (d := d)]
  constructor
  · rintro h ⟨⟨r, hr, hn⟩, hok⟩
    exact (h hok).1 r hr hn
  · intro h hok
    have hnull : ∀ r ∈ log.chainRows tenantId, ¬ r.HalfNull :=
      fun r hr hn => h ⟨⟨r, hr, hn⟩, hok⟩
    refine ⟨hnull, ?_⟩
    rcases hok with hl | ⟨p, hp, n, hash, hn, -⟩
    · exact hl
    · exact absurd hn (hnull p hp)

/-! ## A half-null row goes unnoticed -/

/-- A business record whose hashes have been set to null. -/
def nulledRow : AuditLogRow where
  id := "a"
  tenant_id := "t"
  event_kind := "business"
  timestamp := 0
  created_at := 0
  method := "EVENT"
  path := "/audit/business/x"
  request_id := "audit:a"
  status_code := 200
  latency_ms := (0 : ℤ)
  api_key_hash := none
  user_id := none
  user_email := none
  actor_type := some "system"
  actor_id := some "s"
  action_type := some "x"
  target_type := some "y"
  target_id := some "z"
  payload_json := none
  chain_seq := some 1
  prev_hash := none
  record_hash := none

/-- The table that holds this row alone. -/
def nulledLog : AuditLog := ⟨[nulledRow], by simp, List.pairwise_singleton _ _⟩

/-- A tenant's only record with both hashes nulled: the verification accepts, the chain is not
sound, however good the hash function. -/
theorem verified_unsound_nulled :
    ¬ ∀ (sha256 : String → String), Function.Injective sha256 →
      ∀ (d : Dialect) (log : AuditLog) (tenantId : String),
        (verifyAuditChain sha256 d log tenantId {}).ok = true →
          ChainSound sha256 log tenantId := by
  intro h
  have hrows : nulledLog.chainRows "t" = [nulledRow] := by decide
  have hsound := h id Function.injective_id .sqlite nulledLog "t" (by
    refine verifyAuditChain_ok_iff.2 (.inl ?_)
    rw [completeRows, hrows, List.filterMap_cons_none rfl]
    exact HashChain.linked_nil)
  have hg := hsound.genesis nulledRow (by rw [hrows]; rfl)
  simp [nulledRow] at hg

end AuditLog

end ChronoSynth

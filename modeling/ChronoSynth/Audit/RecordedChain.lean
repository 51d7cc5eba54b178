import ChronoSynth.Audit.AppendVerify
import ChronoSynth.Audit.TamperEvidence

/-!
# What the appends leave behind

The rows of a tenant, in the order they were appended, are an honest chain followed by records that
were numbered by concatenation (`AuditLog.Recorded`). On SQLite there are none of the latter; on
PostgreSQL every record but a tenant's first is one, numbered 11 or higher and hashed with its number
as text. Whichever engine, no row lacks a hash (`AuditLogRow.Intact`).

`AuditLog.Recorded.auditStep` is the step; nothing is assumed about the ids the calls draw, since a
call that draws one twice fails.
-/

namespace ChronoSynth

/-- A row as an append writes it: both hashes set, and stamped with the time of its creation. -/
def AuditLogRow.Intact (r : AuditLogRow) : Prop := ¬ r.HalfNull ∧ r.timestamp = r.created_at

instance (r : AuditLogRow) : Decidable r.Intact := inferInstanceAs (Decidable (_ ∧ _))

/-- The hash was taken with the number as text. -/
def AuditLogRow.TextHashed (sha256 : String → String) (r : AuditLogRow) : Prop :=
  ∃ input s, input.chainSeq = SqlInt.text s ∧ r.record_hash = some (computeRecordHash sha256 input)

/-- What a tenant's rows are like: `pre` an honest chain, `post` numbered by concatenation. -/
structure AuditLog.Recorded (sha256 : String → String) (d : Dialect) (log : AuditLog)
    (tenantId : String) (pre post : List AuditLogRow) : Prop where
  appended : log.appended tenantId = pre ++ post
  isSome : ∀ r ∈ pre ++ post, r.chain_seq.isSome
  linked : (rowChain sha256).Linked 1 (some GENESIS_HASH) pre
  /-- What was concatenated is at least `11`. -/
  jumped : ∀ r ∈ post, 11 ≤ r.chain_seq.getD 0 ∧ r.TextHashed sha256
  sqlite : d = .sqlite → post = []
  postgres : d = .postgres → pre.length ≤ 1
  started : pre = [] → post = []
  intact : ∀ r ∈ pre ++ post, r.Intact

section

variable {sha256 : String → String} {d : Dialect} {log log' : AuditLog} {c : AuditCall}
  {tenantId : String} {pre post : List AuditLogRow} {r : AuditLogRow}

theorem SqlInt.number_concat (n : ℕ) :
    (SqlInt.text (toString (n : ℤ) ++ "1")).number = 10 * n + 1 := by
  have hlist : (toString (n : ℤ) ++ "1").toList = Nat.toDigits 10 n ++ ['1'] := by
    rw [String.toList_append]
    congr 1
    change (Nat.repr n).toList = _
    exact Nat.toList_repr
  rw [SqlInt.number, hlist, SqlInt.textValue.eq_2]
  · rw [Nat.ofDigitChars_append, Nat.ofDigitChars_ten_toDigits, Nat.ofDigitChars_cons,
      Nat.ofDigitChars_nil]
    norm_num
    decide
  · -- no digit is a minus sign
    intro cs hcs
    cases hd : Nat.toDigits 10 n with
    | nil => exact Nat.toDigits_ne_nil hd
    | cons c ds =>
      rw [hd, List.cons_append] at hcs
      obtain ⟨rfl, -⟩ := List.cons_eq_cons.1 hcs
      have hdigit : Char.isDigit '-' = true :=
        Nat.isDigit_of_mem_toDigits (by decide : 0 < 10) (by decide) (n := n) (by rw [hd]; simp)
      exact absurd hdigit (by decide)

theorem not_halfNull_of_linked {k : ℤ} {h : String} {rs : List AuditLogRow}
    (hl : (rowChain sha256).Linked k (some h) rs) (hr : r ∈ rs) : ¬ r.HalfNull := by
  obtain ⟨hash, hhash⟩ := exists_record_hash hl hr
  obtain ⟨i, hi⟩ := List.mem_iff_getElem?.1 hr
  obtain ⟨-, -, hdigest⟩ := HashChain.linked_iff_getElem.1 hl i r hi
  simp only [rowChain, hhash] at hdigest
  obtain ⟨p, hp, -⟩ := Option.map_eq_some_iff.1 hdigest.symm
  rintro ⟨-, hnull | hnull⟩
  · rw [hp] at hnull
    cases hnull
  · rw [hhash] at hnull
    cases hnull

@[simp] theorem AuditCall.row_timestamp {tail : ChainTail} {n : ℤ} :
    (c.row sha256 tail n).timestamp = (c.row sha256 tail n).created_at := by
  cases c <;> rfl

theorem AuditCall.row_textHashed {tail : ChainTail} {n : ℤ} {s : String}
    (hs : tail.seq.plusOne = .text s) : (c.row sha256 tail n).TextHashed sha256 := by
  cases c with
  | request id now input => exact ⟨_, s, hs, rfl⟩
  | business id now input => exact ⟨_, s, hs, rfl⟩

theorem AuditLog.Recorded.honest (h : log.Recorded sha256 d tenantId pre post)
    (hpost : post = []) : log.Honest sha256 tenantId := by
  have happ := h.appended
  rw [hpost, List.append_nil] at happ
  refine ⟨fun r hr => h.isSome r ?_, ?_⟩
  · rw [← h.appended]
    exact hr
  · rw [happ]
    exact h.linked

theorem AuditLog.Recorded.one_le (h : log.Recorded sha256 d tenantId pre post)
    (hr : r ∈ pre ++ post) : 1 ≤ r.chain_seq.getD 0 := by
  rcases List.mem_append.1 hr with hr | hr
  · exact h.linked.le_seq hr
  · have := (h.jumped r hr).1
    omega

theorem AuditLog.Recorded.mem_chainRows (h : log.Recorded sha256 d tenantId pre post) :
    r ∈ log.chainRows tenantId ↔ r ∈ pre ++ post := by
  rw [AuditLog.mem_chainRows, ← h.appended, AuditLog.appended, List.mem_filter,
    decide_eq_true_eq]
  constructor
  · rintro ⟨hr, ht, -⟩
    exact ⟨hr, ht⟩
  · rintro ⟨hr, ht⟩
    refine ⟨hr, ht, h.isSome r ?_⟩
    rw [← h.appended]
    exact List.mem_filter.2 ⟨hr, by simpa using ht⟩

theorem AuditLog.Recorded.readChainTail (h : log.Recorded sha256 .postgres tenantId pre post)
    (hne : pre ≠ []) :
    ∃ n : ℕ, 1 ≤ n ∧ ∃ hash, ChronoSynth.readChainTail .postgres log tenantId =
      ⟨.text (toString (n : ℤ)), some hash⟩ := by
  obtain ⟨p, hp⟩ := List.exists_mem_of_ne_nil pre hne
  have hmem : p ∈ log.chainRows tenantId := h.mem_chainRows.2 (List.mem_append_left _ hp)
  rcases htail : auditQueryChainTail log tenantId with _ | r
  · rw [auditQueryChainTail, List.getLast?_eq_none_iff] at htail
    rw [htail] at hmem
    cases hmem
  · have hr := h.mem_chainRows.1 (List.mem_of_getLast? htail)
    obtain ⟨n, hn⟩ := Int.eq_ofNat_of_zero_le (le_trans zero_le_one (h.one_le hr))
    have hone := h.one_le hr
    obtain ⟨hash, hhash⟩ := Option.ne_none_iff_exists'.1 fun hnull =>
      (h.intact r hr).1 ⟨Option.isSome_iff_ne_none.1 (h.isSome r hr), .inr hnull⟩
    refine ⟨n, by omega, hash, ?_⟩
    rw [ChronoSynth.readChainTail, htail]
    simp only [hn, hhash]
    rfl

theorem AuditLog.Recorded.congr (h : log.Recorded sha256 d tenantId pre post)
    (happ : log'.appended tenantId = log.appended tenantId) :
    log'.Recorded sha256 d tenantId pre post :=
  { h with appended := happ.trans h.appended }

/-- **An append keeps the rows of every tenant recorded.** -/
theorem AuditLog.Recorded.auditStep (h : log.Recorded sha256 d tenantId pre post)
    (c : AuditCall) :
    ∃ pre' post', (auditStep sha256 d log c).Recorded sha256 d tenantId pre' post' := by
  rcases happly : c.apply sha256 d log with _ | log'
  · refine ⟨pre, post, ?_⟩
    rw [ChronoSynth.auditStep, happly, Option.getD_none]
    exact h
  have hstep : ChronoSynth.auditStep sha256 d log c = log' := by
    rw [ChronoSynth.auditStep, happly, Option.getD_some]
  rw [hstep]
  have hins := happly
  rw [AuditCall.apply_eq, Option.bind_eq_some_iff] at hins
  obtain ⟨n, hcol, hins⟩ := hins
  have happ := AuditLog.appended_insert hins tenantId
  rw [AuditCall.row_tenant_id] at happ
  by_cases ht : c.tenantId = tenantId
  swap
  · rw [if_neg ht, List.append_nil] at happ
    exact ⟨pre, post, h.congr happ⟩
  subst ht
  set row := c.row sha256 (ChronoSynth.readChainTail d log c.tenantId) n with hrow
  rw [if_pos rfl, h.appended] at happ
  by_cases hnum : d = .sqlite ∨ pre = []
  · -- the number is a number: the honest chain grows
    have hpost : post = [] := hnum.elim h.sqlite h.started
    subst hpost
    rw [List.append_nil] at happ
    have hid : c.id ∉ log.rows.map AuditLogRow.id := by
      have := (AuditLog.insert_eq_some.1 hins).1.1
      rwa [AuditCall.row_id] at this
    have hnil : d = .sqlite ∨ log.appended c.tenantId = [] :=
      hnum.imp_right fun hp => by rw [h.appended, hp, List.append_nil]
    obtain ⟨log'', r, happly', -, -, -, -, hhonest⟩ := (h.honest rfl).apply hnil hid
    obtain rfl : log' = log'' := Option.some.inj (happly.symm.trans happly')
    have hlinked := hhonest.linked
    rw [happ] at hlinked
    refine ⟨pre ++ [row], [], ?_, ?_, hlinked, ?_, ?_, ?_, ?_, ?_⟩
    · rw [happ, List.append_nil]
    · intro r hr
      rw [List.append_nil, ← happ] at hr
      exact hhonest.isSome r hr
    · simp
    · exact fun _ => rfl
    · intro hd
      rcases hnum with hs | hp
      · rw [hs] at hd
        cases hd
      · simp [hp]
    · exact fun _ => rfl
    · intro r hr
      rw [List.append_nil] at hr
      refine ⟨not_halfNull_of_linked hlinked hr, ?_⟩
      rcases List.mem_append.1 hr with hr | hr
      · exact (h.intact r (List.mem_append_left _ hr)).2
      · rw [List.mem_singleton.1 hr]
        exact AuditCall.row_timestamp
  · -- the number is concatenated
    obtain ⟨hd, hne⟩ := not_or.1 hnum
    obtain rfl : d = .postgres := by
      cases d with
      | sqlite => exact absurd rfl hd
      | postgres => rfl
    obtain ⟨m, hm, hash, htail⟩ := h.readChainTail hne
    have hplus : (ChronoSynth.readChainTail .postgres log c.tenantId).seq.plusOne =
        .text (toString (m : ℤ) ++ "1") := by
      rw [htail]
      rfl
    have hn : n = 10 * m + 1 := by
      rw [hplus, SqlInt.column] at hcol
      simp only [SqlInt.number_concat] at hcol
      split_ifs at hcol
      exact (Option.some.inj hcol).symm
    have hmem : ∀ r, r ∈ pre ++ (post ++ [row]) → r ∈ pre ++ post ∨ r = row := by
      intro r hr
      rw [← List.append_assoc, List.mem_append, List.mem_singleton] at hr
      exact hr
    refine ⟨pre, post ++ [row], by rw [happ, List.append_assoc], ?_, h.linked, ?_, ?_,
      h.postgres, fun hp => absurd hp hne, ?_⟩
    · intro r hr
      rcases hmem r hr with hr | rfl
      · exact h.isSome r hr
      · rw [hrow, AuditCall.row_chain_seq]
        rfl
    · intro r hr
      rcases List.mem_append.1 hr with hr | hr
      · exact h.jumped r hr
      · rw [List.mem_singleton.1 hr, hrow, AuditCall.row_chain_seq, Option.getD_some]
        exact ⟨by omega, AuditCall.row_textHashed hplus⟩
    · intro hd
      cases hd
    · intro r hr
      rcases hmem r hr with hr | rfl
      · exact h.intact r hr
      · obtain ⟨input, s, -, hrec⟩ : row.TextHashed sha256 := AuditCall.row_textHashed hplus
        refine ⟨?_, AuditCall.row_timestamp⟩
        rintro ⟨-, hnull | hnull⟩
        · rw [hrow, AuditCall.row_prev_hash, htail] at hnull
          cases hnull
        · rw [hrec] at hnull
          cases hnull

theorem AuditLog.Recorded.empty : AuditLog.empty.Recorded sha256 d tenantId [] [] where
  appended := rfl
  isSome := by simp
  linked := HashChain.linked_nil
  jumped := by simp
  sqlite _ := rfl
  postgres _ := Nat.zero_le _
  started _ := rfl
  intact := by simp

end

end ChronoSynth

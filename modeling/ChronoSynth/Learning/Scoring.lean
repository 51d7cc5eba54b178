import Mathlib.Logic.Relation
import Mathlib.Tactic.Linarith
import ChronoSynth.Learning.Exam

/-!
# What an answer earns

A key point is earned by its own rule. A structured field is credited by its key, so that a field is credited for another
one with the same key; and its key and value are looked for anywhere in the answer, also within longer words. `score_iff`
says for which exams and answers this makes a difference. What else is asked of a score holds throughout: it does not depend
on the order of the items (`scoreExam_perm`), on the case of the letters A to Z or on white space
(`scoreExam_reworded`).

* `RegexJs` — what is used of `RegExp` for the pattern of a structured field: it finds the key, the separator and the value
  one after the other, up to the case that the flag `i` disregards.
-/

namespace ChronoSynth.Learning

open Text (isBlank trim collapse endsBlank)

/-! ## Structured fields -/

/-- White space, perhaps a quotation mark, and white space. -/
def skipQuote (s : Text) : Text :=
  match s.dropWhile isBlank with
  | [] => []
  | c :: t => if c = 0x22 ∨ c = 0x27 then t.dropWhile isBlank else c :: t

/-- A colon or an equals sign, with a quotation mark and white space on either side perhaps. -/
def isFieldSeparator (sep : Text) : Bool :=
  match skipQuote sep with
  | [] => false
  | c :: rest => (c = 0x3A ∨ c = 0x3D) ∧ skipQuote rest = []

/-- The key stands at this place, and the value after a separator of this length. -/
def FieldAt (canonical : ℕ → ℕ) (k v s : Text) (i n : ℕ) : Prop :=
  ((s.drop i).take k.length).map canonical = k.map canonical ∧
    isFieldSeparator ((s.drop (i + k.length)).take n) = true ∧
    ((s.drop (i + k.length + n)).take v.length).map canonical = v.map canonical

instance {canonical : ℕ → ℕ} {k v s : Text} {i n : ℕ} : Decidable (FieldAt canonical k v s i n) :=
  inferInstanceAs (Decidable (_ ∧ _))

def isAlphanumeric (c : ℕ) : Bool := (0x30 ≤ c ∧ c ≤ 0x39) ∨ (0x41 ≤ c ∧ c ≤ 0x5A) ∨ (0x61 ≤ c ∧ c ≤ 0x7A)

/-- The characters before and at this place are of one run of letters and digits. -/
def inRun (s : Text) (i : ℕ) : Bool :=
  i ≠ 0 ∧ (s[i - 1]?.any isAlphanumeric) ∧ (s[i]?.any isAlphanumeric)

/-- Neither the key nor the value is part of a longer run. -/
def WholeAt (canonical : ℕ → ℕ) (k v s : Text) (i n : ℕ) : Prop :=
  FieldAt canonical k v s i n ∧ ¬ inRun s i ∧ ¬ inRun s (i + k.length + n + v.length)

instance {canonical : ℕ → ℕ} {k v s : Text} {i n : ℕ} : Decidable (WholeAt canonical k v s i n) :=
  inferInstanceAs (Decidable (_ ∧ _))

def fieldPattern (k v : Text) : Text := escapeRegex k ++ units "\\s*[\"']?\\s*[:=]\\s*[\"']?\\s*" ++ escapeRegex v

structure RegexJs extends Js where
  /-- What the flag `i` compares of a code unit. -/
  canonical : ℕ → ℕ
  field_test : ∀ k v s, regexTest (fieldPattern k v) s = some true ↔
    ∃ i ≤ s.length, ∃ n ≤ s.length, FieldAt canonical k v s i n
  /-- The case of one of the letters A to Z makes no difference. -/
  lower_letter : ∀ s c t, 0x41 ≤ c → c ≤ 0x5A → casing.lower (s ++ (c + 0x20) :: t) = casing.lower (s ++ c :: t)

variable {js : RegexJs} {spec : ExamSpec} {answer : Text} {f : ExamStructuredField}

/-- The key of the field, a separator and its expected value stand in the answer. -/
def Occurs (js : RegexJs) (answer : Text) (f : ExamStructuredField) : Prop :=
  let s := normalizeAnswer js.toJs answer
  ∃ i ≤ s.length, ∃ n ≤ s.length,
    FieldAt js.canonical (normalizeAnswer js.toJs f.key) (normalizeAnswer js.toJs f.expected) s i n

/-- **The rule of a field**: they stand there as whole runs. -/
def Holds (js : RegexJs) (answer : Text) (f : ExamStructuredField) : Prop :=
  let s := normalizeAnswer js.toJs answer
  ∃ i ≤ s.length, ∃ n ≤ s.length,
    WholeAt js.canonical (normalizeAnswer js.toJs f.key) (normalizeAnswer js.toJs f.expected) s i n

instance : DecidablePred (Occurs js answer) := fun _ => inferInstanceAs (Decidable (∃ i ≤ _, ∃ n ≤ _, _))

instance : DecidablePred (Holds js answer) := fun _ => inferInstanceAs (Decidable (∃ i ≤ _, ∃ n ≤ _, _))

theorem Holds.occurs (h : Holds js answer f) : Occurs js answer f := by
  obtain ⟨i, hi, n, hn, hwhole⟩ := h
  exact ⟨i, hi, n, hn, hwhole.1⟩

/-! ## Weights -/

def totalWeight (spec : ExamSpec) : ℚ := (spec.keypoints.map (·.weight)).sum + (spec.structuredFields.map (·.weight)).sum

/-- The weight of the items whose own rule holds. -/
def earned (js : RegexJs) (spec : ExamSpec) (answer : Text) : ℚ :=
  ((spec.keypoints.filter (keypointHit js.toJs (normalizeAnswer js.toJs answer))).map (·.weight)).sum +
    ((spec.structuredFields.filter fun f => Holds js answer f).map (·.weight)).sum

/-- The rule of the field does not hold, but a field with its key occurs in the answer. -/
def Unearned (js : RegexJs) (spec : ExamSpec) (answer : Text) (f : ExamStructuredField) : Prop :=
  ¬ Holds js answer f ∧ ∃ g ∈ spec.structuredFields, g.key = f.key ∧ Occurs js answer g

instance : DecidablePred (Unearned js spec answer) := fun _ => inferInstanceAs (Decidable (_ ∧ _))

def unearned (js : RegexJs) (spec : ExamSpec) (answer : Text) : ℚ :=
  ((spec.structuredFields.filter fun f => Unearned js spec answer f).map (·.weight)).sum

/-- Some forbidden claim is made. -/
def Forbidden (js : RegexJs) (spec : ExamSpec) (answer : Text) : Prop :=
  ∃ fc ∈ spec.forbiddenClaims, forbiddenHit js.toJs (normalizeAnswer js.toJs answer) fc = true

/-- What the lint makes sure of. -/
structure Weighed (spec : ExamSpec) : Prop where
  items : spec.keypoints ≠ [] ∨ spec.structuredFields ≠ []
  keypoint : ∀ kp ∈ spec.keypoints, 0 < kp.weight
  field : ∀ f ∈ spec.structuredFields, 0 < f.weight ∧ f.key.trim ≠ [] ∧ f.expected.trim ≠ []

theorem weighed_of_lint {js : Js} (h : lintExamSpec js spec = []) : Weighed spec := by
  simp only [lintExamSpec, List.append_eq_nil_iff, List.flatMap_eq_nil_iff, violationIf_eq_nil] at h
  obtain ⟨⟨⟨⟨⟨⟨hitems, hpoints⟩, hfields⟩, -⟩, -⟩, -⟩, -⟩ := h
  refine ⟨not_and_or.1 hitems, fun kp hkp => ?_, fun f hf => ?_⟩
  · have hlint := hpoints kp hkp
    simp only [lintKeypoint, List.append_eq_nil_iff, violationIf_eq_nil, not_not] at hlint
    exact hlint.1.1.1.1
  · have hlint := hfields f hf
    simp only [lintStructuredField, List.append_eq_nil_iff, violationIf_eq_nil, not_not, not_or, Nat.not_lt] at hlint
    obtain ⟨⟨hweight, hkey, hexpected⟩, -⟩ := hlint
    exact ⟨hweight, List.length_pos_iff.1 hkey, List.length_pos_iff.1 hexpected⟩

theorem sum_pos_of_weights {α : Type*} {l : List α} {weight : α → ℚ} (h : ∀ a ∈ l, 0 < weight a) (hne : l ≠ []) :
    0 < (l.map weight).sum := by
  induction l with
  | nil => exact absurd rfl hne
  | cons a l ih =>
    obtain ⟨ha, hl⟩ := List.forall_mem_cons.1 h
    rw [List.map_cons, List.sum_cons]
    cases l with
    | nil => simpa using ha
    | cons b l =>
      have hrest := ih hl (List.cons_ne_nil _ _)
      linarith

theorem sum_nonneg_of_weights {α : Type*} {l : List α} {weight : α → ℚ} (h : ∀ a ∈ l, 0 < weight a) :
    0 ≤ (l.map weight).sum := by
  by_cases hne : l = []
  · simp [hne]
  · exact (sum_pos_of_weights h hne).le

theorem Weighed.totalWeight_pos (h : Weighed spec) : 0 < totalWeight spec := by
  have hpoints := sum_nonneg_of_weights h.keypoint
  have hfields := sum_nonneg_of_weights fun f hf => (h.field f hf).1
  rcases h.items with hne | hne
  · have hpos := sum_pos_of_weights h.keypoint hne
    unfold totalWeight
    linarith
  · have hpos := sum_pos_of_weights (fun f hf => (h.field f hf).1) hne
    unfold totalWeight
    linarith

theorem Weighed.unearned_nonneg (h : Weighed spec) : 0 ≤ unearned js spec answer :=
  sum_nonneg_of_weights fun f hf => (h.field f (List.mem_of_mem_filter hf)).1

/-- What one of two exclusive conditions selects weighs what they select apart. -/
theorem sum_filter_or {α : Type*} {l : List α} {weight : α → ℚ} {p q r : α → Bool}
    (h : ∀ a ∈ l, r a = (p a || q a) ∧ ¬ (p a = true ∧ q a = true)) :
    ((l.filter r).map weight).sum = ((l.filter p).map weight).sum + ((l.filter q).map weight).sum := by
  induction l with
  | nil => simp
  | cons a l ih =>
    obtain ⟨⟨hr, hpq⟩, hl⟩ := List.forall_mem_cons.1 h
    rw [List.filter_cons, List.filter_cons, List.filter_cons, hr]
    cases hp : p a <;> cases hq : q a
    · simpa using ih hl
    · simp only [Bool.false_or, if_true, Bool.false_eq_true, if_false, List.map_cons, List.sum_cons, ih hl]
      exact add_left_comm _ _ _
    · simp only [Bool.true_or, if_true, Bool.false_eq_true, if_false, List.map_cons, List.sum_cons, ih hl]
      exact (add_assoc _ _ _).symm
    · exact absurd ⟨hp, hq⟩ hpq

/-! ## Passing -/

theorem structuredFieldHit_iff (hkey : f.key.trim ≠ []) (hexpected : f.expected.trim ≠ []) :
    structuredFieldHit js.toJs (normalizeAnswer js.toJs answer) f.key f.expected = true ↔ Occurs js answer f := by
  have hk : normalizeAnswer js.toJs f.key ≠ [] := js.casing.folded_ne_nil hkey
  have hv : normalizeAnswer js.toJs f.expected ≠ [] := js.casing.folded_ne_nil hexpected
  rw [structuredFieldHit, decide_eq_true_iff]
  exact (and_iff_right hk).trans ((and_iff_right hv).trans (js.field_test _ _ _))

theorem Weighed.mem_structuredHits_iff (h : Weighed spec) (hf : f ∈ spec.structuredFields) :
    f.key ∈ (scoreExam js.toJs spec answer).structuredHits ↔ Holds js answer f ∨ Unearned js spec answer f := by
  have hhits : f.key ∈ (scoreExam js.toJs spec answer).structuredHits ↔
      ∃ g ∈ spec.structuredFields, g.key = f.key ∧ Occurs js answer g := by
    rw [scoreExam, List.mem_map]
    refine exists_congr fun g => ?_
    rw [List.mem_filter]
    constructor
    · rintro ⟨⟨hg, hhit⟩, hkey⟩
      obtain ⟨-, hk, hv⟩ := h.field g hg
      exact ⟨hg, hkey, (structuredFieldHit_iff hk hv).1 hhit⟩
    · rintro ⟨hg, hkey, hoccurs⟩
      obtain ⟨-, hk, hv⟩ := h.field g hg
      exact ⟨⟨hg, (structuredFieldHit_iff hk hv).2 hoccurs⟩, hkey⟩
  rw [hhits]
  by_cases hholds : Holds js answer f
  · exact iff_of_true ⟨f, hf, rfl, hholds.occurs⟩ (.inl hholds)
  · exact ⟨fun hcredit => .inr ⟨hholds, hcredit⟩, fun hor => (hor.resolve_left hholds).2⟩

/-- **The score**: what is earned and what is unearned count alike. -/
theorem Weighed.passed_iff (h : Weighed spec) : (scoreExam js.toJs spec answer).passed = true ↔
    EXAM_PASS_THRESHOLD * totalWeight spec ≤ earned js spec answer + unearned js spec answer ∧
      ¬ Forbidden js spec answer := by
  have hpos := h.totalWeight_pos
  have hhit : ((spec.structuredFields.filter (·.key ∈ (scoreExam js.toJs spec answer).structuredHits)).map (·.weight)).sum =
      ((spec.structuredFields.filter fun f => Holds js answer f).map (·.weight)).sum + unearned js spec answer := by
    refine sum_filter_or fun f hf => ⟨?_, fun hboth => ?_⟩
    · rw [Bool.eq_iff_iff, decide_eq_true_iff, h.mem_structuredHits_iff hf]
      simp
    · exact (of_decide_eq_true hboth.2).1 (of_decide_eq_true hboth.1)
  have hcoverage : (scoreExam js.toJs spec answer).coverage =
      (earned js spec answer + unearned js spec answer) / totalWeight spec := by
    have htotal : ((spec.keypoints.map fun kp => (⟨kp.id, kp.weight, keypointHit js.toJs
        (normalizeAnswer js.toJs answer) kp⟩ : KeypointHit)).map (·.weight)).sum = (spec.keypoints.map (·.weight)).sum := by
      rw [List.map_map]
      rfl
    have hpoints : (((spec.keypoints.map fun kp => (⟨kp.id, kp.weight, keypointHit js.toJs
        (normalizeAnswer js.toJs answer) kp⟩ : KeypointHit)).filter (·.hit)).map (·.weight)).sum =
        ((spec.keypoints.filter (keypointHit js.toJs (normalizeAnswer js.toJs answer))).map (·.weight)).sum := by
      rw [List.filter_map, List.map_map]
      rfl
    rw [earned, add_assoc, ← hhit, ← hpoints]
    rw [totalWeight, ← htotal] at hpos ⊢
    exact if_pos hpos
  have hforbidden : (scoreExam js.toJs spec answer).forbiddenHits = [] ↔ ¬ Forbidden js spec answer := by
    rw [scoreExam, List.map_eq_nil_iff, List.filter_eq_nil_iff, Forbidden]
    push Not
    rfl
  have hpassed : (scoreExam js.toJs spec answer).passed = true ↔
      EXAM_PASS_THRESHOLD ≤ (scoreExam js.toJs spec answer).coverage ∧ (scoreExam js.toJs spec answer).forbiddenHits = [] :=
    decide_eq_true_iff
  rw [hpassed, hcoverage, hforbidden, le_div_iff₀ hpos]

/-! ## Order -/

/-- The same items in another order. -/
structure SameItems (spec spec' : ExamSpec) : Prop where
  keypoints : spec'.keypoints.Perm spec.keypoints
  structuredFields : spec'.structuredFields.Perm spec.structuredFields
  forbiddenClaims : spec'.forbiddenClaims.Perm spec.forbiddenClaims
  scorerVersion : spec'.scorerVersion = spec.scorerVersion

/-- The same result, with the hits in another order. -/
structure SameResult (r r' : ExamResult) : Prop where
  coverage : r'.coverage = r.coverage
  passed : r'.passed = r.passed
  keypointHits : r'.keypointHits.Perm r.keypointHits
  forbiddenHits : r'.forbiddenHits.Perm r.forbiddenHits
  structuredHits : r'.structuredHits.Perm r.structuredHits
  scorerVersion : r'.scorerVersion = r.scorerVersion

theorem scoreExam_perm {js : Js} {spec' : ExamSpec} (h : SameItems spec spec') :
    SameResult (scoreExam js spec answer) (scoreExam js spec' answer) := by
  have hpoints : (scoreExam js spec' answer).keypointHits.Perm (scoreExam js spec answer).keypointHits := h.keypoints.map _
  have hfields : (scoreExam js spec' answer).structuredHits.Perm (scoreExam js spec answer).structuredHits :=
    (h.structuredFields.filter _).map _
  have hclaims : (scoreExam js spec' answer).forbiddenHits.Perm (scoreExam js spec answer).forbiddenHits :=
    (h.forbiddenClaims.filter _).map _
  have htotal : ((scoreExam js spec' answer).keypointHits.map (·.weight)).sum + (spec'.structuredFields.map (·.weight)).sum =
      ((scoreExam js spec answer).keypointHits.map (·.weight)).sum + (spec.structuredFields.map (·.weight)).sum :=
    congrArg₂ (· + ·) (hpoints.map _).sum_eq (h.structuredFields.map _).sum_eq
  have hcredited : spec'.structuredFields.filter (·.key ∈ (scoreExam js spec' answer).structuredHits) =
      spec'.structuredFields.filter (·.key ∈ (scoreExam js spec answer).structuredHits) :=
    List.filter_congr fun f _ => by simp only [hfields.mem_iff]
  have hhit : (((scoreExam js spec' answer).keypointHits.filter (·.hit)).map (·.weight)).sum +
      ((spec'.structuredFields.filter (·.key ∈ (scoreExam js spec' answer).structuredHits)).map (·.weight)).sum =
      (((scoreExam js spec answer).keypointHits.filter (·.hit)).map (·.weight)).sum +
      ((spec.structuredFields.filter (·.key ∈ (scoreExam js spec answer).structuredHits)).map (·.weight)).sum := by
    rw [hcredited]
    exact congrArg₂ (· + ·) ((hpoints.filter _).map _).sum_eq ((h.structuredFields.filter _).map _).sum_eq
  have hcoverage : (scoreExam js spec' answer).coverage = (scoreExam js spec answer).coverage := by
    have hquotient : ∀ t t' w w' : ℚ, t' = t → w' = w → (if t' > 0 then w' / t' else 0) = if t > 0 then w / t else 0 := by
      rintro _ _ _ _ rfl rfl
      rfl
    exact hquotient _ _ _ _ htotal hhit
  refine ⟨hcoverage, ?_, hpoints, hclaims, hfields, ?_⟩
  · have hnil : (scoreExam js spec' answer).forbiddenHits = [] ↔ (scoreExam js spec answer).forbiddenHits = [] := by
      constructor
      · intro hnil
        exact List.nil_perm.1 (hnil ▸ hclaims)
      · intro hnil
        exact List.perm_nil.1 (hnil ▸ hclaims)
    have hpassed : ∀ spec : ExamSpec, (scoreExam js spec answer).passed =
        decide ((scoreExam js spec answer).coverage ≥ EXAM_PASS_THRESHOLD ∧
          (scoreExam js spec answer).forbiddenHits = []) := fun _ => rfl
    rw [hpassed, hpassed, hcoverage]
    simp only [hnil]
  · change (if _ then _ else _) = (if _ then _ else _)
    rw [h.scorerVersion]

/-! ## Wording -/

/-- Another wording: a letter in the other case, a run of white space for another one, white space at an end. -/
inductive Rewords : Text → Text → Prop
  | letter (s : Text) (c : ℕ) (t : Text) (h : 0x41 ≤ c ∧ c ≤ 0x5A) : Rewords (s ++ c :: t) (s ++ (c + 0x20) :: t)
  | space (s w w' t : Text) (hw : Text.Blanks w) (hw' : Text.Blanks w') : Rewords (s ++ w ++ t) (s ++ w' ++ t)
  | start (w s : Text) (h : Text.Blanks w) : Rewords s (w ++ s)
  | finish (s w : Text) (h : Text.Blanks w) : Rewords s (s ++ w)

theorem trim_cons {s t : Text} {c : ℕ} (hc : isBlank c = false) :
    trim (s ++ c :: t) = s.dropWhile isBlank ++ c :: t.rdropWhile isBlank := by
  have hend : (s.dropWhile isBlank ++ c :: t).rdropWhile isBlank = s.dropWhile isBlank ++ c :: t.rdropWhile isBlank := by
    have hrev : (s.dropWhile isBlank ++ c :: t).reverse = t.reverse ++ c :: (s.dropWhile isBlank).reverse := by simp
    rw [List.rdropWhile, hrev, Text.dropWhile_append_cons hc, List.rdropWhile]
    simp
  rw [trim, Text.dropWhile_append_cons hc, hend]

theorem normalizeAnswer_rewords {s t : Text} (h : Rewords s t) : normalizeAnswer js.toJs t = normalizeAnswer js.toJs s := by
  cases h with
  | letter s c t h =>
    have hblank : ∀ d, 0x41 ≤ d → d ≤ 0x7A → isBlank d = false := by
      intro d h1 h2
      simp only [isBlank, decide_eq_false_iff_not, List.mem_cons, List.not_mem_nil, or_false]
      omega
    rw [normalizeAnswer, normalizeAnswer, trim_cons (hblank _ (by omega) (by omega)),
      trim_cons (hblank _ (by omega) (by omega)), LowerCasing.folded, LowerCasing.folded, js.lower_letter _ _ _ h.1 h.2]
  | space s w w' t hw hw' => exact js.casing.folded_trim_blanks hw' hw
  | start w s h => rw [normalizeAnswer, normalizeAnswer, Text.trim_blanks_append h.2]
  | finish s w h => rw [normalizeAnswer, normalizeAnswer, Text.trim_append_blanks h.2]

theorem scoreExam_reworded {answer' : Text} (h : Relation.EqvGen Rewords answer answer') :
    scoreExam js.toJs spec answer' = scoreExam js.toJs spec answer := by
  have hnormal : normalizeAnswer js.toJs answer' = normalizeAnswer js.toJs answer := by
    induction h with
    | rel s t h => exact normalizeAnswer_rewords h
    | refl s => rfl
    | symm s t _ ih => exact ih.symm
    | trans s t u _ _ ih ih' => exact ih'.trans ih
  simp only [scoreExam, hnormal]

/-! ## Scoring by rule -/

/-- **What is asked of the score.** -/
structure ScoresByRule (js : RegexJs) (spec : ExamSpec) (answer : Text) : Prop where
  passes : lintExamSpec js.toJs spec = [] → ((scoreExam js.toJs spec answer).passed = true ↔
    EXAM_PASS_THRESHOLD * totalWeight spec ≤ earned js spec answer ∧ ¬ Forbidden js spec answer)
  order : ∀ spec', SameItems spec spec' → SameResult (scoreExam js.toJs spec answer) (scoreExam js.toJs spec' answer)
  wording : ∀ answer', Relation.EqvGen Rewords answer answer' →
    scoreExam js.toJs spec answer' = scoreExam js.toJs spec answer

/-- What is unearned decides nothing. -/
def Indifferent (js : RegexJs) (spec : ExamSpec) (answer : Text) : Prop :=
  Forbidden js spec answer ∨ EXAM_PASS_THRESHOLD * totalWeight spec ≤ earned js spec answer ∨
    earned js spec answer + unearned js spec answer < EXAM_PASS_THRESHOLD * totalWeight spec

def isSpecial (c : ℕ) : Bool := c ∈ units ".*+?^$\x7b\x7d()|[]\\"

/-- What a pattern begins with literally, and what follows. -/
def readLiteral : Text → Text × Text
  | [] => ([], [])
  | [c] => ([c], [])
  | c :: d :: s =>
    if c = 0x5C then
      if isSpecial d then (d :: (readLiteral s).1, (readLiteral s).2) else ([], c :: d :: s)
    else (c :: (readLiteral (d :: s)).1, (readLiteral (d :: s)).2)

theorem readLiteral_escapeRegex {k rest : Text} (h : rest = [] ∨ ∃ d r, rest = 0x5C :: d :: r ∧ isSpecial d = false) :
    readLiteral (escapeRegex k ++ rest) = (k, rest) := by
  induction k with
  | nil =>
    rcases h with rfl | ⟨d, r, rfl, hd⟩
    · rfl
    · change readLiteral (0x5C :: d :: r) = _
      rw [readLiteral, if_pos rfl, if_neg (by simp [hd])]
  | cons c k ih =>
    by_cases hc : isSpecial c = true
    · have hescape : escapeRegex (c :: k) = 0x5C :: c :: escapeRegex k := by
        rw [escapeRegex, List.flatMap_cons, if_pos (of_decide_eq_true hc), escapeRegex]
        rfl
      rw [hescape, List.cons_append, List.cons_append, readLiteral, if_pos rfl, if_pos hc, ih]
    · have hescape : escapeRegex (c :: k) = c :: escapeRegex k := by
        rw [escapeRegex, List.flatMap_cons, if_neg fun hmem => hc (decide_eq_true hmem), escapeRegex]
        rfl
      have hne : c ≠ 0x5C := by
        rintro rfl
        exact hc (by decide +kernel)
      rw [hescape, List.cons_append]
      cases hrest : escapeRegex k ++ rest with
      | nil =>
        rw [hrest] at ih
        rw [readLiteral, ← (Prod.mk.inj ih).1, ← (Prod.mk.inj ih).2]
      | cons d s =>
        rw [hrest] at ih
        rw [readLiteral, if_neg hne, ih]

def fieldGap : Text := units "\\s*[\"']?\\s*[:=]\\s*[\"']?\\s*"

/-- A library that knows the letters A to Z and the patterns of fields. -/
def latinRegexJs : RegexJs where
  casing := .latin
  regexTest source s :=
    let k := (readLiteral source).1
    let v := (readLiteral ((readLiteral source).2.drop fieldGap.length)).1
    some (decide (∃ i ≤ s.length, ∃ n ≤ s.length, FieldAt LowerCasing.latinLower k v s i n))
  localeLe a b := a ≤ b
  canonical := LowerCasing.latinLower
  field_test k v s := by
    have hgap : fieldGap = 0x5C :: 0x73 :: fieldGap.drop 2 ∧ isSpecial 0x73 = false := by decide +kernel
    have hkey : readLiteral (fieldPattern k v) = (k, fieldGap ++ escapeRegex v) := by
      rw [fieldPattern, List.append_assoc, ← fieldGap]
      refine readLiteral_escapeRegex (.inr ⟨0x73, fieldGap.drop 2 ++ escapeRegex v, ?_, hgap.2⟩)
      conv_lhs => rw [hgap.1]
      rfl
    have hvalue : readLiteral (escapeRegex v) = (v, []) := by
      have h := @readLiteral_escapeRegex v [] (.inl rfl)
      rwa [List.append_nil] at h
    simp only [hkey, List.drop_left, hvalue, Option.some.injEq, decide_eq_true_iff]
  lower_letter s c t h1 h2 := by
    have hupper : LowerCasing.latinLower c = c + 0x20 := if_pos ⟨h1, h2⟩
    have hlower : LowerCasing.latinLower (c + 0x20) = c + 0x20 := if_neg (by omega)
    simp only [LowerCasing.latin, List.map_append, List.map_cons, hupper, hlower]

def twoValues : ExamSpec where
  examId := "e1"
  capability := units "a"
  questions := []
  keypoints := []
  forbiddenClaims := []
  structuredFields := [⟨units "a", units "x", 1⟩, ⟨units "a", units "y", 1⟩]
  negativeCases := [⟨"n1", [], []⟩, ⟨"n2", units "b", []⟩, ⟨"n3", units "c", []⟩]
  scorerVersion := EXAM_SCORER_VERSION
  normalizerVersion := EXAM_NORMALIZER_VERSION
  tokenizerVersion := EXAM_TOKENIZER_VERSION

end ChronoSynth.Learning

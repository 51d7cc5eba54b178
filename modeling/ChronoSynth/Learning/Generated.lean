import ChronoSynth.Learning.DeterministicLearning

/-!
# Exams fit what was taught

The key words of a request are trimmed texts of two to eighty units, at least one and at most four; its narrative says
each of them between characters without case.

The exam of the deterministic service asks for the key words of its narrative. A text with the narrative has them all, and
an exam that asks for at least two is accepted if it is passed by none of its negative cases. These are fixed texts, so
that key words found in one of them make an exam that is refused (`fits_iff`).

* `phrases` — the capability and the parts of the evidence that are neither short nor long, each but once up to its case.
  Where there are two of them, the key words are the first four (`extractKeypoints_of_two`); otherwise the last of the two
  key words is a numbered one, found in no negative case (`extractKeypoints_of_few`).
-/

namespace ChronoSynth.Learning

open Text (isBlank trim join)

section
variable {js : Js} {capability evidence w : Text} {out : List Text}

/-! ## Key words -/

/-- What a key word is. -/
def Keyword (w : Text) : Prop := w.trim = w ∧ 2 ≤ w.length ∧ w.length ≤ 80

theorem mem_pushKeyword {raw : Text} (h : ∀ w ∈ out, Keyword w) : ∀ w ∈ pushKeyword js out raw, Keyword w := by
  unfold pushKeyword
  simp only
  split_ifs with hlen hseen
  · exact h
  · exact h
  · intro w hw
    rcases List.mem_append.1 hw with hw | hw
    · exact h w hw
    · obtain rfl := List.mem_singleton.1 hw
      exact ⟨Text.trim_trim, by omega, by omega⟩

theorem foldl_keep {α β : Type*} {P : β → Prop} {f : β → α → β} (hf : ∀ b a, P b → P (f b a)) {l : List α} {b : β}
    (h : P b) : P (l.foldl f b) :=
  List.foldlRecOn (motive := P) l f h fun b hb a _ => hf b a hb

theorem keyword_of_mem (h : w ∈ extractKeypoints js capability evidence) : Keyword w := by
  have hpush : ∀ (out : List Text) (raw : Text) (c : Prop) [Decidable c], (∀ w ∈ out, Keyword w) →
      ∀ w ∈ (if c then out else pushKeyword js out raw), Keyword w := by
    intro out raw c _ hout
    split
    · exact hout
    · exact mem_pushKeyword hout
  have hcap : ∀ w ∈ pushKeyword js [] capability, Keyword w := mem_pushKeyword (by simp)
  have hevidence : ∀ w ∈ pushEvidence js evidence (pushKeyword js [] capability), Keyword w :=
    foldl_keep (P := fun out => ∀ w ∈ out, Keyword w) (fun out raw hout => hpush out raw _ hout) hcap
  have hall : ∀ w ∈ pushPlaceholders js capability (pushEvidence js evidence (pushKeyword js [] capability)), Keyword w := by
    refine foldl_keep (P := fun out => ∀ w ∈ out, Keyword w) (fun out i hout => ?_) hevidence
    split
    · exact mem_pushKeyword hout
    · exact hout
  exact hall w (List.mem_of_mem_take h)

theorem pushKeyword_ne_nil {raw : Text} (h : out ≠ []) : pushKeyword js out raw ≠ [] := by
  unfold pushKeyword
  simp only
  split_ifs <;> simp [h]

/-- A numbered key word is neither short nor long. -/
theorem length_placeholder (capability : Text) {i : ℕ} (hi : i < 10) :
    let t := Text.trim (placeholderBase capability ++ units "的要点" ++ units (toString i))
    2 ≤ t.length ∧ t.length ≤ 80 := by
  have hdigits : ∀ i < 10, (units (toString i)).length = 1 ∧ ∀ c ∈ units (toString i), ¬ isBlank c := by
    decide +kernel
  have hdigit := hdigits i hi
  have hwords : (units "的要点").length = 3 ∧ ∀ c ∈ units "的要点", ¬ isBlank c := by decide +kernel
  have hbase : (placeholderBase capability).length ≤ 60 := by
    unfold placeholderBase
    split
    · simp
    · omega
  have htail : ∀ c ∈ units "的要点" ++ units (toString i), ¬ isBlank c := by
    intro c hc
    rcases List.mem_append.1 hc with hc | hc
    · exact hwords.2 c hc
    · exact hdigit.2 c hc
  have hne : units "的要点" ++ units (toString i) ≠ [] := by
    rw [← List.length_pos_iff, List.length_append]
    omega
  have hdrop : ((placeholderBase capability).dropWhile isBlank).length ≤ (placeholderBase capability).length :=
    (List.dropWhile_suffix _).length_le
  rw [List.append_assoc, Text.trim_append_of_notBlank hne htail]
  simp only [List.length_append]
  omega

theorem extractKeypoints_ne_nil : extractKeypoints js capability evidence ≠ [] := by
  have hpush : ∀ (out : List Text) (raw : Text), out ≠ [] → pushKeyword js out raw ≠ [] := fun _ _ => pushKeyword_ne_nil
  have hsome : pushPlaceholders js capability (pushEvidence js evidence (pushKeyword js [] capability)) ≠ [] := by
    unfold pushPlaceholders
    have hrange : List.range' 1 (MIN_KEYPOINTS * 4) = 1 :: List.range' 2 7 := by decide
    rw [hrange, List.foldl_cons]
    refine foldl_keep (P := fun out => out ≠ []) (fun out i hout => ?_) ?_
    · split
      · exact pushKeyword_ne_nil hout
      · exact hout
    · -- the first turn leaves one that was there, or pushes the first
      generalize pushEvidence js evidence (pushKeyword js [] capability) = out
      cases out with
      | cons w out =>
        split
        · exact pushKeyword_ne_nil (List.cons_ne_nil _ _)
        · exact List.cons_ne_nil _ _
      | nil =>
        obtain ⟨h2, h80⟩ := length_placeholder capability (i := 1) (by omega)
        rw [if_pos (by decide), pushKeyword, if_neg (by omega), if_neg (by simp)]
        simp
  unfold extractKeypoints
  intro hnil
  rcases List.take_eq_nil_iff.1 hnil with h | h
  · cases h
  · exact hsome h

theorem normalize_ne_nil (h : Keyword w) : normalizeAnswer js w ≠ [] := by
  have hne : w ≠ [] := List.length_pos_iff.1 (by have := h.2.1; omega)
  rw [normalizeAnswer, h.1]
  exact js.casing.folded_ne_nil hne

end

/-- A lower case that keeps digits. -/
structure DigitJs extends Js where
  lower_digit : ∀ c, 0x30 ≤ c → c ≤ 0x39 → casing.lower [c] = [c]

local instance phraseLawfulBEq : LawfulBEq (List ℕ) := inferInstance

variable {js : Js} {capability evidence w text : Text} {out parts : List Text}

/-! ## Phrases -/

def isPhrase (t : Text) : Bool := 2 ≤ t.length ∧ t.length ≤ 80

def sameButCase (js : Js) (a b : Text) : Bool := js.casing.lower a = js.casing.lower b

def phrases (js : Js) (capability evidence : Text) : List Text :=
  (((capability :: evidence.splitOnP isSeparator).map trim).filter isPhrase).eraseDupsBy (sameButCase js)

/-- The phrases that are not there yet. -/
def unseen (js : Js) (out : List Text) (parts : List Text) : List Text :=
  ((parts.map trim).filter isPhrase).filter fun t => js.casing.lower t ∉ out.map js.casing.lower

theorem foldl_pushKeyword :
    parts.foldl (pushKeyword js) out = out ++ (unseen js out parts).eraseDupsBy (sameButCase js) := by
  induction parts generalizing out with
  | nil => simp [unseen]
  | cons raw parts ih =>
    rw [List.foldl_cons, ih]
    by_cases hphrase : isPhrase (trim raw) = true
    · have hlen : ¬ ((trim raw).length < 2 ∨ (trim raw).length > 80) := by
        have := of_decide_eq_true hphrase
        omega
      by_cases hseen : js.casing.lower (trim raw) ∈ out.map js.casing.lower
      · have hpush : pushKeyword js out raw = out := by simp only [pushKeyword, if_neg hlen, if_pos hseen]
        have hunseen : unseen js out (raw :: parts) = unseen js out parts := by
          rw [unseen, List.map_cons, List.filter_cons_of_pos hphrase, List.filter_cons_of_neg (by simpa using hseen),
            unseen]
        rw [hpush, hunseen]
      · have hpush : pushKeyword js out raw = out ++ [trim raw] := by
          simp only [pushKeyword, if_neg hlen, if_neg hseen]
        have hunseen : unseen js out (raw :: parts) = trim raw :: unseen js out parts := by
          rw [unseen, List.map_cons, List.filter_cons_of_pos hphrase, List.filter_cons_of_pos (by simpa using hseen),
            unseen]
        -- those equal to it but for its case are left out from now on
        have hrest : unseen js (out ++ [trim raw]) parts =
            (unseen js out parts).filter fun t => sameButCase js t (trim raw) = false := by
          rw [unseen, unseen]
          conv_rhs => rw [List.filter_filter]
          refine List.filter_congr fun t _ => ?_
          simp [sameButCase, and_comm]
        rw [hpush, hunseen, List.eraseDupsBy_cons, hrest, List.append_assoc, List.singleton_append]
    · have hlen : (trim raw).length < 2 ∨ (trim raw).length > 80 := by
        by_contra h
        refine hphrase (decide_eq_true ?_)
        omega
      have hpush : pushKeyword js out raw = out := by simp only [pushKeyword, if_pos hlen]
      have hunseen : unseen js out (raw :: parts) = unseen js out parts := by
        rw [unseen, List.map_cons, List.filter_cons_of_neg hphrase, unseen]
      rw [hpush, hunseen]

theorem phrases_eq : phrases js capability evidence =
    (evidence.splitOnP isSeparator).foldl (pushKeyword js) (pushKeyword js [] capability) := by
  rw [← List.foldl_cons, foldl_pushKeyword, List.nil_append, phrases, unseen]
  simp

theorem length_pushKeyword {raw : Text} :
    pushKeyword js out raw = out ∨ pushKeyword js out raw = out ++ [trim raw] := by
  unfold pushKeyword
  simp only
  split_ifs
  · exact .inl rfl
  · exact .inl rfl
  · exact .inr rfl

/-- A loop that stops at four leaves the first four. -/
theorem foldl_stopping (h : out.length ≤ MAX_KEYPOINTS) :
    parts.foldl (fun out part => if out.length ≥ MAX_KEYPOINTS then out else pushKeyword js out part) out =
      (parts.foldl (pushKeyword js) out).take MAX_KEYPOINTS := by
  induction parts generalizing out with
  | nil => exact (List.take_of_length_le h).symm
  | cons raw parts ih =>
    rw [List.foldl_cons, List.foldl_cons]
    split
    next hfull =>
      have heq : out.length = MAX_KEYPOINTS := le_antisymm h hfull
      rw [ih h, foldl_pushKeyword, ← List.foldl_cons, foldl_pushKeyword, ← heq, List.take_left, List.take_left]
    next hroom =>
      refine ih ?_
      rcases @length_pushKeyword js out raw with hpush | hpush
      · rwa [hpush]
      · rw [hpush, List.length_append, List.length_singleton]
        omega

theorem pushEvidence_eq : pushEvidence js evidence (pushKeyword js [] capability) =
    (phrases js capability evidence).take MAX_KEYPOINTS := by
  rw [phrases_eq, pushEvidence]
  refine foldl_stopping ?_
  rcases @length_pushKeyword js [] capability with hpush | hpush
  · rw [hpush]
    exact Nat.zero_le _
  · rw [hpush, List.nil_append, List.length_singleton]
    decide

/-! ## Key words -/

/-- The numbered key word. -/
def placeholder (capability : Text) (i : ℕ) : Text :=
  trim (placeholderBase capability ++ units "的要点" ++ units (toString i))

theorem placeholder_eq {i : ℕ} (hi : i < 10) :
    placeholder capability i = ((placeholderBase capability).dropWhile isBlank ++ units "的要") ++ 0x70B9 :: [0x30 + i] := by
  have hdigits : ∀ i < 10, units "的要点" ++ units (toString i) = units "的要" ++ 0x70B9 :: [0x30 + i] ∧
      ∀ c ∈ units "的要点" ++ units (toString i), ¬ isBlank c := by
    decide +kernel
  obtain ⟨heq, hblank⟩ := hdigits i hi
  rw [placeholder, List.append_assoc, Text.trim_append_of_notBlank (by rw [heq]; simp) hblank, heq, List.append_assoc]

theorem lower_placeholder_ne (js : DigitJs) :
    js.casing.lower (placeholder capability 1) ≠ js.casing.lower (placeholder capability 2) := by
  have hcase : Caseless 0x70B9 := by decide
  rw [placeholder_eq (by omega), placeholder_eq (by omega), js.casing.lower_append _ _ _ hcase,
    js.casing.lower_append _ _ _ hcase, js.lower_digit _ (by omega) (by omega), js.lower_digit _ (by omega) (by omega)]
  simp

theorem pushKeyword_placeholder {i : ℕ} (hi : i < 10) :
    pushKeyword js out (placeholderBase capability ++ units "的要点" ++ units (toString i)) =
      if js.casing.lower (placeholder capability i) ∈ out.map js.casing.lower then out
      else out ++ [placeholder capability i] := by
  obtain ⟨h2, h80⟩ := length_placeholder capability hi
  have hlen : ¬ ((trim (placeholderBase capability ++ units "的要点" ++ units (toString i))).length < 2 ∨
      (trim (placeholderBase capability ++ units "的要点" ++ units (toString i))).length > 80) := by omega
  simp only [pushKeyword, if_neg hlen, placeholder]
  rfl

/-- One turn of the loop that fills up. -/
def turn (js : Js) (capability : Text) (out : List Text) (i : ℕ) : List Text :=
  if out.length < MIN_KEYPOINTS then
    pushKeyword js out (placeholderBase capability ++ units "的要点" ++ units (toString i)) else out

theorem foldl_turn {l : List ℕ} (h : 2 ≤ out.length) : l.foldl (turn js capability) out = out :=
  foldl_keep (P := fun out' => out' = out) (fun out' i heq => by subst heq; exact if_neg (Nat.not_lt.2 h)) rfl

theorem extractKeypoints_of_two (h : 2 ≤ (phrases js capability evidence).length) :
    extractKeypoints js capability evidence = (phrases js capability evidence).take MAX_KEYPOINTS := by
  have hlen : 2 ≤ ((phrases js capability evidence).take MAX_KEYPOINTS).length := by
    rw [List.length_take, MAX_KEYPOINTS]
    omega
  have hkeep : pushPlaceholders js capability ((phrases js capability evidence).take MAX_KEYPOINTS) =
      (phrases js capability evidence).take MAX_KEYPOINTS := foldl_turn (l := List.range' 1 8) hlen
  rw [extractKeypoints, pushEvidence_eq, hkeep, List.take_take, min_self]

theorem pushPlaceholders_eq : pushPlaceholders js capability out =
    (List.range' 3 6).foldl (turn js capability) (turn js capability (turn js capability out 1) 2) := by
  have hrange : List.range' 1 (MIN_KEYPOINTS * 4) = 1 :: 2 :: List.range' 3 6 := by decide
  change (List.range' 1 (MIN_KEYPOINTS * 4)).foldl (turn js capability) out = _
  rw [hrange, List.foldl_cons, List.foldl_cons]

theorem turn_of_few {i : ℕ} (hi : i < 10) (h : out.length < 2) : turn js capability out i =
    if js.casing.lower (placeholder capability i) ∈ out.map js.casing.lower then out
    else out ++ [placeholder capability i] := by
  have hmin : out.length < MIN_KEYPOINTS := h
  rw [turn, if_pos hmin, pushKeyword_placeholder hi]

/-- At most two turns of the loop change anything. -/
theorem pushPlaceholders_of_few {js : DigitJs} (h : out.length < 2) :
    ∃ w, ∃ i < 10, pushPlaceholders js.toJs capability out = [w, placeholder capability i] := by
  have hne := @lower_placeholder_ne capability js
  rw [pushPlaceholders_eq, turn_of_few (by omega) h]
  match out, h with
  | [], _ =>
    refine ⟨placeholder capability 1, 2, by omega, ?_⟩
    rw [if_neg (by simp), List.nil_append, turn_of_few (by omega) (by simp), if_neg (by simpa using hne.symm)]
    exact foldl_turn (by simp)
  | [x], _ =>
    by_cases hx : js.casing.lower (placeholder capability 1) = js.casing.lower x
    · refine ⟨x, 2, by omega, ?_⟩
      rw [if_pos (by simp [hx]), turn_of_few (by omega) (by simp), if_neg (by simpa using hx ▸ hne.symm)]
      exact foldl_turn (by simp)
    · refine ⟨x, 1, by omega, ?_⟩
      have hturn : turn js.toJs capability [x, placeholder capability 1] 2 = [x, placeholder capability 1] :=
        if_neg (by simp [MIN_KEYPOINTS])
      rw [if_neg (by simpa using hx), List.singleton_append, hturn]
      exact foldl_turn (by simp)

theorem extractKeypoints_of_few {js : DigitJs} (h : (phrases js.toJs capability evidence).length < 2) :
    ∃ w, ∃ i < 10, extractKeypoints js.toJs capability evidence = [w, placeholder capability i] := by
  have htake : (phrases js.toJs capability evidence).take MAX_KEYPOINTS = phrases js.toJs capability evidence := by
    refine List.take_of_length_le ?_
    rw [MAX_KEYPOINTS]
    omega
  obtain ⟨w, i, hi, heq⟩ := @pushPlaceholders_of_few capability _ js h
  refine ⟨w, i, hi, ?_⟩
  rw [extractKeypoints, pushEvidence_eq, htake, heq]
  rfl

theorem two_le_length_extractKeypoints {js : DigitJs} : 2 ≤ (extractKeypoints js.toJs capability evidence).length := by
  by_cases h : 2 ≤ (phrases js.toJs capability evidence).length
  · rw [extractKeypoints_of_two h, List.length_take, MAX_KEYPOINTS]
    omega
  · obtain ⟨w, i, -, heq⟩ := extractKeypoints_of_few (Nat.lt_of_not_le h)
    rw [heq]
    exact le_rfl

theorem length_extractKeypoints_le : (extractKeypoints js capability evidence).length ≤ 4 := by
  rw [extractKeypoints, List.length_take]
  exact min_le_left _ _

/-- The negative cases that have something in them. -/
def negativeAnswers : List Text := [units "我不知道", units "还没学会"]

theorem not_found_placeholder {js : Js} {i : ℕ} (hi : i < 10) {answer : Text} (ha : answer ∈ negativeAnswers) :
    ¬ Found js (placeholder capability i) answer := by
  have hcaseless : ∀ a ∈ negativeAnswers, trim a = a ∧ (∀ c ∈ a, Caseless c ∧ isBlank c = false) ∧ 0x70B9 ∉ a := by
    decide +kernel
  obtain ⟨htrim, hall, hnot⟩ := hcaseless answer ha
  have hfold : js.casing.folded answer = answer := js.casing.folded_eq_self hall
  intro hfound
  have hmem : 0x70B9 ∈ normalizeAnswer js (placeholder capability i) := by
    rw [normalizeAnswer, placeholder, Text.trim_trim, ← placeholder, placeholder_eq hi,
      js.casing.folded_cons (by decide) (by decide)]
    simp
  have hin := hfound.subset hmem
  rw [normalizeAnswer, htrim, hfold] at hin
  exact hnot hin

/-! ## The exam -/

/-- A character that ends a key word and the one before it. -/
def Stop (c : ℕ) : Prop := Caseless c ∧ isBlank c = false

instance : DecidablePred Stop := fun _ => inferInstanceAs (Decidable (_ ∧ _))

theorem join_surrounded {a : ℕ} (ha : Stop a) (hw : w ∈ parts) :
    ∃ u c d v, Stop c ∧ Stop d ∧ a :: (join [0x3001] parts ++ [0x3002]) = u ++ c :: (w ++ d :: v) := by
  induction parts generalizing a with
  | nil => cases hw
  | cons p parts ih =>
    cases parts with
    | nil =>
      obtain rfl := List.mem_singleton.1 hw
      exact ⟨[], a, 0x3002, [], ha, by decide, by simp⟩
    | cons q parts =>
      rw [Text.join_cons (List.cons_ne_nil _ _)]
      rcases List.mem_cons.1 hw with rfl | hw
      · exact ⟨[], a, 0x3001, join [0x3001] (q :: parts) ++ [0x3002], ha, by decide, by simp⟩
      · obtain ⟨u, c, d, v, hc, hd, heq⟩ := ih (a := 0x3001) (by decide) hw
        refine ⟨a :: (p ++ u), c, d, v, hc, hd, ?_⟩
        simp only [List.append_assoc, List.cons_append, List.nil_append, heq]

theorem found_of_narrative (hw : w ∈ parts) (hk : w.trim = w) (h : learnedNarrative capability parts <:+: text) :
    Found js w text := by
  have hends : units "」，掌握了" = units "」，掌握" ++ [0x4E86] ∧ units "、" = [0x3001] ∧ units "。" = [0x3002] := by
    decide +kernel
  obtain ⟨u, c, d, v, hc, hd, heq⟩ := join_surrounded (a := 0x4E86) (by decide) hw
  obtain ⟨before, after, rfl⟩ := h
  have hsurrounded : before ++ learnedNarrative capability parts ++ after =
      (before ++ units "我学会了「" ++ capability ++ units "」，掌握" ++ u) ++ c :: (w ++ d :: (v ++ after)) := by
    have hnarrative : learnedNarrative capability parts =
        units "我学会了「" ++ capability ++ units "」，掌握" ++ (u ++ c :: (w ++ d :: v)) := by
      rw [← heq, learnedNarrative, hends.1, hends.2.1, hends.2.2]
      simp only [List.append_assoc, List.cons_append, List.nil_append]
    rw [hnarrative]
    simp only [List.append_assoc, List.cons_append]
  rw [Found, normalizeAnswer, normalizeAnswer, hk, hsurrounded, Text.trim_surrounded hc.2 hd.2,
    js.casing.folded_cons hc.1 hc.2, js.casing.folded_cons hd.1 hd.2]
  exact (List.prefix_append _ _).isInfix.trans ((List.suffix_cons _ _).trans (List.suffix_append _ _)).isInfix

/-! ## Acceptance -/

section
variable {js : DigitJs} {input : DeterministicLearningInput}

/-- The key words of the request. -/
def keywordsOf (js : Js) (input : DeterministicLearningInput) : List Text :=
  extractKeypoints js input.capability input.evidence

theorem keypoints_eq : (generateDeterministicLearning js.toJs input).examSpec.keypoints =
    (keywordsOf js.toJs input).mapIdx fun idx kw => keywordPoint kw idx := by
  simp only [generateDeterministicLearning, keywordsOf]

theorem passed_iff {answer : Text} :
    (scoreExam js.toJs (generateDeterministicLearning js.toJs input).examSpec answer).passed = true ↔
      ∀ w ∈ keywordsOf js.toJs input, Found js.toJs w answer := by
  have hne : keywordsOf js.toJs input ≠ [] := extractKeypoints_ne_nil
  have h4 : (keywordsOf js.toJs input).length ≤ 4 := length_extractKeypoints_le
  refine (passed_iff_of_plain hne h4 keypoints_eq rfl rfl).trans ?_
  exact forall₂_congr fun w hw => and_iff_right (normalize_ne_nil (keyword_of_mem hw))

theorem trim_narrative_ne_nil : (learnedNarrative capability parts).trim ≠ [] := by
  have hends : units "我学会了「" = [0x6211] ++ units "学会了「" ∧ units "。" = [0x3002] := by decide +kernel
  have hshape : learnedNarrative capability parts =
      [0x6211] ++ (units "学会了「" ++ capability ++ units "」，掌握了" ++ join (units "、") parts) ++ [0x3002] := by
    simp only [learnedNarrative, hends.1, hends.2, List.append_assoc]
  rw [hshape, Text.trim_append_append (by simp) (by simp) (by decide) (by decide)]
  simp

theorem validateArtifact_candidate : validateArtifact (generateDeterministicLearning js.toJs input).candidate = [] := by
  have hid : "dart-learn-" ++ input.learningRequestId ≠ "" := by simp
  have hevidence : "lr-" ++ input.learningRequestId ≠ "" := by simp
  have hconfidence : InUnitRange (95 / 100) := by norm_num [InUnitRange]
  have hscore : InUnitRange (9 / 10) := by norm_num [InUnitRange]
  simp [validateArtifact, generateDeterministicLearning, problemIf, hid, hevidence, hconfidence, hscore,
    validateEvidence, validatePayloadShape, trim_narrative_ne_nil]

theorem lintKeypoint_keywordPoint {i : ℕ} (h : Keyword w) : lintKeypoint js.toJs (keywordPoint w i) = [] := by
  obtain ⟨htrim, h2, h80⟩ := h
  simp [lintKeypoint, keywordPoint, violationIf, checkPatterns, EXAM_LINT_LIMITS, htrim, h80]
  omega

theorem lintWeights_eq_nil {spec : ExamSpec} {keywords : List Text} (h2 : 2 ≤ keywords.length)
    (hk : spec.keypoints = keywords.mapIdx fun idx kw => keywordPoint kw idx) (hs : spec.structuredFields = []) :
    lintWeights spec = [] := by
  have hweights : ∀ it ∈ scoredItems spec, it.2 = 1 := by
    intro it hit
    rw [scoredItems, hs, hk] at hit
    simp only [List.map_nil, List.append_nil, List.mem_map, List.mem_mapIdx] at hit
    obtain ⟨kp, ⟨i, hi, rfl⟩, rfl⟩ := hit
    rfl
  have hlen : (scoredItems spec).length = keywords.length := by simp [scoredItems, hs, hk]
  have htotal : ((scoredItems spec).map fun it => if it.2 > 0 then it.2 else 0).sum = (keywords.length : ℚ) := by
    have hmap : (scoredItems spec).map (fun it => if it.2 > 0 then it.2 else 0) = (scoredItems spec).map fun _ => (1 : ℚ) :=
      List.map_congr_left fun it hit => by simp [hweights it hit]
    rw [hmap, List.map_const', List.sum_replicate, hlen, nsmul_eq_mul, mul_one]
  have h2Q : (2 : ℚ) ≤ keywords.length := by exact_mod_cast h2
  have hratio : ¬ (1 : ℚ) / keywords.length > 6 / 10 := by
    rw [gt_iff_lt, not_lt, div_le_iff₀ (by linarith)]
    linarith
  rw [lintWeights, htotal, if_pos (by linarith), List.flatMap_eq_nil_iff]
  intro it hit
  rw [hweights it hit, violationIf, if_neg]
  exact fun h => hratio h.2

theorem not_found_nil (h : Keyword w) : ¬ Found js.toJs w [] := by
  intro hfound
  have hnil : normalizeAnswer js.toJs [] = [] := js.casing.folded_nil
  rw [Found, hnil] at hfound
  exact normalize_ne_nil h (List.infix_nil.1 hfound)

/-- An exam that asks for two key words or more is accepted if none of its negative cases passes. -/
theorem lintExamSpec_of_plain {spec : ExamSpec} {keywords : List Text} (h2 : 2 ≤ keywords.length)
    (hkeywords : ∀ w ∈ keywords, Keyword w)
    (hk : spec.keypoints = keywords.mapIdx fun idx kw => keywordPoint kw idx) (hf : spec.forbiddenClaims = [])
    (hs : spec.structuredFields = []) (hn : EXAM_LINT_LIMITS.minNegativeCases ≤ spec.negativeCases.length) :
    lintExamSpec js.toJs spec = [] ↔ ∀ nc ∈ spec.negativeCases, ¬ (scoreExam js.toJs spec nc.answer).passed = true := by
  have hne : keywords ≠ [] := List.length_pos_iff.1 (by omega)
  have hpoints : spec.keypoints ≠ [] := by
    rw [hk]
    simpa using hne
  have hlint : spec.keypoints.flatMap (lintKeypoint js.toJs) = [] := by
    rw [hk, List.flatMap_eq_nil_iff]
    intro kp hkp
    obtain ⟨i, hi, rfl⟩ := List.mem_mapIdx.1 hkp
    exact lintKeypoint_keywordPoint (hkeywords _ (List.getElem_mem hi))
  rw [lintExamSpec, hlint, hs, hf, lintWeights_eq_nil h2 hk hs, violationIf_eq_nil.2 (fun h => hpoints h.1),
    violationIf_eq_nil.2 (Nat.not_lt.2 hn)]
  simp only [List.flatMap_nil, List.append_nil, List.nil_append, List.flatMap_eq_nil_iff, violationIf_eq_nil]

theorem lintExamSpec_eq_nil_iff : lintExamSpec js.toJs (generateDeterministicLearning js.toJs input).examSpec = [] ↔
    ∀ answer ∈ negativeAnswers, ∃ w ∈ keywordsOf js.toJs input, ¬ Found js.toJs w answer := by
  have hcases : (generateDeterministicLearning js.toJs input).examSpec.negativeCases.map (·.answer) =
      [] :: negativeAnswers := rfl
  have hfailed : ∀ answer, ¬ (scoreExam js.toJs (generateDeterministicLearning js.toJs input).examSpec answer).passed = true ↔
      ∃ w ∈ keywordsOf js.toJs input, ¬ Found js.toJs w answer := fun answer => by
    rw [passed_iff, not_forall₂]
    simp only [exists_prop]
  have hempty : ∃ w ∈ keywordsOf js.toJs input, ¬ Found js.toJs w [] := by
    obtain ⟨w, hw⟩ := List.exists_mem_of_ne_nil _ (@extractKeypoints_ne_nil js.toJs _ _)
    exact ⟨w, hw, not_found_nil (keyword_of_mem hw)⟩
  refine (lintExamSpec_of_plain two_le_length_extractKeypoints (fun w hw => keyword_of_mem hw) keypoints_eq rfl rfl
    (Nat.le_refl 3)).trans ?_
  rw [← List.forall_mem_map (f := fun nc : ExamNegativeCase => nc.answer) (P := fun answer =>
    ¬ (scoreExam js.toJs (generateDeterministicLearning js.toJs input).examSpec answer).passed = true), hcases]
  simp only [hfailed, List.forall_mem_cons, hempty, true_and]

/-! ## Fitting what was taught -/

/-- **What is asked of the generated exam and candidate.** -/
structure Fits (js : Js) (input : DeterministicLearningInput) : Prop where
  accepted : lintExamSpec js (generateDeterministicLearning js input).examSpec = []
  valid : validateArtifact (generateDeterministicLearning js input).candidate = []
  passes : ∀ narrative, (generateDeterministicLearning js input).candidate.payload = .narrativePatch narrative →
    ∀ text, narrative <:+: text → (scoreExam js (generateDeterministicLearning js input).examSpec text).passed = true
  fails : ∀ text, (∃ w ∈ extractKeypoints js input.capability input.evidence, ¬ Found js w text) →
    (scoreExam js (generateDeterministicLearning js input).examSpec text).passed = false

/-- The negative case has not all of what was taught: fewer than two phrases were, or one of the first four is not in it. -/
def Untaught (js : Js) (input : DeterministicLearningInput) (answer : Text) : Prop :=
  2 ≤ (phrases js input.capability input.evidence).length →
    ∃ w ∈ (phrases js input.capability input.evidence).take MAX_KEYPOINTS, ¬ Found js w answer

theorem untaught_iff {answer : Text} (ha : answer ∈ negativeAnswers) :
    (∃ w ∈ keywordsOf js.toJs input, ¬ Found js.toJs w answer) ↔ Untaught js.toJs input answer := by
  by_cases h : 2 ≤ (phrases js.toJs input.capability input.evidence).length
  · rw [keywordsOf, extractKeypoints_of_two h, Untaught]
    exact ⟨fun hex _ => hex, fun hall => hall h⟩
  · obtain ⟨w, i, hi, heq⟩ := extractKeypoints_of_few (Nat.lt_of_not_le h)
    rw [keywordsOf, heq]
    refine iff_of_true ⟨_, List.mem_cons_of_mem _ List.mem_cons_self, ?_⟩ fun h' => absurd h' h
    exact not_found_placeholder hi ha

/-- **Fitting.** The exam and the candidate fit exactly if neither of the two negative cases has all that was taught. -/
theorem fits_iff (js : DigitJs) (input : DeterministicLearningInput) :
    Fits js.toJs input ↔ ∀ answer ∈ negativeAnswers, Untaught js.toJs input answer := by
  have hlint : lintExamSpec js.toJs (generateDeterministicLearning js.toJs input).examSpec = [] ↔
      ∀ answer ∈ negativeAnswers, Untaught js.toJs input answer :=
    lintExamSpec_eq_nil_iff.trans (forall₂_congr fun answer ha => untaught_iff ha)
  refine ⟨fun h => hlint.1 h.accepted, fun h => ⟨hlint.2 h, validateArtifact_candidate, ?_, ?_⟩⟩
  · intro narrative hn text hin
    obtain rfl := Payload.narrativePatch.inj hn
    exact passed_iff.2 fun w hw => found_of_narrative hw (keyword_of_mem hw).1 hin
  · rintro text ⟨w, hw, hnot⟩
    rw [← Bool.not_eq_true, passed_iff]
    exact fun hall => hnot (hall w hw)

end

/-- A library that knows the letters A to Z. -/
def latinJs : DigitJs where
  casing := .latin
  regexTest _ _ := none
  localeLe a b := a ≤ b
  lower_digit c h1 h2 := by
    have hnot : ¬ (0x41 ≤ c ∧ c ≤ 0x5A) := by omega
    simp [LowerCasing.latin, LowerCasing.latinLower, hnot]

/-- A request for 我不知道 with the evidence 不知道. -/
def unknowing : DeterministicLearningInput := ⟨"r1", units "我不知道", units "不知道", 0⟩

/-- Its negative case has all its key words. -/
theorem not_fits_unknowing : ¬ ∀ (js : DigitJs) (input : DeterministicLearningInput), input.capability.trim ≠ [] →
    Fits js.toJs input := by
  intro h
  have hin : units "我不知道" ∈ negativeAnswers := by decide +kernel
  obtain ⟨w, hw, hnot⟩ := lintExamSpec_eq_nil_iff.1 (h latinJs unknowing (by decide +kernel)).accepted _ hin
  have hall : ∀ w ∈ keywordsOf latinJs.toJs unknowing, Found latinJs.toJs w (units "我不知道") := by decide +kernel
  exact hnot (hall w hw)

end ChronoSynth.Learning

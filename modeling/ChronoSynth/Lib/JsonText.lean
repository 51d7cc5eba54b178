import Mathlib.Data.List.TakeWhile
import Mathlib.Data.Nat.Cast.Field
import Mathlib.Data.Rat.Lemmas
import Mathlib.Tactic.FieldSimp
import Mathlib.Tactic.IntervalCases
import Mathlib.Tactic.Ring
import ChronoSynth.Lib.JsText

/-!
# A flat JSON text tells its object

`Json.stringify` is injective on flat objects, those whose members are numbers, texts and nulls
(`flat_injective`). Each ingredient can be read back:

* an escaped character, by `unescape`, so a quoted text ends at the first quote that is not escaped;
* a number, by `readNumber`, which undoes `JsNumber.toText` in each of its four forms;
* a member of an object, since no number contains a comma or a brace.
-/

namespace ChronoSynth

/-- Two texts that end before the first character of a kind. -/
theorem append_stop_inj {α : Type*} {p : α → Prop} {l l' r r' : List α} {c c' : α}
    (hl : ∀ a ∈ l, ¬ p a) (hl' : ∀ a ∈ l', ¬ p a) (hc : p c) (hc' : p c')
    (h : l ++ c :: r = l' ++ c' :: r') : l = l' ∧ c :: r = c' :: r' := by
  induction l generalizing l' with
  | nil =>
    cases l' with
    | nil => exact ⟨rfl, h⟩
    | cons a' l' =>
      obtain ⟨rfl, -⟩ := List.cons_eq_cons.1 h
      exact absurd hc (hl' c (by simp))
  | cons a l ih =>
    cases l' with
    | nil =>
      obtain ⟨rfl, -⟩ := List.cons_eq_cons.1 h
      exact absurd hc' (hl a (by simp))
    | cons a' l' =>
      obtain ⟨rfl, htail⟩ := List.cons_eq_cons.1 h
      obtain ⟨rfl, hrest⟩ := ih (fun b hb => hl b (by simp [hb])) (fun b hb => hl' b (by simp [hb]))
        htail
      exact ⟨rfl, hrest⟩

namespace Json

/-! ## Texts in quotes -/

def hexValue (c : Char) : ℕ := if c.isDigit then c.toNat - 48 else c.toNat - 87

/-- Read one character of a quoted text. -/
def unescape : List Char → Option (Char × List Char)
  | '\\' :: 'u' :: '0' :: '0' :: a :: b :: r =>
    some (Char.ofNat (16 * hexValue a + hexValue b), r)
  | '\\' :: 'b' :: r => some (Char.ofNat 8, r)
  | '\\' :: 't' :: r => some (Char.ofNat 9, r)
  | '\\' :: 'n' :: r => some (Char.ofNat 10, r)
  | '\\' :: 'f' :: r => some (Char.ofNat 12, r)
  | '\\' :: 'r' :: r => some (Char.ofNat 13, r)
  | '\\' :: c :: r => some (c, r)
  | c :: r => some (c, r)
  | [] => none

theorem unescape_control {n : ℕ} (hn : n < 32) (r : List Char) :
    unescape ((escapeChar (Char.ofNat n)).toList ++ r) = some (Char.ofNat n, r) := by
  interval_cases n <;> rfl

/-- **An escaped character reads back.** -/
theorem unescape_escapeChar (c : Char) (r : List Char) :
    unescape ((escapeChar c).toList ++ r) = some (c, r) := by
  by_cases hcontrol : c.toNat < 32
  · have h := unescape_control hcontrol r
    rwa [Char.ofNat_toNat] at h
  by_cases hquote : c = '"'
  · subst hquote
    rfl
  by_cases hslash : c = '\\'
  · subst hslash
    rfl
  -- every other character stands for itself
  have hself : (escapeChar c).toList = [c] := by
    rw [escapeChar, if_neg hquote, if_neg hslash, if_neg (by omega), if_neg (by omega),
      if_neg (by omega), if_neg (by omega), if_neg (by omega), if_neg hcontrol]
    exact String.toList_singleton c
  rw [hself, List.singleton_append, unescape.eq_def]
  split <;> simp_all

/-- What stands before the closing quote of a quoted text. -/
def escaped (cs : List Char) : List Char := cs.flatMap fun c => (escapeChar c).toList

theorem toList_quote (s : String) : (quote s).toList = '"' :: (escaped s.toList ++ ['"']) := by
  simp [quote, escaped, String.toList_join, List.flatMap_map]

theorem escapeChar_ne_quote {c : Char} {r r' : List Char} :
    (escapeChar c).toList ++ r ≠ '"' :: r' := by
  intro h
  have hread := unescape_escapeChar c r
  rw [h] at hread
  obtain ⟨rfl, rfl⟩ := Prod.mk.inj (Option.some.inj hread)
  -- the quote itself is escaped by two characters
  have hlen := congrArg List.length h
  have hquote : (escapeChar '"').toList.length = 2 := by decide
  rw [List.length_append, hquote, List.length_cons] at hlen
  omega

/-- Two quoted texts end at their closing quotes. -/
theorem escaped_append_inj {cs cs' r r' : List Char}
    (h : escaped cs ++ '"' :: r = escaped cs' ++ '"' :: r') : cs = cs' ∧ r = r' := by
  induction cs generalizing cs' with
  | nil =>
    cases cs' with
    | nil => exact ⟨rfl, (List.cons_eq_cons.1 h).2⟩
    | cons c' cs' =>
      rw [escaped, escaped, List.flatMap_cons, List.append_assoc] at h
      exact absurd h.symm escapeChar_ne_quote
  | cons c cs ih =>
    cases cs' with
    | nil =>
      rw [escaped, escaped, List.flatMap_cons, List.append_assoc] at h
      exact absurd h escapeChar_ne_quote
    | cons c' cs' =>
      rw [escaped, escaped, List.flatMap_cons, List.flatMap_cons, List.append_assoc,
        List.append_assoc] at h
      have hread := unescape_escapeChar c (escaped cs ++ '"' :: r)
      rw [escaped, h, unescape_escapeChar] at hread
      obtain ⟨rfl, hrest⟩ := Prod.mk.inj (Option.some.inj hread)
      obtain ⟨rfl, hr⟩ := ih hrest.symm
      exact ⟨rfl, hr⟩

theorem quote_append_inj {s s' : String} {r r' : List Char}
    (h : (quote s).toList ++ r = (quote s').toList ++ r') : s = s' ∧ r = r' := by
  rw [toList_quote, toList_quote] at h
  simp only [List.cons_append, List.append_assoc, List.nil_append] at h
  obtain ⟨hs, hr⟩ := escaped_append_inj (List.cons_eq_cons.1 h).2
  exact ⟨String.toList_inj.1 hs, hr⟩

end Json

/-! ## Numbers -/

/-- Reading up to the first character of a kind. -/
theorem takeWhile_dropWhile_stop {α : Type*} {p : α → Bool} {l r : List α} {c : α}
    (hl : ∀ a ∈ l, p a = true) (hc : p c = false) :
    (l ++ c :: r).takeWhile p = l ∧ (l ++ c :: r).dropWhile p = c :: r := by
  induction l with
  | nil => simp [hc]
  | cons a l ih =>
    obtain ⟨htake, hdrop⟩ := ih fun b hb => hl b (by simp [hb])
    have ha := hl a (by simp)
    simp [ha, htake, hdrop]

namespace JsNumber

/-- The value of a positional text. -/
def readMantissa (cs : List Char) : ℚ :=
  let whole := cs.takeWhile (· ≠ '.')
  let places := (cs.dropWhile (· ≠ '.')).drop 1
  Nat.ofDigitChars 10 (whole ++ places) 0 / 10 ^ places.length

/-- The value of the text of an exponent. -/
def readExponent : List Char → ℤ
  | '+' :: cs => Nat.ofDigitChars 10 cs 0
  | '-' :: cs => -Nat.ofDigitChars 10 cs 0
  | _ => 0

/-- The value of the text of a number without its sign. -/
def readBody (cs : List Char) : ℚ :=
  readMantissa (cs.takeWhile (· ≠ 'e')) *
    (10 : ℚ) ^ readExponent ((cs.dropWhile (· ≠ 'e')).drop 1)

/-- The value of the text of a number. -/
def readNumber : List Char → ℚ
  | '-' :: cs => -readBody cs
  | cs => readBody cs

def Digits (cs : List Char) : Prop := ∀ c ∈ cs, c.isDigit = true

theorem Digits.append {cs cs' : List Char} (h : Digits cs) (h' : Digits cs') :
    Digits (cs ++ cs') := by
  intro c hc
  rcases List.mem_append.1 hc with hc | hc
  · exact h c hc
  · exact h' c hc

theorem Digits.ne {cs : List Char} {c c' : Char} (h : Digits cs) (hc : c ∈ cs)
    (hno : c'.isDigit = false) : c ≠ c' := by
  rintro rfl
  rw [h c hc] at hno
  cases hno

theorem readMantissa_digits {ds : List Char} (hd : Digits ds) :
    readMantissa ds = Nat.ofDigitChars 10 ds 0 := by
  have hne : ∀ c ∈ ds, decide (c ≠ '.') = true := by
    intro c hc
    simpa using hd.ne hc (by decide)
  have htake : ds.takeWhile (· ≠ '.') = ds := List.takeWhile_eq_self_iff.2 hne
  have hdrop : ds.dropWhile (· ≠ '.') = [] := List.dropWhile_eq_nil_iff.2 hne
  rw [readMantissa, htake, hdrop]
  simp

theorem readMantissa_point {ds ds' : List Char} (hd : Digits ds) :
    readMantissa (ds ++ '.' :: ds') = Nat.ofDigitChars 10 (ds ++ ds') 0 / 10 ^ ds'.length := by
  obtain ⟨htake, hdrop⟩ := takeWhile_dropWhile_stop (p := (· ≠ '.')) (c := '.') (r := ds')
    (fun c hc => by simpa using hd.ne hc (by decide)) (by decide)
  rw [readMantissa, htake, hdrop]
  rfl

theorem readBody_mantissa {cs : List Char} (he : 'e' ∉ cs) : readBody cs = readMantissa cs := by
  have hne : ∀ c ∈ cs, decide (c ≠ 'e') = true := by
    intro c hc
    have : c ≠ 'e' := fun h => he (h ▸ hc)
    simpa using this
  have htake : cs.takeWhile (· ≠ 'e') = cs := List.takeWhile_eq_self_iff.2 hne
  have hdrop : cs.dropWhile (· ≠ 'e') = [] := List.dropWhile_eq_nil_iff.2 hne
  rw [readBody, htake, hdrop]
  simp [readExponent]

theorem readBody_exponent {cs cs' : List Char} (he : 'e' ∉ cs) :
    readBody (cs ++ 'e' :: cs') = readMantissa cs * (10 : ℚ) ^ readExponent cs' := by
  obtain ⟨htake, hdrop⟩ := takeWhile_dropWhile_stop (p := (· ≠ 'e')) (c := 'e') (r := cs')
    (l := cs) (fun c hc => by
      have : c ≠ 'e' := fun h => he (h ▸ hc)
      simpa using this) (by decide)
  rw [readBody, htake, hdrop]
  rfl

theorem digits_toDigits (n : ℕ) : Digits (Nat.toDigits 10 n) := by
  intro c hc
  exact Nat.isDigit_of_mem_toDigits (by decide) (by decide) hc

theorem ofDigitChars_digits (x : JsNumber) :
    (Nat.ofDigitChars 10 x.digits 0 : ℚ) = |x.val| * 10 ^ x.scale := by
  have hdvd : x.val.den ∣ 10 ^ x.scale := Nat.find_spec x.decimal
  have hlist : x.digits = Nat.toDigits 10 (x.val.num.natAbs * (10 ^ x.scale / x.val.den)) :=
    Nat.toList_repr
  have hden : (x.val.den : ℚ) ≠ 0 := by exact_mod_cast x.val.den_nz
  rw [hlist, Nat.ofDigitChars_ten_toDigits, Nat.cast_mul, Nat.cast_div hdvd hden, Nat.cast_pow]
  have habs : |x.val| = (x.val.num.natAbs : ℚ) / x.val.den := by
    conv_lhs => rw [← Rat.num_div_den x.val]
    rw [abs_div, Nat.abs_cast, Nat.cast_natAbs, Int.cast_abs]
  rw [habs]
  push_cast
  ring

/-- The text of a number without its sign. -/
def unsigned (x : JsNumber) : String :=
  let ds := x.digits
  let n : ℤ := ds.length - x.scale
  if x.scale = 0 ∧ n ≤ 21 then String.ofList ds
  else if 0 < n ∧ n ≤ 21 then
    String.ofList (ds.take n.toNat) ++ "." ++ String.ofList (ds.drop n.toNat)
  else if -6 < n ∧ n ≤ 0 then
    "0." ++ String.ofList (List.replicate n.natAbs '0') ++ String.ofList ds
  else
    let s := (ds.reverse.dropWhile (· = '0')).reverse
    let point := if s.length ≤ 1 then "" else "."
    let e := n - 1
    String.ofList (s.take 1) ++ point ++ String.ofList (s.drop 1) ++ "e" ++
      (if e < 0 then "-" else "+") ++ toString e.natAbs

/-! The marks a number is written with. -/

theorem toList_point : ".".toList = ['.'] := rfl

theorem toList_zeroPoint : "0.".toList = ['0', '.'] := rfl

theorem toList_exponent : "e".toList = ['e'] := rfl

theorem toList_minus : "-".toList = ['-'] := rfl

theorem toList_plus : "+".toList = ['+'] := rfl

theorem toText_eq (x : JsNumber) :
    x.toText = (if x.val < 0 then "-" else "") ++ x.unsigned := rfl

theorem digits_digits (x : JsNumber) : Digits x.digits := by
  have hlist : x.digits = Nat.toDigits 10 (x.val.num.natAbs * (10 ^ x.scale / x.val.den)) :=
    Nat.toList_repr
  rw [hlist]
  exact digits_toDigits _

theorem abs_val (x : JsNumber) :
    |x.val| = (Nat.ofDigitChars 10 x.digits 0 : ℚ) / 10 ^ x.scale := by
  rw [ofDigitChars_digits]
  field_simp

theorem Digits.notMem_e {cs : List Char} (h : Digits cs) : 'e' ∉ cs := by
  intro he
  exact absurd (h 'e' he) (by decide)

theorem Digits.notMem_e_point {cs cs' : List Char} (h : Digits cs) (h' : Digits cs') :
    'e' ∉ cs ++ '.' :: cs' := by
  intro he
  rcases List.mem_append.1 he with he | he
  · exact h.notMem_e he
  · rcases List.mem_cons.1 he with he | he
    · cases he
    · exact h'.notMem_e he

theorem readExponent_toString (e : ℤ) :
    readExponent ((if e < 0 then "-" else "+").toList ++ (toString e.natAbs).toList) = e := by
  have hlist : (toString e.natAbs).toList = Nat.toDigits 10 e.natAbs := Nat.toList_repr
  rw [hlist]
  split_ifs with he
  · rw [toList_minus, List.singleton_append, readExponent, Nat.ofDigitChars_ten_toDigits]
    omega
  · rw [toList_plus, List.singleton_append, readExponent, Nat.ofDigitChars_ten_toDigits]
    omega

theorem exists_replicate_zero (ds : List Char) :
    ∃ k, ds = (ds.reverse.dropWhile (· = '0')).reverse ++ List.replicate k '0' := by
  refine ⟨(ds.reverse.takeWhile (· = '0')).length, ?_⟩
  have hzeros : ds.reverse.takeWhile (· = '0') =
      List.replicate (ds.reverse.takeWhile (· = '0')).length '0' := by
    refine List.eq_replicate_of_mem fun c hc => ?_
    simpa using List.mem_takeWhile_imp hc
  have hsplit := List.takeWhile_append_dropWhile (p := (· = '0')) (l := ds.reverse)
  have hrev := congrArg List.reverse hsplit
  rw [List.reverse_append, List.reverse_reverse, hzeros, List.reverse_replicate] at hrev
  exact hrev.symm

/-- **The text of a number without its sign reads as its absolute value.** -/
theorem readBody_unsigned (x : JsNumber) : readBody x.unsigned.toList = |x.val| := by
  have hd := x.digits_digits
  rw [abs_val, unsigned]
  split_ifs with hint hpoint hsmall
  · -- an integer
    rw [String.toList_ofList, readBody_mantissa hd.notMem_e, readMantissa_digits hd, hint.1,
      pow_zero, div_one]
  · -- the point stands among the digits
    have htake : Digits (x.digits.take (x.digits.length - x.scale : ℤ).toNat) :=
      fun c hc => hd c (List.mem_of_mem_take hc)
    have hdrop : Digits (x.digits.drop (x.digits.length - x.scale : ℤ).toNat) :=
      fun c hc => hd c (List.mem_of_mem_drop hc)
    have hlen : (x.digits.drop (x.digits.length - x.scale : ℤ).toNat).length = x.scale := by
      rw [List.length_drop]
      omega
    simp only [String.toList_append, String.toList_ofList, List.append_assoc, toList_point,
      List.singleton_append]
    rw [readBody_mantissa (htake.notMem_e_point hdrop), readMantissa_point htake,
      List.take_append_drop, hlen]
  · -- zeros stand between the point and the digits
    have hzeros : Digits (List.replicate (x.digits.length - x.scale : ℤ).natAbs '0') := by
      intro c hc
      rw [List.eq_of_mem_replicate hc]
      rfl
    have hzero : Digits ['0'] := by
      intro c hc
      rw [List.mem_singleton.1 hc]
      rfl
    simp only [String.toList_append, String.toList_ofList, List.append_assoc, toList_zeroPoint]
    change readBody (['0'] ++ '.' ::
      (List.replicate (x.digits.length - x.scale : ℤ).natAbs '0' ++ x.digits)) = _
    rw [readBody_mantissa (hzero.notMem_e_point (hzeros.append hd)), readMantissa_point hzero,
      Nat.ofDigitChars_append, Nat.ofDigitChars_append, Nat.ofDigitChars_replicate_zero,
      List.length_append, List.length_replicate]
    have hlen : (x.digits.length - x.scale : ℤ).natAbs + x.digits.length = x.scale := by omega
    rw [hlen]
    simp [Nat.ofDigitChars]
  · -- an exponent
    obtain ⟨k, hk⟩ := exists_replicate_zero x.digits
    set s := (x.digits.reverse.dropWhile (· = '0')).reverse with hs
    have hsd : Digits s := fun c hc => hd c (by rw [hk]; exact List.mem_append_left _ hc)
    have hlen : x.digits.length = s.length + k := by
      rw [hk, List.length_append, List.length_replicate]
    have hmantissa : ∀ cs, cs = s.take 1 ++ ((if s.length ≤ 1 then "" else ".").toList ++ s.drop 1) →
        'e' ∉ cs ∧ readMantissa cs = Nat.ofDigitChars 10 s 0 / 10 ^ (s.length - 1) := by
      rintro cs rfl
      have htake : Digits (s.take 1) := fun c hc => hsd c (List.mem_of_mem_take hc)
      have hdrop : Digits (s.drop 1) := fun c hc => hsd c (List.mem_of_mem_drop hc)
      split_ifs with hone
      · have hz : s.length - 1 = 0 := by omega
        rw [String.toList_empty, List.nil_append, List.take_append_drop, readMantissa_digits hsd, hz, pow_zero, div_one]
        exact ⟨hsd.notMem_e, rfl⟩
      · rw [toList_point, List.singleton_append, readMantissa_point htake, List.take_append_drop, List.length_drop]
        exact ⟨htake.notMem_e_point hdrop, rfl⟩
    obtain ⟨he, hread⟩ := hmantissa _ rfl
    have hexp := readExponent_toString (x.digits.length - x.scale - 1 : ℤ)
    simp only [String.toList_append, String.toList_ofList, List.append_assoc, toList_exponent,
      List.singleton_append]
    rw [← List.append_assoc _ (s.drop 1), ← List.append_assoc, List.cons_append,
      readBody_exponent he, hread, hexp]
    rw [hlen]
    conv_rhs => rw [hk]
    rw [Nat.ofDigitChars_append, Nat.ofDigitChars_replicate_zero]
    rcases s with _ | ⟨c, s⟩
    · simp
    · have hpow : ((((c :: s).length + k : ℕ) : ℤ) - x.scale - 1) = (s.length + k : ℕ) - (x.scale : ℤ) := by
        push_cast [List.length_cons]
        ring
      rw [hpow, zpow_sub₀ (by norm_num), zpow_natCast, zpow_natCast, List.length_cons,
        Nat.add_sub_cancel, pow_add]
      push_cast
      field_simp

/-- The characters a number is written with. -/
def IsNumeric (c : Char) : Prop := c.isDigit = true ∨ c ∈ ['-', '+', '.', 'e']

instance (c : Char) : Decidable (IsNumeric c) := inferInstanceAs (Decidable (_ ∨ _))

theorem Digits.isNumeric {cs : List Char} {c : Char} (h : Digits cs) (hc : c ∈ cs) :
    IsNumeric c := .inl (h c hc)

theorem isNumeric_unsigned (x : JsNumber) {c : Char} (hc : c ∈ x.unsigned.toList) :
    IsNumeric c := by
  have hd := x.digits_digits
  have hstripped : Digits (x.digits.reverse.dropWhile (· = '0')).reverse := by
    intro c hc
    exact hd c (List.mem_reverse.1 (List.dropWhile_subset _ (List.mem_reverse.1 hc)))
  rw [unsigned] at hc
  split_ifs at hc with hint hpoint hsmall
  · exact hd.isNumeric (by simpa using hc)
  · simp only [String.toList_append, String.toList_ofList, List.mem_append] at hc
    rcases hc with (hc | hc) | hc
    · exact hd.isNumeric (List.mem_of_mem_take hc)
    · rw [toList_point, List.mem_singleton] at hc
      exact .inr (by simp [hc])
    · exact hd.isNumeric (List.mem_of_mem_drop hc)
  · simp only [String.toList_append, String.toList_ofList, List.mem_append] at hc
    rcases hc with (hc | hc) | hc
    · rw [toList_zeroPoint] at hc
      rcases List.mem_cons.1 hc with rfl | hc
      · exact .inl rfl
      · exact .inr (by simp [List.mem_singleton.1 hc])
    · rw [List.eq_of_mem_replicate hc]
      exact .inl rfl
    · exact hd.isNumeric hc
  · simp only [String.toList_append, String.toList_ofList, List.mem_append] at hc
    rcases hc with ((((hc | hc) | hc) | hc) | hc) | hc
    · exact hstripped.isNumeric (List.mem_of_mem_take hc)
    · split_ifs at hc
      · cases hc
      · rw [toList_point, List.mem_singleton] at hc
        exact .inr (by simp [hc])
    · exact hstripped.isNumeric (List.mem_of_mem_drop hc)
    · rw [toList_exponent, List.mem_singleton] at hc
      exact .inr (by simp [hc])
    · split_ifs at hc
      · rw [toList_minus, List.mem_singleton] at hc
        exact .inr (by simp [hc])
      · rw [toList_plus, List.mem_singleton] at hc
        exact .inr (by simp [hc])
    · have hlist : ∀ n : ℕ, (toString n).toList = Nat.toDigits 10 n := fun n => Nat.toList_repr
      rw [hlist] at hc
      exact (digits_toDigits _).isNumeric hc

theorem isNumeric_toText (x : JsNumber) {c : Char} (hc : c ∈ x.toText.toList) : IsNumeric c := by
  rw [toText_eq, String.toList_append, List.mem_append] at hc
  rcases hc with hc | hc
  · split_ifs at hc
    · rw [toList_minus, List.mem_singleton] at hc
      exact .inr (by simp [hc])
    · cases hc
  · exact x.isNumeric_unsigned hc

/-- A text of digits, and what may follow them, does not begin with the sign. -/
theorem Digits.append_ne_minus {cs r r' : List Char} (h : Digits cs) (hr : ∀ r', r ≠ '-' :: r') :
    cs ++ r ≠ '-' :: r' := by
  intro heq
  cases cs with
  | nil => exact hr r' heq
  | cons c cs =>
    obtain ⟨rfl, -⟩ := List.cons_eq_cons.1 heq
    exact absurd (h '-' (by simp)) (by decide)

theorem unsigned_ne_minus (x : JsNumber) (r : List Char) : x.unsigned.toList ≠ '-' :: r := by
  have hd := x.digits_digits
  have hstripped : Digits (x.digits.reverse.dropWhile (· = '0')).reverse := by
    intro c hc
    exact hd c (List.mem_reverse.1 (List.dropWhile_subset _ (List.mem_reverse.1 hc)))
  rw [unsigned]
  split_ifs with hint hpoint hsmall
  · rw [String.toList_ofList, ← List.append_nil x.digits]
    exact hd.append_ne_minus (by simp)
  · simp only [String.toList_append, String.toList_ofList, List.append_assoc, toList_point]
    refine Digits.append_ne_minus (fun c hc => hd c (List.mem_of_mem_take hc)) fun r' h => ?_
    exact absurd (List.cons_eq_cons.1 h).1 (by decide)
  · simp only [String.toList_append, String.toList_ofList, List.append_assoc, toList_zeroPoint]
    intro h
    exact absurd (List.cons_eq_cons.1 h).1 (by decide)
  · simp only [String.toList_append, String.toList_ofList, List.append_assoc, toList_exponent]
    refine Digits.append_ne_minus (fun c hc => hstripped c (List.mem_of_mem_take hc)) fun r' h => ?_
    by_cases hone : (x.digits.reverse.dropWhile (· = '0')).reverse.length ≤ 1
    · rw [if_pos hone, String.toList_empty, List.nil_append] at h
      refine Digits.append_ne_minus (fun c hc => hstripped c (List.mem_of_mem_drop hc))
        (fun r'' h' => ?_) h
      exact absurd (List.cons_eq_cons.1 h').1 (by decide)
    · rw [if_neg hone, toList_point] at h
      exact absurd (List.cons_eq_cons.1 h).1 (by decide)

/-- **The text of a number reads as the number.** -/
theorem readNumber_toText (x : JsNumber) : readNumber x.toText.toList = x.val := by
  rw [toText_eq, String.toList_append]
  split_ifs with hneg
  · rw [toList_minus, List.singleton_append, readNumber, readBody_unsigned, abs_of_neg hneg,
      neg_neg]
  · rw [String.toList_empty, List.nil_append, readNumber.eq_2 _ x.unsigned_ne_minus, readBody_unsigned, abs_of_nonneg (not_lt.1 hneg)]

/-- **The text of a number tells the number.** -/
theorem toText_injective : Function.Injective toText := by
  intro x y h
  have hval : x.val = y.val := by rw [← readNumber_toText, h, readNumber_toText]
  cases x
  cases y
  simpa using hval

theorem ofInt_injective : Function.Injective ofInt := by
  intro m n h
  have hval : (m : ℚ) = n := congrArg val h
  exact_mod_cast hval

end JsNumber

namespace Json

/-! ## Flat objects -/

/-- A number, a text or null. -/
inductive Scalar : Json → Prop
  | null : Scalar null
  | num (n : JsNumber) : Scalar (num n)
  | str (s : String) : Scalar (str s)

/-- What ends the value of a member. -/
def Ends (c : Char) : Prop := c = ',' ∨ c = '}'

theorem ends_not_numeric {c : Char} (hc : Ends c) : ¬ JsNumber.IsNumeric c := by
  rcases hc with rfl | rfl <;> decide

/-- **A value ends where the next comma or brace stands.** -/
theorem Scalar.append_inj {j j' : Json} {c c' : Char} {r r' : List Char} (hj : Scalar j)
    (hj' : Scalar j') (hc : Ends c) (hc' : Ends c')
    (h : j.stringify.toList ++ c :: r = j'.stringify.toList ++ c' :: r') :
    j = j' ∧ c :: r = c' :: r' := by
  -- no number begins like a null or like a text, and none contains an end
  have hnum : ∀ (n : JsNumber) (c : Char) (r : List Char) (x : Char) (t : List Char), Ends c →
      n.toText.toList ++ c :: r = x :: t → JsNumber.IsNumeric x ∨ Ends x := by
    intro n c r x t hc heq
    rcases hn : n.toText.toList with _ | ⟨y, ys⟩
    · rw [hn] at heq
      obtain ⟨rfl, -⟩ := List.cons_eq_cons.1 heq
      exact .inr hc
    · rw [hn] at heq
      obtain ⟨rfl, -⟩ := List.cons_eq_cons.1 heq
      exact .inl (n.isNumeric_toText (hn ▸ List.mem_cons_self))
  cases hj with
  | null =>
    cases hj' with
    | null => exact ⟨rfl, List.append_cancel_left h⟩
    | num n =>
      have := hnum n c' r' _ _ hc' h.symm
      exact absurd this (by unfold Ends; decide)
    | str s =>
      rw [stringify, stringify, toList_quote] at h
      exact absurd (List.cons_eq_cons.1 h).1 (by decide)
  | num n =>
    cases hj' with
    | null =>
      have := hnum n c r _ _ hc h
      exact absurd this (by unfold Ends; decide)
    | num n' =>
      obtain ⟨htext, hrest⟩ := append_stop_inj (p := Ends)
        (fun a ha he => ends_not_numeric he (n.isNumeric_toText ha))
        (fun a ha he => ends_not_numeric he (n'.isNumeric_toText ha)) hc hc' h
      exact ⟨congrArg Json.num (JsNumber.toText_injective (String.toList_inj.1 htext)), hrest⟩
    | str s =>
      rw [stringify, stringify, toList_quote] at h
      have := hnum n c r _ _ hc h
      exact absurd this (by unfold Ends; decide)
  | str s =>
    cases hj' with
    | null =>
      rw [stringify, stringify, toList_quote] at h
      exact absurd (List.cons_eq_cons.1 h).1 (by decide)
    | num n =>
      rw [stringify, stringify, toList_quote] at h
      have := hnum n c' r' _ _ hc' h.symm
      exact absurd this (by unfold Ends; decide)
    | str s' =>
      obtain ⟨rfl, hrest⟩ := quote_append_inj h
      exact ⟨rfl, hrest⟩

def memberText (m : String × Json) : List Char :=
  (quote m.1).toList ++ ':' :: m.2.stringify.toList

/-- What follows a member: the other members, each behind a comma, and the closing brace. -/
def membersText : List (String × Json) → List Char
  | [] => ['}']
  | m :: ms => ',' :: (memberText m ++ membersText ms)

theorem toList_intercalate_members (m : String × Json) (ms : List (String × Json)) :
    (String.intercalate "," (stringifyMembers (m :: ms))).toList ++ ['}'] =
      memberText m ++ membersText ms := by
  induction ms generalizing m with
  | nil => simp [stringifyMembers, memberText, membersText]
  | cons m' ms ih =>
    have htail := ih m'
    rw [membersText, ← htail]
    simp [stringifyMembers, memberText, String.toList_intercalate]

theorem toList_stringify_obj (m : String × Json) (ms : List (String × Json)) :
    (obj (m :: ms)).stringify.toList = '{' :: (memberText m ++ membersText ms) := by
  rw [← toList_intercalate_members]
  simp [stringify]

theorem membersText_ends (ms : List (String × Json)) :
    ∃ c r, membersText ms = c :: r ∧ Ends c := by
  cases ms with
  | nil => exact ⟨'}', [], rfl, .inr rfl⟩
  | cons m ms => exact ⟨',', _, rfl, .inl rfl⟩

/-- An object whose members are numbers, texts and nulls. -/
def Flat (ms : List (String × Json)) : Prop := ∀ m ∈ ms, Scalar m.2

theorem memberText_append_inj {m m' : String × Json} {ms ms' : List (String × Json)}
    (hm : Scalar m.2) (hm' : Scalar m'.2)
    (h : memberText m ++ membersText ms = memberText m' ++ membersText ms') :
    m = m' ∧ membersText ms = membersText ms' := by
  obtain ⟨c, r, hc, hce⟩ := membersText_ends ms
  obtain ⟨c', r', hc', hce'⟩ := membersText_ends ms'
  rw [memberText, memberText, hc, hc', List.append_assoc, List.append_assoc] at h
  obtain ⟨hkey, hrest⟩ := quote_append_inj h
  obtain ⟨hval, htail⟩ := hm.append_inj hm' hce hce' (List.cons_eq_cons.1 hrest).2
  exact ⟨Prod.ext hkey hval, by rw [hc, hc', htail]⟩

theorem membersText_injective {ms ms' : List (String × Json)} (hf : Flat ms) (hf' : Flat ms')
    (h : membersText ms = membersText ms') : ms = ms' := by
  induction ms generalizing ms' with
  | nil =>
    cases ms' with
    | nil => rfl
    | cons m' ms' => exact absurd (List.cons_eq_cons.1 h).1 (by decide)
  | cons m ms ih =>
    cases ms' with
    | nil => exact absurd (List.cons_eq_cons.1 h).1 (by decide)
    | cons m' ms' =>
      obtain ⟨rfl, hrest⟩ := memberText_append_inj (hf m (by simp)) (hf' m' (by simp))
        (List.cons_eq_cons.1 h).2
      rw [ih (fun x hx => hf x (by simp [hx])) (fun x hx => hf' x (by simp [hx])) hrest]

/-- **The text of a flat object tells its members.** -/
theorem flat_injective {ms ms' : List (String × Json)} (hf : Flat ms) (hf' : Flat ms')
    (h : (obj ms).stringify = (obj ms').stringify) : ms = ms' := by
  have hlist := congrArg String.toList h
  -- a member begins with a quote, so only the empty object closes at once
  have hquote : ∀ (m : String × Json) (t : List Char),
      (obj []).stringify.toList ≠ '{' :: (memberText m ++ t) := by
    intro m t heq
    rw [memberText, toList_quote] at heq
    exact absurd (List.cons_eq_cons.1 (List.cons_eq_cons.1 heq).2).1 (by decide)
  cases ms with
  | nil =>
    cases ms' with
    | nil => rfl
    | cons m' ms' =>
      rw [toList_stringify_obj] at hlist
      exact absurd hlist (hquote m' _)
  | cons m ms =>
    rw [toList_stringify_obj] at hlist
    cases ms' with
    | nil => exact absurd hlist.symm (hquote m _)
    | cons m' ms' =>
      rw [toList_stringify_obj] at hlist
      obtain ⟨rfl, hrest⟩ := memberText_append_inj (hf m (by simp)) (hf' m' (by simp))
        (List.cons_eq_cons.1 hlist).2
      rw [membersText_injective (fun x hx => hf x (by simp [hx]))
        (fun x hx => hf' x (by simp [hx])) hrest]

end Json

end ChronoSynth

import Mathlib.Algebra.Group.Nat.Defs
import Mathlib.Data.Nat.Notation
import Mathlib.Tactic.SplitIfs

/-!
# Instants in text

`UtcTime` is an instant of the years 0 to 9999 as a calendar shows it, `toISOString` its text, and `isDatetime` the
check of a date and time with an offset. What is printed passes the check (`isDatetime_toISOString`).
-/

namespace ChronoSynth

def IsLeap (year : ℕ) : Prop := year % 4 = 0 ∧ (year % 100 ≠ 0 ∨ year % 400 = 0)

instance (year : ℕ) : Decidable (IsLeap year) := inferInstanceAs (Decidable (_ ∧ _))

def daysInMonth (year month : ℕ) : ℕ :=
  if month = 2 then (if IsLeap year then 29 else 28) else if month ∈ [4, 6, 9, 11] then 30 else 31

structure UtcTime where
  year : ℕ
  month : ℕ
  day : ℕ
  hour : ℕ
  minute : ℕ
  second : ℕ
  milli : ℕ
  year_lt : year < 10000
  month_mem : 1 ≤ month ∧ month ≤ 12
  day_mem : 1 ≤ day ∧ day ≤ daysInMonth year month
  hour_lt : hour < 24
  minute_lt : minute < 60
  second_lt : second < 60
  milli_lt : milli < 1000

/-- The beginning of 2026. -/
def UtcTime.newYear : UtcTime :=
  ⟨2026, 1, 1, 0, 0, 0, 0, by decide, by decide, by decide, by decide, by decide, by decide, by decide⟩

/-- A number in a fixed number of digits. -/
def pad : ℕ → ℕ → List Char
  | 0, _ => []
  | w + 1, n => pad w (n / 10) ++ [Nat.digitChar (n % 10)]

/-- `Date.prototype.toISOString`. -/
def UtcTime.toISOString (t : UtcTime) : String :=
  String.ofList (pad 4 t.year ++ ['-'] ++ pad 2 t.month ++ ['-'] ++ pad 2 t.day ++ ['T'] ++ pad 2 t.hour ++ [':'] ++
    pad 2 t.minute ++ [':'] ++ pad 2 t.second ++ ['.'] ++ pad 3 t.milli ++ ['Z'])

/-! ## The check -/

def number? (cs : List Char) : Option ℕ :=
  if cs.all Char.isDigit then some (Nat.ofDigitChars 10 cs 0) else none

def below (n : ℕ) (cs : List Char) : Bool := (number? cs).any (· < n)

def isDate (year month day : List Char) : Bool :=
  match number? year, number? month, number? day with
  | some y, some m, some d => (1 ≤ m ∧ m ≤ 12) ∧ 1 ≤ d ∧ d ≤ daysInMonth y m
  | _, _, _ => false

def isZone : List Char → Bool
  | ['Z'] => true
  | [sign, a, b, ':', c, d] => (sign = '+' || sign = '-') && below 24 [a, b] && below 60 [c, d]
  | _ => false

/-- The seconds and their fraction, both of which may be left out, and the offset. -/
def isSeconds : List Char → Bool
  | ':' :: a :: b :: '.' :: r => below 60 [a, b] && r.takeWhile Char.isDigit ≠ [] && isZone (r.dropWhile Char.isDigit)
  | ':' :: a :: b :: r => below 60 [a, b] && isZone r
  | r => isZone r

/-- `z.string().datetime({ offset: true })`. -/
def isDatetime (s : String) : Bool :=
  match s.toList with
  | y₁ :: y₂ :: y₃ :: y₄ :: '-' :: m₁ :: m₂ :: '-' :: d₁ :: d₂ :: 'T' :: h₁ :: h₂ :: ':' :: n₁ :: n₂ :: r =>
    isDate [y₁, y₂, y₃, y₄] [m₁, m₂] [d₁, d₂] && below 24 [h₁, h₂] && below 60 [n₁, n₂] && isSeconds r
  | _ => false

/-! ## What is printed is read -/

theorem isDigit_digitChar {d : ℕ} (hd : d < 10) : (Nat.digitChar d).isDigit = true := by
  revert d
  decide

theorem all_isDigit_pad (w n : ℕ) : (pad w n).all Char.isDigit = true := by
  induction w generalizing n with
  | zero => rfl
  | succ w ih => simp [pad, ih, isDigit_digitChar (Nat.mod_lt n (by decide))]

theorem ofDigitChars_pad {w n : ℕ} (hn : n < 10 ^ w) : Nat.ofDigitChars 10 (pad w n) 0 = n := by
  induction w generalizing n with
  | zero => exact (Nat.lt_one_iff.1 hn).symm
  | succ w ih =>
    have hdiv : n / 10 < 10 ^ w := by
      rw [Nat.pow_succ] at hn
      omega
    rw [pad, Nat.ofDigitChars_append, ih hdiv, Nat.ofDigitChars_cons_digitChar_of_lt_ten (Nat.mod_lt n (by decide)),
      Nat.ofDigitChars_nil]
    omega

@[simp] theorem number?_pad {w n : ℕ} (hn : n < 10 ^ w) : number? (pad w n) = some n := by
  rw [number?, if_pos (all_isDigit_pad w n), ofDigitChars_pad hn]

theorem below_pad {w n k : ℕ} (hn : n < 10 ^ w) (hk : n < k) : below k (pad w n) = true := by
  simp [below, hn, hk]

namespace UtcTime

variable (t : UtcTime)

theorem month_lt : t.month < 10 ^ 2 := by
  have := t.month_mem
  omega

theorem day_lt : t.day < 10 ^ 2 := by
  have hdays : daysInMonth t.year t.month ≤ 31 := by
    unfold daysInMonth
    split_ifs <;> omega
  have := t.day_mem
  omega

theorem isDate_pad : isDate (pad 4 t.year) (pad 2 t.month) (pad 2 t.day) = true := by
  rw [isDate, number?_pad t.year_lt, number?_pad t.month_lt, number?_pad t.day_lt]
  exact decide_eq_true ⟨t.month_mem, t.day_mem⟩

theorem isSeconds_pad : isSeconds (':' :: (pad 2 t.second ++ '.' :: (pad 3 t.milli ++ ['Z']))) = true := by
  have hsecond : below 60 (pad 2 t.second) = true :=
    below_pad (Nat.lt_trans t.second_lt (by decide)) t.second_lt
  have hdigits := all_isDigit_pad 3 t.milli
  have htake : (pad 3 t.milli ++ ['Z']).takeWhile Char.isDigit = pad 3 t.milli := by
    rw [List.takeWhile_append_of_pos (by simpa using hdigits)]
    simp [show Char.isDigit 'Z' = false by decide]
  have hdrop : (pad 3 t.milli ++ ['Z']).dropWhile Char.isDigit = ['Z'] := by
    rw [List.dropWhile_append_of_pos (by simpa using hdigits)]
    simp [show Char.isDigit 'Z' = false by decide]
  have hne : pad 3 t.milli ≠ [] := by simp [pad]
  have htwo : pad 2 t.second = [Nat.digitChar (t.second / 10 % 10), Nat.digitChar (t.second % 10)] := rfl
  rw [htwo] at hsecond ⊢
  simp only [List.cons_append, List.nil_append, isSeconds, hsecond, htake, hdrop]
  simp [hne, isZone]

/-- **What is printed passes the check.** -/
theorem isDatetime_toISOString : isDatetime t.toISOString = true := by
  have hdate := t.isDate_pad
  have hhour : below 24 (pad 2 t.hour) = true := below_pad (Nat.lt_trans t.hour_lt (by decide)) t.hour_lt
  have hminute : below 60 (pad 2 t.minute) = true :=
    below_pad (Nat.lt_trans t.minute_lt (by decide)) t.minute_lt
  have hsecond := t.isSeconds_pad
  simp only [pad, List.nil_append, List.cons_append] at hdate hhour hminute hsecond
  simp only [isDatetime, toISOString, String.toList_ofList, pad, List.nil_append, List.cons_append, hdate, hhour,
    hminute, hsecond, Bool.and_self]

end UtcTime

end ChronoSynth

import Mathlib.Data.Rat.Floor
import Mathlib.Data.Rat.Lemmas
import Mathlib.Data.List.Basic
import Mathlib.Tactic.NormNum

/-!
# Numbers and JSON text of a JavaScript program

* `JsNumber` — the finite numbers, each taken as the decimal the language prints for it, so that
  storing one and reading it back gives the same number and the same text. Arithmetic on them is
  exact. `JsNumber.toText` is the language's `Number::toString`.
* `mathRound` — `Math.round`: to the nearest integer, halves up.
* `Json` and `Json.stringify` — a value and its `JSON.stringify` text; the members of an object
  stand in the order the language enumerates them.
* `append_colon_inj` — texts that are joined by a colon can be told apart.
-/

namespace ChronoSynth

/-- `Math.round`: the nearest integer, halves towards positive infinity. -/
def mathRound (x : ℚ) : ℤ := ⌊x + 1 / 2⌋

@[simp] theorem mathRound_intCast (n : ℤ) : mathRound n = n := by
  rw [mathRound, Int.floor_eq_iff]
  constructor <;> norm_num

/-- A finite number: a rational with a finite decimal expansion. -/
structure JsNumber where
  /-- Its value. -/
  val : ℚ
  /-- Some power of ten clears its denominator. -/
  decimal : ∃ n : ℕ, val.den ∣ 10 ^ n
  deriving DecidableEq

namespace JsNumber

/-- An integer as a number. -/
def ofInt (n : ℤ) : JsNumber := ⟨n, 0, by simp⟩

instance : Coe ℤ JsNumber := ⟨ofInt⟩

/-- A number of hundredths, `k / 100`. -/
def ofHundredths (k : ℤ) : JsNumber where
  val := k / 100
  decimal := by
    refine ⟨2, ?_⟩
    have h := Rat.den_dvd k 100
    exact_mod_cast h

/-- `Math.round(x * 100) / 100`. -/
def roundHundredths (x : JsNumber) : JsNumber := ofHundredths (mathRound (x.val * 100))

def scale (x : JsNumber) : ℕ := Nat.find x.decimal

/-- The digits of the number with the decimal point left out. -/
def digits (x : JsNumber) : List Char :=
  (toString (x.val.num.natAbs * (10 ^ x.scale / x.val.den))).toList

/-- `Number::toString`: positional with up to 21 digits before the point and up to six zeros after
it, exponent notation beyond. -/
def toText (x : JsNumber) : String :=
  let ds := x.digits
  let n : ℤ := ds.length - x.scale
  let sign := if x.val < 0 then "-" else ""
  let body :=
    if x.scale = 0 ∧ n ≤ 21 then String.ofList ds
    else if 0 < n ∧ n ≤ 21 then
      String.ofList (ds.take n.toNat) ++ "." ++ String.ofList (ds.drop n.toNat)
    else if -6 < n ∧ n ≤ 0 then
      "0." ++ String.ofList (List.replicate n.natAbs '0') ++ String.ofList ds
    else
      let s := (ds.reverse.dropWhile (· = '0')).reverse
      let point := if s.length ≤ 1 then "" else "."
      let e := n - 1
      String.ofList (s.take 1) ++ point ++ String.ofList (s.drop 1) ++ "e" ++
        (if e < 0 then "-" else "+") ++ toString e.natAbs
  sign ++ body

end JsNumber

/-- A JSON value. -/
inductive Json
  | null
  | bool (b : Bool)
  | num (n : JsNumber)
  | str (s : String)
  | arr (elems : List Json)
  | obj (members : List (String × Json))

namespace Json

def escapeChar (c : Char) : String :=
  if c = '"' then "\\\""
  else if c = '\\' then "\\\\"
  else if c.toNat = 8 then "\\b"
  else if c.toNat = 9 then "\\t"
  else if c.toNat = 10 then "\\n"
  else if c.toNat = 12 then "\\f"
  else if c.toNat = 13 then "\\r"
  else if c.toNat < 32 then
    "\\u00" ++ (if c.toNat < 16 then "0" else "1") ++ String.singleton (Nat.digitChar (c.toNat % 16))
  else String.singleton c

def quote (s : String) : String := "\"" ++ String.join (s.toList.map escapeChar) ++ "\""

mutual

/-- `JSON.stringify` without indentation. -/
def stringify : Json → String
  | null => "null"
  | bool b => if b then "true" else "false"
  | num n => n.toText
  | str s => quote s
  | arr elems => "[" ++ String.intercalate "," (stringifyElems elems) ++ "]"
  | obj members => "\x7b" ++ String.intercalate "," (stringifyMembers members) ++ "\x7d"

/-- The texts of the elements of an array. -/
def stringifyElems : List Json → List String
  | [] => []
  | j :: js => stringify j :: stringifyElems js

/-- The texts of the members of an object. -/
def stringifyMembers : List (String × Json) → List String
  | [] => []
  | (k, j) :: ms => (quote k ++ ":" ++ stringify j) :: stringifyMembers ms

end

end Json

/-! ## Joined fields -/

theorem notMem_repr {c : Char} (hc : ¬ c.isDigit) (n : ℕ) : c ∉ (Nat.repr n).toList := by
  intro h
  rw [Nat.toList_repr] at h
  exact hc (Nat.isDigit_of_mem_toDigits (by decide) (by decide) h)

theorem toList_toString_negSucc (n : ℕ) :
    (toString (Int.negSucc n)).toList = '-' :: (Nat.repr (n + 1)).toList := by
  change ("-" ++ Nat.repr (n + 1)).toList = _
  rw [String.toList_append]
  rfl

theorem colon_notMem_toString (n : ℤ) : ':' ∉ (toString n).toList := by
  cases n with
  | ofNat n => exact notMem_repr (by decide) n
  | negSucc n =>
    rw [toList_toString_negSucc, List.mem_cons]
    rintro (h | h)
    · cases h
    · exact notMem_repr (by decide) _ h

/-- The text of an integer tells the integer. -/
theorem toString_int_injective : Function.Injective (toString : ℤ → String) := by
  have hnat : ∀ m n : ℕ, (Nat.repr m).toList = (Nat.repr n).toList → m = n := by
    intro m n h
    rw [Nat.toList_repr, Nat.toList_repr] at h
    simpa using congrArg (Nat.ofDigitChars 10 · 0) h
  intro m n h
  have hlist := congrArg String.toList h
  cases m with
  | ofNat m =>
    cases n with
    | ofNat n => exact congrArg Int.ofNat (hnat m n hlist)
    | negSucc n =>
      rw [toList_toString_negSucc] at hlist
      exact (notMem_repr (c := '-') (by decide) m (hlist ▸ List.mem_cons_self)).elim
  | negSucc m =>
    rw [toList_toString_negSucc] at hlist
    cases n with
    | ofNat n => exact (notMem_repr (c := '-') (by decide) n (hlist ▸ List.mem_cons_self)).elim
    | negSucc n =>
      rw [toList_toString_negSucc] at hlist
      have hmn := hnat _ _ (List.cons_eq_cons.1 hlist).2
      rw [Nat.succ_injective hmn]

theorem toString_nat_injective : Function.Injective (toString : ℕ → String) :=
  fun _ _ h => Int.ofNat.inj (toString_int_injective h)

/-- What stands before the first separator, and what after it. -/
theorem append_cons_inj {α : Type*} {c : α} {l l' r r' : List α} (h : c ∉ l) (h' : c ∉ l') :
    l ++ c :: r = l' ++ c :: r' ↔ l = l' ∧ r = r' := by
  induction l generalizing l' with
  | nil =>
    cases l' with
    | nil => simp
    | cons a' l' => exact iff_of_false (fun e => h' (by simp_all)) nofun
  | cons a l ih =>
    cases l' with
    | nil => exact iff_of_false (fun e => h (by simp_all)) nofun
    | cons a' l' =>
      have hl := List.not_mem_of_not_mem_cons h
      have hl' := List.not_mem_of_not_mem_cons h'
      rw [List.cons_append, List.cons_append, List.cons_eq_cons, ih hl hl', List.cons_eq_cons,
        and_assoc]

/-- A colon separates two texts if the first has none. -/
theorem append_colon_inj {a a' b b' : String} (h : ':' ∉ a.toList) (h' : ':' ∉ a'.toList) :
    a ++ ":" ++ b = a' ++ ":" ++ b' ↔ a = a' ∧ b = b' := by
  have hlist : ∀ a b : String, (a ++ ":" ++ b).toList = a.toList ++ ':' :: b.toList := by
    intro a b
    simp
  rw [← String.toList_inj, hlist, hlist, append_cons_inj h h', String.toList_inj, String.toList_inj]

/-- What stands between the colons of a text. -/
def pieces (s : String) : List (List Char) := s.toList.splitOn ':'

theorem pieces_append (a b : String) : pieces (a ++ ":" ++ b) = pieces a ++ pieces b := by
  have hlist : (a ++ ":" ++ b).toList = a.toList ++ ':' :: b.toList := by simp
  rw [pieces, hlist, List.splitOn_append_cons_self, pieces, pieces]

/-- A text is told by what stands between its colons. -/
theorem pieces_inj {a b : String} : pieces a = pieces b ↔ a = b := by
  refine ⟨fun h => ?_, fun h => h ▸ rfl⟩
  have hjoin := congrArg (List.intercalate [':']) h
  rw [pieces, pieces, List.intercalate_splitOn, List.intercalate_splitOn] at hjoin
  exact String.toList_inj.1 hjoin

end ChronoSynth

import ChronoSynth.Lib.JsText

/-!
# JSON values as a program reads them

`JsFloat` is a number as a program holds it, finite or not; what is not finite becomes `null` in JSON. The two zeros
are one here. `Json.text` is a value's `String(value)`, and the other functions read fields of a value of which
nothing is known; `required` and `ensure` are the checks that throw.
-/

namespace ChronoSynth

/-- A number. -/
inductive JsFloat
  | finite (x : JsNumber)
  | nan
  | infinite (negative : Bool)
  deriving DecidableEq

namespace JsFloat

def text : JsFloat → String
  | finite x => x.toText
  | nan => "NaN"
  | infinite negative => if negative then "-Infinity" else "Infinity"

def toJson : JsFloat → Json
  | finite x => .num x
  | nan | infinite _ => .null

def IsFinite : JsFloat → Prop
  | finite _ => True
  | nan | infinite _ => False

instance : DecidablePred IsFinite
  | finite _ => inferInstanceAs (Decidable True)
  | nan | infinite _ => inferInstanceAs (Decidable False)

/-- A finite number within bounds. -/
def InRange (lo hi : ℚ) : JsFloat → Prop
  | finite x => lo ≤ x.val ∧ x.val ≤ hi
  | nan | infinite _ => False

instance (lo hi : ℚ) : DecidablePred (InRange lo hi)
  | finite x => inferInstanceAs (Decidable (lo ≤ x.val ∧ x.val ≤ hi))
  | nan | infinite _ => inferInstanceAs (Decidable False)

end JsFloat

/-! ## The text of a value -/

mutual

/-- `String(value)`. -/
def Json.text : Json → String
  | .null => "null"
  | .bool b => if b then "true" else "false"
  | .num n => n.toText
  | .str s => s
  | .arr elems => String.intercalate "," (elemTexts elems)
  | .obj _ => "[object Object]"

/-- The texts that an array's elements are joined from. -/
def elemTexts : List Json → List String
  | [] => []
  | .null :: elems => "" :: elemTexts elems
  | elem :: elems => Json.text elem :: elemTexts elems

end

namespace Json

/-- A member of an object; other values have none of the names that are asked for here. -/
def get? (name : String) : Json → Option Json
  | obj members => (members.find? fun m => m.1 = name).map Prod.snd
  | _ => none

/-- `typeof value === 'object'`, and not `null`. -/
def isObject : Json → Bool
  | obj _ | arr _ => true
  | null | bool _ | num _ | str _ => false

def isNull : Json → Bool
  | null => true
  | bool _ | num _ | str _ | arr _ | obj _ => false

def str? : Json → Option String
  | str s => some s
  | _ => none

def bool? : Json → Option Bool
  | bool b => some b
  | _ => none

def num? : Json → Option JsNumber
  | num x => some x
  | _ => none

def arr? : Json → Option (List Json)
  | arr elems => some elems
  | _ => none

/-- A number that is an integer. -/
def int? : Json → Option ℤ
  | num x => if x.val.den = 1 then some x.val.num else none
  | _ => none

/-- An object or array. -/
def object? (j : Json) : Option Json := if j.isObject then some j else none

@[simp] theorem int?_num_ofInt (n : ℤ) : (Json.num (JsNumber.ofInt n)).int? = some n := by
  simp [int?, JsNumber.ofInt]

theorem num?_toJson {x : JsFloat} {n : JsNumber} : x.toJson.num? = some n ↔ x = .finite n := by
  cases x with
  | finite x => simp [JsFloat.toJson, num?]
  | nan | infinite negative => simp [JsFloat.toJson, num?]

/-- `schemaVersion ?? 1` of a serialised state. -/
def schemaVersion (j : Json) : Json :=
  match j.get? "schemaVersion" with
  | none | some null => num (JsNumber.ofInt 1)
  | some version => version

end Json

/-! ## Checks -/

section
variable {α β ε : Type}

/-- A field that has to be of some kind. -/
def required (value : Option α) (error : ε) : Except ε α :=
  match value with
  | none => .error error
  | some a => .ok a

/-- A condition that has to hold. -/
def ensure (p : Prop) [Decidable p] (error : ε) : Except ε Unit := if p then .ok () else .error error

@[simp] theorem required_ok {value : Option α} {error : ε} {a : α} : required value error = .ok a ↔ value = some a := by
  cases value with
  | none => exact iff_of_false nofun nofun
  | some b => exact ⟨fun h => congrArg some (Except.ok.inj h), fun h => congrArg Except.ok (Option.some.inj h)⟩

@[simp] theorem ensure_ok {p : Prop} [Decidable p] {error : ε} {u : Unit} : ensure p error = .ok u ↔ p := by
  by_cases hp : p
  · rw [ensure, if_pos hp]
    exact iff_of_true rfl hp
  · rw [ensure, if_neg hp]
    exact iff_of_false nofun hp

theorem bind_ok {x : Except ε α} {f : α → Except ε β} {b : β} : x >>= f = .ok b ↔ ∃ a, x = .ok a ∧ f a = .ok b := by
  cases x with
  | error e => exact iff_of_false nofun fun ⟨_, h, _⟩ => nomatch h
  | ok a => exact ⟨fun h => ⟨a, rfl, h⟩, fun ⟨a', h, hf⟩ => Except.ok.inj h ▸ hf⟩

end

end ChronoSynth

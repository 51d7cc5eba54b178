import Mathlib.Data.List.Basic
import ChronoSynth.Lib.JsonValue

/-!
# Schemas of JSON values

The parts of which a schema is made: objects with no other members than those named, words of an enumeration, lists
of what an element's schema reads, and members that may be left out. What a value is printed as is read back, each
part by its lemma.
-/

namespace ChronoSynth

/-- An enumeration whose values are words. -/
class Worded (α : Type) where
  words : List α
  word : α → String
  find_word : ∀ a, words.find? (word · = word a) = some a

export Worded (word)

theorem Worded.word_injective {α : Type} [Worded α] : Function.Injective (word : α → String) := by
  intro a b h
  have ha := Worded.find_word a
  rw [h, Worded.find_word b] at ha
  exact (Option.some.inj ha).symm

namespace Json

section
variable {α : Type}

/-- An object that has no other members than these. -/
def strict? (names : List String) : Json → Option Unit
  | obj members => if ∀ m ∈ members, m.1 ∈ names then some () else none
  | null | bool _ | num _ | str _ | arr _ => none

/-- A word of an enumeration. -/
def word? (α : Type) [Worded α] (j : Json) : Option α :=
  j.str?.bind fun s => Worded.words.find? (word · = s)

/-- A list of what `read` reads. -/
def list? (read : Json → Option α) (j : Json) : Option (List α) := j.arr?.bind (·.mapM read)

/-- A member that has to be there. -/
def field? (name : String) (read : Json → Option α) (j : Json) : Option α := (j.get? name).bind read

/-- A member that may be left out. -/
def optional? (name : String) (read : Json → Option α) (j : Json) : Option (Option α) :=
  match j.get? name with
  | none => some none
  | some value => (read value).map some

/-- A member that is written if there is a value. -/
def optionalMember (name : String) : Option Json → List (String × Json)
  | none => []
  | some value => [(name, value)]

end

@[simp] theorem str?_str (s : String) : (str s).str? = some s := rfl

@[simp] theorem bool?_bool (b : Bool) : (bool b).bool? = some b := rfl

@[simp] theorem word?_word {α : Type} [Worded α] (a : α) : word? α (str (word a)) = some a :=
  Worded.find_word a

theorem mapM_map {α β : Type} {read : β → Option α} {print : α → β} {as : List α} (h : ∀ a ∈ as, read (print a) = some a) :
    (as.map print).mapM read = some as := by
  induction as with
  | nil => rfl
  | cons a as ih =>
    obtain ⟨ha, has⟩ := List.forall_mem_cons.1 h
    rw [List.map_cons, List.mapM_cons, ha, ih has]
    rfl

theorem list?_arr {α : Type} {read : Json → Option α} {print : α → Json} {as : List α}
    (h : ∀ a ∈ as, read (print a) = some a) : (arr (as.map print)).list? read = some as :=
  mapM_map h

theorem get?_cons (name name' : String) (value : Json) (members : List (String × Json)) :
    (obj ((name, value) :: members)).get? name' = if name = name' then some value else (obj members).get? name' := by
  by_cases h : name = name'
  · simp [get?, h]
  · simp [get?, h]

@[simp] theorem get?_nil (name : String) : (obj []).get? name = none := rfl

theorem strict?_obj {names : List String} {members : List (String × Json)} (h : ∀ m ∈ members, m.1 ∈ names) :
    (obj members).strict? names = some () :=
  if_pos h

theorem mem_optionalMember {name : String} {value : Option Json} {m : String × Json}
    (hm : m ∈ optionalMember name value) : m.1 = name := by
  cases value with
  | none => cases hm
  | some value => exact congrArg Prod.fst (List.mem_singleton.1 hm)

theorem optionalMember_inj {name : String} {value value' : Option Json} :
    optionalMember name value = optionalMember name value' ↔ value = value' := by
  cases value with
  | none => cases value' <;> simp [optionalMember]
  | some value => cases value' <;> simp [optionalMember]

end Json

end ChronoSynth

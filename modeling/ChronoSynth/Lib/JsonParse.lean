import Mathlib.Logic.Function.Basic
import ChronoSynth.Lib.JsonNested
import ChronoSynth.Lib.JsonValue

/-!
# Reading a JSON text

`Json.Made` are the values of a program: an object has each name once, and enumerates names that are array indices
first and in ascending order. A `JsonParse` is `JSON.parse`: what it reads are such values, and the text of such a
value is read as the value. `JsonParse.inverse` reads these texts and no others.
-/

namespace ChronoSynth

namespace Json

def isIndex (name : String) : Bool :=
  name.toList.all Char.isDigit && name ≠ "" && (name.toList.head? ≠ some '0' || name = "0") &&
    name.toList.foldl (fun n c => 10 * n + (c.toNat - 48)) 0 < 2 ^ 32 - 1

theorem toList_bytes (s : String) : s.toByteArray.data.toList = s.toList.flatMap String.utf8EncodeChar := by
  rw [← String.utf8Encode_toList, List.utf8Encode]
  simp

theorem isIndex_of_byte {name : String}
    (h : ∀ b ∈ name.toByteArray.data.toList.head?, ¬ (48 ≤ b.toNat ∧ b.toNat ≤ 57)) : isIndex name = false := by
  rw [toList_bytes] at h
  refine Bool.eq_false_iff.2 fun hindex => ?_
  simp only [isIndex, Bool.and_eq_true, decide_eq_true_eq, List.all_eq_true] at hindex
  obtain ⟨⟨⟨hdigits, hne⟩, -⟩, -⟩ := hindex
  cases hlist : name.toList with
  | nil => exact hne (String.toList_eq_nil_iff.1 hlist)
  | cons c cs =>
    have hdigit : 48 ≤ c.toNat ∧ c.toNat ≤ 57 := by
      simpa [Char.isDigit, UInt32.le_iff_toNat_le] using hdigits c (by simp [hlist])
    have hsize : c.utf8Size = 1 := by
      simp only [Char.utf8Size_eq_one_iff, UInt32.le_iff_toNat_le]
      exact hdigit.2.trans (by decide)
    have hval : c.val.toUInt8.toNat = c.toNat := by
      rw [UInt32.toNat_toUInt8]
      exact Nat.mod_eq_of_lt (by have := hdigit.2; simp only [Char.toNat] at this; omega)
    rw [hlist, List.flatMap_cons, String.utf8EncodeChar_eq_singleton hsize] at h
    refine h _ rfl ?_
    rwa [hval]

/-- The first name may stand before the second in an object. -/
def Before (name name' : String) : Prop :=
  name ≠ name' ∧ (isIndex name' = true → isIndex name = true ∧
    name.toList.foldl (fun n c => 10 * n + (c.toNat - 48)) 0 < name'.toList.foldl (fun n c => 10 * n + (c.toNat - 48)) 0)

instance (name name' : String) : Decidable (Before name name') := inferInstanceAs (Decidable (_ ∧ (_ → _)))

mutual

/-- A value of a program. -/
def Made : Json → Prop
  | null | bool _ | num _ | str _ => True
  | arr elems => MadeElems elems
  | obj members => (members.map Prod.fst).Pairwise Before ∧ MadeMembers members

def MadeElems : List Json → Prop
  | [] => True
  | j :: js => Made j ∧ MadeElems js

def MadeMembers : List (String × Json) → Prop
  | [] => True
  | (_, j) :: ms => Made j ∧ MadeMembers ms

end

attribute [local simp] Made MadeElems MadeMembers

@[simp] theorem made_str (s : String) : (str s).Made := by simp

@[simp] theorem made_bool (b : Bool) : (bool b).Made := by simp

@[simp] theorem made_num (n : JsNumber) : (num n).Made := by simp

@[simp] theorem made_null : null.Made := by simp

theorem madeElems_iff {js : List Json} : MadeElems js ↔ ∀ j ∈ js, j.Made := by
  induction js with
  | nil => simp [MadeElems]
  | cons j js ih => simp [MadeElems, ih]

theorem madeMembers_iff {ms : List (String × Json)} : MadeMembers ms ↔ ∀ m ∈ ms, m.2.Made := by
  induction ms with
  | nil => simp [MadeMembers]
  | cons m ms ih => simp [MadeMembers, ih]

theorem made_arr {js : List Json} : (arr js).Made ↔ ∀ j ∈ js, j.Made := by rw [Made, madeElems_iff]

theorem made_obj {ms : List (String × Json)} :
    (obj ms).Made ↔ (ms.map Prod.fst).Pairwise Before ∧ ∀ m ∈ ms, m.2.Made := by rw [Made, madeMembers_iff]

/-- What a value's member is read as. -/
theorem Made.get? {j m : Json} {name : String} (hj : j.Made) (hm : j.get? name = some m) : m.Made := by
  cases j with
  | obj members =>
    obtain ⟨member, hmem, rfl⟩ := Option.map_eq_some_iff.1 hm
    exact (made_obj.1 hj).2 member (List.mem_of_find?_eq_some hmem)
  | null | bool _ | num _ | str _ | arr _ => cases hm

/-- A member of a value is found by its name. -/
theorem Made.get?_of_mem {ms : List (String × Json)} (h : (obj ms).Made) {m : String × Json} (hm : m ∈ ms) :
    (obj ms).get? m.1 = some m.2 := by
  have hnames := (made_obj.1 h).1
  clear h
  induction ms with
  | nil => cases hm
  | cons m' ms ih =>
    rw [List.map_cons, List.pairwise_cons] at hnames
    rcases List.mem_cons.1 hm with rfl | hm
    · simp [Json.get?]
    · have hne : m'.1 ≠ m.1 := (hnames.1 m.1 (List.mem_map_of_mem hm)).1
      have hrest := ih hm hnames.2
      simp only [Json.get?, List.find?_cons, hne, decide_false] at hrest ⊢
      exact hrest

end Json

/-- `JSON.parse`; it throws where there is no value. -/
structure JsonParse where
  parse : String → Option Json
  made_of_parse : ∀ {s j}, parse s = some j → j.Made
  parse_stringify : ∀ {j : Json}, j.Made → parse j.stringify = some j

open Classical in
/-- It reads what `JSON.stringify` writes, and nothing else. -/
noncomputable def JsonParse.inverse : JsonParse where
  parse s := if h : ∃ j : Json, j.Made ∧ j.stringify = s then some h.choose else none
  made_of_parse := by
    intro s j h
    split_ifs at h with hex
    rw [← Option.some.inj h]
    exact hex.choose_spec.1
  parse_stringify := by
    intro j hj
    have hex : ∃ j' : Json, j'.Made ∧ j'.stringify = j.stringify := ⟨j, hj, rfl⟩
    rw [dif_pos hex, Json.stringify_injective hex.choose_spec.2]

end ChronoSynth

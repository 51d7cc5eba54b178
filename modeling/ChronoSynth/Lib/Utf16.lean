import Mathlib.Data.Finset.Card
import Mathlib.Data.List.DropRight
import Mathlib.Data.List.Infix
import Mathlib.Order.Interval.Finset.Nat

/-!
# Texts as code units

A string of JavaScript is a sequence of UTF-16 code units: `length`, `slice` and `includes` count and compare
these, so a text may be cut within a character.

* `Text` and `units` — a text, and the one a literal stands for;
* `isBlank`, `trim`, `collapse` — `\s`, `trim()` and `replace(/\s+/g, ' ')`;
* `LowerCasing` — `toLowerCase()`. Its tables are left open. What is used of them is that the case of a
  character does not depend on what stands beyond white space, an ideograph or a full stop.

`LowerCasing.folded` is lower case with single blanks; `folded_cons` says when the parts of a text can be folded apart.
-/

namespace ChronoSynth

/-- A string: its code units. -/
abbrev Text := List ℕ

namespace Text

/-- The code units of a character. -/
def ofChar (c : Char) : Text :=
  let n := c.val.toNat
  if n < 0x10000 then [n]
  else [0xD800 + (n - 0x10000) / 0x400, 0xDC00 + (n - 0x10000) % 0x400]

end Text

/-- The code units of a literal. -/
def units (s : String) : Text := s.toList.flatMap Text.ofChar

namespace Text

/-- `\s`. -/
def isBlank (c : ℕ) : Bool :=
  c ∈ [0x9, 0xA, 0xB, 0xC, 0xD, 0x20, 0xA0, 0x1680, 0x2028, 0x2029, 0x202F, 0x205F, 0x3000, 0xFEFF] ∨
    0x2000 ≤ c ∧ c ≤ 0x200A

/-- `trim()`. -/
def trim (s : Text) : Text := (s.dropWhile isBlank).rdropWhile isBlank

/-- `replace(/\s+/g, ' ')`; the flag says that a run of blanks has just been replaced. -/
def collapse : Bool → Text → Text
  | _, [] => []
  | inBlank, c :: s =>
    if isBlank c then (if inBlank then collapse true s else 0x20 :: collapse true s) else c :: collapse false s

/-- `join`. -/
def join (sep : Text) (parts : List Text) : Text := List.intercalate sep parts

variable {s t w : Text} {c d : ℕ} {b : Bool}

/-! ## Trimming -/

theorem trim_eq_self (hc : ∀ h : 0 < s.length, ¬ isBlank s[0]) (hd : ∀ h : s ≠ [], ¬ isBlank (s.getLast h)) :
    trim s = s := by
  rw [trim, List.dropWhile_eq_self_iff.2 hc, List.rdropWhile_eq_self_iff.2 hd]

theorem trim_append_append {u : Text} (hs : s ≠ []) (ht : t ≠ []) (hc : ∀ h : 0 < s.length, ¬ isBlank s[0])
    (hd : ∀ h : t ≠ [], ¬ isBlank (t.getLast h)) : trim (s ++ u ++ t) = s ++ u ++ t := by
  have hpos : 0 < s.length := List.length_pos_iff.2 hs
  refine trim_eq_self (fun h => ?_) fun h => ?_
  · rw [List.getElem_append_left (by simp; omega), List.getElem_append_left hpos]
    exact hc hpos
  · rw [List.getLast_append_of_ne_nil _ ht]
    exact hd ht

theorem trim_trim : trim (trim s) = trim s := by
  have hstart : (trim s).dropWhile isBlank = trim s := by
    refine List.dropWhile_eq_self_iff.2 fun h => ?_
    -- what is left begins as the text did after its leading blanks
    have hpre : trim s <+: s.dropWhile isBlank := List.rdropWhile_prefix _ _
    have hlen := hpre.length_le
    have h0 : (trim s)[0] = (s.dropWhile isBlank)[0] := hpre.getElem h
    rw [h0]
    exact List.dropWhile_get_zero_not isBlank s (by omega)
  rw [trim, hstart, trim, List.rdropWhile_idempotent]

theorem trim_append_of_notBlank (ht : t ≠ []) (h : ∀ c ∈ t, ¬ isBlank c) :
    trim (s ++ t) = s.dropWhile isBlank ++ t := by
  obtain ⟨u, d, rfl⟩ := (List.eq_nil_or_concat' t).resolve_left ht
  have hstart : (s ++ (u ++ [d])).dropWhile isBlank = s.dropWhile isBlank ++ (u ++ [d]) := by
    rw [List.dropWhile_append]
    split
    next hs =>
      have hnil : s.dropWhile isBlank = [] := by simpa using hs
      rw [hnil, List.nil_append]
      refine List.dropWhile_eq_self_iff.2 fun hl => ?_
      exact h _ (List.getElem_mem hl)
    next => rfl
  rw [trim, hstart, ← List.append_assoc, List.rdropWhile_concat_neg _ _ _ (h d (by simp))]

theorem dropWhile_append_cons {u : Text} (hc : isBlank c = false) :
    (u ++ c :: t).dropWhile isBlank = u.dropWhile isBlank ++ c :: t := by
  induction u with
  | nil => exact List.dropWhile_cons_of_neg (by simp [hc])
  | cons d u ih =>
    rw [List.cons_append, List.dropWhile_cons, List.dropWhile_cons]
    split
    · exact ih
    · rfl

theorem trim_surrounded {u v : Text} (hc : isBlank c = false) (hd : isBlank d = false) :
    trim (u ++ c :: (w ++ d :: v)) = u.dropWhile isBlank ++ c :: (w ++ d :: v.rdropWhile isBlank) := by
  have hend : ∀ s : Text, (s ++ d :: v).rdropWhile isBlank = s ++ d :: v.rdropWhile isBlank := fun s => by
    have hrev : (s ++ d :: v).reverse = v.reverse ++ d :: s.reverse := by simp
    rw [List.rdropWhile, hrev, dropWhile_append_cons hd, List.rdropWhile]
    simp
  have hassoc : u.dropWhile isBlank ++ c :: (w ++ d :: v) = (u.dropWhile isBlank ++ c :: w) ++ d :: v := by simp
  rw [trim, dropWhile_append_cons hc, hassoc, hend]
  simp

/-! ## Joining -/

theorem join_cons {sep a : Text} {l : List Text} (h : l ≠ []) : join sep (a :: l) = a ++ sep ++ join sep l := by
  obtain ⟨b, l, rfl⟩ := List.exists_cons_of_ne_nil h
  simp [join, List.intercalate]

@[simp] theorem join_singleton {sep a : Text} : join sep [a] = a := by
  simp [join, List.intercalate]

/-! ## Blanks -/

def endsBlank : Bool → Text → Bool
  | b, [] => b
  | _, c :: s => endsBlank (isBlank c) s

theorem collapse_append : collapse b (s ++ t) = collapse b s ++ collapse (endsBlank b s) t := by
  induction s generalizing b with
  | nil => rfl
  | cons c s ih =>
    rw [List.cons_append, collapse, collapse, endsBlank]
    split
    next hc =>
      rw [hc, ih]
      cases b <;> rfl
    next hc =>
      rw [Bool.not_eq_true] at hc
      rw [hc, ih]
      rfl

theorem collapse_cons (hc : isBlank c = false) :
    collapse b (s ++ c :: t) = collapse b s ++ c :: collapse false t := by
  rw [collapse_append, collapse, if_neg (by simp [hc])]

end Text

/-! ## Lower case -/

/-- The ideographs of the block CJK Unified Ideographs. -/
def Ideograph (c : ℕ) : Prop := 0x4E00 ≤ c ∧ c ≤ 0x9FFF

instance : DecidablePred Ideograph := fun _ => inferInstanceAs (Decidable (_ ∧ _))

/-- White space, ideographs, the ideographic comma and full stop: neither cased nor ignored in finding the case of
the characters around them. -/
def Caseless (c : ℕ) : Prop := Text.isBlank c ∨ Ideograph c ∨ c = 0x3001 ∨ c = 0x3002

instance : DecidablePred Caseless := fun _ => inferInstanceAs (Decidable (_ ∨ _))

/-- `toLowerCase()`, with what is used of the tables of characters. -/
structure LowerCasing where
  lower : Text → Text
  /-- What stands beyond a character without case makes no difference, and such a character stays. -/
  lower_append : ∀ s c t, Caseless c → lower (s ++ c :: t) = lower s ++ c :: lower t
  /-- A character has at most three code units for one of its own. -/
  length_le : ∀ s, (lower s).length ≤ 3 * s.length
  lower_ne_nil : ∀ s, s ≠ [] → lower s ≠ []

namespace LowerCasing

open Text (isBlank collapse endsBlank)

variable (L : LowerCasing) {s t w : Text} {c : ℕ}

/-- Lower case with single blanks. -/
def folded (s : Text) : Text := collapse false (L.lower s)

theorem lower_nil : L.lower [] = [] := List.length_eq_zero_iff.1 (Nat.le_zero.1 (L.length_le []))

theorem length_collapse_le {b : Bool} : (collapse b s).length ≤ s.length := by
  induction s generalizing b with
  | nil => exact le_rfl
  | cons c s ih =>
    rw [collapse]
    split
    · split
      · exact ih.trans (Nat.le_succ _)
      · exact Nat.succ_le_succ ih
    · exact Nat.succ_le_succ ih

theorem length_folded_le : (L.folded s).length ≤ 3 * s.length := length_collapse_le.trans (L.length_le s)

theorem folded_nil : L.folded [] = [] := List.length_eq_zero_iff.1 (Nat.le_zero.1 (L.length_folded_le))

theorem folded_ne_nil (h : s ≠ []) : L.folded s ≠ [] := by
  obtain ⟨c, t, hct⟩ := List.exists_cons_of_ne_nil (L.lower_ne_nil s h)
  rw [folded, hct, collapse]
  split <;> simp

theorem folded_cons (hc : Caseless c) (hb : isBlank c = false) :
    L.folded (s ++ c :: t) = L.folded s ++ c :: L.folded t := by
  rw [folded, L.lower_append s c t hc, Text.collapse_cons hb, folded, folded]

theorem folded_eq_self (h : ∀ c ∈ s, Caseless c ∧ isBlank c = false) : L.folded s = s := by
  induction s with
  | nil => exact L.folded_nil
  | cons c s ih =>
    obtain ⟨hc, hs⟩ := List.forall_mem_cons.1 h
    have hcons := L.folded_cons (s := []) (t := s) hc.1 hc.2
    rwa [L.folded_nil, ih hs] at hcons

/-- The lower case of A to Z; any other character is left as it is. -/
def latinLower (c : ℕ) : ℕ := if 0x41 ≤ c ∧ c ≤ 0x5A then c + 0x20 else c

theorem latinLower_of_caseless (h : Caseless c) : latinLower c = c := by
  refine if_neg fun hc => ?_
  obtain ⟨h1, h2⟩ := hc
  rcases h with hb | ⟨hi, -⟩ | rfl | rfl
  · simp only [isBlank, decide_eq_true_iff, List.mem_cons, List.not_mem_nil, or_false] at hb
    omega
  all_goals omega

def latin : LowerCasing where
  lower s := s.map latinLower
  lower_append s c t h := by rw [List.map_append, List.map_cons, latinLower_of_caseless h]
  length_le s := by
    rw [List.length_map]
    omega
  lower_ne_nil s h := by simpa using h

end LowerCasing

namespace Text
variable {s t w : Text} {c d : ℕ} {b : Bool}

/-! ## Runs of blanks -/

/-- A run of white space. -/
def Blanks (s : Text) : Prop := s ≠ [] ∧ ∀ c ∈ s, isBlank c = true

theorem dropWhile_blanks (h : ∀ c ∈ s, isBlank c = true) : s.dropWhile isBlank = [] := List.dropWhile_eq_nil_iff.2 h

theorem trim_blanks_append (h : ∀ c ∈ s, isBlank c = true) : trim (s ++ t) = trim t := by
  rw [trim, List.dropWhile_append, dropWhile_blanks h, List.isEmpty_nil, if_pos rfl, trim]

theorem rdropWhile_append_blanks (h : ∀ c ∈ t, isBlank c = true) : (s ++ t).rdropWhile isBlank = s.rdropWhile isBlank := by
  have hrev : t.reverse.dropWhile isBlank = [] := dropWhile_blanks fun c hc => h c (List.mem_reverse.1 hc)
  rw [List.rdropWhile, List.reverse_append, List.dropWhile_append, hrev, List.isEmpty_nil, if_pos rfl,
    List.rdropWhile]

theorem trim_append_blanks (h : ∀ c ∈ t, isBlank c = true) : trim (s ++ t) = trim s := by
  rw [trim, List.dropWhile_append]
  split
  next hs =>
    have hnil : s.dropWhile isBlank = [] := List.isEmpty_iff.1 hs
    rw [dropWhile_blanks h, trim, hnil]
  next => rw [rdropWhile_append_blanks h, trim]

theorem trim_between (hs : s.dropWhile isBlank ≠ []) (ht : t.rdropWhile isBlank ≠ []) :
    trim (s ++ w ++ t) = s.dropWhile isBlank ++ w ++ t.rdropWhile isBlank := by
  have hend : ∀ u : Text, (u ++ t).rdropWhile isBlank = u ++ t.rdropWhile isBlank := fun u => by
    have hrev : ¬ (t.reverse.dropWhile isBlank).isEmpty := by
      rw [List.isEmpty_iff]
      intro hnil
      exact ht (by rw [List.rdropWhile, hnil, List.reverse_nil])
    rw [List.rdropWhile, List.reverse_append, List.dropWhile_append, if_neg hrev, List.reverse_append,
      List.reverse_reverse, List.rdropWhile]
  have hstart : ¬ (s.dropWhile isBlank).isEmpty := fun hnil => hs (List.isEmpty_iff.1 hnil)
  rw [trim, List.append_assoc, List.dropWhile_append, if_neg hstart, ← List.append_assoc, hend]

theorem collapse_true_blanks (h : ∀ c ∈ s, isBlank c = true) : collapse true (s ++ t) = collapse true t := by
  induction s with
  | nil => rfl
  | cons c s ih =>
    obtain ⟨hc, hs⟩ := List.forall_mem_cons.1 h
    rw [List.cons_append, collapse, if_pos hc, if_pos rfl, ih hs]

theorem collapse_blanks (h : Blanks s) : collapse b (s ++ t) = (if b then [] else [0x20]) ++ collapse true t := by
  obtain ⟨c, s, rfl⟩ := List.exists_cons_of_ne_nil h.1
  obtain ⟨hc, hs⟩ := List.forall_mem_cons.1 h.2
  rw [List.cons_append, collapse, if_pos hc, collapse_true_blanks hs]
  cases b
  · rfl
  · rfl

end Text

namespace LowerCasing
open Text (isBlank collapse endsBlank Blanks trim)
variable (L : LowerCasing) {s t w : Text} {c : ℕ}

theorem lower_blanks (h : Blanks w) : L.lower (s ++ w ++ t) = L.lower s ++ w ++ L.lower t := by
  obtain ⟨c, w, rfl⟩ := List.exists_cons_of_ne_nil h.1
  obtain ⟨hc, hw⟩ := List.forall_mem_cons.1 h.2
  clear h
  induction w generalizing s c with
  | nil => simpa using L.lower_append s c t (.inl hc)
  | cons d w ih =>
    obtain ⟨hd, hw⟩ := List.forall_mem_cons.1 hw
    have hrest := ih (s := []) d hd hw
    rw [L.lower_nil, List.nil_append] at hrest
    rw [List.append_assoc, List.cons_append, L.lower_append s c _ (.inl hc), hrest]
    simp

/-- **White space.** A run of blanks may stand for another one. -/
theorem folded_trim_blanks {w' : Text} (hw : Blanks w) (hw' : Blanks w') :
    L.folded (trim (s ++ w ++ t)) = L.folded (trim (s ++ w' ++ t)) := by
  by_cases hs : s.dropWhile isBlank = []
  · have hblank := List.dropWhile_eq_nil_iff.1 hs
    rw [List.append_assoc, Text.trim_blanks_append hblank, Text.trim_blanks_append hw.2, List.append_assoc,
      Text.trim_blanks_append hblank, Text.trim_blanks_append hw'.2]
  by_cases ht : t.rdropWhile isBlank = []
  · have hblank : ∀ c ∈ t, isBlank c = true := List.rdropWhile_eq_nil_iff.1 ht
    rw [Text.trim_append_blanks hblank, Text.trim_append_blanks hw.2, Text.trim_append_blanks hblank,
      Text.trim_append_blanks hw'.2]
  rw [Text.trim_between hs ht, Text.trim_between hs ht, folded, folded, L.lower_blanks hw, L.lower_blanks hw',
    List.append_assoc, List.append_assoc, Text.collapse_append, Text.collapse_blanks hw, Text.collapse_append,
    Text.collapse_blanks hw']

end LowerCasing

end ChronoSynth

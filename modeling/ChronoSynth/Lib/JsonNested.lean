import ChronoSynth.Lib.JsonText

/-!
# A JSON text tells its value

`Json.stringify` is injective (`stringify_injective`). A value's text is told from what follows it, provided that
this begins with a comma or a closing bracket (`stringify_append_inj`): the first character tells the kind of the
value, and the parts of an array or object end each before such a character.
-/

namespace ChronoSynth

namespace Json

@[elab_as_elim]
theorem ind {motive : Json → Prop} (null : motive null) (bool : ∀ b, motive (bool b)) (num : ∀ n, motive (num n))
    (str : ∀ s, motive (str s)) (arr : ∀ elems, (∀ j ∈ elems, motive j) → motive (arr elems))
    (obj : ∀ members, (∀ m ∈ members, motive m.2) → motive (obj members)) (j : Json) : motive j :=
  @Json.rec motive (fun elems => ∀ j ∈ elems, motive j) (fun members => ∀ m ∈ members, motive m.2)
    (fun m => motive m.2) null bool num str arr obj nofun
    (fun _ _ hj hjs => List.forall_mem_cons.2 ⟨hj, hjs⟩) nofun
    (fun _ _ hm hms => List.forall_mem_cons.2 ⟨hm, hms⟩) (fun _ _ hj => hj) j

/-! ## The first character -/

/-- The kinds of value. -/
inductive Kind
  | null | yes | no | num | str | arr | obj
  deriving DecidableEq

def kind : Json → Kind
  | null => .null
  | bool b => if b then .yes else .no
  | num _ => .num
  | str _ => .str
  | arr _ => .arr
  | obj _ => .obj

/-- The kind of value that begins with a character. -/
def kindOf (c : Char) : Kind :=
  if c = 'n' then .null else if c = 't' then .yes else if c = 'f' then .no else if c = '"' then .str
  else if c = '[' then .arr else if c = '\x7b' then .obj else .num

theorem kindOf_numeric {c : Char} (hc : JsNumber.IsNumeric c) : kindOf c = .num := by
  have hne : ∀ c' : Char, ¬ JsNumber.IsNumeric c' → c ≠ c' := fun c' h e => h (e ▸ hc)
  simp [kindOf, hne 'n' (by decide), hne 't' (by decide), hne 'f' (by decide), hne '"' (by decide),
    hne '[' (by decide), hne '\x7b' (by decide)]

theorem toText_ne_nil (n : JsNumber) : n.toText.toList ≠ [] := by
  have hds : n.digits ≠ [] := by simp [JsNumber.digits, Nat.toDigits_ne_nil]
  intro h
  simp only [JsNumber.toText] at h
  rw [String.toList_append, List.append_eq_nil_iff] at h
  have hbody := h.2
  split at hbody
  · exact hds (by simpa using hbody)
  · split at hbody
    · simp at hbody
    · split at hbody
      · simp at hbody
      · simp at hbody

theorem stringify_begins (j : Json) : ∃ c r, j.stringify.toList = c :: r ∧ kindOf c = j.kind := by
  cases j with
  | null => exact ⟨'n', _, rfl, rfl⟩
  | bool b => cases b with
    | true => exact ⟨'t', _, rfl, rfl⟩
    | false => exact ⟨'f', _, rfl, rfl⟩
  | num n =>
    obtain ⟨c, r, hn⟩ := List.exists_cons_of_ne_nil (toText_ne_nil n)
    exact ⟨c, r, hn, kindOf_numeric (n.isNumeric_toText (hn ▸ List.mem_cons_self))⟩
  | str s => exact ⟨'"', _, by rw [stringify, toList_quote], rfl⟩
  | arr elems => exact ⟨'[', _, by simp [stringify]; rfl, rfl⟩
  | obj members => exact ⟨'\x7b', _, by simp [stringify]; rfl, rfl⟩

theorem kind_eq_of_append {j j' : Json} {r r' : List Char}
    (h : j.stringify.toList ++ r = j'.stringify.toList ++ r') : j.kind = j'.kind := by
  obtain ⟨c, t, hc, hk⟩ := j.stringify_begins
  obtain ⟨c', t', hc', hk'⟩ := j'.stringify_begins
  rw [hc, hc'] at h
  rw [← hk, ← hk', (List.cons_eq_cons.1 h).1]

/-! ## Where a value ends -/

/-- What may follow a value. -/
def Stops (c : Char) : Prop := c = ',' ∨ c = '\x7d' ∨ c = ']'

theorem Stops.not_numeric {c : Char} (hc : Stops c) : ¬ JsNumber.IsNumeric c := by
  rcases hc with rfl | rfl | rfl <;> decide

/-- The text of a value is told from what follows it. -/
def Told (j : Json) : Prop :=
  ∀ ⦃j' : Json⦄ ⦃c c' : Char⦄ ⦃r r' : List Char⦄, Stops c → Stops c' →
    j.stringify.toList ++ c :: r = j'.stringify.toList ++ c' :: r' → j = j' ∧ c :: r = c' :: r'

/-- What follows an element: the others, each behind a comma, and the closing bracket. -/
def elemsText : List Json → List Char
  | [] => [']']
  | j :: js => ',' :: (j.stringify.toList ++ elemsText js)

theorem toList_intercalate_elems (j : Json) (js : List Json) :
    (String.intercalate "," (stringifyElems (j :: js))).toList ++ [']'] = j.stringify.toList ++ elemsText js := by
  induction js generalizing j with
  | nil => simp [stringifyElems, elemsText]
  | cons j' js ih =>
    have htail := ih j'
    rw [elemsText, ← htail]
    simp [stringifyElems, String.toList_intercalate]

theorem toList_stringify_arr (j : Json) (js : List Json) :
    (arr (j :: js)).stringify.toList = '[' :: (j.stringify.toList ++ elemsText js) := by
  rw [← toList_intercalate_elems]
  simp [stringify]

theorem elemsText_stops (js : List Json) (r : List Char) : ∃ c t, elemsText js ++ r = c :: t ∧ Stops c := by
  cases js with
  | nil => exact ⟨']', r, rfl, .inr (.inr rfl)⟩
  | cons j js => exact ⟨',', _, rfl, .inl rfl⟩

theorem membersText_stops (ms : List (String × Json)) (r : List Char) :
    ∃ c t, membersText ms ++ r = c :: t ∧ Stops c := by
  cases ms with
  | nil => exact ⟨'\x7d', r, rfl, .inr (.inl rfl)⟩
  | cons m ms => exact ⟨',', _, rfl, .inl rfl⟩

theorem Told.elem_append_inj {j j' : Json} {js js' : List Json} {r r' : List Char} (hj : j.Told)
    (h : j.stringify.toList ++ (elemsText js ++ r) = j'.stringify.toList ++ (elemsText js' ++ r')) :
    j = j' ∧ elemsText js ++ r = elemsText js' ++ r' := by
  obtain ⟨c, t, hc, hcs⟩ := elemsText_stops js r
  obtain ⟨c', t', hc', hcs'⟩ := elemsText_stops js' r'
  rw [hc, hc'] at h ⊢
  exact hj hcs hcs' h

theorem elemsText_append_inj {js js' : List Json} {r r' : List Char} (hjs : ∀ j ∈ js, j.Told)
    (h : elemsText js ++ r = elemsText js' ++ r') : js = js' ∧ r = r' := by
  induction js generalizing js' with
  | nil =>
    cases js' with
    | nil => exact ⟨rfl, (List.cons_eq_cons.1 h).2⟩
    | cons j' js' => exact absurd (List.cons_eq_cons.1 h).1 (by decide)
  | cons j js ih =>
    cases js' with
    | nil => exact absurd (List.cons_eq_cons.1 h).1 (by decide)
    | cons j' js' =>
      rw [elemsText, elemsText, List.cons_append, List.cons_append, List.append_assoc, List.append_assoc] at h
      obtain ⟨hj, hjs⟩ := List.forall_mem_cons.1 hjs
      obtain ⟨rfl, hrest⟩ := hj.elem_append_inj (List.cons_eq_cons.1 h).2
      obtain ⟨rfl, hr⟩ := ih hjs hrest
      exact ⟨rfl, hr⟩

theorem member_append_inj {m m' : String × Json} {ms ms' : List (String × Json)} {r r' : List Char} (hm : m.2.Told)
    (h : memberText m ++ (membersText ms ++ r) = memberText m' ++ (membersText ms' ++ r')) :
    m = m' ∧ membersText ms ++ r = membersText ms' ++ r' := by
  obtain ⟨c, t, hc, hcs⟩ := membersText_stops ms r
  obtain ⟨c', t', hc', hcs'⟩ := membersText_stops ms' r'
  rw [hc, hc'] at h ⊢
  rw [memberText, memberText, List.append_assoc, List.append_assoc] at h
  obtain ⟨hkey, hrest⟩ := quote_append_inj h
  obtain ⟨hval, htail⟩ := hm hcs hcs' (List.cons_eq_cons.1 hrest).2
  exact ⟨Prod.ext hkey hval, htail⟩

theorem membersText_append_inj {ms ms' : List (String × Json)} {r r' : List Char} (hms : ∀ m ∈ ms, m.2.Told)
    (h : membersText ms ++ r = membersText ms' ++ r') : ms = ms' ∧ r = r' := by
  induction ms generalizing ms' with
  | nil =>
    cases ms' with
    | nil => exact ⟨rfl, (List.cons_eq_cons.1 h).2⟩
    | cons m' ms' => exact absurd (List.cons_eq_cons.1 h).1 (by decide)
  | cons m ms ih =>
    cases ms' with
    | nil => exact absurd (List.cons_eq_cons.1 h).1 (by decide)
    | cons m' ms' =>
      rw [membersText, membersText, List.cons_append, List.cons_append, List.append_assoc, List.append_assoc] at h
      obtain ⟨hm, hms⟩ := List.forall_mem_cons.1 hms
      obtain ⟨rfl, hrest⟩ := member_append_inj hm (List.cons_eq_cons.1 h).2
      obtain ⟨rfl, hr⟩ := ih hms hrest
      exact ⟨rfl, hr⟩

theorem stringify_ne_close (j : Json) (r t : List Char) : j.stringify.toList ++ r ≠ ']' :: t := by
  obtain ⟨c, l, hc, hk⟩ := j.stringify_begins
  intro h
  rw [hc] at h
  obtain rfl := (List.cons_eq_cons.1 h).1
  -- only a number could begin with such a character, and it does not
  cases j with
  | num n => exact absurd (n.isNumeric_toText (by rw [stringify] at hc; exact hc ▸ List.mem_cons_self)) (by decide)
  | bool b => cases b <;> exact absurd hk (by decide)
  | null | str _ | arr _ | obj _ => exact absurd hk (by simp [kind, kindOf])

theorem memberText_ne_close (m : String × Json) (r t : List Char) : memberText m ++ r ≠ '\x7d' :: t := by
  intro h
  rw [memberText, toList_quote] at h
  exact absurd (List.cons_eq_cons.1 h).1 (by decide)

theorem arr_append_inj {js js' : List Json} {r r' : List Char} (hjs : ∀ j ∈ js, j.Told)
    (h : (arr js).stringify.toList ++ r = (arr js').stringify.toList ++ r') : js = js' ∧ r = r' := by
  have hnil : (arr []).stringify.toList = ['[', ']'] := by simp [stringify, stringifyElems]
  cases js with
  | nil =>
    cases js' with
    | nil => exact ⟨rfl, List.append_cancel_left h⟩
    | cons j' js' =>
      rw [hnil, toList_stringify_arr] at h
      have htail : [']'] ++ r = (j'.stringify.toList ++ elemsText js') ++ r' := (List.cons_eq_cons.1 h).2
      rw [List.append_assoc] at htail
      exact (stringify_ne_close _ _ _ htail.symm).elim
  | cons j js =>
    cases js' with
    | nil =>
      rw [hnil, toList_stringify_arr] at h
      have htail : (j.stringify.toList ++ elemsText js) ++ r = [']'] ++ r' := (List.cons_eq_cons.1 h).2
      rw [List.append_assoc] at htail
      exact (stringify_ne_close _ _ _ htail).elim
    | cons j' js' =>
      rw [toList_stringify_arr, toList_stringify_arr, List.cons_append, List.cons_append, List.append_assoc,
        List.append_assoc] at h
      obtain ⟨hj, hjs⟩ := List.forall_mem_cons.1 hjs
      obtain ⟨rfl, hrest⟩ := hj.elem_append_inj (List.cons_eq_cons.1 h).2
      obtain ⟨rfl, hr⟩ := elemsText_append_inj hjs hrest
      exact ⟨rfl, hr⟩

theorem obj_append_inj {ms ms' : List (String × Json)} {r r' : List Char} (hms : ∀ m ∈ ms, m.2.Told)
    (h : (obj ms).stringify.toList ++ r = (obj ms').stringify.toList ++ r') : ms = ms' ∧ r = r' := by
  have hnil : (obj []).stringify.toList = ['\x7b', '\x7d'] := by simp [stringify, stringifyMembers]
  cases ms with
  | nil =>
    cases ms' with
    | nil => exact ⟨rfl, List.append_cancel_left h⟩
    | cons m' ms' =>
      rw [hnil, toList_stringify_obj] at h
      have htail : ['\x7d'] ++ r = (memberText m' ++ membersText ms') ++ r' := (List.cons_eq_cons.1 h).2
      rw [List.append_assoc] at htail
      exact (memberText_ne_close _ _ _ htail.symm).elim
  | cons m ms =>
    cases ms' with
    | nil =>
      rw [hnil, toList_stringify_obj] at h
      have htail : (memberText m ++ membersText ms) ++ r = ['\x7d'] ++ r' := (List.cons_eq_cons.1 h).2
      rw [List.append_assoc] at htail
      exact (memberText_ne_close _ _ _ htail).elim
    | cons m' ms' =>
      rw [toList_stringify_obj, toList_stringify_obj, List.cons_append, List.cons_append, List.append_assoc,
        List.append_assoc] at h
      obtain ⟨hm, hms⟩ := List.forall_mem_cons.1 hms
      obtain ⟨rfl, hrest⟩ := member_append_inj hm (List.cons_eq_cons.1 h).2
      obtain ⟨rfl, hr⟩ := membersText_append_inj hms hrest
      exact ⟨rfl, hr⟩

/-- **The text of a value is told from what follows it.** -/
theorem stringify_append_inj (j : Json) : j.Told := by
  induction j using ind with
  | null =>
    intro j' c c' r r' _ _ h
    cases j' with
    | null => exact ⟨rfl, List.append_cancel_left h⟩
    | bool b => cases b <;> exact absurd (kind_eq_of_append h) (by decide)
    | num _ | str _ | arr _ | obj _ => exact absurd (kind_eq_of_append h) (by simp [kind])
  | bool b =>
    intro j' c c' r r' _ _ h
    cases j' with
    | bool b' =>
      have hb : b = b' := by
        have := kind_eq_of_append h
        cases b <;> cases b' <;> simp_all [kind]
      subst hb
      exact ⟨rfl, List.append_cancel_left h⟩
    | null | num _ | str _ | arr _ | obj _ => cases b <;> exact absurd (kind_eq_of_append h) (by simp [kind])
  | num n =>
    intro j' c c' r r' hc hc' h
    cases j' with
    | num n' =>
      obtain ⟨htext, hrest⟩ := append_stop_inj (p := Stops)
        (fun a ha he => he.not_numeric (n.isNumeric_toText ha))
        (fun a ha he => he.not_numeric (n'.isNumeric_toText ha)) hc hc' h
      exact ⟨congrArg Json.num (JsNumber.toText_injective (String.toList_inj.1 htext)), hrest⟩
    | bool b => cases b <;> exact absurd (kind_eq_of_append h) (by simp [kind])
    | null | str _ | arr _ | obj _ => exact absurd (kind_eq_of_append h) (by simp [kind])
  | str s =>
    intro j' c c' r r' hc hc' h
    cases j' with
    | str s' =>
      obtain ⟨rfl, hrest⟩ := quote_append_inj h
      exact ⟨rfl, hrest⟩
    | bool b => cases b <;> exact absurd (kind_eq_of_append h) (by simp [kind])
    | null | num _ | arr _ | obj _ => exact absurd (kind_eq_of_append h) (by simp [kind])
  | arr elems ih =>
    intro j' c c' r r' hc hc' h
    cases j' with
    | arr elems' =>
      obtain ⟨rfl, hr⟩ := arr_append_inj ih h
      exact ⟨rfl, hr⟩
    | bool b => cases b <;> exact absurd (kind_eq_of_append h) (by simp [kind])
    | null | num _ | str _ | obj _ => exact absurd (kind_eq_of_append h) (by simp [kind])
  | obj members ih =>
    intro j' c c' r r' hc hc' h
    cases j' with
    | obj members' =>
      obtain ⟨rfl, hr⟩ := obj_append_inj ih h
      exact ⟨rfl, hr⟩
    | bool b => cases b <;> exact absurd (kind_eq_of_append h) (by simp [kind])
    | null | num _ | str _ | arr _ => exact absurd (kind_eq_of_append h) (by simp [kind])

/-- **The text of a value tells the value.** -/
theorem stringify_injective : Function.Injective stringify := fun j j' h =>
  (j.stringify_append_inj (.inl rfl) (.inl rfl) (by rw [h] : j.stringify.toList ++ [','] = _)).1

end Json

end ChronoSynth

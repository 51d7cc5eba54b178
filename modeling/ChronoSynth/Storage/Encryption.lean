import ChronoSynth.Lib.Utf16

/-!
# Encryption of fields

`encryption.ts`: a field is sealed with AES-256-GCM and written in base64, after the reference of its key unless this is the
master key. What does not decode to enough bytes to have been sealed is taken for a text that never was, and returned as it is.

* The cipher is left open (`AesGcm`). Bytes are numbers, and `utf8`, `toBase64`, `encodeURIComponent` and what undoes them are
  those of the language; decoding base64 leaves out what is not of its alphabet and ends at the first equals sign.
* A call that throws returns nothing.
-/

namespace ChronoSynth.Storage

abbrev Bytes := List ℕ

/-! ## UTF-8 -/

def isHighSurrogate (c : ℕ) : Bool := 0xD800 ≤ c ∧ c ≤ 0xDBFF

def isLowSurrogate (c : ℕ) : Bool := 0xDC00 ≤ c ∧ c ≤ 0xDFFF

def utf8Char (n : ℕ) : Bytes :=
  if n < 0x80 then [n]
  else if n < 0x800 then [0xC0 + n / 0x40, 0x80 + n % 0x40]
  else if n < 0x10000 then [0xE0 + n / 0x1000, 0x80 + n / 0x40 % 0x40, 0x80 + n % 0x40]
  else [0xF0 + n / 0x40000, 0x80 + n / 0x1000 % 0x40, 0x80 + n / 0x40 % 0x40, 0x80 + n % 0x40]

def ofSurrogates (high low : ℕ) : ℕ := 0x10000 + (high - 0xD800) * 0x400 + (low - 0xDC00)

/-- A surrogate that stands alone becomes a replacement character. -/
def utf8Unit (c : ℕ) : Bytes := if isHighSurrogate c ∨ isLowSurrogate c then utf8Char 0xFFFD else utf8Char c

def utf8 : Text → Bytes
  | [] => []
  | [c] => utf8Unit c
  | c :: d :: s =>
    if isHighSurrogate c ∧ isLowSurrogate d then utf8Char (ofSurrogates c d) ++ utf8 s else utf8Unit c ++ utf8 (d :: s)

/-- How many bytes of a character are missing, between which bounds the next one is, and what was read. -/
structure Utf8State where
  needed : ℕ
  lower : ℕ
  upper : ℕ
  point : ℕ

def Utf8State.idle : Utf8State := ⟨0, 0x80, 0xBF, 0⟩

def Utf8State.lead (b : ℕ) : Utf8State × Text :=
  if b < 0x80 then (idle, [b])
  else if 0xC2 ≤ b ∧ b ≤ 0xDF then (⟨1, 0x80, 0xBF, b - 0xC0⟩, [])
  else if 0xE0 ≤ b ∧ b ≤ 0xEF then
    (⟨2, if b = 0xE0 then 0xA0 else 0x80, if b = 0xED then 0x9F else 0xBF, b - 0xE0⟩, [])
  else if 0xF0 ≤ b ∧ b ≤ 0xF4 then
    (⟨3, if b = 0xF0 then 0x90 else 0x80, if b = 0xF4 then 0x8F else 0xBF, b - 0xF0⟩, [])
  else (idle, [0xFFFD])

def unitsOfPoint (n : ℕ) : Text :=
  if n < 0x10000 then [n] else [0xD800 + (n - 0x10000) / 0x400, 0xDC00 + (n - 0x10000) % 0x400]

def Utf8State.next (st : Utf8State) (b : ℕ) : Utf8State × Text :=
  if st.needed = 0 then lead b
  else if st.lower ≤ b ∧ b ≤ st.upper then
    let point := st.point * 0x40 + b % 0x40
    if st.needed = 1 then (idle, unitsOfPoint point) else (⟨st.needed - 1, 0x80, 0xBF, point⟩, [])
  else ((lead b).1, 0xFFFD :: (lead b).2)

def decodeUtf8 (st : Utf8State) : Bytes → Text
  | [] => if st.needed = 0 then [] else [0xFFFD]
  | b :: bs => (st.next b).2 ++ decodeUtf8 (st.next b).1 bs

/-- `toString('utf-8')`. -/
def fromUtf8 (bytes : Bytes) : Text := decodeUtf8 .idle bytes

/-! ## Base64 -/

def base64Alphabet : Text := units "ABCDEFGHIJKLMNOPQRSTUVWXYZabcdefghijklmnopqrstuvwxyz0123456789+/"

def base64Char (n : ℕ) : ℕ := base64Alphabet[n]?.getD 0

def toBase64 : Bytes → Text
  | [] => []
  | [a] => [base64Char (a / 4), base64Char (a % 4 * 16), 0x3D, 0x3D]
  | [a, b] => [base64Char (a / 4), base64Char (a % 4 * 16 + b / 16), base64Char (b % 16 * 4), 0x3D]
  | a :: b :: c :: bytes =>
    base64Char (a / 4) :: base64Char (a % 4 * 16 + b / 16) :: base64Char (b % 16 * 4 + c / 64) :: base64Char (c % 64) ::
      toBase64 bytes

/-- The characters of URLs are accepted as well. -/
def sextet (c : ℕ) : Option ℕ :=
  if c = 0x2D then some 62 else if c = 0x5F then some 63
  else if c ∈ base64Alphabet then some (base64Alphabet.idxOf c) else none

def ofSextets : List ℕ → Bytes
  | a :: b :: c :: d :: rest => (a * 4 + b / 16) :: (b % 16 * 16 + c / 4) :: (c % 4 * 64 + d) :: ofSextets rest
  | [a, b, c] => [a * 4 + b / 16, b % 16 * 16 + c / 4]
  | [a, b] => [a * 4 + b / 16]
  | _ => []

/-- `Buffer.from(text, 'base64')`. -/
def fromBase64 (s : Text) : Bytes := ofSextets ((s.takeWhile (· ≠ 0x3D)).filterMap sextet)

/-! ## References in a text -/

def hexDigit (n : ℕ) : ℕ := (units "0123456789ABCDEF")[n]?.getD 0

def hexValue (c : ℕ) : Option ℕ :=
  if 0x30 ≤ c ∧ c ≤ 0x39 then some (c - 0x30)
  else if 0x41 ≤ c ∧ c ≤ 0x46 then some (c - 0x37)
  else if 0x61 ≤ c ∧ c ≤ 0x66 then some (c - 0x57) else none

def isUnreserved (c : ℕ) : Bool :=
  c ∈ units "ABCDEFGHIJKLMNOPQRSTUVWXYZabcdefghijklmnopqrstuvwxyz0123456789-_.!~*'()"

def percent (bytes : Bytes) : Text := bytes.flatMap fun b => [0x25, hexDigit (b / 16), hexDigit (b % 16)]

/-- A surrogate that stands alone throws. -/
def encodeURIComponent : Text → Option Text
  | [] => some []
  | [c] => if isHighSurrogate c ∨ isLowSurrogate c then none else some (if isUnreserved c then [c] else percent (utf8Char c))
  | c :: d :: s =>
    if isHighSurrogate c ∧ isLowSurrogate d then
      (encodeURIComponent s).map (percent (utf8Char (ofSurrogates c d)) ++ ·)
    else if isHighSurrogate c ∨ isLowSurrogate c then none
    else (encodeURIComponent (d :: s)).map ((if isUnreserved c then [c] else percent (utf8Char c)) ++ ·)

def strictUtf8 (bytes : Bytes) : Option Text := if utf8 (fromUtf8 bytes) = bytes then some (fromUtf8 bytes) else none

/-- The bytes are those of the escapes just read. -/
def decodeEscapes (bytes : Bytes) : Text → Option Text
  | [] => strictUtf8 bytes
  | [c] => if c = 0x25 then none else (strictUtf8 bytes).map (· ++ [c])
  | [c, d] =>
    if c = 0x25 ∨ d = 0x25 then none else (strictUtf8 bytes).map (· ++ [c, d])
  | c :: d :: e :: s =>
    if c = 0x25 then
      match hexValue d, hexValue e with
      | some high, some low => decodeEscapes (bytes ++ [high * 16 + low]) s
      | _, _ => none
    else (strictUtf8 bytes).bind fun t => (decodeEscapes [] (d :: e :: s)).map (t ++ c :: ·)

def decodeURIComponent (s : Text) : Option Text := decodeEscapes [] s

/-! ## The service -/

/-- AES-256-GCM: a key, an initialisation vector and a text give a sealed text and a tag, and nothing else opens. -/
structure AesGcm where
  sealWith : Bytes → Bytes → Bytes → Bytes × Bytes
  openWith : Bytes → Bytes → Bytes → Bytes → Option Bytes
  length_sealed : ∀ key iv plain, (sealWith key iv plain).1.length = plain.length
  length_tag : ∀ key iv plain, (sealWith key iv plain).2.length = 16
  open_iff : ∀ key iv tag sealed plain, openWith key iv tag sealed = some plain ↔ sealWith key iv plain = (sealed, tag)

def IV_LENGTH : ℕ := 12

def AUTH_TAG_LENGTH : ℕ := 16

def KEY_LENGTH : ℕ := 32

def VERSION_PREFIX_LENGTH : ℕ := 1

def KEY_REF_PREFIX : Text := units "v2."

structure EncryptionConfig where
  enabled : Bool
  masterKey : Text
  defaultKeyRef : Option Text
  keyring : List (Text × Text)

def deriveKey (secretB64 : Text) : Option Bytes :=
  let key := fromBase64 secretB64
  if key.length = KEY_LENGTH then some key else none

structure FieldEncryption where
  enabled : Bool
  keys : List (Text × Bytes)
  defaultKeyRef : Text

/-- `Map.set`. -/
def setKey (keys : List (Text × Bytes)) (keyRef : Text) (key : Bytes) : List (Text × Bytes) :=
  keys.filter (·.1 ≠ keyRef) ++ [(keyRef, key)]

def FieldEncryption.create (config : EncryptionConfig) : Option FieldEncryption := do
  let master ← deriveKey config.masterKey
  let keys ← config.keyring.foldlM (fun keys entry => (deriveKey entry.2).map (setKey keys entry.1)) [(units "master", master)]
  let defaultKeyRef := config.defaultKeyRef.getD (units "master")
  if (keys.lookup defaultKeyRef).isSome then some ⟨config.enabled, keys, defaultKeyRef⟩ else none

section
variable (gcm : AesGcm) (enc : FieldEncryption)

def encryptPayload (iv : Bytes) (plaintext : Text) (key : Bytes) : Bytes :=
  let sealed := gcm.sealWith key iv (utf8 plaintext)
  [1] ++ iv ++ sealed.2 ++ sealed.1

/-- `encrypt`, with the random bytes that it takes. -/
def FieldEncryption.encrypt (iv : Bytes) (plaintext keyRef : Text) : Option Text :=
  if ¬ enc.enabled then some plaintext
  else (enc.keys.lookup keyRef).bind fun key =>
    let payload := encryptPayload gcm iv plaintext key
    if keyRef = units "master" then some (toBase64 payload)
    else (encodeURIComponent keyRef).map fun ref => KEY_REF_PREFIX ++ ref ++ [0x2E] ++ toBase64 payload

def decryptPayload (buf key : Bytes) (fallback : Text) : Option Text :=
  if buf.length < VERSION_PREFIX_LENGTH + IV_LENGTH + AUTH_TAG_LENGTH + 1 then some fallback
  else if buf.head? ≠ some 1 then none
  else
    let rest := buf.drop VERSION_PREFIX_LENGTH
    (gcm.openWith key (rest.take IV_LENGTH) ((rest.drop IV_LENGTH).take AUTH_TAG_LENGTH)
      (rest.drop (IV_LENGTH + AUTH_TAG_LENGTH))).map fromUtf8

def FieldEncryption.decrypt (ciphertext : Text) : Option Text :=
  if ¬ enc.enabled then some ciphertext
  else if KEY_REF_PREFIX <+: ciphertext then
    let remainder := ciphertext.drop KEY_REF_PREFIX.length
    let ref := remainder.takeWhile (· ≠ 0x2E)
    -- there is no separator, or it comes first
    if ref = remainder ∨ ref = [] then none
    else (decodeURIComponent ref).bind fun keyRef => (enc.keys.lookup keyRef).bind fun key =>
      decryptPayload gcm (fromBase64 (remainder.drop (ref.length + 1))) key ciphertext
  else (enc.keys.lookup (units "master")).bind fun key => decryptPayload gcm (fromBase64 ciphertext) key ciphertext

end

/-! ## Lengths -/

variable {gcm : AesGcm} {enc : FieldEncryption} {iv key : Bytes} {plaintext keyRef c : Text}

theorem one_le_length_utf8Char {n : ℕ} : 1 ≤ (utf8Char n).length := by
  unfold utf8Char
  split_ifs <;> simp

theorem one_le_length_utf8Unit {n : ℕ} : 1 ≤ (utf8Unit n).length := by
  unfold utf8Unit
  split
  · exact one_le_length_utf8Char
  · exact one_le_length_utf8Char

/-- A text has at least as many bytes as code units. -/
theorem length_le_length_utf8 (s : Text) : s.length ≤ (utf8 s).length := by
  fun_induction utf8 s with
  | case1 => exact le_rfl
  | case2 d => exact one_le_length_utf8Unit
  | case3 d e s hpair ih =>
    -- a pair of surrogates has four bytes
    have hfour : (utf8Char (ofSurrogates d e)).length = 4 := by
      have hge : 0x10000 ≤ ofSurrogates d e := by
        unfold ofSurrogates
        omega
      rw [utf8Char, if_neg (by omega), if_neg (by omega), if_neg (by omega)]
      rfl
    rw [List.length_append, List.length_cons, List.length_cons, hfour]
    omega
  | case4 d e s hpair ih =>
    have hone := @one_le_length_utf8Unit d
    rw [List.length_append, List.length_cons]
    omega

theorem length_le_length_toBase64 (bytes : Bytes) : bytes.length ≤ (toBase64 bytes).length := by
  fun_induction toBase64 bytes with
  | case1 => exact le_rfl
  | case2 a => simp
  | case3 a b => simp
  | case4 a b d bytes ih =>
    simp only [List.length_cons]
    omega

/-- A sealed field is longer than what was sealed. -/
theorem lt_length_encrypt (henabled : enc.enabled = true) (hc : enc.encrypt gcm iv plaintext keyRef = some c) :
    plaintext.length < c.length := by
  have hpayload : ∀ key, plaintext.length < (toBase64 (encryptPayload gcm iv plaintext key)).length := fun key => by
    have hbytes := length_le_length_toBase64 (encryptPayload gcm iv plaintext key)
    have hplain := length_le_length_utf8 plaintext
    have hsealed := gcm.length_sealed key iv (utf8 plaintext)
    rw [encryptPayload, List.length_append, List.length_append, List.length_append, hsealed, List.length_singleton] at hbytes
    rw [encryptPayload]
    omega
  simp only [FieldEncryption.encrypt, henabled, not_true_eq_false, if_false, Option.bind_eq_some_iff] at hc
  obtain ⟨key, -, hc⟩ := hc
  split at hc
  · obtain rfl := Option.some.inj hc
    exact hpayload key
  · obtain ⟨ref, -, rfl⟩ := Option.map_eq_some_iff.1 hc
    have hlt := hpayload key
    rw [List.length_append]
    omega

/-! ## A text that is taken for one never sealed -/

/-- One character is replaced. -/
def Replaced (c c' : Text) : Prop := ∃ s x y t, c = s ++ x :: t ∧ c' = s ++ y :: t

theorem Replaced.length_eq {c' : Text} (h : Replaced c c') : c'.length = c.length := by
  obtain ⟨s, x, y, t, rfl, rfl⟩ := h
  simp

/-- Base64 that begins with an equals sign decodes to nothing, and nothing is returned as it is. -/
theorem decryptPayload_pad {t fallback : Text} : decryptPayload gcm (fromBase64 (0x3D :: t)) key fallback = some fallback := by
  have hnil : fromBase64 (0x3D :: t) = [] := rfl
  rw [hnil]
  rfl

theorem takeWhile_append_dot {u t : Text} (h : ∀ d ∈ u, d ≠ 0x2E) : (u ++ 0x2E :: t).takeWhile (· ≠ 0x2E) = u := by
  rw [List.takeWhile_append_of_pos (by simpa using h)]
  simp

/-- What is read as a reference and the text after it: what is decrypted is the same for another text after it. -/
theorem decrypt_split (henabled : enc.enabled = true) (hlen : plaintext.length < c.length) (hmarked : KEY_REF_PREFIX <+: c)
    (h : enc.decrypt gcm c = some plaintext) :
    ∃ u x t, c = KEY_REF_PREFIX ++ (u ++ 0x2E :: x :: t) ∧
      enc.decrypt gcm (KEY_REF_PREFIX ++ (u ++ 0x2E :: 0x3D :: t)) = some (KEY_REF_PREFIX ++ (u ++ 0x2E :: 0x3D :: t)) := by
  obtain ⟨remainder, rfl⟩ := hmarked
  have hsplit : ∀ r : Text, enc.decrypt gcm (KEY_REF_PREFIX ++ r) =
      if r.takeWhile (· ≠ 0x2E) = r ∨ r.takeWhile (· ≠ 0x2E) = [] then none
      else (decodeURIComponent (r.takeWhile (· ≠ 0x2E))).bind fun keyRef => (enc.keys.lookup keyRef).bind fun key =>
        decryptPayload gcm (fromBase64 (r.drop ((r.takeWhile (· ≠ 0x2E)).length + 1))) key (KEY_REF_PREFIX ++ r) := by
    intro r
    rw [FieldEncryption.decrypt, if_neg (by simp [henabled]), if_pos (List.prefix_append _ _)]
    simp only [List.drop_left]
  obtain ⟨u, hu⟩ : ∃ u, u = remainder.takeWhile (· ≠ 0x2E) := ⟨_, rfl⟩
  have hnot : ∀ d ∈ u, d ≠ 0x2E := fun d hd => by
    have hmem := List.mem_takeWhile_imp (hu ▸ hd)
    simpa using hmem
  rw [hsplit, ← hu] at h
  split at h
  · cases h
  next hsome =>
    obtain ⟨hne, hnil⟩ := not_or.1 hsome
    simp only [Option.bind_eq_some_iff] at h
    obtain ⟨ref, href, key, hkey, hpayload⟩ := h
    have hwhole : remainder = u ++ remainder.dropWhile (· ≠ 0x2E) := by
      rw [hu, List.takeWhile_append_dropWhile]
    obtain ⟨d, rest, hdrop⟩ : ∃ d rest, remainder.dropWhile (· ≠ 0x2E) = d :: rest := by
      refine List.exists_cons_of_ne_nil fun hempty => hne ?_
      rw [hempty, List.append_nil] at hwhole
      exact hwhole.symm
    have hd : d = 0x2E := by
      have hcons : remainder.dropWhile (· ≠ 0x2E) ≠ [] := hdrop ▸ List.cons_ne_nil _ _
      have hhead := List.head_dropWhile_not _ hcons
      simp only [hdrop, List.head_cons] at hhead
      simpa using hhead
    subst hd
    rw [hdrop] at hwhole
    cases rest with
    | nil =>
      -- there is nothing after the separator, so the text itself was returned
      have hnone : remainder.drop (u.length + 1) = [] := by
        rw [hwhole]
        simp
      rw [hnone] at hpayload
      have hback : KEY_REF_PREFIX ++ remainder = plaintext := Option.some.inj hpayload
      rw [hback] at hlen
      exact absurd hlen (lt_irrefl _)
    | cons x t =>
      refine ⟨u, x, t, by rw [← hwhole], ?_⟩
      have htake := @takeWhile_append_dot u (0x3D :: t) hnot
      have hdrop' : (u ++ 0x2E :: 0x3D :: t).drop (u.length + 1) = 0x3D :: t := by simp
      rw [hsplit, htake, if_neg, href, Option.bind_some, hkey, Option.bind_some, hdrop', decryptPayload_pad]
      rintro (hself | hself)
      · have hlength := congrArg List.length hself
        simp at hlength
      · exact hnil hself

/-- **Tampering.** Some text that differs in one character is returned as it is. -/
theorem exists_tampered (henabled : enc.enabled = true) (hc : enc.encrypt gcm iv plaintext keyRef = some c)
    (h : enc.decrypt gcm c = some plaintext) : ∃ c', Replaced c c' ∧ enc.decrypt gcm c' = some c' ∧ c' ≠ plaintext := by
  have hlen := lt_length_encrypt henabled hc
  suffices hreturned : ∃ c', Replaced c c' ∧ enc.decrypt gcm c' = some c' by
    obtain ⟨c', hreplaced, hself⟩ := hreturned
    refine ⟨c', hreplaced, hself, ?_⟩
    rintro rfl
    rw [hreplaced.length_eq] at hlen
    exact lt_irrefl _ hlen
  by_cases hmarked : KEY_REF_PREFIX <+: c
  · obtain ⟨u, x, t, rfl, hself⟩ := decrypt_split henabled hlen hmarked h
    exact ⟨_, ⟨KEY_REF_PREFIX ++ (u ++ [0x2E]), x, 0x3D, t, by simp, by simp⟩, hself⟩
  · obtain ⟨x, t, rfl⟩ := List.exists_cons_of_ne_nil (List.length_pos_iff.1 (Nat.zero_lt_of_lt hlen))
    refine ⟨0x3D :: t, ⟨[], x, 0x3D, t, rfl, rfl⟩, ?_⟩
    have hnot : ¬ KEY_REF_PREFIX <+: 0x3D :: t := fun hpre => by
      have hhead : KEY_REF_PREFIX = 0x76 :: units "2." := by decide +kernel
      rw [hhead] at hpre
      exact absurd (List.cons_prefix_cons.1 hpre).1 (by decide)
    rw [FieldEncryption.decrypt, if_neg (by simp [henabled]), if_neg hmarked] at h
    obtain ⟨key, hkey, -⟩ := Option.bind_eq_some_iff.1 h
    rw [FieldEncryption.decrypt, if_neg (by simp [henabled]), if_neg hnot, hkey, Option.bind_some, decryptPayload_pad]

/-! ## The round trip -/

/-- A service that is enabled. -/
structure EnabledEncryption extends FieldEncryption where
  on : enabled = true

/-- Every reference has the key it had. -/
def FieldEncryption.Extends (enc enc' : FieldEncryption) : Prop :=
  enc'.enabled = true ∧ ∀ keyRef key, enc.keys.lookup keyRef = some key → enc'.keys.lookup keyRef = some key

/-- The reference has another key. -/
def FieldEncryption.Rekeys (enc enc' : FieldEncryption) (keyRef : Text) : Prop :=
  enc'.enabled = true ∧ ∃ key ∈ enc.keys.lookup keyRef, ∃ key' ∈ enc'.keys.lookup keyRef, key' ≠ key

/-- **What is asked of the service**: a field comes back, and with a character replaced or under another key it comes back
or the call throws. -/
structure FieldRoundTrip (gcm : AesGcm) (enc : FieldEncryption) (plaintext keyRef : Text) : Prop where
  back : ∀ iv, iv.length = IV_LENGTH → ∃ c, enc.encrypt gcm iv plaintext keyRef = some c ∧
    ∀ enc', enc.Extends enc' → enc'.decrypt gcm c = some plaintext
  tampered : ∀ iv, iv.length = IV_LENGTH → ∀ c, enc.encrypt gcm iv plaintext keyRef = some c → ∀ c', Replaced c c' →
    enc.decrypt gcm c' = none ∨ enc.decrypt gcm c' = some plaintext
  rekeyed : ∀ iv, iv.length = IV_LENGTH → ∀ c, enc.encrypt gcm iv plaintext keyRef = some c → ∀ enc',
    enc.Rekeys enc' keyRef → enc'.decrypt gcm c = none ∨ enc'.decrypt gcm c = some plaintext

/-- A text is replaced by one that comes back as itself, so the two cannot both hold. -/
theorem tampered_or_back (henabled : enc.enabled = true)
    (hback : ∀ iv, iv.length = IV_LENGTH → ∃ c, enc.encrypt gcm iv plaintext keyRef = some c ∧
      ∀ enc', enc.Extends enc' → enc'.decrypt gcm c = some plaintext) :
    ∃ iv, iv.length = IV_LENGTH ∧ ∃ c, enc.encrypt gcm iv plaintext keyRef = some c ∧
      ∃ c', Replaced c c' ∧ enc.decrypt gcm c' = some c' ∧ c' ≠ plaintext := by
  have hiv : (List.replicate IV_LENGTH 0).length = IV_LENGTH := List.length_replicate
  obtain ⟨c, hc, hdecrypt⟩ := hback _ hiv
  exact ⟨_, hiv, c, hc, exists_tampered henabled hc (hdecrypt enc ⟨henabled, fun _ _ h => h⟩)⟩

/-- **No field is protected.** -/
theorem not_fieldRoundTrip (gcm : AesGcm) (enc : EnabledEncryption) (plaintext keyRef : Text) :
    ¬ FieldRoundTrip gcm enc.toFieldEncryption plaintext keyRef := by
  intro h
  obtain ⟨iv, hiv, c, hc, c', hreplaced, hself, hne⟩ := tampered_or_back enc.on h.back
  rcases h.tampered iv hiv c hc c' hreplaced with hnone | hsome
  · rw [hself] at hnone
    cases hnone
  · rw [hself] at hsome
    exact hne (Option.some.inj hsome)

/-- A cipher that leaves the text as it is. -/
def plainGcm : AesGcm where
  sealWith _ _ plain := (plain, List.replicate 16 0)
  openWith _ _ tag sealed := if tag = List.replicate 16 0 then some sealed else none
  length_sealed _ _ _ := rfl
  length_tag _ _ _ := List.length_replicate
  open_iff _ _ tag sealed plain := by
    split
    next h =>
      subst h
      simp [eq_comm]
    next h => simpa using fun _ => Ne.symm h

/-- A service with one key. -/
def oneKey : EnabledEncryption := ⟨⟨true, [(units "master", List.replicate 32 0)], units "master"⟩, rfl⟩

/-- Sealing the letter a under the one key, with the first character replaced. -/
theorem not_fieldRoundTrip_oneKey : ¬ ∀ (gcm : AesGcm) (enc : EnabledEncryption) (plaintext keyRef : Text),
    (enc.keys.lookup keyRef).isSome → FieldRoundTrip gcm enc.toFieldEncryption plaintext keyRef := by
  intro h
  have hround := h plainGcm oneKey (units "a") (units "master") (by decide +kernel)
  have hsealed : oneKey.encrypt plainGcm (List.replicate 12 0) (units "a") (units "master") =
      some (units "AQAAAAAAAAAAAAAAAAAAAAAAAAAAAAAAAAAAAABh") := by decide +kernel
  have htampered := hround.tampered _ List.length_replicate _ hsealed (units "=QAAAAAAAAAAAAAAAAAAAAAAAAAAAAAAAAAAAABh")
    ⟨[], 0x41, 0x3D, units "QAAAAAAAAAAAAAAAAAAAAAAAAAAAAAAAAAAAABh", by decide +kernel, by decide +kernel⟩
  revert htampered
  decide +kernel

end ChronoSynth.Storage

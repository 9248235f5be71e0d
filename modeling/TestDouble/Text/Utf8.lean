/-!
# Texts as bytes

A text is written as bytes in UTF-8. Bytes that are no UTF-8 spell no text. Where bytes have to be shown all the same, every byte
that can neither start a character nor go on with one is shown as one replacement character, and so are the bytes of a character
that breaks off (`mended`). Of the UTF-8 form of a text the text is shown (`mended_utf8`).
-/

namespace TestDouble.Text

/-- The UTF-8 form of a text. -/
def utf8 (text : String) : List UInt8 := text.toUTF8.data.toList

/-- The text that bytes spell, if they are UTF-8. -/
def ofUtf8? (bytes : List UInt8) : Option String := String.fromUTF8? ⟨bytes.toArray⟩

/-- A text is spelled by its UTF-8 form. -/
@[simp] theorem ofUtf8?_utf8 (text : String) : ofUtf8? (utf8 text) = some text := dif_pos text.isValidUTF8

/-- Bytes spell a text exactly when they are its UTF-8 form. -/
theorem ofUtf8?_eq_some_iff (bytes : List UInt8) (text : String) : ofUtf8? bytes = some text ↔ bytes = utf8 text := by
  constructor
  · intro h
    rw [ofUtf8?, String.fromUTF8?, Option.dite_none_right_eq_some] at h
    obtain ⟨hvalid, htext⟩ := h
    cases htext
    rfl
  · rintro rfl
    exact ofUtf8?_utf8 text

/-- The UTF-8 form of a text is that of its characters, one after another. -/
theorem utf8_eq_flatMap (text : String) : utf8 text = text.toList.flatMap String.utf8EncodeChar := by
  rw [utf8, String.toUTF8_eq_toByteArray, ← String.ofList_toList (s := text), String.toByteArray_ofList, List.utf8Encode,
    List.data_toByteArray, String.toList_ofList]

/-! ## Bytes that have to be shown -/

/-- What is shown in place of bytes that are no character. -/
def replacement : Char := Char.ofNat 0xFFFD

/-- A character of which some bytes have been read and some are missing. -/
structure OpenChar where
  /-- The bits that have been read. -/
  bits : Nat
  /-- The number of bytes that are missing. -/
  missing : Nat
  /-- The lowest byte that may come next. -/
  lowest : Nat
  /-- The highest byte that may come next. -/
  highest : Nat

/-- What is shown of a byte that follows no open character, and the character that it opens, if it opens one. The bounds for the
second byte keep out forms that are too long, surrogates and code points above the last one. -/
def openWith (byte : Nat) : List Char × Option OpenChar :=
  if byte < 0x80 then ([Char.ofNat byte], none)
  else if byte < 0xC2 then ([replacement], none)
  else if byte < 0xE0 then ([], some ⟨byte - 0xC0, 1, 0x80, 0xBF⟩)
  else if byte < 0xF0 then
    ([], some ⟨byte - 0xE0, 2, if byte = 0xE0 then 0xA0 else 0x80, if byte = 0xED then 0x9F else 0xBF⟩)
  else if byte < 0xF5 then
    ([], some ⟨byte - 0xF0, 3, if byte = 0xF0 then 0x90 else 0x80, if byte = 0xF4 then 0x8F else 0xBF⟩)
  else ([replacement], none)

/-- What is shown of a byte that follows an open character, and the character that is open then, if one is. A byte that cannot go
on with the character breaks it off. -/
def OpenChar.goOn (opened : OpenChar) (byte : Nat) : List Char × Option OpenChar :=
  let bits := opened.bits * 64 + (byte - 0x80)
  if byte < opened.lowest ∨ opened.highest < byte then (replacement :: (openWith byte).1, (openWith byte).2)
  else if opened.missing ≤ 1 then ([Char.ofNat bits], none)
  else ([], some ⟨bits, opened.missing - 1, 0x80, 0xBF⟩)

/-- The characters that are shown of bytes behind a character that may be open. -/
def mendedFrom : Option OpenChar → List UInt8 → List Char
  | none, [] => []
  | some _, [] => [replacement]
  | none, byte :: rest => (openWith byte.toNat).1 ++ mendedFrom (openWith byte.toNat).2 rest
  | some opened, byte :: rest => (opened.goOn byte.toNat).1 ++ mendedFrom (opened.goOn byte.toNat).2 rest

/-- The text that is shown of bytes. -/
def mended (bytes : List UInt8) : String := String.ofList (mendedFrom none bytes)

/-! ## What is shown of texts -/

section Reading

variable {n bits missing lowest highest : Nat} (rest : List UInt8)

/-- A byte is read back from the number that it is made of. -/
theorem toNat_byte (h : n < 256) : (UInt8.ofNat n).toNat = n := by
  rw [UInt8.toNat_ofNat', Nat.mod_eq_of_lt h]

/-- A first byte below `0x80` is a character. -/
theorem mendedFrom_single (h : n < 0x80) :
    mendedFrom none (UInt8.ofNat n :: rest) = Char.ofNat n :: mendedFrom none rest := by
  rw [mendedFrom, toNat_byte (by omega), openWith, if_pos h]
  rfl

/-- A first byte that opens a character of two bytes. -/
theorem mendedFrom_openTwo (hlow : 0xC2 ≤ n) (hhigh : n < 0xE0) :
    mendedFrom none (UInt8.ofNat n :: rest) = mendedFrom (some ⟨n - 0xC0, 1, 0x80, 0xBF⟩) rest := by
  rw [mendedFrom, toNat_byte (by omega), openWith, if_neg (by omega), if_neg (by omega), if_pos hhigh]
  rfl

/-- A first byte that opens a character of three bytes. -/
theorem mendedFrom_openThree (hlow : 0xE0 ≤ n) (hhigh : n < 0xF0) :
    mendedFrom none (UInt8.ofNat n :: rest) =
      mendedFrom (some ⟨n - 0xE0, 2, if n = 0xE0 then 0xA0 else 0x80, if n = 0xED then 0x9F else 0xBF⟩) rest := by
  rw [mendedFrom, toNat_byte (by omega), openWith, if_neg (by omega), if_neg (by omega), if_neg (by omega), if_pos hhigh]
  rfl

/-- A first byte that opens a character of four bytes. -/
theorem mendedFrom_openFour (hlow : 0xF0 ≤ n) (hhigh : n < 0xF5) :
    mendedFrom none (UInt8.ofNat n :: rest) =
      mendedFrom (some ⟨n - 0xF0, 3, if n = 0xF0 then 0x90 else 0x80, if n = 0xF4 then 0x8F else 0xBF⟩) rest := by
  rw [mendedFrom, toNat_byte (by omega), openWith, if_neg (by omega), if_neg (by omega), if_neg (by omega),
    if_neg (by omega), if_pos hhigh]
  rfl

/-- A byte that may come next, where more than one is missing, leaves the character open. -/
theorem mendedFrom_goOn (hmissing : 1 < missing) (hlow : lowest ≤ n) (hhigh : n ≤ highest) (hn : n < 256) :
    mendedFrom (some ⟨bits, missing, lowest, highest⟩) (UInt8.ofNat n :: rest) =
      mendedFrom (some ⟨bits * 64 + (n - 0x80), missing - 1, 0x80, 0xBF⟩) rest := by
  have hinside : ¬(n < lowest ∨ highest < n) := by omega
  rw [mendedFrom, toNat_byte hn, OpenChar.goOn, if_neg hinside, if_neg (Nat.not_le.mpr hmissing)]
  rfl

/-- A byte that may come next, where one is missing, completes the character. -/
theorem mendedFrom_complete {v : Nat} (hlow : lowest ≤ n) (hhigh : n ≤ highest) (hn : n < 256)
    (hv : bits * 64 + (n - 0x80) = v) :
    mendedFrom (some ⟨bits, 1, lowest, highest⟩) (UInt8.ofNat n :: rest) = Char.ofNat v :: mendedFrom none rest := by
  have hinside : ¬(n < lowest ∨ highest < n) := by omega
  rw [mendedFrom, toNat_byte hn, OpenChar.goOn, if_neg hinside, if_pos (Nat.le_refl 1), hv]
  rfl

end Reading

/-- Of the UTF-8 form of a character the character is shown. -/
theorem mendedFrom_utf8EncodeChar (c : Char) (rest : List UInt8) :
    mendedFrom none (String.utf8EncodeChar c ++ rest) = c :: mendedFrom none rest := by
  have hvalid : c.toNat < 0xD800 ∨ 0xDFFF < c.toNat ∧ c.toNat < 0x110000 := c.valid
  have hc : c = Char.ofNat c.toNat := (Char.ofNat_toNat c).symm
  rw [String.utf8EncodeChar, show c.val.toNat = c.toNat from rfl]
  generalize c.toNat = v at hvalid hc
  subst hc
  by_cases h1 : v ≤ 127
  · rw [if_pos h1]
    exact mendedFrom_single rest (by omega)
  by_cases h2 : v ≤ 2047
  · rw [if_neg h1, if_pos h2]
    simp only [List.cons_append, List.nil_append]
    rw [mendedFrom_openTwo _ (by omega) (by omega)]
    exact mendedFrom_complete _ (by omega) (by omega) (by omega) (by omega)
  by_cases h3 : v ≤ 65535
  · rw [if_neg h1, if_neg h2, if_pos h3]
    simp only [List.cons_append, List.nil_append]
    rw [mendedFrom_openThree _ (by omega) (by omega),
      mendedFrom_goOn _ (by omega) (by split <;> omega) (by split <;> omega) (by omega)]
    exact mendedFrom_complete _ (by omega) (by omega) (by omega) (by omega)
  · rw [if_neg h1, if_neg h2, if_neg h3]
    simp only [List.cons_append, List.nil_append]
    rw [mendedFrom_openFour _ (by omega) (by omega),
      mendedFrom_goOn _ (by omega) (by split <;> omega) (by split <;> omega) (by omega),
      mendedFrom_goOn _ (by omega) (by omega) (by omega) (by omega)]
    exact mendedFrom_complete _ (by omega) (by omega) (by omega) (by omega)

/-- Of the UTF-8 form of a text the text is shown. -/
@[simp] theorem mended_utf8 (text : String) : mended (utf8 text) = text := by
  have hchars (chars : List Char) : mendedFrom none (chars.flatMap String.utf8EncodeChar) = chars := by
    induction chars with
    | nil => rfl
    | cons c chars ih => rw [List.flatMap_cons, mendedFrom_utf8EncodeChar, ih]
  rw [mended, utf8_eq_flatMap, hchars, String.ofList_toList]

end TestDouble.Text

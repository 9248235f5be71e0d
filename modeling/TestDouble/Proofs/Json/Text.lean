import TestDouble.Json.Token
import TestDouble.Proofs.Number.Text

/-!
# The text of a data value determines the value

A written string is read back as itself (`token?_writeText`). The text of a value ends where it ends whatever follows, as long
as no number is continued (`write_append_inj`): the first character tells the kind, a string ends at its quote, a number where
its characters end, and arrays and objects at the bracket that closes them. So values with the same canonical text have the
same sorted form (`canonicalText_eq_iff`).
-/

namespace TestDouble.Json

/-! ## Strings are read back -/

/-- The piece that an escaped character is read as: control characters without a letter of their own are written as units. -/
def pieceOf (c : Char) : Piece :=
  if (shortEscapes.lookup c).isNone ∧ c.toNat < 0x20 then .unit c.toNat else .char c

/-- The hexadecimal digits of a control character are read back. -/
theorem hexNumber?_control {n : Nat} (h : n < 0x20) :
    Text.hexNumber? ['0', '0', Nat.digitChar (n / 16), Nat.digitChar (n % 16)] = some n := by
  have hall : ∀ n < 0x20, Text.hexNumber? ['0', '0', Nat.digitChar (n / 16), Nat.digitChar (n % 16)] = some n := by
    decide
  exact hall n h

/-- Every letter of an escape is read back as its character, and none announces a code point. -/
theorem unescape?_of_mem : ∀ entry ∈ shortEscapes, entry.2 ≠ 'u' ∧ unescape? entry.2 = some entry.1 := by
  decide

/-- A letter after a backslash is read as the character it stands for. -/
theorem pieces?_letter {letter c : Char} (hu : letter ≠ 'u') (h : unescape? letter = some c) (rest : List Char) :
    pieces? ('\\' :: letter :: rest) = (pieces? rest).map (fun read => (.char c :: read.1, read.2)) := by
  rw [pieces?, h]
  · cases pieces? rest <;> rfl
  · intro _ _ _ _ _ he
    exact absurd he hu

/-- A character that needs no escape is read as itself. -/
theorem pieces?_plain {c : Char} (hquote : c ≠ '"') (hslash : c ≠ '\\') (hcontrol : ¬c.toNat < 0x20) (rest : List Char) :
    pieces? (c :: rest) = (pieces? rest).map (fun read => (.char c :: read.1, read.2)) := by
  rw [pieces?, if_neg hcontrol]
  · exact hquote
  · intro _ _ _ _ _ he
    exact absurd he hslash
  · intro _ _ he
    exact absurd he hslash

/-- An escaped character is read as one piece, whatever follows. -/
theorem pieces?_escapeChar (c : Char) (rest : List Char) :
    pieces? (escapeChar c ++ rest) = (pieces? rest).map (fun read => (pieceOf c :: read.1, read.2)) := by
  unfold escapeChar pieceOf
  cases hletter : shortEscapes.lookup c with
  | some letter =>
    obtain ⟨before, after, hentries, -⟩ := List.lookup_eq_some_iff.mp hletter
    have hmem : (c, letter) ∈ shortEscapes := by
      rw [hentries]
      exact List.mem_append_right before List.mem_cons_self
    obtain ⟨hu, hread⟩ := unescape?_of_mem (c, letter) hmem
    have hletter? : ¬((some letter).isNone = true ∧ c.toNat < 0x20) := fun h => Bool.false_ne_true h.1
    rw [if_neg hletter?]
    exact pieces?_letter hu hread rest
  | none =>
    simp only
    by_cases hcontrol : c.toNat < 0x20
    · rw [if_pos hcontrol, if_pos ⟨rfl, hcontrol⟩]
      simp only [List.cons_append, List.nil_append, pieces?, hexNumber?_control hcontrol]
      cases pieces? rest <;> rfl
    · have hquote : c ≠ '"' := by
        rintro rfl
        cases hletter
      have hslash : c ≠ '\\' := by
        rintro rfl
        cases hletter
      rw [if_neg hcontrol, if_neg (fun h => hcontrol h.2)]
      exact pieces?_plain hquote hslash hcontrol rest

/-- The characters of a string up to its closing quote are read as one piece each. -/
theorem pieces?_flatMap_escapeChar (chars rest : List Char) :
    pieces? (chars.flatMap escapeChar ++ '"' :: rest) = some (chars.map pieceOf, rest) := by
  induction chars with
  | nil => rw [List.flatMap_nil, List.nil_append, pieces?, List.map_nil]
  | cons c tail ih =>
    rw [List.flatMap_cons, List.append_assoc, pieces?_escapeChar, ih]
    rfl

/-- The first piece of a written string spells its character. -/
theorem spell?_pieceOf_cons (c : Char) (pieces : List Piece) :
    spell? (pieceOf c :: pieces) = (spell? pieces).map (c :: ·) := by
  unfold pieceOf
  split
  · rename_i h
    have hhigh : isHighUnit c.toNat = false := decide_eq_false (by omega)
    have hlow : isLowUnit c.toNat = false := decide_eq_false (by omega)
    cases pieces with
    | nil => simp [spell?, hhigh, hlow]
    | cons piece tail =>
      cases piece with
      | char other => simp [spell?, hhigh, hlow]
      | unit value => simp [spell?, hhigh, hlow]
  · rw [spell?]

/-- The pieces of a written string spell the string. -/
theorem spell?_map_pieceOf (chars : List Char) : spell? (chars.map pieceOf) = some chars := by
  induction chars with
  | nil => rfl
  | cons c tail ih =>
    rw [List.map_cons, spell?_pieceOf_cons, ih]
    rfl

/-- A written string is read back as itself, whatever follows it. -/
theorem token?_writeText (text : String) (rest : List Char) :
    token? (writeText text ++ rest) = some (.text (some text), rest) := by
  have htext : writeText text ++ rest = '"' :: (text.toList.flatMap escapeChar ++ '"' :: rest) := by
    rw [writeText, List.append_assoc, List.cons_append]
    rfl
  rw [htext, token?_quote, pieces?_flatMap_escapeChar, Option.map_some]
  simp only [spell?_map_pieceOf, Option.map_some, String.ofList_toList]

/-- A written string ends where it ends, whatever follows it. -/
theorem writeText_append_inj {a b : String} {r s : List Char} (h : writeText a ++ r = writeText b ++ s) :
    a = b ∧ r = s := by
  have hread := token?_writeText a r
  rw [h, token?_writeText] at hread
  simp only [Option.some.injEq, Prod.mk.injEq, Token.text.injEq] at hread
  exact ⟨hread.1.symm, hread.2.symm⟩

/-! ## Where a text ends -/

/-- A text that does not continue a number in front of it. -/
def Stops (rest : List Char) : Prop := ∀ c tail, rest = c :: tail → Number.isNumberChar c = false

theorem stops_nil : Stops [] := fun _ _ h => nomatch h

/-- A text whose first character is not one of numbers continues no number. -/
theorem stops_cons {c : Char} (h : Number.isNumberChar c = false) (tail : List Char) : Stops (c :: tail) := by
  rintro d rest he
  obtain ⟨rfl, -⟩ := List.cons.inj he
  exact h

/-- The text of a part tells the part and where it ends: no other part has a text that goes on in the same way, as long as
nothing behind either of them continues a number. -/
def Decodes {α : Type} (text : α → List Char) (a : α) : Prop :=
  ∀ b r s, Stops r → Stops s → text a ++ r = text b ++ s → a = b ∧ r = s

/-- The text of a number ends where the characters of numbers end. -/
theorem takeWhile_text_append (n : Number) {rest : List Char} (h : Stops rest) :
    (n.text ++ rest).takeWhile Number.isNumberChar = n.text := by
  have hrest : rest.takeWhile Number.isNumberChar = [] := by
    cases rest with
    | nil => rfl
    | cons c tail => rw [List.takeWhile_cons, if_neg (by rw [h c tail rfl]; exact Bool.false_ne_true)]
  rw [List.takeWhile_append_of_pos Number.isNumberChar_of_mem_text, hrest, List.append_nil]

/-- Numbers are determined by their text. -/
theorem decodes_number (n : Number) : Decodes Number.text n := by
  intro m r s hr hs h
  have htext : n.text = m.text := by rw [← takeWhile_text_append n hr, h, takeWhile_text_append m hs]
  rw [htext] at h
  exact ⟨Number.text_inj htext, List.append_cancel_left h⟩

/-! ## Parts with commas between them -/

/-- The texts of parts with commas between them. -/
def separated {α : Type} (text : α → List Char) : List α → List Char
  | [] => []
  | [a] => text a
  | a :: next :: rest => text a ++ ',' :: separated text (next :: rest)

/-- What follows a part: the rest of the parts behind a comma, or the closing bracket. -/
def afterPart {α : Type} (text : α → List Char) (close : Char) (after : List Char) : List α → List Char
  | [] => close :: after
  | next :: rest => ',' :: (separated text (next :: rest) ++ close :: after)

section Separated

variable {α : Type} {text : α → List Char} {close : Char}

/-- The first of several parts and what follows it. -/
theorem separated_cons_append (a : α) (rest : List α) (after : List Char) :
    separated text (a :: rest) ++ close :: after = text a ++ afterPart text close after rest := by
  cases rest with
  | nil => rfl
  | cons next rest => rw [separated, afterPart, List.append_assoc, List.cons_append]

/-- What follows a part continues no number. -/
theorem stops_afterPart (hclose : Number.isNumberChar close = false) (after : List Char) (rest : List α) :
    Stops (afterPart text close after rest) := by
  cases rest with
  | nil => exact stops_cons hclose after
  | cons next rest => exact stops_cons rfl _

/-- Parts up to a closing bracket are determined by their text if each of them is, and if none of them can be taken for the
bracket. -/
theorem separated_append_inj (hclose : Number.isNumberChar close = false) (hcomma : close ≠ ',')
    (hhead : ∀ a : α, ∃ c tail, text a = c :: tail ∧ c ≠ close) {as : List α} (has : ∀ a ∈ as, Decodes text a)
    {bs : List α} {r s : List Char} (h : separated text as ++ close :: r = separated text bs ++ close :: s) :
    as = bs ∧ r = s := by
  have hne (a : α) (rest : List α) (after tail : List Char) :
      close :: tail ≠ separated text (a :: rest) ++ close :: after := by
    obtain ⟨c, start, hstart, hc⟩ := hhead a
    rw [separated_cons_append, hstart, List.cons_append]
    intro he
    exact hc (List.cons.inj he).1.symm
  induction as generalizing bs with
  | nil =>
    cases bs with
    | nil => exact ⟨rfl, (List.cons.inj h).2⟩
    | cons b bs => exact absurd h (hne b bs s r)
  | cons a as ih =>
    cases bs with
    | nil => exact absurd h.symm (hne a as r s)
    | cons b bs =>
      rw [separated_cons_append, separated_cons_append] at h
      obtain ⟨rfl, hafter⟩ := has a List.mem_cons_self b _ _ (stops_afterPart hclose r as)
        (stops_afterPart hclose s bs) h
      cases as with
      | nil =>
        cases bs with
        | nil => exact ⟨rfl, (List.cons.inj hafter).2⟩
        | cons b bs => exact absurd (List.cons.inj hafter).1 hcomma
      | cons a' as =>
        cases bs with
        | nil => exact absurd (List.cons.inj hafter).1.symm hcomma
        | cons b' bs =>
          obtain ⟨hrest, hend⟩ := ih (fun a ha => has a (List.mem_cons_of_mem _ ha)) (List.cons.inj hafter).2
          exact ⟨congrArg _ hrest, hend⟩

end Separated

/-- A member of an object. -/
def writeMember (member : String × Json) : List Char := writeText member.1 ++ ':' :: write member.2

theorem writeItems_eq (items : List Json) : writeItems items = separated write items := by
  induction items with
  | nil => rfl
  | cons item rest ih =>
    cases rest with
    | nil => rfl
    | cons next rest => rw [writeItems, separated, ih]

theorem writeMembers_eq (members : List (String × Json)) : writeMembers members = separated writeMember members := by
  induction members with
  | nil => rfl
  | cons member rest ih =>
    cases rest with
    | nil => rfl
    | cons next rest =>
      obtain ⟨name, value⟩ := member
      rw [writeMembers, separated, ih, writeMember, List.append_assoc, List.cons_append]

/-! ## Values -/

/-- The kinds of values that the first character of a text tells apart. -/
inductive Lead where
  | null
  | bool (value : Bool)
  | number
  | text
  | array
  | object
  | none

/-- The kind of a value. -/
def lead : Json → Lead
  | .null => .null
  | .bool value => .bool value
  | .number _ => .number
  | .text _ => .text
  | .array _ => .array
  | .object _ => .object

/-- The kind of the values that start with a character. -/
def leadOf (c : Char) : Lead :=
  if c = 'n' then .null
  else if c = 't' then .bool true
  else if c = 'f' then .bool false
  else if c.isDigit = true ∨ c = '-' then .number
  else if c = '"' then .text
  else if c = '[' then .array
  else if c = '{' then .object
  else .none

/-- The first character of a text tells the kind of the value. -/
theorem exists_write_eq_cons (value : Json) : ∃ c tail, write value = c :: tail ∧ leadOf c = lead value := by
  cases value with
  | null => exact ⟨'n', _, rfl, rfl⟩
  | bool value =>
    cases value with
    | false => exact ⟨'f', _, rfl, rfl⟩
    | true => exact ⟨'t', _, rfl, rfl⟩
  | number value =>
    obtain ⟨c, rest, htext, hc⟩ := Number.exists_text_eq_cons value
    refine ⟨c, rest, htext, ?_⟩
    have hn : c ≠ 'n' := by rintro rfl; simp at hc
    have ht : c ≠ 't' := by rintro rfl; simp at hc
    have hf : c ≠ 'f' := by rintro rfl; simp at hc
    rw [leadOf, if_neg hn, if_neg ht, if_neg hf, if_pos hc]
    rfl
  | text value => exact ⟨'"', _, rfl, rfl⟩
  | array items => exact ⟨'[', _, rfl, rfl⟩
  | object members => exact ⟨'{', _, rfl, rfl⟩

/-- Values whose texts start alike are of one kind. -/
theorem lead_eq_of_write_append {a b : Json} {r s : List Char} (h : write a ++ r = write b ++ s) : lead a = lead b := by
  obtain ⟨c, tail, ha, hlead⟩ := exists_write_eq_cons a
  obtain ⟨d, tail', hb, hlead'⟩ := exists_write_eq_cons b
  rw [ha, hb, List.cons_append, List.cons_append] at h
  rw [← hlead, ← hlead', (List.cons.inj h).1]

/-- No value starts with a closing square bracket. -/
theorem exists_write_eq_cons_ne (value : Json) : ∃ c tail, write value = c :: tail ∧ c ≠ ']' := by
  obtain ⟨c, tail, htext, hlead⟩ := exists_write_eq_cons value
  refine ⟨c, tail, htext, ?_⟩
  rintro rfl
  cases value <;> cases hlead

/-- A member is determined by its text if its value is. -/
theorem decodes_writeMember {member : String × Json} (h : Decodes write member.2) : Decodes writeMember member := by
  rintro ⟨name, value⟩ r s hr hs he
  rw [writeMember, writeMember, List.append_assoc, List.append_assoc] at he
  obtain ⟨hname, hrest⟩ := writeText_append_inj he
  obtain ⟨hvalue, hend⟩ := h value r s hr hs (List.cons.inj hrest).2
  exact ⟨Prod.ext hname hvalue, hend⟩

mutual

/-- Values are determined by their text. -/
theorem decodes_write : ∀ value : Json, Decodes write value
  | .null => by
    intro b r s _ _ h
    have hlead := lead_eq_of_write_append h
    cases b <;> cases hlead
    exact ⟨rfl, List.append_cancel_left h⟩
  | .bool value => by
    intro b r s _ _ h
    have hlead := lead_eq_of_write_append h
    cases b <;> cases hlead
    exact ⟨rfl, List.append_cancel_left h⟩
  | .number value => by
    intro b r s hr hs h
    have hlead := lead_eq_of_write_append h
    cases b <;> cases hlead
    rename_i other
    obtain ⟨rfl, hend⟩ := decodes_number value other r s hr hs h
    exact ⟨rfl, hend⟩
  | .text value => by
    intro b r s _ _ h
    have hlead := lead_eq_of_write_append h
    cases b <;> cases hlead
    obtain ⟨rfl, hend⟩ := writeText_append_inj h
    exact ⟨rfl, hend⟩
  | .array items => by
    intro b r s _ _ h
    have hlead := lead_eq_of_write_append h
    cases b <;> cases hlead
    rename_i others
    rw [write, write, writeItems_eq, writeItems_eq, List.append_assoc, List.append_assoc] at h
    have hdecodes := decodes_items items
    obtain ⟨rfl, hend⟩ := separated_append_inj rfl (by decide) exists_write_eq_cons_ne hdecodes (List.cons.inj h).2
    exact ⟨rfl, hend⟩
  | .object members => by
    intro b r s _ _ h
    have hlead := lead_eq_of_write_append h
    cases b <;> cases hlead
    rename_i others
    rw [write, write, writeMembers_eq, writeMembers_eq, List.append_assoc, List.append_assoc] at h
    have hdecodes := decodes_members members
    have hhead : ∀ member : String × Json, ∃ c tail, writeMember member = c :: tail ∧ c ≠ '}' :=
      fun member => ⟨'"', _, rfl, by decide⟩
    obtain ⟨rfl, hend⟩ := separated_append_inj rfl (by decide) hhead hdecodes (List.cons.inj h).2
    exact ⟨rfl, hend⟩

/-- The items of an array are determined by their texts. -/
theorem decodes_items : ∀ items : List Json, ∀ item ∈ items, Decodes write item
  | [] => nofun
  | first :: rest => by
    intro item hm
    rcases List.mem_cons.mp hm with he | hm
    · exact he ▸ decodes_write first
    · exact decodes_items rest item hm

/-- The members of an object are determined by their texts. -/
theorem decodes_members : ∀ members : List (String × Json), ∀ member ∈ members, Decodes writeMember member
  | [] => nofun
  | (name, value) :: rest => by
    intro member hm
    rcases List.mem_cons.mp hm with he | hm
    · exact he ▸ decodes_writeMember (decodes_write value)
    · exact decodes_members rest member hm

end

/-- Values with the same compact text are the same value. -/
theorem eq_of_compactText_eq {a b : Json} (h : a.compactText = b.compactText) : a = b := by
  have htext : write a ++ [] = write b ++ [] := congrArg (· ++ []) (String.ofList_injective h)
  exact (decodes_write a b [] [] stops_nil stops_nil htext).1

/-- Values have the same canonical text exactly when their sorted forms are the same. -/
theorem canonicalText_eq_iff (a b : Json) : a.canonicalText = b.canonicalText ↔ a.sorted = b.sorted :=
  ⟨eq_of_compactText_eq, congrArg compactText⟩

end TestDouble.Json

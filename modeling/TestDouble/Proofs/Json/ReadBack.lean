import Mathlib.Data.List.TakeDrop
import TestDouble.Json.Reader
import TestDouble.Proofs.Json.Text

/-!
# The text of a data value is read back

The compact text of a value is cut into the tokens it was written with (`tokens?_write`), and these tokens lead from where a
value is due to the end of that value (`foldlM_tokens`). So reading the text gives the document of the value
(`document?_compactText`), as long as its numbers are whole and fit sixty-four bits (`isExact`): other numbers are read with a
rounding of their own.
-/

namespace TestDouble.Json

mutual

/-- Whether every number of a value is a whole one that sixty-four bits hold, with or without a sign. -/
def isExact : Json → Bool
  | .number (.integer value) => decide (-Int.pow 2 63 ≤ value ∧ value < Int.pow 2 64)
  | .number (.real _) => false
  | .array items => areExact items
  | .object members => membersExact members
  | _ => true

/-- Whether every number of every item is exact. -/
def areExact : List Json → Bool
  | [] => true
  | item :: rest => isExact item && areExact rest

/-- Whether every number of every member is exact. -/
def membersExact : List (String × Json) → Bool
  | [] => true
  | (_, value) :: rest => isExact value && membersExact rest

end

mutual

/-- The tokens that a value is written with. -/
def tokens : Json → List Token
  | .null => [.leaf .null]
  | .bool value => [.leaf (.bool value)]
  | .number value => [.leaf (.number value)]
  | .text value => [.text (some value)]
  | .array items => .openList :: itemTokens items ++ [.closeList]
  | .object members => .openRecord :: memberTokens members ++ [.closeRecord]

/-- The tokens of the items of an array, with commas between them. -/
def itemTokens : List Json → List Token
  | [] => []
  | [item] => tokens item
  | item :: next :: rest => tokens item ++ .comma :: itemTokens (next :: rest)

/-- The tokens of the members of an object, with commas between them. -/
def memberTokens : List (String × Json) → List Token
  | [] => []
  | [(name, value)] => .text (some name) :: .colon :: tokens value
  | (name, value) :: next :: rest => .text (some name) :: .colon :: tokens value ++ .comma :: memberTokens (next :: rest)

end

@[simp] theorem isExact_null : Json.null.isExact = true := rfl

@[simp] theorem isExact_bool (value : Bool) : (Json.bool value).isExact = true := rfl

@[simp] theorem isExact_text (value : String) : (Json.text value).isExact = true := rfl

/-- A whole number of sixty-four bits is exact. -/
theorem isExact_integer {value : Int} (h : -Int.pow 2 63 ≤ value ∧ value < Int.pow 2 64) :
    (Json.number (.integer value)).isExact = true := by
  rw [isExact, decide_eq_true_eq]
  exact h

/-- An array is exact if all its items are. -/
@[simp] theorem isExact_array (items : List Json) : (Json.array items).isExact = items.all isExact := by
  have hitems : areExact items = items.all isExact := by
    induction items with
    | nil => rfl
    | cons item rest ih => rw [List.all_cons, ← ih, areExact]
  exact hitems

/-- An object is exact if all its members are. -/
@[simp] theorem isExact_object (members : List (String × Json)) :
    (Json.object members).isExact = members.all (fun member => member.2.isExact) := by
  have hmembers : membersExact members = members.all (fun member => member.2.isExact) := by
    induction members with
    | nil => rfl
    | cons member rest ih => rw [List.all_cons, ← ih, membersExact]
  exact hmembers

/-! ## Numerals -/

/-- A text that can follow a value: nothing, a comma or a closing bracket. -/
def Ends (rest : List Char) : Prop := ∀ c tail, rest = c :: tail → c = ',' ∨ c = ']' ∨ c = '}'

theorem ends_nil : Ends [] := fun _ _ h => nomatch h

theorem ends_cons {c : Char} (h : c = ',' ∨ c = ']' ∨ c = '}') (tail : List Char) : Ends (c :: tail) := by
  intro d rest he
  rwa [← (List.cons.inj he).1]

/-- A run of digits goes as far as there are digits. -/
theorem digitRun_append {digits rest : List Char} (h : AllDigits digits) (hrest : Ends rest) :
    digitRun (digits ++ rest) = (digits, rest) := by
  have hstop : rest.takeWhile Char.isDigit = [] ∧ rest.dropWhile Char.isDigit = rest := by
    cases rest with
    | nil => exact ⟨rfl, rfl⟩
    | cons c tail =>
      rcases hrest c tail rfl with rfl | rfl | rfl <;> exact ⟨rfl, rfl⟩
  rw [digitRun, List.span_eq_takeWhile_dropWhile, List.takeWhile_append_of_pos h, List.dropWhile_append_of_pos h,
    hstop.1, hstop.2, List.append_nil]

/-- The digits of a positive number do not start with a zero. -/
theorem exists_toDigits_eq_cons {n : Nat} (h : 0 < n) : ∃ c tail, Nat.toDigits 10 n = c :: tail ∧ c ≠ '0' := by
  induction n using Nat.strongRecOn with
  | ind n ih =>
    by_cases hsmall : n < 10
    · refine ⟨Nat.digitChar n, [], Nat.toDigits_of_lt_base hsmall, ?_⟩
      rw [ne_eq, Nat.digitChar_eq_zero]
      omega
    · obtain ⟨c, tail, htail, hc⟩ := ih (n / 10) (by omega) (by omega)
      refine ⟨c, tail ++ [Nat.digitChar (n % 10)], ?_, hc⟩
      rw [Nat.toDigits_of_base_le (by decide) (by omega), htail, List.cons_append]

/-- The digits of a whole number are read as the digits before the point. -/
theorem wholeDigits?_toDigits (n : Nat) {rest : List Char} (hrest : Ends rest) :
    wholeDigits? (Nat.toDigits 10 n ++ rest) = some (Nat.toDigits 10 n, rest) := by
  rw [wholeDigits?, digitRun_append (AllDigits.toDigits n) hrest]
  by_cases h : n = 0
  · subst h
    rfl
  · obtain ⟨c, tail, htext, hc⟩ := exists_toDigits_eq_cons (Nat.pos_of_ne_zero h)
    rw [htext]
    split <;> simp_all

/-- The digits of a whole number are read as a numeral without point and exponent. -/
theorem numeral?_toDigits (negative : Bool) (n : Nat) {rest : List Char} (hrest : Ends rest) :
    numeral? negative (Nat.toDigits 10 n ++ rest) = some (⟨negative, Nat.toDigits 10 n, [], 0, true⟩, rest) := by
  have hfraction : fractionDigits? rest = some (false, [], rest) := by
    cases rest with
    | nil => rfl
    | cons c tail => rcases hrest c tail rfl with rfl | rfl | rfl <;> rfl
  have hexponent : exponentPart? rest = some (false, 0, rest) := by
    cases rest with
    | nil => rfl
    | cons c tail => rcases hrest c tail rfl with rfl | rfl | rfl <;> rfl
  simp [numeral?, wholeDigits?_toDigits n hrest, hfraction, hexponent]

/-- A digit starts a numeral. -/
theorem token?_of_isDigit {c : Char} (h : c.isDigit = true) (rest : List Char) :
    token? (c :: rest) = (numeral? false (c :: rest)).map (fun (n, after) => (numberToken n, after)) := by
  have hne (mark : Char) (hmark : mark.isDigit = false) (tail : List Char) : c :: rest ≠ mark :: tail := by
    intro he
    rw [← (List.cons.inj he).1, h] at hmark
    cases hmark
  rw [token?] <;> exact fun tail => hne _ rfl _

/-- Digits of a number below 2^64 are those of an integer. -/
theorem numberToken_toDigits {n : Nat} (h : n < Nat.pow 2 64) :
    numberToken ⟨false, Nat.toDigits 10 n, [], 0, true⟩ = .leaf (.number (.integer n)) := by
  simp [numberToken, Numeral.number?, Decimal.valueOf_toDigits, h]

/-- Digits of a positive number up to 2^63 behind a minus sign are those of an integer. -/
theorem numberToken_minus_toDigits {n : Nat} (hpos : 0 < n) (h : n ≤ Nat.pow 2 63) :
    numberToken ⟨true, Nat.toDigits 10 n, [], 0, true⟩ = .leaf (.number (.integer (-n))) := by
  simp [numberToken, Numeral.number?, Decimal.valueOf_toDigits, hpos, h]

/-- A whole number of sixty-four bits is read back from its text. -/
theorem token?_wholeText {n : Int} (h : -Int.pow 2 63 ≤ n ∧ n < Int.pow 2 64) {rest : List Char} (hrest : Ends rest) :
    token? (Number.wholeText n ++ rest) = some (.leaf (.number (.integer n)), rest) := by
  have hlow : Int.pow 2 63 = 9223372036854775808 := rfl
  have hhigh : Int.pow 2 64 = 18446744073709551616 := rfl
  rw [hlow, hhigh] at h
  cases n with
  | ofNat n =>
    obtain ⟨c, tail, htext, hdigit⟩ := (Number.unsigned_toDigits n).head
    have hbound : n < Nat.pow 2 64 := by
      change n < 18446744073709551616
      simp only [Int.ofNat_eq_natCast] at h
      omega
    have hnumeral := numeral?_toDigits false n hrest
    rw [htext, List.cons_append] at hnumeral
    rw [Number.wholeText, htext, List.cons_append, token?_of_isDigit hdigit, hnumeral, ← htext]
    simp only [Option.map_some, numberToken_toDigits hbound]
    rfl
  | negSucc n =>
    have hbound : n + 1 ≤ Nat.pow 2 63 := by
      change n + 1 ≤ 9223372036854775808
      omega
    rw [Number.wholeText, List.cons_append, token?_minus, numeral?_toDigits true (n + 1) hrest]
    simp only [Option.map_some, numberToken_minus_toDigits n.succ_pos hbound]
    rfl

/-! ## The tokens of a text -/

/-- A text starts with some tokens, each read with one step, and the rest follows them. -/
structure Starts (source : List Char) (tokens : List Token) (rest : List Char) : Prop where
  shorter : tokens.length + rest.length ≤ source.length
  reads : ∀ size, tokensWithin? (size + tokens.length) source = (tokensWithin? size rest).map (tokens ++ ·)

/-- Every text starts with no tokens. -/
theorem Starts.nil (source : List Char) : Starts source [] source where
  shorter := by simp
  reads size := by simp

/-- Tokens that follow the first ones. -/
theorem Starts.append {source between rest : List Char} {first others : List Token} (h : Starts source first between)
    (h' : Starts between others rest) : Starts source (first ++ others) rest where
  shorter := by
    have := h.shorter
    have := h'.shorter
    rw [List.length_append]
    omega
  reads size := by
    have hsize : size + (first ++ others).length = size + others.length + first.length := by
      rw [List.length_append]
      omega
    rw [hsize, h.reads, h'.reads, Option.map_map]
    congr 1
    funext tokens
    simp

/-- A text that starts with one token. -/
theorem Starts.single {c : Char} {tail rest : List Char} {token : Token} (hgap : isGap c = false)
    (h : token? (c :: tail) = some (token, rest)) (hlength : rest.length ≤ tail.length) :
    Starts (c :: tail) [token] rest where
  shorter := by
    simp only [List.length_cons, List.length_nil]
    omega
  reads size := by
    rw [List.length_singleton, tokensWithin?, List.dropWhile_cons_of_neg (by rw [hgap]; exact Bool.false_ne_true)]
    simp [h]

/-! ## Values -/

/-- A string in quotes is one token. -/
theorem starts_writeText (text : String) (rest : List Char) :
    Starts (writeText text ++ rest) [.text (some text)] rest := by
  have hread := token?_writeText text rest
  rw [writeText, List.append_assoc, List.cons_append] at hread ⊢
  exact .single rfl hread (by simp; omega)

/-- A number is one token. -/
theorem starts_wholeText {n : Int} (h : -Int.pow 2 63 ≤ n ∧ n < Int.pow 2 64) {rest : List Char} (hrest : Ends rest) :
    Starts (Number.wholeText n ++ rest) [.leaf (.number (.integer n))] rest := by
  obtain ⟨c, tail, htext, hc⟩ := Number.exists_text_eq_cons (.integer n)
  have hgap : isGap c = false := by
    rcases hc with hdigit | rfl
    · cases hc : isGap c with
      | false => rfl
      | true =>
        simp only [isGap, Bool.or_eq_true, beq_iff_eq] at hc
        rcases hc with ((rfl | rfl) | rfl) | rfl <;> cases hdigit
    · rfl
  have hread := token?_wholeText h hrest
  change Number.wholeText n = c :: tail at htext
  rw [htext, List.cons_append] at hread ⊢
  exact .single hgap hread (by simp)

/-- A comma is one token. -/
theorem starts_comma (rest : List Char) : Starts (',' :: rest) [.comma] rest := .single rfl rfl (Nat.le_refl _)

/-- A member of an object is its name, a colon and the tokens of its value. -/
theorem starts_member (name : String) {value : Json} {rest : List Char}
    (h : Starts (write value ++ rest) (tokens value) rest) :
    Starts (writeText name ++ ':' :: (write value ++ rest)) (.text (some name) :: .colon :: tokens value) rest := by
  have hname := starts_writeText name (':' :: (write value ++ rest))
  have hcolon : Starts (':' :: (write value ++ rest)) [.colon] (write value ++ rest) := .single rfl rfl (Nat.le_refl _)
  exact hname.append (hcolon.append h)

mutual

/-- The text of a value starts with its tokens, whatever follows it. -/
theorem starts_write : ∀ value : Json, value.isExact = true → ∀ rest, Ends rest →
    Starts (write value ++ rest) (tokens value) rest
  | .null, _, rest, _ => .single rfl rfl (by simp; omega)
  | .bool true, _, rest, _ => .single rfl rfl (by simp; omega)
  | .bool false, _, rest, _ => .single rfl rfl (by simp; omega)
  | .number (.integer _), hexact, _, hrest => starts_wholeText (of_decide_eq_true hexact) hrest
  | .number (.real _), hexact, _, _ => nomatch hexact
  | .text value, _, rest, _ => starts_writeText value rest
  | .array items, hexact, rest, _ => by
    have hopen : Starts ('[' :: (writeItems items ++ ']' :: rest)) [.openList] (writeItems items ++ ']' :: rest) :=
      .single rfl rfl (Nat.le_refl _)
    have hclose : Starts (']' :: rest) [.closeList] rest := .single rfl rfl (Nat.le_refl _)
    rw [write, List.append_assoc, List.cons_append]
    exact hopen.append ((starts_items items hexact rest).append hclose)
  | .object members, hexact, rest, _ => by
    have hopen : Starts ('\x7b' :: (writeMembers members ++ '\x7d' :: rest)) [.openRecord]
        (writeMembers members ++ '\x7d' :: rest) := .single rfl rfl (Nat.le_refl _)
    have hclose : Starts ('\x7d' :: rest) [.closeRecord] rest := .single rfl rfl (Nat.le_refl _)
    rw [write, List.append_assoc, List.cons_append]
    exact hopen.append ((starts_members members hexact rest).append hclose)

/-- The text of items starts with their tokens, up to the closing bracket. -/
theorem starts_items : ∀ items : List Json, areExact items = true → ∀ after,
    Starts (writeItems items ++ ']' :: after) (itemTokens items) (']' :: after)
  | [], _, _ => .nil _
  | [item], hexact, after => by
    rw [areExact, Bool.and_eq_true] at hexact
    exact starts_write item hexact.1 _ (ends_cons (by simp) after)
  | item :: next :: rest, hexact, after => by
    rw [areExact, Bool.and_eq_true] at hexact
    rw [writeItems, List.append_assoc, List.cons_append]
    have hitem := starts_write item hexact.1 (',' :: (writeItems (next :: rest) ++ ']' :: after)) (ends_cons (by simp) _)
    exact hitem.append ((starts_comma _).append (starts_items (next :: rest) hexact.2 after))

/-- The text of members starts with their tokens, up to the closing bracket. -/
theorem starts_members : ∀ members : List (String × Json), membersExact members = true → ∀ after,
    Starts (writeMembers members ++ '\x7d' :: after) (memberTokens members) ('\x7d' :: after)
  | [], _, _ => .nil _
  | [(name, value)], hexact, after => by
    rw [membersExact, Bool.and_eq_true] at hexact
    rw [writeMembers, List.append_assoc, List.cons_append]
    exact starts_member name (starts_write value hexact.1 _ (ends_cons (by simp) after))
  | (name, value) :: next :: rest, hexact, after => by
    rw [membersExact, Bool.and_eq_true] at hexact
    rw [writeMembers, List.append_assoc, List.append_assoc, List.cons_append, List.cons_append]
    have hvalue := starts_write value hexact.1 (',' :: (writeMembers (next :: rest) ++ '\x7d' :: after))
      (ends_cons (by simp) _)
    exact (starts_member name hvalue).append ((starts_comma _).append (starts_members (next :: rest) hexact.2 after))

end

/-- The text of a value is cut into the tokens it was written with. -/
theorem tokens?_write {value : Json} (h : value.isExact = true) : tokens? (write value) = some (tokens value) := by
  have hstarts := starts_write value h [] ends_nil
  rw [List.append_nil] at hstarts
  have hshorter := hstarts.shorter
  have hsize : (write value).length + 1 = (write value).length - (tokens value).length + 1 + (tokens value).length := by
    simp only [List.length_nil] at hshorter
    omega
  rw [tokens?, hsize, hstarts.reads, tokensWithin?]
  simp

/-! ## What tokens lead to -/

/-- A stage at which a value may start, below these open parts. Where a list has just been opened it may also end. -/
def Stage.Awaits (stage : Stage) (above : List Open) : Prop :=
  ∀ token next, start? above token = some next → stage.next? token = some next

theorem Stage.awaits_valueDue (above : List Open) : (Stage.valueDue above).Awaits above := fun _ _ h => h

theorem Stage.awaits_firstItem (above : List Open) : (Stage.firstItem above).Awaits (.list [] :: above) := by
  intro token next h
  cases token <;> first | exact h | cases h

/-- What a first token that starts a value leads to. -/
theorem Stage.Awaits.foldlM_cons {stage next : Stage} {above : List Open} (h : stage.Awaits above) (token : Token)
    (hstart : start? above token = some next) (others : List Token) :
    (token :: others).foldlM Stage.next? stage = others.foldlM Stage.next? next := by
  rw [List.foldlM_cons, h token next hstart]
  rfl

/-- A stage at which the name of a field may start, in a record with these fields so far, the latest first. -/
def Stage.AwaitsName (stage : Stage) (fields : List (Option String × Document)) (above : List Open) : Prop :=
  ∀ name, stage.next? (.text name) = some (.colonDue fields name above)

/-- A name and a colon lead to where the value of the field is due. -/
theorem Stage.AwaitsName.foldlM_cons {stage : Stage} {fields : List (Option String × Document)} {above : List Open}
    (h : stage.AwaitsName fields above) (name : Option String) (others : List Token) :
    (.text name :: .colon :: others).foldlM Stage.next? stage =
      others.foldlM Stage.next? (.valueDue (.record fields name :: above)) := by
  rw [List.foldlM_cons, h name]
  rfl

mutual

/-- The tokens of a value lead to its end. -/
theorem foldlM_tokens : ∀ (value : Json) {stage : Stage} {above : List Open}, stage.Awaits above →
    (tokens value).foldlM Stage.next? stage = some (.ended (.ofJson value) above)
  | .null, _, _, h => h.foldlM_cons (.leaf .null) rfl []
  | .bool value, _, _, h => h.foldlM_cons (.leaf (.bool value)) rfl []
  | .number value, _, _, h => h.foldlM_cons (.leaf (.number value)) rfl []
  | .text value, _, _, h => h.foldlM_cons (.text (some value)) rfl []
  | .array [], _, _, h => h.foldlM_cons .openList rfl [.closeList]
  | .array (item :: rest), stage, above, h => by
    rw [tokens, List.cons_append, h.foldlM_cons .openList rfl,
      foldlM_itemTokens (item :: rest) nofun (Stage.awaits_firstItem above)]
    rfl
  | .object [], _, _, h => h.foldlM_cons .openRecord rfl [.closeRecord]
  | .object (member :: rest), stage, above, h => by
    have hname : (Stage.firstName above).AwaitsName [] above := fun _ => rfl
    rw [tokens, List.cons_append, h.foldlM_cons .openRecord rfl, foldlM_memberTokens (member :: rest) nofun hname]
    rfl

/-- The tokens of items and a closing bracket lead to the end of a list: of what it held before, and the items. -/
theorem foldlM_itemTokens : ∀ (items : List Json), items ≠ [] → ∀ {stage : Stage} {done : List Document}
    {above : List Open}, stage.Awaits (.list done :: above) →
    (itemTokens items ++ [Token.closeList]).foldlM Stage.next? stage =
      some (.ended (.list (done.reverse ++ Document.ofJsonItems items)) above)
  | [], hne, _, _, _, _ => absurd rfl hne
  | [item], _, stage, done, above, h => by
    rw [itemTokens, List.foldlM_append, foldlM_tokens item h]
    simp [Stage.next?, Document.ofJsonItems]
  | item :: next :: rest, _, stage, done, above, h => by
    have hrest := foldlM_itemTokens (next :: rest) nofun (Stage.awaits_valueDue (.list (.ofJson item :: done) :: above))
    rw [List.reverse_cons, List.append_assoc] at hrest
    rw [itemTokens, List.append_assoc, List.cons_append, List.foldlM_append, foldlM_tokens item h]
    exact hrest

/-- The tokens of members and a closing bracket lead to the end of a record: of the fields it had before, and the members. -/
theorem foldlM_memberTokens : ∀ (members : List (String × Json)), members ≠ [] → ∀ {stage : Stage}
    {done : List (Option String × Document)} {above : List Open}, stage.AwaitsName done above →
    (memberTokens members ++ [Token.closeRecord]).foldlM Stage.next? stage =
      some (.ended (.record (done.reverse ++ Document.ofJsonMembers members)) above)
  | [], hne, _, _, _, _ => absurd rfl hne
  | [(name, value)], _, stage, done, above, h => by
    have hvalue := foldlM_tokens value (Stage.awaits_valueDue (.record done (some name) :: above))
    rw [memberTokens, List.cons_append, List.cons_append, h.foldlM_cons, List.foldlM_append, hvalue]
    simp [Stage.next?, Document.ofJsonMembers]
  | (name, value) :: next :: rest, _, stage, done, above, h => by
    have hvalue := foldlM_tokens value (Stage.awaits_valueDue (.record done (some name) :: above))
    have hname : (Stage.nameDue ((some name, .ofJson value) :: done) above).AwaitsName _ above := fun _ => rfl
    have hrest := foldlM_memberTokens (next :: rest) nofun hname
    rw [List.reverse_cons, List.append_assoc] at hrest
    rw [memberTokens, List.append_assoc, List.cons_append, List.cons_append, List.cons_append, h.foldlM_cons,
      List.foldlM_append, hvalue]
    exact hrest

end

/-- The compact text of a value, the numbers of which are exact, is read as the document of the value. -/
theorem document?_compactText {value : Json} (h : value.isExact = true) :
    document? value.compactText = some (.ofJson value) := by
  rw [document?, compactText, String.toList_ofList, tokens?_write h, Option.bind_some,
    foldlM_tokens value (Stage.awaits_valueDue [])]

end TestDouble.Json

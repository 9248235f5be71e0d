import Mathlib.Data.List.Basic
import TestDouble.Proofs.Members.KeyText
import TestDouble.Proofs.Text.Runs

/-!
# The grammar of keys

A key is the list of its words. It declares its last word, and the words in front of that must go together (`GoTogether`). Words
that declare nothing have a first flaw, in the order in which flaws count: there is no word at all, some word in front of the name
is no modifier, a constant has another modifier, or a member is both a method and a property (`FirstFlaw`). Every list of words
does the one or has the other, and a key is read accordingly (`key_grammar`).
-/

namespace TestDouble

namespace MemberKey

/-- The words that are modifiers. -/
def modifierWords : List String := ["static", "function", "var", "const"]

/-- A constant has another modifier. -/
def ModifiedConstant (front : List String) : Prop :=
  "const" ∈ front ∧ ("static" ∈ front ∨ "function" ∈ front ∨ "var" ∈ front)

instance (front : List String) : Decidable (ModifiedConstant front) :=
  inferInstanceAs (Decidable (_ ∧ _))

/-- The words in front of a name go together: all of them are modifiers, a constant has no other one, and a member is not both a
method and a property. -/
structure GoTogether (front : List String) : Prop where
  known : ∀ word ∈ front, word ∈ modifierWords
  constant : ¬ModifiedConstant front
  oneSort : ¬("function" ∈ front ∧ "var" ∈ front)

/-- What is wrong with words that declare nothing: the flaw that counts first. There is no word and so no name; or of the words
in front of the name one is no modifier, and it is the first such word; or all are modifiers and a constant has another one; or
no constant has another one, but the member is both a method and a property. -/
inductive FirstFlaw : List String → Flaw → Prop where
  | missingName : FirstFlaw [] .missingName
  | unknownModifier {before after : List String} {word name : String} (hbefore : ∀ known ∈ before, known ∈ modifierWords)
      (hword : word ∉ modifierWords) : FirstFlaw (before ++ word :: after ++ [name]) (.unknownModifier word)
  | modifiedConstant {front : List String} {name : String} (hknown : ∀ word ∈ front, word ∈ modifierWords)
      (hconstant : ModifiedConstant front) : FirstFlaw (front ++ [name]) .modifiedConstant
  | methodAndProperty {front : List String} {name : String} (hknown : ∀ word ∈ front, word ∈ modifierWords)
      (hconstant : ¬ModifiedConstant front) (hsorts : "function" ∈ front ∧ "var" ∈ front) :
      FirstFlaw (front ++ [name]) .methodAndProperty

/-- The key with a name and with the flags of the words in front of it. -/
def spelled (front : List String) (name : String) : MemberKey where
  name := name
  isStatic := front.contains "static"
  isFunction := front.contains "function"
  isProperty := front.contains "var"
  isConstant := front.contains "const"

/-! ## Words and modifiers -/

/-- Words that are modifiers are the words for some modifiers. -/
theorem exists_map_word {front : List String} (h : ∀ word ∈ front, word ∈ modifierWords) :
    ∃ listed : List Modifier, listed.map Modifier.word = front := by
  induction front with
  | nil => exact ⟨[], rfl⟩
  | cons word rest ih =>
    obtain ⟨hword, hrest⟩ := List.forall_mem_cons.mp h
    obtain ⟨listed, rfl⟩ := ih hrest
    obtain ⟨modifier, -, rfl⟩ : ∃ modifier ∈ [Modifier.static, .function, .var, .const], modifier.word = word :=
      List.mem_map.mp hword
    exact ⟨modifier :: listed, rfl⟩

/-- A word that is no modifier stands for none. -/
theorem ofWord?_eq_none {word : String} (h : word ∉ modifierWords) : Modifier.ofWord? word = none := by
  refine List.find?_eq_none.mpr fun modifier hmodifier hword => h ?_
  have hlisted : modifier.word ∈ modifierWords := List.mem_map_of_mem hmodifier
  rwa [beq_iff_eq.mp hword] at hlisted

/-- The first word that is no modifier is the flaw of the modifiers. -/
theorem modifiers_of_unknown {before : List String} (hbefore : ∀ known ∈ before, known ∈ modifierWords) {word : String}
    (hword : word ∉ modifierWords) (after : List String) :
    modifiers (before ++ word :: after) = .error (.unknownModifier word) := by
  induction before with
  | nil => rw [List.nil_append, modifiers, ofWord?_eq_none hword]
  | cons known rest ih =>
    obtain ⟨hknown, hrest⟩ := List.forall_mem_cons.mp hbefore
    obtain ⟨listed, hlisted⟩ := exists_map_word (List.forall_mem_singleton.mpr hknown)
    obtain ⟨modifier, -, rfl⟩ := List.map_eq_singleton_iff.mp hlisted
    rw [List.cons_append, modifiers, Modifier.ofWord?_word, ih hrest]
    rfl

/-- Different modifiers have different words. -/
theorem word_injective : Function.Injective Modifier.word := by
  intro modifier other h
  have hread := congrArg Modifier.ofWord? h
  rw [Modifier.ofWord?_word, Modifier.ofWord?_word] at hread
  exact Option.some.inj hread

/-- The flags of modifiers are the flags of their words. -/
theorem ofModifiers_eq_spelled (listed : List Modifier) (name : String) :
    ofModifiers name listed = spelled (listed.map Modifier.word) name := by
  have hcontains (modifier : Modifier) : (listed.map Modifier.word).contains modifier.word = listed.contains modifier := by
    rw [Bool.eq_iff_iff, List.contains_iff_mem, List.contains_iff_mem, List.mem_map_of_injective word_injective]
  rw [ofModifiers, ← hcontains, ← hcontains, ← hcontains, ← hcontains]
  rfl

/-- Words that are modifiers, and one word behind them, are read as that name with their flags, unless these clash. -/
theorem ofWords_concat {front : List String} (hknown : ∀ word ∈ front, word ∈ modifierWords) (name : String) :
    ofWords (front ++ [name]) = (clash? (spelled front name)).elim (.ok (spelled front name)) .error := by
  obtain ⟨listed, rfl⟩ := exists_map_word hknown
  simp only [ofWords, List.getLast?_concat, List.dropLast_concat, modifiers_map_word, ofModifiers_eq_spelled]
  cases clash? (spelled (listed.map Modifier.word) name) <;> rfl

/-- Flags clash exactly when the words do. -/
theorem clash?_spelled (front : List String) (name : String) :
    clash? (spelled front name) =
      if ModifiedConstant front then some .modifiedConstant
      else if "function" ∈ front ∧ "var" ∈ front then some .methodAndProperty
      else none := by
  have hconstant : ((spelled front name).isConstant && ((spelled front name).isStatic || (spelled front name).isFunction ||
      (spelled front name).isProperty)) = true ↔ ModifiedConstant front := by
    simp [spelled, ModifiedConstant, or_assoc]
  have hsorts : ((spelled front name).isFunction && (spelled front name).isProperty) = true ↔
      "function" ∈ front ∧ "var" ∈ front := by
    simp [spelled]
  rw [clash?]
  simp only [hconstant, hsorts]

/-! ## What words spell -/

/-- Words in front of a name that go together spell the key with that name and their flags. -/
theorem GoTogether.ofWords_eq {front : List String} (h : GoTogether front) (name : String) :
    ofWords (front ++ [name]) = .ok (spelled front name) := by
  rw [ofWords_concat h.known, clash?_spelled, if_neg h.constant, if_neg h.oneSort, Option.elim_none]

/-- Words that have a first flaw spell no key, and the flaw is what is wrong with them. -/
theorem FirstFlaw.ofWords_eq {words : List String} {flaw : Flaw} (h : FirstFlaw words flaw) : ofWords words = .error flaw := by
  cases h with
  | missingName => rfl
  | unknownModifier hbefore hword =>
    simp only [ofWords, List.getLast?_concat, List.dropLast_concat, modifiers_of_unknown hbefore hword]
  | modifiedConstant hknown hconstant => rw [ofWords_concat hknown, clash?_spelled, if_pos hconstant, Option.elim_some]
  | methodAndProperty hknown hconstant hsorts =>
    rw [ofWords_concat hknown, clash?_spelled, if_neg hconstant, if_pos hsorts, Option.elim_some]

/-- Words declare a name or have a first flaw. -/
theorem goTogether_or_firstFlaw (words : List String) :
    (∃ front name, words = front ++ [name] ∧ GoTogether front) ∨ ∃ flaw, FirstFlaw words flaw := by
  rcases List.eq_nil_or_concat' words with rfl | ⟨front, name, rfl⟩
  · exact .inr ⟨_, .missingName⟩
  · by_cases hknown : ∀ word ∈ front, word ∈ modifierWords
    · by_cases hconstant : ModifiedConstant front
      · exact .inr ⟨_, .modifiedConstant hknown hconstant⟩
      · by_cases hsorts : "function" ∈ front ∧ "var" ∈ front
        · exact .inr ⟨_, .methodAndProperty hknown hconstant hsorts⟩
        · exact .inl ⟨front, name, rfl, hknown, hconstant, hsorts⟩
    · obtain ⟨word, hfound⟩ : ∃ word, front.find? (fun word => !modifierWords.contains word) = some word := by
        rw [← Option.isSome_iff_exists, List.find?_isSome]
        simpa using hknown
      obtain ⟨hword, before, after, rfl, hbefore⟩ := List.find?_eq_some_iff_append.mp hfound
      exact .inr ⟨_, .unknownModifier (by simpa using hbefore) (by simpa using hword)⟩

/-- A text spells a key when its last word is the name and the words in front of it go together. -/
theorem parse_of_goTogether {text name : String} {front : List String} (hwords : Text.words text = front ++ [name])
    (h : GoTogether front) : parse text = .ok (spelled front name) := by
  rw [parse, hwords, h.ofWords_eq]
  rfl

/-- A text whose words have a first flaw is refused for it, and the refusal quotes the whole text. -/
theorem parse_of_firstFlaw {text : String} {flaw : Flaw} (h : FirstFlaw (Text.words text) flaw) :
    parse text = .error (.malformedEntry text flaw) := by
  rw [parse, h.ofWords_eq]
  rfl

/-- The keys that a text spells. -/
theorem parse_eq_ok_iff (text : String) (key : MemberKey) :
    parse text = .ok key ↔
      ∃ front name, Text.words text = front ++ [name] ∧ GoTogether front ∧ key = spelled front name := by
  constructor
  · intro hkey
    rcases goTogether_or_firstFlaw (Text.words text) with ⟨front, name, hwords, htogether⟩ | ⟨flaw, hflaw⟩
    · rw [parse_of_goTogether hwords htogether] at hkey
      exact ⟨front, name, hwords, htogether, (Except.ok.inj hkey).symm⟩
    · rw [parse_of_firstFlaw hflaw] at hkey
      cases hkey
  · rintro ⟨front, name, hwords, htogether, rfl⟩
    exact parse_of_goTogether hwords htogether

/-- The refusals of a text that spells no key. -/
theorem parse_eq_error_iff (text : String) (refusal : Refusal) :
    parse text = .error refusal ↔
      ∃ flaw, FirstFlaw (Text.words text) flaw ∧ refusal = .malformedEntry text flaw := by
  constructor
  · intro hrefused
    rcases goTogether_or_firstFlaw (Text.words text) with ⟨front, name, hwords, htogether⟩ | ⟨flaw, hflaw⟩
    · rw [parse_of_goTogether hwords htogether] at hrefused
      cases hrefused
    · rw [parse_of_firstFlaw hflaw] at hrefused
      exact ⟨flaw, hflaw, (Except.error.inj hrefused).symm⟩
  · rintro ⟨flaw, hflaw, rfl⟩
    exact parse_of_firstFlaw hflaw

/-- Whether words go together depends only on which words there are. -/
theorem GoTogether.congr {front other : List String} (h : ∀ word, word ∈ front ↔ word ∈ other) (htogether : GoTogether front) :
    GoTogether other where
  known := fun word hword => htogether.known word ((h word).mpr hword)
  constant := by simpa only [ModifiedConstant, h] using htogether.constant
  oneSort := by simpa only [h] using htogether.oneSort

/-- The flags of a key depend only on which words stand in front of its name. -/
theorem spelled_congr {front other : List String} (h : ∀ word, word ∈ front ↔ word ∈ other) (name : String) :
    spelled front name = spelled other name := by
  have hcontains : ∀ word, front.contains word = other.contains word := by
    intro word
    rw [Bool.eq_iff_iff, List.contains_iff_mem, List.contains_iff_mem, h]
  simp only [spelled, hcontains]

/-- Texts with the same last word and the same words in front of it, in whatever order, number and spacing, spell the same keys. -/
theorem parse_eq_ok_of_sameWords {text other name : String} {front front' : List String} {key : MemberKey}
    (hwords : Text.words text = front ++ [name]) (hother : Text.words other = front' ++ [name])
    (h : ∀ word, word ∈ front ↔ word ∈ front') (hkey : parse text = .ok key) : parse other = .ok key := by
  obtain ⟨front₁, name₁, hwords₁, htogether, rfl⟩ := (parse_eq_ok_iff text key).mp hkey
  obtain ⟨rfl, rfl⟩ := List.append_singleton_inj.mp (hwords.symm.trans hwords₁)
  rw [spelled_congr h]
  exact parse_of_goTogether hother (htogether.congr h)

end MemberKey

open MemberKey in
/-- The grammar of keys. Take any text and its words, which are its maximal runs between white space. The text spells a key exactly
when there is a last word and the words in front of it go together: all of them are modifiers, a constant has no other modifier,
and a member is not both a method and a property. The key then has the last word as its name, whatever word that is, and each flag
exactly if its word stands in front of the name. Otherwise the text is refused; the refusal quotes the whole text and gives the
flaw that counts first: that there is no name, else the leftmost word that is no modifier, else the modifier of a constant, else
the two sorts. Neither the order of modifiers nor their number nor the spacing matters. -/
theorem key_grammar (text : String) :
    let words := Text.words text
    (∀ listed, Text.MaximalRuns text listed ↔ words = listed) ∧
      (∀ key, parse text = .ok key ↔ ∃ front name, words = front ++ [name] ∧ GoTogether front ∧ key = spelled front name) ∧
      (∀ refusal, parse text = .error refusal ↔ ∃ flaw, FirstFlaw words flaw ∧ refusal = .malformedEntry text flaw ∧
        refusal.message = "Invalid definition '" ++ text ++ "': " ++ flaw.reason) ∧
      ∀ other front front' name, words = front ++ [name] → Text.words other = front' ++ [name] →
        (∀ word, word ∈ front ↔ word ∈ front') → ∀ key, parse text = .ok key ↔ parse other = .ok key := by
  refine ⟨Text.maximalRuns_iff text, parse_eq_ok_iff text, fun refusal => ?_, ?_⟩
  · rw [parse_eq_error_iff]
    constructor
    · rintro ⟨flaw, hflaw, rfl⟩
      exact ⟨flaw, hflaw, rfl, rfl⟩
    · rintro ⟨flaw, hflaw, hrefusal, -⟩
      exact ⟨flaw, hflaw, hrefusal⟩
  · intro other front front' name hwords hother hsame key
    exact ⟨parse_eq_ok_of_sameWords hwords hother hsame,
      parse_eq_ok_of_sameWords hother hwords fun word => (hsame word).symm⟩

open MemberKey in
/-- Two spellings of one key, with an ideographic space and a repeated modifier, and a text with three flaws, of which the unknown
modifier counts. -/
theorem key_grammar_create :
    parse "static\u3000 function create" = .ok { name := "create", isStatic := true, isFunction := true } ∧
      parse "function static function create" = .ok { name := "create", isStatic := true, isFunction := true } ∧
      parse "const public static var function x" =
        .error (.malformedEntry "const public static var function x" (.unknownModifier "public")) := by
  have hwords : Text.words "static\u3000 function create" = ["static", "function"] ++ ["create"] := by decide +kernel
  have hother : Text.words "function static function create" = ["function", "static", "function"] ++ ["create"] := by
    decide +kernel
  have hflawed : Text.words "const public static var function x" =
      ["const"] ++ "public" :: ["static", "var", "function"] ++ ["x"] := by
    decide +kernel
  obtain ⟨-, hkeys, -, hsame⟩ := key_grammar "static\u3000 function create"
  obtain ⟨-, -, hrefusals, -⟩ := key_grammar "const public static var function x"
  have hkey := (hkeys { name := "create", isStatic := true, isFunction := true }).mpr
    ⟨_, _, hwords, ⟨by decide, by decide, by decide⟩, by decide⟩
  exact ⟨hkey, (hsame _ _ _ _ hwords hother (by simp) _).mp hkey,
    (hrefusals _).mpr ⟨_, hflawed ▸ .unknownModifier (by decide) (by decide), rfl, rfl⟩⟩

end TestDouble

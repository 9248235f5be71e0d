import TestDouble.Identifier
import TestDouble.Members.Key

/-!
# Which names a key can declare

A key is read word by word, so the name that it declares is a word: it is not empty and holds no white space
(`name_of_parse`). Every such name is declared by the keys that list modifiers which go together and then the name
(`parse_keyText`). A legal name of a method may hold white space, for every character outside ASCII counts as a letter there;
it is declared by a key exactly when it holds none (`legal_names_declared`).
-/

namespace TestDouble

namespace Text

/-- Whether a text holds white space. -/
def hasBlank (text : String) : Bool := text.toList.any isBlank

/-- At a space the words of what stands before it and of what stands after it meet. -/
theorem words_append_space (before after : String) : words (before ++ " " ++ after) = words before ++ words after := by
  have hspace : isBlank ' ' = true := by decide
  have hchars : (before ++ " " ++ after).toList = before.toList ++ ' ' :: after.toList := by simp
  rw [words, hchars, wordsAt_append_break _ hspace, List.map_append]
  rfl

/-- A text without white space is its own only word, unless it is empty. -/
theorem words_of_not_hasBlank {text : String} (hne : text ≠ "") (h : hasBlank text = false) : words text = [text] := by
  have hchars : text.toList ≠ [] := by simpa using hne
  rw [words, wordsAt_of_no_break hchars (by simpa [hasBlank] using h), List.map_singleton, String.ofList_toList]

/-- A word holds no white space. -/
theorem hasBlank_of_mem_words {text word : String} (hword : word ∈ words text) : hasBlank word = false := by
  obtain ⟨chars, hchars, rfl⟩ := List.mem_map.mp hword
  simpa [hasBlank] using not_isBreak_of_mem_wordsAt hchars

end Text

/-! ## Modifiers and their words -/

namespace Modifier

/-- The sets of modifiers that go together. -/
def combinations : List (List Modifier) :=
  [[], [.var], [.function], [.static], [.static, .var], [.static, .function], [.const]]

/-- A word stands for the modifier that it is the word for. -/
theorem ofWord?_word (modifier : Modifier) : ofWord? modifier.word = some modifier := by
  cases modifier <;> decide

/-- The word for a modifier is one word. -/
theorem words_word (modifier : Modifier) : Text.words modifier.word = [modifier.word] := by
  cases modifier <;> exact Text.words_of_not_hasBlank (by decide) (by decide)

end Modifier

namespace MemberKey

/-- The key that lists modifiers and then a name, with one space behind each modifier. -/
def keyText (modifiers : List Modifier) (name : String) : String :=
  match modifiers with
  | [] => name
  | modifier :: rest => modifier.word ++ " " ++ keyText rest name

/-- The words for modifiers are read as the modifiers. -/
theorem modifiers_map_word (listed : List Modifier) : modifiers (listed.map Modifier.word) = .ok listed := by
  induction listed with
  | nil => rfl
  | cons modifier rest ih =>
    rw [List.map_cons, modifiers, Modifier.ofWord?_word, ih]
    rfl

/-- The words of a key are those for its modifiers and those of its name. -/
theorem words_keyText (listed : List Modifier) (name : String) :
    Text.words (keyText listed name) = listed.map Modifier.word ++ Text.words name := by
  induction listed with
  | nil => rfl
  | cons modifier rest ih =>
    rw [keyText, Text.words_append_space, Modifier.words_word, ih]
    rfl

/-- The order and the repetition of modifiers mean nothing. -/
theorem ofModifiers_congr {listed listed' : List Modifier} (h : ∀ modifier, modifier ∈ listed ↔ modifier ∈ listed')
    (name : String) : ofModifiers name listed = ofModifiers name listed' := by
  have hcontains : ∀ modifier, listed.contains modifier = listed'.contains modifier := by
    intro modifier
    rw [Bool.eq_iff_iff, List.contains_iff_mem, List.contains_iff_mem, h]
  simp only [ofModifiers, hcontains]

/-- Modifiers of a combination do not clash. -/
theorem clash?_of_combination {combination : List Modifier} (h : combination ∈ Modifier.combinations) (name : String) :
    clash? (ofModifiers name combination) = none := by
  simp only [Modifier.combinations, List.mem_cons, List.not_mem_nil, or_false] at h
  rcases h with rfl | rfl | rfl | rfl | rfl | rfl | rfl <;> rfl

/-! ## The name of a key -/

/-- Words for modifiers that go together, and one word behind them, spell the key with the modifiers and that name. -/
theorem ofWords_append {listed combination : List Modifier} (hcombination : combination ∈ Modifier.combinations)
    (hsame : ∀ modifier, modifier ∈ listed ↔ modifier ∈ combination) (name : String) :
    ofWords (listed.map Modifier.word ++ [name]) = .ok (ofModifiers name combination) := by
  simp only [ofWords, List.getLast?_concat, List.dropLast_concat, modifiers_map_word, ofModifiers_congr hsame,
    clash?_of_combination hcombination]

/-- A name of one word is declared by the keys that list modifiers which go together and then the name. -/
theorem parse_of_words {text name : String} {combination : List Modifier} (hcombination : combination ∈ Modifier.combinations)
    (listed : List Modifier) (hsame : ∀ modifier, modifier ∈ listed ↔ modifier ∈ combination)
    (hwords : Text.words text = listed.map Modifier.word ++ [name]) :
    parse text = .ok (ofModifiers name combination) := by
  rw [parse, hwords, ofWords_append hcombination hsame]
  rfl

/-- The name that words spell is the last one. -/
theorem name_of_ofWords {words : List String} {key : MemberKey} (h : ofWords words = .ok key) :
    words.getLast? = some key.name := by
  rw [ofWords] at h
  cases hlast : words.getLast? with
  | none =>
    rw [hlast] at h
    cases h
  | some name =>
    rw [hlast] at h
    cases hmodifiers : modifiers words.dropLast with
    | error flaw =>
      simp only [hmodifiers] at h
      cases h
    | ok listed =>
      simp only [hmodifiers] at h
      cases hclash : clash? (ofModifiers name listed) with
      | some flaw =>
        simp only [hclash] at h
        cases h
      | none =>
        simp only [hclash] at h
        cases h
        rfl

/-- The name that a key declares is one of its words. -/
theorem name_of_parse {text : String} {key : MemberKey} (h : parse text = .ok key) : key.name ∈ Text.words text := by
  rw [parse] at h
  cases hkey : ofWords (Text.words text) with
  | error flaw =>
    rw [hkey] at h
    cases h
  | ok read =>
    rw [hkey] at h
    cases h
    exact List.mem_of_getLast? (name_of_ofWords hkey)

end MemberKey

/-- Which legal names of methods a key can declare. Take any rules for names and any name that they allow for a method. If it
holds no white space, every key declares it that lists modifiers which go together, in any order and any number of times, each
with a space behind it, and then the name: the key is read with exactly that name and with the flags of exactly these modifiers.
So is the name on its own, with or without a space in front. If the name holds white space, no key declares it, whatever the
key looks like. -/
theorem legal_names_declared (rules : IdentifierRules) (name : String) (hlegal : rules.allowsMethod name = true) :
    (Text.hasBlank name = false →
      (∀ combination ∈ Modifier.combinations, ∀ listed : List Modifier,
        (∀ modifier, modifier ∈ listed ↔ modifier ∈ combination) →
          MemberKey.parse (MemberKey.keyText listed name) = .ok (MemberKey.ofModifiers name combination)) ∧
      MemberKey.parse (" " ++ name) = .ok (MemberKey.ofModifiers name [])) ∧
    (Text.hasBlank name = true → ∀ text key, MemberKey.parse text = .ok key → key.name ≠ name) := by
  have hne : name ≠ "" := by
    rintro rfl
    have hempty : rules.allowsMethod "" = false := rfl
    rw [hempty] at hlegal
    cases hlegal
  refine ⟨fun hblank => ?_, fun hblank text key hkey hname => ?_⟩
  · have hwords : Text.words name = [name] := Text.words_of_not_hasBlank hne hblank
    refine ⟨fun combination hcombination listed hsame => ?_, ?_⟩
    · exact MemberKey.parse_of_words hcombination listed hsame (by rw [MemberKey.words_keyText, hwords])
    · have hspaced : Text.words (" " ++ name) = [name] := (Text.words_append_space "" name).trans hwords
      exact MemberKey.parse_of_words List.mem_cons_self [] (fun _ => Iff.rfl) hspaced
  · have hword := Text.hasBlank_of_mem_words (MemberKey.name_of_parse hkey)
    rw [hname, hblank] at hword
    cases hword

namespace KeyTextExample

/-- Names with letters outside ASCII are legal for methods, and so are names with a no-break space. -/
theorem legal_names : IdentifierRules.allowsMethod {} "größe" = true ∧ IdentifierRules.allowsMethod {} "a\u00a0b" = true ∧
    IdentifierRules.allowsMethod {} "function\u00a0x" = true := by
  decide +kernel

end KeyTextExample

/-- A legal name with letters outside ASCII is declared as a property of the type, and the two modifiers may be swapped. -/
theorem legal_names_declared_size :
    IdentifierRules.allowsMethod {} "größe" = true ∧ Text.hasBlank "größe" = false ∧
      MemberKey.parse "static var größe" = .ok { name := "größe", isStatic := true, isProperty := true } ∧
      MemberKey.parse "var static größe" = .ok { name := "größe", isStatic := true, isProperty := true } := by
  obtain ⟨hlegal, -⟩ := KeyTextExample.legal_names
  have hblank : Text.hasBlank "größe" = false := by decide
  obtain ⟨hdeclared, -⟩ := (legal_names_declared {} "größe" hlegal).1 hblank
  have hlisted : [Modifier.static, .var] ∈ Modifier.combinations := by decide
  have hswapped : ∀ modifier, modifier ∈ [Modifier.var, .static] ↔ modifier ∈ [Modifier.static, .var] := by
    intro modifier
    cases modifier <;> decide
  exact ⟨hlegal, hblank, hdeclared _ hlisted [.static, .var] (fun _ => Iff.rfl), hdeclared _ hlisted [.var, .static] hswapped⟩

/-- A no-break space makes a legal name, but not a name that a key declares: in one name it parts a word that is no modifier from
the rest, and another name is read as a modifier and a shorter name. -/
theorem legal_name_not_declared :
    IdentifierRules.allowsMethod {} "a\u00a0b" = true ∧
      MemberKey.parse (MemberKey.keyText [.function] "a\u00a0b") =
        .error (.malformedEntry "function a\u00a0b" (.unknownModifier "a")) ∧
      IdentifierRules.allowsMethod {} "function\u00a0x" = true ∧
      MemberKey.parse (MemberKey.keyText [] "function\u00a0x") = .ok { name := "x", isFunction := true } := by
  obtain ⟨-, hparted, hmodified⟩ := KeyTextExample.legal_names
  refine ⟨hparted, ?_, hmodified, ?_⟩
  · with_unfolding_all rfl
  · with_unfolding_all rfl

end TestDouble

import TestDouble.Identifier
import TestDouble.MethodTables.Merge

/-!
# Legal names in another letter case

Whatever is asked of a name is answered alike for the name in lower case: lowering moves no character into or out of the
characters of identifiers and leaves the separators where they are, the built-in words are in lower case already, and the words
that are reserved on top are lowered before they are compared. So two names that differ in the case of ASCII letters only are
legal together, and it does not matter how the reserved words are capitalised (`letter_case_ignored`).
-/

namespace TestDouble

open Text (lowered)

/-! ## Identifiers -/

namespace Identifier

/-- Lowering a character does not change whether an identifier may start with it. -/
theorem isStart_toLower (c : Char) : isStart c.toLower = isStart c := by
  have hmark : (c.toLower == '_') = (c == '_') := by
    rw [Bool.eq_iff_iff, beq_iff_eq, beq_iff_eq, Text.toLower_eq_iff rfl]
  have hlowered := Text.toNat_toLower c
  have hbeyond : 0x80 ≤ c.toLower.toNat ↔ 0x80 ≤ c.toNat := by omega
  simp only [isStart, Text.isAlpha_toLower, hmark, hbeyond]

/-- Lowering a character does not change whether an identifier may go on with it. -/
theorem isPart_toLower (c : Char) : isPart c.toLower = isPart c := by
  rw [isPart, isPart, isStart_toLower, Text.isDigit_toLower]

/-- A text has the shape of an identifier exactly when it has it in lower case. -/
theorem hasShape_lowered (text : String) : hasShape (lowered text) = hasShape text := by
  rw [hasShape, hasShape, Text.toList_lowered]
  cases text.toList with
  | nil => rfl
  | cons first rest =>
    simp only [List.map_cons, hasShapeChars, isStart_toLower, List.all_map, Function.comp_def, isPart_toLower]

/-- The built-in words are in lower case. -/
theorem lowered_of_mem_reservedWords : ∀ word ∈ reservedWords, lowered word = word := by
  simp only [Text.lowered_eq_iff]
  decide +kernel

end Identifier

/-! ## Segments -/

namespace TypeName

/-- Lowering makes no separators and loses none. -/
theorem isSeparator_toLower (c : Char) : isSeparator c.toLower = isSeparator c := by
  rw [isSeparator, isSeparator, Bool.eq_iff_iff, beq_iff_eq, beq_iff_eq, Text.toLower_eq_iff rfl]

/-- A separator in front is dropped before or after a name is lowered. -/
theorem unrooted_lowered (name : String) : unrooted (lowered name) = lowered (unrooted name) := by
  rw [← String.toList_inj, Text.toList_lowered, unrooted, unrooted, String.toList_ofList, String.toList_ofList,
    Text.toList_lowered]
  cases name.toList with
  | nil => rfl
  | cons c rest =>
    rw [List.map_cons, dropLead, dropLead, isSeparator_toLower]
    split <;> rfl

/-- The segments of a lowered name are the segments, lowered. -/
theorem segments_lowered (name : String) : segments (lowered name) = (segments name).map lowered := by
  rw [segments, segments, Text.toList_lowered, Text.segments_map isSeparator_toLower, List.map_map, List.map_map]
  refine List.map_congr_left fun piece _ => ?_
  rw [Function.comp_apply, Function.comp_apply, ← String.toList_inj, Text.toList_lowered, String.toList_ofList,
    String.toList_ofList]

end TypeName

/-! ## Legal names -/

namespace IdentifierRules

/-- The reserved words are the built-in ones and the additional ones, in any letter case. -/
theorem isReserved_iff (rules : IdentifierRules) (name : String) :
    rules.isReserved name = true ↔
      ∃ word, (word ∈ Identifier.reservedWords ∨ word ∈ rules.additionalReserved) ∧ lowered word = lowered name := by
  rw [isReserved, Bool.or_eq_true, List.contains_iff_mem, List.contains_iff_mem, List.mem_map]
  constructor
  · rintro (hbuiltin | ⟨word, hword, hsame⟩)
    · exact ⟨lowered name, Or.inl hbuiltin, Text.lowered_lowered name⟩
    · exact ⟨word, Or.inr hword, hsame⟩
  · rintro ⟨word, hbuiltin | hadded, hsame⟩
    · rw [← hsame, Identifier.lowered_of_mem_reservedWords word hbuiltin]
      exact Or.inl hbuiltin
    · exact Or.inr ⟨word, hadded, hsame⟩

/-- A name is reserved exactly when it is in lower case. -/
theorem isReserved_lowered (rules : IdentifierRules) (name : String) :
    rules.isReserved (lowered name) = rules.isReserved name := by
  rw [isReserved, isReserved, Text.lowered_lowered]

/-- A name is legal for a method exactly when it is in lower case. -/
theorem allowsMethod_lowered (rules : IdentifierRules) (name : String) :
    rules.allowsMethod (lowered name) = rules.allowsMethod name := by
  rw [allowsMethod, allowsMethod, Identifier.hasShape_lowered, Text.lowered_lowered, isReserved_lowered]

/-- A segment is allowed exactly when it is in lower case. -/
theorem allowsSegment_lowered (rules : IdentifierRules) (segment : String) :
    rules.allowsSegment (lowered segment) = rules.allowsSegment segment := by
  rw [allowsSegment, allowsSegment, Identifier.hasShape_lowered, isReserved_lowered]

/-- A name is legal for a type exactly when it is in lower case. -/
theorem allowsType_lowered (rules : IdentifierRules) (name : String) :
    rules.allowsType (lowered name) = rules.allowsType name := by
  rw [allowsType, allowsType, TypeName.unrooted_lowered, TypeName.segments_lowered, List.all_map]
  exact congrArg (List.all _) (funext rules.allowsSegment_lowered)

/-- Rules with the same additional words but for letter case allow the same names. -/
theorem allowsMethod_of_map_lowered_eq {rules : IdentifierRules} {words : List String}
    (h : words.map lowered = rules.additionalReserved.map lowered) :
    allowsMethod { rules with additionalReserved := words } = rules.allowsMethod := by
  funext name
  simp only [allowsMethod, isReserved, h]

end IdentifierRules

/-- A merge depends on the rules through the names that they allow for methods. -/
theorem Merged.ofClassified_congr {rules rules' : IdentifierRules} (h : rules.allowsMethod = rules'.allowsMethod)
    (c : Classified) (custom : Members) : ofClassified rules c custom = ofClassified rules' c custom := by
  simp only [ofClassified, MethodTables.ofClassified, MethodTables.ofAutomatic, MethodTables.declarable, h]

/-- Letter case does not matter to names. Take any rules. Two names that are equal once their ASCII letters are lowered have the
shape of identifiers together, are reserved together, and are legal together, for methods and for types. A name is reserved
exactly when it is one of the built-in words or of the additional ones but for letter case, however the words are capitalised.
And rules with the same additional words but for letter case make the same merge of any types with any custom members. -/
theorem letter_case_ignored (rules : IdentifierRules) :
    (∀ name other, lowered name = lowered other →
        Identifier.hasShape name = Identifier.hasShape other ∧ rules.isReserved name = rules.isReserved other ∧
          rules.allowsMethod name = rules.allowsMethod other ∧ rules.allowsType name = rules.allowsType other) ∧
      (∀ name, rules.isReserved name = true ↔
        ∃ word, (word ∈ Identifier.reservedWords ∨ word ∈ rules.additionalReserved) ∧ lowered word = lowered name) ∧
      ∀ words, words.map lowered = rules.additionalReserved.map lowered → ∀ c custom,
        Merged.ofClassified { rules with additionalReserved := words } c custom = Merged.ofClassified rules c custom := by
  refine ⟨fun name other hsame => ⟨?_, ?_, ?_, ?_⟩, rules.isReserved_iff, fun words hwords c custom => ?_⟩
  · rw [← Identifier.hasShape_lowered, hsame, Identifier.hasShape_lowered]
  · rw [← rules.isReserved_lowered, hsame, rules.isReserved_lowered]
  · rw [← rules.allowsMethod_lowered, hsame, rules.allowsMethod_lowered]
  · rw [← rules.allowsType_lowered, hsame, rules.allowsType_lowered]
  · exact Merged.ofClassified_congr (IdentifierRules.allowsMethod_of_map_lowered_eq hwords) c custom

/-- An additional word with an accented letter is reserved in any case of its other letters, names that hold it are legal together,
and a merge is the same when the words are written otherwise. -/
theorem letter_case_ignored_accented :
    let rules : IdentifierRules := { additionalReserved := ["Größe", "Enum"] }
    rules.isReserved "GRöße" = true ∧ rules.allowsType "Zoo\\GRöße" = rules.allowsType "zOO\\größe" ∧
      ∀ c custom, Merged.ofClassified { rules with additionalReserved := ["größe", "ENUM"] } c custom =
        Merged.ofClassified rules c custom := by
  intro rules
  obtain ⟨halike, hreserved, hmerge⟩ := letter_case_ignored rules
  have hword : lowered "Größe" = lowered "GRöße" := by
    rw [Text.lowered_eq_iff, Text.toList_lowered]
    decide +kernel
  have hname : lowered "Zoo\\GRöße" = lowered "zOO\\größe" := by
    rw [Text.lowered_eq_iff, Text.toList_lowered]
    decide +kernel
  have hwords : ["größe", "ENUM"].map lowered = rules.additionalReserved.map lowered := by
    simp only [rules, List.map_cons, List.map_nil, List.cons.injEq, and_true, Text.lowered_eq_iff, Text.toList_lowered]
    decide +kernel
  exact ⟨(hreserved "GRöße").mpr ⟨"Größe", Or.inr List.mem_cons_self, hword⟩, (halike _ _ hname).2.2.2, hmerge _ hwords⟩

end TestDouble

import TestDouble.Config.File
import TestDouble.Proofs.Builder.Changes
import TestDouble.Proofs.Classified.Placement
import TestDouble.Proofs.Identifier.Segments
import TestDouble.Proofs.Label.Recovered

/-!
# Default names are legal

A default name is put together from a beginning, the short name of a type and a label. The first two have the shape of
identifiers, under a validated configuration and for a type with a legal name, and underscores and digits keep the shape. The
name ends in a label, which no built-in word does. So only a word that the configuration reserves itself can keep a type from
being declared under it (`allowsType_defaultName_iff`), and none does unless it ends in a label too (`default_names_legal`).
-/

namespace TestDouble

open SourceType

/-! ## Texts that end in a label -/

/-- A text ends in an underscore and one or more digits. -/
def EndsInLabel (text : String) : Prop :=
  ∃ lead digits, text.toList = lead ++ '_' :: digits ∧ digits ≠ [] ∧ AllDigits digits

/-- A text ends in a label exactly when one or more digits stand behind its last underscore. -/
theorem endsInLabel_iff (text : String) :
    EndsInLabel text ↔
      '_' ∈ text.toList ∧ afterUnderscore text ≠ [] ∧ (afterUnderscore text).all Char.isDigit = true := by
  rw [List.all_eq_true]
  constructor
  · rintro ⟨lead, digits, htext, hne, hdigits⟩
    rw [afterUnderscore_eq htext (hdigits.not_mem rfl)]
    exact ⟨htext ▸ List.mem_append_right lead List.mem_cons_self, hne, hdigits⟩
  · rintro ⟨hmem, hne, hdigits⟩
    obtain ⟨back, front, hreverse, hback⟩ := List.eq_append_cons_of_mem (List.mem_reverse.mpr hmem)
    have htext : text.toList = front.reverse ++ '_' :: back.reverse := by
      rw [← List.reverse_reverse text.toList, hreverse]
      simp
    rw [afterUnderscore_eq htext (fun hmark => hback (List.mem_reverse.mp hmark))] at hne hdigits
    exact ⟨front.reverse, back.reverse, htext, hne, hdigits⟩

instance (text : String) : Decidable (EndsInLabel text) :=
  decidable_of_iff _ (endsInLabel_iff text).symm

/-- A text that ends in a label ends in a digit. -/
theorem EndsInLabel.isDigit_getLast? {text : String} (h : EndsInLabel text) : text.toList.getLast?.any Char.isDigit = true := by
  obtain ⟨lead, digits, htext, hne, hdigits⟩ := h
  have hlast : text.toList.getLast? = some (digits.getLast hne) := by
    rw [htext, List.append_cons, List.getLast?_append, List.getLast?_eq_some_getLast hne, Option.some_or]
  rw [hlast, Option.any_some]
  exact hdigits _ (List.getLast_mem hne)

namespace Text

/-- Lowering makes no underscores and loses none. -/
theorem toLower_eq_underscore_iff (c : Char) : c.toLower = '_' ↔ c = '_' := toLower_eq_iff rfl

/-- What stands behind the last underscore is lowered with the text. -/
theorem afterUnderscore_lowered (text : String) : afterUnderscore (lowered text) = (afterUnderscore text).map Char.toLower := by
  have hmark : ((· != '_') ∘ Char.toLower) = (· != '_') := by
    funext c
    rw [Function.comp_apply, Bool.eq_iff_iff, bne_iff_ne, bne_iff_ne, Ne, toLower_eq_underscore_iff]
  rw [afterUnderscore, afterUnderscore, toList_lowered, ← List.map_reverse, List.takeWhile_map, hmark, List.map_reverse]

/-- A text ends in a label exactly when it does so in lower case. -/
theorem endsInLabel_lowered_iff (text : String) : EndsInLabel (lowered text) ↔ EndsInLabel text := by
  have hmark : '_' ∈ (lowered text).toList ↔ '_' ∈ text.toList := by
    simp only [toList_lowered, List.mem_map, toLower_eq_underscore_iff, exists_eq_right]
  simp only [endsInLabel_iff, hmark, afterUnderscore_lowered, List.all_map, Function.comp_def, isDigit_toLower, ne_eq,
    List.map_eq_nil_iff]

/-- A text that ends in a label is none of some words, not even but for letter case, if none of these ends in one. -/
theorem lowered_not_mem {words : List String} (hwords : ∀ word ∈ words, ¬EndsInLabel word) {text : String}
    (h : EndsInLabel text) : lowered text ∉ words.map lowered := by
  intro hmem
  obtain ⟨word, hword, hlowered⟩ := List.mem_map.mp hmem
  refine hwords word hword ((endsInLabel_lowered_iff word).mp ?_)
  rw [hlowered]
  exact (endsInLabel_lowered_iff text).mpr h

end Text

namespace IdentifierRules

/-- No built-in word ends in a digit. -/
theorem not_isDigit_getLast?_of_mem_reservedWords :
    ∀ word ∈ Identifier.reservedWords, word.toList.getLast?.any Char.isDigit = false := by
  decide +kernel

/-- A text that ends in a label is reserved exactly when it is one of the additional words, but for letter case. -/
theorem isReserved_eq_false_iff (rules : IdentifierRules) {text : String} (h : EndsInLabel text) :
    rules.isReserved text = false ↔ Text.lowered text ∉ rules.additionalReserved.map Text.lowered := by
  have hbuiltin : Text.lowered text ∉ Identifier.reservedWords := by
    intro hword
    have hdigit := ((Text.endsInLabel_lowered_iff text).mpr h).isDigit_getLast?
    rw [not_isDigit_getLast?_of_mem_reservedWords _ hword] at hdigit
    cases hdigit
  rw [isReserved, Bool.or_eq_false_iff, ← Bool.not_eq_true, ← Bool.not_eq_true, List.contains_iff_mem, List.contains_iff_mem]
  exact and_iff_right hbuiltin

end IdentifierRules

/-! ## The shape of identifiers -/

namespace Identifier

/-- An identifier, an underscore and characters that identifiers go on with are an identifier. -/
theorem hasShape_append {text more : String} (h : hasShape text = true) (hmore : ∀ c ∈ more.toList, isPart c = true) :
    hasShape (text ++ "_" ++ more) = true := by
  obtain ⟨first, rest, htext, hfirst, hrest⟩ := (hasShape_iff text).mp h
  have hchars : (text ++ "_" ++ more).toList = first :: (rest ++ '_' :: more.toList) := by
    simp [String.toList_append, htext]
  refine (hasShape_iff _).mpr ⟨first, rest ++ '_' :: more.toList, hchars, hfirst, fun c hc => ?_⟩
  rcases List.mem_append.mp hc with hc | hc
  · exact hrest c hc
  · rcases List.mem_cons.mp hc with rfl | hc
    · rfl
    · exact hmore c hc

end Identifier

namespace TypeName

/-- The last segment of a name is the last of its segments, of which there is one. -/
theorem short_eq_getLast (name : String) : short name = (segments name).getLast (segments_ne_nil name) := by
  rw [short, List.getLastD_eq_getLast?, List.getLast?_eq_some_getLast (segments_ne_nil name), Option.getD_some]

/-- The last segment of a name is one of the segments that are left without one separator in front. -/
theorem short_mem_segments_unrooted (name : String) : short name ∈ segments (unrooted name) := by
  cases h : isRooted name with
  | false =>
    rw [(unrooted_eq_self_iff name).mpr h, short_eq_getLast]
    exact List.getLast_mem _
  | true =>
    have hlast : short name = (segments (unrooted name)).getLast (segments_ne_nil _) := by
      simp only [short_eq_getLast, segments_of_isRooted h, List.getLast_cons (segments_ne_nil (unrooted name))]
    rw [hlast]
    exact List.getLast_mem _

end TypeName

/-- The short name of a type with a legal name is an identifier. -/
theorem SourceType.hasShape_shortName {rules : IdentifierRules} {t : SourceType} (h : rules.allowsType t.name = true) :
    Identifier.hasShape t.shortName = true := by
  have hmem : t.shortName ∈ TypeName.segments (TypeName.unrooted t.name) := TypeName.short_mem_segments_unrooted t.name
  exact (Bool.and_eq_true_iff.mp (List.all_eq_true.mp h _ hmem)).1

/-- A type may be declared under an identifier exactly when that is not reserved. -/
theorem IdentifierRules.allowsType_of_hasShape (rules : IdentifierRules) {name : String}
    (h : Identifier.hasShape name = true) : rules.allowsType name = !rules.isReserved name := by
  rw [allowsType_of_not_mem rules (Identifier.plain_of_hasShape h).2, allowsSegment, h, Bool.true_and]

/-! ## Default names -/

/-- The primary one of types that are placed is one of them. -/
theorem Classified.mem_of_primary {types : List SourceType} {placed : Classified} (hplaced : ofTypes types = .ok placed)
    {t : SourceType} (h : placed.primary = some t) : t ∈ types := by
  obtain ⟨-, rfl⟩ := (ofTypes_eq_ok_iff types placed).mp hplaced
  have hkind : ∀ p : SourceType → Bool, ((distinct types).filter p).head? = some t → t ∈ types := fun p hfirst =>
    distinct_subset types t (List.mem_filter.mp (List.mem_of_head? hfirst)).1
  simp only [primary, parts, bases, Option.orElse_eq_orElse, Option.orElse_eq_or, Option.or_eq_some_iff] at h
  rcases h with hbase | ⟨-, hcapability | ⟨-, hmixin⟩⟩
  · exact hkind _ hbase
  · exact hkind _ hcapability
  · exact hkind _ hmixin

/-- A default name ends in its label. -/
theorem endsInLabel_defaultName (start : String) (types : Classified) (label : UInt64) :
    EndsInLabel (defaultName start types label) :=
  ⟨_, _, toList_defaultName start types label, Nat.toDigits_ne_nil, AllDigits.toDigits _⟩

/-- A default name is an identifier where its beginning and the short name in it are. -/
theorem hasShape_defaultName {start : String} (hstart : Identifier.hasShape start = true) {types : Classified}
    (hshort : ∀ t, types.primary = some t → Identifier.hasShape t.shortName = true) (label : UInt64) :
    Identifier.hasShape (defaultName start types label) = true := by
  have hlabel : ∀ c ∈ (labelText label).toList, Identifier.isPart c = true := by
    intro c hc
    rw [labelText, Nat.repr, String.toList_ofList] at hc
    rw [Identifier.isPart, AllDigits.toDigits _ c hc, Bool.or_true]
  have hlead : Identifier.hasShape (nameLead start types) = true := by
    unfold nameLead
    cases hprimary : types.primary with
    | none => exact hstart
    | some t => exact Identifier.hasShape_append hstart (Identifier.isPart_of_hasShape (hshort t hprimary))
  rw [defaultName_eq]
  exact Identifier.hasShape_append hlead hlabel

/-- Under a validated configuration a type may be declared under a default name for types with legal names exactly when the name
is none of the additional words, but for letter case. -/
theorem allowsType_defaultName_iff (c : Config) {types : List SourceType} {placed : Classified}
    (hlegal : ∀ t ∈ types, c.validated.identifiers.allowsType t.name = true) (hplaced : Classified.ofTypes types = .ok placed)
    (label : UInt64) :
    let name := defaultName c.validated.naming.start placed label
    c.validated.identifiers.allowsType name = true ↔
      Text.lowered name ∉ c.validated.identifiers.additionalReserved.map Text.lowered := by
  intro name
  have hshape : Identifier.hasShape name = true :=
    hasShape_defaultName c.hasShape_validated
      (fun t ht => SourceType.hasShape_shortName (hlegal t (Classified.mem_of_primary hplaced ht))) label
  rw [IdentifierRules.allowsType_of_hasShape _ hshape, Bool.not_eq_true',
    IdentifierRules.isReserved_eq_false_iff _ (endsInLabel_defaultName _ _ _)]

/-- Default names are legal. Take any way of reading configurations off texts, and the validated configuration of a text that is
read, in which no additional reserved word ends in a label. Take any types that can be placed, none included, all of whose names
are legal under this configuration, and any label. Then the default name that begins as configured is legal under the
configuration too, and any open builder that has it takes the name as an explicit one, whatever its registry. -/
theorem default_names_legal (read? : String → Option Config) (text : String) (c : Config)
    (hread : (read? text).map Config.validated = some c)
    (hwords : ∀ word ∈ c.identifiers.additionalReserved, ¬EndsInLabel word) (types : List SourceType)
    (hlegal : ∀ t ∈ types, c.identifiers.allowsType t.name = true) (placed : Classified)
    (hplaced : Classified.ofTypes types = .ok placed) (label : UInt64) :
    let name := defaultName c.naming.start placed label
    c.identifiers.allowsType name = true ∧
      ∀ (registry : Registry) (b : Builder), b.finalized = false →
        b.apply ⟨registry, c⟩ (.setName name) = .ok { b with explicitName := some name } := by
  intro name
  obtain ⟨written, -, rfl⟩ := Option.map_eq_some_iff.mp hread
  have hallowed : written.validated.identifiers.allowsType name = true :=
    (allowsType_defaultName_iff written hlegal hplaced label).mpr
      (Text.lowered_not_mem hwords (endsInLabel_defaultName _ placed label))
  refine ⟨hallowed, fun registry b hopen => ?_⟩
  rw [Builder.apply_eq, if_neg (by simp [hopen]), Builder.change, if_pos hallowed]

namespace LegalNamesExample

/-- A configuration text with a beginning that is no identifier, and two words that are not to be names. -/
def text : String := "naming.prefix = \"9\"\nidentifiers.additional_reserved = [\"Mock_Dog\", \"v_2b\"]"

/-- The configuration that it spells; names begin as usual. -/
def config : Config where
  identifiers := { additionalReserved := ["Mock_Dog", "v_2b"] }

/-- A class in a namespace. -/
def dog : SourceType := { name := "\\Zoo\\Dog", kind := .extensible }

/-- A contract. -/
def nameable : SourceType := { name := "Nameable", kind := .capability }

end LegalNamesExample

open LegalNamesExample in
/-- Under the configuration in the example the class and the contract give a legal default name, and a builder takes it. -/
theorem default_names_legal_dog :
    Config.ofToml? text = some config ∧
      Classified.ofTypes [nameable, dog] = .ok { base := some dog, capabilities := [nameable] } ∧
      config.identifiers.allowsType "Mock_Dog_7" = true ∧
      Builder.apply ⟨Registry.empty, config⟩ {} (.setName "Mock_Dog_7") = .ok { explicitName := some "Mock_Dog_7" } := by
  have hread : Config.ofToml? text = some config := by decide +kernel
  have hplaced : Classified.ofTypes [nameable, dog] = .ok { base := some dog, capabilities := [nameable] } := rfl
  obtain ⟨hallowed, htaken⟩ := default_names_legal (fun text => (Toml.document? text).bind (Config.read? .toml)) text config
    hread (by decide +kernel) [nameable, dog] (by decide +kernel) _ hplaced 7
  exact ⟨hread, hplaced, hallowed, htaken Registry.empty {} rfl⟩

end TestDouble

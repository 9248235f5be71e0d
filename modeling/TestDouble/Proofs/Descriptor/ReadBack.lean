import TestDouble.Proofs.Descriptor.Forms
import TestDouble.Proofs.Json.ReadBack

/-!
# Descriptors are read back

A descriptor is read off the text it is written as, and off every document that spells what is written
(`descriptors_read_back`). For the documents this is what each kind of descriptor declares of its fields. For the text it also
takes that the only numbers in it are lines, which are whole, so that reading the text rounds nothing. A custom method is written
only if the path of the file of its closure is a text; what is written then is what is shown of it, and that loses nothing.
-/

namespace TestDouble

/-! ## Texts -/

/-- Values that are written without inexact numbers are read off the text they are written as. -/
theorem ReadsBack.read_text {α : Type} {spelling : Spelling} {write : α → Json} {read : Document → Option α}
    (h : ReadsBack spelling write read) (hexact : ∀ value, (write value).isExact = true) (value : α) :
    (Json.document? (write value).compactText).bind read = some value := by
  rw [Json.document?_compactText (hexact value), Option.bind_some]
  exact h.read_ofJson value

@[simp] theorem Json.isExact_ofText? (value : Option String) : (ofText? value).isExact = true := by
  cases value <;> rfl

theorem Parameter.isExact_toJson (p : Parameter) : p.toJson.isExact = true := by
  simp [toJson]

theorem Method.isExact_toJson (m : Method) : m.toJson.isExact = true := by
  simp [toJson, Parameter.isExact_toJson]

theorem SourceType.isExact_toJson (t : SourceType) : t.toJson.isExact = true := by
  simp [toJson, Method.isExact_toJson]

/-- Lines are numbers of thirty-two bits. -/
theorem Site.isExact_toJson (s : Site String) : s.toJson.isExact = true := by
  have hline (line : UInt32) : -Int.pow 2 63 ≤ (line.toNat : Int) ∧ (line.toNat : Int) < Int.pow 2 64 := by
    have hbound : line.toNat < 4294967296 := line.toNat_lt
    have hlow : Int.pow 2 63 = 9223372036854775808 := rfl
    have hhigh : Int.pow 2 64 = 18446744073709551616 := rfl
    omega
  simp [toJson, Json.isExact_integer (hline _)]

theorem Callable.isExact_toJson (callable : Callable String) : callable.toJson.isExact = true := by
  cases callable <;> simp [toJson, Site.isExact_toJson]

theorem CustomMethod.isExact_toJson (m : CustomMethod String) : m.toJson.isExact = true := by
  have hcallable : ((m.callable.map Callable.toJson).getD .null).isExact = true := by
    cases m.callable with
    | none => rfl
    | some callable => exact callable.isExact_toJson
  simp [toJson, hcallable, Parameter.isExact_toJson]

theorem Config.isExact_toJson (c : Config) : c.toJson.isExact = true := by
  simp [toJson, IdentifierRules.toJson, Naming.toJson]

/-! ## All descriptors -/

/-- A custom method that can be written is written as what is shown of it. -/
theorem CustomMethod.toJson?_of_isWritable {m : CustomMethod} (h : m.isWritable = true) : m.toJson? = some m.shown.toJson :=
  if_pos h

/-- What is read as what is shown of a method that can be written is read as the method. -/
theorem CustomMethod.ofDocument?_of_read? {m : CustomMethod} (h : m.isWritable = true) {document : Document}
    (hread : read? document = some m.shown) : ofDocument? document = some m := by
  rw [ofDocument?, hread, Option.map_some, ofText_shown h]

/-- Reading undoes writing. A descriptor is read off the text that it is written as, and off every document that spells what is
written: with the fields of records, at any depth, in another order, without fields that hold their defaults, and with fields
that the records do not know. A custom method is written if the path of the file of its closure is a text. -/
theorem descriptors_read_back :
    (∀ t : SourceType, (Json.document? t.toJson.compactText).bind SourceType.read? = some t ∧
      ∀ document, SourceType.spelling t.toJson document → SourceType.read? document = some t) ∧
    (∀ m : Method, (Json.document? m.toJson.compactText).bind Method.read? = some m ∧
      ∀ document, Method.spelling m.toJson document → Method.read? document = some m) ∧
    (∀ p : Parameter, (Json.document? p.toJson.compactText).bind Parameter.read? = some p ∧
      ∀ document, Parameter.spelling p.toJson document → Parameter.read? document = some p) ∧
    (∀ m : CustomMethod, m.isWritable = true → ∃ written, m.toJson? = some written ∧
      (Json.document? written.compactText).bind CustomMethod.ofDocument? = some m ∧
      ∀ document, CustomMethod.spelling written document → CustomMethod.ofDocument? document = some m) ∧
    (∀ c : Config, (Json.document? c.toJson.compactText).bind (Config.read? .json) = some c ∧
      ∀ document, Config.spelling c.toJson document → Config.read? .json document = some c) := by
  refine ⟨?_, ?_, ?_, ?_, ?_⟩
  · intro t
    exact ⟨SourceType.readsBack.read_text SourceType.isExact_toJson t, SourceType.readsBack.spelled t⟩
  · intro m
    exact ⟨Method.readsBack.read_text Method.isExact_toJson m, Method.readsBack.spelled m⟩
  · intro p
    exact ⟨Parameter.readsBack.read_text Parameter.isExact_toJson p, Parameter.readsBack.spelled p⟩
  · intro m hm
    obtain ⟨document, hdocument, hread⟩ :=
      Option.bind_eq_some_iff.mp (CustomMethod.readsBack.read_text CustomMethod.isExact_toJson m.shown)
    refine ⟨m.shown.toJson, CustomMethod.toJson?_of_isWritable hm, ?_, fun document hspelled => ?_⟩
    · rw [hdocument, Option.bind_some, CustomMethod.ofDocument?_of_read? hm hread]
    · exact CustomMethod.ofDocument?_of_read? hm (CustomMethod.readsBack.spelled m.shown document hspelled)
  · intro c
    exact ⟨Config.readsBack.read_text Config.isExact_toJson c, Config.readsBack.spelled c⟩

namespace Abridged

/-- The fields that are kept and those that are added, in the opposite order. -/
theorem record_reversed {forms : List FieldForm} {members : List (String × Json)} (kept added : List (String × Document))
    (hkept : Kept forms members kept) (unknown : ∀ field ∈ added, field.1 ∉ forms.map FieldForm.name) :
    Spelling.record forms (.object members) (.named (kept ++ added).reverse) :=
  .fields hkept unknown (List.reverse_perm _).symm

/-- A parameter of which one field is not at its default. -/
def parameter : Parameter := { name := "p", hasDefault := true }

/-- The parameter without its defaults, with a field it does not know. -/
def parameterDocument : Document :=
  .named [("default_value", .unreadable), ("has_default", .bool true), ("name", .text "p")]

theorem parameter_spelled : Parameter.spelling parameter.toJson parameterDocument := by
  apply record_reversed [("name", .text "p"), ("has_default", .bool true)] [("default_value", .unreadable)]
  · exact .spelled rfl (.leftOut rfl (.spelled rfl (.leftOut rfl (.leftOut rfl .nil))))
  · simp [Parameter.forms]

/-- A method with that parameter. -/
def method : Method := { name := "m", parameters := [parameter], returnType := some "int" }

/-- The method without its defaults, with a field it does not know listed twice. -/
def methodDocument : Document :=
  .named
    [("docs", .null), ("docs", .null), ("return_type", .text "int"), ("parameters", .list [parameterDocument]),
      ("name", .text "m")]

theorem method_spelled : Method.spelling method.toJson methodDocument := by
  apply record_reversed [("name", .text "m"), ("parameters", .list [parameterDocument]), ("return_type", .text "int")]
    [("docs", .null), ("docs", .null)]
  · refine .spelled rfl (.spelled (.items (.cons parameter_spelled .nil)) ?_)
    exact .leftOut rfl (.leftOut rfl (.leftOut rfl (.leftOut rfl (.leftOut rfl (.spelled rfl .nil)))))
  · simp [Method.forms]

/-- A type with that method. -/
def type : SourceType := { name := "A", kind := .mixin, methods := [method] }

/-- The type without its default. -/
def typeDocument : Document :=
  .named [("methods", .list [methodDocument]), ("kind", .text "mixin"), ("name", .text "A")]

theorem type_spelled : SourceType.spelling type.toJson typeDocument := by
  apply record_reversed [("name", .text "A"), ("kind", .text "mixin"), ("methods", .list [methodDocument])] []
  · exact .spelled rfl (.spelled rfl (.spelled (.items (.cons method_spelled .nil)) (.leftOut rfl .nil)))
  · simp

/-- The site of a closure. -/
def site : Site String := ⟨"f", 5, 7⟩

/-- The site with a field it does not know. -/
def siteDocument : Document :=
  .named
    [("column", .notFinite), ("end_line", .number (.integer 7)), ("start_line", .number (.integer 5)), ("file", .text "f")]

theorem site_spelled : Site.spelling site.toJson siteDocument := by
  apply record_reversed [("file", .text "f"), ("start_line", .number (.integer 5)), ("end_line", .number (.integer 7))]
    [("column", .notFinite)]
  · exact .spelled rfl (.spelled rfl (.spelled rfl .nil))
  · simp [Site.forms]

/-- A custom method that runs the closure. -/
def customMethod : CustomMethod String := { callable := some (.closure site), parameters := [], returnType := none }

/-- The custom method without what may be left out. -/
def customMethodDocument : Document :=
  .named [("parameters", .list []), ("callable", .record [(some "Closure", siteDocument)])]

theorem customMethod_spelled : CustomMethod.spelling customMethod.toJson customMethodDocument := by
  apply record_reversed [("callable", .record [(some "Closure", siteDocument)]), ("parameters", .list [])] []
  · have hcallable : Callable.spelling (Callable.toJson (.closure site)) (.record [(some "Closure", siteDocument)]) :=
      .alternative Callable.lookup_closure site_spelled
    exact .spelled (.value nofun hcallable) (.spelled (.items .nil) (.leftOut rfl .nil))
  · simp

/-- The default configuration but for one reserved word. -/
def config : Config := { identifiers := { additionalReserved := ["mock"] } }

/-- The configuration without its defaults. -/
def configDocument : Document :=
  .named [("identifiers", .named [("additional_reserved", .list [.text "mock"])])]

theorem config_spelled : Config.spelling config.toJson configDocument := by
  have hrules : IdentifierRules.spelling config.identifiers.toJson
      (.named [("additional_reserved", .list [.text "mock"])]) := by
    apply record_reversed [("additional_reserved", .list [.text "mock"])] []
    · exact .leftOut rfl (.spelled (.items (.cons rfl .nil)) .nil)
    · simp
  apply record_reversed [("identifiers", .named [("additional_reserved", .list [.text "mock"])])] []
  · exact .spelled hrules (.leftOut rfl .nil)
  · simp

end Abridged

open Abridged in
/-- Documents that leave out what may be left out, in another order and with fields added, at each level of the descriptors. -/
theorem descriptors_read_back_abridged :
    (SourceType.spelling type.toJson typeDocument ∧ SourceType.read? typeDocument = some type) ∧
    (Method.spelling method.toJson methodDocument ∧ Method.read? methodDocument = some method) ∧
    (Parameter.spelling parameter.toJson parameterDocument ∧ Parameter.read? parameterDocument = some parameter) ∧
    ((CustomMethod.ofText customMethod).toJson? = some customMethod.toJson ∧
      CustomMethod.spelling customMethod.toJson customMethodDocument ∧
      CustomMethod.ofDocument? customMethodDocument = some (.ofText customMethod)) ∧
    (Config.spelling config.toJson configDocument ∧ Config.read? .json configDocument = some config) := by
  obtain ⟨htypes, hmethods, hparameters, hcustom, hconfigs⟩ := descriptors_read_back
  obtain ⟨written, hwritten, -, hcustom⟩ := hcustom (.ofText customMethod) (CustomMethod.isWritable_ofText customMethod)
  obtain rfl := Option.some.inj (hwritten.symm.trans (CustomMethod.toJson?_ofText customMethod))
  refine ⟨⟨type_spelled, ?_⟩, ⟨method_spelled, ?_⟩, ⟨parameter_spelled, ?_⟩, ⟨hwritten, customMethod_spelled, ?_⟩,
    ⟨config_spelled, ?_⟩⟩
  · exact (htypes type).2 typeDocument type_spelled
  · exact (hmethods method).2 methodDocument method_spelled
  · exact (hparameters parameter).2 parameterDocument parameter_spelled
  · exact hcustom customMethodDocument customMethod_spelled
  · exact (hconfigs config).2 configDocument config_spelled

end TestDouble

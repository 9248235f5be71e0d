import TestDouble.Config
import TestDouble.Descriptor.CustomMethod
import TestDouble.Document.Fields

/-!
# The written form of descriptors

Every descriptor is written as a data value with `toJson` and read from a document with `read?`. Writing gives every field;
reading fills fields that are left out with their defaults, takes fields in any order and passes over fields it does not
know. What is written of a closure says its file as a text, so a custom method is written only if the path of that file is one
(`CustomMethod.toJson?`).
-/

namespace TestDouble

/-- A string that may be absent. -/
def Json.ofText? (value : Option String) : Json := (value.map Json.text).getD .null

/-! ## Kinds and visibilities -/

/-- The word for a kind of type. -/
def TypeKind.word : TypeKind → String
  | .extensible => "extensible"
  | .capability => "capability"
  | .mixin => "mixin"

/-- The kind of type a word stands for. -/
def TypeKind.ofWord? (word : String) : Option TypeKind :=
  [TypeKind.extensible, .capability, .mixin].find? (fun kind => kind.word == word)

/-- A kind of type read from a document. -/
def TypeKind.read? (document : Document) : Option TypeKind := document.name?.bind TypeKind.ofWord?

/-- The word for a visibility. -/
def Visibility.word : Visibility → String
  | .isPublic => "public"
  | .isProtected => "protected"
  | .isPrivate => "private"

/-- The visibility a word stands for. -/
def Visibility.ofWord? (word : String) : Option Visibility :=
  [Visibility.isPublic, .isProtected, .isPrivate].find? (fun visibility => visibility.word == word)

/-- A visibility read from a document. -/
def Visibility.read? (document : Document) : Option Visibility := document.name?.bind Visibility.ofWord?

/-! ## Types -/

namespace Parameter

/-- The fields of a parameter, in order. -/
def fieldNames : List String := ["name", "by_reference", "has_default", "is_variadic", "type_hint"]

/-- A parameter as a data value. -/
def toJson (p : Parameter) : Json :=
  .object
    [("name", .text p.name), ("by_reference", .bool p.byReference), ("has_default", .bool p.hasDefault),
      ("is_variadic", .bool p.isVariadic), ("type_hint", Json.ofText? p.typeHint)]

/-- A parameter read from a document; all but the name have defaults. -/
def read? (document : Document) : Option Parameter := do
  let fields ← document.fields? .json fieldNames
  let name ← fields.required "name" Document.text?
  let byReference ← fields.withDefault "by_reference" false Document.bool?
  let hasDefault ← fields.withDefault "has_default" false Document.bool?
  let isVariadic ← fields.withDefault "is_variadic" false Document.bool?
  let typeHint ← fields.withDefault "type_hint" none (Document.orNull? Document.text?)
  return { name, byReference, hasDefault, isVariadic, typeHint }

end Parameter

namespace Method

/-- The fields of a method, in order. -/
def fieldNames : List String :=
  ["name", "parameters", "visibility", "is_abstract", "is_final", "is_constructor", "is_static", "return_type"]

/-- A method as a data value. -/
def toJson (m : Method) : Json :=
  .object
    [("name", .text m.name), ("parameters", .array (m.parameters.map Parameter.toJson)),
      ("visibility", .text m.visibility.word), ("is_abstract", .bool m.isAbstract), ("is_final", .bool m.isFinal),
      ("is_constructor", .bool m.isConstructor), ("is_static", .bool m.isStatic),
      ("return_type", Json.ofText? m.returnType)]

/-- A method read from a document; all but the name have defaults. -/
def read? (document : Document) : Option Method := do
  let fields ← document.fields? .json fieldNames
  let name ← fields.required "name" Document.text?
  let parameters ← fields.withDefault "parameters" [] (Document.list? Parameter.read?)
  let visibility ← fields.withDefault "visibility" .isPublic Visibility.read?
  let isAbstract ← fields.withDefault "is_abstract" false Document.bool?
  let isFinal ← fields.withDefault "is_final" false Document.bool?
  let isConstructor ← fields.withDefault "is_constructor" false Document.bool?
  let isStatic ← fields.withDefault "is_static" false Document.bool?
  let returnType ← fields.withDefault "return_type" none (Document.orNull? Document.text?)
  return { name, parameters, visibility, isAbstract, isFinal, isConstructor, isStatic, returnType }

end Method

namespace SourceType

/-- The fields of a type, in order. -/
def fieldNames : List String := ["name", "kind", "methods", "is_sealed"]

/-- A type as a data value. -/
def toJson (t : SourceType) : Json :=
  .object
    [("name", .text t.name), ("kind", .text t.kind.word), ("methods", .array (t.methods.map Method.toJson)),
      ("is_sealed", .bool t.isSealed)]

/-- A type read from a document; all but the name and the kind have defaults. -/
def read? (document : Document) : Option SourceType := do
  let fields ← document.fields? .json fieldNames
  let name ← fields.required "name" Document.text?
  let kind ← fields.required "kind" TypeKind.read?
  let methods ← fields.withDefault "methods" [] (Document.list? Method.read?)
  let isSealed ← fields.withDefault "is_sealed" false Document.bool?
  return { name, kind, methods, isSealed }

end SourceType

/-! ## Custom methods -/

namespace Site

/-- The fields of a site, in order. -/
def fieldNames : List String := ["file", "start_line", "end_line"]

/-- A site as a data value. -/
def toJson (s : Site String) : Json :=
  .object
    [("file", .text s.file), ("start_line", .number (.integer s.startLine.toNat)),
      ("end_line", .number (.integer s.endLine.toNat))]

/-- A site read from a document; every field is needed. -/
def read? (document : Document) : Option (Site String) := do
  let fields ← document.fields? .json fieldNames
  let file ← fields.required "file" Document.text?
  let startLine ← fields.required "start_line" Document.word?
  let endLine ← fields.required "end_line" Document.word?
  return { file, startLine, endLine }

end Site

namespace Callable

/-- A callable as a data value: an object of one member, named for what the callable is. -/
def toJson : Callable String → Json
  | .named reference => .object [("Named", .text reference)]
  | .closure site => .object [("Closure", site.toJson)]

/-- A callable read from a document. -/
def read? (document : Document) : Option (Callable String) :=
  match document.choice? with
  | some ("Named", some content) => content.text?.map Callable.named
  | some ("Closure", some content) => (Site.read? content).map Callable.closure
  | _ => none

end Callable

namespace CustomMethod

/-- The fields of a custom method, in order. -/
def fieldNames : List String := ["callable", "parameters", "return_type"]

/-- A custom method, with the file of a closure as a text, as a data value. -/
def toJson (m : CustomMethod String) : Json :=
  .object
    [("callable", (m.callable.map Callable.toJson).getD .null),
      ("parameters", .array (m.parameters.map Parameter.toJson)), ("return_type", Json.ofText? m.returnType)]

/-- A custom method read from a document, with the file of a closure as a text; the parameters are needed. -/
def read? (document : Document) : Option (CustomMethod String) := do
  let fields ← document.fields? .json fieldNames
  let callable ← fields.optional "callable" Callable.read?
  let parameters ← fields.required "parameters" (Document.list? Parameter.read?)
  let returnType ← fields.optional "return_type" Document.text?
  return { callable, parameters, returnType }

/-- A custom method as a data value; there is none if the path of the file of a closure is no text. -/
def toJson? (m : CustomMethod) : Option Json := if m.isWritable then some m.shown.toJson else none

/-- Only a closure in a file whose path is no text keeps a custom method from being written. -/
theorem toJson?_eq_none_iff (m : CustomMethod) :
    m.toJson? = none ↔ ∃ site : Site, m.callable = some (.closure site) ∧ site.file.text? = none := by
  rw [toJson?, isWritable, file?]
  cases m.callable with
  | none => simp
  | some callable =>
    cases callable with
    | named reference => simp
    | closure site => cases hpath : site.file.text? <;> simp [FilePath.isText, hpath]

@[simp] theorem toJson?_ofText (m : CustomMethod String) : (ofText m).toJson? = some m.toJson := by
  rw [toJson?, isWritable_ofText, if_pos rfl, shown_ofText]

/-- A custom method read from a document. -/
def ofDocument? (document : Document) : Option CustomMethod := (read? document).map ofText

end CustomMethod

/-! ## Configuration -/

namespace IdentifierRules

/-- The fields of the rules for names, in order. -/
def fieldNames : List String := ["relaxed_keywords", "additional_reserved"]

/-- The rules for names as a data value. -/
def toJson (rules : IdentifierRules) : Json :=
  .object
    [("relaxed_keywords", .bool rules.relaxedKeywords),
      ("additional_reserved", .array (rules.additionalReserved.map Json.text))]

/-- The rules for names read from a document; every field has a default. -/
def read? (dialect : Dialect) (document : Document) : Option IdentifierRules := do
  let fields ← document.fields? dialect fieldNames
  let relaxedKeywords ← fields.withDefault "relaxed_keywords" false Document.bool?
  let additionalReserved ← fields.withDefault "additional_reserved" [] (Document.list? Document.text?)
  return { relaxedKeywords, additionalReserved }

end IdentifierRules

namespace Naming

/-- The fields of the naming, in order. -/
def fieldNames : List String := ["prefix"]

/-- The naming as a data value. -/
def toJson (naming : Naming) : Json := .object [("prefix", .text naming.start)]

/-- The naming read from a document; its field has a default. -/
def read? (dialect : Dialect) (document : Document) : Option Naming := do
  let fields ← document.fields? dialect fieldNames
  let start ← fields.withDefault "prefix" ({} : Naming).start Document.text?
  return { start }

end Naming

namespace Config

/-- The fields of a configuration, in order. -/
def fieldNames : List String := ["identifiers", "naming"]

/-- A configuration as a data value. -/
def toJson (c : Config) : Json := .object [("identifiers", c.identifiers.toJson), ("naming", c.naming.toJson)]

/-- A configuration read from a document; every field has a default. -/
def read? (dialect : Dialect) (document : Document) : Option Config := do
  let fields ← document.fields? dialect fieldNames
  let identifiers ← fields.withDefault "identifiers" {} (IdentifierRules.read? dialect)
  let naming ← fields.withDefault "naming" {} (Naming.read? dialect)
  return { identifiers, naming }

end Config

end TestDouble

import TestDouble.Descriptor.Written
import TestDouble.Fingerprint.Encoding
import TestDouble.Sha256

/-!
# Digests and the written form of fingerprints

The digest of a fingerprint is the SHA-256 hash of its bytes. As a data value a fingerprint is an object of its fields,
tables as objects and a callable as an object that says its kind.
-/

namespace TestDouble.Fingerprint

/-- The digest of a fingerprint, in hexadecimal. -/
def digest (f : Fingerprint) : String := Sha256.hexDigest f.bytes

/-- A callable as part of a fingerprint. -/
def callableJson : Option (Callable String) → Json
  | none => .object [("kind", .text "absent")]
  | some (.named reference) => .object [("kind", .text "named"), ("reference", .text reference)]
  | some (.closure site) =>
    .object
      [("kind", .text "closure"), ("file", .text site.file),
        ("start_line", .number (.integer site.startLine.toNat)), ("end_line", .number (.integer site.endLine.toNat))]

/-- A custom method as part of a fingerprint. -/
def methodJson (m : CustomMethod String) : Json :=
  .object
    [("callable", callableJson m.callable), ("parameters", .array (m.parameters.map Parameter.toJson)),
      ("return_type", Json.ofText? m.returnType)]

/-- A table as an object. -/
def tableJson {α : Type} (json : α → Json) (table : SortedMap α) : Json :=
  .object (table.entries.map (fun entry => (entry.1, json entry.2)))

/-- A fingerprint as a data value. -/
def toJson (f : Fingerprint) : Json :=
  .object
    [("types", .array (f.types.map Json.text)), ("custom_methods", tableJson methodJson f.methods),
      ("custom_static_methods", tableJson methodJson f.staticMethods),
      ("custom_properties", tableJson Json.text f.properties),
      ("custom_static_properties", tableJson Json.text f.staticProperties),
      ("custom_constants", tableJson Json.text f.constants), ("type_name", Json.ofText? f.typeName)]

end TestDouble.Fingerprint

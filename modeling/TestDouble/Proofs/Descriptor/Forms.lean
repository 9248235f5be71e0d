import TestDouble.Descriptor.Written
import TestDouble.Proofs.Descriptor.Spelling

/-!
# What descriptors declare of their fields

Each kind of descriptor declares its fields in order (`Parameter.forms` and so on): whether a field may be left out and at which
value, and how its value is spelled. The documents that spell a descriptor follow from that (`Parameter.spelling` and so on),
and the reader of the descriptor undoes its writer under that spelling (`Parameter.readsBack` and so on), which comes down to
one fact for each field.
-/

namespace TestDouble

/-! ## Plain values -/

theorem readsBack_text : ReadsBack .exact Json.text Document.text? := readsBack_exact (fun _ => rfl)

theorem readsBack_bool : ReadsBack .exact Json.bool Document.bool? := readsBack_exact (fun _ => rfl)

/-- A string that may be absent is read back. -/
theorem readsBack_textOrNull :
    ReadsBack .exact (fun value : Option String => (value.map Json.text).getD .null) (Document.orNull? Document.text?) := by
  apply readsBack_exact
  intro value
  cases value <;> rfl

/-- A number of thirty-two bits is read back. -/
theorem readsBack_word : ReadsBack .exact (fun value : UInt32 => .number (.integer value.toNat)) Document.word? := by
  apply readsBack_exact
  intro value
  have hbound : value.toNat < 2 ^ 32 := value.toNat_lt
  have hrange : 0 ≤ (value.toNat : Int) ∧ (value.toNat : Int) < Int.pow 2 32 := by
    refine ⟨Int.natCast_nonneg _, ?_⟩
    change (value.toNat : Int) < 4294967296
    omega
  rw [Document.ofJson, Document.word?, if_pos hrange, Int.toNat_natCast, UInt32.ofNat_toNat]

/-- A kind of type is read back from its word. -/
theorem readsBack_kind : ReadsBack .exact (fun kind : TypeKind => .text kind.word) TypeKind.read? := by
  apply readsBack_exact
  intro kind
  cases kind <;> decide

/-- A visibility is read back from its word. -/
theorem readsBack_visibility : ReadsBack .exact (fun visibility : Visibility => .text visibility.word) Visibility.read? := by
  apply readsBack_exact
  intro visibility
  cases visibility <;> decide

/-! ## Types -/

namespace Parameter

/-- What a parameter declares of its fields. -/
def forms : List FieldForm :=
  [{ name := "name" },
    { name := "by_reference", default := some (.bool false) },
    { name := "has_default", default := some (.bool false) },
    { name := "is_variadic", default := some (.bool false) },
    { name := "type_hint", default := some .null }]

/-- The spellings of a parameter. -/
def spelling : Spelling := .record forms

/-- A parameter is read back from each of its spellings. -/
theorem readsBack : ReadsBack spelling toJson read? where
  self p := by
    apply Spelling.record_self
    simp [forms, Spelling.exact]
  spelled p document h := by
    obtain ⟨fields, hfields, -, hholds⟩ := Spelling.record.holds h (by decide)
    simp only [forms, List.forall₂_cons] at hholds
    obtain ⟨hname, href, hdef, hvar, hhint, -⟩ := hholds
    have hname := hname.required readsBack_text rfl rfl
    have href := href.withDefault false readsBack_bool rfl rfl
    have hdef := hdef.withDefault false readsBack_bool rfl rfl
    have hvar := hvar.withDefault false readsBack_bool rfl rfl
    have hhint := hhint.withDefault none readsBack_textOrNull rfl rfl
    have hfields : document.fields? .json fieldNames = some fields := hfields
    simp [read?, hfields, hname, href, hdef, hvar, hhint]

end Parameter

namespace Method

/-- What a method declares of its fields. -/
def forms : List FieldForm :=
  [{ name := "name" },
    { name := "parameters", default := some (.array []), spelling := .list Parameter.spelling },
    { name := "visibility", default := some (.text Visibility.isPublic.word) },
    { name := "is_abstract", default := some (.bool false) },
    { name := "is_final", default := some (.bool false) },
    { name := "is_constructor", default := some (.bool false) },
    { name := "is_static", default := some (.bool false) },
    { name := "return_type", default := some .null }]

/-- The spellings of a method. -/
def spelling : Spelling := .record forms

/-- A method is read back from each of its spellings. -/
theorem readsBack : ReadsBack spelling toJson read? where
  self m := by
    apply Spelling.record_self
    simp [forms, Spelling.exact, Parameter.readsBack.list.self m.parameters]
  spelled m document h := by
    obtain ⟨fields, hfields, -, hholds⟩ := Spelling.record.holds h (by decide)
    simp only [forms, List.forall₂_cons] at hholds
    obtain ⟨hname, hparameters, hvisibility, habstract, hfinal, hconstructor, hstatic, hreturn, -⟩ := hholds
    have hname := hname.required readsBack_text rfl rfl
    have hparameters := hparameters.withDefault [] Parameter.readsBack.list rfl rfl
    have hvisibility := hvisibility.withDefault .isPublic readsBack_visibility rfl rfl
    have habstract := habstract.withDefault false readsBack_bool rfl rfl
    have hfinal := hfinal.withDefault false readsBack_bool rfl rfl
    have hconstructor := hconstructor.withDefault false readsBack_bool rfl rfl
    have hstatic := hstatic.withDefault false readsBack_bool rfl rfl
    have hreturn := hreturn.withDefault none readsBack_textOrNull rfl rfl
    have hfields : document.fields? .json fieldNames = some fields := hfields
    simp [read?, hfields, hname, hparameters, hvisibility, habstract, hfinal, hconstructor, hstatic, hreturn]

end Method

namespace SourceType

/-- What a type declares of its fields. -/
def forms : List FieldForm :=
  [{ name := "name" },
    { name := "kind" },
    { name := "methods", default := some (.array []), spelling := .list Method.spelling },
    { name := "is_sealed", default := some (.bool false) }]

/-- The spellings of a type. -/
def spelling : Spelling := .record forms

/-- A type is read back from each of its spellings. -/
theorem readsBack : ReadsBack spelling toJson read? where
  self t := by
    apply Spelling.record_self
    simp [forms, Spelling.exact, Method.readsBack.list.self t.methods]
  spelled t document h := by
    obtain ⟨fields, hfields, -, hholds⟩ := Spelling.record.holds h (by decide)
    simp only [forms, List.forall₂_cons] at hholds
    obtain ⟨hname, hkind, hmethods, hsealed, -⟩ := hholds
    have hname := hname.required readsBack_text rfl rfl
    have hkind := hkind.required readsBack_kind rfl rfl
    have hmethods := hmethods.withDefault [] Method.readsBack.list rfl rfl
    have hsealed := hsealed.withDefault false readsBack_bool rfl rfl
    have hfields : document.fields? .json fieldNames = some fields := hfields
    simp [read?, hfields, hname, hkind, hmethods, hsealed]

end SourceType

/-! ## Custom methods -/

namespace Site

/-- What a site declares of its fields. -/
def forms : List FieldForm := [{ name := "file" }, { name := "start_line" }, { name := "end_line" }]

/-- The spellings of a site. -/
def spelling : Spelling := .record forms

/-- A site is read back from each of its spellings. -/
theorem readsBack : ReadsBack spelling toJson read? where
  self s := by
    apply Spelling.record_self
    simp [forms, Spelling.exact]
  spelled s document h := by
    obtain ⟨fields, hfields, -, hholds⟩ := Spelling.record.holds h (by decide)
    simp only [forms, List.forall₂_cons] at hholds
    obtain ⟨hfile, hstart, hend, -⟩ := hholds
    have hfile := hfile.required readsBack_text rfl rfl
    have hstart := hstart.required readsBack_word rfl rfl
    have hend := hend.required readsBack_word rfl rfl
    have hfields : document.fields? .json fieldNames = some fields := hfields
    simp [read?, hfields, hfile, hstart, hend]

end Site

namespace Callable

/-- What a callable may be, and how it is spelled then. -/
def alternatives : List (String × Spelling) := [("Named", .exact), ("Closure", Site.spelling)]

/-- The spellings of a callable. -/
def spelling : Spelling := .choice alternatives

theorem lookup_named : alternatives.lookup "Named" = some .exact := by simp [alternatives]

theorem lookup_closure : alternatives.lookup "Closure" = some Site.spelling := by simp [alternatives, List.lookup_cons]

/-- A callable is read back from each of its spellings. -/
theorem readsBack : ReadsBack spelling toJson read? where
  self callable := by
    cases callable with
    | named reference => exact .alternative lookup_named rfl
    | closure site => exact .alternative lookup_closure (Site.readsBack.self site)
  spelled callable document h := by
    cases callable with
    | named reference =>
      obtain ⟨content, rfl, hcontent⟩ := Spelling.choice.content h lookup_named
      simp [read?, Document.choice?, readsBack_text.spelled reference content hcontent]
    | closure site =>
      obtain ⟨content, rfl, hcontent⟩ := Spelling.choice.content h lookup_closure
      simp [read?, Document.choice?, Site.readsBack.spelled site content hcontent]

end Callable

namespace CustomMethod

/-- What a custom method declares of its fields. -/
def forms : List FieldForm :=
  [{ name := "callable", default := some .null, spelling := .orNull Callable.spelling },
    { name := "parameters", spelling := .list Parameter.spelling },
    { name := "return_type", default := some .null }]

/-- The spellings of a custom method. -/
def spelling : Spelling := .record forms

/-- A custom method is read back from each of its spellings. -/
theorem readsBack : ReadsBack spelling toJson read? where
  self m := by
    apply Spelling.record_self
    simp [forms, Spelling.exact, Parameter.readsBack.list.self m.parameters,
      (Callable.readsBack.orNull rfl).self m.callable]
  spelled m document h := by
    obtain ⟨fields, hfields, hnamed, hholds⟩ := Spelling.record.holds h (by decide)
    simp only [forms, List.forall₂_cons] at hholds
    obtain ⟨hcallable, hparameters, hreturn, -⟩ := hholds
    have hcallable := hcallable.optional hnamed (Callable.readsBack.orNull rfl) rfl rfl
    have hparameters := hparameters.required Parameter.readsBack.list rfl rfl
    have hreturn := hreturn.optional hnamed readsBack_textOrNull rfl rfl
    have hfields : document.fields? .json fieldNames = some fields := hfields
    simp [read?, hfields, hcallable, hparameters, hreturn]

end CustomMethod

/-! ## Configuration -/

namespace IdentifierRules

/-- What the rules for names declare of their fields. -/
def forms : List FieldForm :=
  [{ name := "relaxed_keywords", default := some (.bool false) },
    { name := "additional_reserved", default := some (.array []), spelling := .list .exact }]

/-- The spellings of the rules for names. -/
def spelling : Spelling := .record forms

/-- The rules for names are read back from each of their spellings. -/
theorem readsBack : ReadsBack spelling toJson (read? .json) where
  self rules := by
    apply Spelling.record_self
    simp [forms, Spelling.exact, readsBack_text.list.self rules.additionalReserved]
  spelled rules document h := by
    obtain ⟨fields, hfields, -, hholds⟩ := Spelling.record.holds h (by decide)
    simp only [forms, List.forall₂_cons] at hholds
    obtain ⟨hrelaxed, hreserved, -⟩ := hholds
    have hrelaxed := hrelaxed.withDefault false readsBack_bool rfl rfl
    have hreserved := hreserved.withDefault [] readsBack_text.list rfl rfl
    have hfields : document.fields? .json fieldNames = some fields := hfields
    simp [read?, hfields, hrelaxed, hreserved]

end IdentifierRules

namespace Naming

/-- What the naming declares of its field. -/
def forms : List FieldForm := [{ name := "prefix", default := some (.text ({} : Naming).start) }]

/-- The spellings of the naming. -/
def spelling : Spelling := .record forms

/-- The naming is read back from each of its spellings. -/
theorem readsBack : ReadsBack spelling toJson (read? .json) where
  self naming := by
    apply Spelling.record_self
    simp [forms, Spelling.exact]
  spelled naming document h := by
    obtain ⟨fields, hfields, -, hholds⟩ := Spelling.record.holds h (by decide)
    simp only [forms, List.forall₂_cons] at hholds
    obtain ⟨hstart, -⟩ := hholds
    have hstart := hstart.withDefault ({} : Naming).start readsBack_text rfl rfl
    have hfields : document.fields? .json fieldNames = some fields := hfields
    simp [read?, hfields, hstart]

end Naming

namespace Config

/-- What a configuration declares of its fields. -/
def forms : List FieldForm :=
  [{ name := "identifiers", default := some ({} : IdentifierRules).toJson, spelling := IdentifierRules.spelling },
    { name := "naming", default := some ({} : Naming).toJson, spelling := Naming.spelling }]

/-- The spellings of a configuration. -/
def spelling : Spelling := .record forms

/-- A configuration is read back from each of its spellings. -/
theorem readsBack : ReadsBack spelling toJson (read? .json) where
  self c := by
    apply Spelling.record_self
    simp [forms, IdentifierRules.readsBack.self c.identifiers, Naming.readsBack.self c.naming]
  spelled c document h := by
    obtain ⟨fields, hfields, -, hholds⟩ := Spelling.record.holds h (by decide)
    simp only [forms, List.forall₂_cons] at hholds
    obtain ⟨hidentifiers, hnaming, -⟩ := hholds
    have hidentifiers := hidentifiers.withDefault {} IdentifierRules.readsBack rfl rfl
    have hnaming := hnaming.withDefault {} Naming.readsBack rfl rfl
    have hfields : document.fields? .json fieldNames = some fields := hfields
    simp [read?, hfields, hidentifiers, hnaming]

end Config

end TestDouble

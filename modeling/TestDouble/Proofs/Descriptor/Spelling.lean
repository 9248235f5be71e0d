import Mathlib.Data.List.Forall2
import TestDouble.Document.Fields

/-!
# How a data value may be spelled

A record is written with all its fields, in their fixed order. A document may spell the same record otherwise: its fields come
in another order, a field that holds its default is left out, fields that the record does not know are added, and so on inside
the fields. A `Spelling` says which documents spell which data values, and is put together from the spellings of the parts:
`Spelling.record` from what a record declares of its fields, `Spelling.list`, `Spelling.orNull` and `Spelling.choice`.

A reader undoes a writer under a spelling (`ReadsBack`) when every document that spells what was written is read as the value
that was written. A field of a spelled record is either found, and spelled, or left out at its default (`Fields.Holds`), so the
readers of fields give the value that the field had (`Holds.required`, `Holds.withDefault`, `Holds.optional`).
-/

namespace TestDouble

/-- Which documents spell a data value. -/
abbrev Spelling := Json → Document → Prop

namespace Spelling

/-- A data value as it is. -/
def exact : Spelling := fun value document => document = .ofJson value

/-- The items of an array one by one, in their order. -/
inductive list (item : Spelling) : Json → Document → Prop where
  | items {values : List Json} {documents : List Document} (h : List.Forall₂ item values documents) :
      list item (.array values) (.list documents)

/-- `null` as it is, every other value as it is spelled. -/
inductive orNull (spelling : Spelling) : Json → Document → Prop where
  | null : orNull spelling .null .null
  | value {value : Json} {document : Document} (present : value ≠ .null) (h : spelling value document) :
      orNull spelling value document

/-- An object of one member that names one of several alternatives: the member under its name, its value spelled. -/
inductive choice (alternatives : List (String × Spelling)) : Json → Document → Prop where
  | alternative {name : String} {spelling : Spelling} {value : Json} {document : Document}
      (hname : alternatives.lookup name = some spelling) (h : spelling value document) :
      choice alternatives (.object [(name, value)]) (.record [(some name, document)])

end Spelling

/-- What a record declares of one of its fields: its name, the value at which it may be left out, if it may be left out, and the
spellings of its value. -/
structure FieldForm where
  name : String
  default : Option Json := none
  spelling : Spelling := Spelling.exact

/-- The record with these fields, each under a name. -/
def Document.named (fields : List (String × Document)) : Document :=
  .record (fields.map (fun field => (some field.1, field.2)))

/-- The fields that are kept of the members of an object, in their order: a member is spelled, or it is left out because it
holds its default. -/
inductive Kept : List FieldForm → List (String × Json) → List (String × Document) → Prop where
  | nil : Kept [] [] []
  | spelled {form : FieldForm} {forms : List FieldForm} {value : Json} {document : Document} {members : List (String × Json)}
      {kept : List (String × Document)} (h : form.spelling value document) (others : Kept forms members kept) :
      Kept (form :: forms) ((form.name, value) :: members) ((form.name, document) :: kept)
  | leftOut {form : FieldForm} {forms : List FieldForm} {value : Json} {members : List (String × Json)}
      {kept : List (String × Document)} (h : form.default = some value) (others : Kept forms members kept) :
      Kept (form :: forms) ((form.name, value) :: members) kept

/-- The members of an object as the fields of a record: those that are kept and any fields that the record does not know, in any
order. -/
inductive Spelling.record (forms : List FieldForm) : Json → Document → Prop where
  | fields {members : List (String × Json)} {kept added listed : List (String × Document)} (hkept : Kept forms members kept)
      (unknown : ∀ field ∈ added, field.1 ∉ forms.map FieldForm.name) (perm : (kept ++ added).Perm listed) :
      Spelling.record forms (.object members) (.named listed)

/-! ## Documents of data values -/

/-- The items of an array are the documents of its items. -/
theorem Document.ofJsonItems_eq_map (items : List Json) : ofJsonItems items = items.map ofJson := by
  induction items with
  | nil => rfl
  | cons item rest ih => rw [ofJsonItems, ih, List.map_cons]

/-- The members of an object are the fields of a record under their names. -/
theorem Document.ofJson_object (members : List (String × Json)) :
    ofJson (.object members) = named (members.map (fun member => (member.1, ofJson member.2))) := by
  have hfields : ofJsonMembers members = members.map (fun member => (some member.1, ofJson member.2)) := by
    induction members with
    | nil => rfl
    | cons member rest ih => rw [ofJsonMembers, ih, List.map_cons]
  rw [ofJson, hfields, named, List.map_map]
  rfl

/-! ## The fields of a spelled record -/

/-- What a reader finds of a field that had a value: the value as spelled, or nothing where the value is the default. -/
inductive Fields.Holds (fields : Fields) (form : FieldForm) (value : Json) : Prop where
  | found {document : Document} (h : form.spelling value document)
      (lookup : fields.present.lookup form.name = some document)
  | missing (h : form.default = some value) (lookup : fields.present.lookup form.name = none)

/-- The fields that are kept are some of those declared, in their order. -/
theorem Kept.names_sublist {forms : List FieldForm} {members : List (String × Json)} {kept : List (String × Document)}
    (h : Kept forms members kept) : (kept.map Prod.fst).Sublist (forms.map FieldForm.name) := by
  induction h with
  | nil => exact List.Sublist.slnil
  | spelled _ _ ih => exact ih.cons_cons _
  | leftOut _ _ ih => exact ih.cons _

/-- A reader that finds under each declared name what is kept under it finds the fields as they were declared. -/
theorem Kept.holds {forms : List FieldForm} {members : List (String × Json)} {kept : List (String × Document)}
    (h : Kept forms members kept) (distinct : (forms.map FieldForm.name).Nodup) {fields : Fields}
    (found : ∀ name ∈ forms.map FieldForm.name, fields.present.lookup name = kept.lookup name) :
    List.Forall₂ (fun form member => fields.Holds form member.2) forms members := by
  induction h with
  | nil => exact .nil
  | @spelled form forms value document members kept hspelled others ih =>
    simp only [List.map_cons, List.nodup_cons] at distinct
    have hfirst := found form.name List.mem_cons_self
    rw [OrderedMap.lookup_cons_ite, if_pos rfl] at hfirst
    refine .cons (.found hspelled hfirst) (ih distinct.2 ?_)
    intro name hm
    rw [found name (List.mem_cons_of_mem _ hm), OrderedMap.lookup_cons_ite, if_neg]
    rintro rfl
    exact distinct.1 hm
  | @leftOut form forms value members kept hdefault others ih =>
    simp only [List.map_cons, List.nodup_cons] at distinct
    have hnone : kept.lookup form.name = none := by
      rw [List.lookup_eq_none_iff]
      intro field hm
      have hmem : field.1 ∈ forms.map FieldForm.name := others.names_sublist.mem (List.mem_map_of_mem hm)
      simp only [bne_iff_ne, ne_eq]
      intro he
      exact distinct.1 (he ▸ hmem)
    refine .cons (.missing hdefault ?_) (ih distinct.2 ?_)
    · rw [found form.name List.mem_cons_self, hnone]
    · intro name hm
      exact found name (List.mem_cons_of_mem _ hm)

/-- The known ones of fields that have names are those listed under a known name, where no known name is listed twice. -/
theorem Document.knownFields?_json {known : List String} {fields : List (String × Document)}
    (h : ((fields.filter (fun field => known.contains field.1)).map Prod.fst).Nodup) :
    knownFields? .json known (fields.map (fun field => (some field.1, field.2))) =
      some (fields.filter (fun field => known.contains field.1)) := by
  induction fields with
  | nil => rfl
  | cons field rest ih =>
    obtain ⟨name, value⟩ := field
    by_cases hk : known.contains name = true
    · simp only [List.filter_cons, hk, if_true, List.map_cons, List.nodup_cons] at h ⊢
      have hlater : ((rest.filter (fun field => known.contains field.1)).map Prod.fst).contains name = false := by
        rw [← Bool.not_eq_true, List.contains_iff_mem]
        exact h.1
      simp only [knownFields?, ih h.2, hk, hlater, if_true, Bool.false_eq_true, if_false]
    · have hpassed : (Dialect.json.readsUnknown && !value.isReadable) = false := rfl
      simp only [List.filter_cons, hk, Bool.false_eq_true, if_false, List.map_cons] at h ⊢
      simp only [knownFields?, ih h, hk, hpassed, Bool.false_eq_true, if_false]

/-- What is known of the fields that are listed is what was kept. -/
theorem Kept.perm_known {forms : List FieldForm} {members : List (String × Json)}
    {kept added listed : List (String × Document)} (h : Kept forms members kept)
    (unknown : ∀ field ∈ added, field.1 ∉ forms.map FieldForm.name) (perm : (kept ++ added).Perm listed) :
    kept.Perm (listed.filter (fun field => (forms.map FieldForm.name).contains field.1)) := by
  have hall : kept.filter (fun field => (forms.map FieldForm.name).contains field.1) = kept := by
    rw [List.filter_eq_self]
    intro field hm
    have hmem := h.names_sublist.mem (List.mem_map_of_mem hm)
    simpa using hmem
  have hnone : added.filter (fun field => (forms.map FieldForm.name).contains field.1) = [] := by
    rw [List.filter_eq_nil_iff]
    intro field hm
    simpa using unknown field hm
  have hperm := perm.filter (fun field => (forms.map FieldForm.name).contains field.1)
  rwa [List.filter_append, hall, hnone, List.append_nil] at hperm

/-- A spelled record is read field by field. -/
theorem Spelling.record.holds {forms : List FieldForm} {members : List (String × Json)} {document : Document}
    (h : Spelling.record forms (.object members) document) (distinct : (forms.map FieldForm.name).Nodup) :
    ∃ fields : Fields, document.fields? .json (forms.map FieldForm.name) = some fields ∧ fields.named = true ∧
      List.Forall₂ (fun form member => fields.Holds form member.2) forms members := by
  cases h with
  | @fields _ kept added listed hkept unknown perm =>
    have hnodup : (kept.map Prod.fst).Nodup := distinct.sublist hkept.names_sublist
    have hperm := hkept.perm_known unknown perm
    have hknown := Document.knownFields?_json ((hperm.map Prod.fst).nodup_iff.mp hnodup)
    refine ⟨⟨true, listed.filter (fun field => (forms.map FieldForm.name).contains field.1)⟩, ?_, rfl,
      hkept.holds distinct ?_⟩
    · rw [Document.named, Document.fields?, hknown]
      rfl
    · intro name _
      exact (OrderedMap.lookup_eq_of_perm hnodup hperm name).symm

/-! ## Readers that undo writers -/

/-- A reader undoes a writer under a spelling: what is written has its own document among its spellings, and every document that
spells it is read as the value that was written. -/
structure ReadsBack {α : Type} (spelling : Spelling) (write : α → Json) (read : Document → Option α) : Prop where
  self : ∀ value, spelling (write value) (.ofJson (write value))
  spelled : ∀ value document, spelling (write value) document → read document = some value

section ReadsBack

variable {α : Type} {spelling : Spelling} {write : α → Json} {read : Document → Option α}

/-- Reading the document of what was written gives the value back. -/
theorem ReadsBack.read_ofJson (h : ReadsBack spelling write read) (value : α) :
    read (.ofJson (write value)) = some value :=
  h.spelled value _ (h.self value)

/-- Different values are written differently. -/
theorem ReadsBack.write_inj (h : ReadsBack spelling write read) {a b : α} (he : write a = write b) : a = b := by
  have hread := h.read_ofJson a
  rw [he, h.read_ofJson b] at hread
  exact (Option.some.inj hread).symm

/-- Where values are spelled as they are written, reading what is written is all there is to show. -/
theorem readsBack_exact (h : ∀ value, read (.ofJson (write value)) = some value) : ReadsBack Spelling.exact write read where
  self _ := rfl
  spelled value document hspelled := by rw [hspelled, h value]

/-- Members that are spelled as they are can all be kept. -/
theorem kept_self {forms : List FieldForm} {members : List (String × Json)}
    (h : List.Forall₂ (fun form member => form.name = member.1 ∧ form.spelling member.2 (.ofJson member.2)) forms members) :
    Kept forms members (members.map (fun member => (member.1, .ofJson member.2))) := by
  induction h with
  | nil => exact .nil
  | @cons form member forms members hfirst _ ih =>
    obtain ⟨name, value⟩ := member
    obtain ⟨rfl, hspelled⟩ := hfirst
    exact .spelled hspelled ih

/-- An object is spelled as it is where each of its members is. -/
theorem Spelling.record_self {forms : List FieldForm} {members : List (String × Json)}
    (h : List.Forall₂ (fun form member => form.name = member.1 ∧ form.spelling member.2 (.ofJson member.2)) forms members) :
    Spelling.record forms (.object members) (.ofJson (.object members)) := by
  have hnothing : ∀ field ∈ ([] : List (String × Document)), field.1 ∉ forms.map FieldForm.name := nofun
  rw [Document.ofJson_object]
  refine .fields (kept_self h) hnothing ?_
  rw [List.append_nil]

/-- A list of values is read back if each value is. -/
theorem ReadsBack.list (h : ReadsBack spelling write read) :
    ReadsBack (.list spelling) (fun values => .array (values.map write)) (Document.list? read) where
  self values := by
    rw [Document.ofJson, Document.ofJsonItems_eq_map]
    refine .items ?_
    simp only [List.forall₂_map_right_iff, List.forall₂_same, List.mem_map, forall_exists_index, and_imp]
    rintro _ value _ rfl
    exact h.self value
  spelled values document hspelled := by
    cases hspelled with
    | @items _ documents hitems =>
      rw [List.forall₂_map_left_iff] at hitems
      change documents.mapM read = some values
      induction hitems with
      | nil => rfl
      | cons hfirst _ ih => simp [h.spelled _ _ hfirst, ih]

/-- Where `null` is not read, no value is written as `null`. -/
theorem ReadsBack.write_ne_null (h : ReadsBack spelling write read) (hnull : read .null = none) (value : α) :
    write value ≠ .null := by
  intro he
  have hread := h.read_ofJson value
  rw [he, Document.ofJson, hnull] at hread
  cases hread

/-- A choice that is spelled is the record of the same name, with its value spelled as that alternative is. -/
theorem Spelling.choice.content {alternatives : List (String × Spelling)} {name : String} {value : Json}
    {document : Document} (h : Spelling.choice alternatives (.object [(name, value)]) document)
    (hname : alternatives.lookup name = some spelling) :
    ∃ content, document = .record [(some name, content)] ∧ spelling value content := by
  cases h with
  | alternative hlookup hspelled =>
    obtain rfl := Option.some.inj (hname.symm.trans hlookup)
    exact ⟨_, rfl, hspelled⟩

/-- A value that may be absent is read back if the value is, unless `null` can be taken for it. -/
theorem ReadsBack.orNull (h : ReadsBack spelling write read) (hnull : read .null = none) :
    ReadsBack (.orNull spelling) (fun value => (value.map write).getD .null) (Document.orNull? read) where
  self value := by
    cases value with
    | none => exact .null
    | some value => exact .value (h.write_ne_null hnull value) (h.self value)
  spelled value document hspelled := by
    cases value with
    | none =>
      change Spelling.orNull spelling .null document at hspelled
      cases hspelled with
      | null => rfl
      | value present _ => exact absurd rfl present
    | some value =>
      change Spelling.orNull spelling (write value) document at hspelled
      have hread : read document = some value := by
        generalize hw : write value = written at hspelled
        cases hspelled with
        | null => exact absurd hw (h.write_ne_null hnull value)
        | value _ hspelled => exact h.spelled value document (hw ▸ hspelled)
      cases document <;> simp_all [Document.orNull?]

end ReadsBack

/-! ## Readers of fields -/

section Fields

variable {α : Type} {fields : Fields} {form : FieldForm} {value : Json} {write : α → Json} {read : Document → Option α}

/-- A field that must be present is read as the value that it had. -/
theorem Fields.Holds.required (h : fields.Holds form value) (hread : ReadsBack form.spelling write read) {x : α}
    (hvalue : write x = value) (hdefault : form.default = none) : fields.required form.name read = some x := by
  cases h with
  | found hspelled lookup =>
    rw [Fields.required, lookup]
    exact hread.spelled x _ (hvalue ▸ hspelled)
  | missing hleft _ => simp [hdefault] at hleft

/-- A field that has a default is read as the value that it had: it is left out only if that was the default. -/
theorem Fields.Holds.withDefault (h : fields.Holds form value) (default : α) (hread : ReadsBack form.spelling write read)
    {x : α} (hvalue : write x = value) (hdefault : form.default = some (write default)) :
    fields.withDefault form.name default read = some x := by
  cases h with
  | found hspelled lookup =>
    rw [Fields.withDefault, lookup]
    exact hread.spelled x _ (hvalue ▸ hspelled)
  | missing hleft lookup =>
    rw [Fields.withDefault, lookup]
    have hwrite : write default = write x := by
      rw [hvalue]
      exact Option.some.inj (hdefault.symm.trans hleft)
    rw [hread.write_inj hwrite]

/-- A field that may be absent is read as the value that it had, where fields have names. -/
theorem Fields.Holds.optional (h : fields.Holds form value) (hnamed : fields.named = true)
    (hread : ReadsBack form.spelling (fun x : Option α => (x.map write).getD .null) (Document.orNull? read)) {x : Option α}
    (hvalue : (x.map write).getD .null = value) (hdefault : form.default = some .null) :
    fields.optional form.name read = some x := by
  have hfield := h.withDefault none hread hvalue hdefault
  rw [Fields.withDefault] at hfield
  rw [Fields.optional, hnamed]
  exact hfield

end Fields

end TestDouble

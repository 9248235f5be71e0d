import TestDouble.Proofs.Members.Entry

/-!
# Definitions given as data

Data cannot hold a callable, so in a definition given as data a string stands for one where the key has the modifier `function`.
With these strings turned into methods (`EntryValue.ofField`) an object is read as the definition that lists its members in the
order of their keys: the same tables come out, or the entry with the same key is refused (`data_definitions_agree`). What is said
of a refused entry is the same too, but for one flaw: data under a key for a method is said to name no callable (`Flaw.ofData`).
-/

namespace TestDouble

open MemberKey

/-! ## The entries of an object -/

/-- Whether a text is read as a key with the modifier `function`. -/
def asksFunction (text : String) : Bool :=
  match parse text with
  | .ok key => key.isFunction
  | .error _ => false

/-- The value that a member of an object stands for: the method that calls a reference, where the key has the modifier `function`
and the reference is given as a string, and in all other cases plain data. -/
def EntryValue.ofField (text : String) : Json → EntryValue
  | .text reference => if asksFunction text then .method (.named reference) else .data (.text reference)
  | value => .data value

/-- The entries that an object stands for, in the order of their keys. -/
def Members.entriesOf (fields : List (String × Json)) : List (String × EntryValue) :=
  (sortEntries fields).map (fun field => (field.1, EntryValue.ofField field.1 field.2))

/-- The flaw of an entry, as it is stated where the entry is given as data. -/
def Flaw.ofData : Flaw → Flaw
  | .dataForMethod => .unnamedCallable
  | flaw => flaw

/-- The refusal of an entry, as it is stated where the entry is given as data. -/
def Refusal.ofData : Refusal → Refusal
  | .malformedEntry key flaw => .malformedEntry key flaw.ofData
  | refusal => refusal

/-- Under a key that is for no method any data stands for itself. -/
theorem EntryValue.ofField_plain {text : String} (h : asksFunction text = false) (value : Json) :
    ofField text value = .data value := by
  cases value <;> simp [ofField, h]

/-- Data that is no string stands for itself. -/
theorem EntryValue.ofField_other {value : Json} (h : ∀ reference, value ≠ .text reference) (text : String) :
    ofField text value = .data value := by
  cases value with
  | text reference => exact absurd rfl (h reference)
  | _ => rfl

/-! ## Keys -/

namespace MemberKey

/-- What is wrong with the words of a key is stated alike where the entry is given as data. -/
theorem FirstFlaw.ofData_eq {words : List String} {flaw : Flaw} (h : FirstFlaw words flaw) : flaw.ofData = flaw := by
  cases h <;> rfl

/-- A text that is no key is refused alike where the entry is given as data. -/
theorem ofData_of_parse {text : String} {refusal : Refusal} (h : parse text = .error refusal) : refusal.ofData = refusal := by
  obtain ⟨flaw, hflaw, rfl⟩ := (parse_eq_error_iff text refusal).mp h
  rw [Refusal.ofData, hflaw.ofData_eq]

variable {text : String} {key : MemberKey}

/-- A text is read as a key for a method exactly when the key that is read is one. -/
theorem asksFunction_of_parse (h : parse text = .ok key) : asksFunction text = key.isFunction := by
  rw [asksFunction, h]

/-- A key for a method is none for a constant. -/
theorem isConstant_of_isFunction (h : parse text = .ok key) (hfunction : key.isFunction = true) : key.isConstant = false := by
  obtain ⟨front, name, -, htogether, rfl⟩ := (parse_eq_ok_iff text key).mp h
  have hmethod : "function" ∈ front := by simpa [spelled] using hfunction
  have hconst : "const" ∉ front := fun hconst => htogether.constant ⟨hconst, .inr (.inl hmethod)⟩
  simpa [spelled] using hconst

end MemberKey

/-! ## One member of an object -/

namespace Member

variable {text : String} {key : MemberKey}

/-- A string under a key for a method is the method that it names, and that is taken. -/
theorem ofField_reference (hkey : parse text = .ok key) (hfunction : key.isFunction = true) (reference : String) :
    ∃ member, ofField text (.text reference) = .ok member ∧ ofEntry text (.ofField text (.text reference)) = .ok member := by
  have hvalue : EntryValue.ofField text (.text reference) = .method (.named reference) :=
    if_pos ((asksFunction_of_parse hkey).trans hfunction)
  have hasks : key.asksMethod (.method (.named reference)) = true := by simp [asksMethod, hfunction]
  have hmember := ofKey_method (isConstant_of_isFunction hkey hfunction) hasks
  rw [hvalue, ofField, ofEntry, hkey]
  simp only [hfunction, if_true, hmember]
  exact ⟨_, rfl, rfl⟩

/-- Data under a key for a method is refused unless it is a string: it names no callable. -/
theorem ofField_unnamed (hkey : parse text = .ok key) (hfunction : key.isFunction = true) {value : Json}
    (hvalue : ∀ reference, value ≠ .text reference) :
    ofField text value = .error (.malformedEntry text .unnamedCallable) ∧
      ofEntry text (.ofField text value) = .error (.malformedEntry text .dataForMethod) := by
  constructor
  · rw [ofField, hkey]
    cases value with
    | text reference => exact absurd rfl (hvalue reference)
    | _ => exact if_pos hfunction
  · have hflaw := ofKey_dataForMethod (isConstant_of_isFunction hkey hfunction) hfunction value
    rw [EntryValue.ofField_other hvalue, ofEntry, hkey]
    exact congrArg (Except.mapError _) hflaw

/-- Under a key that is for no method any data is taken as it is. -/
theorem ofField_plain (hkey : parse text = .ok key) (hfunction : key.isFunction = false) (value : Json) :
    ∃ member, ofField text value = .ok member ∧ ofEntry text (.ofField text value) = .ok member := by
  rw [EntryValue.ofField_plain ((asksFunction_of_parse hkey).trans hfunction), ofField, ofEntry, hkey]
  simp only [hfunction, Bool.false_eq_true, if_false]
  cases hconst : key.isConstant with
  | true =>
    rw [ofKey_constant hconst]
    exact ⟨_, rfl, rfl⟩
  | false =>
    rw [ofKey_property hconst (show key.asksMethod (.data value) = false from hfunction)]
    exact ⟨_, rfl, rfl⟩

/-- A member of an object is read as the entry that it stands for. -/
theorem ofField_eq (text : String) (value : Json) :
    ofField text value = (ofEntry text (.ofField text value)).mapError Refusal.ofData := by
  cases hkey : parse text with
  | error refusal =>
    rw [ofField, ofEntry, hkey]
    exact congrArg Except.error (ofData_of_parse hkey).symm
  | ok key =>
    cases hfunction : key.isFunction with
    | false =>
      obtain ⟨member, hfield, hentry⟩ := ofField_plain hkey hfunction value
      rw [hfield, hentry]
      rfl
    | true =>
      by_cases hstring : ∃ reference, value = .text reference
      · obtain ⟨reference, rfl⟩ := hstring
        obtain ⟨member, hfield, hentry⟩ := ofField_reference hkey hfunction reference
        rw [hfield, hentry]
        rfl
      · obtain ⟨hfield, hentry⟩ := ofField_unnamed hkey hfunction (not_exists.mp hstring)
        rw [hfield, hentry]
        rfl

/-- The refusal of an entry quotes its key. -/
theorem exists_flaw_of_ofEntry {value : EntryValue} {refusal : Refusal} (h : ofEntry text value = .error refusal) :
    ∃ flaw, refusal = .malformedEntry text flaw := by
  obtain ⟨flaw, -, hrefusal⟩ := (ofEntry_eq_error_iff text value refusal).mp h
  exact ⟨flaw, hrefusal⟩

end Member

/-! ## Whole definitions -/

namespace Members

/-- An object is read as the definition that lists the entries which it stands for. -/
theorem ofJson_object (fields : List (String × Json)) :
    ofJson (.object fields) = (ofDefinition (entriesOf fields)).mapError Refusal.ofData := by
  have hread : (fun field : String × Json => Member.ofField field.1 field.2) =
      fun field => (Member.ofEntry field.1 (.ofField field.1 field.2)).mapError Refusal.ofData :=
    funext fun field => Member.ofField_eq field.1 field.2
  rw [ofJson_eq, listOfJson, hread, mapM_mapError, map_mapError, ofDefinition_eq, listOfDefinition, entriesOf, List.mapM_map]
  rfl

/-- The refusal of a definition quotes the key of one of its entries. -/
theorem exists_key_of_ofDefinition {entries : List (String × EntryValue)} {refusal : Refusal}
    (h : ofDefinition entries = .error refusal) :
    ∃ key ∈ entries.map Prod.fst, ∃ flaw, refusal = .malformedEntry key flaw := by
  rw [ofDefinition_eq, map_eq_error_iff, listOfDefinition, mapM_eq_error_iff] at h
  obtain ⟨before, entry, after, rfl, -, hentry⟩ := h
  exact ⟨entry.1, by simp, Member.exists_flaw_of_ofEntry hentry⟩

/-- The entries that an object stands for are listed in the order of their keys. -/
theorem names_entriesOf (fields : List (String × Json)) :
    (entriesOf fields).map Prod.fst = (sortEntries fields).map Prod.fst := by
  rw [entriesOf, List.map_map]
  rfl

/-- The entry under a key is what the member that the object has under this key stands for. -/
theorem lookup_entriesOf (fields : List (String × Json)) (key : String) :
    (entriesOf fields).lookup key = (fields.reverse.lookup key).map (EntryValue.ofField key) := by
  rw [entriesOf, OrderedMap.lookup_map_entries, lookup_sortEntries]

end Members

/-- Definitions given as data agree with the others. Take any object, and as entries its members in the order of their keys, each
with the method that a string names where the key has the modifier `function`, and with plain data otherwise. The object is
taken exactly when the definition that lists these entries is, with the same tables in the same order. A refusal of the definition
quotes the key of one of its entries, and the object is then refused with the same key, and with the same flaw, unless data
stands for a method: it then names no callable. Data that is no object is refused as such, and quoted in its canonical form. -/
theorem data_definitions_agree (fields : List (String × Json)) :
    let entries := Members.entriesOf fields
    (entries.map Prod.fst).Pairwise (· < ·) ∧
      (∀ key, entries.lookup key = (fields.reverse.lookup key).map (EntryValue.ofField key)) ∧
      (∀ m, Members.ofJson (.object fields) = .ok m ↔ Members.ofDefinition entries = .ok m) ∧
      (∀ refusal, Members.ofDefinition entries = .error refusal →
        ∃ key ∈ fields.map Prod.fst, ∃ flaw, refusal = .malformedEntry key flaw) ∧
      (∀ refusal, Members.ofJson (.object fields) = .error refusal ↔
        ∃ key flaw, Members.ofDefinition entries = .error (.malformedEntry key flaw) ∧
          refusal = .malformedEntry key flaw.ofData) ∧
      ∀ other : Json, (∀ listed, other ≠ .object listed) →
        Members.ofJson other = .error (.malformedEntry other.canonicalText .notAnObject) := by
  intro entries
  have hread : Members.ofJson (.object fields) = (Members.ofDefinition entries).mapError Refusal.ofData :=
    Members.ofJson_object fields
  have hquoted : ∀ refusal, Members.ofDefinition entries = .error refusal →
      ∃ key ∈ entries.map Prod.fst, ∃ flaw, refusal = .malformedEntry key flaw :=
    fun _ => Members.exists_key_of_ofDefinition
  refine ⟨?_, Members.lookup_entriesOf fields, fun m => ?_, fun refusal hrefused => ?_, fun refusal => ?_,
    fun other hother => ?_⟩
  · rw [Members.names_entriesOf]
    exact List.pairwise_map.mpr (ascending_sortEntries fields)
  · rw [hread, mapError_eq_ok_iff]
  · obtain ⟨key, hkey, hflaw⟩ := hquoted refusal hrefused
    rw [Members.names_entriesOf, mem_names_sortEntries] at hkey
    exact ⟨key, hkey, hflaw⟩
  · rw [hread, mapError_eq_error_iff]
    constructor
    · rintro ⟨stated, hstated, rfl⟩
      obtain ⟨key, -, flaw, rfl⟩ := hquoted stated hstated
      exact ⟨key, flaw, hstated, rfl⟩
    · rintro ⟨key, flaw, hstated, rfl⟩
      exact ⟨_, hstated, rfl⟩
  · cases other with
    | object listed => exact absurd rfl (hother listed)
    | _ => rfl

/-- An object in which two keys name one property, of which the later key decides and the earlier one gives the place; an object
whose first key in order asks for a method and whose second one has a flaw of its own; and a list. -/
theorem data_definitions_agree_low :
    Members.ofJson (.object [("var low", .bool true), ("low", .null), ("function run", .text "start")]) =
        .ok (Members.ofList [.method "run" (.named "start"), .property "low" (.bool true)]) ∧
      Members.ofJson (.object [("static const low", .null), ("function run", .bool true)]) =
        .error (.malformedEntry "function run" .unnamedCallable) ∧
      Members.ofJson (.array []) = .error (.malformedEntry "[]" .notAnObject) := by
  obtain ⟨-, -, htaken, -, -, hother⟩ :=
    data_definitions_agree [("var low", .bool true), ("low", .null), ("function run", .text "start")]
  obtain ⟨-, -, -, -, hrefused, -⟩ := data_definitions_agree [("static const low", .null), ("function run", .bool true)]
  exact ⟨(htaken _).mpr (Members.ofDefinition_eq _),
    (hrefused _).mpr ⟨"function run", .dataForMethod, Members.ofDefinition_eq _, rfl⟩, hother (.array []) nofun⟩

end TestDouble

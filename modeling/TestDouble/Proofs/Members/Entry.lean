import TestDouble.Proofs.Members.KeyGrammar
import TestDouble.Proofs.Members.Tables
import TestDouble.Proofs.Members.Taken

/-!
# What one entry changes

The words in front of the name that a key declares decide together with the value what is stored in which table (`Routed`). Where
they decide nothing the entry has a fault: its key has a flaw, it asks for a method with data, it asks for a constant with a
method, or it asks for a property with a method that cannot be written (`EntryFault`). Every entry does the one or has the other,
whatever the tables hold. So an entry either puts one value under one name into one table, or it is refused and changes nothing
(`entry_touches_one_place`).
-/

namespace TestDouble

open MemberKey

/-! ## Where an entry goes -/

/-- A text declares a name behind words that go together. -/
structure Spells (text : String) (front : List String) (name : String) : Prop where
  words : Text.words text = front ++ [name]
  together : GoTogether front

/-- The table of a value behind some words, and what is stored there. A method is kept as one where the words ask for a method, or
for nothing but its owner. As a property it is kept as the reference that it calls, or else in its written form. -/
inductive Routed (front : List String) : EntryValue → MemberKind → EntryValue → Prop where
  | constant {data : Json} (hconst : "const" ∈ front) : Routed front (.data data) .constant (.data data)
  | method {method : CustomMethod} (hconst : "const" ∉ front) (hsort : "function" ∈ front ∨ "var" ∉ front) :
      Routed front (.method method) (if "static" ∈ front then .staticMethod else .method) (.method method)
  | property {data : Json} (hconst : "const" ∉ front) (hfunction : "function" ∉ front) :
      Routed front (.data data) (if "static" ∈ front then .staticProperty else .property) (.data data)
  | reference {method : CustomMethod} {reference : String} (hvar : "var" ∈ front)
      (hnamed : method.callable = some (.named reference)) :
      Routed front (.method method) (if "static" ∈ front then .staticProperty else .property) (.data (.text reference))
  | written {method : CustomMethod} {written : Json} (hvar : "var" ∈ front)
      (hother : ∀ reference, method.callable ≠ some (.named reference)) (hwritten : method.toJson? = some written) :
      Routed front (.method method) (if "static" ∈ front then .staticProperty else .property) (.data written)

/-- What is wrong with an entry: the flaw of its key, data where the key asks for a method, a method where it asks for a constant,
or, where it asks for a property, a method that calls a closure in a file whose path is no text. -/
inductive EntryFault (text : String) : EntryValue → Flaw → Prop where
  | key {value : EntryValue} {flaw : Flaw} (hflaw : FirstFlaw (Text.words text) flaw) : EntryFault text value flaw
  | dataForMethod {front : List String} {name : String} {data : Json} (hspells : Spells text front name)
      (hfunction : "function" ∈ front) : EntryFault text (.data data) .dataForMethod
  | methodForConstant {front : List String} {name : String} {method : CustomMethod} (hspells : Spells text front name)
      (hconst : "const" ∈ front) : EntryFault text (.method method) .methodForConstant
  | unwritablePath {front : List String} {name : String} {method : CustomMethod} {site : Site}
      (hspells : Spells text front name) (hvar : "var" ∈ front) (hclosure : method.callable = some (.closure site))
      (hpath : site.file.text? = none) : EntryFault text (.method method) .unwritablePath

/-- A method behind words that ask for a property goes somewhere, or else it cannot be written. -/
theorem routed_or_unwritable {text name : String} {front : List String} (hspells : Spells text front name)
    (hvar : "var" ∈ front) (method : CustomMethod) :
    (∃ kind content, Routed front (.method method) kind content) ∨ EntryFault text (.method method) .unwritablePath := by
  by_cases hnamed : ∃ reference, method.callable = some (.named reference)
  · obtain ⟨reference, hnamed⟩ := hnamed
    exact .inl ⟨_, _, .reference hvar hnamed⟩
  · cases hwritten : method.toJson? with
    | some written => exact .inl ⟨_, _, .written hvar (not_exists.mp hnamed) hwritten⟩
    | none =>
      obtain ⟨site, hclosure, hpath⟩ := method.toJson?_eq_none_iff.mp hwritten
      exact .inr (.unwritablePath hspells hvar hclosure hpath)

/-- An entry has a fault, or else its key declares a name and its value goes somewhere. -/
theorem routed_or_entryFault (text : String) (value : EntryValue) :
    (∃ front name kind content, Spells text front name ∧ Routed front value kind content) ∨
      ∃ flaw, EntryFault text value flaw := by
  rcases goTogether_or_firstFlaw (Text.words text) with ⟨front, name, hwords, htogether⟩ | ⟨flaw, hflaw⟩
  · have hspells : Spells text front name := ⟨hwords, htogether⟩
    by_cases hconst : "const" ∈ front
    · cases value with
      | method method => exact .inr ⟨_, .methodForConstant hspells hconst⟩
      | data data => exact .inl ⟨_, _, _, _, hspells, .constant hconst⟩
    · cases value with
      | method method =>
        by_cases hvar : "var" ∈ front
        · rcases routed_or_unwritable hspells hvar method with ⟨kind, content, hrouted⟩ | hfault
          · exact .inl ⟨_, _, _, _, hspells, hrouted⟩
          · exact .inr ⟨_, hfault⟩
        · exact .inl ⟨_, _, _, _, hspells, .method hconst (.inr hvar)⟩
      | data data =>
        by_cases hfunction : "function" ∈ front
        · exact .inr ⟨_, .dataForMethod hspells hfunction⟩
        · exact .inl ⟨_, _, _, _, hspells, .property hconst hfunction⟩
  · exact .inr ⟨flaw, .key hflaw⟩

/-! ## What a key makes of a value -/

/-- A method that calls a reference is that reference as data. -/
theorem CustomMethod.asData_named {m : CustomMethod} {reference : String} (h : m.callable = some (.named reference)) :
    m.asData = .ok (.text reference) := by
  rw [asData, h]

/-- A method that calls no reference is its written form as data, if it has one. -/
theorem CustomMethod.asData_other {m : CustomMethod} (h : ∀ reference, m.callable ≠ some (.named reference)) :
    m.asData = m.toJson?.elim (.error .unwritablePath) .ok := by
  rw [asData]
  split
  · rename_i reference hnamed
    exact absurd hnamed (h reference)
  · cases m.toJson? <;> rfl

namespace Member

variable {key : MemberKey}

/-- A key for a constant makes one of data. -/
theorem ofKey_constant (hconst : key.isConstant = true) (data : Json) :
    ofKey key (.data data) = .ok (.constant key.name data) := by
  simp [ofKey, MemberKey.kind, hconst]

/-- A key for a constant makes nothing of a method. -/
theorem ofKey_methodForConstant (hconst : key.isConstant = true) (method : CustomMethod) :
    ofKey key (.method method) = .error .methodForConstant := by
  simp [ofKey, MemberKey.kind, hconst]

/-- A key that asks for a method makes one of a method, for the type or for its instances. -/
theorem ofKey_method (hconst : key.isConstant = false) {method : CustomMethod} (hasks : key.asksMethod (.method method) = true) :
    ofKey key (.method method) =
      .ok (if key.isStatic then .staticMethod key.name method else .method key.name method) := by
  cases hstatic : key.isStatic <;> simp [ofKey, MemberKey.kind, hconst, hasks, hstatic]

/-- A key that asks for a method makes nothing of data. -/
theorem ofKey_dataForMethod (hconst : key.isConstant = false) (hfunction : key.isFunction = true) (data : Json) :
    ofKey key (.data data) = .error .dataForMethod := by
  cases hstatic : key.isStatic <;> simp [ofKey, MemberKey.kind, asksMethod, hconst, hfunction, hstatic]

/-- A key that asks for no method and no constant makes a property of any value that can be data, for the type or for its
instances. -/
theorem ofKey_property (hconst : key.isConstant = false) {value : EntryValue} (hasks : key.asksMethod value = false) :
    ofKey key value =
      value.asData.map (if key.isStatic then Member.staticProperty key.name else Member.property key.name) := by
  cases hstatic : key.isStatic <;> simp [ofKey, MemberKey.kind, hconst, hasks, hstatic]

/-- The member of an entry whose key is read is what the key makes of the value. -/
theorem ofEntry_of_spells {text name : String} {front : List String} (h : Spells text front name) (value : EntryValue) :
    ofEntry text value = (ofKey (spelled front name) value).mapError (Refusal.malformedEntry text) := by
  rw [ofEntry, parse_of_goTogether h.words h.together]

/-- A method behind words that ask for one, or for nothing but its owner, becomes a method of its owner. -/
theorem ofEntry_method {text name : String} {front : List String} {method : CustomMethod} (hspells : Spells text front name)
    (hconst : "const" ∉ front) (hsort : "function" ∈ front ∨ "var" ∉ front) :
    ∃ member, ofEntry text (.method method) = .ok member ∧
      member.kind = (if "static" ∈ front then .staticMethod else .method) ∧ member.name = name ∧
        member.content = .method method := by
  rw [ofEntry_of_spells hspells, ofKey_method (by simpa [spelled] using hconst) (by simpa [asksMethod, spelled] using hsort)]
  refine ⟨_, rfl, ?_⟩
  by_cases hstatic : "static" ∈ front <;> simp [spelled, hstatic, kind, Member.name, content]

/-- A value behind words that ask for no method and no constant becomes a property of its owner, if it can be data. -/
theorem ofEntry_property {text name : String} {front : List String} {value : EntryValue} {data : Json}
    (hspells : Spells text front name) (hconst : "const" ∉ front) (hasks : (spelled front name).asksMethod value = false)
    (hdata : value.asData = .ok data) :
    ∃ member, ofEntry text value = .ok member ∧
      member.kind = (if "static" ∈ front then .staticProperty else .property) ∧ member.name = name ∧
        member.content = .data data := by
  rw [ofEntry_of_spells hspells, ofKey_property (by simpa [spelled] using hconst) hasks, hdata]
  refine ⟨_, rfl, ?_⟩
  by_cases hstatic : "static" ∈ front <;> simp [spelled, hstatic, kind, Member.name, content]

/-- Words that ask for a property ask for no constant, and for no method though the value is one. -/
theorem asksProperty_of_var {front : List String} (htogether : GoTogether front) (hvar : "var" ∈ front) (name : String)
    (method : CustomMethod) : "const" ∉ front ∧ (spelled front name).asksMethod (.method method) = false := by
  have hfunction : "function" ∉ front := fun h => htogether.oneSort ⟨h, hvar⟩
  exact ⟨fun h => htogether.constant ⟨h, .inr (.inr hvar)⟩, by simpa [asksMethod, spelled] using ⟨hfunction, hvar⟩⟩

/-- A method behind words that ask for a property becomes a property, with the method as data. -/
theorem ofEntry_methodAsData {text name : String} {front : List String} {method : CustomMethod} {data : Json}
    (hspells : Spells text front name) (hvar : "var" ∈ front) (hdata : method.asData = .ok data) :
    ∃ member, ofEntry text (.method method) = .ok member ∧
      member.kind = (if "static" ∈ front then .staticProperty else .property) ∧ member.name = name ∧
        member.content = .data data := by
  obtain ⟨hconst, hasks⟩ := asksProperty_of_var hspells.together hvar name method
  exact ofEntry_property hspells hconst hasks hdata

/-- A value that goes somewhere becomes the member with the name of the key and the content that is stored there. -/
theorem ofEntry_of_routed {text name : String} {front : List String} {value content : EntryValue} {kind : MemberKind}
    (hspells : Spells text front name) (h : Routed front value kind content) :
    ∃ member, ofEntry text value = .ok member ∧ member.kind = kind ∧ member.name = name ∧ member.content = content := by
  cases h with
  | constant hconst =>
    rw [ofEntry_of_spells hspells, ofKey_constant (by simpa [spelled] using hconst)]
    exact ⟨_, rfl, rfl, rfl, rfl⟩
  | method hconst hsort => exact ofEntry_method hspells hconst hsort
  | @property data hconst hfunction =>
    have hasks : (spelled front name).asksMethod (.data data) = false := by simpa [asksMethod, spelled] using hfunction
    exact ofEntry_property hspells hconst hasks rfl
  | reference hvar hnamed =>
    exact ofEntry_methodAsData hspells hvar (CustomMethod.asData_named hnamed)
  | written hvar hother hwritten =>
    refine ofEntry_methodAsData hspells hvar ?_
    rw [CustomMethod.asData_other hother, hwritten]
    rfl

/-- An entry with a fault spells no member, and is refused for that fault; the refusal quotes the whole key. -/
theorem ofEntry_of_entryFault {text : String} {value : EntryValue} {flaw : Flaw} (h : EntryFault text value flaw) :
    ofEntry text value = .error (.malformedEntry text flaw) := by
  cases h with
  | key hflaw => rw [ofEntry, parse_of_firstFlaw hflaw]
  | @dataForMethod front _ _ hspells hfunction =>
    have hconst : "const" ∉ front := fun h => hspells.together.constant ⟨h, .inr (.inl hfunction)⟩
    rw [ofEntry_of_spells hspells, ofKey_dataForMethod (by simpa [spelled] using hconst) (by simpa [spelled] using hfunction)]
    rfl
  | methodForConstant hspells hconst =>
    rw [ofEntry_of_spells hspells, ofKey_methodForConstant (by simpa [spelled] using hconst)]
    rfl
  | @unwritablePath front name method site hspells hvar hclosure hpath =>
    obtain ⟨hconst, hasks⟩ := asksProperty_of_var hspells.together hvar name method
    have hother : ∀ reference, method.callable ≠ some (.named reference) := by simp [hclosure]
    have hdata : (EntryValue.method method).asData = .error .unwritablePath := by
      rw [EntryValue.asData, CustomMethod.asData_other hother, method.toJson?_eq_none_iff.mpr ⟨site, hclosure, hpath⟩]
      rfl
    rw [ofEntry_of_spells hspells, ofKey_property (by simpa [spelled] using hconst) hasks, hdata]
    rfl

/-- The members that an entry spells: those whose name its key declares and whose content is stored where its value goes. -/
theorem ofEntry_eq_ok_iff (text : String) (value : EntryValue) (member : Member) :
    ofEntry text value = .ok member ↔
      ∃ front, Spells text front member.name ∧ Routed front value member.kind member.content := by
  constructor
  · intro hmember
    rcases routed_or_entryFault text value with ⟨front, name, kind, content, hspells, hrouted⟩ | ⟨flaw, hfault⟩
    · obtain ⟨other, hother, rfl, rfl, rfl⟩ := ofEntry_of_routed hspells hrouted
      rw [hother] at hmember
      cases hmember
      exact ⟨front, hspells, hrouted⟩
    · rw [ofEntry_of_entryFault hfault] at hmember
      cases hmember
  · rintro ⟨front, hspells, hrouted⟩
    obtain ⟨other, hother, hkind, hname, hcontent⟩ := ofEntry_of_routed hspells hrouted
    rw [hother, eq_of_content_eq hkind hname hcontent]

/-- The refusals of an entry that spells no member. -/
theorem ofEntry_eq_error_iff (text : String) (value : EntryValue) (refusal : Refusal) :
    ofEntry text value = .error refusal ↔ ∃ flaw, EntryFault text value flaw ∧ refusal = .malformedEntry text flaw := by
  constructor
  · intro hrefused
    rcases routed_or_entryFault text value with ⟨front, name, kind, content, hspells, hrouted⟩ | ⟨flaw, hfault⟩
    · obtain ⟨member, hmember, -⟩ := ofEntry_of_routed hspells hrouted
      rw [hmember] at hrefused
      cases hrefused
    · rw [ofEntry_of_entryFault hfault] at hrefused
      exact ⟨flaw, hfault, (Except.error.inj hrefused).symm⟩
  · rintro ⟨flaw, hfault, rfl⟩
    exact ofEntry_of_entryFault hfault

end Member

/-! ## What an entry leaves -/

namespace Members

/-- The answer to an entry depends on the entry only. -/
theorem fst_respond (m : Members) (text : String) (value : EntryValue) :
    (m.respond text value).1 = (Member.ofEntry text value).map (fun _ => ()) := by
  rw [respond_eq]
  cases Member.ofEntry text value <;> rfl

/-- An entry is taken exactly when it spells a member. -/
theorem fst_respond_eq_ok_iff (m : Members) (text : String) (value : EntryValue) :
    (m.respond text value).1 = .ok () ↔ (Member.ofEntry text value).isOk = true := by
  rw [fst_respond]
  cases Member.ofEntry text value with
  | error refusal => exact iff_of_false nofun nofun
  | ok member => exact iff_of_true rfl rfl

/-- An entry is refused exactly when it spells no member, for what is wrong with it. -/
theorem fst_respond_eq_error_iff (m : Members) (text : String) (value : EntryValue) (refusal : Refusal) :
    (m.respond text value).1 = .error refusal ↔ Member.ofEntry text value = .error refusal := by
  rw [fst_respond, map_eq_error_iff]

/-- An entry that is taken inserts its member. -/
theorem respond_eq_ok_iff (m : Members) (text : String) (value : EntryValue) (m' : Members) :
    m.respond text value = (.ok (), m') ↔ ∃ member, Member.ofEntry text value = .ok member ∧ m' = m.insert member := by
  rw [respond_eq]
  cases Member.ofEntry text value with
  | error refusal => simp
  | ok member => simp [eq_comm]

/-- An entry that is refused inserts nothing. -/
theorem respond_eq_error_iff (m : Members) (text : String) (value : EntryValue) (refusal : Refusal) (m' : Members) :
    m.respond text value = (.error refusal, m') ↔ Member.ofEntry text value = .error refusal ∧ m' = m := by
  rw [respond_eq]
  cases Member.ofEntry text value with
  | error refusal => simp [eq_comm]
  | ok member => simp

end Members

/-- Each entry touches one place. Take any tables, any key and any value, a method or data. The entry is taken exactly when its key
declares a name and its value goes somewhere, and then the tables after it differ from those before in one table only and there
at that name only, which has the content that is stored; they are the same if the name had that content there. It is refused
exactly when it has a fault: its key has a flaw, or asks for a method where the value is data, or for a constant where the value
is a method, or for a property where the value is a method that calls a closure in a file whose path is no text. The refusal
quotes the key with the fault, and all tables are as they were. Which of the two happens does not depend on the tables. A list of
entries is refused exactly when one of them is on its own, and then as the first such entry is. -/
theorem entry_touches_one_place (m : Members) (text : String) (value : EntryValue) :
    (∀ m', m.respond text value = (.ok (), m') ↔
        ∃ front name kind content, Spells text front name ∧ Routed front value kind content ∧
          m.PutIn kind name content m' ∧ (m' = m ↔ (m.table kind).get? name = some content)) ∧
      (∀ refusal m', m.respond text value = (.error refusal, m') ↔
        (∃ flaw, EntryFault text value flaw ∧ refusal = .malformedEntry text flaw) ∧ m' = m) ∧
      (∀ other : Members, (other.respond text value).1 = (m.respond text value).1) ∧
      ∀ entries refusal, Members.ofDefinition entries = .error refusal ↔
        ∃ before entry after, entries = before ++ entry :: after ∧
          (∀ earlier ∈ before, (m.respond earlier.1 earlier.2).1 = .ok ()) ∧
          (m.respond entry.1 entry.2).1 = .error refusal := by
  refine ⟨fun m' => ?_, fun refusal m' => ?_, fun other => ?_, fun entries refusal => ?_⟩
  · rw [Members.respond_eq_ok_iff]
    constructor
    · rintro ⟨member, hmember, rfl⟩
      obtain ⟨front, hspells, hrouted⟩ := (Member.ofEntry_eq_ok_iff text value member).mp hmember
      have hput := m.putIn_insert member
      exact ⟨front, _, _, _, hspells, hrouted, hput, hput.eq_iff⟩
    · rintro ⟨front, name, kind, content, hspells, hrouted, hput, -⟩
      obtain ⟨member, hmember, rfl, rfl, rfl⟩ := Member.ofEntry_of_routed hspells hrouted
      exact ⟨member, hmember, hput.unique (m.putIn_insert member)⟩
  · rw [Members.respond_eq_error_iff, Member.ofEntry_eq_error_iff]
  · rw [Members.fst_respond, Members.fst_respond]
  · rw [Members.ofDefinition_eq, Members.listOfDefinition, map_eq_error_iff, mapM_eq_error_iff]
    simp only [Members.fst_respond_eq_ok_iff, Members.fst_respond_eq_error_iff]

/-- A method that is declared a property of the type, where instances have a property of that name, and a definition with two faults
of which the first one counts. -/
theorem entry_touches_one_place_create :
    let m := Members.ofList [.property "create" (.bool true)]
    m.respond "static  var create" (.method (.named "factory")) =
        (.ok (), m.insert (.staticProperty "create" (.text "factory"))) ∧
      Members.ofDefinition
          [("limit", .data .null), ("function create", .data .null), ("const create", .method (.named "factory"))] =
        .error (.malformedEntry "function create" .dataForMethod) := by
  intro m
  have hwords : Text.words "static  var create" = ["static", "var"] ++ ["create"] := by decide +kernel
  have hlimit : Text.words "limit" = [] ++ ["limit"] := by decide +kernel
  have hcreate : Text.words "function create" = ["function"] ++ ["create"] := by decide +kernel
  obtain ⟨htaken, -⟩ := entry_touches_one_place m "static  var create" (.method (.named "factory"))
  obtain ⟨hdata, -⟩ := entry_touches_one_place {} "limit" (.data .null)
  obtain ⟨-, hrefused, -, hlist⟩ := entry_touches_one_place {} "function create" (.data .null)
  have hlimited := Members.putIn_insert {} (.property "limit" .null)
  have hfirst : ({} : Members).respond "limit" (.data .null) = (.ok (), ({} : Members).insert (.property "limit" .null)) :=
    (hdata _).mpr ⟨[], "limit", _, _, ⟨hlimit, by decide, by decide, by decide⟩, .property (by decide) (by decide),
      hlimited, hlimited.eq_iff⟩
  have hsecond : ({} : Members).respond "function create" (.data .null) =
      (.error (.malformedEntry "function create" .dataForMethod), {}) :=
    (hrefused _ _).mpr ⟨⟨_, .dataForMethod ⟨hcreate, by decide, by decide, by decide⟩ (by decide), rfl⟩, rfl⟩
  have hcreated := m.putIn_insert (.staticProperty "create" (.text "factory"))
  constructor
  · exact (htaken _).mpr ⟨["static", "var"], "create", _, _, ⟨hwords, by decide, by decide, by decide⟩,
      .reference (by decide) rfl, hcreated, hcreated.eq_iff⟩
  · exact (hlist _ _).mpr ⟨[("limit", .data .null)], ("function create", .data .null), _, rfl,
      List.forall_mem_singleton.mpr (congrArg Prod.fst hfirst), congrArg Prod.fst hsecond⟩

/-- A method under a key for a property is refused though the key has no flaw and asks for neither a method nor a constant: the
method calls a closure in a file whose path is no text. And where a property has the value of an entry already, the entry is taken
and changes nothing. -/
theorem unwritable_property_refused :
    let closure : CustomMethod := .closure ⟨⟨[0xFF]⟩, 1, 2⟩
    let m := Members.ofList [.property "p" (.bool true), .property "q" (.bool false)]
    MemberKey.parse "var p" = .ok { name := "p", isProperty := true } ∧
      m.respond "var p" (.method closure) = (.error (.malformedEntry "var p" .unwritablePath), m) ∧
      m.respond "p" (.data (.bool true)) = (.ok (), m) := by
  intro closure m
  have hvar : Spells "var p" ["var"] "p" := ⟨by decide +kernel, by decide, by decide, by decide⟩
  have hplain : Spells "p" [] "p" := ⟨by decide +kernel, by decide, by decide, by decide⟩
  refine ⟨parse_of_goTogether hvar.words hvar.together, ?_, ?_⟩
  · have hpath : (FilePath.mk [0xFF]).text? = none := by decide +kernel
    exact (m.respond_eq_error_iff _ _ _ _).mpr
      ⟨Member.ofEntry_of_entryFault (.unwritablePath hvar (by decide) rfl hpath), rfl⟩
  · exact (m.respond_eq_ok_iff _ _ _).mpr ⟨.property "p" (.bool true), Member.ofEntry_of_spells hplain _, rfl⟩

end TestDouble

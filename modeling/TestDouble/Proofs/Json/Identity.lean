import TestDouble.Proofs.Json.Agreement
import TestDouble.Proofs.Json.Reordered
import TestDouble.Proofs.Json.Text

/-!
# The canonical text of a data value identifies the value

`Json.Identical` says what it is for two values to be one JSON value: arrays hold the same at every place, objects the same under
every name, and all else is equal. The text of a sorted form determines it, and values whose objects have distinct names have the
same sorted form exactly when they are identical (`WellKeyed.sorted_eq_iff`), so their canonical texts tell values apart
(`canonical_text_identifies`).
-/

namespace TestDouble

namespace Json

/-- No object in a value, at any depth, has two members of one name. -/
inductive WellKeyed : Json → Prop where
  | null : WellKeyed .null
  | bool (value : Bool) : WellKeyed (.bool value)
  | number (value : Number) : WellKeyed (.number value)
  | text (value : String) : WellKeyed (.text value)
  | array {items : List Json} (each : ∀ item ∈ items, WellKeyed item) : WellKeyed (.array items)
  | object {members : List (String × Json)} (distinct : (members.map Prod.fst).Nodup)
      (each : ∀ member ∈ members, WellKeyed member.2) : WellKeyed (.object members)

/-- Two values are one JSON value: they are of one kind and hold the same, arrays place by place and objects name by name. -/
inductive Identical : Json → Json → Prop where
  | null : Identical .null .null
  | bool (value : Bool) : Identical (.bool value) (.bool value)
  | number (value : Number) : Identical (.number value) (.number value)
  | text (value : String) : Identical (.text value) (.text value)
  | array {items items' : List Json} (length : items.length = items'.length)
      (each : ∀ (i : Nat) a b, items[i]? = some a → items'[i]? = some b → Identical a b) :
      Identical (.array items) (.array items')
  | object {members members' : List (String × Json)}
      (names : ∀ name, name ∈ members.map Prod.fst ↔ name ∈ members'.map Prod.fst)
      (each : ∀ name a b, (name, a) ∈ members → (name, b) ∈ members' → Identical a b) :
      Identical (.object members) (.object members')

theorem wellKeyed_array_iff (items : List Json) : WellKeyed (.array items) ↔ ∀ item ∈ items, item.WellKeyed :=
  ⟨fun | .array each => each, .array⟩

theorem wellKeyed_object_iff (members : List (String × Json)) :
    WellKeyed (.object members) ↔ (members.map Prod.fst).Nodup ∧ ∀ member ∈ members, member.2.WellKeyed :=
  ⟨fun | .object distinct each => ⟨distinct, each⟩, fun ⟨distinct, each⟩ => .object distinct each⟩

/-! ## Sorted forms -/

/-- The sorted form of an array holds the sorted forms of its items. -/
theorem sortedItems_eq_map (items : List Json) : sortedItems items = items.map sorted := by
  induction items with
  | nil => rfl
  | cons item rest ih => rw [sortedItems, ih, List.map_cons]

/-- Two arrays have the same sorted form exactly when they are of one length and have the same sorted forms at every place. -/
theorem sorted_array_eq_iff (items items' : List Json) :
    (Json.array items).sorted = (Json.array items').sorted ↔
      items.length = items'.length ∧
        ∀ (i : Nat) a b, items[i]? = some a → items'[i]? = some b → a.sorted = b.sorted := by
  rw [sorted, sorted, Json.array.injEq, sortedItems_eq_map, sortedItems_eq_map]
  constructor
  · intro h
    refine ⟨by simpa using congrArg List.length h, fun i a b ha hb => ?_⟩
    have hplace := congrArg (·[i]?) h
    simpa only [List.getElem?_map, ha, hb, Option.map_some, Option.some.injEq] using hplace
  · rintro ⟨hlength, heach⟩
    refine List.ext_getElem (by simpa using hlength) fun i hi hi' => ?_
    rw [List.length_map] at hi hi'
    rw [List.getElem_map, List.getElem_map]
    exact heach i items[i] items'[i] (List.getElem?_eq_getElem hi) (List.getElem?_eq_getElem hi')

/-- The members of an object in sorted form are the sorted forms of its members. -/
theorem mem_sortedMembers_iff (members : List (String × Json)) (name : String) (value : Json) :
    (name, value) ∈ sortedMembers members ↔ ∃ a, (name, a) ∈ members ∧ a.sorted = value := by
  rw [sortedMembers_eq_map, List.mem_map]
  constructor
  · rintro ⟨⟨listed, a⟩, hmem, he⟩
    obtain ⟨rfl, rfl⟩ := Prod.mk.inj he
    exact ⟨a, hmem, rfl⟩
  · rintro ⟨a, hmem, rfl⟩
    exact ⟨(name, a), hmem, rfl⟩

/-- Two objects, each with distinct names, have the same sorted form exactly when they have the same names and the same sorted forms
under every name. -/
theorem sorted_object_eq_iff {members members' : List (String × Json)} (h : (members.map Prod.fst).Nodup)
    (h' : (members'.map Prod.fst).Nodup) :
    (Json.object members).sorted = (Json.object members').sorted ↔
      (∀ name, name ∈ members.map Prod.fst ↔ name ∈ members'.map Prod.fst) ∧
        ∀ name a b, (name, a) ∈ members → (name, b) ∈ members' → a.sorted = b.sorted := by
  rw [← names_sortedMembers] at h h'
  rw [sorted, sorted, Json.object.injEq, sortEntries_eq_iff h h', names_sortedMembers, names_sortedMembers]
  refine and_congr_right fun _ => ⟨fun hsorted name a b ha hb => ?_, fun hvalues name value value' hvalue hvalue' => ?_⟩
  · exact hsorted name _ _ ((mem_sortedMembers_iff _ _ _).mpr ⟨a, ha, rfl⟩) ((mem_sortedMembers_iff _ _ _).mpr ⟨b, hb, rfl⟩)
  · obtain ⟨a, ha, rfl⟩ := (mem_sortedMembers_iff _ _ _).mp hvalue
    obtain ⟨b, hb, rfl⟩ := (mem_sortedMembers_iff _ _ _).mp hvalue'
    exact hvalues name a b ha hb

/-! ## Identical values -/

/-- Values with the same sorted form are identical. -/
theorem WellKeyed.identical_of_sorted_eq {a b : Json} (ha : a.WellKeyed) (hb : b.WellKeyed) (h : a.sorted = b.sorted) :
    Identical a b := by
  induction ha generalizing b with
  | null =>
    cases hb <;> cases h
    exact .null
  | bool value =>
    cases hb <;> cases h
    exact .bool value
  | number value =>
    cases hb <;> cases h
    exact .number value
  | text value =>
    cases hb <;> cases h
    exact .text value
  | array each ih =>
    cases hb with
    | array each' =>
      obtain ⟨hlength, hsorted⟩ := (sorted_array_eq_iff _ _).mp h
      refine .array hlength fun i item item' hitem hitem' => ?_
      exact ih item (List.mem_of_getElem? hitem) (each' item' (List.mem_of_getElem? hitem'))
        (hsorted i item item' hitem hitem')
    | _ => cases h
  | object distinct each ih =>
    cases hb with
    | object distinct' each' =>
      obtain ⟨hnames, hsorted⟩ := (sorted_object_eq_iff distinct distinct').mp h
      refine .object hnames fun name value value' hvalue hvalue' => ?_
      exact ih (name, value) hvalue (each' (name, value') hvalue') (hsorted name value value' hvalue hvalue')
    | _ => cases h

/-- Identical values have the same sorted form. -/
theorem Identical.sorted_eq {a b : Json} (h : Identical a b) (ha : a.WellKeyed) (hb : b.WellKeyed) :
    a.sorted = b.sorted := by
  induction h with
  | null => rfl
  | bool value => rfl
  | number value => rfl
  | text value => rfl
  | array length each ih =>
    rw [wellKeyed_array_iff] at ha hb
    refine (sorted_array_eq_iff _ _).mpr ⟨length, fun i item item' hitem hitem' => ?_⟩
    exact ih i item item' hitem hitem' (ha item (List.mem_of_getElem? hitem)) (hb item' (List.mem_of_getElem? hitem'))
  | object names each ih =>
    rw [wellKeyed_object_iff] at ha hb
    refine (sorted_object_eq_iff ha.1 hb.1).mpr ⟨names, fun name value value' hvalue hvalue' => ?_⟩
    exact ih name value value' hvalue hvalue' (ha.2 _ hvalue) (hb.2 _ hvalue')

/-- Values whose objects have distinct names have the same sorted form exactly when they are identical. -/
theorem WellKeyed.sorted_eq_iff {a b : Json} (ha : a.WellKeyed) (hb : b.WellKeyed) : a.sorted = b.sorted ↔ Identical a b :=
  ⟨ha.identical_of_sorted_eq hb, fun h => h.sorted_eq ha hb⟩

/-! ## Strings that hold texts -/

/-- Escaping makes no text shorter. -/
theorem length_le_flatMap_escapeChar (chars : List Char) : chars.length ≤ (chars.flatMap escapeChar).length := by
  induction chars with
  | nil => exact Nat.le_refl 0
  | cons c rest ih =>
    have hone : 1 ≤ (escapeChar c).length := by
      unfold escapeChar
      split
      · simp
      · split <;> simp
    rw [List.flatMap_cons, List.length_append, List.length_cons]
    omega

/-- No string is its own text: the text has quotes on top. -/
theorem canonicalText_text_ne (text : String) : (Json.text text).canonicalText ≠ text := by
  intro h
  have hchars : writeText text = text.toList := by
    rw [← String.toList_ofList (l := writeText text)]
    exact congrArg String.toList h
  have hlength := congrArg List.length hchars
  have hescaped := length_le_flatMap_escapeChar text.toList
  simp only [writeText, List.cons_append, List.length_cons, List.length_append, List.length_nil] at hlength
  omega

/-- The string that holds the text of a value has another text than the value. -/
theorem canonicalText_quoted_ne (value : Json) : (Json.text value.canonicalText).canonicalText ≠ value.canonicalText := by
  intro h
  have hsorted := (canonicalText_eq_iff _ _).mp h
  cases value with
  | text text => exact canonicalText_text_ne text (Json.text.inj hsorted)
  | _ => cases hsorted

end Json

open Json

/-- The canonical text identifies a data value. Two values in which no object has a name twice have the same canonical text exactly
when they are one JSON value: of one kind, with the same items at every place and the same members under every name, down to the
same truth values, numbers and strings; then they are the same data too. In particular an integer never shares its text with a
binary64 number, nor a string with a value that is no string, nor the string that holds the text of a value with that value. -/
theorem canonical_text_identifies :
    (∀ a b : Json, a.WellKeyed → b.WellKeyed →
        (a.canonicalText = b.canonicalText ↔ a.Identical b) ∧ (a.canonicalText = b.canonicalText → a.same b = true)) ∧
      (∀ (n : Int) (x : Binary64), (Json.number (.integer n)).canonicalText ≠ (Json.number (.real x)).canonicalText) ∧
      (∀ (text : String) (value : Json), (∀ other, value ≠ .text other) →
        (Json.text text).canonicalText ≠ value.canonicalText) ∧
      ∀ value : Json, (Json.text value.canonicalText).canonicalText ≠ value.canonicalText := by
  refine ⟨fun a b ha hb => ⟨?_, fun h => ?_⟩, fun n x h => ?_, fun text value hvalue h => ?_, canonicalText_quoted_ne⟩
  · rw [canonicalText_eq_iff, ha.sorted_eq_iff hb]
  · exact same_of_sorted_eq ((canonicalText_eq_iff a b).mp h)
  · cases (canonicalText_eq_iff _ _).mp h
  · have hsorted := (canonicalText_eq_iff _ _).mp h
    cases value with
    | text other => exact hvalue other rfl
    | _ => cases hsorted

namespace IdentityExample

/-- An object with an integer and a list that holds an object. -/
def listed : Json :=
  .object [("count", .number (.integer 1)), ("all", .array [.object [("low", .null), ("high", .text "1")]])]

/-- The same with the members listed the other way round. -/
def relisted : Json :=
  .object [("all", .array [.object [("high", .text "1"), ("low", .null)]]), ("count", .number (.integer 1))]

end IdentityExample

open IdentityExample in
/-- The two listings in the example have one text, so they are one value. -/
theorem canonical_text_identifies_count :
    listed.WellKeyed ∧ relisted.WellKeyed ∧ listed.canonicalText = relisted.canonicalText ∧ listed.Identical relisted := by
  have hleaves : Json.null.WellKeyed ∧ (Json.text "1").WellKeyed ∧ (Json.number (.integer 1)).WellKeyed :=
    ⟨.null, .text "1", .number (.integer 1)⟩
  have hlisted : listed.WellKeyed := by
    simp [listed, wellKeyed_object_iff, wellKeyed_array_iff, hleaves]
  have hrelisted : relisted.WellKeyed := by
    simp [relisted, wellKeyed_object_iff, wellKeyed_array_iff, hleaves]
  have htext : listed.canonicalText = relisted.canonicalText := by decide +kernel
  exact ⟨hlisted, hrelisted, htext, (canonical_text_identifies.1 listed relisted hlisted hrelisted).1.mp htext⟩

end TestDouble

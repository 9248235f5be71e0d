import TestDouble.Identifier

/-!
# Type names, segment by segment

The segments of a name are its pieces between the separators, and joining them gives the name back (`joined_segments`,
`segments_joined`). A separator that is not in front can be anywhere: the segments before it and those after it meet
(`segments_unrooted_append`), so a name is legal exactly when its two sides are. Taken together, a legal name is one or more
legal segments with single separators between them, and at most one in front (`legal_segment_by_segment`).
-/

namespace TestDouble

/-! ## Segments of a name -/

namespace TypeName

/-- Segments with separators between them. -/
def joined (segments : List String) : String := (String.singleton separator).intercalate segments

/-- The segments of a name are its pieces between the separators. -/
theorem segments_eq_splitOn (name : String) : segments name = (name.toList.splitOn separator).map String.ofList := by
  rw [segments, Text.segments_eq_splitOnP, List.splitOn_eq_splitOnP]
  rfl

/-- A name has at least one segment. -/
theorem segments_ne_nil (name : String) : segments name ≠ [] := by
  rw [segments, Ne, List.map_eq_nil_iff]
  exact Text.segments_ne_nil isSeparator name.toList

/-- A name is its segments, joined. -/
theorem joined_segments (name : String) : joined (segments name) = name := by
  have hchars : String.toList ∘ String.ofList = id := funext fun _ => String.toList_ofList
  rw [← String.toList_inj, joined, String.toList_intercalate, String.toList_singleton, segments_eq_splitOn, List.map_map,
    hchars, List.map_id, List.intercalate_splitOn]

/-- Texts without separators, joined, make a name with these segments, if there are any. -/
theorem segments_joined {names : List String} (hne : names ≠ []) (h : ∀ name ∈ names, separator ∉ name.toList) :
    segments (joined names) = names := by
  have hparts : ∀ part ∈ names.map String.toList, separator ∉ part := List.forall_mem_map.mpr h
  have htexts : String.ofList ∘ String.toList = id := funext fun _ => String.ofList_toList
  rw [segments_eq_splitOn, joined, String.toList_intercalate, String.toList_singleton,
    List.splitOn_intercalate separator hparts (by simpa using hne), List.map_map, htexts, List.map_id]

/-- A name without separators is its own only segment. -/
theorem segments_of_not_mem {name : String} (h : separator ∉ name.toList) : segments name = [name] := by
  rw [segments_eq_splitOn, List.splitOn_eq_singleton h, List.map_singleton, String.ofList_toList]

/-! ## A separator in front -/

/-- A name that starts with a separator is what follows, with a separator in front. -/
theorem rooted_unrooted {name : String} (h : isRooted name = true) : rooted (unrooted name) = name := by
  rw [← String.toList_inj, rooted, unrooted, String.toList_ofList, String.toList_ofList]
  rw [isRooted] at h
  cases htext : name.toList with
  | nil => simp [htext] at h
  | cons c rest =>
    have hc : isSeparator c = true := by simpa [htext] using h
    rw [dropLead, if_pos hc, beq_iff_eq.mp hc]

/-- A name without separators starts with none. -/
theorem isRooted_of_not_mem {name : String} (h : separator ∉ name.toList) : isRooted name = false := by
  rw [isRooted, Option.any_eq_false]
  intro c hc
  refine Bool.eq_false_iff.mpr fun hseparator => h ?_
  rw [← beq_iff_eq.mp hseparator]
  exact List.mem_of_head? hc

/-- A separator in front of a name makes one more segment, an empty one in front of the others. -/
theorem segments_of_isRooted {name : String} (h : isRooted name = true) : segments name = "" :: segments (unrooted name) := by
  have hchars : name.toList = [] ++ separator :: (unrooted name).toList := by
    rw [← rooted_unrooted h, unrooted_rooted, rooted, String.toList_ofList, List.nil_append]
  rw [segments, hchars, Text.segments_append_break _ rfl]
  rfl

/-- Texts that are neither empty nor hold a separator, joined, make a name that starts with none. -/
theorem isRooted_joined {names : List String} (h : ∀ name ∈ names, name ≠ "" ∧ separator ∉ name.toList) :
    isRooted (joined names) = false := by
  rcases names with _ | ⟨first, rest⟩
  · rfl
  · have hsegments := segments_joined (List.cons_ne_nil first rest) fun name hname => (h name hname).2
    refine Bool.eq_false_iff.mpr fun hrooted => (h first List.mem_cons_self).1 ?_
    rw [segments_of_isRooted hrooted] at hsegments
    exact (List.cons.inj hsegments).1.symm

/-- What is written behind characters does not matter to a separator in front of them, if there are any. -/
theorem dropLead_append {chars : List Char} (h : chars ≠ []) (more : List Char) :
    dropLead (chars ++ more) = dropLead chars ++ more := by
  cases chars with
  | nil => exact absurd rfl h
  | cons c rest =>
    rw [List.cons_append, dropLead, dropLead]
    split <;> rfl

/-- At a separator that is not in front the segments of what stands before it and of what stands after it meet. -/
theorem segments_unrooted_append {before : String} (h : before ≠ "") (after : String) :
    segments (unrooted (before ++ String.singleton separator ++ after)) = segments (unrooted before) ++ segments after := by
  have hchars : before.toList ≠ [] := fun he => h (String.toList_eq_nil_iff.mp he)
  have hname : (before ++ String.singleton separator ++ after).toList = before.toList ++ separator :: after.toList := by
    simp [String.toList_append]
  rw [segments, segments, segments, unrooted, unrooted, String.toList_ofList, String.toList_ofList, hname,
    dropLead_append hchars, Text.segments_append_break _ rfl, List.map_append]

end TypeName

/-! ## Identifiers -/

namespace Identifier

/-- A text has the shape of an identifier when its first character may start one and all others may go on with it. -/
theorem hasShape_iff (text : String) :
    hasShape text = true ↔
      ∃ first rest, text.toList = first :: rest ∧ isStart first = true ∧ ∀ c ∈ rest, isPart c = true := by
  rw [hasShape]
  cases text.toList with
  | nil => exact iff_of_false nofun nofun
  | cons first rest =>
    rw [hasShapeChars, Bool.and_eq_true, List.all_eq_true]
    constructor
    · rintro ⟨hfirst, hrest⟩
      exact ⟨first, rest, rfl, hfirst, hrest⟩
    · rintro ⟨first, rest, htext, hshape⟩
      obtain ⟨rfl, rfl⟩ := List.cons.inj htext
      exact hshape

/-- An identifier is made of the characters that identifiers go on with. -/
theorem isPart_of_hasShape {text : String} (h : hasShape text = true) : ∀ c ∈ text.toList, isPart c = true := by
  obtain ⟨first, rest, htext, hfirst, hrest⟩ := (hasShape_iff text).mp h
  rw [htext]
  exact List.forall_mem_cons.mpr ⟨by rw [isPart, hfirst, Bool.true_or], hrest⟩

/-- An identifier is not empty and holds no separator. -/
theorem plain_of_hasShape {text : String} (h : hasShape text = true) :
    text ≠ "" ∧ TypeName.separator ∉ text.toList := by
  constructor
  · rintro rfl
    cases h
  · intro hmem
    have hpart := isPart_of_hasShape h _ hmem
    cases hpart

end Identifier

/-! ## Legal names -/

namespace IdentifierRules

/-- A segment is allowed when it is an identifier and not reserved. -/
theorem allowsSegment_iff (rules : IdentifierRules) (segment : String) :
    rules.allowsSegment segment = true ↔ Identifier.hasShape segment = true ∧ rules.isReserved segment = false := by
  rw [allowsSegment, Bool.and_eq_true, Bool.not_eq_true']

/-- A separator in front of a name does not matter to whether a type may be declared under it. -/
theorem allowsType_rooted {name : String} (h : TypeName.isRooted name = false) (rules : IdentifierRules) :
    rules.allowsType (TypeName.rooted name) = rules.allowsType name := by
  rw [allowsType, allowsType, TypeName.unrooted_rooted, (TypeName.unrooted_eq_self_iff name).mpr h]

/-- A name without separators is legal exactly when it may stand as a segment. -/
theorem allowsType_of_not_mem (rules : IdentifierRules) {name : String} (h : TypeName.separator ∉ name.toList) :
    rules.allowsType name = rules.allowsSegment name := by
  rw [allowsType, (TypeName.unrooted_eq_self_iff name).mpr (TypeName.isRooted_of_not_mem h), TypeName.segments_of_not_mem h,
    List.all_cons, List.all_nil, Bool.and_true]

/-- Two names with a separator between them make a legal name exactly when both are legal. -/
theorem allowsType_append (rules : IdentifierRules) {before after : String} (hbefore : before ≠ "")
    (hafter : TypeName.isRooted after = false) :
    rules.allowsType (before ++ String.singleton TypeName.separator ++ after) =
      (rules.allowsType before && rules.allowsType after) := by
  rw [allowsType, allowsType, allowsType, TypeName.segments_unrooted_append hbefore, List.all_append,
    (TypeName.unrooted_eq_self_iff after).mpr hafter]

/-- Legal segments, joined, make a legal name. -/
theorem allowsType_joined (rules : IdentifierRules) {segments : List String} (hne : segments ≠ [])
    (h : ∀ segment ∈ segments, rules.allowsSegment segment = true) :
    TypeName.isRooted (TypeName.joined segments) = false ∧ rules.allowsType (TypeName.joined segments) = true := by
  have hplain : ∀ segment ∈ segments, segment ≠ "" ∧ TypeName.separator ∉ segment.toList := fun segment hsegment =>
    Identifier.plain_of_hasShape ((rules.allowsSegment_iff segment).mp (h segment hsegment)).1
  have hrooted := TypeName.isRooted_joined hplain
  refine ⟨hrooted, ?_⟩
  rw [allowsType, (TypeName.unrooted_eq_self_iff _).mpr hrooted,
    TypeName.segments_joined hne fun segment hsegment => (hplain segment hsegment).2]
  exact List.all_eq_true.mpr h

/-- A name is legal exactly when it is one or more legal segments with separators between them, with or without one in front. -/
theorem allowsType_iff (rules : IdentifierRules) (name : String) :
    rules.allowsType name = true ↔
      ∃ segments, segments ≠ [] ∧ (∀ segment ∈ segments, rules.allowsSegment segment = true) ∧
        (name = TypeName.joined segments ∨ name = TypeName.rooted (TypeName.joined segments)) := by
  constructor
  · intro h
    refine ⟨TypeName.segments (TypeName.unrooted name), TypeName.segments_ne_nil _, List.all_eq_true.mp h, ?_⟩
    rw [TypeName.joined_segments]
    cases hrooted : TypeName.isRooted name with
    | false => exact Or.inl ((TypeName.unrooted_eq_self_iff name).mpr hrooted).symm
    | true => exact Or.inr (TypeName.rooted_unrooted hrooted).symm
  · rintro ⟨segments, hne, hlegal, hname⟩
    obtain ⟨hrooted, hallowed⟩ := rules.allowsType_joined hne hlegal
    rcases hname with rfl | rfl
    · exact hallowed
    · rw [allowsType_rooted hrooted, hallowed]

end IdentifierRules

/-- Type names are legal segment by segment. Take any rules. Two names with a separator between them, the first not empty and the
second not starting with a separator, make a legal name exactly when both are legal. A name without separators is legal exactly
when it is legal with one separator in front, and exactly when a method may have it while keywords are not relaxed. So the legal
names are one or more segments with single separators between them, and at most one in front, where every segment is an
identifier that is not reserved. Relaxing keywords changes nothing about this. -/
theorem legal_segment_by_segment (rules : IdentifierRules) :
    (∀ before after, before ≠ "" → TypeName.isRooted after = false →
        (rules.allowsType (before ++ String.singleton TypeName.separator ++ after) = true ↔
          rules.allowsType before = true ∧ rules.allowsType after = true)) ∧
      (∀ name : String, TypeName.separator ∉ name.toList →
        rules.allowsType (TypeName.rooted name) = rules.allowsType name ∧
          IdentifierRules.allowsMethod { rules with relaxedKeywords := false } name = rules.allowsType name) ∧
      (∀ name, rules.allowsType name = true ↔
        ∃ segments, segments ≠ [] ∧
          (∀ segment ∈ segments, Identifier.hasShape segment = true ∧ rules.isReserved segment = false) ∧
          (name = TypeName.joined segments ∨ name = TypeName.rooted (TypeName.joined segments))) ∧
      ∀ relaxed name,
        IdentifierRules.allowsType { rules with relaxedKeywords := relaxed } name = rules.allowsType name := by
  refine ⟨fun before after hbefore hafter => ?_, fun name hname => ⟨?_, ?_⟩, fun name => ?_, fun relaxed name => rfl⟩
  · rw [rules.allowsType_append hbefore hafter, Bool.and_eq_true]
  · exact IdentifierRules.allowsType_rooted (TypeName.isRooted_of_not_mem hname) rules
  · rw [rules.allowsType_of_not_mem hname]
    rfl
  · simp only [← IdentifierRules.allowsSegment_iff]
    exact rules.allowsType_iff name

/-- With relaxed keywords `list` is legal as a method and still not as a segment, with or without a separator in front, so it spoils
the name that it ends, while a segment that only starts with it does not. -/
theorem legal_segment_by_segment_vendor :
    let rules : IdentifierRules := { relaxedKeywords := true, additionalReserved := ["Enum"] }
    rules.allowsType "\\Vendor\\Package" = true ∧ rules.allowsMethod "list" = true ∧
      rules.allowsType "\\list" = false ∧ rules.allowsType "\\Vendor\\Package\\list" = false ∧
      rules.allowsType "\\Vendor\\Package\\Listing" = true := by
  intro rules
  obtain ⟨hbetween, hfront, -, -⟩ := legal_segment_by_segment rules
  have hpackage : rules.allowsType "\\Vendor\\Package" = true := by decide +kernel
  have hword : rules.allowsType "list" = false := by decide +kernel
  have hrooted : rules.allowsType "\\list" = rules.allowsType "list" := (hfront "list" (by decide)).1
  have hspoiled : ¬rules.allowsType "\\Vendor\\Package\\list" = true := fun h =>
    Bool.false_ne_true (hword.symm.trans ((hbetween "\\Vendor\\Package" "list" (by decide) (by decide)).mp h).2)
  have hlisting : rules.allowsType "\\Vendor\\Package\\Listing" = true :=
    (hbetween "\\Vendor\\Package" "Listing" (by decide) (by decide)).mpr ⟨hpackage, by decide +kernel⟩
  exact ⟨hpackage, by decide +kernel, hrooted.trans hword, Bool.eq_false_iff.mpr hspoiled, hlisting⟩

end TestDouble

import TestDouble.Json

/-!
# Values in another order

`Json.Reordered` says of two values that one is the other with the members of its objects, at any depth, listed in another
order. Such values have the same sorted form (`Json.Reordered.sorted_eq`), and so whatever is made of that form.
-/

namespace TestDouble

namespace Json

mutual

/-- Two values are the same but for the order in which objects list their members, at any depth. An object has its members under
distinct names; one that has not stays as it is. -/
inductive Reordered : Json → Json → Prop where
  | refl (value : Json) : Reordered value value
  | array {items items' : List Json} (h : ReorderedItems items items') : Reordered (.array items) (.array items')
  | object {members between members' : List (String × Json)} (distinct : (members.map Prod.fst).Nodup)
      (h : ReorderedMembers members between) (perm : between.Perm members') : Reordered (.object members) (.object members')

/-- Items that are reordered inside, one by one. -/
inductive ReorderedItems : List Json → List Json → Prop where
  | nil : ReorderedItems [] []
  | cons {item item' : Json} {rest rest' : List Json} (first : Reordered item item') (others : ReorderedItems rest rest') :
      ReorderedItems (item :: rest) (item' :: rest')

/-- Members that are reordered inside, one by one, under their names. -/
inductive ReorderedMembers : List (String × Json) → List (String × Json) → Prop where
  | nil : ReorderedMembers [] []
  | cons (name : String) {value value' : Json} {rest rest' : List (String × Json)} (first : Reordered value value')
      (others : ReorderedMembers rest rest') : ReorderedMembers ((name, value) :: rest) ((name, value') :: rest')

end

/-- The sorted forms of members are those of their values, under the same names. -/
theorem sortedMembers_eq_map (members : List (String × Json)) :
    sortedMembers members = members.map (fun member => (member.1, member.2.sorted)) := by
  induction members with
  | nil => rfl
  | cons member rest ih => rw [sortedMembers, ih, List.map_cons]

/-- Members in sorted form have the names that they had. -/
theorem names_sortedMembers (members : List (String × Json)) :
    (sortedMembers members).map Prod.fst = members.map Prod.fst := by
  rw [sortedMembers_eq_map, List.map_map]
  rfl

/-- The sorted form of a member is that of its value. -/
theorem lookup_sortedMembers (members : List (String × Json)) (name : String) :
    (sortedMembers members).lookup name = (members.lookup name).map sorted := by
  rw [sortedMembers_eq_map]
  exact OrderedMap.lookup_map_entries (fun _ => sorted) members name

/-- Members of which no two share a name have the same sorted forms in whatever order they are listed. -/
theorem sortEntries_sortedMembers_of_perm {members members' : List (String × Json)}
    (hdistinct : (members.map Prod.fst).Nodup) (h : members.Perm members') :
    sortEntries (sortedMembers members) = sortEntries (sortedMembers members') := by
  rw [← names_sortedMembers] at hdistinct
  apply sortEntries_eq_of_perm hdistinct
  rw [sortedMembers_eq_map, sortedMembers_eq_map]
  exact h.map _

/-- Members that are reordered inside keep their names. -/
theorem ReorderedMembers.names_eq : ∀ {members members' : List (String × Json)},
    ReorderedMembers members members' → members.map Prod.fst = members'.map Prod.fst
  | _, _, .nil => rfl
  | _, _, .cons name first others => by rw [List.map_cons, List.map_cons, others.names_eq]

mutual

/-- Values that differ in the order of members only have the same sorted form. -/
theorem Reordered.sorted_eq : ∀ {a b : Json}, Reordered a b → a.sorted = b.sorted
  | _, _, .refl _ => rfl
  | _, _, .array h => by rw [sorted, sorted, h.sortedItems_eq]
  | _, _, .object distinct h perm => by
    rw [sorted, sorted, h.sortedMembers_eq, sortEntries_sortedMembers_of_perm (h.names_eq ▸ distinct) perm]

/-- Items that differ in the order of members only have the same sorted forms. -/
theorem ReorderedItems.sortedItems_eq : ∀ {items items' : List Json}, ReorderedItems items items' →
    sortedItems items = sortedItems items'
  | _, _, .nil => rfl
  | _, _, .cons first others => by rw [sortedItems, sortedItems, first.sorted_eq, others.sortedItems_eq]

/-- Members whose values differ in the order of members only have the same sorted forms. -/
theorem ReorderedMembers.sortedMembers_eq : ∀ {members members' : List (String × Json)},
    ReorderedMembers members members' → sortedMembers members = sortedMembers members'
  | _, _, .nil => rfl
  | _, _, .cons name first others => by rw [sortedMembers, sortedMembers, first.sorted_eq, others.sortedMembers_eq]

end

end Json

end TestDouble

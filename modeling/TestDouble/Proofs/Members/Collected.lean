import TestDouble.Members
import TestDouble.Proofs.OrderedMap.Insertions

/-!
# What insertions of members leave in the tables

A member stands in one table, and inserting it changes no other. So a run of insertions works on each table by itself
(`insertAll_eq`), and members inserted from nothing are collected table by table (`ofList_eq_collect`). Tables that were built
by insertions and are then merged into others leave there what the insertions alone would have left (`merge_ofList`).
-/

namespace TestDouble

namespace Member

/-- The entry of a member in one of the tables of methods; nothing if the member stands in another table. -/
def methodEntry? : MemberKind → Member → Option (String × CustomMethod)
  | .method, .method name value => some (name, value)
  | .staticMethod, .staticMethod name value => some (name, value)
  | _, _ => none

/-- The entry of a member in one of the tables of data; nothing if the member stands in another table. -/
def dataEntry? : MemberKind → Member → Option (String × Json)
  | .property, .property name value => some (name, value)
  | .staticProperty, .staticProperty name value => some (name, value)
  | .constant, .constant name value => some (name, value)
  | _, _ => none

end Member

namespace Members

/-- The entries of members in one of the tables of methods, in the order of the members. -/
def methodEntries (table : MemberKind) (added : List Member) : List (String × CustomMethod) :=
  added.filterMap (Member.methodEntry? table)

/-- The entries of members in one of the tables of data, in the order of the members. -/
def dataEntries (table : MemberKind) (added : List Member) : List (String × Json) :=
  added.filterMap (Member.dataEntry? table)

/-- The tables of members, each with its entries collected by name: every name where it comes first, with the value that comes
last under it. -/
def collect (added : List Member) : Members where
  methods := .collect (methodEntries .method added)
  staticMethods := .collect (methodEntries .staticMethod added)
  properties := .collect (dataEntries .property added)
  staticProperties := .collect (dataEntries .staticProperty added)
  constants := .collect (dataEntries .constant added)

/-- Inserting members is inserting, into each table, the entries that they have there. -/
theorem insertAll_eq (m : Members) (added : List Member) :
    m.insertAll added =
      { methods := m.methods.insertAll (methodEntries .method added)
        staticMethods := m.staticMethods.insertAll (methodEntries .staticMethod added)
        properties := m.properties.insertAll (dataEntries .property added)
        staticProperties := m.staticProperties.insertAll (dataEntries .staticProperty added)
        constants := m.constants.insertAll (dataEntries .constant added) } := by
  induction added generalizing m with
  | nil => rfl
  | cons member rest ih =>
    have hstep : m.insertAll (member :: rest) = (m.insert member).insertAll rest := rfl
    rw [hstep, ih]
    cases member <;> rfl

/-- Members inserted from nothing are collected, table by table. -/
theorem ofList_eq_collect (added : List Member) : ofList added = collect added := by
  rw [ofList, insertAll_eq, collect]
  simp only [← OrderedMap.ofList_eq_collect]
  rfl

/-- Members that are inserted after others are inserted together with them. -/
theorem insertAll_append (m : Members) (added more : List Member) :
    m.insertAll (added ++ more) = (m.insertAll added).insertAll more :=
  List.foldl_append

/-- Merging the tables of some members is inserting the members. -/
theorem merge_ofList (m : Members) (added : List Member) : m.merge (ofList added) = m.insertAll added := by
  rw [m.insertAll_eq, ofList_eq_collect, merge, collect]
  simp only [← OrderedMap.ofList_eq_collect, OrderedMap.insertAll_ofList]

end Members

end TestDouble

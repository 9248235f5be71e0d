import TestDouble.Members
import TestDouble.Proofs.OrderedMap.Insertions

/-!
# The five tables

Three tables hold data and two hold methods. Read as tables of values of entries they are of one sort (`Members.table`), and they
say all there is to say about members (`ext_table`). An insertion puts one value under one name in one table, and this determines
what it leaves (`PutIn`, `putIn_insert`, `PutIn.unique`).
-/

namespace TestDouble

namespace Member

/-- The table that a member stands in. -/
def kind : Member → MemberKind
  | .method _ _ => .method
  | .staticMethod _ _ => .staticMethod
  | .property _ _ => .property
  | .staticProperty _ _ => .staticProperty
  | .constant _ _ => .constant

/-- The name of a member. -/
def name : Member → String
  | .method name _ => name
  | .staticMethod name _ => name
  | .property name _ => name
  | .staticProperty name _ => name
  | .constant name _ => name

/-- The content of a member. -/
def content : Member → EntryValue
  | .method _ value => .method value
  | .staticMethod _ value => .method value
  | .property _ value => .data value
  | .staticProperty _ value => .data value
  | .constant _ value => .data value

/-- The entry that a member has in one of the tables; nothing if the member stands in another one. -/
def entryIn? (kind : MemberKind) (member : Member) : Option (String × EntryValue) :=
  if member.kind = kind then some (member.name, member.content) else none

/-- A member is its table, its name and its content. -/
theorem eq_of_content_eq {member other : Member} (hkind : member.kind = other.kind) (hname : member.name = other.name)
    (hcontent : member.content = other.content) : member = other := by
  cases member <;> cases other <;> simp_all [kind, name, content]

end Member

namespace Members

/-- One of the tables. -/
def table (m : Members) : MemberKind → OrderedMap EntryValue
  | .method => m.methods.map .method
  | .staticMethod => m.staticMethods.map .method
  | .property => m.properties.map .data
  | .staticProperty => m.staticProperties.map .data
  | .constant => m.constants.map .data

/-- Members whose tables are the same are the same. -/
theorem ext_table {m m' : Members} (h : ∀ kind, m.table kind = m'.table kind) : m = m' := by
  have hmethod {a b : OrderedMap CustomMethod} (hmap : a.map EntryValue.method = b.map .method) : a = b :=
    OrderedMap.map_injective (fun _ _ => EntryValue.method.inj) hmap
  have hdata {a b : OrderedMap Json} (hmap : a.map EntryValue.data = b.map .data) : a = b :=
    OrderedMap.map_injective (fun _ _ => EntryValue.data.inj) hmap
  cases m
  cases m'
  obtain rfl := hmethod (h .method)
  obtain rfl := hmethod (h .staticMethod)
  obtain rfl := hdata (h .property)
  obtain rfl := hdata (h .staticProperty)
  obtain rfl := hdata (h .constant)
  rfl

/-- An insertion puts the content of the member under its name into its table, and leaves every other table as it was. -/
theorem table_insert (m : Members) (member : Member) (kind : MemberKind) :
    (m.insert member).table kind =
      if kind = member.kind then (m.table kind).insert member.name member.content else m.table kind := by
  cases member <;> cases kind <;> first | rfl | exact OrderedMap.map_insert _ _ _ _

/-- A run of insertions inserts into each table the entries that the members have there. -/
theorem table_insertAll (m : Members) (added : List Member) (kind : MemberKind) :
    (m.insertAll added).table kind = (m.table kind).insertAll (added.filterMap (Member.entryIn? kind)) := by
  induction added generalizing m with
  | nil => rfl
  | cons member rest ih =>
    have hstep : m.insertAll (member :: rest) = (m.insert member).insertAll rest := rfl
    rw [hstep, ih, table_insert, List.filterMap_cons, Member.entryIn?]
    by_cases hkind : member.kind = kind
    · rw [if_pos hkind.symm, if_pos hkind]
      rfl
    · rw [if_neg (Ne.symm hkind), if_neg hkind]

/-- There is nothing in the tables without a member. -/
theorem table_empty (kind : MemberKind) : ({} : Members).table kind = ∅ := by
  cases kind <;> rfl

/-- Merging adds the entries of each table to those of the same table. -/
theorem table_merge (m added : Members) (kind : MemberKind) :
    (m.merge added).table kind = (m.table kind).insertAll (added.table kind).entries := by
  cases kind <;> exact OrderedMap.map_insertAll _ _ _

/-! ## One insertion -/

/-- What comes of members when a value is put under a name in one table. That name has the value, and every other name of the
table has the value that it had; the names stand where they stood, a new one behind them; all other tables are as they were. -/
structure PutIn (m : Members) (kind : MemberKind) (name : String) (content : EntryValue) (m' : Members) : Prop where
  here : (m'.table kind).get? name = some content
  otherNames : ∀ other, other ≠ name → (m'.table kind).get? other = (m.table kind).get? other
  order : (m'.table kind).names =
    if name ∈ (m.table kind).names then (m.table kind).names else (m.table kind).names ++ [name]
  otherTables : ∀ other, other ≠ kind → m'.table other = m.table other

/-- An insertion puts the content of the member under its name into its table. -/
theorem putIn_insert (m : Members) (member : Member) :
    PutIn m member.kind member.name member.content (m.insert member) where
  here := by rw [table_insert, if_pos rfl, OrderedMap.get?_insert, if_pos rfl]
  otherNames := fun other hother => by rw [table_insert, if_pos rfl, OrderedMap.get?_insert, if_neg hother]
  order := by rw [table_insert, if_pos rfl, OrderedMap.names_insert]
  otherTables := fun other hother => by rw [table_insert, if_neg hother]

/-- What comes of members when a value is put under a name in one table is determined. -/
theorem PutIn.unique {m m' m'' : Members} {kind : MemberKind} {name : String} {content : EntryValue}
    (h : PutIn m kind name content m') (h' : PutIn m kind name content m'') : m' = m'' := by
  refine ext_table fun other => ?_
  by_cases hother : other = kind
  · subst hother
    refine OrderedMap.eq_of_names_eq (h.order.trans h'.order.symm) fun listed => ?_
    by_cases hlisted : listed = name
    · rw [hlisted, h.here, h'.here]
    · rw [h.otherNames listed hlisted, h'.otherNames listed hlisted]
  · rw [h.otherTables other hother, h'.otherTables other hother]

/-- Putting a value under a name in one table changes something unless the name has that value there already. -/
theorem PutIn.eq_iff {m m' : Members} {kind : MemberKind} {name : String} {content : EntryValue}
    (h : PutIn m kind name content m') : m' = m ↔ (m.table kind).get? name = some content := by
  constructor
  · rintro rfl
    exact h.here
  · intro hhere
    have hname : name ∈ (m.table kind).names := by
      rw [OrderedMap.mem_names_iff, hhere, Option.isSome_some]
    have hsame : PutIn m kind name content m :=
      ⟨hhere, fun _ _ => rfl, (if_pos hname).symm, fun _ _ => rfl⟩
    exact h.unique hsame

end Members

end TestDouble

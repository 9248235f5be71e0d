import Mathlib.Logic.Function.Basic
import TestDouble.Proofs.Members.Composition

/-!
# Members and their declarations

A member is declared by an entry whose key lists the modifiers of its table and then its name. Where the name is one word the
entry is read as that member and no other (`Member.ofEntry_declared`), even if the word is itself a modifier. The tables do not
get in each other's way, so the declarations of all members, interleaved in any way that keeps the order of each table, are a
definition of just these members, with every table in its order (`declarations_read_back`).
-/

namespace TestDouble

/-! ## Interleavings -/

/-- A list that takes the items of several lists in turn, those of each list in their order, until all lists are used up. -/
inductive Interleaves {κ α : Type} [DecidableEq κ] : (κ → List α) → List α → Prop where
  | done {lists : κ → List α} (h : ∀ k, lists k = []) : Interleaves lists []
  | take {lists : κ → List α} {k : κ} {item : α} {rest whole : List α} (hlist : lists k = item :: rest)
      (h : Interleaves (Function.update lists k rest) whole) : Interleaves lists (item :: whole)

namespace Interleaves

variable {κ α β : Type} [DecidableEq κ] {lists : κ → List α} {whole : List α}

/-- What is left of the lists are items that they had. -/
theorem mem_of_mem_update {k j : κ} {item other : α} {rest : List α} (hlist : lists k = item :: rest)
    (hother : other ∈ Function.update lists k rest j) : other ∈ lists j := by
  by_cases hj : j = k
  · subst hj
    rw [Function.update_self] at hother
    rw [hlist]
    exact List.mem_cons_of_mem item hother
  · rwa [Function.update_of_ne hj] at hother

/-- Every item of an interleaving is one of some list. -/
theorem exists_mem (h : Interleaves lists whole) : ∀ item ∈ whole, ∃ k, item ∈ lists k := by
  induction h with
  | done _ => simp
  | @take lists k item rest whole hlist _ ih =>
    refine List.forall_mem_cons.mpr ⟨⟨k, hlist ▸ List.mem_cons_self⟩, fun other hother => ?_⟩
    obtain ⟨j, hj⟩ := ih other hother
    exact ⟨j, mem_of_mem_update hlist hj⟩

/-- What is taken from an interleaving is taken from one list where the others have none of it. -/
theorem filterMap_eq (h : Interleaves lists whole) {pick : α → Option β} {k : κ}
    (hpick : ∀ j, j ≠ k → ∀ item ∈ lists j, pick item = none) : whole.filterMap pick = (lists k).filterMap pick := by
  induction h with
  | done hempty => rw [hempty k]
  | @take lists j item rest whole hlist _ ih =>
    have hleft := ih fun i hi other hother => hpick i hi other (mem_of_mem_update hlist hother)
    by_cases hj : j = k
    · subst hj
      rw [Function.update_self] at hleft
      rw [hlist, List.filterMap_cons, List.filterMap_cons, hleft]
    · rw [Function.update_of_ne (Ne.symm hj)] at hleft
      rw [List.filterMap_cons, hpick j hj item (hlist ▸ List.mem_cons_self), hleft]

/-- More items in front of one list may all be taken first. -/
theorem append (h : Interleaves lists whole) (k : κ) (front : List α) :
    Interleaves (Function.update lists k (front ++ lists k)) (front ++ whole) := by
  induction front with
  | nil => rwa [List.nil_append, Function.update_eq_self]
  | cons item rest ih =>
    refine .take (Function.update_self k _ lists) ?_
    rwa [Function.update_idem]

/-- Finitely many lists can be interleaved. -/
theorem exists_of_indices (lists : κ → List α) {indices : List κ} (hindices : ∀ k, k ∈ indices) :
    ∃ whole, Interleaves lists whole := by
  have hsome (listed : List κ) : ∃ whole, Interleaves (fun k => if k ∈ listed then lists k else []) whole := by
    induction listed with
    | nil => exact ⟨[], .done fun k => if_neg List.not_mem_nil⟩
    | cons k rest ih =>
      obtain ⟨whole, h⟩ := ih
      obtain ⟨front, hfront⟩ : ∃ front, lists k = front ++ if k ∈ rest then lists k else [] := by
        by_cases hk : k ∈ rest
        · exact ⟨[], by rw [if_pos hk, List.nil_append]⟩
        · exact ⟨lists k, by rw [if_neg hk, List.append_nil]⟩
      refine ⟨front ++ whole, ?_⟩
      have hone := h.append k front
      rw [← hfront] at hone
      convert hone using 1
      funext j
      by_cases hj : j = k
      · rw [hj, Function.update_self, if_pos List.mem_cons_self]
      · rw [Function.update_of_ne hj]
        simp only [List.mem_cons, hj, false_or]
  obtain ⟨whole, h⟩ := hsome indices
  simp only [hindices, if_true] at h
  exact ⟨whole, h⟩

end Interleaves

/-! ## One declaration -/

/-- The modifiers of the keys that declare the members of a table. -/
def MemberKind.modifiers : MemberKind → List Modifier
  | .method => [.function]
  | .staticMethod => [.static, .function]
  | .property => [.var]
  | .staticProperty => [.static, .var]
  | .constant => [.const]

/-- All tables. -/
def MemberKind.all : List MemberKind := [.method, .staticMethod, .property, .staticProperty, .constant]

/-- Every table is one of them. -/
theorem MemberKind.mem_all (kind : MemberKind) : kind ∈ all := by
  cases kind <;> decide

/-- A name that is one word: it is not empty and holds no white space. -/
def IsWord (name : String) : Prop := name ≠ "" ∧ Text.hasBlank name = false

instance (name : String) : Decidable (IsWord name) := inferInstanceAs (Decidable (_ ∧ _))

/-- The key that declares a name in a table spells the name behind the modifiers of the table. -/
theorem MemberKind.spells_keyText (kind : MemberKind) {name : String} (h : IsWord name) :
    Spells (MemberKey.keyText kind.modifiers name) (kind.modifiers.map Modifier.word) name where
  words := by rw [MemberKey.words_keyText, Text.words_of_not_hasBlank h.1 h.2]
  together := by cases kind <;> exact ⟨by decide, by decide, by decide⟩

namespace Member

/-- Behind the modifiers of its table the content of a member goes to that table, as it is. -/
theorem routed_content (member : Member) :
    Routed (member.kind.modifiers.map Modifier.word) member.content member.kind member.content := by
  cases member with
  | method name value =>
    show Routed ["function"] (.method value) .method (.method value)
    exact .method (by decide) (by decide)
  | staticMethod name value =>
    show Routed ["static", "function"] (.method value) .staticMethod (.method value)
    exact .method (by decide) (by decide)
  | property name value =>
    show Routed ["var"] (.data value) .property (.data value)
    exact .property (by decide) (by decide)
  | staticProperty name value =>
    show Routed ["static", "var"] (.data value) .staticProperty (.data value)
    exact .property (by decide) (by decide)
  | constant name value =>
    show Routed ["const"] (.data value) .constant (.data value)
    exact .constant (by decide)

/-- The entry that declares a member is read as that member. -/
theorem ofEntry_declared {member : Member} (h : IsWord member.name) :
    ofEntry (MemberKey.keyText member.kind.modifiers member.name) member.content = .ok member :=
  (ofEntry_eq_ok_iff _ _ member).mpr ⟨_, member.kind.spells_keyText h, member.routed_content⟩

end Member

namespace Members

variable {m : Members}

/-- An entry of a table is a member. -/
theorem exists_member_of_mem_table {kind : MemberKind} {entry : String × EntryValue} (h : entry ∈ (m.table kind).entries) :
    ∃ member : Member, member.kind = kind ∧ (member.name, member.content) = entry := by
  cases kind with
  | method =>
    obtain ⟨stored, -, rfl⟩ := List.mem_map.mp h
    exact ⟨.method stored.1 stored.2, rfl, rfl⟩
  | staticMethod =>
    obtain ⟨stored, -, rfl⟩ := List.mem_map.mp h
    exact ⟨.staticMethod stored.1 stored.2, rfl, rfl⟩
  | property =>
    obtain ⟨stored, -, rfl⟩ := List.mem_map.mp h
    exact ⟨.property stored.1 stored.2, rfl, rfl⟩
  | staticProperty =>
    obtain ⟨stored, -, rfl⟩ := List.mem_map.mp h
    exact ⟨.staticProperty stored.1 stored.2, rfl, rfl⟩
  | constant =>
    obtain ⟨stored, -, rfl⟩ := List.mem_map.mp h
    exact ⟨.constant stored.1 stored.2, rfl, rfl⟩

/-! ## The declarations of all members -/

/-- The entry that declares a content under a name in a table. -/
def declared (kind : MemberKind) (entry : String × EntryValue) : String × EntryValue :=
  (MemberKey.keyText kind.modifiers entry.1, entry.2)

/-- The entries that declare the members of each table, in the order of the table. -/
def declarations (m : Members) (kind : MemberKind) : List (String × EntryValue) :=
  (m.table kind).entries.map (declared kind)

/-- All members have names of one word. -/
def NamedByWords (m : Members) : Prop := ∀ kind, ∀ name ∈ (m.table kind).names, IsWord name

/-- A declaration is taken, and stores what it declares in the table that it declares it for, and nothing in the others. -/
theorem storedBy?_declared (hnames : m.NamedByWords) {kind : MemberKind} {entry : String × EntryValue}
    (h : entry ∈ (m.table kind).entries) :
    (Member.ofEntry (declared kind entry).1 (declared kind entry).2).isOk = true ∧
      ∀ other, storedBy? other (declared kind entry) = if kind = other then some entry else none := by
  obtain ⟨member, rfl, rfl⟩ := exists_member_of_mem_table h
  have hread : Member.ofEntry (declared member.kind (member.name, member.content)).1
      (declared member.kind (member.name, member.content)).2 = .ok member :=
    Member.ofEntry_declared (hnames _ _ (List.mem_map_of_mem h))
  refine ⟨by rw [hread]; rfl, fun other => ?_⟩
  rw [storedBy?, hread]
  rfl

/-- The declarations of a table store its entries there, in their order. -/
theorem filterMap_declarations (hnames : m.NamedByWords) (kind : MemberKind) :
    (m.declarations kind).filterMap (storedBy? kind) = (m.table kind).entries := by
  rw [declarations, List.filterMap_map]
  have hstored : ∀ entry ∈ (m.table kind).entries, (storedBy? kind ∘ declared kind) entry = some entry :=
    fun entry hentry => ((storedBy?_declared hnames hentry).2 kind).trans (if_pos rfl)
  rw [List.filterMap_congr hstored, List.filterMap_some]

/-- An interleaving of all declarations is taken as a definition. -/
theorem isOk_ofDefinition_of_interleaves (hnames : m.NamedByWords) {entries : List (String × EntryValue)}
    (h : Interleaves m.declarations entries) : (ofDefinition entries).isOk = true := by
  rw [ofDefinition_eq, listOfDefinition, isOk_map, isOk_mapM, List.all_eq_true]
  intro entry hentry
  obtain ⟨kind, hkind⟩ := h.exists_mem entry hentry
  obtain ⟨stored, hstored, rfl⟩ := List.mem_map.mp hkind
  exact (storedBy?_declared hnames hstored).1

/-- An interleaving of all declarations stores in each table its entries, in their order. -/
theorem stored_of_interleaves (hnames : m.NamedByWords) {entries : List (String × EntryValue)}
    (h : Interleaves m.declarations entries) (kind : MemberKind) : stored kind entries = (m.table kind).entries := by
  have hothers : ∀ other, other ≠ kind → ∀ entry ∈ m.declarations other, storedBy? kind entry = none := by
    intro other hother entry hentry
    obtain ⟨present, hpresent, rfl⟩ := List.mem_map.mp hentry
    exact ((storedBy?_declared hnames hpresent).2 kind).trans (if_neg hother)
  rw [stored, h.filterMap_eq hothers, filterMap_declarations hnames]

end Members

/-- Every set of members is declared by a definition. Take any members whose names are words, not empty and without white space,
even words that are modifiers, and even names that stand in several tables. List the members of each table in its order, each with
its content under the key that has the modifiers of the table, `function`, `static function`, `var`, `static var` or `const`, and
then the name. These five lists can be interleaved, and however they are, as long as each keeps its order, the definition is
taken and leaves the tables of the members, with all their entries in the same order. -/
theorem declarations_read_back (m : Members) (hnames : m.NamedByWords) :
    (∃ entries, Interleaves m.declarations entries) ∧
      ∀ entries, Interleaves m.declarations entries → Members.ofDefinition entries = .ok m := by
  refine ⟨Interleaves.exists_of_indices m.declarations MemberKind.mem_all, fun entries h => ?_⟩
  cases hread : Members.ofDefinition entries with
  | error refusal =>
    have htaken := Members.isOk_ofDefinition_of_interleaves hnames h
    rw [hread] at htaken
    cases htaken
  | ok m' =>
    refine congrArg Except.ok (Members.ext_table fun kind => ?_)
    rw [Members.table_ofDefinition hread, Members.stored_of_interleaves hnames h, ← OrderedMap.ofList_eq_collect,
      OrderedMap.ofList_entries]

namespace DeclarationExample

/-- Members that are named like modifiers; one name stands in three tables. -/
def members : Members :=
  .ofList [.method "static" (.named "start"), .property "static" (.bool true), .property "var" .null,
    .staticMethod "static" (.named "stop"), .constant "const" (.text "low")]

/-- Their declarations in another order. -/
def entries : List (String × EntryValue) :=
  [("var static", .data (.bool true)), ("static function static", .method (.named "stop")),
    ("const const", .data (.text "low")), ("function static", .method (.named "start")), ("var var", .data .null)]

end DeclarationExample

open DeclarationExample in
/-- The declarations in the example interleave those of the five tables, and are read as the members. -/
theorem declarations_read_back_static :
    members.NamedByWords ∧ Interleaves members.declarations entries ∧ Members.ofDefinition entries = .ok members := by
  have hnames : members.NamedByWords := by
    intro kind
    cases kind <;> decide
  have hentries : Interleaves members.declarations entries :=
    .take (k := .property) rfl (.take (k := .staticMethod) rfl (.take (k := .constant) rfl
      (.take (k := .method) rfl (.take (k := .property) rfl (.done fun kind => by cases kind <;> rfl)))))
  exact ⟨hnames, hentries, (declarations_read_back members hnames).2 entries hentries⟩

end TestDouble

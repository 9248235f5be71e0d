import TestDouble.Proofs.MethodTables.Entries

/-!
# What laxer rules for names add

Rules are laxer than others when they relax keywords, or reserve fewer words, or both. A name that was legal stays legal, for the
one word that relaxed keywords still forbid is forbidden under all rules (`LaxerThan.allowsMethod`). The winner of a name is
settled before names are dropped, so laxer rules change nothing that stands in a table: they only let in the winners of names
that were dropped before (`laxer_rules_only_add`).
-/

namespace TestDouble

/-! ## Legal names -/

namespace IdentifierRules

variable {rules lax strict : IdentifierRules} {name : String}

/-- Rules are laxer than others: they relax keywords wherever the others do, and reserve no word that the others do not. -/
structure LaxerThan (lax strict : IdentifierRules) : Prop where
  keywords : strict.relaxedKeywords = true → lax.relaxedKeywords = true
  reserved : lax.additionalReserved ⊆ strict.additionalReserved

/-- The one word that relaxed keywords forbid is forbidden under all rules, for it is a reserved word too. -/
theorem lowered_ne_of_allowsMethod (h : rules.allowsMethod name = true) :
    Text.lowered name ≠ Identifier.alwaysReserved := by
  intro hword
  have hbuiltIn : Identifier.reservedWords.contains Identifier.alwaysReserved = true := by decide
  have hreserved : rules.isReserved name = true := by rw [isReserved, hword, hbuiltIn, Bool.true_or]
  rw [allowsMethod, Bool.and_eq_true] at h
  cases hrelaxed : rules.relaxedKeywords <;> simp [hrelaxed, hword, hreserved] at h

/-- What laxer rules reserve is reserved under the stricter ones. -/
theorem LaxerThan.isReserved (h : lax.LaxerThan strict) (hreserved : lax.isReserved name = true) :
    strict.isReserved name = true := by
  rw [IdentifierRules.isReserved, Bool.or_eq_true, List.contains_iff_mem, List.contains_iff_mem] at hreserved ⊢
  exact hreserved.imp_right (fun hword => List.map_subset _ h.reserved hword)

/-- A name that is allowed for a method is allowed under laxer rules. -/
theorem LaxerThan.allowsMethod (h : lax.LaxerThan strict) (hlegal : strict.allowsMethod name = true) :
    lax.allowsMethod name = true := by
  have hword := lowered_ne_of_allowsMethod hlegal
  rw [IdentifierRules.allowsMethod, Bool.and_eq_true] at hlegal ⊢
  refine ⟨hlegal.1, ?_⟩
  cases hlax : lax.relaxedKeywords with
  | true => simpa using hword
  | false =>
    have hstrict : strict.relaxedKeywords = false := by
      cases hkeywords : strict.relaxedKeywords with
      | false => rfl
      | true => exact absurd (h.keywords hkeywords) (by simp [hlax])
    have hfree : strict.isReserved name = false := by simpa [hstrict] using hlegal.2
    have hstill : ¬lax.isReserved name = true := fun hreserved => by simp [h.isReserved hreserved] at hfree
    simpa using hstill

end IdentifierRules

/-! ## Entries -/

namespace MethodTables

open Classified

variable {rules lax strict : IdentifierRules} {c : Classified} {custom : Members} {name : String} {d : MethodDefinition}

/-- Under a name that the user does not supply stands its winner, in the table that its staticness says, exactly if the name is
open and legal. -/
theorem get?_table_eq_some_iff_of_free (rules : IdentifierRules) (c : Classified)
    (hfree : ∀ other, (custom.methodsOf other).get? name = none) (ofType : Bool) (d : MethodDefinition) :
    ((ofClassified rules c custom).table ofType).get? name = some d ↔
      c.winner? name = some d ∧ d.isStatic = ofType ∧ ¬c.Closed name ∧ rules.allowsMethod name = true := by
  rw [get?_table_of_free rules c ofType hfree, get?_declarable, ← isOpen_iff, Option.filter_eq_some_iff, beq_iff_eq]
  cases c.isOpen name <;> cases rules.allowsMethod name <;> simp

/-- What stands in a table and is not supplied by the user is the winner of its name, and the user does not supply the name. -/
theorem winner?_of_automatic {ofType : Bool} (hd : ((ofClassified rules c custom).table ofType).get? name = some d)
    (hautomatic : d.isCustom = false) :
    (∀ other, (custom.methodsOf other).get? name = none) ∧ c.winner? name = some d := by
  by_cases hfree : ∀ other, (custom.methodsOf other).get? name = none
  · exact ⟨hfree, ((get?_table_eq_some_iff_of_free rules c hfree ofType d).mp hd).1⟩
  · rw [get?_table_of_supplied rules c ofType hfree] at hd
    obtain ⟨m, -, rfl⟩ := Option.map_eq_some_iff.mp hd
    cases hautomatic

end MethodTables

open MethodTables

/-- What laxer rules do to a merge of types with custom members. Every entry stays, in its table and with its definition. The
additional entries are the winners of the open names that only the laxer rules allow and that the user supplies neither as a
method nor as a static method, each in the table that its staticness says. The bodies of the mixins and the names closed to
automatic methods stay. -/
structure OnlyAdds (strict lax : IdentifierRules) (c : Classified) (custom : Members) (old new : Merged) : Prop where
  kept : ∀ ofType name d, (old.tables.table ofType).get? name = some d → (new.tables.table ofType).get? name = some d
  added : ∀ ofType name d,
    ((new.tables.table ofType).get? name = some d ∧ (old.tables.table ofType).get? name ≠ some d) ↔
      c.winner? name = some d ∧ d.isStatic = ofType ∧ ¬c.Closed name ∧
        strict.allowsMethod name = false ∧ lax.allowsMethod name = true ∧
        custom.methods.get? name = none ∧ custom.staticMethods.get? name = none
  mixinBodies : new.tables.mixinBodies = old.tables.mixinBodies
  unmockable : new.unmockable = old.unmockable

/-- The user does not supply a name exactly when neither of the two maps of methods has it. -/
theorem Members.forall_methodsOf_iff (custom : Members) (name : String) :
    (∀ other, (custom.methodsOf other).get? name = none) ↔
      custom.methods.get? name = none ∧ custom.staticMethods.get? name = none := by
  rw [Bool.forall_bool]
  rfl

/-- A merge under laxer rules. -/
theorem IdentifierRules.LaxerThan.onlyAdds {lax strict : IdentifierRules} (h : lax.LaxerThan strict) (c : Classified)
    (custom : Members) :
    OnlyAdds strict lax c custom (Merged.ofClassified strict c custom) (Merged.ofClassified lax c custom) where
  kept := by
    intro ofType name d hd
    by_cases hfree : ∀ other, (custom.methodsOf other).get? name = none
    · obtain ⟨hwinner, hplaced, hopen, hlegal⟩ := (get?_table_eq_some_iff_of_free strict c hfree ofType d).mp hd
      exact (get?_table_eq_some_iff_of_free lax c hfree ofType d).mpr ⟨hwinner, hplaced, hopen, h.allowsMethod hlegal⟩
    · exact (get?_table_of_supplied lax c ofType hfree).trans ((get?_table_of_supplied strict c ofType hfree).symm.trans hd)
  added := by
    intro ofType name d
    rw [← custom.forall_methodsOf_iff]
    by_cases hfree : ∀ other, (custom.methodsOf other).get? name = none
    · have hnew := get?_table_eq_some_iff_of_free lax c hfree ofType d
      have hold := get?_table_eq_some_iff_of_free strict c hfree ofType d
      constructor
      · rintro ⟨hd, hadded⟩
        obtain ⟨hwinner, hplaced, hopen, hlegal⟩ := hnew.mp hd
        refine ⟨hwinner, hplaced, hopen, Bool.eq_false_iff.mpr fun hbefore => ?_, hlegal, hfree⟩
        exact hadded (hold.mpr ⟨hwinner, hplaced, hopen, hbefore⟩)
      · rintro ⟨hwinner, hplaced, hopen, hillegal, hlegal, -⟩
        refine ⟨hnew.mpr ⟨hwinner, hplaced, hopen, hlegal⟩, fun hd => ?_⟩
        rw [(hold.mp hd).2.2.2] at hillegal
        cases hillegal
    · have hsame := (get?_table_of_supplied lax c ofType hfree).trans (get?_table_of_supplied strict c ofType hfree).symm
      exact iff_of_false (fun hadded => hadded.2 (hsame.symm.trans hadded.1)) (fun hadded => hfree hadded.2.2.2.2.2)
  mixinBodies := (mixinBodies_ofClassified lax c custom).trans (mixinBodies_ofClassified strict c custom).symm
  unmockable := rfl

/-- Laxer rules only add automatic entries. Take rules for names and laxer ones: keywords are relaxed, or fewer words are reserved,
or both. Every name that was allowed for a method is still allowed. In the tables of a merge every entry stays, in its table and
with its definition; the additional entries are the winners of the open names that only the laxer rules allow and that the user
supplies neither as a method nor as a static method; the bodies of the mixins and the names closed to automatic methods are the
same. Whatever the rules, an automatic entry is the winner of its name, which no rule has a say in. -/
theorem laxer_rules_only_add (strict lax : IdentifierRules) (h : lax.LaxerThan strict) (c : Classified) (custom : Members) :
    (∀ name, strict.allowsMethod name = true → lax.allowsMethod name = true) ∧
      OnlyAdds strict lax c custom (Merged.ofClassified strict c custom) (Merged.ofClassified lax c custom) ∧
      ∀ rules ofType name d, ((Merged.ofClassified rules c custom).tables.table ofType).get? name = some d →
        d.isCustom = false → c.winner? name = some d :=
  ⟨fun _ => h.allowsMethod, h.onlyAdds c custom, fun _ _ _ _ hd hautomatic => (winner?_of_automatic hd hautomatic).2⟩

namespace LaxerExample

/-- A base with a static method of a reserved name, and a mixin and a capability that declare another reserved name. -/
def types : Classified where
  base := some
    { name := "Animal", kind := .extensible, methods := [{ name := "speak" }, { name := "new", isStatic := true }] }
  capabilities := [{ name := "Listing", kind := .capability, methods := [{ name := "list" }, { name := "count" }] }]
  mixins := [{ name := "Loud", kind := .mixin, methods := [{ name := "list" }] }]

/-- One custom method, of the reserved name of the base. -/
def custom : Members := { methods := OrderedMap.ofList [("new", {})] }

/-- Rules that reserve one more word. -/
def strict : IdentifierRules := { additionalReserved := ["count"] }

/-- Rules that relax keywords and reserve no further word. -/
def lax : IdentifierRules := { relaxedKeywords := true }

end LaxerExample

open LaxerExample in
/-- The laxer rules let in the method of the mixin, which wins over the capability, and the word that was reserved on top. The
static method of the base is not let in, for the user supplies its name. -/
theorem laxer_rules_only_add_list :
    let old := (Merged.ofClassified strict types custom).tables
    let new := (Merged.ofClassified lax types custom).tables
    let list : MethodDefinition := .mixinDefault { name := "list" } "Loud"
    let count : MethodDefinition := .contract { name := "count" } "Listing"
    let speak : MethodDefinition := .inherited { name := "speak" } "Animal"
    lax.LaxerThan strict ∧
      (new.table false).get? "list" = some list ∧ (old.table false).get? "list" ≠ some list ∧
      (new.table false).get? "count" = some count ∧ (old.table false).get? "count" ≠ some count ∧
      (new.table false).get? "speak" = some speak ∧ (new.table true).get? "new" = none := by
  intro old new list count speak
  have hlaxer : lax.LaxerThan strict := ⟨fun _ => rfl, nofun⟩
  have hopen (name : String) (h : types.isOpen name = true) : ¬types.Closed name := (types.isOpen_iff name).mp h
  obtain ⟨-, hadds, -⟩ := laxer_rules_only_add strict lax hlaxer types custom
  have hlist := (hadds.added false "list" list).mpr
    ⟨by decide, rfl, hopen "list" (by decide), by decide +kernel, by decide +kernel, by decide, by decide⟩
  have hcount := (hadds.added false "count" count).mpr
    ⟨by decide, rfl, hopen "count" (by decide), by decide +kernel, by decide +kernel, by decide, by decide⟩
  have hspeak := hadds.kept false "speak" speak (by decide +kernel)
  exact ⟨hlaxer, hlist.1, hlist.2, hcount.1, hcount.2, hspeak, by decide +kernel⟩

end TestDouble

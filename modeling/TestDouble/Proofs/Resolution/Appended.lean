import TestDouble.Proofs.MethodTables.Entries
import TestDouble.Resolution

/-!
# One more type at the end

A type that is listed last is the weakest of its kind. A capability only adds contracts under names that were in neither table
(`CapabilityAppended`). A mixin comes before the capabilities, so it may also take a name over from a contract, and with the name
its table may change; nothing else is disturbed (`MixinAppended`). A request that resolves still resolves with either, under
another fingerprint (`appended_type_disturbs_nothing`).
-/

namespace TestDouble

open SourceType

/-- Whether a definition is the contract of a capability. -/
def MethodDefinition.isContract : MethodDefinition → Bool
  | .contract _ _ => true
  | _ => false

/-- The request with one more type at the end. -/
def Request.append (r : Request) (t : SourceType) : Request := ofTypes (r.types ++ [t]) r.members r.typeName

namespace Classified

/-- The types with one more capability at the end. -/
def withCapability (c : Classified) (t : SourceType) : Classified := { c with capabilities := c.capabilities ++ [t] }

/-- The types with one more mixin at the end. -/
def withMixin (c : Classified) (t : SourceType) : Classified := { c with mixins := c.mixins ++ [t] }

/-! ## Winners -/

/-- What a type has to offer under a name. -/
def offer (define : Method → String → MethodDefinition) (t : SourceType) (name : String) : Option MethodDefinition :=
  (t.firstMethod? name).map (fun m => define m t.name)

/-- What a type has to offer is its first visible method of the name. -/
theorem offer_eq_some_iff (define : Method → String → MethodDefinition) (t : SourceType) (name : String)
    (d : MethodDefinition) : offer define t name = some d ↔ ∃ m, t.firstMethod? name = some m ∧ d = define m t.name := by
  rw [offer, Option.map_eq_some_iff]
  simp only [eq_comm]

/-- A type at the end counts where no other has something to offer. -/
theorem firstWinner?_append (define : Method → String → MethodDefinition) (types : List SourceType) (t : SourceType)
    (name : String) :
    firstWinner? define (types ++ [t]) name = (firstWinner? define types name).or (offer define t name) := by
  rw [firstWinner?, List.findSome?_append, List.findSome?_singleton]
  rfl

/-- A capability at the end wins the names that nothing has won. -/
theorem winner?_withCapability (c : Classified) (t : SourceType) (name : String) :
    (c.withCapability t).winner? name = (c.winner? name).or (offer .contract t name) := by
  have hstep : (c.withCapability t).winner? name =
      ((c.baseWinner? name).or (firstWinner? .mixinDefault c.mixins name)).or
        (firstWinner? .contract (c.capabilities ++ [t]) name) := rfl
  rw [hstep, firstWinner?_append, ← Option.or_assoc]
  rfl

/-- A mixin at the end wins the names that nothing has won, and those that a contract has won. -/
theorem winner?_withMixin (c : Classified) (t : SourceType) (name : String) :
    (c.withMixin t).winner? name =
      if (c.winner? name).all (fun d => d.isContract) then (offer .mixinDefault t name).or (c.winner? name)
      else c.winner? name := by
  have hstep : (c.withMixin t).winner? name =
      ((c.baseWinner? name).or (firstWinner? .mixinDefault (c.mixins ++ [t]) name)).or
        (firstWinner? .contract c.capabilities name) := rfl
  rw [hstep, firstWinner?_append, ← Option.or_assoc, winner?]
  cases hbody : (c.baseWinner? name).or (firstWinner? .mixinDefault c.mixins name) with
  | some d =>
    have hcontract : d.isContract = false := by
      rcases Option.or_eq_some_iff.mp hbody with hbase | ⟨-, hmixin⟩
      · obtain ⟨-, -, m, -, -, rfl⟩ := exists_of_baseWinner? hbase
        rfl
      · obtain ⟨u, -, m, -, -, rfl⟩ := exists_of_firstWinner? hmixin
        rfl
    simp [hcontract]
  | none =>
    have hcontract : (firstWinner? .contract c.capabilities name).all (fun d => d.isContract) = true := by
      rw [Option.all_eq_true]
      intro d hd
      obtain ⟨u, -, m, -, -, rfl⟩ := exists_of_firstWinner? hd
      rfl
    simp [hcontract]

end Classified

open Classified

namespace MethodTables

/-! ## Automatic methods -/

/-- A capability at the end adds automatic methods under open and legal names that have none. -/
theorem get?_declarable_withCapability (rules : IdentifierRules) (c : Classified) (t : SourceType) (name : String) :
    (declarable rules (c.withCapability t)).get? name =
      ((declarable rules c).get? name).or
        (if c.isOpen name && rules.allowsMethod name then offer .contract t name else none) := by
  have hopen : (c.withCapability t).isOpen name = c.isOpen name := rfl
  rw [get?_declarable, get?_declarable, hopen, winner?_withCapability]
  split <;> rfl

/-- A mixin at the end leaves automatic methods that are no contracts. -/
theorem get?_declarable_withMixin (rules : IdentifierRules) (c : Classified) (t : SourceType) (name : String) :
    (declarable rules (c.withMixin t)).get? name =
      if ((declarable rules c).get? name).all (fun d => d.isContract) then
        (if c.isOpen name && rules.allowsMethod name then offer .mixinDefault t name else none).or
          ((declarable rules c).get? name)
      else (declarable rules c).get? name := by
  have hopen : (c.withMixin t).isOpen name = c.isOpen name := rfl
  rw [get?_declarable, get?_declarable, hopen, winner?_withMixin]
  cases c.isOpen name && rules.allowsMethod name <;> rfl

/-! ## Names in neither table -/

/-- Where one type more is all that automatic methods gain under a name in neither table, what is new under the name is its
offer. -/
theorem get?_table_of_new {rules : IdentifierRules} {c c' : Classified} {custom : Members} {name : String}
    {define : Method → String → MethodDefinition} {t : SourceType}
    (hstatic : ∀ m, (define m t.name).isStatic = m.isStatic)
    (hnone : ∀ other, ((ofClassified rules c custom).table other).get? name = none)
    (hgain : (declarable rules c).get? name = none → (declarable rules c').get? name =
      if c.isOpen name && rules.allowsMethod name then offer define t name else none)
    (ofType : Bool) (d : MethodDefinition) :
    ((ofClassified rules c' custom).table ofType).get? name = some d ↔
      rules.allowsMethod name = true ∧ name ∉ c.unmockable.names ∧
        ∃ m, t.firstMethod? name = some m ∧ m.isStatic = ofType ∧ d = define m t.name := by
  obtain ⟨hfree, hautomatic⟩ := (forall_get?_eq_none_iff rules c custom name).mp hnone
  rw [get?_table_of_free rules c' ofType hfree, hgain hautomatic, mem_unmockable_iff, ← isOpen_iff]
  cases c.isOpen name with
  | false => simp
  | true =>
    cases rules.allowsMethod name with
    | false => simp
    | true =>
      simp only [Bool.and_self, if_true, true_and, Option.filter_eq_some_iff, offer_eq_some_iff, beq_iff_eq]
      constructor
      · rintro ⟨⟨m, hm, rfl⟩, hplaced⟩
        exact ⟨m, hm, (hstatic m).symm.trans hplaced, rfl⟩
      · rintro ⟨m, hm, hplaced, rfl⟩
        exact ⟨⟨m, hm, rfl⟩, (hstatic m).trans hplaced⟩

end MethodTables

/-! ## A capability at the end -/

/-- What a capability that is listed last does to a resolution. Every entry of a table stays. The new entries are the contracts
of its first visible methods of the legal and open names that are in neither table. The bodies of the mixins and the names
closed to automatic methods stay. -/
structure CapabilityAppended (rules : IdentifierRules) (t : SourceType) (old new : Resolution) : Prop where
  kept : ∀ ofType name d, (old.tables.table ofType).get? name = some d → (new.tables.table ofType).get? name = some d
  added : ∀ ofType name d, (old.tables.table ofType).get? name = none →
    ((new.tables.table ofType).get? name = some d ↔
      (∀ other, (old.tables.table other).get? name = none) ∧ rules.allowsMethod name = true ∧
        name ∉ old.unmockable.names ∧ ∃ m, t.firstMethod? name = some m ∧ m.isStatic = ofType ∧ d = .contract m t.name)
  mixinBodies : new.tables.mixinBodies = old.tables.mixinBodies
  unmockable : new.unmockable = old.unmockable

open MethodTables

/-- Under a name that is in one of the tables a capability at the end changes nothing. -/
theorem MethodTables.get?_table_withCapability {rules : IdentifierRules} {c : Classified} {custom : Members} {name : String}
    (t : SourceType) (h : ¬∀ other, ((ofClassified rules c custom).table other).get? name = none) (ofType : Bool) :
    ((ofClassified rules (c.withCapability t) custom).table ofType).get? name =
      ((ofClassified rules c custom).table ofType).get? name := by
  by_cases hfree : ∀ other, (custom.methodsOf other).get? name = none
  · rw [get?_table_of_free rules c ofType hfree, get?_table_of_free rules _ ofType hfree, get?_declarable_withCapability]
    cases hd : (declarable rules c).get? name with
    | none => exact absurd ((forall_get?_eq_none_iff rules c custom name).mpr ⟨hfree, hd⟩) h
    | some d => rfl
  · rw [get?_table_of_supplied rules c ofType hfree, get?_table_of_supplied rules _ ofType hfree]

/-- A capability at the end of the types of a merge. -/
theorem capabilityAppended (rules : IdentifierRules) (c : Classified) (r : Request) (t : SourceType) :
    CapabilityAppended rules t (Resolution.ofClassified rules c r)
      (Resolution.ofClassified rules (c.withCapability t) (r.append t)) := by
  have hold : (Resolution.ofClassified rules c r).tables = MethodTables.ofClassified rules c r.members := rfl
  have hnew : (Resolution.ofClassified rules (c.withCapability t) (r.append t)).tables =
      MethodTables.ofClassified rules (c.withCapability t) r.members := rfl
  refine ⟨fun ofType name d hd => ?_, fun ofType name d hnone => ?_, ?_, rfl⟩
  · rw [hold] at hd
    rw [hnew, get?_table_withCapability t (fun hall => by simp [hall] at hd), hd]
  · rw [hold] at hnone ⊢
    rw [hnew]
    by_cases hall : ∀ other, ((MethodTables.ofClassified rules c r.members).table other).get? name = none
    · have hgain : (declarable rules c).get? name = none →
          (declarable rules (c.withCapability t)).get? name =
            if c.isOpen name && rules.allowsMethod name then offer .contract t name else none := by
        intro hautomatic
        rw [get?_declarable_withCapability, hautomatic, Option.none_or]
      rw [get?_table_of_new (fun _ => rfl) hall hgain, and_iff_right hall]
      rfl
    · rw [get?_table_withCapability t hall, hnone]
      exact iff_of_false (by simp) (fun h => hall h.1)
  · rw [hold, hnew, mixinBodies_ofClassified, mixinBodies_ofClassified]
    rfl

/-! ## A mixin at the end -/

/-- What a mixin that is listed last does to a resolution. Every entry that is no contract stays, and a name of one of the
tables is still a name of one of them. An entry that changes is a contract whose name the mixin declares; the default of the
mixin then has the name, in the table that its staticness says and not in the other one. Under a name that is in neither table
the new entries are the defaults of its first visible methods of the legal and open names. The bodies of the mixins grow at the
end only, and the names closed to automatic methods stay. -/
structure MixinAppended (rules : IdentifierRules) (t : SourceType) (old new : Resolution) : Prop where
  kept : ∀ ofType name d, (old.tables.table ofType).get? name = some d → d.isContract = false →
    (new.tables.table ofType).get? name = some d
  present : ∀ name, (∃ ofType d, (old.tables.table ofType).get? name = some d) →
    ∃ ofType d, (new.tables.table ofType).get? name = some d
  changed : ∀ ofType name d, (old.tables.table ofType).get? name = some d → (new.tables.table ofType).get? name ≠ some d →
    d.isContract = true ∧ ∃ m, t.firstMethod? name = some m ∧
      (new.tables.table m.isStatic).get? name = some (.mixinDefault m t.name) ∧
        (new.tables.table !m.isStatic).get? name = none
  added : ∀ ofType name d, (∀ other, (old.tables.table other).get? name = none) →
    ((new.tables.table ofType).get? name = some d ↔
      rules.allowsMethod name = true ∧ name ∉ old.unmockable.names ∧
        ∃ m, t.firstMethod? name = some m ∧ m.isStatic = ofType ∧ d = .mixinDefault m t.name)
  mixinBodies : old.tables.mixinBodies <+: new.tables.mixinBodies
  unmockable : new.unmockable = old.unmockable

/-- Under a name that is in one of the tables a mixin at the end changes nothing, or it takes the name over from a contract. -/
theorem MethodTables.withMixin_cases {rules : IdentifierRules} {c : Classified} {custom : Members} {name : String}
    (t : SourceType) (h : ¬∀ other, ((ofClassified rules c custom).table other).get? name = none) :
    (∀ ofType, ((ofClassified rules (c.withMixin t) custom).table ofType).get? name =
        ((ofClassified rules c custom).table ofType).get? name) ∨
      ∃ d m, d.isContract = true ∧ t.firstMethod? name = some m ∧
        (∀ ofType, ((ofClassified rules c custom).table ofType).get? name = if d.isStatic = ofType then some d else none) ∧
          ∀ ofType, ((ofClassified rules (c.withMixin t) custom).table ofType).get? name =
            if m.isStatic = ofType then some (.mixinDefault m t.name) else none := by
  by_cases hfree : ∀ other, (custom.methodsOf other).get? name = none
  · cases hd : (declarable rules c).get? name with
    | none => exact absurd ((forall_get?_eq_none_iff rules c custom name).mpr ⟨hfree, hd⟩) h
    | some d =>
      have hdeclarable := get?_declarable_withMixin rules c t name
      have hlegal : (c.isOpen name && rules.allowsMethod name) = true := by
        rw [get?_declarable] at hd
        split at hd
        · assumption
        · cases hd
      rw [hd, hlegal, if_pos rfl, Option.all_some] at hdeclarable
      cases hcontract : d.isContract with
      | false =>
        refine .inl fun ofType => ?_
        rw [get?_table_of_free rules _ ofType hfree, get?_table_of_free rules _ ofType hfree, hdeclarable, hcontract, hd]
        rfl
      | true =>
        cases hm : t.firstMethod? name with
        | none =>
          refine .inl fun ofType => ?_
          rw [get?_table_of_free rules _ ofType hfree, get?_table_of_free rules _ ofType hfree, hdeclarable, hcontract, hd,
            offer, hm]
          rfl
        | some m =>
          refine .inr ⟨d, m, hcontract, rfl, fun ofType => ?_, fun ofType => ?_⟩
          · rw [get?_table_of_free rules _ ofType hfree, hd, Option.filter_some]
            simp only [beq_iff_eq]
          · rw [get?_table_of_free rules _ ofType hfree, hdeclarable, hcontract, if_pos rfl, offer, hm, Option.map_some,
              Option.some_or, Option.filter_some]
            simp only [MethodDefinition.isStatic, beq_iff_eq]
  · refine .inl fun ofType => ?_
    rw [get?_table_of_supplied rules c ofType hfree, get?_table_of_supplied rules _ ofType hfree]

/-- A mixin at the end of the types of a merge. -/
theorem mixinAppended (rules : IdentifierRules) (c : Classified) (r : Request) (t : SourceType) :
    MixinAppended rules t (Resolution.ofClassified rules c r)
      (Resolution.ofClassified rules (c.withMixin t) (r.append t)) := by
  have hold : (Resolution.ofClassified rules c r).tables = MethodTables.ofClassified rules c r.members := rfl
  have hnew : (Resolution.ofClassified rules (c.withMixin t) (r.append t)).tables =
      MethodTables.ofClassified rules (c.withMixin t) r.members := rfl
  have hlisted {ofType : Bool} {name : String} {d : MethodDefinition}
      (hd : ((MethodTables.ofClassified rules c r.members).table ofType).get? name = some d) :
      ¬∀ other, ((MethodTables.ofClassified rules c r.members).table other).get? name = none :=
    fun hall => by simp [hall] at hd
  refine ⟨fun ofType name d hd hcontract => ?_, fun name hd => ?_, fun ofType name d hd hchanged => ?_,
    fun ofType name d hall => ?_, ?_, rfl⟩
  · rw [hold] at hd
    rw [hnew]
    rcases withMixin_cases t (hlisted hd) with hsame | ⟨d', m, hcontract', -, hbefore, -⟩
    · rw [hsame, hd]
    · rw [hbefore] at hd
      split at hd
      · rw [← Option.some.inj hd, hcontract'] at hcontract
        cases hcontract
      · cases hd
  · obtain ⟨ofType, d, hd⟩ := hd
    rw [hold] at hd
    rw [hnew]
    rcases withMixin_cases t (hlisted hd) with hsame | ⟨d', m, -, -, -, hafter⟩
    · exact ⟨ofType, d, by rw [hsame, hd]⟩
    · exact ⟨m.isStatic, _, by rw [hafter, if_pos rfl]⟩
  · rw [hold] at hd
    rw [hnew] at hchanged ⊢
    rcases withMixin_cases t (hlisted hd) with hsame | ⟨d', m, hcontract', hm, hbefore, hafter⟩
    · exact absurd ((hsame ofType).trans hd) hchanged
    · rw [hbefore] at hd
      split at hd
      · refine ⟨Option.some.inj hd ▸ hcontract', m, hm, by rw [hafter, if_pos rfl], ?_⟩
        rw [hafter, if_neg (by simp)]
      · cases hd
  · rw [hold] at hall
    rw [hnew]
    have hgain : (declarable rules c).get? name = none →
        (declarable rules (c.withMixin t)).get? name =
          if c.isOpen name && rules.allowsMethod name then offer .mixinDefault t name else none := by
      intro hautomatic
      rw [get?_declarable_withMixin, hautomatic, Option.all_none, if_pos rfl, Option.or_none]
    rw [get?_table_of_new (fun _ => rfl) hall hgain]
    rfl
  · rw [hold, hnew, mixinBodies_ofClassified, mixinBodies_ofClassified]
    have hbodies : (c.withMixin t).mixinBodies = (c.mixins ++ [t]).flatMap
        (fun u => (u.visibleMethods.filter (fun m => !m.isAbstract)).map (fun m => .mixinDefault m u.name)) := rfl
    rw [hbodies, List.flatMap_append]
    exact List.prefix_append _ _

/-! ## Requests -/

/-- A type of a new name at the end is one more type to place. -/
theorem Request.ofTypes_append {r : Request} {t : SourceType} (hname : t.name ∉ r.typeNames) :
    (r.append t).types = r.types ++ [t] := by
  have hdistinct : ((r.types ++ [t]).map (·.name)).Nodup := by
    rw [List.map_append, List.nodup_append]
    refine ⟨r.distinct, by simp, fun a ha b hb hab => ?_⟩
    rw [List.map_cons, List.map_nil, List.mem_singleton] at hb
    exact hname (hb ▸ hab ▸ ha)
  exact distinct_eq_self hdistinct

/-- A type of a new name at the end is placed behind the others. -/
theorem Classified.ofTypes_append {r : Request} {t : SourceType} {c : Classified} (hname : t.name ∉ r.typeNames)
    (hc : Classified.ofTypes r.types = .ok c) : Classified.ofTypes (r.append t).types = c.add t := by
  have hdistinct : distinct (r.append t).types = r.types ++ [t] := by
    rw [distinct_eq_self (r.append t).distinct, Request.ofTypes_append hname]
  rw [ofTypes, distinct_eq_self r.distinct] at hc
  rw [ofTypes, hdistinct, List.foldlM_append, hc]
  exact bind_pure (c.add t)

/-- The fingerprint of a request changes when a type of a new name comes behind the others. -/
theorem Fingerprint.ofRequest_append_ne {r : Request} {t : SourceType} (hname : t.name ∉ r.typeNames) :
    Fingerprint.ofRequest (r.append t) ≠ Fingerprint.ofRequest r := by
  intro h
  have htypes : (r.append t).typeNames = r.typeNames := congrArg Fingerprint.types h
  rw [Request.typeNames, Request.ofTypes_append hname, List.map_append] at htypes
  have hlength := congrArg List.length htypes
  simp [Request.typeNames] at hlength

/-- A type added at the end never disturbs stronger entries. Take any rules for names, any request that resolves and any type of
a new name, and list the type last. If it is a capability or a mixin the request still resolves, with another fingerprint, and
its resolution is the old one but for what `CapabilityAppended` and `MixinAppended` say. -/
theorem appended_type_disturbs_nothing (rules : IdentifierRules) (r : Request) (t : SourceType) (old : Resolution)
    (hold : Resolution.ofRequest rules r = .ok old) (hname : t.name ∉ r.typeNames) :
    (t.kind = .capability → ∃ new, Resolution.ofRequest rules (r.append t) = .ok new ∧
      CapabilityAppended rules t old new ∧ new.fingerprint ≠ old.fingerprint) ∧
    (t.kind = .mixin → ∃ new, Resolution.ofRequest rules (r.append t) = .ok new ∧
      MixinAppended rules t old new ∧ new.fingerprint ≠ old.fingerprint) := by
  obtain ⟨c, hc, rfl⟩ : ∃ c, Classified.ofTypes r.types = .ok c ∧ Resolution.ofClassified rules c r = old := by
    rw [Resolution.ofRequest] at hold
    cases hc : Classified.ofTypes r.types with
    | error refusal =>
      rw [hc] at hold
      cases hold
    | ok c =>
      rw [hc] at hold
      exact ⟨c, rfl, Except.ok.inj hold⟩
  have hplaced := Classified.ofTypes_append hname hc
  have hfingerprint := Fingerprint.ofRequest_append_ne hname
  constructor
  · intro hkind
    have hadd : c.add t = .ok (c.withCapability t) := by rw [Classified.add, hkind]; rfl
    refine ⟨Resolution.ofClassified rules (c.withCapability t) (r.append t), ?_,
      capabilityAppended rules c r t, hfingerprint⟩
    rw [Resolution.ofRequest, hplaced, hadd]
    rfl
  · intro hkind
    have hadd : c.add t = .ok (c.withMixin t) := by rw [Classified.add, hkind]; rfl
    refine ⟨Resolution.ofClassified rules (c.withMixin t) (r.append t), ?_,
      mixinAppended rules c r t, hfingerprint⟩
    rw [Resolution.ofRequest, hplaced, hadd]
    rfl

namespace AppendedExample

/-- A base and a capability. -/
def types : Classified where
  base := some { name := "Animal", kind := .extensible, methods := [{ name := "speak" }, { name := "id", isFinal := true }] }
  capabilities := [{ name := "Jumping", kind := .capability, methods := [{ name := "jump" }] }]

/-- A request for a base and a capability, with a custom method. -/
def request : Request :=
  Request.ofTypes (types.base.toList ++ types.capabilities) { methods := OrderedMap.ofList [("stop", {})] } none

/-- A capability that asks for names of all sorts. -/
def running : SourceType where
  name := "Running"
  kind := .capability
  methods := [{ name := "run", visibility := .isPrivate }, { name := "run", isStatic := true }, { name := "jump" },
    { name := "stop" }, { name := "id" }]

/-- A mixin that turns the contract of the capability into a static method. -/
def springy : SourceType where
  name := "Springy"
  kind := .mixin
  methods := [{ name := "jump", isStatic := true }, { name := "leap" }, { name := "speak" }]

end AppendedExample

open AppendedExample in
/-- A capability and a mixin behind a base and a capability: the contract and the method of the base are not disturbed, and both
types add the names that are in no table. -/
theorem appended_type_disturbs_nothing_run :
    Resolution.ofRequest {} request = .ok (Resolution.ofClassified {} types request) ∧
      running.name ∉ request.typeNames ∧ springy.name ∉ request.typeNames ∧
      (∃ new, Resolution.ofRequest {} (request.append running) = .ok new ∧
        (new.tables.table false).get? "jump" = some (.contract { name := "jump" } "Jumping") ∧
        (new.tables.table true).get? "run" = some (.contract { name := "run", isStatic := true } "Running") ∧
        new.fingerprint ≠ (Resolution.ofClassified {} types request).fingerprint) ∧
      ∃ new, Resolution.ofRequest {} (request.append springy) = .ok new ∧
        (new.tables.table false).get? "speak" = some (.inherited { name := "speak" } "Animal") ∧
        (new.tables.table false).get? "leap" = some (.mixinDefault { name := "leap" } "Springy") ∧
        new.fingerprint ≠ (Resolution.ofClassified {} types request).fingerprint := by
  have hold : Resolution.ofRequest {} request = .ok (Resolution.ofClassified {} types request) := rfl
  have hrunning : running.name ∉ request.typeNames := by decide
  have hspringy : springy.name ∉ request.typeNames := by decide
  obtain ⟨new, hnew, hcapability, hdiffers⟩ := (appended_type_disturbs_nothing {} request running _ hold hrunning).1 rfl
  obtain ⟨new', hnew', hmixin, hdiffers'⟩ := (appended_type_disturbs_nothing {} request springy _ hold hspringy).2 rfl
  have hjump := hcapability.kept false "jump" (.contract { name := "jump" } "Jumping") (by decide +kernel)
  have hrun := (hcapability.added true "run" (.contract { name := "run", isStatic := true } "Running")
    (by decide +kernel)).mpr ⟨by decide +kernel, by decide +kernel, by decide, _, rfl, rfl, rfl⟩
  have hspeak := hmixin.kept false "speak" (.inherited { name := "speak" } "Animal") (by decide +kernel) rfl
  have hleap := (hmixin.added false "leap" (.mixinDefault { name := "leap" } "Springy") (by decide +kernel)).mpr
    ⟨by decide +kernel, by decide, _, rfl, rfl, rfl⟩
  exact ⟨hold, hrunning, hspringy, ⟨new, hnew, hjump, hrun, hdiffers⟩, new', hnew', hspeak, hleap, hdiffers'⟩

end TestDouble

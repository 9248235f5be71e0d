import Mathlib.Data.List.Find
import TestDouble.Proofs.Builder.AddedTypes
import TestDouble.Proofs.Registry.OwnName

/-!
# Types that are added by reference

References are resolved to the types that they mean, each once, where it is referred to first; a reference that means none is
refused (`Registry.resolve_eq_error_iff`). In a registry every type stands under its own name, so the types that references mean
agree with each other (`Registry.Mean.agree`), and a builder that drops the repeated ones itself finds the same conflict and
the same place for each. Adding types by reference is therefore adding the types that are meant (`references_mean_types`).
-/

namespace TestDouble

open SourceType Registry

namespace Registry

variable {r : Registry} {references : List String} {meant : List SourceType}

/-! ## Which references are resolved -/

/-- A reference is contained exactly when it means a type. -/
theorem contains_eq_isSome_get? (r : Registry) (reference : String) : r.contains reference = (r.get? reference).isSome :=
  OrderedMap.contains_eq_isSome _ _

/-- A reference that is contained is found. -/
theorem isOk_find (r : Registry) (reference : String) : (r.find reference).isOk = r.contains reference := by
  rw [contains_eq_isSome_get?, find]
  cases r.get? reference <;> rfl

/-- A reference that is not contained is refused as it is written. -/
theorem find_eq_error_iff (r : Registry) (reference : String) (refusal : Refusal) :
    r.find reference = .error refusal ↔ r.contains reference = false ∧ refusal = .unknownType reference := by
  rw [contains_eq_isSome_get?, find]
  cases r.get? reference with
  | none => simp [eq_comm]
  | some t => simp

/-- References are resolved exactly when all of them are contained. -/
theorem isOk_resolve_iff (r : Registry) (references : List String) :
    (r.resolve references).isOk = true ↔ ∀ reference ∈ references, r.contains reference = true := by
  rw [resolve, isOk_map, isOk_mapM, List.all_eq_true]
  simp only [isOk_find]

/-- References are refused exactly for the first one that is not contained. -/
theorem resolve_eq_error_iff (r : Registry) (references : List String) (refusal : Refusal) :
    r.resolve references = .error refusal ↔
      ∃ before reference after, references = before ++ reference :: after ∧
        (∀ earlier ∈ before, r.contains earlier = true) ∧ r.contains reference = false ∧
          refusal = .unknownType reference := by
  rw [resolve, map_eq_error_iff, mapM_eq_error_iff]
  simp only [isOk_find, find_eq_error_iff]

/-! ## What references mean -/

/-- References mean types, one each, in their order and as often as they are listed. -/
def Mean (r : Registry) (references : List String) (meant : List SourceType) : Prop :=
  references.map r.get? = meant.map some

/-- References that are contained mean types. -/
theorem exists_mean (h : ∀ reference ∈ references, r.contains reference = true) : ∃ meant, r.Mean references meant := by
  induction references with
  | nil => exact ⟨[], rfl⟩
  | cons reference rest ih =>
    obtain ⟨hfirst, hrest⟩ := List.forall_mem_cons.mp h
    rw [contains_eq_isSome_get?, Option.isSome_iff_exists] at hfirst
    obtain ⟨t, ht⟩ := hfirst
    obtain ⟨types, htypes⟩ := ih hrest
    exact ⟨t :: types, congrArg₂ List.cons ht htypes⟩

/-- A type that references mean is what one of them means. -/
theorem Mean.exists_reference (h : r.Mean references meant) {t : SourceType} (ht : t ∈ meant) :
    ∃ reference ∈ references, r.get? reference = some t := by
  have hlisted : some t ∈ references.map r.get? := h ▸ List.mem_map_of_mem ht
  exact List.mem_map.mp hlisted

/-- References that mean types are resolved to these, each once. -/
theorem Mean.resolve_eq (h : r.Mean references meant) : r.resolve references = .ok (distinct meant) := by
  have hknown : ∀ reference ∈ references, r.get? reference ≠ none := by
    intro reference hreference hnone
    have hlisted : none ∈ meant.map some := h ▸ hnone ▸ List.mem_map_of_mem hreference
    simp at hlisted
  have hmeant : references.filterMap r.get? = meant := by
    calc
      references.filterMap r.get? = (references.map r.get?).filterMap id := by rw [List.filterMap_map]; rfl
      _ = meant := by rw [h, List.filterMap_map]; exact List.filterMap_some
  rw [resolve_of_known hknown, hmeant]

section Registered

variable {registered : List SourceType} (hr : Registered registered r)

include hr

/-- In a registry that has come about by registrations, a type that is meant is the one registered last under its name. -/
theorem Mean.lastNamed? (h : r.Mean references meant) {t : SourceType} (ht : t ∈ meant) :
    lastNamed? registered t.name = some t := by
  obtain ⟨reference, -, hget⟩ := h.exists_reference ht
  rw [hr.eq_ofList, get?_ofList] at hget
  rw [name_of_lastNamed? hget, hget]

/-- The types that references mean agree. -/
theorem Mean.agree (h : r.Mean references meant) : Agree meant := by
  intro t ht other hother hname
  have hlast := h.lastNamed? hr ht
  rw [hname, h.lastNamed? hr hother] at hlast
  exact (Option.some.inj hlast).symm

/-- The types that references mean have the names that are left of the references without one separator in front. -/
theorem Mean.names_eq (h : r.Mean references meant) : meant.map (·.name) = references.map TypeName.unrooted := by
  induction references generalizing meant with
  | nil =>
    have hnone : meant = [] := List.map_eq_nil_iff.mp h.symm
    rw [hnone]
    rfl
  | cons reference rest ih =>
    cases meant with
    | nil => cases h
    | cons t types =>
      obtain ⟨ht, htypes⟩ := List.cons.inj h
      rw [hr.eq_ofList, get?_ofList] at ht
      rw [List.map_cons, List.map_cons, ih htypes, name_of_lastNamed? ht]

/-- Of the types that references mean those are left that were registered last under the names referred to, in the order in which
these are referred to first. -/
theorem Mean.distinct_eq (h : r.Mean references meant) :
    (distinct meant).map some = (references.map TypeName.unrooted).eraseDups.map (Registry.lastNamed? registered) := by
  rw [← h.names_eq hr, ← names_distinct, List.map_map]
  exact List.map_congr_left fun t ht => (h.lastNamed? hr (distinct_subset meant t ht)).symm

end Registered

/-! ## References that are listed again -/

/-- A reference that is the same without a separator in front finds the same type. -/
theorem find_eq_of_unrooted_eq {reference other : String} {t : SourceType}
    (hother : TypeName.unrooted other = TypeName.unrooted reference) (h : r.find reference = .ok t) :
    r.find other = .ok t := by
  have hget : r.get? other = r.get? reference := congrArg r.types.get? hother
  rw [find] at h ⊢
  rw [hget]
  cases hreference : r.get? reference with
  | none =>
    rw [hreference] at h
    cases h
  | some found => rwa [hreference] at h

/-- A reference behind one that is the same without a separator in front adds nothing. -/
theorem resolve_append_cons {front : List String} {reference other : String} (hlisted : reference ∈ front)
    (hother : TypeName.unrooted other = TypeName.unrooted reference) (after : List String) :
    r.resolve (front ++ other :: after) = r.resolve (front ++ after) := by
  rw [resolve, resolve, List.mapM_append, List.mapM_append]
  cases hfront : front.mapM r.find with
  | error refusal => rfl
  | ok types =>
    have hread : (r.find reference).isOk = true := by
      have hall : (front.mapM r.find).isOk = true := by
        rw [hfront]
        rfl
      rw [isOk_mapM, List.all_eq_true] at hall
      exact hall reference hlisted
    cases ht : r.find reference with
    | error refusal =>
      rw [ht] at hread
      cases hread
    | ok t =>
      have hmem : t ∈ types := by
        rw [eq_filterMap_of_mapM hfront]
        exact List.mem_filterMap.mpr ⟨reference, hlisted, by rw [ht]; rfl⟩
      rw [mapM_cons_of_ok (find_eq_of_unrooted_eq hother ht)]
      cases after.mapM r.find with
      | error refusal => rfl
      | ok later => exact congrArg Except.ok (distinct_append_cons (List.mem_map_of_mem hmem) later)

end Registry

/-! ## Types that agree, each once -/

namespace SourceType

/-- Of types that agree the first one of a kind is among the distinct ones. -/
theorem Agree.find?_distinct {types : List SourceType} (h : Agree types) (p : SourceType → Bool) :
    (distinct types).find? p = types.find? p := by
  induction types with
  | nil => rfl
  | cons t rest ih =>
    have hrest : Agree rest := fun later hlater other hother =>
      h later (List.mem_cons_of_mem t hlater) other (List.mem_cons_of_mem t hother)
    rw [distinct, List.find?_cons, List.find?_cons]
    cases ht : p t with
    | true => rfl
    | false =>
      have hkept : ∀ later ∈ distinct rest, decide ((later.name != t.name) = true ∧ p later = true) = p later := by
        intro later hlater
        by_cases hname : later.name = t.name
        · have hsame : later = t :=
            h later (List.mem_cons_of_mem t (distinct_subset rest later hlater)) t List.mem_cons_self hname
          simp [hsame, ht]
        · simp [hname]
      rw [List.find?_filter, List.find?_congr hkept, ih hrest]

end SourceType

namespace Builder

/-- The conflict that is found among types that agree does not depend on how often these are listed. -/
theorem conflict?_distinct (types : List SourceType) {incoming : List SourceType} (h : Agree incoming) :
    conflict? (types ++ distinct incoming) (distinct incoming) = conflict? (types ++ incoming) incoming := by
  rw [conflict?, conflict?, h.find?_distinct]
  simp only [List.find?_append, find?_distinct]

/-- Types that agree may be listed once or more often when they are joined to others. -/
theorem joinTypes_distinct (types : List SourceType) {incoming : List SourceType} (h : Agree incoming) :
    joinTypes types (distinct incoming) = joinTypes types incoming := by
  have hplaced : Classified.ofTypes (types ++ distinct incoming) = Classified.ofTypes (types ++ incoming) := by
    rw [Classified.ofTypes, Classified.ofTypes, distinct_append_distinct]
  rw [joinTypes, joinTypes, conflict?_distinct types h, hplaced, distinct_append_distinct]

/-- Adding types by references is adding the types that are meant, repeated ones too. -/
theorem apply_likeNames {registered : List SourceType} {r : Registry} {references : List String} {meant : List SourceType}
    (hr : Registered registered r) (h : r.Mean references meant) (config : Config) (b : Builder) :
    b.apply ⟨r, config⟩ (.likeNames references) = b.apply ⟨r, config⟩ (.likeTypes meant) := by
  have hchange : b.change ⟨r, config⟩ (.likeNames references) = b.change ⟨r, config⟩ (.likeTypes meant) := by
    rw [change, change, h.resolve_eq]
    exact congrArg (Except.map fun types => { b with types := types }) (joinTypes_distinct b.types (h.agree hr))
  rw [apply_eq, apply_eq, hchange]

end Builder

/-- Adding types by reference is adding the types that are meant. Take any registry that has come about by registrations, and
any list of references. They are resolved exactly when each is contained, that is, when some type is registered under what is
left of it without one separator in front, and then means the last of these; otherwise the first one that is not contained is
refused, as it is written. What they are resolved to are types of distinct names: under each name referred to the one that was
registered last, in the order in which the names are referred to first. So a reference behind one that is the same without a
separator in front adds nothing, wherever both stand and whether they are resolved or not; in particular a name and the same
name with one separator in front are such. If all are contained, then each means a type, and any builder takes the references
exactly as it takes the list of these types, repeated ones too: it becomes the same builder, or refuses both for the same
reason. -/
theorem references_mean_types (registered : List SourceType) (r : Registry) (h : Registered registered r)
    (names : List String) :
    ((r.resolve names).isOk = true ↔ ∀ name ∈ names, r.contains name = true) ∧
      (∀ refusal, r.resolve names = .error refusal ↔
        ∃ before name after, names = before ++ name :: after ∧ (∀ earlier ∈ before, r.contains earlier = true) ∧
          r.contains name = false ∧ refusal = .unknownType name) ∧
      (∀ name, r.contains name = true ↔ TypeName.unrooted name ∈ registered.map (·.name)) ∧
      (∀ name, r.get? name = lastNamed? registered (TypeName.unrooted name)) ∧
      (∀ types, r.resolve names = .ok types →
        (types.map (·.name)).Nodup ∧
          types.map some = (names.map TypeName.unrooted).eraseDups.map (lastNamed? registered)) ∧
      (∀ before between after name other, TypeName.unrooted other = TypeName.unrooted name →
        r.resolve (before ++ name :: (between ++ other :: after)) = r.resolve (before ++ name :: (between ++ after))) ∧
      (∀ name, TypeName.isRooted name = false → TypeName.unrooted (TypeName.rooted name) = TypeName.unrooted name) ∧
      ((∀ name ∈ names, r.contains name = true) →
        ∃ meant, names.map r.get? = meant.map some ∧
          ∀ config (b : Builder), b.apply ⟨r, config⟩ (.likeNames names) = b.apply ⟨r, config⟩ (.likeTypes meant)) := by
  refine ⟨isOk_resolve_iff r names, resolve_eq_error_iff r names, fun name => ?_, fun name => ?_,
    fun types hresolved => ?_, fun before between after name other hother => ?_, fun name hname => ?_, fun hcontained => ?_⟩
  · rw [contains_eq_isSome_get?, h.eq_ofList, get?_ofList, isSome_lastNamed?_iff]
  · rw [h.eq_ofList, get?_ofList]
  · have hcontained : ∀ name ∈ names, r.contains name = true := by
      rw [← isOk_resolve_iff, hresolved]
      rfl
    obtain ⟨meant, hmeant⟩ := exists_mean hcontained
    have htypes : types = distinct meant := by
      rw [hmeant.resolve_eq] at hresolved
      exact (Except.ok.inj hresolved).symm
    rw [htypes]
    exact ⟨nodup_names_distinct meant, hmeant.distinct_eq h⟩
  · have hlisted : name ∈ before ++ name :: between := List.mem_append_right before List.mem_cons_self
    have hcollapse := resolve_append_cons (r := r) hlisted hother after
    rwa [List.append_assoc, List.append_assoc] at hcollapse
  · rw [TypeName.unrooted_rooted, (TypeName.unrooted_eq_self_iff name).mpr hname]
  · obtain ⟨meant, hmeant⟩ := exists_mean hcontained
    exact ⟨meant, hmeant, Builder.apply_likeNames h hmeant⟩

namespace ReferencesExample

open OwnNameExample

/-- The contract that the registry of the example holds. -/
def zoo : SourceType := { name := "Zoo", kind := .capability }

/-- References to the contract and to the class, each as it is and with a separator in front. -/
def names : List String := ["Zoo", "\\Animal", "Animal", "\\Zoo"]

/-- A builder that holds another class. -/
def kennel : Builder := { types := [{ name := "Dog", kind := .extensible }] }

end ReferencesExample

open OwnNameExample ReferencesExample in
/-- In the registry of the example four references are resolved to two types, and a fresh builder takes these; another builder
refuses the references like the four types that they mean, for a second base; and the first reference that means no type is
refused. -/
theorem references_mean_types_zoo :
    Registered (listed ++ [rooted] ++ [animal]) registry ∧ registry.resolve names = .ok [zoo, animal] ∧
      Builder.apply ⟨registry, {}⟩ {} (.likeNames names) = .ok { types := [zoo, animal] } ∧
      kennel.apply ⟨registry, {}⟩ (.likeNames names) = kennel.apply ⟨registry, {}⟩ (.likeTypes [zoo, animal, animal, zoo]) ∧
      kennel.apply ⟨registry, {}⟩ (.likeNames names) = .error (.secondBase "Dog" "Animal") ∧
      registry.resolve ["Zoo", "\\Cat", "Owl"] = .error (.unknownType "\\Cat") := by
  obtain ⟨-, -, -, -, -, -, -, htaken⟩ := references_mean_types _ registry registered_registry names
  obtain ⟨-, hrefused, -⟩ := references_mean_types _ registry registered_registry ["Zoo", "\\Cat", "Owl"]
  obtain ⟨meant, hmeant, happly⟩ := htaken (by decide)
  have hfour : meant = [zoo, animal, animal, zoo] := by
    have hsome : meant.map some = [zoo, animal, animal, zoo].map some := hmeant.symm.trans rfl
    exact List.map_injective_iff.mpr (fun _ _ => Option.some.inj) hsome
  rw [hfour] at happly
  refine ⟨registered_registry, rfl, ?_, happly {} kennel, ?_, ?_⟩
  · rw [happly]
    rfl
  · rw [happly]
    rfl
  · exact (hrefused _).mpr ⟨["Zoo"], "\\Cat", ["Owl"], rfl, by decide, by decide, rfl⟩

end TestDouble

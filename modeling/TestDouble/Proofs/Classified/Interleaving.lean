import TestDouble.Proofs.Classified.Placement
import TestDouble.Resolution

/-!
# Only the order within a kind matters

Types of different kinds never get in each other's way when they are placed: what is refused, and which base is found, is
settled by the extensible types alone, and the capabilities and the mixins stand as they are listed (`foldlM_add_eq`). So two
interleavings of the same types of each kind are placed alike or refused alike, and requests for them have outcomes that differ
in the fingerprint only (`ofRequest_of_sameKinds`).
-/

namespace TestDouble

open SourceType

/-- Two lists of types are interleavings of the same types of each kind. -/
def SourceType.SameKinds (types types' : List SourceType) : Prop :=
  ∀ kind, types.filter (fun t => t.kind == kind) = types'.filter (fun t => t.kind == kind)

namespace Classified

/-! ## One kind at a time -/

/-- Placing types is placing the extensible ones among them; the capabilities and the mixins are listed behind those placed
before. -/
theorem foldlM_add_eq (types : List SourceType) (c : Classified) :
    types.foldlM add c =
      ((bases types).foldlM add { base := c.base }).map (fun placed =>
        { base := placed.base
          capabilities := c.capabilities ++ types.filter (fun t => t.kind == .capability)
          mixins := c.mixins ++ types.filter (fun t => t.kind == .mixin) }) := by
  induction types generalizing c with
  | nil => simp [bases, Except.map, pure, Except.pure]
  | cons t rest ih =>
    rw [List.foldlM_cons]
    cases hkind : t.kind with
    | extensible =>
      have hbases : bases (t :: rest) = t :: bases rest := List.filter_cons_of_pos (by simp [hkind])
      rw [hbases, List.foldlM_cons]
      cases hsealed : t.isSealed with
      | true => simp [add, hkind, hsealed, Except.map, bind, Except.bind]
      | false =>
        cases hbase : c.base with
        | some base => simp [add, hkind, hsealed, hbase, Except.map, bind, Except.bind]
        | none => simp [add, hkind, hsealed, hbase, ih, bind, Except.bind]
    | capability =>
      have hbases : bases (t :: rest) = bases rest := List.filter_cons_of_neg (by simp [hkind])
      simp [add, hkind, hbases, ih, bind, Except.bind]
    | mixin =>
      have hbases : bases (t :: rest) = bases rest := List.filter_cons_of_neg (by simp [hkind])
      simp [add, hkind, hbases, ih, bind, Except.bind]

/-- Interleavings of the same types of each kind are placed alike, or refused for the same reason. -/
theorem ofTypes_of_sameKinds {types types' : List SourceType} (hdistinct : (types.map (·.name)).Nodup)
    (hdistinct' : (types'.map (·.name)).Nodup) (h : SameKinds types types') : ofTypes types = ofTypes types' := by
  have hbases : bases types = bases types' := h .extensible
  rw [ofTypes, ofTypes, distinct_eq_self hdistinct, distinct_eq_self hdistinct', foldlM_add_eq, foldlM_add_eq types', hbases,
    h .capability, h .mixin]

end Classified

/-! ## Outcomes -/

/-- Two outcomes are the same but for the fingerprint: the same refusal, or resolutions of which one is the other as soon as it
is given the fingerprint of the other. -/
def SameButFingerprint : Except Refusal Resolution → Except Refusal Resolution → Prop
  | .error refusal, .error refusal' => refusal = refusal'
  | .ok resolution, .ok resolution' => { resolution with fingerprint := resolution'.fingerprint } = resolution'
  | _, _ => False

/-- Only the order within a kind matters. Take any rules for names, any members and any name, and two lists of types with
distinct names that list the same extensible types, the same capabilities and the same mixins, each in the same order, but
interleave them in any way. The two requests are refused for the same reason, or their resolutions are equal in everything but
the fingerprint: the tables of methods with their entries in order, the bodies of the mixins in order, the closed names, the
names of the types, the members and the name. -/
theorem ofRequest_of_sameKinds (rules : IdentifierRules) (members : Members) (typeName : Option String)
    (types types' : List SourceType) (hdistinct : (types.map (·.name)).Nodup) (hdistinct' : (types'.map (·.name)).Nodup)
    (hkinds : SameKinds types types') :
    SameButFingerprint (Resolution.ofRequest rules (Request.ofTypes types members typeName))
      (Resolution.ofRequest rules (Request.ofTypes types' members typeName)) := by
  have hplaced : Classified.ofTypes (Request.ofTypes types members typeName).types =
      Classified.ofTypes (Request.ofTypes types' members typeName).types := by
    have hlisted : (Request.ofTypes types members typeName).types = types := distinct_eq_self hdistinct
    have hlisted' : (Request.ofTypes types' members typeName).types = types' := distinct_eq_self hdistinct'
    rw [hlisted, hlisted', Classified.ofTypes_of_sameKinds hdistinct hdistinct' hkinds]
  rw [Resolution.ofRequest, Resolution.ofRequest, hplaced]
  cases Classified.ofTypes (Request.ofTypes types' members typeName).types with
  | error refusal => exact rfl
  | ok c => exact rfl

namespace InterleavingExample

/-- A class that speaks. -/
def animal : SourceType := { name := "Animal", kind := .extensible, methods := [{ name := "speak" }] }

/-- A contract of moving. -/
def moving : SourceType := { name := "Moving", kind := .capability, methods := [{ name := "move", isAbstract := true }] }

/-- A contract of running. -/
def running : SourceType := { name := "Running", kind := .capability, methods := [{ name := "move" }, { name := "run" }] }

/-- A mixin with a body for moving. -/
def walker : SourceType := { name := "Walker", kind := .mixin, methods := [{ name := "move" }] }

end InterleavingExample

open InterleavingExample in
/-- A mixin that is listed first, and a base that is listed last, change nothing but the fingerprint. -/
theorem ofRequest_of_sameKinds_animal :
    SameKinds [animal, moving, running, walker] [walker, moving, running, animal] ∧
      SameButFingerprint (Resolution.ofRequest {} (Request.ofTypes [animal, moving, running, walker] {} none))
        (Resolution.ofRequest {} (Request.ofTypes [walker, moving, running, animal] {} none)) := by
  have hkinds : SameKinds [animal, moving, running, walker] [walker, moving, running, animal] := by
    intro kind
    cases kind <;> rfl
  exact ⟨hkinds, ofRequest_of_sameKinds {} {} none _ _ (by decide) (by decide) hkinds⟩

end TestDouble

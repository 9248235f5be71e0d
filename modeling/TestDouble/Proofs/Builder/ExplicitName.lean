import TestDouble.Proofs.Builder.Calls
import TestDouble.Proofs.Fingerprint.Delimited
import TestDouble.Proofs.Identifier.Segments

/-!
# Explicit names with a separator in front

A separator in front of a name is passed over when the name is checked, and kept when it is stored. So a builder that takes a
name takes it with a separator in front too, but then it stands for another request, with another fingerprint, and answers
another name (`rooted_name_kept`).
-/

namespace TestDouble

/-- A name with a separator in front takes one byte more. -/
theorem TypeName.utf8ByteSize_rooted (name : String) : (rooted name).utf8ByteSize = name.utf8ByteSize + 1 := by
  have hseparator : separator.utf8Size = 1 := rfl
  rw [rooted, String.ofList_cons, String.ofList_toList, String.utf8ByteSize_append, String.utf8ByteSize_singleton,
    hseparator]
  omega

namespace Fingerprint

/-- The bytes of a text that is there: one that says so, eight of the length, and those of the text. -/
theorem length_optionBytes_some (text : String) : (optionBytes (some text)).length = text.utf8ByteSize + 9 := by
  simp only [optionBytes, textBytes, countBytes, List.length_cons, List.length_append, length_lowBytes, length_toUTF8]
  omega

/-- A separator in front of the name makes other bytes. -/
theorem bytes_ne_of_rooted (f : Fingerprint) (name : String) :
    bytes { f with typeName := some name } ≠ bytes { f with typeName := some (TypeName.rooted name) } := by
  intro h
  have hname : optionBytes (some name) = optionBytes (some (TypeName.rooted name)) := List.append_cancel_left h
  have hlength := congrArg List.length hname
  rw [length_optionBytes_some, length_optionBytes_some, TypeName.utf8ByteSize_rooted] at hlength
  omega

end Fingerprint

namespace Builder

/-- A builder with an explicit name. -/
def named (b : Builder) (name : String) : Builder := { b with explicitName := some name }

/-- An open builder takes every legal name as it is written. -/
theorem respond_setName {b : Builder} (hopen : b.finalized = false) {w : Workshop} {name : String}
    (hlegal : w.config.identifiers.allowsType name = true) :
    b.respond w (.change (.setName name)) = (.ok .done, b.named name) := by
  have happly : b.apply w (.setName name) = .ok (b.named name) := by
    simp [apply_eq, hopen, change, hlegal, named]
  rw [respond_change_eq, happly]

/-- A builder with an explicit name answers it. -/
theorem respond_name_named (b : Builder) (name : String) (w : Workshop) (counter : LabelCounter) :
    ((b.named name).respond w (.name counter)).1 = .ok (.name name) := by
  have hname : (b.named name).name? = some name := rfl
  rw [respond, nameWith_of_name? hname]
  rfl

end Builder

/-- A separator in front of an explicit name is kept. Take any builder that is open, reachable or not, in any workshop, and any
legal name that does not start with a separator. It takes the name and the name with a separator in front, and each is stored as
it was given: the builder then answers it as its name, whatever counter it is handed, and gives the request it stood for with
it. The two requests are not the same, nor are their fingerprints, and their digests differ unless the bytes of the
fingerprints collide. -/
theorem rooted_name_kept (w : Workshop) (b : Builder) (name : String) (hopen : b.finalized = false)
    (hlegal : w.config.identifiers.allowsType name = true) (hplain : TypeName.isRooted name = false) :
    (∀ given ∈ [name, TypeName.rooted name],
      b.respond w (.change (.setName given)) = (.ok .done, b.named given) ∧
        ((b.named given).respond w .request).1 = .ok (.request { b.request with typeName := some given }) ∧
        ∀ counter, ((b.named given).respond w (.name counter)).1 = .ok (.name given)) ∧
      let plain : Request := { b.request with typeName := some name }
      let rooted : Request := { b.request with typeName := some (TypeName.rooted name) }
      plain.sameAs rooted = false ∧ Fingerprint.ofRequest plain ≠ Fingerprint.ofRequest rooted ∧
        ((Fingerprint.ofRequest plain).digest = (Fingerprint.ofRequest rooted).digest →
          Sha256.Collide (Fingerprint.ofRequest plain).bytes (Fingerprint.ofRequest rooted).bytes) := by
  have hrooted : w.config.identifiers.allowsType (TypeName.rooted name) = true := by
    rw [IdentifierRules.allowsType_rooted hplain, hlegal]
  refine ⟨fun given hgiven => ?_, ?_⟩
  · have hallowed : w.config.identifiers.allowsType given = true := by
      simp only [List.mem_cons, List.not_mem_nil, or_false] at hgiven
      rcases hgiven with rfl | rfl
      · exact hlegal
      · exact hrooted
    exact ⟨Builder.respond_setName hopen hallowed, rfl, Builder.respond_name_named b given w⟩
  · intro plain rooted
    have hbytes : (Fingerprint.ofRequest plain).bytes ≠ (Fingerprint.ofRequest rooted).bytes :=
      Fingerprint.bytes_ne_of_rooted (Fingerprint.ofRequest b.request) name
    refine ⟨?_, fun h => hbytes (congrArg Fingerprint.bytes h), fun h => ⟨hbytes, ?_⟩⟩
    · have hname : (some name == some (TypeName.rooted name)) = false := by
        simpa using (TypeName.rooted_ne name).symm
      rw [Request.sameAs, hname, Bool.and_false]
    · exact (Sha256.hexDigest_eq_iff _ _).mp h

namespace ExplicitNameExample

/-- An open builder with a class, a constant and a name. -/
def builder : Builder where
  types := [{ name := "Animal", kind := .extensible }]
  members := { constants := OrderedMap.ofList [("SIZE", .null)] }
  explicitName := some "Cat"

end ExplicitNameExample

open ExplicitNameExample in
/-- A builder that has a name takes another one, with and without a separator in front, and answers it as given. -/
theorem rooted_name_kept_dog :
    TypeName.rooted "Zoo\\Dog" = "\\Zoo\\Dog" ∧
      builder.respond default (.change (.setName "\\Zoo\\Dog")) = (.ok .done, builder.named "\\Zoo\\Dog") ∧
      ((builder.named "Zoo\\Dog").respond default (.name {})).1 = .ok (.name "Zoo\\Dog") ∧
      ((builder.named "\\Zoo\\Dog").respond default (.name {})).1 = .ok (.name "\\Zoo\\Dog") := by
  have hrooted : TypeName.rooted "Zoo\\Dog" = "\\Zoo\\Dog" := by decide
  obtain ⟨htaken, -⟩ := rooted_name_kept default builder "Zoo\\Dog" rfl (by decide +kernel) (by decide)
  obtain ⟨-, -, hplain⟩ := htaken "Zoo\\Dog" (by simp)
  obtain ⟨hgiven, -, hname⟩ := htaken "\\Zoo\\Dog" (by rw [hrooted]; simp)
  exact ⟨hrooted, hgiven, hplain {}, hname {}⟩

/-- A fresh builder that is named with a separator in front does not stand for what it stands for without one: it keeps another
name, gives a request that is not the same and has another digest, and answers another name. -/
theorem rooted_name_differs :
    let plain : Builder := (Builder.respond default {} (.change (.setName "A"))).2
    let rooted : Builder := (Builder.respond default {} (.change (.setName "\\A"))).2
    plain.explicitName = some "A" ∧ rooted.explicitName = some "\\A" ∧ plain.request.sameAs rooted.request = false ∧
      (Fingerprint.ofRequest plain.request).digest ≠ (Fingerprint.ofRequest rooted.request).digest ∧
      (rooted.respond default (.name {})).1 = .ok (.name "\\A") := by
  intro plain rooted
  have hplain : plain = Builder.named {} "A" :=
    congrArg Prod.snd (Builder.respond_setName rfl (by decide +kernel))
  have hrooted : rooted = Builder.named {} "\\A" :=
    congrArg Prod.snd (Builder.respond_setName rfl (by decide +kernel))
  rw [hplain, hrooted]
  exact ⟨rfl, rfl, by decide +kernel, by decide +kernel, Builder.respond_name_named {} "\\A" default {}⟩

end TestDouble

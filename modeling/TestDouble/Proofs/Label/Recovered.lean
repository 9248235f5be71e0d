import TestDouble.Label
import TestDouble.Proofs.Number.Text

/-!
# A default name tells its label

The beginning of a default name and the short name of a type may hold underscores and digits themselves. But the label is
written in digits, and it stands behind the last underscore. So it is read back from the name, with or without a type in it
(`labelValue_defaultName`), and two labels never make one name.
-/

namespace TestDouble

/-- What stands behind the last underscore of a text. -/
def afterUnderscore (text : String) : List Char := (text.toList.reverse.takeWhile (· != '_')).reverse

/-- The number that stands behind the last underscore of a name. -/
def labelValue (name : String) : Nat := Numeral.valueOf (afterUnderscore name)

/-- What stands behind an underscore and has none itself stands behind the last one. -/
theorem afterUnderscore_eq {text : String} {lead tail : List Char} (htext : text.toList = lead ++ '_' :: tail)
    (h : '_' ∉ tail) : afterUnderscore text = tail := by
  have hreverse : text.toList.reverse = tail.reverse ++ '_' :: lead.reverse := by simp [htext]
  have hpass : ∀ c ∈ tail.reverse, (c != '_') = true := by
    intro c hc
    rw [bne_iff_ne]
    rintro rfl
    exact h (List.mem_reverse.mp hc)
  unfold afterUnderscore
  rw [hreverse, List.takeWhile_append_of_pos hpass]
  simp

/-- What stands in front of the label in a default name. -/
def nameLead (start : String) (types : Classified) : String :=
  match types.primary with
  | some primary => start ++ "_" ++ primary.shortName
  | none => start

/-- A default name is what stands in front of the label, an underscore and the label. -/
theorem defaultName_eq (start : String) (types : Classified) (label : UInt64) :
    defaultName start types label = nameLead start types ++ "_" ++ labelText label := by
  unfold defaultName nameLead
  cases types.primary <;> rfl

/-- The characters of a default name end in an underscore and the digits of the label. -/
theorem toList_defaultName (start : String) (types : Classified) (label : UInt64) :
    (defaultName start types label).toList = (nameLead start types).toList ++ '_' :: Nat.toDigits 10 label.toNat := by
  simp [defaultName_eq, labelText, Nat.repr, String.toList_append]

/-- A default name ends in its label, behind the last underscore. -/
theorem afterUnderscore_defaultName (start : String) (types : Classified) (label : UInt64) :
    afterUnderscore (defaultName start types label) = Nat.toDigits 10 label.toNat :=
  afterUnderscore_eq (toList_defaultName start types label) ((AllDigits.toDigits _).not_mem rfl)

/-- The label of a default name is read back from it. -/
theorem labelValue_defaultName (start : String) (types : Classified) (label : UInt64) :
    labelValue (defaultName start types label) = label.toNat := by
  rw [labelValue, afterUnderscore_defaultName, Decimal.valueOf_toDigits]

end TestDouble

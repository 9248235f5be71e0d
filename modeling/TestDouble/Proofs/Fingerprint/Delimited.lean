import Mathlib.Algebra.Group.Nat.Defs
import TestDouble.Fingerprint.Digest

/-!
# The bytes of a fingerprint determine it

The bytes of a fingerprint are those of its fields, put one behind the other with nothing in between. They can be told apart
because the bytes of every part show where they end: `Delimited` says that of two parts, whatever follows their bytes, the same
bytes come from the same part and leave the same rest. A part is delimited when it is put together from delimited parts, so each
kind of part needs one short lemma. It follows that different fingerprints have different bytes, and different digests unless
their bytes collide (`bytes_lossless`).
-/

namespace TestDouble

/-- The bytes of parts that fit show where they end. -/
def Delimited {α : Type} (fits : α → Prop) (bytes : α → List UInt8) : Prop :=
  ∀ a b : α, fits a → fits b → ∀ rest rest' : List UInt8, bytes a ++ rest = bytes b ++ rest' → a = b ∧ rest = rest'

namespace Fingerprint

/-! ## What fits

A length or count is written in eight bytes, so only lengths below `2 ^ 64` can be told apart. -/

/-- The length of a text, in bytes, can be written. -/
def TextFits (text : String) : Prop := text.utf8ByteSize < 2 ^ 64

/-- A text fits, if it is there. -/
def OptionFits : Option String → Prop
  | none => True
  | some text => TextFits text

/-- The length of a list can be written, and its items fit. -/
def ListFits {α : Type} (fits : α → Prop) (items : List α) : Prop := items.length < 2 ^ 64 ∧ ∀ item ∈ items, fits item

/-- The size of a table can be written, and its names and contents fit. -/
def TableFits {α : Type} (fits : α → Prop) (table : SortedMap α) : Prop :=
  ListFits (fun entry => TextFits entry.1 ∧ fits entry.2) table.entries

/-- The text of a callable fits, if there is a callable. -/
def CallableFits : Option (Callable String) → Prop
  | none => True
  | some (.named reference) => TextFits reference
  | some (.closure site) => TextFits site.file

/-- The texts of a parameter fit. -/
def ParameterFits (p : Parameter) : Prop := TextFits p.name ∧ OptionFits p.typeHint

/-- The parts of a custom method fit. -/
def MethodFits (m : CustomMethod String) : Prop :=
  CallableFits m.callable ∧ ListFits ParameterFits m.parameters ∧ OptionFits m.returnType

/-- All texts, lists and tables of a fingerprint have lengths that can be written. -/
structure Fits (f : Fingerprint) : Prop where
  types : ListFits TextFits f.types
  methods : TableFits MethodFits f.methods
  staticMethods : TableFits MethodFits f.staticMethods
  properties : TableFits TextFits f.properties
  staticProperties : TableFits TextFits f.staticProperties
  constants : TableFits TextFits f.constants
  typeName : OptionFits f.typeName

instance (text : String) : Decidable (TextFits text) := inferInstanceAs (Decidable (_ < _))

instance : ∀ text? : Option String, Decidable (OptionFits text?)
  | none => inferInstanceAs (Decidable True)
  | some text => inferInstanceAs (Decidable (TextFits text))

instance {α : Type} (fits : α → Prop) [DecidablePred fits] (items : List α) : Decidable (ListFits fits items) :=
  inferInstanceAs (Decidable (_ ∧ _))

instance {α : Type} (fits : α → Prop) [DecidablePred fits] (table : SortedMap α) : Decidable (TableFits fits table) :=
  inferInstanceAs (Decidable (ListFits (fun entry => TextFits entry.1 ∧ fits entry.2) table.entries))

instance : ∀ callable : Option (Callable String), Decidable (CallableFits callable)
  | none => inferInstanceAs (Decidable True)
  | some (.named reference) => inferInstanceAs (Decidable (TextFits reference))
  | some (.closure site) => inferInstanceAs (Decidable (TextFits site.file))

instance (p : Parameter) : Decidable (ParameterFits p) := inferInstanceAs (Decidable (_ ∧ _))

instance (m : CustomMethod String) : Decidable (MethodFits m) := inferInstanceAs (Decidable (_ ∧ _))

instance (f : Fingerprint) : Decidable f.Fits :=
  decidable_of_iff
    (ListFits TextFits f.types ∧ TableFits MethodFits f.methods ∧ TableFits MethodFits f.staticMethods ∧
      TableFits TextFits f.properties ∧ TableFits TextFits f.staticProperties ∧ TableFits TextFits f.constants ∧
      OptionFits f.typeName)
    ⟨fun ⟨ht, hm, hsm, hp, hsp, hc, hn⟩ => ⟨ht, hm, hsm, hp, hsp, hc, hn⟩,
      fun ⟨ht, hm, hsm, hp, hsp, hc, hn⟩ => ⟨ht, hm, hsm, hp, hsp, hc, hn⟩⟩

/-! ## Numbers and texts -/

/-- A number of bytes is taken, whatever the value. -/
theorem length_lowBytes (count value : Nat) : (lowBytes count value).length = count := by
  induction count generalizing value with
  | zero => rfl
  | succ count ih => rw [lowBytes, List.length_cons, ih]

/-- Enough low bytes of a value determine it. -/
theorem lowBytes_inj {count value value' : Nat} (hvalue : value < 256 ^ count) (hvalue' : value' < 256 ^ count)
    (h : lowBytes count value = lowBytes count value') : value = value' := by
  induction count generalizing value value' with
  | zero => omega
  | succ count ih =>
    obtain ⟨hlow, hhigh⟩ := List.cons.inj h
    have hhigh := ih (by omega) (by omega) hhigh
    have hlow := congrArg UInt8.toNat hlow
    rw [UInt8.toNat_ofNat', UInt8.toNat_ofNat'] at hlow
    omega

/-- Values that fit a number of bytes are delimited by them. -/
theorem delimited_lowBytes (count : Nat) : Delimited (· < 256 ^ count) (lowBytes count) := by
  intro value value' hvalue hvalue' rest rest' h
  obtain ⟨hbytes, hrest⟩ := List.append_inj h (by rw [length_lowBytes, length_lowBytes])
  exact ⟨lowBytes_inj hvalue hvalue' hbytes, hrest⟩

/-- A count is delimited. -/
theorem delimited_countBytes : Delimited (· < 2 ^ 64) countBytes := delimited_lowBytes 8

/-- A line number is delimited. -/
theorem delimited_lineBytes : Delimited (fun _ => True) lineBytes := by
  intro line line' _ _ rest rest' h
  obtain ⟨hline, hrest⟩ := delimited_lowBytes 4 line.toNat line'.toNat line.toNat_lt line'.toNat_lt rest rest' h
  exact ⟨UInt32.toNat_inj.mp hline, hrest⟩

/-- Three truth values are delimited. -/
theorem flagBytes_append_inj {a b c a' b' c' : Bool} {rest rest' : List UInt8}
    (h : [flagByte a, flagByte b, flagByte c] ++ rest = [flagByte a', flagByte b', flagByte c'] ++ rest') :
    a = a' ∧ b = b' ∧ c = c' ∧ rest = rest' := by
  have hflag : ∀ x y : Bool, flagByte x = flagByte y → x = y := by decide
  simp only [List.cons_append, List.nil_append, List.cons.injEq] at h
  exact ⟨hflag a a' h.1, hflag b b' h.2.1, hflag c c' h.2.2.1, h.2.2.2⟩

/-- The UTF-8 form of a text has as many bytes as the text. -/
theorem length_toUTF8 (text : String) : text.toUTF8.data.toList.length = text.utf8ByteSize := by
  rw [Array.length_toList, ByteArray.size_data, String.toUTF8_eq_toByteArray, String.size_toByteArray]

/-- A text is delimited: its length says how many bytes are its own, and those bytes are those of no other text. -/
theorem delimited_textBytes : Delimited TextFits textBytes := by
  intro text text' hfits hfits' rest rest' h
  simp only [textBytes, List.append_assoc] at h
  obtain ⟨hlength, h⟩ := delimited_countBytes _ _ (by rwa [length_toUTF8]) (by rwa [length_toUTF8]) _ _ h
  obtain ⟨hbytes, hrest⟩ := List.append_inj h hlength
  have htext := ByteArray.ext (Array.toList_inj.mp hbytes)
  exact ⟨String.toByteArray_inj.mp htext, hrest⟩

/-- A text that may be absent is delimited: the first byte says whether it is there. -/
theorem delimited_optionBytes : Delimited OptionFits optionBytes := by
  intro text? text?' hfits hfits' rest rest' h
  cases text? with
  | none =>
    cases text?' with
    | none => exact ⟨rfl, (List.cons.inj h).2⟩
    | some text' => exact absurd (List.cons.inj h).1 (by decide)
  | some text =>
    cases text?' with
    | none => exact absurd (List.cons.inj h).1 (by decide)
    | some text' =>
      obtain ⟨htext, hrest⟩ := delimited_textBytes text text' hfits hfits' rest rest'
        (List.cons.inj h).2
      exact ⟨congrArg some htext, hrest⟩

/-! ## Lists and tables -/

/-- As many delimited items on both sides, one behind the other, are the same items. Their number is needed: an item may take no
bytes, and then the bytes alone do not tell where the items end. -/
theorem flatMap_append_inj {α : Type} {fits : α → Prop} {bytes : α → List UInt8} (hbytes : Delimited fits bytes)
    {items items' : List α} (hlength : items.length = items'.length) (hfits : ∀ item ∈ items, fits item)
    (hfits' : ∀ item ∈ items', fits item) {rest rest' : List UInt8}
    (h : items.flatMap bytes ++ rest = items'.flatMap bytes ++ rest') : items = items' ∧ rest = rest' := by
  induction items generalizing items' with
  | nil =>
    cases items' with
    | nil => exact ⟨rfl, h⟩
    | cons item' others' => cases hlength
  | cons item others ih =>
    cases items' with
    | nil => cases hlength
    | cons item' others' =>
      simp only [List.flatMap_cons, List.append_assoc] at h
      obtain ⟨hitem, h⟩ := hbytes item item' (hfits item List.mem_cons_self) (hfits' item' List.mem_cons_self) _ _ h
      obtain ⟨hothers, hrest⟩ := ih (Nat.succ.inj hlength) (fun i hi => hfits i (List.mem_cons_of_mem item hi))
        (fun i hi => hfits' i (List.mem_cons_of_mem item' hi)) h
      exact ⟨by rw [hitem, hothers], hrest⟩

/-- A list of delimited items is delimited: its count says where it ends. -/
theorem delimited_listBytes {α : Type} {fits : α → Prop} {bytes : α → List UInt8} (hbytes : Delimited fits bytes) :
    Delimited (ListFits fits) (listBytes bytes) := by
  rintro items items' ⟨hcount, hfits⟩ ⟨hcount', hfits'⟩ rest rest' h
  simp only [listBytes, List.append_assoc] at h
  obtain ⟨hlength, h⟩ := delimited_countBytes _ _ hcount hcount' _ _ h
  exact flatMap_append_inj hbytes hlength hfits hfits' h

/-- A table of delimited contents is delimited. -/
theorem delimited_tableBytes {α : Type} {fits : α → Prop} {bytes : α → List UInt8} (hbytes : Delimited fits bytes) :
    Delimited (TableFits fits) (tableBytes bytes) := by
  have hentry : Delimited (fun entry : String × α => TextFits entry.1 ∧ fits entry.2)
      (fun entry => textBytes entry.1 ++ bytes entry.2) := by
    rintro ⟨name, content⟩ ⟨name', content'⟩ ⟨hname, hcontent⟩ ⟨hname', hcontent'⟩ rest rest' h
    simp only [List.append_assoc] at h
    obtain ⟨hnames, h⟩ := delimited_textBytes name name' hname hname' _ _ h
    obtain ⟨hcontents, hrest⟩ := hbytes content content' hcontent hcontent' _ _ h
    exact ⟨by rw [hnames, hcontents], hrest⟩
  intro table table' hfits hfits' rest rest' h
  obtain ⟨hentries, hrest⟩ := delimited_listBytes hentry table.entries table'.entries hfits hfits' rest rest' h
  exact ⟨SortedMap.ext hentries, hrest⟩

/-! ## Methods -/

/-- A callable that may be absent is delimited: the first byte tells its kind, and in a closure two line numbers follow the
path. -/
theorem delimited_callableBytes : Delimited CallableFits callableBytes := by
  intro callable callable' hfits hfits' rest rest' h
  match callable, callable' with
  | none, none => exact ⟨rfl, (List.cons.inj h).2⟩
  | some (.named reference), some (.named reference') =>
    obtain ⟨hreference, hrest⟩ := delimited_textBytes reference reference' hfits hfits' rest rest' (List.cons.inj h).2
    exact ⟨by rw [hreference], hrest⟩
  | some (.closure ⟨file, first, last⟩), some (.closure ⟨file', first', last'⟩) =>
    simp only [callableBytes, List.append_assoc, List.cons_append, List.cons.injEq, true_and] at h
    obtain ⟨hfile, h⟩ := delimited_textBytes file file' hfits hfits' _ _ h
    obtain ⟨hfirst, h⟩ := delimited_lineBytes first first' trivial trivial _ _ h
    obtain ⟨hlast, hrest⟩ := delimited_lineBytes last last' trivial trivial _ _ h
    exact ⟨by rw [hfile, hfirst, hlast], hrest⟩
  | none, some (.named _) => exact absurd (List.cons.inj h).1 (by decide)
  | none, some (.closure _) => exact absurd (List.cons.inj h).1 (by decide)
  | some (.named _), none => exact absurd (List.cons.inj h).1 (by decide)
  | some (.named _), some (.closure _) => exact absurd (List.cons.inj h).1 (by decide)
  | some (.closure _), none => exact absurd (List.cons.inj h).1 (by decide)
  | some (.closure _), some (.named _) => exact absurd (List.cons.inj h).1 (by decide)

/-- A parameter is delimited. -/
theorem delimited_parameterBytes : Delimited ParameterFits parameterBytes := by
  rintro ⟨name, byReference, hasDefault, isVariadic, hint⟩ ⟨name', byReference', hasDefault', isVariadic', hint'⟩
    ⟨hname, hhint⟩ ⟨hname', hhint'⟩ rest rest' h
  simp only [parameterBytes, List.append_assoc] at h
  obtain ⟨hnames, h⟩ := delimited_textBytes name name' hname hname' _ _ h
  obtain ⟨hreference, hdefault, hvariadic, h⟩ := flagBytes_append_inj h
  obtain ⟨hhints, hrest⟩ := delimited_optionBytes hint hint' hhint hhint' _ _ h
  exact ⟨by rw [hnames, hreference, hdefault, hvariadic, hhints], hrest⟩

/-- A custom method is delimited. -/
theorem delimited_methodBytes : Delimited MethodFits methodBytes := by
  rintro ⟨callable, parameters, type⟩ ⟨callable', parameters', type'⟩ ⟨hcallable, hparameters, htype⟩
    ⟨hcallable', hparameters', htype'⟩ rest rest' h
  simp only [methodBytes, List.append_assoc] at h
  obtain ⟨hcallables, h⟩ := delimited_callableBytes callable callable' hcallable hcallable' _ _ h
  obtain ⟨hlists, h⟩ := delimited_listBytes delimited_parameterBytes parameters parameters' hparameters hparameters' _ _ h
  obtain ⟨htypes, hrest⟩ := delimited_optionBytes type type' htype htype' _ _ h
  exact ⟨by rw [hcallables, hlists, htypes], hrest⟩

/-! ## Fingerprints -/

/-- Fingerprints that fit are delimited: each of the seven fields ends where its own bytes say. -/
theorem delimited_bytes : Delimited Fits bytes := by
  intro f g hf hg rest rest' h
  simp only [bytes, List.append_assoc] at h
  obtain ⟨htypes, h⟩ := delimited_listBytes delimited_textBytes _ _ hf.types hg.types _ _ h
  obtain ⟨hmethods, h⟩ := delimited_tableBytes delimited_methodBytes _ _ hf.methods hg.methods _ _ h
  obtain ⟨hstatics, h⟩ := delimited_tableBytes delimited_methodBytes _ _ hf.staticMethods hg.staticMethods _ _ h
  obtain ⟨hproperties, h⟩ := delimited_tableBytes delimited_textBytes _ _ hf.properties hg.properties _ _ h
  obtain ⟨hstaticProperties, h⟩ :=
    delimited_tableBytes delimited_textBytes _ _ hf.staticProperties hg.staticProperties _ _ h
  obtain ⟨hconstants, h⟩ := delimited_tableBytes delimited_textBytes _ _ hf.constants hg.constants _ _ h
  obtain ⟨hname, hrest⟩ := delimited_optionBytes _ _ hf.typeName hg.typeName _ _ h
  cases f
  cases g
  cases htypes
  cases hmethods
  cases hstatics
  cases hproperties
  cases hstaticProperties
  cases hconstants
  cases hname
  exact ⟨rfl, hrest⟩

namespace DelimitedExample

/-- A method that calls a closure, with a parameter and a declared result. -/
def method : CustomMethod String where
  callable := some (.closure ⟨"src/a.rs", 3, 5⟩)
  parameters := [{ name := "x", byReference := true, typeHint := some "int" }]
  returnType := some "int"

/-- The fingerprint with some types, one method and one constant. -/
def withTypes (types : List String) : Fingerprint where
  types := types
  methods := SortedMap.ofOrdered (OrderedMap.ofList [("run", method)])
  staticMethods := SortedMap.ofOrdered ∅
  properties := SortedMap.ofOrdered ∅
  staticProperties := SortedMap.ofOrdered ∅
  constants := SortedMap.ofOrdered (OrderedMap.ofList [("SIZE", "1")])
  typeName := some "Dog"

/-- The first type name is the longer one. -/
def early : Fingerprint := withTypes ["ab", "c"]

/-- The second type name is the longer one. -/
def late : Fingerprint := withTypes ["a", "bc"]

end DelimitedExample

/-- The digest encoding loses nothing. Two fingerprints whose texts, lists and tables have lengths below `2 ^ 64` are the same as
soon as their bytes are, and, unless their bytes collide, they have the same digest exactly when they are the same. -/
theorem bytes_lossless (f g : Fingerprint) (hf : f.Fits) (hg : g.Fits) :
    (f.bytes = g.bytes → f = g) ∧ (¬Sha256.Collide f.bytes g.bytes → (f.digest = g.digest ↔ f = g)) := by
  have hbytes : f.bytes = g.bytes → f = g := by
    intro h
    exact (delimited_bytes f g hf hg [] [] (congrArg (· ++ []) h)).1
  refine ⟨hbytes, fun hfree => ⟨fun hdigest => ?_, congrArg digest⟩⟩
  rw [digest, digest, Sha256.hexDigest_eq_iff] at hdigest
  apply hbytes
  apply Classical.byContradiction
  intro hne
  exact hfree ⟨hne, hdigest⟩

/-- Two fingerprints whose texts, run together, are the same: they differ in where one type name ends and the next one starts. -/
theorem digest_ne_of_shifted_boundary :
    DelimitedExample.early.Fits ∧ DelimitedExample.late.Fits ∧
      DelimitedExample.early.bytes ≠ DelimitedExample.late.bytes ∧
      DelimitedExample.early.digest ≠ DelimitedExample.late.digest := by
  have hearly : DelimitedExample.early.Fits := by decide +kernel
  have hlate : DelimitedExample.late.Fits := by decide +kernel
  have hne : DelimitedExample.early ≠ DelimitedExample.late := by decide +kernel
  have hfree : ¬Sha256.Collide DelimitedExample.early.bytes DelimitedExample.late.bytes :=
    fun h => absurd h.2 (by decide +kernel)
  obtain ⟨hbytes, hdigest⟩ := bytes_lossless DelimitedExample.early DelimitedExample.late hearly hlate
  exact ⟨hearly, hlate, fun h => hne (hbytes h), fun h => hne ((hdigest hfree).mp h)⟩

end Fingerprint

end TestDouble

import TestDouble.Proofs.Number.Rounding

/-!
# The text of a number determines the number

The text of a magnitude is read back as its rank: `readRank` cuts the text at the exponent mark and at the point and rounds
what it spells (`readRank_magnitudeText`). With the sign in front of a binary64 number, and with the point or exponent mark that
no integer has, no two numbers have the same text (`text_inj`).
-/

namespace TestDouble

/-! ## Digits -/

/-- Every character of a text is a decimal digit. -/
def AllDigits (text : List Char) : Prop := ∀ c ∈ text, c.isDigit = true

namespace AllDigits

/-- A mark that is no digit does not stand among digits. -/
theorem not_mem {text : List Char} (h : AllDigits text) {mark : Char} (hmark : mark.isDigit = false) : mark ∉ text := by
  intro hm
  rw [h mark hm] at hmark
  cases hmark

theorem append {a b : List Char} (ha : AllDigits a) (hb : AllDigits b) : AllDigits (a ++ b) := by
  intro c hc
  rcases List.mem_append.mp hc with hc | hc
  · exact ha c hc
  · exact hb c hc

theorem sublist {a b : List Char} (hb : AllDigits b) (h : a.Sublist b) : AllDigits a := fun c hc => hb c (h.mem hc)

theorem zeros (count : Nat) : AllDigits (Number.zeros count) := by
  intro c hc
  rw [List.eq_of_mem_replicate hc]
  rfl

theorem toDigits (n : Nat) : AllDigits (Nat.toDigits 10 n) := fun _ hc =>
  Nat.isDigit_of_mem_toDigits (by decide) (by decide) hc

end AllDigits

/-- A decimal is made of digits. -/
theorem Decimal.allDigits_ofCoefficient (coefficient : Nat) (exponent : Int) :
    AllDigits (ofCoefficient coefficient exponent).digits := by
  intro c hc
  have hdropped := (List.dropWhile_sublist _).mem (List.mem_reverse.mp hc)
  exact AllDigits.toDigits coefficient c (List.mem_reverse.mp hdropped)

namespace Binary64

theorem allDigits_shortest (rank : Nat) : AllDigits (shortest rank).digits :=
  Decimal.allDigits_ofCoefficient _ _

/-- A positive magnitude has a digit. -/
theorem digits_shortest_ne_nil {rank : Nat} (h : rank ≠ 0) : (shortest rank).digits ≠ [] := by
  intro hnil
  have hrank := rank_shortest rank
  rw [Decimal.rank, hnil] at hrank
  exact h (hrank.symm.trans (Decimal.rankOf_zero _))

end Binary64

namespace Number

/-! ## Reading a magnitude back -/

/-- A text cut where a mark stands first, the mark left out. Without the mark all of it comes before the cut. -/
def cut (mark : Char) (text : List Char) : List Char × List Char :=
  (text.takeWhile (· != mark), (text.dropWhile (· != mark)).drop 1)

/-- The exponent that a sign and digits spell; no text spells no exponent. -/
def readExponent : List Char → Int
  | '-' :: digits => -Numeral.valueOf digits
  | '+' :: digits => Numeral.valueOf digits
  | _ => 0

/-- The rank of the magnitude that a text spells. -/
def readRank (text : List Char) : Nat :=
  let mantissa := (cut 'e' text).1
  let whole := (cut '.' mantissa).1
  let fraction := (cut '.' mantissa).2
  Decimal.rankOf (Numeral.valueOf (whole ++ fraction)) (readExponent (cut 'e' text).2 - fraction.length)

theorem cut_append {mark : Char} {head : List Char} (h : mark ∉ head) (tail : List Char) :
    cut mark (head ++ mark :: tail) = (head, tail) := by
  have hhead : ∀ c ∈ head, (c != mark) = true := fun c hc => bne_iff_ne.mpr fun he => h (he ▸ hc)
  rw [cut, List.takeWhile_append_of_pos hhead, List.dropWhile_append_of_pos hhead]
  simp

theorem cut_of_not_mem {mark : Char} {text : List Char} (h : mark ∉ text) : cut mark text = (text, []) := by
  have htext : ∀ c ∈ text, (c != mark) = true := fun c hc => bne_iff_ne.mpr fun he => h (he ▸ hc)
  have htake : (text ++ []).takeWhile (· != mark) = text ++ [].takeWhile (· != mark) :=
    List.takeWhile_append_of_pos htext
  have hdrop : (text ++ []).dropWhile (· != mark) = [].dropWhile (· != mark) := List.dropWhile_append_of_pos htext
  rw [List.append_nil, List.takeWhile_nil, List.append_nil] at htake
  rw [List.append_nil, List.dropWhile_nil] at hdrop
  rw [cut, htake, hdrop, List.drop_nil]

/-- Digits with a point among them spell the number they form, divided by ten for each digit after the point. -/
theorem readRank_point {whole fraction : List Char} (hwhole : AllDigits whole) (hfraction : AllDigits fraction) :
    readRank (whole ++ '.' :: fraction) = Decimal.rankOf (Numeral.valueOf (whole ++ fraction)) (-fraction.length) := by
  have hmark : 'e' ∉ whole ++ '.' :: fraction := by
    rw [List.mem_append, List.mem_cons, not_or, not_or]
    exact ⟨hwhole.not_mem rfl, by decide, hfraction.not_mem rfl⟩
  have hpoint : '.' ∉ whole := hwhole.not_mem rfl
  unfold readRank
  simp only [cut_of_not_mem hmark, cut_append hpoint, readExponent, Int.zero_sub]

/-- A first digit, the point and further digits, and an exponent. -/
theorem readRank_exponent {whole fraction : List Char} (hwhole : AllDigits whole) (hfraction : AllDigits fraction)
    (exponent : List Char) :
    readRank (whole ++ (if fraction = [] then [] else '.' :: fraction) ++ 'e' :: exponent) =
      Decimal.rankOf (Numeral.valueOf (whole ++ fraction)) (readExponent exponent - fraction.length) := by
  have hpoint : cut '.' (whole ++ (if fraction = [] then [] else '.' :: fraction)) = (whole, fraction) := by
    by_cases h : fraction = []
    · rw [if_pos h, List.append_nil, cut_of_not_mem (hwhole.not_mem rfl), h]
    · rw [if_neg h, cut_append (hwhole.not_mem rfl)]
  have hmark : 'e' ∉ whole ++ (if fraction = [] then [] else '.' :: fraction) := by
    rw [List.mem_append, not_or]
    refine ⟨hwhole.not_mem rfl, ?_⟩
    split
    · exact List.not_mem_nil
    · rw [List.mem_cons, not_or]
      exact ⟨by decide, hfraction.not_mem rfl⟩
  unfold readRank
  simp only [cut_append hmark, hpoint]

/-- A decimal written positionally is read back. -/
theorem readRank_positionalText {d : Decimal} (hd : AllDigits d.digits) : readRank (positionalText d) = d.rank := by
  unfold positionalText Decimal.rank
  split
  · rename_i lead hlead
    simp only
    split
    · rename_i hle
      have hfraction : AllDigits ['0'] := AllDigits.zeros 1
      have htext : d.digits ++ zeros (lead + 1 - d.digits.length) ++ ['.', '0'] =
          (d.digits ++ zeros (lead + 1 - d.digits.length)) ++ '.' :: ['0'] := rfl
      have hvalue : d.digits ++ zeros (lead + 1 - d.digits.length) ++ ['0'] =
          d.digits ++ zeros (lead + 1 - d.digits.length + 1) := by
        rw [List.append_assoc, zeros, zeros, ← List.replicate_succ']
      rw [htext, readRank_point (hd.append (AllDigits.zeros _)) hfraction, hvalue, Decimal.valueOf_append_zeros,
        Decimal.rankOf_mul_pow, hlead]
      congr 1
      simp only [List.length_singleton, Int.ofNat_eq_natCast]
      omega
    · rename_i hle
      rw [readRank_point (hd.sublist (List.take_sublist _ _)) (hd.sublist (List.drop_sublist _ _)),
        List.take_append_drop, List.length_drop, hlead]
      congr 1
      simp only [Int.ofNat_eq_natCast]
      omega
  · rename_i gap hlead
    have hwhole : AllDigits ['0'] := AllDigits.zeros 1
    have htext : '0' :: '.' :: zeros gap ++ d.digits = ['0'] ++ '.' :: (zeros gap ++ d.digits) := rfl
    have hvalue : ['0'] ++ (zeros gap ++ d.digits) = zeros (gap + 1) ++ d.digits := rfl
    rw [htext, readRank_point hwhole ((AllDigits.zeros gap).append hd), hvalue, Decimal.valueOf_zeros_append, hlead,
      List.length_append, zeros, List.length_replicate]
    congr 1
    omega

/-- A decimal written with an exponent is read back. -/
theorem readRank_scientificText {d : Decimal} (hd : AllDigits d.digits) (hne : d.digits ≠ []) :
    readRank (scientificText d) = d.rank := by
  have hfraction : (if d.digits.length ≤ 1 then [] else '.' :: d.digits.drop 1) =
      if d.digits.drop 1 = [] then [] else '.' :: d.digits.drop 1 := by
    simp only [List.drop_eq_nil_iff]
  have hlength : ((d.digits.drop 1).length : Int) = d.digits.length - 1 := by
    have hpos := List.length_pos_iff.mpr hne
    rw [List.length_drop]
    omega
  unfold scientificText Decimal.rank
  simp only
  rw [hfraction, readRank_exponent (hd.sublist (List.take_sublist _ _)) (hd.sublist (List.drop_sublist _ _)),
    List.take_append_drop, hlength]
  congr 1
  split
  · rename_i e hlead
    simp only [readExponent, Decimal.valueOf_toDigits, hlead, Int.ofNat_eq_natCast]
    omega
  · rename_i e hlead
    simp only [readExponent, Decimal.valueOf_toDigits, hlead]
    omega

/-- The text of a magnitude is read back as its rank. -/
theorem readRank_magnitudeText (rank : Nat) : readRank (magnitudeText rank) = rank := by
  unfold magnitudeText
  split
  · rename_i hzero
    have hdigit : AllDigits ['0'] := AllDigits.zeros 1
    have hvalue : Numeral.valueOf (['0'] ++ ['0']) = 0 := rfl
    have htext : ['0', '.', '0'] = ['0'] ++ '.' :: ['0'] := rfl
    rw [htext, readRank_point hdigit hdigit, hvalue, Decimal.rankOf_zero, hzero]
  · rename_i hne
    have hdigits := Binary64.allDigits_shortest rank
    simp only
    split
    · rw [readRank_positionalText hdigits, Binary64.rank_shortest]
    · rw [readRank_scientificText hdigits (Binary64.digits_shortest_ne_nil hne), Binary64.rank_shortest]

theorem magnitudeText_inj {a b : Nat} (h : magnitudeText a = magnitudeText b) : a = b := by
  rw [← readRank_magnitudeText a, h, readRank_magnitudeText]

/-! ## What stands in a text -/

/-- The characters that numbers are written with. -/
def isNumberChar (c : Char) : Bool := c.isDigit || c == '-' || c == '+' || c == '.' || c == 'e'

/-- A text that is written with characters of numbers and starts with a digit. -/
structure Unsigned (text : List Char) : Prop where
  chars : ∀ c ∈ text, isNumberChar c = true
  head : ∃ c rest, text = c :: rest ∧ c.isDigit = true

/-- Digits are characters of numbers. -/
theorem isNumberChar_of_allDigits {text : List Char} (h : AllDigits text) : ∀ c ∈ text, isNumberChar c = true := by
  intro c hc
  rw [Number.isNumberChar, h c hc]
  rfl

/-- Digits, if there is one, with further characters of numbers behind them. -/
theorem unsigned_append {digits rest : List Char} (hdigits : AllDigits digits) (hne : digits ≠ [])
    (hrest : ∀ c ∈ rest, isNumberChar c = true) : Unsigned (digits ++ rest) where
  chars c hc := by
    rcases List.mem_append.mp hc with hc | hc
    · exact isNumberChar_of_allDigits hdigits c hc
    · exact hrest c hc
  head := by
    obtain ⟨c, tail, rfl⟩ := List.exists_cons_of_ne_nil hne
    exact ⟨c, tail ++ rest, rfl, hdigits c List.mem_cons_self⟩

/-- No unsigned text starts with a minus sign. -/
theorem Unsigned.ne_minus {text : List Char} (h : Unsigned text) (rest : List Char) : text ≠ '-' :: rest := by
  obtain ⟨c, tail, htext, hdigit⟩ := h.head
  rintro rfl
  obtain rfl := (List.cons.inj htext).1
  cases hdigit

/-- The digits of a whole number are an unsigned text. -/
theorem unsigned_toDigits (n : Nat) : Unsigned (Nat.toDigits 10 n) := by
  have h : Unsigned (Nat.toDigits 10 n ++ []) :=
    unsigned_append (AllDigits.toDigits n) Nat.toDigits_ne_nil (fun c hc => absurd hc List.not_mem_nil)
  rwa [List.append_nil] at h

/-- A mark and digits are characters of numbers. -/
theorem isNumberChar_cons {mark : Char} (hmark : isNumberChar mark = true) {text : List Char} (h : AllDigits text) :
    ∀ c ∈ mark :: text, isNumberChar c = true := by
  intro c hc
  rcases List.mem_cons.mp hc with rfl | hc
  · exact hmark
  · exact isNumberChar_of_allDigits h c hc

/-- A decimal written positionally is unsigned and has a point. -/
theorem unsigned_positionalText {d : Decimal} (hd : AllDigits d.digits) (hne : d.digits ≠ []) :
    Unsigned (positionalText d) ∧ '.' ∈ positionalText d := by
  unfold positionalText
  split
  · rename_i lead hlead
    simp only
    split
    · rw [List.append_assoc]
      refine ⟨unsigned_append hd hne ?_, by simp⟩
      intro c hc
      rcases List.mem_append.mp hc with hc | hc
      · exact isNumberChar_of_allDigits (AllDigits.zeros _) c hc
      · exact isNumberChar_cons rfl (AllDigits.zeros 1) c hc
    · refine ⟨unsigned_append (hd.sublist (List.take_sublist _ _)) ?_ ?_, by simp⟩
      · intro hnil
        rcases List.take_eq_nil_iff.mp hnil with h | h
        · cases h
        · exact hne h
      · exact isNumberChar_cons rfl (hd.sublist (List.drop_sublist _ _))
  · rename_i gap hlead
    have htext : '0' :: '.' :: zeros gap ++ d.digits = zeros 1 ++ '.' :: (zeros gap ++ d.digits) := rfl
    rw [htext]
    refine ⟨unsigned_append (AllDigits.zeros 1) (List.cons_ne_nil _ _) ?_, by simp⟩
    exact isNumberChar_cons rfl ((AllDigits.zeros gap).append hd)

/-- A decimal written with an exponent is unsigned and has an exponent mark. -/
theorem unsigned_scientificText {d : Decimal} (hd : AllDigits d.digits) (hne : d.digits ≠ []) :
    Unsigned (scientificText d) ∧ 'e' ∈ scientificText d := by
  unfold scientificText
  simp only
  rw [List.append_assoc]
  refine ⟨unsigned_append (hd.sublist (List.take_sublist _ _)) ?_ ?_, by simp⟩
  · intro hnil
    rcases List.take_eq_nil_iff.mp hnil with h | h
    · cases h
    · exact hne h
  · intro c hc
    rw [List.mem_append, List.mem_cons] at hc
    rcases hc with hc | rfl | hc
    · split at hc
      · cases hc
      · exact isNumberChar_cons rfl (hd.sublist (List.drop_sublist _ _)) c hc
    · rfl
    · split at hc
      · exact isNumberChar_cons rfl (AllDigits.toDigits _) c hc
      · exact isNumberChar_cons rfl (AllDigits.toDigits _) c hc

/-- The text of a magnitude is unsigned and has a point or an exponent mark. -/
theorem unsigned_magnitudeText (rank : Nat) :
    Unsigned (magnitudeText rank) ∧ ('.' ∈ magnitudeText rank ∨ 'e' ∈ magnitudeText rank) := by
  unfold magnitudeText
  split
  · have htext : ['0', '.', '0'] = zeros 1 ++ '.' :: zeros 1 := rfl
    rw [htext]
    exact ⟨unsigned_append (AllDigits.zeros 1) (List.cons_ne_nil _ _) (isNumberChar_cons rfl (AllDigits.zeros 1)),
      Or.inl (by simp)⟩
  · rename_i hrank
    have hdigits := Binary64.allDigits_shortest rank
    have hne := Binary64.digits_shortest_ne_nil hrank
    simp only
    split
    · obtain ⟨hunsigned, hpoint⟩ := unsigned_positionalText hdigits hne
      exact ⟨hunsigned, Or.inl hpoint⟩
    · obtain ⟨hunsigned, hmark⟩ := unsigned_scientificText hdigits hne
      exact ⟨hunsigned, Or.inr hmark⟩

theorem realText_of_negative {value : Binary64} (h : value.negative = true) :
    realText value = '-' :: magnitudeText value.rank := if_pos h

theorem realText_of_not_negative {value : Binary64} (h : value.negative = false) :
    realText value = magnitudeText value.rank := if_neg (by rw [h]; exact Bool.false_ne_true)

/-- The text of a number is an unsigned text, perhaps with a minus sign in front. -/
theorem exists_unsigned_text (n : Number) : ∃ text, Unsigned text ∧ (n.text = text ∨ n.text = '-' :: text) := by
  cases n with
  | integer value =>
    cases value with
    | ofNat n => exact ⟨_, unsigned_toDigits n, Or.inl rfl⟩
    | negSucc n => exact ⟨_, unsigned_toDigits (n + 1), Or.inr rfl⟩
  | real value =>
    refine ⟨_, (unsigned_magnitudeText value.rank).1, ?_⟩
    cases hsign : value.negative with
    | true => exact Or.inr (realText_of_negative hsign)
    | false => exact Or.inl (realText_of_not_negative hsign)

/-- Every character of the text of a number is one of numbers. -/
theorem isNumberChar_of_mem_text {n : Number} : ∀ c ∈ n.text, isNumberChar c = true := by
  intro c hc
  obtain ⟨text, hunsigned, htext | htext⟩ := exists_unsigned_text n
  · exact hunsigned.chars c (htext ▸ hc)
  · rw [htext] at hc
    rcases List.mem_cons.mp hc with rfl | hc
    · rfl
    · exact hunsigned.chars c hc

/-- The text of a number starts with a digit or a minus sign. -/
theorem exists_text_eq_cons (n : Number) : ∃ c rest, n.text = c :: rest ∧ (c.isDigit = true ∨ c = '-') := by
  obtain ⟨text, hunsigned, htext | htext⟩ := exists_unsigned_text n
  · obtain ⟨c, rest, hcons, hdigit⟩ := hunsigned.head
    exact ⟨c, rest, htext.trans hcons, Or.inl hdigit⟩
  · exact ⟨'-', text, htext, Or.inr rfl⟩

/-! ## Different numbers have different texts -/

/-- Two whole numbers with the same text are the same. -/
theorem wholeText_inj {a b : Int} (h : wholeText a = wholeText b) : a = b := by
  have hdigits {n m : Nat} (hd : Nat.toDigits 10 n = Nat.toDigits 10 m) : n = m := by
    rw [← Decimal.valueOf_toDigits n, hd, Decimal.valueOf_toDigits]
  cases a with
  | ofNat n =>
    cases b with
    | ofNat m => rw [hdigits h]
    | negSucc m => exact absurd h ((unsigned_toDigits n).ne_minus _)
  | negSucc n =>
    cases b with
    | ofNat m => exact absurd h.symm ((unsigned_toDigits m).ne_minus _)
    | negSucc m =>
      have hsucc := hdigits (List.cons.inj h).2
      rw [Nat.succ.inj hsucc]

/-- Two binary64 numbers with the same text are the same, their signs included. -/
theorem realText_inj {a b : Binary64} (h : realText a = realText b) : a = b := by
  have hparts : a.negative = b.negative ∧ magnitudeText a.rank = magnitudeText b.rank := by
    cases ha : a.negative with
    | false =>
      rw [realText_of_not_negative ha] at h
      cases hb : b.negative with
      | false =>
        rw [realText_of_not_negative hb] at h
        exact ⟨rfl, h⟩
      | true =>
        rw [realText_of_negative hb] at h
        exact absurd h ((unsigned_magnitudeText a.rank).1.ne_minus _)
    | true =>
      rw [realText_of_negative ha] at h
      cases hb : b.negative with
      | false =>
        rw [realText_of_not_negative hb] at h
        exact absurd h.symm ((unsigned_magnitudeText b.rank).1.ne_minus _)
      | true =>
        rw [realText_of_negative hb] at h
        exact ⟨rfl, (List.cons.inj h).2⟩
  obtain ⟨hsign, hmagnitude⟩ := hparts
  have hrank := magnitudeText_inj hmagnitude
  cases a
  cases b
  cases hsign
  cases hrank
  rfl

/-- A whole number is written with digits and a sign only. -/
theorem not_mem_wholeText {mark : Char} (hmark : mark.isDigit = false) (hminus : mark ≠ '-') (n : Int) :
    mark ∉ wholeText n := by
  cases n with
  | ofNat n => exact (AllDigits.toDigits n).not_mem hmark
  | negSucc n =>
    have htext : wholeText (Int.negSucc n) = '-' :: Nat.toDigits 10 (n + 1) := rfl
    rw [htext, List.mem_cons, not_or]
    exact ⟨hminus, (AllDigits.toDigits (n + 1)).not_mem hmark⟩

/-- A whole number and a binary64 number never have the same text. -/
theorem wholeText_ne_realText (n : Int) (value : Binary64) : wholeText n ≠ realText value := by
  intro h
  have hmem {mark : Char} (hm : mark ∈ magnitudeText value.rank) : mark ∈ realText value := by
    cases hsign : value.negative with
    | true =>
      rw [realText_of_negative hsign]
      exact List.mem_cons_of_mem _ hm
    | false =>
      rw [realText_of_not_negative hsign]
      exact hm
  rcases (unsigned_magnitudeText value.rank).2 with hpoint | hexponent
  · exact not_mem_wholeText rfl (by decide) n (h ▸ hmem hpoint)
  · exact not_mem_wholeText rfl (by decide) n (h ▸ hmem hexponent)

/-- Two numbers with the same text are the same number. -/
theorem text_inj {a b : Number} (h : a.text = b.text) : a = b := by
  cases a with
  | integer n =>
    cases b with
    | integer m => rw [wholeText_inj h]
    | real value => exact absurd h (wholeText_ne_realText n value)
  | real value =>
    cases b with
    | integer m => exact absurd h.symm (wholeText_ne_realText m value)
    | real other => rw [realText_inj h]

end Number

end TestDouble

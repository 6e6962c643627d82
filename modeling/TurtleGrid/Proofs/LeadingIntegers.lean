import TurtleGrid.Proofs.Encoding
import TurtleGrid.Proofs.Numerals

namespace TurtleGrid

namespace Numeral

/-- The bytes of `'0'` to `'9'`. -/
def isDigitByte (b : UInt8) : Bool := 48 ≤ b && b ≤ 57

/-- One more decimal place by two operations, of which each saturates. -/
def pushByte (sign : Int) (value : Int64) (b : UInt8) : Int64 :=
  .ofIntClamp ((Int64.ofIntClamp (value.toInt * 10)).toInt + sign * (b - 48).toNat)

/-- The loop over the bytes of a word. -/
def scanBytes (sign : Int) (value : Int64) (digits : Int32) : List UInt8 → Numeral
  | [] => if digits = 0 then absent else ⟨value, true⟩
  | b :: bs =>
    if isDigitByte b then scanBytes sign (pushByte sign value b) (digits + 1) bs
    -- an underscore, with a digit behind it
    else if b = 95 ∧ 0 < digits ∧ bs.head?.any isDigitByte then scanBytes sign value digits bs
    else if digits = 0 then absent else ⟨value, false⟩

/-- Reads a number from bytes, of which the first may be a minus or a plus. -/
def readBytes : List UInt8 → Numeral
  | [] => scanBytes 1 0 0 []
  | b :: bs =>
    if b = 45 then scanBytes (-1) 0 0 bs
    else if b = 43 then scanBytes 1 0 0 bs
    else scanBytes 1 0 0 (b :: bs)

variable {sign : Int} {value : Int64} {c : Char} {cs : List Char}

/-- As long as the value has the sign of the number, the two operations come to one. -/
theorem pushByte_eq_push (hs : sign = 1 ∨ sign = -1) (hv : 0 ≤ sign * value.toInt)
    (hc : c.isDigit) : pushByte sign value (.ofNat c.toNat) = push sign value c := by
  have hd : 48 ≤ c.toNat ∧ c.toNat ≤ 57 := Char.isDigit_iff_toNat.1 hc
  have h0 : '0'.toNat = 48 := rfl
  have hb : (UInt8.ofNat c.toNat - 48).toNat = c.toNat - 48 := by
    have h48 : (48 : UInt8).toNat = 48 := rfl
    rw [UInt8.toNat_sub, UInt8.toNat_ofNat', h48]
    omega
  apply Int64.toInt.inj
  rw [pushByte, push, hb, h0, toInt_ofIntClamp_eq, toInt_ofIntClamp_eq, toInt_ofIntClamp_eq]
  rcases hs with rfl | rfl <;> omega

theorem push_nonneg (hs : sign = 1 ∨ sign = -1) (hv : 0 ≤ sign * value.toInt) (hc : c.isDigit) :
    0 ≤ sign * (push sign value c).toInt := by
  have hd : '0'.toNat ≤ c.toNat := (Char.isDigit_iff_toNat.1 hc).1
  rw [push, toInt_ofIntClamp_eq]
  rcases hs with rfl | rfl <;> omega

theorem isDigitByte_of_mem {b : UInt8} (hb : b ∈ String.utf8EncodeChar c) :
    isDigitByte b = c.isDigit := by
  have hd : c.isDigit = true ↔ 48 ≤ c.toNat ∧ c.toNat ≤ 57 := Char.isDigit_iff_toNat
  have hi : isDigitByte b = true ↔ 48 ≤ b.toNat ∧ b.toNat ≤ 57 := by
    rw [isDigitByte, Bool.and_eq_true, decide_eq_true_iff, decide_eq_true_iff]
    rfl
  rw [Bool.eq_iff_iff, hd, hi]
  rcases Nat.lt_or_ge c.toNat 128 with hc | hc
  · rw [utf8EncodeChar_of_lt hc, List.mem_singleton] at hb
    rw [hb, UInt8.toNat_ofNat', Nat.mod_eq_of_lt (by omega)]
  · have hl := le_of_mem_utf8EncodeChar hc b hb
    omega

theorem head?_flatMap_utf8EncodeChar (cs : List Char) :
    (cs.flatMap String.utf8EncodeChar).head?.any isDigitByte = cs.head?.any Char.isDigit := by
  cases cs with
  | nil => rfl
  | cons c cs =>
    obtain ⟨b, bs, hb⟩ := List.exists_cons_of_ne_nil (String.utf8EncodeChar_ne_nil (c := c))
    rw [List.flatMap_cons, hb]
    exact isDigitByte_of_mem (hb ▸ .head bs)

theorem isCodedBy_underscore : IsCodedBy String.utf8EncodeChar '_' 95 := isCodedBy_ascii (by decide)

theorem isCodedBy_minus : IsCodedBy String.utf8EncodeChar '-' 45 := isCodedBy_ascii (by decide)

theorem isCodedBy_plus : IsCodedBy String.utf8EncodeChar '+' 43 := isCodedBy_ascii (by decide)

theorem scanBytes_flatMap_cons (digits : Int32) :
    scanBytes sign value digits ((c :: cs).flatMap String.utf8EncodeChar) =
      if c.isDigit then
        scanBytes sign (pushByte sign value (.ofNat c.toNat)) (digits + 1)
          (cs.flatMap String.utf8EncodeChar)
      else if c = '_' ∧ 0 < digits ∧ cs.head?.any Char.isDigit then
        scanBytes sign value digits (cs.flatMap String.utf8EncodeChar)
      else if digits = 0 then absent else ⟨value, false⟩ := by
  obtain ⟨b, bs, hb⟩ := List.exists_cons_of_ne_nil (String.utf8EncodeChar_ne_nil (c := c))
  have hd : isDigitByte b = c.isDigit := isDigitByte_of_mem (hb ▸ .head bs)
  rw [List.flatMap_cons]
  by_cases hc : c.isDigit
  · rw [if_pos hc]
    have hl := (Char.isDigit_iff_toNat.1 hc).2
    rw [utf8EncodeChar_of_lt (Nat.lt_of_le_of_lt hl (by decide))] at hb ⊢
    cases hb
    rw [List.singleton_append, scanBytes, if_pos (hd.trans hc)]
  · rw [if_neg hc]
    by_cases hu : c = '_'
    · subst hu
      rw [isCodedBy_underscore.code_eq, List.singleton_append, scanBytes, if_neg (by decide),
        head?_flatMap_utf8EncodeChar]
      simp only [true_and]
    · have hu' : b ≠ 95 := mt (isCodedBy_underscore.head_eq_iff hb).1 hu
      rw [hb, List.cons_append, scanBytes, if_neg (hd ▸ hc), if_neg (not_and_of_not_left _ hu'),
        if_neg (not_and_of_not_left _ hu)]

theorem scanBytes_flatMap (hs : sign = 1 ∨ sign = -1) (hv : 0 ≤ sign * value.toInt)
    (cs : List Char) (digits : Int32) :
    scanBytes sign value digits (cs.flatMap String.utf8EncodeChar) =
      extend sign value digits cs := by
  induction cs generalizing value digits with
  | nil => rfl
  | cons c cs ih =>
    rw [scanBytes_flatMap_cons]
    split
    · rename_i hc
      -- what is pushed has the sign of the number again
      rw [pushByte_eq_push hs hv hc, ih (push_nonneg hs hv hc), extend_digit hc]
    · rename_i hc
      split
      · rename_i hu
        obtain ⟨rfl, hpos, hu⟩ := hu
        rw [ih hv]
        cases cs with
        | nil => cases hu
        | cons d ds => exact (extend_underscore hpos hu).symm
      · rename_i hu
        rw [extend_stop]
        · rfl
        · rintro d ds hd he
          cases he
          exact hc hd
        · rintro hpos d ds hd he
          cases he
          exact hu ⟨rfl, hpos, hd⟩

theorem readBytes_flatMap (cs : List Char) :
    readBytes (cs.flatMap String.utf8EncodeChar) = ofChars cs := by
  have h0 : ∀ sign : Int, 0 ≤ sign * (0 : Int64).toInt := fun sign =>
    Int.le_of_eq (Int.mul_zero sign).symm
  cases cs with
  | nil => rfl
  | cons c cs =>
    obtain ⟨b, bs, hb⟩ := List.exists_cons_of_ne_nil (String.utf8EncodeChar_ne_nil (c := c))
    rw [List.flatMap_cons]
    by_cases hm : c = '-'
    · rw [hm, isCodedBy_minus.code_eq]
      exact scanBytes_flatMap (.inr rfl) (h0 _) cs 0
    · by_cases hp : c = '+'
      · rw [hp, isCodedBy_plus.code_eq]
        exact scanBytes_flatMap (.inl rfl) (h0 _) cs 0
      · have hm' : b ≠ 45 := mt (isCodedBy_minus.head_eq_iff hb).1 hm
        have hp' : b ≠ 43 := mt (isCodedBy_plus.head_eq_iff hb).1 hp
        rw [ofChars_of_ne hm hp, ← scanBytes_flatMap (.inl rfl) (h0 _), List.flatMap_cons, hb,
          List.cons_append, readBytes, if_neg hm', if_neg hp']

theorem readBytes_encodeLine (word : String) : readBytes (encodeLine word) = read word := by
  rw [encodeLine_eq_flatMap, read, readBytes_flatMap]

/-- A word is read as its longest numeral, clamped to 64 bits, if that has fewer than `2 ^ 31`
digits. -/
theorem read_longest (word : String) :
    readBytes (encodeLine word) = read word ∧
    let cs := word.toList
    ((∀ g, g <+: cs → ¬ IsNumeral g) ∧ read word = ⟨0, false⟩ ∨
      ∃ g, IsLongest IsNumeral g cs ∧
        (g.countP Char.isDigit < 2 ^ 31 →
          (read word).value.toInt = max (-2 ^ 63) (min (denoted g) (2 ^ 63 - 1)) ∧
          ((read word).whole ↔ g = cs))) ∧
    ((read word).whole ↔ IsNumeral cs ∧ IsCounted cs ∧ digitCount cs ≠ 0) ∧
    ∀ g, IsLongest (fun h => IsNumeral h ∧ IsCounted h) g cs →
      read word = if digitCount g = 0 then ⟨0, false⟩
        else ⟨.ofIntClamp (denoted g), decide (g = cs)⟩ := by
  refine ⟨readBytes_encodeLine word, ?_, whole_ofChars_iff, fun g hg => ofChars_isLongest hg⟩
  rcases exists_isLongest IsNumeral word.toList with hn | ⟨g, hg⟩
  · exact .inl ⟨hn, ofChars_absent fun g hb hg => hn g hb hg.1⟩
  · refine .inr ⟨g, hg, fun hl => ?_⟩
    have hr : read word = ⟨.ofIntClamp (denoted g), decide (g = word.toList)⟩ :=
      ofChars_of_countP_lt hg hl
    rw [hr]
    exact ⟨toInt_ofIntClamp_eq (denoted g), decide_eq_true_iff⟩

theorem digitCount_zeros (n : Nat) : digitCount (List.replicate n '0') = .ofNat n := by
  rw [digitCount, List.countP_replicate, if_pos (by decide)]

theorem isDigits_zeros {n : Nat} (h0 : 0 < n) : IsDigits (List.replicate n '0') := by
  apply IsDigits.of_forall
  · exact mt (List.replicate_eq_nil_iff '0').1 (Nat.ne_of_gt h0)
  · intro c hc
    rw [List.eq_of_mem_replicate hc]
    decide

theorem magnitude_zeros (n : Nat) (cs : List Char) :
    magnitude (List.replicate n '0' ++ cs) = magnitude cs := by
  rw [magnitude, List.filter_append, List.filter_replicate, if_pos (by decide),
    Nat.ofDigitChars_append, Nat.ofDigitChars_replicate_zero, Nat.mul_zero, magnitude]

theorem ofChars_zeros {n : Nat} (h0 : 0 < n) (hneg : Int32.ofNat n < 0) :
    ofChars (List.replicate n '0' ++ ['_', '5']) = ⟨0, false⟩ := by
  have hd := isDigits_zeros h0
  have hpos : ∀ h, h ++ ['_'] <+: List.replicate n '0' → 0 < 0 + digitCount h := by
    intro h hh
    have hm : '_' ∈ h ++ ['_'] := List.mem_append_right h (List.mem_singleton.2 rfl)
    exact absurd (List.eq_of_mem_replicate (hh.subset hm)) (by decide)
  have hstop : extend 1 0 (.ofNat n) ['_', '5'] = ⟨0, false⟩ := by
    have hlt : ¬ 0 < Int32.ofNat n := Int32.not_lt.2 (Int32.le_of_lt hneg)
    rw [extend, if_neg fun h => hlt h.1, settle_of_ne (Int32.ne_of_lt hneg)]
  have hm := magnitude_zeros n []
  rw [List.append_nil, magnitude] at hm
  have h : extend 1 0 0 (List.replicate n '0' ++ ['_', '5']) = _ :=
    extend_append (.inl rfl) hd hpos 0
  rw [hm, digitCount_zeros, Int32.zero_add] at h
  rw [hd.ofChars_append, ← hstop]
  exact h

/-- The count of `2 ^ 31` digits is negative, and the five behind them is lost. -/
theorem read_zeros :
    let word := String.ofList (List.replicate (2 ^ 31) '0' ++ ['_', '5'])
    IsLongest IsNumeral word.toList word.toList ∧ denoted word.toList = 5 ∧
      read word = ⟨0, false⟩ := by
  intro word
  have h0 : 0 < 2 ^ 31 := by decide
  have hw : word.toList = List.replicate (2 ^ 31) '0' ++ ['_', '5'] := String.toList_ofList
  have hd : IsDigits word.toList := by
    rw [hw]
    exact (isDigits_zeros h0).append_spaced (.last (by decide))
  refine ⟨isLongest_self (.unsigned hd), ?_, ?_⟩
  · rw [hd.denoted_eq, hw, magnitude_zeros]
    rfl
  · rw [read, hw]
    exact ofChars_zeros h0 (by decide)

end Numeral

end TurtleGrid

import TurtleGrid.Proofs.Numerals

namespace TurtleGrid

namespace Numeral

theorem isDigit_of_mem_toDigits {n : Nat} {c : Char} (h : c ∈ Nat.toDigits 10 n) : c.isDigit :=
  Nat.isDigit_of_mem_toDigits (by decide) (by decide) h

theorem isDigits_toDigits (n : Nat) : IsDigits (Nat.toDigits 10 n) :=
  .of_forall Nat.toDigits_ne_nil fun _ => isDigit_of_mem_toDigits

theorem magnitude_toDigits (n : Nat) : magnitude (Nat.toDigits 10 n) = n := by
  rw [magnitude, List.filter_eq_self.2 fun _ => isDigit_of_mem_toDigits,
    Nat.ofDigitChars_ten_toDigits]

theorem length_toDigits_le {n : Nat} (h : n < 2 ^ 64) : (Nat.toDigits 10 n).length ≤ 20 :=
  (Nat.length_toDigits_le_iff (by decide) (by decide)).2 (Nat.lt_trans h (by decide))

theorem toList_toString (n : Nat) : (toString n).toList = Nat.toDigits 10 n := by
  rw [Nat.toString_eq_repr, Nat.toList_repr]

theorem toList_toString_negSucc (n : Nat) :
    (toString (Int.negSucc n)).toList = '-' :: Nat.toDigits 10 (n + 1) := by
  have h : toString (Int.negSucc n) = "-" ++ toString (n + 1) := rfl
  rw [h, String.toList_append, toList_toString]
  rfl

theorem toList_toString_int_ne_nil (i : Int) : (toString i).toList ≠ [] := by
  cases i with
  | ofNat n =>
    have h : (toString (Int.ofNat n)).toList = _ := toList_toString n
    rw [h]
    exact Nat.toDigits_ne_nil
  | negSucc n =>
    rw [toList_toString_negSucc]
    exact List.cons_ne_nil _ _

theorem eq_minus_or_isDigit {i : Int} {c : Char} (h : c ∈ (toString i).toList) :
    c = '-' ∨ c.isDigit := by
  cases i with
  | ofNat n => exact .inr (isDigit_of_mem_toDigits (toList_toString n ▸ h))
  | negSucc n =>
    rw [toList_toString_negSucc] at h
    exact (List.mem_cons.1 h).imp_right isDigit_of_mem_toDigits

theorem ofChars_of_length_le {cs : List Char} (hn : IsNumeral cs) (hl : cs.length ≤ 21) :
    ofChars cs = ⟨.ofIntClamp (denoted cs), true⟩ := by
  have hle : cs.countP Char.isDigit ≤ cs.length := List.countP_le_length
  rw [ofChars_of_countP_lt (isLongest_self hn) (by omega), decide_eq_true rfl]

theorem read_toString {n : Nat} (h : n < 2 ^ 64) : read (toString n) = ⟨.ofIntClamp n, true⟩ := by
  have hd := isDigits_toDigits n
  rw [read, toList_toString, ofChars_of_length_le (.unsigned hd)
    (Nat.le_succ_of_le (length_toDigits_le h)), hd.denoted_eq, magnitude_toDigits]

theorem read_toString_int {i : Int} (h : i.natAbs < 2 ^ 64) :
    read (toString i) = ⟨.ofIntClamp i, true⟩ := by
  cases i with
  | ofNat n => exact read_toString h
  | negSucc n =>
    have hv : denoted ('-' :: Nat.toDigits 10 (n + 1)) = -magnitude (Nat.toDigits 10 (n + 1)) := rfl
    rw [read, toList_toString_negSucc, ofChars_of_length_le (.minus (isDigits_toDigits (n + 1)))
      (Nat.succ_le_succ (length_toDigits_le h)), hv, magnitude_toDigits]
    rfl

end Numeral

end TurtleGrid

import Mathlib.Algebra.Group.Int.Defs
import Mathlib.Algebra.Group.Nat.Defs
import Mathlib.Data.List.Induction
import TurtleGrid.Numeral

namespace TurtleGrid

theorem toInt_ofIntClamp_eq (i : Int) :
    (Int64.ofIntClamp i).toInt = max (-2 ^ 63) (min i (2 ^ 63 - 1)) := by
  have hmin : Int64.minValue.toInt = -2 ^ 63 := by decide
  have hmax : Int64.maxValue.toInt = 2 ^ 63 - 1 := by decide
  unfold Int64.ofIntClamp
  split
  · rename_i hl
    rw [hmin] at hl
    split
    · rename_i hr
      rw [hmax] at hr
      rw [Int64.toInt_ofIntLE]
      omega
    · rename_i hr
      rw [hmax] at hr ⊢
      omega
  · rename_i hl
    rw [hmin] at hl ⊢
    omega

namespace Numeral

/-- Digits, of which two may have one underscore between them. -/
inductive IsDigits : List Char → Prop where
  | last {c : Char} : c.isDigit → IsDigits [c]
  | cons {c : Char} {cs : List Char} : c.isDigit → IsDigits cs → IsDigits (c :: cs)
  | spaced {c : Char} {cs : List Char} : c.isDigit → IsDigits cs → IsDigits (c :: '_' :: cs)

inductive IsNumeral : List Char → Prop where
  | unsigned {cs : List Char} : IsDigits cs → IsNumeral cs
  | plus {cs : List Char} : IsDigits cs → IsNumeral ('+' :: cs)
  | minus {cs : List Char} : IsDigits cs → IsNumeral ('-' :: cs)

/-- The digits alone as a decimal number. -/
def magnitude (cs : List Char) : Nat := Nat.ofDigitChars 10 (cs.filter Char.isDigit) 0

/-- The integer that a numeral stands for. -/
def denoted (cs : List Char) : Int :=
  if cs.head? = some '-' then -magnitude cs else magnitude cs

/-- The number of digits as a word of 32 bits, which wraps around. -/
def digitCount (cs : List Char) : Int32 := .ofNat (cs.countP Char.isDigit)

/-- Before each underscore the count of digits is positive. -/
def IsCounted (cs : List Char) : Prop := ∀ h, h ++ ['_'] <+: cs → 0 < digitCount h

/-- Of the beginnings of `cs` that have the property `p`, `g` is the longest. -/
structure IsLongest (p : List Char → Prop) (g cs : List Char) : Prop where
  holds : p g
  begins : g <+: cs
  longest : ∀ h, p h → h <+: cs → h.length ≤ g.length

section Longest

variable {p : List Char → Prop} {g h cs rest : List Char}

theorem exists_isLongest (p : List Char → Prop) (cs : List Char) :
    (∀ g, g <+: cs → ¬ p g) ∨ ∃ g, IsLongest p g cs := by
  induction cs using List.reverseRecOn with
  | nil =>
    by_cases hp : p []
    · exact .inr ⟨[], hp, List.prefix_rfl, fun h _ hb => hb.length_le⟩
    · refine .inl fun g hb hg => hp ?_
      rwa [← List.prefix_nil.1 hb]
  | append_singleton cs c ih =>
    by_cases hp : p (cs ++ [c])
    · exact .inr ⟨cs ++ [c], hp, List.prefix_rfl, fun h _ hb => hb.length_le⟩
    · -- the beginnings with the property are those of `cs`
      have hcs : ∀ g, p g → g <+: cs ++ [c] → g <+: cs := by
        intro g hg hb
        rcases List.prefix_concat_iff.1 hb with rfl | hb
        · exact absurd hg hp
        · exact hb
      rcases ih with hn | ⟨g, hg⟩
      · exact .inl fun g hb hg => hn g (hcs g hg hb) hg
      · exact .inr ⟨g, hg.holds, hg.begins.trans (List.prefix_append cs [c]),
          fun h hh hb => hg.longest h hh (hcs h hh hb)⟩

theorem isLongest_self (hp : p cs) : IsLongest p cs cs where
  holds := hp
  begins := List.prefix_rfl
  longest _ _ hb := hb.length_le

theorem IsLongest.eq_nil (hg : IsLongest p g (g ++ rest)) (hp : p (g ++ h)) (hh : h <+: rest) :
    h = [] := by
  have hl := hg.longest (g ++ h) hp ((List.prefix_append_right_inj g).2 hh)
  rw [List.length_append] at hl
  apply List.eq_nil_of_length_eq_zero
  omega

theorem IsLongest.and {q : List Char → Prop} (hg : IsLongest p g cs) (hq : q g) :
    IsLongest (fun h => p h ∧ q h) g cs where
  holds := ⟨hg.holds, hq⟩
  begins := hg.begins
  longest h hh hb := hg.longest h hh.1 hb

end Longest

section Counts

variable {c : Char} {g h cs : List Char}

theorem ne_of_isDigit {d : Char} (hc : c.isDigit) (hd : ¬ d.isDigit) : c ≠ d := by
  rintro rfl
  exact hd hc

theorem digitCount_cons (hc : c.isDigit) : digitCount (c :: cs) = 1 + digitCount cs := by
  rw [digitCount, List.countP_cons_of_pos hc, Nat.add_comm, Int32.ofNat_add]
  rfl

theorem digitCount_cons_of_not (hc : ¬ c.isDigit) : digitCount (c :: cs) = digitCount cs := by
  rw [digitCount, List.countP_cons_of_neg hc, digitCount]

theorem digitCount_pos (h0 : 0 < cs.countP Char.isDigit) (hl : cs.countP Char.isDigit < 2 ^ 31) :
    0 < digitCount cs := by
  rw [digitCount, Int32.lt_iff_toInt_lt, Int32.toInt_ofNat_of_lt hl]
  exact Int.natCast_pos.2 h0

theorem IsCounted.concat (hg : IsCounted g) (hc : c ≠ '_') : IsCounted (g ++ [c]) := by
  intro h hh
  rcases List.prefix_concat_iff.1 hh with he | hh
  · exact absurd (List.append_inj' he rfl).2 (by simpa using hc.symm)
  · exact hg h hh

theorem IsCounted.concat_underscore (hg : IsCounted g) (hpos : 0 < digitCount g) :
    IsCounted (g ++ ['_']) := by
  intro h hh
  rcases List.prefix_concat_iff.1 hh with he | hh
  · rwa [List.append_cancel_right he]
  · exact hg h hh

theorem forall_cons_prefix_iff (hc : c ≠ '_') {q : List Char → Prop} :
    (∀ h, h ++ ['_'] <+: c :: cs → q h) ↔ ∀ h, h ++ ['_'] <+: cs → q (c :: h) := by
  constructor
  · intro hq h hh
    exact hq (c :: h) (List.cons_prefix_cons.2 ⟨rfl, hh⟩)
  · intro hq h hh
    cases h with
    | nil => exact absurd (List.cons_prefix_cons.1 hh).1.symm hc
    | cons d h =>
      obtain ⟨rfl, hh'⟩ := List.cons_prefix_cons.1 hh
      exact hq h hh'

theorem isCounted_cons_sign (hc : ¬ c.isDigit) (hu : c ≠ '_') :
    IsCounted (c :: cs) ↔ IsCounted cs := by
  rw [IsCounted, forall_cons_prefix_iff hu]
  simp only [digitCount_cons_of_not hc]
  rfl

end Counts

namespace IsDigits

variable {g h : List Char}

theorem append (hg : IsDigits g) (hh : IsDigits h) : IsDigits (g ++ h) := by
  induction hg with
  | last hc => exact .cons hc hh
  | cons hc _ ih => exact .cons hc ih
  | spaced hc _ ih => exact .spaced hc ih

theorem append_spaced (hg : IsDigits g) (hh : IsDigits h) : IsDigits (g ++ '_' :: h) := by
  induction hg with
  | last hc => exact .spaced hc hh
  | cons hc _ ih => exact .cons hc ih
  | spaced hc _ ih => exact .spaced hc ih

theorem exists_cons (hg : IsDigits g) : ∃ c cs, g = c :: cs ∧ c.isDigit := by
  cases hg with
  | last hc => exact ⟨_, _, rfl, hc⟩
  | cons hc _ => exact ⟨_, _, rfl, hc⟩
  | spaced hc _ => exact ⟨_, _, rfl, hc⟩

theorem of_forall (hn : g ≠ []) (hg : ∀ c ∈ g, c.isDigit) : IsDigits g := by
  induction g with
  | nil => exact absurd rfl hn
  | cons c g ih =>
    obtain ⟨hc, hg⟩ := List.forall_mem_cons.1 hg
    cases g with
    | nil => exact .last hc
    | cons d g => exact .cons hc (ih (List.cons_ne_nil d g) hg)

theorem countP_pos (hg : IsDigits g) : 0 < g.countP Char.isDigit := by
  obtain ⟨c, cs, rfl, hc⟩ := hg.exists_cons
  rw [List.countP_cons_of_pos hc]
  exact Nat.succ_pos _

theorem isCounted (hg : IsDigits g) (hl : g.countP Char.isDigit < 2 ^ 31) : IsCounted g := by
  obtain ⟨c, cs, rfl, hc⟩ := hg.exists_cons
  refine (forall_cons_prefix_iff (ne_of_isDigit hc (by decide))).2 fun h hh => ?_
  have hle : h.countP Char.isDigit ≤ cs.countP Char.isDigit :=
    ((List.prefix_append h ['_']).trans hh).countP_le
  rw [List.countP_cons_of_pos hc] at hl
  apply digitCount_pos
  · rw [List.countP_cons_of_pos hc]
    exact Nat.succ_pos _
  · rw [List.countP_cons_of_pos hc]
    omega

end IsDigits

theorem IsNumeral.countP_pos {g : List Char} (hg : IsNumeral g) : 0 < g.countP Char.isDigit := by
  cases hg with
  | unsigned hg => exact hg.countP_pos
  | plus hg => exact hg.countP_pos
  | minus hg => exact hg.countP_pos

theorem IsNumeral.isCounted {g : List Char} (hg : IsNumeral g)
    (hl : g.countP Char.isDigit < 2 ^ 31) : IsCounted g := by
  cases hg with
  | unsigned hg => exact hg.isCounted hl
  | plus hg => exact (isCounted_cons_sign (by decide) (by decide)).2 (hg.isCounted hl)
  | minus hg => exact (isCounted_cons_sign (by decide) (by decide)).2 (hg.isCounted hl)

/-- A number may be clamped before or after a digit is put to it. -/
theorem push_ofIntClamp {sign : Int} (hs : sign = 1 ∨ sign = -1) (m : Nat) {c : Char}
    (hc : c.isDigit) :
    push sign (.ofIntClamp (sign * m)) c =
      .ofIntClamp (sign * (10 * m + (c.toNat - '0'.toNat) : Nat)) := by
  have hd : '0'.toNat ≤ c.toNat := (Char.isDigit_iff_toNat.1 hc).1
  apply Int64.toInt.inj
  -- a value at a bound stays there, since ten times it is further out
  rw [push, toInt_ofIntClamp_eq, toInt_ofIntClamp_eq, toInt_ofIntClamp_eq]
  rcases hs with rfl | rfl <;> omega

section Scan

variable {sign : Int} {value : Int64} {count : Int32} {c : Char} {g cs rest : List Char}

theorem extend_digit (hc : c.isDigit) :
    extend sign value count (c :: cs) = extend sign (push sign value c) (count + 1) cs := by
  rw [extend, if_pos hc]
  intro d ds he
  exact absurd he (ne_of_isDigit hc (by decide))

theorem extend_underscore (hpos : 0 < count) (hc : c.isDigit) :
    extend sign value count ('_' :: c :: cs) = extend sign value count (c :: cs) := by
  rw [extend, if_pos ⟨hpos, hc⟩, extend_digit hc]

theorem settle_of_ne {whole : Bool} (h : count ≠ 0) : settle value count whole = ⟨value, whole⟩ :=
  if_neg h

/-- Nothing more is read without a digit, or an underscore that the count allows and a digit. -/
theorem extend_stop (hd : ∀ c ds, c.isDigit → cs ≠ c :: ds)
    (hu : 0 < count → ∀ c ds, c.isDigit → cs ≠ '_' :: c :: ds) :
    extend sign value count cs = settle value count cs.isEmpty := by
  unfold extend
  split
  · rfl
  · rename_i c ds
    exact if_neg fun hc => hu hc.1 c ds hc.2 rfl
  · rename_i c ds _
    exact if_neg fun hc => hd c ds hc rfl

/-- Digits are read one after the other, with one clamp at their end. -/
theorem extend_append (hs : sign = 1 ∨ sign = -1) (hg : IsDigits g)
    (hpos : ∀ h, h ++ ['_'] <+: g → 0 < count + digitCount h) (m : Nat) :
    extend sign (.ofIntClamp (sign * m)) count (g ++ rest) =
      extend sign (.ofIntClamp (sign * Nat.ofDigitChars 10 (g.filter Char.isDigit) m))
        (count + digitCount g) rest := by
  induction hg generalizing m count with
  | last hc =>
    rw [List.singleton_append, extend_digit hc, push_ofIntClamp hs m hc,
      List.filter_cons_of_pos hc, Nat.ofDigitChars_cons, digitCount_cons hc]
    rfl
  | @cons c cs hc _ ih =>
    have hpos' := (forall_cons_prefix_iff (ne_of_isDigit hc (by decide))).1 hpos
    simp only [digitCount_cons hc, ← Int32.add_assoc] at hpos'
    rw [List.cons_append, extend_digit hc, push_ofIntClamp hs m hc, List.filter_cons_of_pos hc,
      Nat.ofDigitChars_cons, ih hpos', digitCount_cons hc, Int32.add_assoc]
  | @spaced c cs hc hcs ih =>
    obtain ⟨d, ds, rfl, hd⟩ := hcs.exists_cons
    have hpos' := (forall_cons_prefix_iff (ne_of_isDigit hc (by decide))).1 hpos
    simp only [digitCount_cons hc, ← Int32.add_assoc] at hpos'
    have h1 : 0 < count + 1 := by
      have h := hpos' [] (List.prefix_append ['_'] (d :: ds))
      have hnil : digitCount [] = 0 := rfl
      rwa [hnil, Int32.add_zero] at h
    rw [List.cons_append, List.cons_append, extend_digit hc, push_ofIntClamp hs m hc,
      List.cons_append, extend_underscore h1 hd, List.filter_cons_of_pos hc,
      List.filter_cons_of_neg (by decide), Nat.ofDigitChars_cons, digitCount_cons hc,
      digitCount_cons_of_not (by decide), ← Int32.add_assoc, ← ih]
    · rfl
    · intro h hh
      have h' := hpos' ('_' :: h) (List.cons_prefix_cons.2 ⟨rfl, hh⟩)
      rwa [digitCount_cons_of_not (by decide)] at h'

theorem extend_isLongest (hs : sign = 1 ∨ sign = -1)
    (hg : IsLongest (fun h => IsDigits h ∧ IsCounted h) g cs) :
    extend sign 0 0 cs =
      settle (.ofIntClamp (sign * magnitude g)) (digitCount g) (decide (g = cs)) := by
  obtain ⟨rest, rfl⟩ := hg.begins
  obtain ⟨hdigits, hcounted⟩ := hg.holds
  have hd : ∀ c ds, c.isDigit → rest ≠ c :: ds := by
    rintro c ds hc rfl
    have hn := hcounted.concat (ne_of_isDigit hc (by decide))
    cases hg.eq_nil ⟨hdigits.append (.last hc), hn⟩ (List.prefix_append [c] ds)
  have hu : 0 < digitCount g → ∀ c ds, c.isDigit → rest ≠ '_' :: c :: ds := by
    rintro hpos c ds hc rfl
    have hn := (hcounted.concat_underscore hpos).concat (ne_of_isDigit hc (by decide))
    rw [List.append_assoc] at hn
    cases hg.eq_nil ⟨hdigits.append_spaced (.last hc), hn⟩ (List.prefix_append ['_', c] ds)
  have hw : decide (g = g ++ rest) = rest.isEmpty := by
    rw [Bool.eq_iff_iff, decide_eq_true_iff, List.isEmpty_iff]
    exact List.self_eq_append_right
  have hpos : ∀ h, h ++ ['_'] <+: g → 0 < 0 + digitCount h := by
    intro h hh
    rw [Int32.zero_add]
    exact hcounted h hh
  have h : extend sign (.ofIntClamp (sign * (0 : Nat))) 0 (g ++ rest) = _ :=
    extend_append hs hdigits hpos 0
  rw [Int.natCast_zero, Int.mul_zero, Int32.zero_add] at h
  rw [hw, ← extend_stop hd hu]
  exact h

theorem extend_absent (hd : ∀ c ds, c.isDigit → cs ≠ c :: ds) : extend sign 0 0 cs = absent :=
  extend_stop hd fun h => absurd h (by decide)

theorem ofChars_of_ne (hm : c ≠ '-') (hp : c ≠ '+') :
    ofChars (c :: cs) = extend 1 0 0 (c :: cs) := by
  unfold ofChars
  split
  · rename_i he
    exact absurd (List.cons.inj he).1 hm
  · rename_i he
    exact absurd (List.cons.inj he).1 hp
  · rfl

theorem IsDigits.ofChars_append (hg : IsDigits g) :
    ofChars (g ++ rest) = extend 1 0 0 (g ++ rest) := by
  obtain ⟨c, cs, rfl, hc⟩ := hg.exists_cons
  exact ofChars_of_ne (ne_of_isDigit hc (by decide)) (ne_of_isDigit hc (by decide))

theorem IsDigits.denoted_eq (hg : IsDigits g) : denoted g = magnitude g := by
  obtain ⟨c, cs, rfl, hc⟩ := hg.exists_cons
  exact if_neg fun he => ne_of_isDigit hc (by decide) (Option.some.inj he)

theorem IsLongest.tail (hc : ¬ c.isDigit) (hu : c ≠ '_')
    (hn : ∀ h, IsDigits h → IsNumeral (c :: h)) (hg : IsDigits g)
    (hl : IsLongest (fun h => IsNumeral h ∧ IsCounted h) (c :: g) (c :: cs)) :
    IsLongest (fun h => IsDigits h ∧ IsCounted h) g cs where
  holds := ⟨hg, (isCounted_cons_sign hc hu).1 hl.holds.2⟩
  begins := (List.cons_prefix_cons.1 hl.begins).2
  longest h hh hb :=
    Nat.le_of_succ_le_succ (hl.longest (c :: h) ⟨hn h hh.1, (isCounted_cons_sign hc hu).2 hh.2⟩
      (List.cons_prefix_cons.2 ⟨rfl, hb⟩))

theorem ofChars_isLongest (hl : IsLongest (fun h => IsNumeral h ∧ IsCounted h) g cs) :
    ofChars cs = settle (.ofIntClamp (denoted g)) (digitCount g) (decide (g = cs)) := by
  obtain ⟨rest, rfl⟩ := hl.begins
  cases hl.holds.1 with
  | unsigned hg =>
    have hd : IsLongest (fun h => IsDigits h ∧ IsCounted h) g (g ++ rest) :=
      ⟨⟨hg, hl.holds.2⟩, hl.begins, fun h hh hb => hl.longest h ⟨.unsigned hh.1, hh.2⟩ hb⟩
    rw [hg.ofChars_append, extend_isLongest (.inl rfl) hd, Int.one_mul, hg.denoted_eq]
  | @plus g hg =>
    have hd : IsLongest (fun h => IsDigits h ∧ IsCounted h) g (g ++ rest) :=
      hl.tail (by decide) (by decide) (fun h => .plus) hg
    have ho : ofChars ('+' :: g ++ rest) = extend 1 0 0 (g ++ rest) := rfl
    have hv : denoted ('+' :: g) = magnitude g := rfl
    rw [ho, extend_isLongest (.inl rfl) hd, Int.one_mul, hv, digitCount_cons_of_not (by decide)]
    simp
  | @minus g hg =>
    have hd : IsLongest (fun h => IsDigits h ∧ IsCounted h) g (g ++ rest) :=
      hl.tail (by decide) (by decide) (fun h => .minus) hg
    have ho : ofChars ('-' :: g ++ rest) = extend (-1) 0 0 (g ++ rest) := rfl
    have hv : denoted ('-' :: g) = -magnitude g := rfl
    rw [ho, extend_isLongest (.inr rfl) hd, Int.neg_one_mul, hv,
      digitCount_cons_of_not (by decide)]
    simp

theorem ofChars_absent (hn : ∀ g, g <+: cs → ¬ (IsNumeral g ∧ IsCounted g)) :
    ofChars cs = absent := by
  have hshort : ∀ g, IsNumeral g → g.length ≤ 2 → ¬ g <+: cs := by
    intro g hg hl hb
    have hle : g.countP Char.isDigit ≤ g.length := List.countP_le_length
    exact hn g hb ⟨hg, hg.isCounted (by omega)⟩
  unfold ofChars
  split
  · apply extend_absent
    rintro c ds hc rfl
    exact hshort ['-', c] (.minus (.last hc)) (Nat.le_refl 2) (List.prefix_append ['-', c] ds)
  · apply extend_absent
    rintro c ds hc rfl
    exact hshort ['+', c] (.plus (.last hc)) (Nat.le_refl 2) (List.prefix_append ['+', c] ds)
  · apply extend_absent
    rintro c ds hc rfl
    exact hshort [c] (.unsigned (.last hc)) (Nat.le_succ 1) (List.prefix_append [c] ds)

theorem whole_ofChars_iff :
    (ofChars cs).whole ↔ IsNumeral cs ∧ IsCounted cs ∧ digitCount cs ≠ 0 := by
  constructor
  · intro hw
    rcases exists_isLongest (fun h => IsNumeral h ∧ IsCounted h) cs with hn | ⟨g, hg⟩
    · rw [ofChars_absent hn] at hw
      cases hw
    · rw [ofChars_isLongest hg, settle] at hw
      split at hw
      · cases hw
      · rename_i hne
        cases of_decide_eq_true hw
        exact ⟨hg.holds.1, hg.holds.2, hne⟩
  · intro ⟨hnum, hc, hne⟩
    rw [ofChars_isLongest (isLongest_self ⟨hnum, hc⟩), settle_of_ne hne]
    exact decide_eq_true rfl

theorem ofChars_of_countP_lt (hg : IsLongest IsNumeral g cs)
    (hl : g.countP Char.isDigit < 2 ^ 31) :
    ofChars cs = ⟨.ofIntClamp (denoted g), decide (g = cs)⟩ := by
  rw [ofChars_isLongest (hg.and (hg.holds.isCounted hl))]
  exact settle_of_ne (Int32.ne_of_lt (digitCount_pos hg.holds.countP_pos hl)).symm

end Scan

end Numeral

end TurtleGrid

namespace TurtleGrid

structure Leniency where
  nonNumeric : Bool := false
  missingArgument : Bool := false
  extraTokens : Bool := false
  unpairedToken : Bool := false
  missingBracket : Bool := false
  nestedBracket : Bool := false
deriving DecidableEq, Repr

namespace Leniency

instance : EmptyCollection Leniency := ⟨{}⟩

instance : Union Leniency where
  union a b :=
    { nonNumeric := a.nonNumeric || b.nonNumeric
      missingArgument := a.missingArgument || b.missingArgument
      extraTokens := a.extraTokens || b.extraTokens
      unpairedToken := a.unpairedToken || b.unpairedToken
      missingBracket := a.missingBracket || b.missingBracket
      nestedBracket := a.nestedBracket || b.nestedBracket }

theorem union_def (a b : Leniency) :
    a ∪ b = ⟨a.nonNumeric || b.nonNumeric, a.missingArgument || b.missingArgument,
      a.extraTokens || b.extraTokens, a.unpairedToken || b.unpairedToken,
      a.missingBracket || b.missingBracket, a.nestedBracket || b.nestedBracket⟩ := rfl

@[simp] theorem union_empty (a : Leniency) : a ∪ ∅ = a := by
  cases a; simp [union_def, EmptyCollection.emptyCollection]

@[simp] theorem empty_union (a : Leniency) : ∅ ∪ a = a := by
  cases a; simp [union_def, EmptyCollection.emptyCollection]

theorem union_assoc (a b c : Leniency) : a ∪ b ∪ c = a ∪ (b ∪ c) := by
  simp [union_def, Bool.or_assoc]

/-- The kinds as binary places, the first one lowest. -/
def bits (l : Leniency) : Nat :=
  l.nonNumeric.toNat + 2 * l.missingArgument.toNat + 4 * l.extraTokens.toNat +
    8 * l.unpairedToken.toNat + 16 * l.missingBracket.toNat + 32 * l.nestedBracket.toNat

/-- Places that stand for no kind are passed over. -/
def ofBits (n : Nat) : Leniency :=
  ⟨n.testBit 0, n.testBit 1, n.testBit 2, n.testBit 3, n.testBit 4, n.testBit 5⟩

/-- Refuses places that stand for no kind. -/
def ofBits? (n : Nat) : Option Leniency :=
  if (ofBits n).bits = n then some (ofBits n) else none

@[simp] theorem ofBits_bits (l : Leniency) : ofBits l.bits = l := by
  obtain ⟨a, b, c, d, e, f⟩ := l
  cases a <;> cases b <;> cases c <;> cases d <;> cases e <;> cases f <;> rfl

def phrases (l : Leniency) : List String :=
  [(l.nonNumeric, "non-numeric argument read as integer prefix"),
    (l.missingArgument, "missing argument read as 0"),
    (l.extraTokens, "extra tokens ignored"),
    (l.unpairedToken, "unpaired token in repeat block dropped"),
    (l.missingBracket, "repeat block without brackets"),
    (l.nestedBracket, "text after a second opening bracket ignored")].filterMap
    fun (present, phrase) => if present then some phrase else none

def text (l : Leniency) : String := ", ".intercalate l.phrases

end Leniency

/-- One irregularity of a line, with what it takes to name it. -/
inductive Remark where
  | nonNumeric (word : String) (value : Int64)
  | missingArgument
  | extraTokens (count : Nat) (name : String)
  | unpairedToken (word : String)
  | missingBracket
  | nestedBracket
deriving DecidableEq, Repr

namespace Remark

def leniency : Remark → Leniency
  | nonNumeric .. => { nonNumeric := true }
  | missingArgument => { missingArgument := true }
  | extraTokens .. => { extraTokens := true }
  | unpairedToken _ => { unpairedToken := true }
  | missingBracket => { missingBracket := true }
  | nestedBracket => { nestedBracket := true }

/-- A missing argument goes without a word. -/
def text? : Remark → Option String
  | nonNumeric word value => some s!"argument `{word}` is not a number, using {value}"
  | missingArgument => none
  | extraTokens count name => some s!"ignoring {count} trailing token(s) after `{name}`"
  | unpairedToken word => some s!"dropping unpaired token `{word}` in repeat block"
  | missingBracket => some "repeat block has no opening bracket"
  | nestedBracket => some "ignoring everything after the second `[`"

end Remark

def Leniency.ofRemarks (remarks : List Remark) : Leniency :=
  remarks.foldr (fun r l => r.leniency ∪ l) ∅

@[simp] theorem Leniency.ofRemarks_cons (r : Remark) (rs : List Remark) :
    ofRemarks (r :: rs) = r.leniency ∪ ofRemarks rs := rfl

end TurtleGrid

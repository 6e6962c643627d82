import Mathlib.Data.List.Basic
import TurtleGrid.Proofs.Splitting

namespace TurtleGrid

section Codes

variable {α β : Type} [BEq α] [LawfulBEq α] [BEq β] [LawfulBEq β]

/-- The code of `a` is the single mark `b`, which is in the code of nothing else. -/
structure IsCodedBy (f : α → List β) (a : α) (b : β) : Prop where
  code_eq : f a = [b]
  not_mem : ∀ c, c ≠ a → b ∉ f c

variable {f : α → List β} {a : α} {b : β}

theorem splitOn_append_of_not_mem {bs : List β} (h : b ∉ bs) (cs : List β) :
    (bs ++ cs).splitOn b = (cs.splitOn b).modifyHead (bs ++ ·) := by
  induction bs with
  | nil => exact (congrFun List.modifyHead_id _).symm
  | cons d bs ih =>
    have hd : ¬ (d == b) = true := by simpa using (List.ne_of_not_mem_cons h).symm
    rw [List.cons_append, List.splitOn_cons_eq_if_modifyHead, if_neg hd,
      ih (List.not_mem_of_not_mem_cons h), List.modifyHead_modifyHead]
    rfl

theorem IsCodedBy.splitOn_flatMap (h : IsCodedBy f a b) (as : List α) :
    (as.flatMap f).splitOn b = (as.splitOn a).map fun piece => piece.flatMap f := by
  induction as with
  | nil => simp
  | cons c as ih =>
    rw [List.flatMap_cons, List.splitOn_cons_eq_if_modifyHead]
    by_cases hc : c = a
    · subst hc
      rw [h.code_eq, List.singleton_append, List.splitOn_cons_eq_if_modifyHead, ih]
      simp
    · rw [splitOn_append_of_not_mem (h.not_mem c hc), ih, if_neg (by simpa using hc)]
      cases as.splitOn a with
      | nil => rfl
      | cons piece pieces => simp

theorem IsCodedBy.dropReturn_flatMap (h : IsCodedBy f a b) (hf : ∀ c, f c ≠ []) (as : List α) :
    dropReturn b (as.flatMap f) = (dropReturn a as).flatMap f := by
  rcases List.eq_nil_or_concat as with rfl | ⟨front, c, rfl⟩
  · rfl
  · rw [List.concat_eq_append, List.flatMap_append, List.flatMap_singleton]
    by_cases hc : c = a
    · subst hc
      rw [h.code_eq, dropReturn_concat, dropReturn_concat]
    · rw [dropReturn_of_ne, dropReturn_of_ne]
      · rw [List.flatMap_append, List.flatMap_singleton]
      · simpa using hc
      · -- the last mark is one of the code of the last character
        rw [List.getLast?_append_of_ne_nil _ (hf c)]
        intro hb
        exact h.not_mem c hc (List.mem_of_getLast? hb)

end Codes

theorem IsCodedBy.head_eq_iff {α β : Type} {f : α → List β} {a c : α} {b d : β} {ds : List β}
    (h : IsCodedBy f a b) (hc : f c = d :: ds) : d = b ↔ c = a := by
  constructor
  · rintro rfl
    by_contra hn
    exact h.not_mem c hn (hc ▸ .head ds)
  · rintro rfl
    exact (List.cons.inj (hc.symm.trans h.code_eq)).1

theorem utf8EncodeChar_of_lt {c : Char} (h : c.toNat < 128) :
    String.utf8EncodeChar c = [.ofNat c.toNat] := by
  rw [String.utf8EncodeChar]
  exact if_pos (Nat.le_of_lt_succ h)

theorem le_of_mem_utf8EncodeChar {c : Char} (h : 128 ≤ c.toNat) :
    ∀ b ∈ String.utf8EncodeChar c, 128 ≤ b.toNat := by
  have h127 : ¬ c.val.toNat ≤ 127 := Nat.not_le_of_lt h
  rw [String.utf8EncodeChar, if_neg h127]
  split
  · simp only [List.forall_mem_cons, UInt8.toNat_ofNat']
    exact ⟨by omega, by omega, List.forall_mem_nil _⟩
  · split
    · simp only [List.forall_mem_cons, UInt8.toNat_ofNat']
      exact ⟨by omega, by omega, by omega, List.forall_mem_nil _⟩
    · simp only [List.forall_mem_cons, UInt8.toNat_ofNat']
      exact ⟨by omega, by omega, by omega, by omega, List.forall_mem_nil _⟩

theorem isCodedBy_ascii {a : Char} (ha : a.toNat < 128) :
    IsCodedBy String.utf8EncodeChar a (.ofNat a.toNat) where
  code_eq := utf8EncodeChar_of_lt ha
  not_mem c hc hm := by
    have hb : (UInt8.ofNat a.toNat).toNat = a.toNat := by
      rw [UInt8.toNat_ofNat']
      omega
    rcases Nat.lt_or_ge c.toNat 128 with h | h
    · rw [utf8EncodeChar_of_lt h, List.mem_singleton] at hm
      have he := congrArg UInt8.toNat hm
      rw [hb, UInt8.toNat_ofNat', Nat.mod_eq_of_lt (by omega)] at he
      exact hc (Char.toNat_inj.1 he.symm)
    · have hl := le_of_mem_utf8EncodeChar h _ hm
      omega

theorem isCodedBy_newline : IsCodedBy String.utf8EncodeChar '\n' 10 := isCodedBy_ascii (by decide)

theorem isCodedBy_return : IsCodedBy String.utf8EncodeChar '\r' 13 := isCodedBy_ascii (by decide)

def encodeLine (text : String) : List UInt8 := text.toUTF8.data.toList

theorem encodeLine_eq_flatMap (text : String) :
    encodeLine text = text.toList.flatMap String.utf8EncodeChar := by
  rw [encodeLine, String.toUTF8_eq_toByteArray, ← String.utf8Encode_toList]
  exact List.toList_data_toByteArray

theorem decodeLine?_encodeLine (text : String) : decodeLine? (encodeLine text) = some text := by
  rw [decodeLine?, encodeLine, Array.toArray_toList, String.toUTF8_eq_toByteArray,
    String.fromUTF8?, dif_pos text.isValidUTF8]
  rfl

theorem decodeLine?_eq_some {line : List UInt8} {text : String} :
    decodeLine? line = some text ↔ line = encodeLine text := by
  constructor
  · intro h
    rw [decodeLine?, String.fromUTF8?] at h
    split at h
    · cases h
      rfl
    · cases h
  · rintro rfl
    exact decodeLine?_encodeLine text

theorem splitOn_encodeLine (text : String) :
    (encodeLine text).splitOn 10 =
      (text.toList.splitOn '\n').map fun line => encodeLine (.ofList line) := by
  rw [encodeLine_eq_flatMap, isCodedBy_newline.splitOn_flatMap]
  simp only [encodeLine_eq_flatMap, String.toList_ofList]

theorem dropReturn_encodeLine (text : String) :
    dropReturn 13 (encodeLine text) = encodeLine (.ofList (dropReturn '\r' text.toList)) := by
  rw [encodeLine_eq_flatMap, encodeLine_eq_flatMap, String.toList_ofList]
  exact isCodedBy_return.dropReturn_flatMap (fun c => String.utf8EncodeChar_ne_nil) text.toList

theorem decodeLine?_dropReturn (line : List UInt8) :
    decodeLine? (dropReturn 13 line) =
      (decodeLine? line).map fun text => .ofList (dropReturn '\r' text.toList) := by
  cases h : decodeLine? line with
  | some text =>
    rw [decodeLine?_eq_some.1 h, dropReturn_encodeLine, decodeLine?_encodeLine]
    rfl
  | none =>
    rcases dropReturn_cases 13 line with hl | hl
    · rw [hl, h]
      rfl
    · cases hf : decodeLine? (dropReturn 13 line) with
      | none => rfl
      | some text =>
        -- with the carriage return behind it the line would be text as well
        have he : line = encodeLine (text ++ "\r") := by
          rw [hl, decodeLine?_eq_some.1 hf, encodeLine_eq_flatMap, encodeLine_eq_flatMap,
            String.toList_append, List.flatMap_append]
          rfl
        rw [he, decodeLine?_encodeLine] at h
        cases h

end TurtleGrid

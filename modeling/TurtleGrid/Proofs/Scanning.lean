import Mathlib.Data.List.SplitBy
import Mathlib.Data.List.TakeWhile
import TurtleGrid.Token

namespace TurtleGrid

namespace Token

theorem inWord_iff {c : Char} : inWord c ↔ isBlank c = false ∧ c ≠ '[' ∧ c ≠ ']' := by
  simp [inWord, and_assoc]

def scan (start : Nat) (cs : List Char) : List Token := place start (runs cs)

theorem ofText_eq_scan (line : String) : ofText line = scan 0 line.toList := rfl

theorem runs_append {r rest : List Char} (hn : r ≠ [])
    (hr : r.IsChain fun c d => (inWord c && inWord d) = true)
    (hb : ∀ c ∈ r.getLast?, ∀ d ∈ rest.head?, (inWord c && inWord d) = false) :
    runs (r ++ rest) = r :: runs rest := by
  rw [runs, List.splitBy_append hb, List.splitBy_of_isChain hn hr]
  rfl

theorem runs_cons {c : Char} (hc : inWord c = false) (rest : List Char) :
    runs (c :: rest) = [c] :: runs rest := by
  apply runs_append (r := [c]) (List.cons_ne_nil c []) (.singleton c)
  intro d hd e _
  obtain rfl : c = d := Option.some.inj hd
  rw [hc, Bool.false_and]

theorem scan_blank {c : Char} (hc : isBlank c) (start : Nat) (rest : List Char) :
    scan start (c :: rest) = scan (start + c.utf8Size) rest := by
  have hw : inWord c = false := by simp [inWord, hc]
  rw [scan, runs_cons hw, place, if_pos (by simp [hc])]
  rfl

theorem scan_eq_nil {cs : List Char} (h : cs.all isBlank) (start : Nat) :
    scan start cs = [] := by
  induction cs generalizing start with
  | nil => rfl
  | cons c cs ih =>
    rw [List.all_cons, Bool.and_eq_true] at h
    rw [scan_blank h.1]
    exact ih h.2 _

theorem scan_bracket {c : Char} (hc : c = '[' ∨ c = ']') (start : Nat) (rest : List Char) :
    scan start (c :: rest) = ⟨start, .ofList [c]⟩ :: scan (start + c.utf8Size) rest := by
  have hw : inWord c = false := by rcases hc with rfl | rfl <;> rfl
  have hb : isBlank c = false := by rcases hc with rfl | rfl <;> rfl
  rw [scan, runs_cons hw, place, if_neg (by simp [hb])]
  rfl

theorem scan_word {w rest : List Char} (hn : w ≠ []) (hw : ∀ c ∈ w, inWord c)
    (hr : ∀ c ∈ rest.head?, inWord c = false) (start : Nat) :
    scan start (w ++ rest) = ⟨start, .ofList w⟩ :: scan (start + byteLength w) rest := by
  have hc : w.IsChain fun c d => (inWord c && inWord d) = true := by
    apply List.Pairwise.isChain
    apply List.pairwise_of_forall_mem_list
    intro c hc d hd
    rw [hw c hc, hw d hd, Bool.true_and]
  have hb : w.all isBlank = false := by
    obtain ⟨c, cs, rfl⟩ := List.exists_cons_of_ne_nil hn
    have hc := (inWord_iff.1 (hw c (.head cs))).1
    rw [List.all_cons, hc, Bool.false_and]
  rw [scan, runs_append hn hc, place, if_neg (by rw [hb]; decide)]
  · rfl
  · intro c _ d hd
    rw [hr d hd, Bool.and_false]

theorem terminal_eq_keyword {t : Token} : t.terminal = .keyword ↔ t.text = "REPEAT" := by
  unfold terminal
  split <;> simp_all

theorem terminal_eq_opening {t : Token} : t.terminal = .opening ↔ t.text = "[" := by
  unfold terminal
  split <;> simp_all

theorem terminal_eq_closing {t : Token} : t.terminal = .closing ↔ t.text = "]" := by
  unfold terminal
  split <;> simp_all

end Token

namespace Terminal

/-- The texts that each kind of token allows. The keyword is also a word. -/
def Allows : Terminal → List Char → Prop
  | keyword, cs => cs = "REPEAT".toList
  | opening, cs => cs = ['[']
  | closing, cs => cs = [']']
  | word, cs => cs ≠ [] ∧ ∀ c ∈ cs, isBlank c = false ∧ c ≠ '[' ∧ c ≠ ']'

/-- A text is only called a word where no other kind allows it. -/
def Names (k : Terminal) (cs : List Char) : Prop :=
  k.Allows cs ∧ (k = word → ∀ j : Terminal, j.Allows cs → j = word)

theorem allows_word {cs : List Char} (hn : cs ≠ []) (hw : ∀ c ∈ cs, Token.inWord c) :
    word.Allows cs :=
  ⟨hn, fun c hc => Token.inWord_iff.1 (hw c hc)⟩

theorem Allows.cases {k : Terminal} {cs : List Char} (h : k.Allows cs) :
    (∃ c, cs = [c] ∧ (c = '[' ∨ c = ']')) ∨ cs ≠ [] ∧ ∀ c ∈ cs, Token.inWord c := by
  cases k with
  | keyword =>
    obtain rfl : cs = "REPEAT".toList := h
    exact .inr (by simp [Token.inWord, isBlank, blankRanges])
  | opening => exact .inl ⟨'[', h, .inl rfl⟩
  | closing => exact .inl ⟨']', h, .inr rfl⟩
  | word => exact .inr ⟨h.1, fun c hc => Token.inWord_iff.2 (h.2 c hc)⟩

theorem Allows.solid {k : Terminal} {cs : List Char} (h : k.Allows cs) :
    cs ≠ [] ∧ ∀ c ∈ cs, isBlank c = false := by
  rcases h.cases with ⟨c, rfl, hc⟩ | ⟨hn, hw⟩
  · refine ⟨List.cons_ne_nil c [], fun d hd => ?_⟩
    obtain rfl := List.mem_singleton.1 hd
    rcases hc with rfl | rfl <;> rfl
  · exact ⟨hn, fun c hc => (Token.inWord_iff.1 (hw c hc)).1⟩

end Terminal

namespace Token

theorem terminal_eq_iff_allows {k : Terminal} (hk : k ≠ .word) (start : Nat) (cs : List Char) :
    (⟨start, .ofList cs⟩ : Token).terminal = k ↔ k.Allows cs := by
  have he (s : String) : String.ofList cs = s ↔ cs = s.toList := by
    rw [← String.toList_inj, String.toList_ofList]
  cases k with
  | keyword => exact terminal_eq_keyword.trans (he _)
  | opening => exact terminal_eq_opening.trans (he _)
  | closing => exact terminal_eq_closing.trans (he _)
  | word => exact absurd rfl hk

theorem names_terminal {k : Terminal} {cs : List Char} (h : k.Allows cs) (start : Nat) :
    (⟨start, .ofList cs⟩ : Token).terminal.Names cs := by
  by_cases hw : (⟨start, .ofList cs⟩ : Token).terminal = .word
  · have hj : ∀ j : Terminal, j.Allows cs → j = .word := by
      intro j hj
      by_contra hne
      exact hne (((terminal_eq_iff_allows hne start cs).2 hj).symm.trans hw)
    obtain rfl := hj k h
    rw [hw]
    exact ⟨h, fun _ => hj⟩
  · exact ⟨(terminal_eq_iff_allows hw start cs).1 rfl, fun he => absurd he hw⟩

/-- A text that some kind of token allows, where no longer one starts. -/
def IsLexeme (r rest : List Char) : Prop :=
  (∃ k : Terminal, k.Allows r) ∧
    ∀ (k : Terminal) (r' : List Char), r' <+: r ++ rest → k.Allows r' → r'.length ≤ r.length

/-- Reading from left to right: blanks are passed over, and a token is the longest one that can
be taken. -/
inductive Lexes : Nat → List Char → List Token → Prop where
  | nil (start : Nat) : Lexes start [] []
  | blank {start : Nat} {c : Char} {cs : List Char} {ts : List Token} :
      isBlank c → Lexes (start + c.utf8Size) cs ts → Lexes start (c :: cs) ts
  | token {start : Nat} {r rest : List Char} {t : Token} {ts : List Token} :
      IsLexeme r rest → t.start = start → t.text = .ofList r → t.terminal.Names r →
        Lexes (start + byteLength r) rest ts → Lexes start (r ++ rest) (t :: ts)

theorem IsLexeme.solid {r rest : List Char} (h : IsLexeme r rest) :
    r ≠ [] ∧ ∀ c ∈ r, isBlank c = false := by
  obtain ⟨⟨k, hk⟩, -⟩ := h
  exact hk.solid

theorem IsLexeme.scan {r rest : List Char} (h : IsLexeme r rest) (start : Nat) :
    scan start (r ++ rest) = ⟨start, .ofList r⟩ :: scan (start + byteLength r) rest := by
  obtain ⟨⟨k, hk⟩, hl⟩ := h
  rcases hk.cases with ⟨c, rfl, hc⟩ | ⟨hn, hw⟩
  · exact scan_bracket hc start rest
  · apply scan_word hn hw
    intro c hc
    -- a further word character would make the word longer
    by_contra hcw
    obtain ⟨cs, rfl⟩ := List.head?_eq_some_iff.1 hc
    have ha : Terminal.word.Allows (r ++ [c]) := by
      apply Terminal.allows_word (List.append_ne_nil_of_left_ne_nil hn [c])
      intro d hd
      rcases List.mem_append.1 hd with hd | hd
      · exact hw d hd
      · rw [List.mem_singleton.1 hd]
        exact Bool.of_not_eq_false hcw
    have hlen := hl .word (r ++ [c]) ⟨cs, by simp⟩ ha
    rw [List.length_append] at hlen
    exact Nat.not_succ_le_self _ hlen

theorem isLexeme_bracket {c : Char} (hc : c = '[' ∨ c = ']') (rest : List Char) :
    IsLexeme [c] rest := by
  refine ⟨?_, fun k r' hr' hk => ?_⟩
  · rcases hc with rfl | rfl
    · exact ⟨.opening, rfl⟩
    · exact ⟨.closing, rfl⟩
  · rcases hk.cases with ⟨d, rfl, -⟩ | ⟨hn, hw⟩
    · exact Nat.le_refl 1
    · obtain ⟨d, ds, rfl⟩ := List.exists_cons_of_ne_nil hn
      obtain rfl : d = c := (List.cons_prefix_cons.1 hr').1
      have hd := inWord_iff.1 (hw d (.head ds))
      exact (hc.elim hd.2.1 hd.2.2).elim

theorem isLexeme_word {w rest : List Char} (hn : w ≠ []) (hw : ∀ c ∈ w, inWord c)
    (hr : ∀ c ∈ rest.head?, inWord c = false) : IsLexeme w rest := by
  refine ⟨⟨.word, Terminal.allows_word hn hw⟩, fun k r' hr' hk => ?_⟩
  rcases hk.cases with ⟨d, rfl, -⟩ | ⟨-, hw'⟩
  · exact List.length_pos_of_ne_nil hn
  · by_contra hlt
    obtain ⟨s, hs⟩ := hr'
    obtain ⟨u, rfl⟩ : w <+: r' :=
      List.prefix_of_prefix_length_le (List.prefix_append w rest) ⟨s, hs⟩ (by omega)
    cases u with
    | nil => simp at hlt
    | cons c u =>
      have hc : c ∈ rest.head? := by
        rw [List.append_assoc, List.append_cancel_left_eq] at hs
        rw [← hs]
        rfl
      have hcw := hw' c (by simp)
      rw [hr c hc] at hcw
      cases hcw

theorem isLexeme_of_allows {k : Terminal} {r rest : List Char} (h : k.Allows r)
    (hr : ∀ c ∈ rest.head?, inWord c = false) : IsLexeme r rest := by
  rcases h.cases with ⟨c, rfl, hc⟩ | ⟨hn, hw⟩
  · exact isLexeme_bracket hc rest
  · exact isLexeme_word hn hw hr

theorem Lexes.eq_scan {start : Nat} {cs : List Char} {ts : List Token} (h : Lexes start cs ts) :
    ts = scan start cs := by
  induction h with
  | nil => rfl
  | blank hc _ ih => rw [scan_blank hc, ih]
  | @token start r rest t ts hr hs ht _ _ ih =>
    rw [hr.scan, ← ih, ← hs, ← ht]

theorem exists_isLexeme {c : Char} (hc : isBlank c = false) (cs : List Char) :
    ∃ r rest, c :: cs = r ++ rest ∧ IsLexeme r rest := by
  by_cases hw : inWord c
  · refine ⟨(c :: cs).takeWhile inWord, (c :: cs).dropWhile inWord,
      List.takeWhile_append_dropWhile.symm, isLexeme_word ?_ ?_ ?_⟩
    · rw [List.takeWhile_cons_of_pos hw]
      exact List.cons_ne_nil c _
    · exact fun d hd => List.mem_takeWhile_imp hd
    · intro d hd
      have hn := List.head?_dropWhile_not inWord (c :: cs)
      rw [hd] at hn
      simpa using hn
  · have hb : c = '[' ∨ c = ']' := by
      by_contra hb
      rw [not_or] at hb
      exact hw (inWord_iff.2 ⟨hc, hb⟩)
    exact ⟨[c], cs, rfl, isLexeme_bracket hb cs⟩

theorem lexes_scan (start : Nat) (cs : List Char) : Lexes start cs (scan start cs) := by
  -- what is left after a blank or a token is shorter, but need not be the tail
  induction hn : cs.length using Nat.strong_induction_on generalizing start cs with
  | h n ih =>
    subst hn
    cases cs with
    | nil => exact .nil start
    | cons c cs =>
      cases hb : isBlank c with
      | true =>
        rw [scan_blank hb]
        exact .blank hb (ih cs.length (Nat.lt_succ_self _) _ cs rfl)
      | false =>
        obtain ⟨r, rest, he, hr⟩ := exists_isLexeme hb cs
        obtain ⟨k, hk⟩ := hr.1
        have hlen : rest.length < (c :: cs).length := by
          rw [he, List.length_append]
          exact Nat.lt_add_of_pos_left (List.length_pos_of_ne_nil hr.solid.1)
        have hrest := ih rest.length hlen (start + byteLength r) rest rfl
        rw [he, hr.scan]
        exact .token hr rfl rfl (names_terminal hk start) hrest

theorem lexes_iff {start : Nat} {cs : List Char} {ts : List Token} :
    Lexes start cs ts ↔ ts = scan start cs :=
  ⟨Lexes.eq_scan, fun h => h ▸ lexes_scan start cs⟩

theorem byteLength_eq_utf8ByteSize (cs : List Char) :
    (String.ofList cs).utf8ByteSize = byteLength cs := by
  induction cs with
  | nil => rfl
  | cons c cs ih =>
    rw [String.ofList_cons, String.utf8ByteSize_append, String.utf8ByteSize_singleton, ih,
      byteLength_cons]

theorem stop_of_text {t : Token} {r : List Char} (h : t.text = .ofList r) :
    t.stop = t.start + byteLength r := by
  rw [stop, h, byteLength_eq_utf8ByteSize]

theorem utf8ByteSize_eq_byteLength (s : String) : s.utf8ByteSize = byteLength s.toList := by
  rw [← byteLength_eq_utf8ByteSize, String.ofList_toList]

end Token

namespace Span

/-- A span that starts and ends between characters of a text marks the part between them. -/
def Marks (s : Span) (text part : String) : Prop :=
  ∃ before after, text = before ++ part ++ after ∧ s.start = before.utf8ByteSize ∧
    s.stop = s.start + part.utf8ByteSize

theorem marks_ofList (before r rest : List Char) :
    (⟨byteLength before, byteLength before + byteLength r⟩ : Span).Marks
      (.ofList (before ++ (r ++ rest))) (.ofList r) := by
  refine ⟨.ofList before, .ofList rest, ?_, ?_, ?_⟩
  · rw [String.append_assoc, String.ofList_append, String.ofList_append]
  · exact (Token.byteLength_eq_utf8ByteSize before).symm
  · rw [Token.byteLength_eq_utf8ByteSize]

theorem Marks.slice_eq {s : Span} {text part : String} (h : s.Marks text part) :
    s.slice text = part := by
  obtain ⟨before, after, rfl, hs, he⟩ := h
  rw [slice, he, Nat.add_sub_cancel_left, hs, Token.utf8ByteSize_eq_byteLength,
    Token.utf8ByteSize_eq_byteLength, String.append_assoc, String.toList_append, dropBytes_append,
    String.toList_append, takeBytes_append, String.ofList_toList]

end Span

namespace Token

variable {t : Token} {line : String}

theorem Lexes.marks {before cs : List Char} {ts : List Token}
    (h : Lexes (byteLength before) cs ts) :
    ∀ t ∈ ts, t.span.Marks (.ofList (before ++ cs)) t.text := by
  generalize hs : byteLength before = start at h
  induction h generalizing before with
  | nil => exact nofun
  | @blank _ c cs ts _ _ ih =>
    subst hs
    have h : ∀ t ∈ ts, t.span.Marks (.ofList (before ++ [c] ++ cs)) t.text :=
      ih (byteLength_append before [c])
    rwa [List.append_assoc] at h
  | @token _ r rest t ts _ ht htext _ _ ih =>
    subst hs
    have h : ∀ t ∈ ts, t.span.Marks (.ofList (before ++ r ++ rest)) t.text :=
      ih (byteLength_append before r)
    rw [List.append_assoc] at h
    refine List.forall_mem_cons.2 ⟨?_, h⟩
    rw [span, stop_of_text htext, ht, htext]
    exact Span.marks_ofList before r rest

theorem marks_of_mem_ofText (h : t ∈ ofText line) : t.span.Marks line t.text := by
  have hm := (lexes_scan (byteLength []) line.toList).marks t h
  rwa [List.nil_append, String.ofList_toList] at hm

theorem slice_of_mem_ofText (h : t ∈ ofText line) : t.span.slice line = t.text :=
  (marks_of_mem_ofText h).slice_eq

end Token

end TurtleGrid

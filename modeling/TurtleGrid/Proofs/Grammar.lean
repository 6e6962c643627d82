import Mathlib.Data.Set.List
import TurtleGrid.Proofs.Acceptance
import TurtleGrid.Proofs.Scanning

namespace TurtleGrid

/-- The tokens of one kind. -/
abbrev Token.Of (k : Terminal) : Type := { t : Token // t.terminal = k }

theorem Token.Of.val_ne {j k : Terminal} (t : Token.Of j) (u : Token.Of k) (h : j ≠ k) :
    t.val ≠ u.val := by
  intro he
  rw [← t.property, he] at h
  exact h u.property

theorem Token.Of.map_terminal_cons {k : Terminal} (t : Token.Of k) (ts : List Token) :
    (t.val :: ts).map Token.terminal = k :: ts.map Token.terminal := by
  rw [List.map_cons, t.property]

namespace Grammar

/-- A piece of a simple line is a word or a bracket. -/
inductive Piece where
  | word (t : Token.Of .word)
  | opening (t : Token.Of .opening)
  | closing (t : Token.Of .closing)

/-- Up to a second opening bracket, a block consists of words and closing brackets. -/
inductive BlockWord where
  | word (t : Token.Of .word)
  | closing (t : Token.Of .closing)

/-- A second opening bracket and whatever pieces follow it. -/
structure Nested where
  opening : Token.Of .opening
  pieces : List Piece

/-- How a line is made up by one of the three productions. -/
inductive Derivation where
  | simple (first : Piece) (rest : List Piece)
  | bracketed (keyword : Token.Of .keyword) (count : Option (Token.Of .word))
      (opening : Token.Of .opening) (body : List BlockWord) (nested : Option Nested)
  | bare (keyword : Token.Of .keyword) (count : Token.Of .word) (body : List BlockWord)

def Piece.token : Piece → Token
  | word t => t
  | opening t => t
  | closing t => t

def BlockWord.token : BlockWord → Token
  | word t => t
  | closing t => t

/-- A closing bracket in a block has no value. -/
def BlockWord.word? : BlockWord → Option String
  | word t => some t.val.text
  | closing _ => none

def Nested.tokens (n : Nested) : List Token := n.opening.val :: n.pieces.map Piece.token

def blockTokens (body : List BlockWord) (nested : Option Nested) : List Token :=
  body.map BlockWord.token ++ (nested.map Nested.tokens).getD []

namespace Derivation

def tokens : Derivation → List Token
  | simple first rest => (first :: rest).map Piece.token
  | bracketed keyword count opening body nested =>
    keyword.val ::
      ((count.map Subtype.val).toList ++ opening.val :: blockTokens body nested)
  | bare keyword count body => keyword.val :: count.val :: body.map BlockWord.token

def line : Derivation → Line
  | simple first rest => .simple ((first :: rest).map fun p => p.token.span)
  | bracketed _ count _ body nested =>
    .block (count.map fun t => t.val.text) (body.filterMap BlockWord.word?) true nested.isSome
  | bare _ count body =>
    .block (some count.val.text) (body.filterMap BlockWord.word?) false false

end Derivation

theorem Piece.terminal_ne_keyword (p : Piece) : p.token.terminal ≠ .keyword := by
  obtain ⟨t, ht⟩ | ⟨t, ht⟩ | ⟨t, ht⟩ := p <;> simp [token, ht]

theorem BlockWord.terminal_ne_keyword (w : BlockWord) : w.token.terminal ≠ .keyword := by
  obtain ⟨t, ht⟩ | ⟨t, ht⟩ := w <;> simp [token, ht]

theorem BlockWord.terminal_ne_opening (w : BlockWord) : w.token.terminal ≠ .opening := by
  obtain ⟨t, ht⟩ | ⟨t, ht⟩ := w <;> simp [token, ht]

theorem Piece.token_injective : Function.Injective Piece.token := by
  intro p q h
  have hk := congrArg Token.terminal h
  obtain ⟨t, ht⟩ | ⟨t, ht⟩ | ⟨t, ht⟩ := p <;> obtain ⟨u, hu⟩ | ⟨u, hu⟩ | ⟨u, hu⟩ := q <;>
    simp only [token, ht, hu, reduceCtorEq] at hk <;> exact congrArg _ (Subtype.ext h)

theorem BlockWord.token_injective : Function.Injective BlockWord.token := by
  intro p q h
  have hk := congrArg Token.terminal h
  obtain ⟨t, ht⟩ | ⟨t, ht⟩ := p <;> obtain ⟨u, hu⟩ | ⟨u, hu⟩ := q <;>
    simp only [token, ht, hu, reduceCtorEq] at hk <;> exact congrArg _ (Subtype.ext h)

theorem exists_pieces {ts : List Token} (h : ∀ t ∈ ts, t.terminal ≠ .keyword) :
    ∃ ps : List Piece, ps.map Piece.token = ts := by
  have hr : ts ∈ Set.range (List.map Piece.token) := by
    rw [Set.range_list_map]
    intro t ht
    cases hk : t.terminal with
    | keyword => exact absurd hk (h t ht)
    | opening => exact ⟨.opening ⟨t, hk⟩, rfl⟩
    | closing => exact ⟨.closing ⟨t, hk⟩, rfl⟩
    | word => exact ⟨.word ⟨t, hk⟩, rfl⟩
  exact hr

theorem exists_blockWords {ts : List Token} (h : ∀ t ∈ ts, t.terminal ≠ .keyword)
    (h' : ∀ t ∈ ts, t.terminal ≠ .opening) :
    ∃ ws : List BlockWord, ws.map BlockWord.token = ts := by
  have hr : ts ∈ Set.range (List.map BlockWord.token) := by
    rw [Set.range_list_map]
    intro t ht
    cases hk : t.terminal with
    | keyword => exact absurd hk (h t ht)
    | opening => exact absurd hk (h' t ht)
    | closing => exact ⟨.closing ⟨t, hk⟩, rfl⟩
    | word => exact ⟨.word ⟨t, hk⟩, rfl⟩
  exact hr

theorem exists_blockTokens {ts : List Token} (h : ∀ t ∈ ts, t.terminal ≠ .keyword) :
    ∃ body nested, blockTokens body nested = ts := by
  let p (t : Token) : Bool := t.terminal ≠ .opening
  have he : ts.takeWhile p ++ ts.dropWhile p = ts := List.takeWhile_append_dropWhile
  have hm : ∀ t ∈ ts.takeWhile p ++ ts.dropWhile p, t.terminal ≠ .keyword := by rwa [he]
  have ht : ∀ t ∈ ts.takeWhile p, t.terminal ≠ .opening := fun t ht =>
    of_decide_eq_true (List.mem_takeWhile_imp (p := p) ht)
  obtain ⟨body, hb⟩ := exists_blockWords (fun t ht => hm t (List.mem_append_left _ ht)) ht
  cases hd : ts.dropWhile p with
  | nil =>
    refine ⟨body, none, ?_⟩
    rw [blockTokens, hb]
    rwa [hd] at he
  | cons t rest =>
    rw [hd] at hm he
    obtain ⟨ps, hps⟩ := exists_pieces fun u hu =>
      hm u (List.mem_append_right _ (List.mem_cons_of_mem t hu))
    have ho : t.terminal = .opening := by
      have hn := List.head?_dropWhile_not p ts
      rw [hd] at hn
      simpa [p] using hn
    refine ⟨body, some ⟨⟨t, ho⟩, ps⟩, ?_⟩
    rw [blockTokens, hb, Option.map_some, Option.getD_some, Nested.tokens, hps, he]

theorem opening_of_mem_head? {nested : Option Nested} {t : Token}
    (h : t ∈ ((nested.map Nested.tokens).getD []).head?) : t.terminal = .opening := by
  cases nested with
  | none => cases h
  | some n =>
    obtain rfl := Option.some.inj h
    exact n.opening.property

theorem isEmpty_nested (nested : Option Nested) :
    (!((nested.map Nested.tokens).getD []).isEmpty) = nested.isSome := by
  cases nested <;> rfl

theorem body_ne_opening {body : List BlockWord} {t : Token}
    (h : t ∈ body.map BlockWord.token) : t.terminal ≠ .opening := by
  obtain ⟨w, -, rfl⟩ := List.mem_map.1 h
  exact w.terminal_ne_opening

theorem words_map_token (body : List BlockWord) :
    Line.words (body.map BlockWord.token) = body.filterMap BlockWord.word? := by
  induction body with
  | nil => rfl
  | cons w body ih =>
    rw [Line.words] at ih ⊢
    obtain ⟨t, ht⟩ | ⟨t, ht⟩ := w
    · simpa [BlockWord.token, BlockWord.word?, ht] using ih
    · rw [List.filterMap_cons_none rfl, ← ih]
      simp [BlockWord.token, ht]

theorem ofTokens_tokens (d : Derivation) : Line.ofTokens d.tokens = d.line := by
  cases d with
  | simple first rest =>
    have hk : ((first :: rest).map Piece.token |>.map Token.terminal).head? ≠ some .keyword :=
      fun h => first.terminal_ne_keyword (Option.some.inj h)
    rw [Derivation.tokens, Line.ofTokens_simple hk, List.map_map]
    rfl
  | bracketed keyword count opening body nested =>
    have hc : ∀ w ∈ count.map Subtype.val, w.terminal = .word := by
      intro w hw
      obtain ⟨w, -, rfl⟩ := Option.map_eq_some_iff.1 hw
      exact w.property
    rw [Derivation.tokens, blockTokens, Line.ofTokens_bracketed keyword.property hc
      opening.property (fun _ => body_ne_opening) (fun _ => opening_of_mem_head?),
      words_map_token, isEmpty_nested, Option.map_map]
    rfl
  | bare keyword count body =>
    rw [Derivation.tokens, Line.ofTokens_bare keyword.property count.property
      (fun _ => body_ne_opening), words_map_token]
    rfl

theorem blockTokens_ne_keyword {body : List BlockWord} {nested : Option Nested} {t : Token}
    (h : t ∈ blockTokens body nested) : t.terminal ≠ .keyword := by
  rcases List.mem_append.1 h with h | h
  · obtain ⟨w, -, rfl⟩ := List.mem_map.1 h
    exact w.terminal_ne_keyword
  · cases nested with
    | none => cases h
    | some n =>
      rcases List.mem_cons.1 h with rfl | h
      · simp [n.opening.property]
      · obtain ⟨p, -, rfl⟩ := List.mem_map.1 h
        exact p.terminal_ne_keyword

theorem accepts_tokens (d : Derivation) :
    Stage.start.Accepts (d.tokens.map Token.terminal) := by
  cases d with
  | simple first rest =>
    refine Stage.start_accepts.2 (.inl ⟨List.cons_ne_nil _ _, Stage.pieces_accepts.2 ?_⟩)
    simp [Derivation.tokens, Piece.terminal_ne_keyword]
  | bracketed keyword count opening body nested =>
    have hb : ∀ k ∈ (blockTokens body nested).map Token.terminal, k ≠ .keyword := by
      rw [List.forall_mem_map]
      exact fun t ht => blockTokens_ne_keyword ht
    refine Stage.start_accepts.2 (.inr ⟨_, keyword.map_terminal_cons _, ?_⟩)
    rw [Stage.afterKeyword_accepts]
    cases count with
    | none =>
      exact .inl ⟨_, opening.map_terminal_cons _, Stage.bracketed_accepts.2 hb⟩
    | some count =>
      refine .inr ⟨_, count.map_terminal_cons (opening.val :: blockTokens body nested),
        Stage.afterCount_accepts.2 ?_⟩
      rw [opening.map_terminal_cons, List.forall_mem_cons]
      exact ⟨⟨nofun, hb⟩, .inl rfl⟩
  | bare keyword count body =>
    refine Stage.start_accepts.2 (.inr ⟨_, keyword.map_terminal_cons _, ?_⟩)
    rw [Stage.afterKeyword_accepts]
    refine .inr ⟨_, count.map_terminal_cons _, Stage.afterCount_accepts.2 ⟨?_, .inr ?_⟩⟩
    · simp [BlockWord.terminal_ne_keyword]
    · simp [BlockWord.terminal_ne_opening]

theorem exists_derivation {ts : List Token}
    (h : Stage.start.Accepts (ts.map Token.terminal)) : ∃ d : Derivation, d.tokens = ts := by
  -- the cases are the stages after the first token, and the trees are read off their tokens
  rcases Stage.start_accepts.1 h with ⟨hn, hp⟩ | ⟨ks, hks, ha⟩
  · rw [Stage.pieces_accepts, List.forall_mem_map] at hp
    obtain ⟨ps, rfl⟩ := exists_pieces hp
    cases ps with
    | nil => exact absurd rfl hn
    | cons first rest => exact ⟨.simple first rest, rfl⟩
  obtain ⟨k, us, rfl, hk, rfl⟩ := List.map_eq_cons_iff.1 hks
  rcases Stage.afterKeyword_accepts.1 ha with ⟨ks, hks, hb⟩ | ⟨ks, hks, hc⟩
  · obtain ⟨o, vs, rfl, ho, rfl⟩ := List.map_eq_cons_iff.1 hks
    rw [Stage.bracketed_accepts, List.forall_mem_map] at hb
    obtain ⟨body, nested, rfl⟩ := exists_blockTokens hb
    exact ⟨.bracketed ⟨k, hk⟩ none ⟨o, ho⟩ body nested, rfl⟩
  · obtain ⟨w, vs, rfl, hw, rfl⟩ := List.map_eq_cons_iff.1 hks
    rw [Stage.afterCount_accepts, List.forall_mem_map, List.forall_mem_map] at hc
    obtain ⟨hkey, ho | ho⟩ := hc
    · obtain ⟨ks, hks⟩ := List.head?_eq_some_iff.1 ho
      obtain ⟨o, xs, rfl, ho', -⟩ := List.map_eq_cons_iff.1 hks
      obtain ⟨body, nested, rfl⟩ := exists_blockTokens (List.forall_mem_cons.1 hkey).2
      exact ⟨.bracketed ⟨k, hk⟩ (some ⟨w, hw⟩) ⟨o, ho'⟩ body nested, rfl⟩
    · obtain ⟨body, rfl⟩ := exists_blockWords hkey ho
      exact ⟨.bare ⟨k, hk⟩ ⟨w, hw⟩ body, rfl⟩

theorem parse_of_tokens {d : Derivation} {line : String} (h : d.tokens = Token.ofText line) :
    Line.parse line = .ok d.line := by
  rw [Line.parse_eq_ok_iff, ← h]
  exact ⟨accepts_tokens d, ofTokens_tokens d⟩

theorem blockTokens_inj {body body' : List BlockWord} {nested nested' : Option Nested}
    (h : blockTokens body nested = blockTokens body' nested') :
    body = body' ∧ nested = nested' := by
  have ht (b : List BlockWord) (n : Option Nested) :
      (blockTokens b n).takeWhile (fun t => t.terminal ≠ .opening) = b.map BlockWord.token :=
    Line.takeWhile_ne_opening (fun _ => body_ne_opening) (fun _ => opening_of_mem_head?)
  have hb : body.map BlockWord.token = body'.map BlockWord.token := by
    rw [← ht body nested, h, ht]
  rw [blockTokens, blockTokens, hb, List.append_cancel_left_eq] at h
  refine ⟨List.map_injective_iff.2 BlockWord.token_injective hb, ?_⟩
  cases nested with
  | none =>
    cases nested' with
    | none => rfl
    | some n => cases h
  | some n =>
    cases nested' with
    | none => cases h
    | some n' =>
      obtain ⟨ho, hp⟩ := List.cons.inj h
      obtain ⟨opening, pieces⟩ := n
      obtain rfl := Subtype.ext ho
      obtain rfl := List.map_injective_iff.2 Piece.token_injective hp
      rfl

theorem count_blockTokens_inj {count count' : Option (Token.Of .word)}
    {opening opening' : Token.Of .opening} {ts ts' : List Token}
    (h : (count.map Subtype.val).toList ++ opening.val :: ts =
      (count'.map Subtype.val).toList ++ opening'.val :: ts') :
    count = count' ∧ opening = opening' ∧ ts = ts' := by
  cases count with
  | none =>
    cases count' with
    | none =>
      obtain ⟨ho, rfl⟩ := List.cons.inj h
      exact ⟨rfl, Subtype.ext ho, rfl⟩
    | some w => exact absurd (List.cons.inj h).1 (opening.val_ne w nofun)
  | some w =>
    cases count' with
    | none => exact absurd (List.cons.inj h).1 (w.val_ne opening' nofun)
    | some w' =>
      obtain ⟨hw, h⟩ := List.cons.inj h
      obtain ⟨ho, rfl⟩ := List.cons.inj h
      exact ⟨congrArg some (Subtype.ext hw), Subtype.ext ho, rfl⟩

theorem simple_tokens_ne {first : Piece} {rest : List Piece} {k : Token.Of .keyword}
    {ts : List Token} : (Derivation.simple first rest).tokens ≠ k.val :: ts := by
  intro h
  have hk : first.token = k.val := (List.cons.inj h).1
  exact first.terminal_ne_keyword (hk ▸ k.property)

theorem bracketed_tokens_ne_bare {k k' : Token.Of .keyword} {count : Option (Token.Of .word)}
    {opening : Token.Of .opening} {body body' : List BlockWord} {nested : Option Nested}
    {count' : Token.Of .word} :
    (Derivation.bracketed k count opening body nested).tokens ≠
      (Derivation.bare k' count' body').tokens := by
  intro h
  have ht := (List.cons.inj h).2
  cases count with
  | none => exact opening.val_ne count' nofun (List.cons.inj ht).1
  | some w =>
    have hb : opening.val ∈ body'.map BlockWord.token :=
      (List.cons.inj ht).2 ▸ List.mem_cons_self
    obtain ⟨u, -, hu⟩ := List.mem_map.1 hb
    exact u.terminal_ne_opening (hu ▸ opening.property)

theorem Derivation.tokens_injective : Function.Injective Derivation.tokens := by
  intro d d' h
  cases d with
  | simple first rest =>
    cases d' with
    | simple first' rest' =>
      obtain ⟨rfl, rfl⟩ := List.cons.inj (List.map_injective_iff.2 Piece.token_injective h)
      rfl
    | bracketed keyword' count' opening' body' nested' => exact absurd h simple_tokens_ne
    | bare keyword' count' body' => exact absurd h simple_tokens_ne
  | bracketed keyword count opening body nested =>
    cases d' with
    | simple first' rest' => exact absurd h.symm simple_tokens_ne
    | bracketed keyword' count' opening' body' nested' =>
      obtain ⟨hk, ht⟩ := List.cons.inj h
      obtain ⟨rfl, rfl, hb⟩ := count_blockTokens_inj ht
      obtain ⟨rfl, rfl⟩ := blockTokens_inj hb
      obtain rfl := Subtype.ext hk
      rfl
    | bare keyword' count' body' => exact absurd h bracketed_tokens_ne_bare
  | bare keyword count body =>
    cases d' with
    | simple first' rest' => exact absurd h.symm simple_tokens_ne
    | bracketed keyword' count' opening' body' nested' =>
      exact absurd h.symm bracketed_tokens_ne_bare
    | bare keyword' count' body' =>
      obtain ⟨hk, ht⟩ := List.cons.inj h
      obtain ⟨hc, hb⟩ := List.cons.inj ht
      obtain rfl := Subtype.ext hk
      obtain rfl := Subtype.ext hc
      obtain rfl := List.map_injective_iff.2 BlockWord.token_injective hb
      rfl

/-- A line parses exactly if its tokens have a derivation, which is then the only one, and to what
that says. -/
theorem parse_eq_ok_iff_derived (line : String) :
    let ts := Token.ofText line
    let ks := ts.map Token.terminal
    (∀ us, Token.Lexes 0 line.toList us ↔ us = ts) ∧
    (∀ l, Line.parse line = .ok l ↔ ∃ d : Derivation, d.tokens = ts ∧ d.line = l) ∧
    (∀ d d' : Derivation, d.tokens = ts → d'.tokens = ts → d = d') ∧
    ((∃ l, Line.parse line = .ok l) ↔ ks ≠ [] ∧ (∀ k ∈ ks.tail, k ≠ .keyword) ∧
      (ks.head? ≠ some .keyword ∨ (∃ rest, ks = .keyword :: .opening :: rest) ∨
        (∃ rest, ks = .keyword :: .word :: .opening :: rest) ∨
        ∃ rest, ks = .keyword :: .word :: rest ∧ ∀ k ∈ rest, k ≠ .opening)) ∧
    ∀ l, Line.parse line = .ok l →
      (ks.head? ≠ some .keyword → l = .simple (ts.map Token.span)) ∧
      (∀ k (count : Option Token) o body rest, ts = k :: (count.toList ++ o :: (body ++ rest)) →
        k.terminal = .keyword → (∀ w ∈ count, w.terminal = .word) → o.terminal = .opening →
        (∀ t ∈ body, t.terminal ≠ .opening) → (∀ t ∈ rest.head?, t.terminal = .opening) →
        l = .block (count.map Token.text) (Line.words body) true (!rest.isEmpty)) ∧
      ∀ k w body, ts = k :: w :: body → k.terminal = .keyword → w.terminal = .word →
        (∀ t ∈ body, t.terminal ≠ .opening) →
        l = .block (some w.text) (Line.words body) false false := by
  intro ts ks
  refine ⟨fun us => Token.lexes_iff, fun l => ?_, ?_, ?_, ?_⟩
  · rw [Line.parse_eq_ok_iff]
    constructor
    · rintro ⟨ha, rfl⟩
      obtain ⟨d, hd⟩ := exists_derivation ha
      exact ⟨d, hd, by rw [← ofTokens_tokens, hd]⟩
    · rintro ⟨d, hd, rfl⟩
      have ha := accepts_tokens d
      rw [hd] at ha
      exact ⟨ha, by rw [← ofTokens_tokens, hd]⟩
  · intro d d' hd hd'
    exact Derivation.tokens_injective (hd.trans hd'.symm)
  · simp only [Line.parse_eq_ok_iff, exists_and_left, exists_eq', and_true]
    exact Stage.start_accepts_iff
  · intro l hl
    obtain rfl := (Line.parse_eq_ok_iff.1 hl).2
    refine ⟨Line.ofTokens_simple, ?_, ?_⟩
    · intro k count o body rest hts hk hc ho hb hr
      rw [← Line.ofTokens_bracketed hk hc ho hb hr]
      exact congrArg Line.ofTokens hts
    · intro k w body hts hk hw hb
      rw [← Line.ofTokens_bare hk hw hb]
      exact congrArg Line.ofTokens hts

end Grammar

end TurtleGrid

import TurtleGrid.Proofs.Fields
import TurtleGrid.Proofs.Runs

namespace TurtleGrid

def Token.unplaced (t : Token) : Token := { t with start := 0 }

def SyntaxError.unplaced : SyntaxError → SyntaxError
  | unexpectedEnd _ expected => unexpectedEnd 0 expected
  | unexpectedToken t expected => unexpectedToken t.unplaced expected

def ReadError.unplaced : ReadError → ReadError
  | malformed e => malformed e.unplaced
  | e => e

/-- A reading without the places in the line that a syntax error names. -/
def Reading.unplaced {α : Type} (r : Reading α) : Reading α :=
  { r with result := r.result.mapError ReadError.unplaced }

namespace Token

@[simp] theorem text_unplaced (t : Token) : t.unplaced.text = t.text := rfl

@[simp] theorem terminal_unplaced (t : Token) : t.unplaced.terminal = t.terminal := rfl

theorem map_unplaced_eq_iff {ts us : List Token} :
    ts.map unplaced = us.map unplaced ↔ ts.map text = us.map text := by
  have he (vs : List Token) : vs.map unplaced = (vs.map text).map (mk 0) := by
    rw [List.map_map]
    rfl
  constructor
  · intro h
    simpa only [List.map_map, Function.comp_def, text_unplaced] using congrArg (List.map text) h
  · intro h
    rw [he, he, h]

theorem map_terminal_eq_of_map_text_eq {ts us : List Token} (h : ts.map text = us.map text) :
    ts.map terminal = us.map terminal := by
  have hm := congrArg (List.map terminal) (map_unplaced_eq_iff.2 h)
  rwa [List.map_map, List.map_map] at hm

theorem Lexes.all_isBlank {start : Nat} {cs : List Char} {ts : List Token}
    (h : Lexes start cs ts) (hn : ts = []) : cs.all isBlank := by
  induction h with
  | nil => rfl
  | blank hc _ ih => rw [List.all_cons, hc, ih hn, Bool.and_self]
  | token => cases hn

theorem ofText_eq_nil_iff {line : String} :
    ofText line = [] ↔ line.toList.all isBlank := by
  rw [ofText_eq_scan]
  constructor
  · intro h
    have hl := lexes_scan 0 line.toList
    rw [h] at hl
    exact hl.all_isBlank rfl
  · intro h
    exact scan_eq_nil h 0

end Token

theorem Stage.check_unplaced (s : Stage) (stop stop' : Nat) (ts : List Token) :
    (s.check stop ts).mapError SyntaxError.unplaced =
      (s.check stop' (ts.map Token.unplaced)).mapError SyntaxError.unplaced := by
  induction ts generalizing s stop stop' with
  | nil =>
    rw [List.map_nil, check, check]
    split <;> rfl
  | cons t ts ih =>
    rw [List.map_cons, check, check, Token.terminal_unplaced]
    cases s.next? t.terminal with
    | some next => exact ih next _ _
    | none => rfl

theorem Stage.check_unplaced_congr (s : Stage) (stop : Nat) {ts us : List Token}
    (h : ts.map Token.text = us.map Token.text) :
    (s.check stop ts).mapError SyntaxError.unplaced =
      (s.check stop us).mapError SyntaxError.unplaced := by
  rw [s.check_unplaced stop stop, Token.map_unplaced_eq_iff.2 h, ← s.check_unplaced stop stop]

namespace Line

theorem words_unplaced (ts : List Token) : words (ts.map Token.unplaced) = words ts := by
  rw [words, List.filter_map, List.map_map]
  rfl

theorem blockOfTokens_unplaced (count : Option String) (ts : List Token) :
    blockOfTokens count (ts.map Token.unplaced) = blockOfTokens count ts := by
  cases ts with
  | nil => rfl
  | cons t ts =>
    rw [List.map_cons, blockOfTokens, blockOfTokens, Token.terminal_unplaced,
      List.takeWhile_map, words_unplaced, List.any_map, ← List.map_cons, words_unplaced]
    rfl

theorem ofTokens_unplaced {ts : List Token}
    (h : (ts.map Token.terminal).head? = some .keyword) :
    ofTokens (ts.map Token.unplaced) = ofTokens ts := by
  obtain ⟨ks, hks⟩ := List.head?_eq_some_iff.1 h
  obtain ⟨k, us, rfl, hk, -⟩ := List.map_eq_cons_iff.1 hks
  cases us with
  | nil => exact (if_pos hk).trans (if_pos hk).symm
  | cons u us =>
    have hc := blockOfTokens_unplaced (some u.text) us
    have hn := blockOfTokens_unplaced none (u :: us)
    refine (if_pos hk).trans (Eq.trans ?_ (if_pos hk).symm)
    rw [← hc, ← hn]
    rfl

/-- What the words of a simple line say. -/
def readFields : List String → Reading Command
  | [] => ⟨.error .emptyCommand, []⟩
  | name :: args =>
    ⟨(resolve name args.head?).map .step,
      (if 1 < args.length then [.extraTokens (args.length - 1) name] else []) ++
        resolveRemarks name args.head?⟩

theorem read_simple (text : String) (pieces : List Span) :
    (simple pieces).read text = readFields ((Span.glue pieces).map (·.slice text)) := by
  rw [read, command, remarks]
  cases Span.glue pieces with
  | nil => rfl
  | cons name args => simp only [List.map_cons, readFields, List.head?_map, List.length_map]

theorem read_ofText_of_ne_keyword {text : String}
    (h : ((Token.ofText text).map Token.terminal).head? ≠ some .keyword) :
    (ofTokens (Token.ofText text)).read text = readFields (fields text) := by
  rw [ofTokens_simple h, read_simple, Token.glue_ofText]

theorem exists_eq_block {ts : List Token} (h : (ts.map Token.terminal).head? = some .keyword) :
    ∃ count body bracketed nested, ofTokens ts = block count body bracketed nested := by
  have hb (count : Option String) (us : List Token) :
      ∃ body bracketed nested, blockOfTokens count us = block count body bracketed nested := by
    cases us with
    | nil => exact ⟨_, _, _, rfl⟩
    | cons u us =>
      rw [blockOfTokens]
      split <;> exact ⟨_, _, _, rfl⟩
  obtain ⟨ks, hks⟩ := List.head?_eq_some_iff.1 h
  obtain ⟨k, us, rfl, hk, -⟩ := List.map_eq_cons_iff.1 hks
  cases us with
  | nil => exact ⟨_, _, _, _, if_pos hk⟩
  | cons u us =>
    rw [show ofTokens (k :: u :: us) = _ from if_pos hk]
    split
    · exact ⟨_, hb _ us⟩
    · exact ⟨_, hb _ (u :: us)⟩

theorem eq_map_span_of_parse {text : String} {pieces : List Span}
    (h : parse text = .ok (simple pieces)) : pieces = (Token.ofText text).map Token.span := by
  have ho := (parse_eq_ok_iff.1 h).2
  by_cases hk : ((Token.ofText text).map Token.terminal).head? = some .keyword
  · obtain ⟨count, body, bracketed, nested, he⟩ := exists_eq_block hk
    cases he.symm.trans ho
  · exact (simple.inj ((ofTokens_simple hk).symm.trans ho)).symm

theorem read_congr {text text' : String}
    (ht : (Token.ofText text).map Token.text = (Token.ofText text').map Token.text)
    (h : ((Token.ofText text).map Token.terminal).head? = some .keyword ∨
      fields text = fields text') :
    (ofTokens (Token.ofText text)).read text = (ofTokens (Token.ofText text')).read text' := by
  have hu := Token.map_unplaced_eq_iff.2 ht
  have hk := Token.map_terminal_eq_of_map_text_eq ht
  -- a block is made of the texts of its tokens, a simple line is cut out of the text again
  by_cases hb : ((Token.ofText text).map Token.terminal).head? = some .keyword
  · have hb' := hb
    rw [hk] at hb'
    obtain ⟨count, body, bracketed, nested, he⟩ := exists_eq_block hb'
    rw [← ofTokens_unplaced hb, hu, ofTokens_unplaced hb', he]
    rfl
  · have hb' := hb
    rw [hk] at hb'
    rw [read_ofText_of_ne_keyword hb, read_ofText_of_ne_keyword hb', h.resolve_left hb]

end Line

theorem readLine_of_ofText_eq_nil {text : String} (h : Token.ofText text = []) :
    readLine text = ⟨.ok none, []⟩ := by
  rw [readLine, if_pos (Token.ofText_eq_nil_iff.1 h)]

theorem readLine_of_parse_eq_ok {text : String} {l : Line} (h : Line.parse text = .ok l) :
    readLine text = ⟨(l.read text).result.map some, (l.read text).remarks⟩ := by
  rw [readLine, if_neg]
  · simp only [h]
  · intro hb
    have ha := (Line.parse_eq_ok_iff.1 h).1
    rw [Token.ofText_eq_nil_iff.2 hb] at ha
    cases ha

theorem readLine_of_parse_simple {text : String} {pieces : List Span}
    (h : Line.parse text = .ok (.simple pieces)) :
    ∃ name args, fields text = name :: args ∧
      readLine text = ⟨(resolve name args.head?).map fun t => some (.step t),
        (if 1 < args.length then [.extraTokens (args.length - 1) name] else []) ++
          resolveRemarks name args.head?⟩ := by
  have hr := readLine_of_parse_eq_ok h
  rw [Line.eq_map_span_of_parse h, Line.read_simple, Token.glue_ofText] at hr
  cases hf : fields text with
  | nil =>
    have ht := Token.map_text_ofText text
    rw [hf, List.flatMap_nil, List.map_eq_nil_iff] at ht
    have ha := (Line.parse_eq_ok_iff.1 h).1
    rw [ht] at ha
    cases ha
  | cons name args =>
    refine ⟨name, args, rfl, ?_⟩
    rw [hr, hf, Line.readFields]
    cases resolve name args.head? <;> rfl

theorem readLine_of_parse_block {text : String} {count : Option String} {body : List String}
    {bracketed nested : Bool} (h : Line.parse text = .ok (.block count body bracketed nested)) :
    readLine text =
      ⟨(resolveAll (pairs body)).map fun steps => some (.loop (amount count) (steps.map .step)),
        (Line.block count body bracketed nested).remarks text⟩ := by
  rw [readLine_of_parse_eq_ok h, Line.read, Line.command]
  cases resolveAll (pairs body) <;> rfl

theorem readLine_of_parse_eq_error {text : String} {e : SyntaxError}
    (hn : Token.ofText text ≠ []) (h : Line.parse text = .error e) :
    readLine text = ⟨.error (.malformed e), []⟩ := by
  rw [readLine, if_neg (mt Token.ofText_eq_nil_iff.2 hn), h]

theorem readLine_congr {text text' : String} (ht : Token.ofText text = Token.ofText text')
    (hf : fields text = fields text') : readLine text = readLine text' := by
  have hr := Line.read_congr (congrArg (List.map Token.text) ht) (.inr hf)
  by_cases hn : Token.ofText text = []
  · rw [readLine_of_ofText_eq_nil hn, readLine_of_ofText_eq_nil (ht ▸ hn)]
  · have hp : Line.parse text = Line.parse text' := by
      rw [Line.parse, Line.parse, ht]
    cases h : Line.parse text with
    | ok l =>
      have h' := hp ▸ h
      obtain rfl := (Line.parse_eq_ok_iff.1 h).2
      rw [readLine_of_parse_eq_ok h, readLine_of_parse_eq_ok h', hr, ht]
    | error e => rw [readLine_of_parse_eq_error hn h, readLine_of_parse_eq_error (ht ▸ hn) (hp ▸ h)]

theorem readLine_unplaced_congr {text text' : String}
    (ht : (Token.ofText text).map Token.text = (Token.ofText text').map Token.text)
    (h : ((Token.ofText text).map Token.text).head? = some "REPEAT" ∨
      fields text = fields text') :
    (readLine text).unplaced = (readLine text').unplaced := by
  have hk (hr : ((Token.ofText text).map Token.text).head? = some "REPEAT") :
      ((Token.ofText text).map Token.terminal).head? = some .keyword := by
    rw [List.head?_map, Option.map_eq_some_iff] at hr ⊢
    obtain ⟨t, ht, hr⟩ := hr
    exact ⟨t, ht, Token.terminal_eq_keyword.2 hr⟩
  have hr := Line.read_congr ht (h.imp_left hk)
  by_cases hn : Token.ofText text = []
  · have hn' : Token.ofText text' = [] := by
      rwa [hn, List.map_nil, eq_comm, List.map_eq_nil_iff] at ht
    rw [readLine_of_ofText_eq_nil hn, readLine_of_ofText_eq_nil hn']
  · have hn' : Token.ofText text' ≠ [] := by
      intro hn'
      rw [hn', List.map_nil, List.map_eq_nil_iff] at ht
      exact hn ht
    cases hp : Line.parse text with
    | ok l =>
      obtain ⟨ha, rfl⟩ := Line.parse_eq_ok_iff.1 hp
      rw [Token.map_terminal_eq_of_map_text_eq ht] at ha
      rw [readLine_of_parse_eq_ok hp, readLine_of_parse_eq_ok (Line.parse_eq_ok_iff.2 ⟨ha, rfl⟩),
        hr]
    | error e =>
      have hc := Stage.check_unplaced_congr .start 0 ht
      rw [Line.parse_eq_error_iff.1 hp] at hc
      obtain ⟨e', he', hu⟩ := mapError_eq_error.1 hc.symm
      rw [readLine_of_parse_eq_error hn hp,
        readLine_of_parse_eq_error hn' (Line.parse_eq_error_iff.2 he')]
      simp only [Reading.unplaced, Except.mapError, ReadError.unplaced, hu]

namespace Token

theorem map_text_scan_blanks {gap : List Char} (hg : gap.all isBlank) (start : Nat)
    (cs : List Char) : (scan start (gap ++ cs)).map text = (scan 0 cs).map text := by
  rw [scan_append, scan_eq_nil hg, List.nil_append, map_text_scan_eq]
  intro c hc d _
  have hb := List.all_eq_true.1 hg c (List.mem_of_getLast? hc)
  rw [inWord, hb, Bool.not_true, Bool.false_and, Bool.false_and, Bool.false_and]

theorem map_text_scan_bracket {c : Char} (hc : c = '[' ∨ c = ']') {gap gap' : List Char}
    (hg : gap.all isBlank) (hg' : gap'.all isBlank) (cs ds : List Char) :
    (scan 0 (cs ++ (gap ++ c :: (gap' ++ ds)))).map text =
      (scan 0 cs).map text ++ .ofList [c] :: (scan 0 ds).map text := by
  rw [scan_append, List.map_append, map_text_scan_blanks hg, scan_bracket hc, List.map_cons,
    map_text_scan_blanks hg']
  intro e _ d hd
  cases gap with
  | nil =>
    obtain rfl := Option.some.inj hd
    rcases hc with rfl | rfl <;> exact Bool.and_false _
  | cons b gap =>
    obtain rfl := Option.some.inj hd
    have hb := List.all_eq_true.1 hg b (.head gap)
    rw [inWord, inWord, hb, Bool.not_true, Bool.false_and, Bool.false_and, Bool.and_false]

theorem map_text_ofText_bracket {bracket : String} (hb : bracket = "[" ∨ bracket = "]")
    {gap gap' : String} (hg : gap.toList.all isBlank) (hg' : gap'.toList.all isBlank)
    (before after : String) :
    (ofText (before ++ gap ++ bracket ++ gap' ++ after)).map text =
      (ofText (before ++ bracket ++ after)).map text := by
  obtain ⟨c, hc, rfl⟩ : ∃ c, (c = '[' ∨ c = ']') ∧ bracket = .ofList [c] := by
    rcases hb with rfl | rfl
    · exact ⟨'[', .inl rfl, rfl⟩
    · exact ⟨']', .inr rfl, rfl⟩
  have h := map_text_scan_bracket hc hg hg' before.toList after.toList
  have h' := @map_text_scan_bracket c hc [] [] rfl rfl before.toList after.toList
  simp only [ofText_eq_scan, String.toList_append, String.toList_ofList, List.append_assoc,
    List.cons_append, List.nil_append] at h h' ⊢
  rw [h, h']

end Token

/-- Blanks count only as ends of words, and next to a bracket of a block not at all. -/
theorem readLine_unplaced_eq_of_respaced :
    (∀ text text' : String, fields text = fields text' →
      (readLine text).unplaced = (readLine text').unplaced) ∧
    (∀ text text' : String,
      (Token.ofText text).map Token.text = (Token.ofText text').map Token.text →
      ((Token.ofText text).map Token.text).head? = some "REPEAT" →
      (readLine text).unplaced = (readLine text').unplaced) ∧
    ∀ before gap bracket gap' after : String, (bracket = "[" ∨ bracket = "]") →
      gap.toList.all isBlank → gap'.toList.all isBlank →
      ((Token.ofText (before ++ bracket ++ after)).map Token.text).head? = some "REPEAT" →
      (readLine (before ++ gap ++ bracket ++ gap' ++ after)).unplaced =
        (readLine (before ++ bracket ++ after)).unplaced := by
  refine ⟨fun text text' h => ?_, fun text text' h hk => ?_, ?_⟩
  · apply readLine_unplaced_congr _ (.inr h)
    rw [Token.map_text_ofText, Token.map_text_ofText text', h]
  · exact readLine_unplaced_congr h (.inl hk)
  · intro before gap bracket gap' after hb hg hg' hk
    have ht := Token.map_text_ofText_bracket hb hg hg' before after
    exact readLine_unplaced_congr ht (.inl (ht ▸ hk))

/-- Other blanks between the words, none where they may be left out, and more next to a bracket. -/
theorem readLine_unplaced_eq_of_respaced_block :
    fields "REPEAT 2 [FD\t1]" = fields "\u3000REPEAT  2 [FD 1]\r" ∧
      (readLine "REPEAT 2 [FD\t1]").unplaced = (readLine "\u3000REPEAT  2 [FD 1]\r").unplaced ∧
      (Token.ofText "REPEAT[FD 1").map Token.text = (Token.ofText "REPEAT [ FD 1").map Token.text ∧
      ((Token.ofText "REPEAT[FD 1").map Token.text).head? = some "REPEAT" ∧
      (readLine "REPEAT[FD 1").unplaced = (readLine "REPEAT [ FD 1").unplaced ∧
      ((Token.ofText ("REPEAT 2" ++ "[" ++ "FD 1")).map Token.text).head? = some "REPEAT" ∧
      (readLine ("REPEAT 2" ++ "\t" ++ "[" ++ " \u3000" ++ "FD 1")).unplaced =
        (readLine ("REPEAT 2" ++ "[" ++ "FD 1")).unplaced := by
  obtain ⟨hwords, htokens, hgaps⟩ := readLine_unplaced_eq_of_respaced
  have hf : fields "REPEAT 2 [FD\t1]" = fields "\u3000REPEAT  2 [FD 1]\r" := by decide +kernel
  have ht : (Token.ofText "REPEAT[FD 1").map Token.text =
      (Token.ofText "REPEAT [ FD 1").map Token.text := by decide +kernel
  have hk : ((Token.ofText "REPEAT[FD 1").map Token.text).head? = some "REPEAT" := by
    decide +kernel
  have hk' : ((Token.ofText ("REPEAT 2" ++ "[" ++ "FD 1")).map Token.text).head? =
      some "REPEAT" := by decide +kernel
  exact ⟨hf, hwords _ _ hf, ht, hk, htokens _ _ ht hk, hk',
    hgaps _ _ _ _ _ (.inl rfl) (by decide +kernel) (by decide +kernel) hk'⟩

end TurtleGrid

import TurtleGrid.Line

namespace TurtleGrid.Stage

open Terminal

/-- From this stage on, the kinds of the further tokens lead to an end. -/
def Accepts : Stage → List Terminal → Prop
  | s, [] => s.complete
  | s, k :: ks =>
    match s.next? k with
    | some next => next.Accepts ks
    | none => False

@[simp] theorem accepts_nil {s : Stage} : s.Accepts [] ↔ s.complete := Iff.rfl

theorem accepts_cons {s : Stage} {k : Terminal} {ks : List Terminal} :
    s.Accepts (k :: ks) ↔ ∃ next, s.next? k = some next ∧ next.Accepts ks := by
  rw [Accepts]
  cases s.next? k <;> simp

theorem check_eq_ok_iff {s : Stage} {stop : Nat} {ts : List Token} :
    s.check stop ts = .ok () ↔ s.Accepts (ts.map Token.terminal) := by
  induction ts generalizing s stop with
  | nil =>
    rw [check, List.map_nil, accepts_nil]
    split <;> simp_all
  | cons t ts ih =>
    rw [List.map_cons, check, accepts_cons]
    cases s.next? t.terminal with
    | some next => simp [ih]
    | none => simp

theorem accepts_iff_of_closed (stages : List Stage) (stops : List Terminal)
    (hc : ∀ s ∈ stages, s.complete) (hs : ∀ s ∈ stages, ∀ k ∈ stops, s.next? k = none)
    (hn : ∀ s ∈ stages, ∀ k ∈ Terminal.all, k ∉ stops → ∃ s' ∈ stages, s.next? k = some s')
    {s : Stage} (h : s ∈ stages) {ks : List Terminal} : s.Accepts ks ↔ ∀ k ∈ ks, k ∉ stops := by
  induction ks generalizing s with
  | nil => exact iff_of_true (hc s h) fun _ => nofun
  | cons k ks ih =>
    rw [List.forall_mem_cons, accepts_cons]
    by_cases hk : k ∈ stops
    · simp [hs s h k hk, hk]
    · obtain ⟨s', hs', he⟩ := hn s h k (mem_all k) hk
      simp [he, ih hs', hk]

theorem pieces_accepts {ks : List Terminal} : pieces.Accepts ks ↔ ∀ k ∈ ks, k ≠ keyword := by
  have h : pieces.Accepts ks ↔ _ :=
    accepts_iff_of_closed [pieces] [keyword] (by decide) (by decide) (by decide) (.head _)
  simpa only [List.mem_singleton] using h

theorem bracketed_accepts {ks : List Terminal} :
    bracketed.Accepts ks ↔ ∀ k ∈ ks, k ≠ keyword := by
  have h : bracketed.Accepts ks ↔ _ :=
    accepts_iff_of_closed [bracketed, ignored] [keyword] (by decide) (by decide) (by decide)
      (.head _)
  simpa only [List.mem_singleton] using h

theorem bare_accepts {ks : List Terminal} :
    bare.Accepts ks ↔ (∀ k ∈ ks, k ≠ keyword) ∧ ∀ k ∈ ks, k ≠ opening := by
  have h : bare.Accepts ks ↔ _ :=
    accepts_iff_of_closed [bare] [keyword, opening] (by decide) (by decide) (by decide) (.head _)
  simpa only [List.mem_cons, List.not_mem_nil, or_false, not_or, forall_and] using h

theorem afterCount_accepts {ks : List Terminal} :
    afterCount.Accepts ks ↔
      (∀ k ∈ ks, k ≠ keyword) ∧ (ks.head? = some opening ∨ ∀ k ∈ ks, k ≠ opening) := by
  cases ks with
  | nil => simp [complete]
  | cons k ks =>
    cases k with
    | keyword => simp [accepts_cons, next?]
    | opening => simp [accepts_cons, next?, bracketed_accepts]
    | closing => simp [accepts_cons, next?, bare_accepts]
    | word => simp [accepts_cons, next?, bare_accepts]

theorem afterKeyword_accepts {ks : List Terminal} :
    afterKeyword.Accepts ks ↔
      (∃ rest, ks = opening :: rest ∧ bracketed.Accepts rest) ∨
        ∃ rest, ks = word :: rest ∧ afterCount.Accepts rest := by
  cases ks with
  | nil => simp [complete]
  | cons k ks => cases k <;> simp [accepts_cons, next?]

theorem start_accepts {ks : List Terminal} :
    start.Accepts ks ↔
      (ks ≠ [] ∧ pieces.Accepts ks) ∨ ∃ rest, ks = keyword :: rest ∧ afterKeyword.Accepts rest := by
  cases ks with
  | nil => simp [complete]
  | cons k ks => cases k <;> simp [accepts_cons, next?]

theorem start_accepts_iff {ks : List Terminal} :
    start.Accepts ks ↔ ks ≠ [] ∧ (∀ k ∈ ks.tail, k ≠ keyword) ∧
      (ks.head? ≠ some keyword ∨ (∃ rest, ks = keyword :: opening :: rest) ∨
        (∃ rest, ks = keyword :: word :: opening :: rest) ∨
        ∃ rest, ks = keyword :: word :: rest ∧ ∀ k ∈ rest, k ≠ opening) := by
  rcases ks with _ | ⟨k, ks⟩
  · simp [complete]
  · cases k with
    | keyword =>
      rcases ks with _ | ⟨k, ks⟩
      · simp [accepts_cons, next?, complete]
      · cases k with
        | keyword => simp [accepts_cons, next?]
        | opening => simp [accepts_cons, next?, bracketed_accepts]
        | closing => simp [accepts_cons, next?]
        | word => simp [accepts_cons, next?, afterCount_accepts, List.head?_eq_some_iff]
    | opening => simp [accepts_cons, next?, pieces_accepts]
    | closing => simp [accepts_cons, next?, pieces_accepts]
    | word => simp [accepts_cons, next?, pieces_accepts]

end TurtleGrid.Stage

namespace TurtleGrid.Line

theorem takeWhile_ne_opening {body rest : List Token} (hb : ∀ t ∈ body, t.terminal ≠ .opening)
    (hr : ∀ t ∈ rest.head?, t.terminal = .opening) :
    (body ++ rest).takeWhile (fun t => t.terminal ≠ .opening) = body := by
  rw [List.takeWhile_append_of_pos fun t ht => decide_eq_true (hb t ht)]
  cases rest with
  | nil => exact List.append_nil _
  | cons t rest =>
    rw [List.takeWhile_cons_of_neg, List.append_nil]
    simp [hr t rfl]

theorem any_opening {body rest : List Token} (hb : ∀ t ∈ body, t.terminal ≠ .opening)
    (hr : ∀ t ∈ rest.head?, t.terminal = .opening) :
    (body ++ rest).any (fun t => t.terminal = .opening) = !rest.isEmpty := by
  have hn : body.any (fun t => t.terminal = .opening) = false := by simpa using hb
  rw [List.any_append, hn, Bool.false_or]
  cases rest with
  | nil => rfl
  | cons t rest => simp [hr t rfl]

theorem ofTokens_simple {ts : List Token} (h : (ts.map Token.terminal).head? ≠ some .keyword) :
    ofTokens ts = simple (ts.map Token.span) := by
  cases ts with
  | nil => rfl
  | cons t ts => exact if_neg fun ht => h (congrArg some ht)

theorem ofTokens_count {k w : Token} (hk : k.terminal = .keyword) (hw : w.terminal = .word)
    (ts : List Token) : ofTokens (k :: w :: ts) = blockOfTokens (some w.text) ts :=
  (if_pos hk).trans (if_pos hw)

theorem ofTokens_bracketed {k o : Token} {count : Option Token} {body rest : List Token}
    (hk : k.terminal = .keyword) (hc : ∀ w ∈ count, w.terminal = .word)
    (ho : o.terminal = .opening) (hb : ∀ t ∈ body, t.terminal ≠ .opening)
    (hr : ∀ t ∈ rest.head?, t.terminal = .opening) :
    ofTokens (k :: (count.toList ++ o :: (body ++ rest))) =
      block (count.map Token.text) (words body) true (!rest.isEmpty) := by
  have hblock (c : Option String) :
      blockOfTokens c (o :: (body ++ rest)) = block c (words body) true (!rest.isEmpty) := by
    rw [blockOfTokens, if_pos ho, takeWhile_ne_opening hb hr, any_opening hb hr]
  cases count with
  | none =>
    have how : o.terminal ≠ .word := by
      rw [ho]
      decide
    exact ((if_pos hk).trans (if_neg how)).trans (hblock none)
  | some w => exact (ofTokens_count hk (hc w rfl) _).trans (hblock _)

theorem ofTokens_bare {k w : Token} {body : List Token} (hk : k.terminal = .keyword)
    (hw : w.terminal = .word) (hb : ∀ t ∈ body, t.terminal ≠ .opening) :
    ofTokens (k :: w :: body) = block (some w.text) (words body) false false := by
  rw [ofTokens_count hk hw]
  cases body with
  | nil => rfl
  | cons t ts => exact if_neg (hb t (.head ts))

theorem parse_eq_ok_iff {line : String} {l : Line} :
    parse line = .ok l ↔
      Stage.start.Accepts ((Token.ofText line).map Token.terminal) ∧
        ofTokens (Token.ofText line) = l := by
  simp only [parse]
  rw [← @Stage.check_eq_ok_iff _ 0]
  cases Stage.start.check 0 (Token.ofText line) <;> simp [Except.map]

theorem parse_eq_error_iff {line : String} {e : SyntaxError} :
    parse line = .error e ↔ Stage.start.check 0 (Token.ofText line) = .error e := by
  simp only [parse]
  cases Stage.start.check 0 (Token.ofText line) <;> simp [Except.map]

end TurtleGrid.Line

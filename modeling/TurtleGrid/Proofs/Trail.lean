import TurtleGrid.Proofs.KingMove
import TurtleGrid.Proofs.Motion
import TurtleGrid.Proofs.Requests

namespace TurtleGrid

def Entry.markedCell? : Entry → Option Cell
  | mark c => some c
  | _ => none

def Session.marks (s : Session) : List Cell := s.journal.toList.filterMap Entry.markedCell?

/-- The marks lead by king's moves from the centre to where the turtle is; they are what is
visited. -/
structure Drawing.Trails (size : Nat) (marks : List Cell) (d : Drawing) : Prop where
  size_eq : d.size = size
  head?_eq : marks.head? = Drawing.centre? size
  isChain : marks.IsChain Cell.IsKingMove
  mem_visited : ∀ c, c ∈ d.visited ↔ c ∈ marks
  getLast?_eq : marks.getLast? = d.position

def Turtle.Trails (size : Nat) (t : Turtle) (marks : List Cell) : Prop :=
  t.Sound (Drawing.Trails size marks)

namespace Drawing

variable {size : Nat} {d : Drawing} {marks cells : List Cell}

theorem trails_ofSize (size : Nat) : (ofSize size).Trails size (centre? size).toList := by
  refine ⟨?_, ?_, ?_, fun c => ?_, ?_⟩
  · rw [ofSize, size_markAll]
    rfl
  · cases centre? size <;> rfl
  · cases centre? size with
    | none => exact .nil
    | some a => exact .singleton a
  · have he : c ∉ (blank size).visited := Std.HashSet.not_mem_empty
    rw [ofSize, mem_visited_markAll, or_iff_left he]
  · rw [ofSize, position_markAll]
    exact Option.or_none.symm

theorem Trails.markAll {a : Cell} (h : d.Trails size marks) (ha : d.position = some a)
    (hc : (a :: cells).IsChain Cell.IsKingMove) : (d.markAll cells).Trails size (marks ++ cells) := by
  have hl : marks.getLast? = some a := h.getLast?_eq.trans ha
  -- the marks end where the walk begins, so the two chains have that cell in common
  obtain ⟨front, rfl⟩ := List.getLast?_eq_some_iff.1 hl
  refine ⟨(size_markAll ..).trans h.size_eq, ?_, ?_, ?_, ?_⟩
  · rw [← h.head?_eq]
    simp
  · exact h.isChain.append_overlap hc (List.cons_ne_nil a [])
  · intro c
    rw [List.mem_append, or_comm, ← h.mem_visited]
    exact mem_visited_markAll
  · rw [List.getLast?_append, h.getLast?_eq]
    exact (position_markAll ..).symm

end Drawing

namespace Turtle

variable {size : Nat} {t : Turtle} {marks : List Cell}

theorem Trails.follow {s : Step} {m : Motion} (h : t.Trails size marks) (hm : t.motion s = .ok m) :
    (t.follow m).Trails size (marks ++ m.cells) := by
  rcases motion_cases hm with ⟨degrees, rfl⟩ | ⟨n, cs, hcs, rfl⟩
  · rw [Motion.cells, List.append_nil]
    exact sound_turn h.drawing degrees
  · obtain ⟨c, a, -, ha, rfl⟩ := route_eq_ok.1 hcs
    exact h.walk (h.drawing.markAll ha (Cell.isChain_path a _))

theorem Trails.marks_eq_nil (h : t.Trails 0 marks) : marks = [] :=
  List.head?_eq_none_iff.1 h.drawing.head?_eq

theorem Trails.head?_eq_centre (h : t.Trails size marks) (hs : 0 < size) :
    marks.head? = some ⟨(size / 2 : Nat), (size / 2 : Nat)⟩ :=
  h.drawing.head?_eq.trans (if_neg (Nat.ne_of_gt hs))

theorem Trails.exists_position (h : t.Trails size marks) (hs : 0 < size) :
    ∃ a ∈ t.drawing.visited, t.drawing.position = some a := by
  have hc := List.mem_of_mem_head? (h.head?_eq_centre hs)
  have hl := List.getLast?_eq_some_getLast (List.ne_nil_of_mem hc)
  exact ⟨_, (h.drawing.mem_visited _).2 (List.mem_of_mem_getLast? hl),
    h.drawing.getLast?_eq.symm.trans hl⟩

end Turtle

namespace Session

variable {size : Nat} {s : Session}

theorem marks_record {e : Entry} (s : Session) (he : e.markedCell? = none) :
    (s.record e).marks = s.marks := by
  simp [marks, record, List.filterMap_append, he]

theorem marks_recordAll {es : List Entry} (s : Session) (he : ∀ e ∈ es, e.markedCell? = none) :
    (s.recordAll es).marks = s.marks := by
  have hes : es.filterMap Entry.markedCell? = [] := List.filterMap_eq_nil_iff.2 he
  simp [marks, recordAll, List.filterMap_append, hes]

theorem marks_follow (s : Session) (m : Motion) : (s.follow m).marks = s.marks ++ m.cells := by
  have hm : (m.cells.map Entry.mark).filterMap Entry.markedCell? = m.cells := by
    rw [List.filterMap_map]
    exact List.filterMap_some
  simp [marks, follow, List.filterMap_append, hm]

theorem marks_enter (count : Int64) (body : List Command) (s : Session) :
    (enter count body s).marks = s.marks := by
  rw [enter, marks_record _ rfl, marks_record _ rfl]

theorem marks_heed (number : Nat) (remarks : List Remark) (s : Session) :
    (s.heed number remarks).marks = s.marks := by
  have hn : ∀ e ∈ Entry.notes remarks, e.markedCell? = none := by
    intro e he
    obtain ⟨r, -, hr⟩ := List.mem_filterMap.1 he
    obtain ⟨text, -, rfl⟩ := Option.map_eq_some_iff.1 hr
    rfl
  have hr : (s.recordAll (Entry.notes remarks)).marks = s.marks := marks_recordAll s hn
  simp only [heed]
  split
  · exact hr
  · exact (marks_record (s.recordAll _) rfl).trans hr

theorem marks_ofSize (size : Nat) :
    (Session.ofSize size).marks = (Drawing.centre? size).toList := by
  cases h : Drawing.centre? size <;> simp [marks, ofSize, h, Entry.markedCell?]

theorem perform_cases (t : Step) (s : Session) :
    (∃ m, s.turtle.motion t = .ok m ∧ (s.perform t).state.turtle = s.turtle.follow m ∧
      (s.perform t).state.marks = s.marks ++ m.cells) ∨
    ((s.perform t).state.turtle = s.turtle ∧ (s.perform t).state.marks = s.marks) := by
  have hr : (s.record (.executing (.step t))).marks = s.marks := marks_record s rfl
  cases hm : s.turtle.motion t with
  | ok m =>
    rw [perform_of_ok hm]
    refine .inl ⟨m, rfl, rfl, ?_⟩
    rw [Outcome.state, marks_follow, hr]
  | error f =>
    rw [perform_of_error hm]
    exact .inr ⟨rfl, hr⟩

theorem invariant_trails (size : Nat) : Invariant fun s => s.turtle.Trails size s.marks where
  perform t s hs := by
    rcases perform_cases t s with ⟨m, hm, ht, hc⟩ | ⟨ht, hc⟩
    · rw [ht, hc]
      exact hs.follow hm
    · rw [ht, hc]
      exact hs
  enter count body s hs := by
    rw [marks_enter, turtle_enter]
    exact hs
  heed number remarks s hs := by
    rw [marks_heed, turtle_heed]
    exact hs

theorem invariant_marks_grow (cs : List Cell) : Invariant fun s => cs <+: s.marks where
  perform t s hs := by
    rcases perform_cases t s with ⟨m, -, -, hc⟩ | ⟨-, hc⟩
    · rw [hc]
      exact hs.trans (List.prefix_append _ _)
    · rwa [hc]
  enter count body s hs := by rwa [marks_enter]
  heed number remarks s hs := by rwa [marks_heed]

theorem trails_serveAll (size : Nat) (rs : List Request) :
    ((ofSize size).serveAll rs).turtle.Trails size ((ofSize size).serveAll rs).marks := by
  apply (invariant_trails size).serveAll
  rw [marks_ofSize]
  exact Turtle.sound_ofSize (Drawing.trails_ofSize size)

theorem Reachable.trails (hs : s.Reachable size) : s.turtle.Trails size s.marks := by
  obtain ⟨rs, rfl⟩ := hs
  exact trails_serveAll size rs

/-- Whatever a session is asked, its drawing is one trail of king's moves from the centre to the
turtle, and no mark goes away. -/
theorem drawing_serveAll (size : Nat) (rs : List Request) :
    let s := (ofSize size).serveAll rs
    let d := s.turtle.drawing
    let centre : Cell := ⟨(size / 2 : Nat), (size / 2 : Nat)⟩
    d.size = size ∧ 0 ≤ s.turtle.heading ∧ s.turtle.heading < 360 ∧
    (size = 0 → (∀ c, c ∉ d.visited) ∧ d.position = none) ∧
    (0 < size →
      s.marks.head? = some centre ∧ s.marks.IsChain Cell.IsKingMove ∧
      (∀ c, c ∈ d.visited ↔ c ∈ s.marks) ∧ s.marks.getLast? = d.position ∧
      centre ∈ d.visited ∧ (∃ a ∈ d.visited, d.position = some a) ∧
      ∀ c ∈ d.visited, Relation.ReflTransGen
        (fun a b => a ∈ d.visited ∧ b ∈ d.visited ∧ a.IsKingMove b) centre c) ∧
    ∀ rs', s.marks <+: (s.serveAll rs').marks ∧
      ∀ c ∈ d.visited, c ∈ (s.serveAll rs').turtle.drawing.visited := by
  intro s d centre
  have h : s.turtle.Trails size s.marks := trails_serveAll size rs
  have hv : ∀ c, c ∈ d.visited ↔ c ∈ s.marks := h.drawing.mem_visited
  refine ⟨h.drawing.size_eq, h.heading_nonneg, h.heading_lt, ?_, ?_, ?_⟩
  · intro hz
    subst hz
    have hn : s.marks = [] := h.marks_eq_nil
    simp only [hv, hn, List.not_mem_nil, not_false_iff, implies_true, true_and]
    rw [← h.drawing.getLast?_eq, hn, List.getLast?_nil]
  · intro hp
    have hh : s.marks.head? = some centre := h.head?_eq_centre hp
    have hc : centre ∈ d.visited := (hv centre).2 (List.mem_of_mem_head? hh)
    refine ⟨hh, h.drawing.isChain, hv, h.drawing.getLast?_eq, hc, h.exists_position hp, ?_⟩
    intro c hcv
    simp only [hv]
    exact Cell.reflTransGen_of_isChain h.drawing.isChain hh ((hv c).1 hcv)
  · intro rs'
    have hp : s.marks <+: (s.serveAll rs').marks :=
      (invariant_marks_grow s.marks).serveAll (List.prefix_refl _) rs'
    have h' : (s.serveAll rs').turtle.Trails size (s.serveAll rs').marks := by
      have ht := trails_serveAll size (rs ++ rs')
      rwa [serveAll_append] at ht
    exact ⟨hp, fun c hc => (h'.drawing.mem_visited c).2 (hp.subset ((hv c).1 hc))⟩

end Session

end TurtleGrid

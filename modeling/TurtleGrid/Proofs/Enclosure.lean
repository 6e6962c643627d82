import TurtleGrid.Proofs.Grounding
import TurtleGrid.Proofs.LineRuns
import TurtleGrid.Proofs.Lockstep
import TurtleGrid.Proofs.Picture
import TurtleGrid.Proofs.Trail

namespace TurtleGrid

namespace Cell

theorem add_sign_sub_mem {n i j : Int} (hi : 0 ≤ i ∧ i < n) (hj : 0 ≤ j ∧ j < n) :
    0 ≤ i + (j - i).sign ∧ i + (j - i).sign < n := by
  have h := Set.mem_uIcc.1 (add_sign_sub_mem_uIcc i j)
  omega

variable {n : Nat} {a b : Cell}

theorem InSquare.toward (ha : a.InSquare n) (hb : b.InSquare n) : (a.toward b).InSquare n := by
  obtain ⟨hx, hxn, hy, hyn⟩ := ha
  obtain ⟨hbx, hbxn, hby, hbyn⟩ := hb
  obtain ⟨h, hn⟩ := add_sign_sub_mem ⟨hx, hxn⟩ ⟨hbx, hbxn⟩
  exact ⟨h, hn, add_sign_sub_mem ⟨hy, hyn⟩ ⟨hby, hbyn⟩⟩

theorem InSquare.of_mem_path (ha : a.InSquare n) (hb : b.InSquare n) {c : Cell}
    (hc : c ∈ a.path b) : c.InSquare n := by
  induction a using toward_induction (b := b) with
  | arrived =>
    rw [path_self] at hc
    cases hc
  | step a h ih =>
    rw [path_of_ne h, List.mem_cons] at hc
    have ht := ha.toward hb
    rcases hc with rfl | hc
    · exact ht
    · exact ih ht hc

theorem inSquare_centre {size : Nat} (h0 : 0 < size) :
    InSquare size ⟨(size / 2 : Nat), (size / 2 : Nat)⟩ := by
  have hlt : size / 2 < size := Nat.div_lt_self h0 (Nat.lt_succ_self 1)
  exact inSquare_iff.2 ⟨_, _, hlt, hlt, rfl⟩

end Cell

structure Drawing.LiesInSquare (n : Nat) (d : Drawing) : Prop where
  visited : ∀ c ∈ d.visited, c.InSquare n
  position : ∀ a, d.position = some a → a.InSquare n

theorem Drawing.LiesInSquare.markAll_path {n : Nat} {d : Drawing} (h : d.LiesInSquare n)
    {a b : Cell} (ha : d.position = some a) (hb : b.InSquare n) :
    (d.markAll (a.path b)).LiesInSquare n := by
  constructor
  · intro c hc
    rcases Drawing.mem_visited_markAll.1 hc with hc | hc
    · exact (h.position a ha).of_mem_path hb hc
    · exact h.visited c hc
  · intro c hc
    cases (Drawing.position_markAll_path ha b).symm.trans hc
    exact hb

namespace Turtle

/-- If a step can tell where it ends, it ends in the square. -/
def EndsInSquare (n : Nat) (s : Step) (t : Turtle) : Prop :=
  ∀ m ∈ s.units?, ∀ b, t.endpoint m = .ok b → b.InSquare n

instance (n : Nat) (s : Step) (t : Turtle) : Decidable (t.EndsInSquare n s) :=
  match hs : s.units? with
  | none => .isTrue (by simp [EndsInSquare, hs])
  | some m =>
    match he : t.endpoint m with
    | .ok b => decidable_of_iff (b.InSquare n) (by simp [EndsInSquare, hs, he])
    | .error _ => .isTrue (by simp [EndsInSquare, hs, he])

def DrawsInSquare (n : Nat) (t : Turtle) : Prop := t.Sound (Drawing.LiesInSquare n)

variable {n : Nat} {s : Step} {t : Turtle}

theorem drawsInSquare_ofSize (h0 : 0 < n) : (ofSize n).DrawsInSquare n := by
  have hc := Cell.inSquare_centre h0
  apply sound_ofSize
  constructor
  · intro c h
    rwa [(mem_visited_ofSize h0).1 h]
  · intro a h
    cases (position_ofSize h0).symm.trans h
    exact hc

theorem DrawsInSquare.perform (h : t.DrawsInSquare n) (he : t.EndsInSquare n s) :
    (t.perform s).state.DrawsInSquare n :=
  Sound.perform h fun m c a hm hc ha =>
    h.drawing.markAll_path ha (he m hm _ (endpoint_eq_ok.2 ⟨c, a, hc, ha, rfl⟩))

end Turtle

namespace Session

/-- Whatever walk the requests come to ends in the square. -/
def WalksInSquare (n : Nat) : List Request → Session → Prop
  | [], _ => True
  | r :: rs, s =>
    Outcome.Throughout (Turtle.EndsInSquare n) Turtle.perform r.steps s.turtle ∧
      WalksInSquare n rs (s.serve r)

instance decidableWalksInSquare (n : Nat) : ∀ rs s, Decidable (WalksInSquare n rs s)
  | [], _ => .isTrue trivial
  | r :: rs, s =>
    have := decidableWalksInSquare n rs (s.serve r)
    inferInstanceAs (Decidable (_ ∧ _))

variable {size n : Nat} {s : Session} {rs : List Request}

theorem WalksInSquare.drawsInSquare (h : s.WalksInSquare n rs) (hs : s.turtle.DrawsInSquare n) :
    (s.serveAll rs).turtle.DrawsInSquare n := by
  induction rs generalizing s with
  | nil => exact hs
  | cons r rs ih =>
    have hr : (s.serve r).turtle.DrawsInSquare n := by
      rw [turtle_serve]
      exact h.1.keeps (fun _ _ he ht => ht.perform he) hs
    exact ih h.2 hr

/-- A picture marks what lies in the square, which is never nothing, and everything if no walk ends
outside of it. -/
theorem markedCount_serveAll (h0 : 0 < size) (rs : List Request) :
    let d := ((ofSize size).serveAll rs).turtle.drawing
    (∀ g : Glyphs, g.marked ≠ g.unmarked →
      Drawing.markedCount size g (d.render g) =
          d.visited.toList.countP (fun c => c.InSquare size) ∧
        1 ≤ Drawing.markedCount size g (d.render g)) ∧
    ((ofSize size).WalksInSquare size rs →
      (∀ c ∈ d.visited, c.InSquare size) ∧
        ∀ g : Glyphs, g.marked ≠ g.unmarked →
          Drawing.markedCount size g (d.render g) = d.visited.size) := by
  intro d
  have ht := trails_serveAll size rs
  have hsize : d.size = size := ht.drawing.size_eq
  have hcount : ∀ g : Glyphs, g.marked ≠ g.unmarked →
      Drawing.markedCount size g (d.render g) =
        d.visited.toList.countP fun c => c.InSquare size := by
    intro g hg
    rw [← hsize]
    exact d.markedCount_render hg
  refine ⟨fun g hg => ⟨hcount g hg, ?_⟩, fun hw => ?_⟩
  · have hc := (ht.drawing.mem_visited _).2 (List.mem_of_mem_head? (ht.head?_eq_centre h0))
    rw [hcount g hg]
    exact List.countP_pos_iff.2
      ⟨_, Std.HashSet.mem_toList.2 hc, decide_eq_true (Cell.inSquare_centre h0)⟩
  · have hd := (hw.drawsInSquare (Turtle.drawsInSquare_ofSize h0)).drawing.visited
    refine ⟨hd, fun g hg => ?_⟩
    rw [hcount g hg, ← Std.HashSet.length_toList]
    apply List.countP_eq_length.2
    intro c hc
    exact decide_eq_true (hd c (Std.HashSet.mem_toList.1 hc))

/-- A text with a parse error, walks to the border of the square, and a walk that fails for the
heading. -/
theorem markedCount_serveAll_stops :
    let rs : List Request :=
      [.text "FD 2\nRT 135\nREPEAT 2 [ FD 2 RT 90 ]\nXX\nFD 9", .line 7 "LT 20x",
        .command (.step ⟨.back, 4⟩), .line 8 "rt 20 rt", .line 9 "bk -1"]
    let d := ((ofSize 5).serveAll rs).turtle.drawing
    0 < 5 ∧ (ofSize 5).WalksInSquare 5 rs ∧ (∀ c ∈ d.visited, c.InSquare 5) ∧
      1 ≤ Drawing.markedCount 5 ⟨'#', ' '⟩ (d.render ⟨'#', ' '⟩) ∧
      Drawing.markedCount 5 ⟨'#', ' '⟩ (d.render ⟨'#', ' '⟩) = d.visited.size := by
  intro rs d
  have h0 : 0 < 5 := by decide
  have hw : (ofSize 5).WalksInSquare 5 rs := by decide +kernel
  have hg : (⟨'#', ' '⟩ : Glyphs).marked ≠ (⟨'#', ' '⟩ : Glyphs).unmarked := by decide
  obtain ⟨hcount, hall⟩ := markedCount_serveAll h0 rs
  obtain ⟨hd, hsize⟩ := hall hw
  exact ⟨h0, hw, hd, (hcount _ hg).2, hsize _ hg⟩

end Session

end TurtleGrid

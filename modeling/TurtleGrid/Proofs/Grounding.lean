import TurtleGrid.Proofs.Steps
import TurtleGrid.Proofs.Unrolling

namespace TurtleGrid

/-- The turtle stands on a marked cell of 64 bits. -/
def Turtle.Grounded (t : Turtle) : Prop :=
  t.Sound fun d => ∃ a ∈ d.visited, d.position = some a ∧ Fits a.x ∧ Fits a.y

namespace Turtle

variable {s : Step} {t u : Turtle}

theorem keeps_grounded (s : Step) : Outcome.Keeps Grounded (Turtle.perform s) := by
  apply keeps_sound
  rintro d a c n ha ⟨b, hb, hp, -⟩
  cases ha.symm.trans hp
  refine ⟨a.reach c n, ?_, Drawing.position_markAll_path ha _, Cell.fits_reach a c n⟩
  rw [Drawing.mem_visited_markAll]
  rcases Cell.eq_or_mem_path a (a.reach c n) with he | hm
  · rw [he]
    exact .inr hb
  · exact .inl hm

theorem Grounded.perform (h : t.Grounded) (hu : t.perform s = .done u) : u.Grounded := by
  have hk := keeps_grounded s t h
  rwa [hu] at hk

theorem keeps_visited (c : Cell) (s : Step) :
    Outcome.Keeps (Sound fun d => c ∈ d.visited) (Turtle.perform s) :=
  keeps_sound (fun _ _ _ _ _ hc => Drawing.mem_visited_markAll.2 (.inr hc)) s

theorem position_ofSize {size : Nat} (h : 0 < size) :
    (ofSize size).drawing.position = some ⟨(size / 2 : Nat), (size / 2 : Nat)⟩ := by
  rw [ofSize, Drawing.ofSize, Drawing.position_markAll, Drawing.centre?,
    if_neg (Nat.ne_of_gt h)]
  rfl

theorem mem_visited_ofSize {size : Nat} (h : 0 < size) {c : Cell} :
    c ∈ (ofSize size).drawing.visited ↔ c = ⟨(size / 2 : Nat), (size / 2 : Nat)⟩ := by
  have he : c ∉ (Drawing.blank size).visited := Std.HashSet.not_mem_empty
  rw [ofSize, Drawing.ofSize, Drawing.mem_visited_markAll, Drawing.centre?,
    if_neg (Nat.ne_of_gt h), Option.toList_some, List.mem_singleton, or_iff_left he]

theorem grounded_ofSize {size : Nat} (h0 : 0 < size) (h64 : size < 2 ^ 64) :
    (ofSize size).Grounded := by
  have hc : Fits (size / 2 : Nat) := by
    rw [Fits]
    omega
  exact sound_ofSize ⟨_, (mem_visited_ofSize h0).2 rfl, position_ofSize h0, hc, hc⟩

end Turtle

namespace Session

/-- What the steps of turtles keep is kept by sessions. -/
theorem invariant_turtle {P : Turtle → Prop} (h : ∀ t, Outcome.Keeps P (Turtle.perform t)) :
    Invariant fun s => P s.turtle where
  perform t s hs := by
    have ht := h t s.turtle hs
    rwa [← mapState_turtle_perform, Outcome.state_mapState] at ht
  enter count body s hs := hs
  heed number remarks s hs := by rwa [turtle_heed]

theorem Reachable.grounded {size : Nat} (h0 : 0 < size) (h64 : size < 2 ^ 64) {s : Session}
    (hs : s.Reachable size) : s.turtle.Grounded :=
  (invariant_turtle Turtle.keeps_grounded).of_reachable (Turtle.grounded_ofSize h0 h64) hs

end Session

end TurtleGrid

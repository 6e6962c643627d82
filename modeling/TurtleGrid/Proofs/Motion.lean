import TurtleGrid.Turtle
import TurtleGrid.Proofs.Runs

namespace TurtleGrid

namespace Drawing

@[simp] theorem size_markAll (d : Drawing) (cs : List Cell) : (d.markAll cs).size = d.size := by
  induction cs generalizing d with
  | nil => rfl
  | cons c cs ih => rw [markAll_cons, ih, size_mark]

@[simp] theorem position_markAll (d : Drawing) (cs : List Cell) :
    (d.markAll cs).position = cs.getLast?.or d.position := by
  induction cs generalizing d with
  | nil => rfl
  | cons c cs ih =>
    rw [markAll_cons, ih, position_mark, List.getLast?_cons]
    cases cs.getLast? <;> rfl

@[simp] theorem mem_visited_markAll {d : Drawing} {cs : List Cell} {a : Cell} :
    a ∈ (d.markAll cs).visited ↔ a ∈ cs ∨ a ∈ d.visited := by
  induction cs generalizing d with
  | nil => simp only [markAll_nil, List.not_mem_nil, false_or]
  | cons c cs ih =>
    rw [markAll_cons, ih, mem_visited_mark, List.mem_cons, or_left_comm, or_assoc]

theorem nodup_toList_visited (d : Drawing) : d.visited.toList.Nodup :=
  d.visited.distinct_toList.imp fun h => ne_of_beq_false h

end Drawing

namespace Turtle

theorem bearing_eq_ok {h : Int} {c : Compass} :
    bearing h = .ok c ↔ Compass.ofHeading? h = some c := by
  unfold bearing
  cases Compass.ofHeading? h <;> simp

theorem position_eq_ok {t : Turtle} {a : Cell} :
    t.position = .ok a ↔ t.drawing.position = some a := by
  unfold position
  cases t.drawing.position <;> simp

theorem endpoint_eq_ok {t : Turtle} {n : Int64} {b : Cell} :
    t.endpoint n = .ok b ↔ ∃ c a, Compass.ofHeading? t.heading = some c ∧
      t.drawing.position = some a ∧ a.reach c n = b := by
  simp only [endpoint, bind_eq_ok, bearing_eq_ok, position_eq_ok, pure_eq_ok, exists_and_left]

theorem route_eq_ok {t : Turtle} {n : Int64} {cs : List Cell} :
    t.route n = .ok cs ↔ ∃ c a, Compass.ofHeading? t.heading = some c ∧
      t.drawing.position = some a ∧ a.path (a.reach c n) = cs := by
  simp only [route, bind_eq_ok, endpoint_eq_ok, position_eq_ok, pure_eq_ok]
  constructor
  · rintro ⟨b, ⟨c, a, hc, ha, rfl⟩, a', ha', rfl⟩
    cases ha.symm.trans ha'
    exact ⟨c, a, hc, ha, rfl⟩
  · rintro ⟨c, a, hc, ha, rfl⟩
    exact ⟨_, ⟨c, a, hc, ha, rfl⟩, a, ha, rfl⟩

theorem motion_cases {t : Turtle} {s : Step} {m : Motion} (h : t.motion s = .ok m) :
    (∃ degrees, m = .turn degrees) ∨
      ∃ n cs, t.route n = .ok cs ∧ m = .walk cs := by
  obtain ⟨verb, amount⟩ := s
  cases verb with
  | move =>
    obtain ⟨cs, hcs, rfl⟩ := map_eq_ok.1 h
    exact .inr ⟨_, cs, hcs, rfl⟩
  | back =>
    obtain ⟨cs, hcs, rfl⟩ := map_eq_ok.1 h
    exact .inr ⟨_, cs, hcs, rfl⟩
  | right => cases h; exact .inl ⟨_, rfl⟩
  | left => cases h; exact .inl ⟨_, rfl⟩

def perform (s : Step) (t : Turtle) : Outcome Fault Turtle :=
  match t.motion s with
  | .ok m => .done (t.follow m)
  | .error f => .stopped f t

theorem perform_of_ok {t : Turtle} {s : Step} {m : Motion} (h : t.motion s = .ok m) :
    t.perform s = .done (t.follow m) := by
  simp only [perform, h]

theorem perform_of_error {t : Turtle} {s : Step} {f : Fault} (h : t.motion s = .error f) :
    t.perform s = .stopped f t := by
  simp only [perform, h]

theorem eq_of_perform_eq_stopped {t u : Turtle} {s : Step} {f : Fault}
    (h : t.perform s = .stopped f u) : u = t := by
  cases hm : t.motion s with
  | ok m => rw [perform_of_ok hm] at h; cases h
  | error g => rw [perform_of_error hm] at h; cases h; rfl

/-- The heading is a proper angle, and the drawing has the property `P`. -/
structure Sound (P : Drawing → Prop) (t : Turtle) : Prop where
  heading_nonneg : 0 ≤ t.heading
  heading_lt : t.heading < 360
  drawing : P t.drawing

variable {P Q : Drawing → Prop}

theorem sound_ofSize {size : Nat} (h : P (.ofSize size)) : (ofSize size).Sound P :=
  ⟨Int.le_refl 0, (by decide : (0 : Int) < 360), h⟩

theorem sound_turn {t : Turtle} (h : P t.drawing) (degrees : Int) : (t.turn degrees).Sound P :=
  ⟨Int.emod_nonneg _ (by decide), Int.emod_lt_of_pos _ (by decide), h⟩

def ProperlyHeaded (t : Turtle) : Prop := t.Sound fun _ => True

theorem properlyHeaded_turn (t : Turtle) (degrees : Int) : (t.turn degrees).ProperlyHeaded :=
  sound_turn trivial degrees

theorem Sound.walk {t : Turtle} {cells : List Cell} (h : t.Sound P)
    (hq : Q (t.drawing.markAll cells)) : (t.walk cells).Sound Q :=
  ⟨h.heading_nonneg, h.heading_lt, hq⟩

end Turtle

end TurtleGrid

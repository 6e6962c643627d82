import TurtleGrid.Command
import TurtleGrid.Outcome

namespace TurtleGrid.Command

variable {ε σ : Type}

mutual

/-- Carries a command out on any kind of state, given how a step is made and how a loop begins. -/
def run (perform : Step → σ → Outcome ε σ) (enter : Int64 → List Command → σ → σ) :
    Command → σ → Outcome ε σ
  | step t, s => perform t s
  | loop count body, s =>
    Outcome.times (runAll perform enter body) count.toNatClampNeg (enter count body s)

def runAll (perform : Step → σ → Outcome ε σ) (enter : Int64 → List Command → σ → σ) :
    List Command → σ → Outcome ε σ
  | [], s => .done s
  | c :: cs, s => (c.run perform enter s).andThen (runAll perform enter cs)

end

end TurtleGrid.Command

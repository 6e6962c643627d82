import TurtleGrid.Proofs.ReadingPass

namespace TurtleGrid

namespace Grammar

end Grammar

end TurtleGrid

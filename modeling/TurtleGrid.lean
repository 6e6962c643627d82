import TurtleGrid.Blank
import TurtleGrid.Numeral
import TurtleGrid.Leniency
import TurtleGrid.Command
import TurtleGrid.Span
import TurtleGrid.Token
import TurtleGrid.Line
import TurtleGrid.Reading
import TurtleGrid.Compass
import TurtleGrid.Cell
import TurtleGrid.Drawing
import TurtleGrid.Turtle
import TurtleGrid.Outcome
import TurtleGrid.Execution
import TurtleGrid.LineError
import TurtleGrid.Journal
import TurtleGrid.TextLines
import TurtleGrid.Session
import TurtleGrid.CommandLine.Options
import TurtleGrid.CommandLine.Failure
import TurtleGrid.CommandLine.TerminalText
import TurtleGrid.CommandLine.Program
import TurtleGrid.Main
import TurtleGrid.Proofs.Runs
import TurtleGrid.Proofs.Unrolling
import TurtleGrid.Proofs.KingMove
import TurtleGrid.Proofs.Requests
import TurtleGrid.Proofs.Trail
import TurtleGrid.Proofs.Acceptance
import TurtleGrid.Proofs.Grammar
import TurtleGrid.Proofs.Fields
import TurtleGrid.Proofs.Spacing
import TurtleGrid.Proofs.Viability
import TurtleGrid.Proofs.Numerals
import TurtleGrid.Proofs.Decimals
import TurtleGrid.Proofs.Words
import TurtleGrid.Proofs.Spelling
import TurtleGrid.Proofs.Joining
import TurtleGrid.Proofs.Listing
import TurtleGrid.Proofs.Lockstep
import TurtleGrid.Proofs.StraightWalk
import TurtleGrid.Proofs.Steps
import TurtleGrid.Proofs.Clipping
import TurtleGrid.Proofs.Headings
import TurtleGrid.Proofs.Grounding
import TurtleGrid.Proofs.Undo
import TurtleGrid.Proofs.ClosedFigures
import TurtleGrid.Proofs.Symmetry
import TurtleGrid.Proofs.MirrorImages
import TurtleGrid.Proofs.SizeIndependence
import TurtleGrid.Proofs.Warnings
import TurtleGrid.Proofs.Picture
import TurtleGrid.Proofs.Enclosure
import TurtleGrid.Proofs.LineRuns
import TurtleGrid.Proofs.Faults
import TurtleGrid.Proofs.Eighths
import TurtleGrid.Proofs.SteppedWalk
import TurtleGrid.Proofs.Encoding
import TurtleGrid.Proofs.InputLines
import TurtleGrid.Proofs.KeepGoing
import TurtleGrid.Proofs.ProgramRuns
import TurtleGrid.Proofs.Noninterference
import TurtleGrid.Proofs.Covering
import TurtleGrid.Proofs.LineResults
import TurtleGrid.Proofs.LineLeniency
import TurtleGrid.Proofs.WalkBounds
import TurtleGrid.Proofs.Rotation
import TurtleGrid.Proofs.Destinations
import TurtleGrid.Proofs.SplitWalks
import TurtleGrid.Proofs.HalfTurns
import TurtleGrid.Proofs.Layout
import TurtleGrid.Proofs.OperationCounts
import TurtleGrid.Proofs.LeadingIntegers

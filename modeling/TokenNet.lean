import TokenNet.FileTree
import TokenNet.Main
import TokenNet.Proofs.Blueprint.Rearranged
import TokenNet.Proofs.Blueprint.Sound
import TokenNet.Proofs.Blueprint.Without
import TokenNet.Proofs.Matrix.AddersBuild
import TokenNet.Proofs.Matrix.BitsRun
import TokenNet.Proofs.Network.Cells
import TokenNet.Proofs.Network.Classes
import TokenNet.Proofs.Network.Eager
import TokenNet.Proofs.Network.Handles
import TokenNet.Proofs.Chart.Library
import TokenNet.Proofs.Network.Multiplication
import TokenNet.Proofs.Network.Selection
import TokenNet.Proofs.Network.Subtraction
import TokenNet.Proofs.Network.Tracing
import TokenNet.Proofs.Run.Enclosed
import TokenNet.Trial
import TokenNet.Proofs.Run.Frame
import TokenNet.Proofs.Change.Placed
import TokenNet.Proofs.Network.Arity
import TokenNet.Proofs.Network.Ownership
import TokenNet.Proofs.Change.Encapsulated
import TokenNet.Proofs.Run.Conveys
import TokenNet.Proofs.Network.Encapsulation
import TokenNet.Proofs.Run.Attempts
import TokenNet.Proofs.Run.Bit
import TokenNet.Proofs.Network.Memory
import TokenNet.Proofs.Network.CallLimit
import TokenNet.Proofs.Flow.Draws
import TokenNet.Proofs.Network.Binary
import TokenNet.Proofs.Flow.Sweep
import TokenNet.Proofs.Change.Relays
import TokenNet.Proofs.Network.Outward
import TokenNet.Proofs.Run.Moments
import TokenNet.Proofs.Network.ChainLimit
import TokenNet.Proofs.Blueprint.Nesting
import TokenNet.Proofs.Chart.History
import TokenNet.Proofs.Network.Iteration
import TokenNet.Proofs.Change.Inside
import TokenNet.Proofs.Change.Stems
import TokenNet.Proofs.Change.Writes
import TokenNet.Proofs.Network.Shifts
import TokenNet.Proofs.Network.ZeroTest
import TokenNet.Proofs.Matrix.Isolation
import TokenNet.Proofs.Store.Requests
import TokenNet.Proofs.Change.Keys
import TokenNet.Proofs.Network.Keys
import TokenNet.Proofs.Run.Recording
import TokenNet.Proofs.Network.Ledger
import TokenNet.Proofs.Network.Paths
import TokenNet.Proofs.Refusals
import TokenNet.Proofs.Matrix.Written
import TokenNet.Proofs.Blueprint.Phases
import TokenNet.Proofs.Matrix.Positions

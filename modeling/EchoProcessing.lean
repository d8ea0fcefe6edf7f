import EchoProcessing.Library.Machine
import EchoProcessing.Library.KeyedTable
import EchoProcessing.Library.SkipIfExists
import EchoProcessing.Geo.GridCoverage
import EchoProcessing.Geo.TileExtent
import EchoProcessing.Image.Rendering
import EchoProcessing.Image.WarpWindow
import EchoProcessing.Image.Naming
import EchoProcessing.Tracking.Cap
import EchoProcessing.Tracking.Velocity
import EchoProcessing.Tracking.Lag
import EchoProcessing.Orchestrator.MergeCount
import EchoProcessing.Orchestrator.Resume
import EchoProcessing.Orchestrator.LostMerge
import EchoProcessing.Orchestrator.LostUpdate
import EchoProcessing.Orchestrator.DuplicateRows
import EchoProcessing.Orchestrator.Serial
import EchoProcessing.Orchestrator.References
import EchoProcessing.Orchestrator.Totals
import EchoProcessing.Orchestrator.Leftovers
import EchoProcessing.Platform.RoundTrip
import EchoProcessing.Platform.Isolation
import EchoProcessing.Tracking.QueueOrder
import EchoProcessing.Tracking.Redelivery
import EchoProcessing.Controller.Acceptance
import EchoProcessing.Platform.Reports
import EchoProcessing.Platform.Origins
import EchoProcessing.Platform.Completion
import EchoProcessing.Platform.Recovery
import EchoProcessing.Orchestrator.Races

import RmDisplay.Cli.FitGeometry
import RmDisplay.Cli.RawStream
import RmDisplay.Core.CleanRefreshes
import RmDisplay.Core.CleanupReports
import RmDisplay.Core.ClearedInk
import RmDisplay.Core.CompositionPaths
import RmDisplay.Core.FrameAppliers
import RmDisplay.Core.Frames
import RmDisplay.Core.IdleCleanup
import RmDisplay.Core.InkKept
import RmDisplay.Core.InkStrokes
import RmDisplay.Core.Lineage
import RmDisplay.Core.LocalBase
import RmDisplay.Core.MergedDamage
import RmDisplay.Core.OverlayShown
import RmDisplay.Core.PartialUpdates
import RmDisplay.Core.PlaneCells
import RmDisplay.Core.Recovery
import RmDisplay.Core.Rendering
import RmDisplay.Core.SettleDebt
import RmDisplay.Core.Submissions
import RmDisplay.Core.Terminals
import RmDisplay.Core.TileDamage
import RmDisplay.Core.ZeroDamage
import RmDisplay.Foundation.Channels
import RmDisplay.Foundation.Emission
import RmDisplay.Foundation.Grid
import RmDisplay.Foundation.Handover
import RmDisplay.Foundation.Ledger
import RmDisplay.Foundation.Merging
import RmDisplay.Foundation.Ordering
import RmDisplay.Foundation.Picture
import RmDisplay.Foundation.Program
import RmDisplay.Foundation.Reader
import RmDisplay.Foundation.Run
import RmDisplay.Foundation.Triples
import RmDisplay.Link.BaseAgreement
import RmDisplay.Link.Dialogue
import RmDisplay.Link.FlowControl
import RmDisplay.Link.FrameAgreement
import RmDisplay.Producer.ClientBases
import RmDisplay.Producer.ClientCredits
import RmDisplay.Producer.ClientMoves
import RmDisplay.Producer.ClientReports
import RmDisplay.Producer.DecodedRegions
import RmDisplay.Producer.DeltaRoundTrip
import RmDisplay.Producer.Handshake
import RmDisplay.Producer.MessageOrder
import RmDisplay.Protocol.Wire
import RmDisplay.Protocol.WireStreams
import RmDisplay.Receiver.CaptureRuns
import RmDisplay.Receiver.CleanupPending
import RmDisplay.Receiver.ClusterDamage
import RmDisplay.Receiver.Connection
import RmDisplay.Receiver.ConnectionBuffer
import RmDisplay.Receiver.ConnectionRuns
import RmDisplay.Receiver.ContactSeries
import RmDisplay.Receiver.CreditRefusals
import RmDisplay.Receiver.CustomProfileRuns
import RmDisplay.Receiver.FrameBase
import RmDisplay.Receiver.FrameIds
import RmDisplay.Receiver.FrameOutcomes
import RmDisplay.Receiver.FrameResults
import RmDisplay.Receiver.FrameSteps
import RmDisplay.Receiver.FrozenBackground
import RmDisplay.Receiver.Handle
import RmDisplay.Receiver.InkBoundaries
import RmDisplay.Receiver.InkClearing
import RmDisplay.Receiver.InkOperations
import RmDisplay.Receiver.InputCapture
import RmDisplay.Receiver.MenuLayout
import RmDisplay.Receiver.NativePixels
import RmDisplay.Receiver.OverlayUpdates
import RmDisplay.Receiver.Pairing
import RmDisplay.Receiver.PartialDebt
import RmDisplay.Receiver.PenStrokes
import RmDisplay.Receiver.QuillPanel
import RmDisplay.Receiver.ResultOrder
import RmDisplay.Receiver.ServerIdentity
import RmDisplay.Receiver.Terms
import RmDisplay.Receiver.TouchContacts
import RmDisplay.Receiver.TouchMachine
import RmDisplay.Receiver.TouchRange
import RmDisplay.Receiver.TouchRecords
import RmDisplay.Receiver.TouchRedundancy
import RmDisplay.Receiver.TouchRuns
import RmDisplay.Receiver.WrittenPixels

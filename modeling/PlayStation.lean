import PlayStation.Main
import PlayStation.Processor.Report
import PlayStation.Proofs.Processor.LoadDelay
import PlayStation.Proofs.Processor.BranchDelay
import PlayStation.Proofs.Processor.PreciseException
import PlayStation.Proofs.Processor.CacheTransparency
import PlayStation.Proofs.Processor.IsolatedStore
import PlayStation.Proofs.Graphics.Framing
import PlayStation.Proofs.Graphics.Quiescence
import PlayStation.Proofs.Graphics.RoundTrip
import PlayStation.Proofs.Graphics.PortsCommute
import PlayStation.Proofs.Graphics.Clipping
import PlayStation.Proofs.Machine.Reset
import PlayStation.Proofs.Machine.ByteMemory
import PlayStation.Proofs.Processor.ControlIntegrity
import PlayStation.Proofs.Processor.InterruptNesting
import PlayStation.Proofs.Graphics.QueryAnswers
import PlayStation.Proofs.Graphics.CornerOrder
import PlayStation.Proofs.Graphics.ImmediateWords
import PlayStation.Proofs.Graphics.MaskBit
import PlayStation.Proofs.Graphics.Stalled
import PlayStation.Proofs.Graphics.TransparentTexture
import PlayStation.Proofs.Processor.UnalignedPairs
import PlayStation.Proofs.Graphics.OneColor
import PlayStation.Proofs.Processor.CacheHistory
import PlayStation.Proofs.Processor.IntegerArithmetic
import PlayStation.Proofs.Processor.LatchDiscipline
import PlayStation.Proofs.Graphics.UnhandledCommands
import PlayStation.Proofs.Machine.Policies
import PlayStation.Proofs.Graphics.BoundedQueue
import PlayStation.Proofs.Graphics.RectangleWrite
import PlayStation.Proofs.CommandLine.Dump
import PlayStation.Proofs.Machine.ProgramLoading
import PlayStation.Proofs.Machine.Batches
import PlayStation.Proofs.CommandLine.AddressGrammar
import PlayStation.Proofs.Graphics.TransferCursors
import PlayStation.Proofs.Settings.RoundTrip

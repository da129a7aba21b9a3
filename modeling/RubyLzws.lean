import RubyLzws.Ext.Codec
import RubyLzws.Ext.Environment
import RubyLzws.Ext.Error
import RubyLzws.Ext.Interrupts
import RubyLzws.Ext.Io
import RubyLzws.Ext.KeptLock
import RubyLzws.Ext.Option
import RubyLzws.Ext.Platform
import RubyLzws.Ext.Process
import RubyLzws.Ext.ProcessMemory
import RubyLzws.Ext.ProcessRuns
import RubyLzws.Ext.StoredCodec
import RubyLzws.Ext.Stream
import RubyLzws.Ext.Stream.Compressor
import RubyLzws.Ext.Stream.Decompressor
import RubyLzws.Ext.StreamChannel
import RubyLzws.Ext.StreamContents
import RubyLzws.Ext.StreamDriver
import RubyLzws.Ext.StreamLife
import RubyLzws.Ext.StreamSession
import RubyLzws.Ext.String
import RubyLzws.Ext.StringCalls
import RubyLzws.Ext.StringLoop
import RubyLzws.Ext.StringMemory
import RubyLzws.Ext.StringOutcome
import RubyLzws.Ext.StringResult
import RubyLzws.Ext.StringRoom
import RubyLzws.Ext.StringTrace
import RubyLzws.Ext.StringUnits
import RubyLzws.Ext.Threads
import RubyLzws.Ext.Value
import RubyLzws.Lib.Option
import RubyLzws.Lib.Resolution
import RubyLzws.Library.Arena
import RubyLzws.Library.Interleaving
import RubyLzws.Library.Loop
import RubyLzws.Library.OutputUnits
import RubyLzws.Library.StdioFile
import RubyLzws.Library.Transducer
import RubyLzws.Library.UnitMachine
import RubyLzws.Results.DestinationStall
import RubyLzws.Results.FileDelivery
import RubyLzws.Results.Interchange
import RubyLzws.Results.LockOption
import RubyLzws.Results.LoopBounds
import RubyLzws.Results.OptionResolution
import RubyLzws.Results.OptionValidation
import RubyLzws.Results.RoundTrip
import RubyLzws.Results.SharedDestination
import RubyLzws.Results.StateRelease
import RubyLzws.Results.StreamAgreement
import RubyLzws.Results.StreamConservation
import RubyLzws.Results.StreamLeak
import RubyLzws.Results.StreamRefinement
import RubyLzws.Results.StreamSafety
import RubyLzws.Results.StringCost
import RubyLzws.Results.StringOutput
import RubyLzws.Results.StringTotal
import RubyLzws.Results.ThreadSafety
import RubyLzws.Results.TruncatedSource
import RubyLzws.Results.WindowSafety

import Ckarta.MachineWord
import Ckarta.PrefixMachine
import Ckarta.HttpParser
import Ckarta.FieldLists
import Ckarta.HeaderBlock
import Ckarta.HeaderFraming
import Ckarta.HeaderRejection
import Ckarta.HttpChunked
import Ckarta.ChunkedMachine
import Ckarta.ChunkedRejection
import Ckarta.RejectedSlice
import Ckarta.HttpInput
import Ckarta.InputMachine
import Ckarta.InputStream
import Ckarta.RequestBody
import Ckarta.RequestBodyQueue
import Ckarta.ConnectionReader
import Ckarta.ReaderSteps
import Ckarta.ReaderTurns
import Ckarta.ReaderRuns
import Ckarta.ReaderProgress
import Ckarta.FeedVerdict
import Ckarta.ReaderExits
import Ckarta.ReaderRetry
import Ckarta.ReaderReplay
import Ckarta.ReaderRejection
import Ckarta.NativeRequest
import Ckarta.Connection
import Ckarta.AsyncContext
import Ckarta.StepHistory
import Ckarta.RequestBodyFifo
import Ckarta.ConnectionRegistry
import Ckarta.RegistryCalls
import Ckarta.RegistrySlots
import Ckarta.RegistryMap
import Ckarta.ConnectionSystem
import Ckarta.RegistryPins
import Ckarta.ConnectionLifecycle
import Ckarta.Termination
import Ckarta.RingBuffer
import Ckarta.CompletionQueue
import Ckarta.CompletionWakeup
import Ckarta.RequestOutcome
import Ckarta.RequestFates
import Ckarta.ThreadStacks
import Ckarta.ServletInputStream
import Ckarta.ReadListenerCallbacks
import Ckarta.LastDataCallback
import Ckarta.ReadinessNotification
import Ckarta.HttpResponse
import Ckarta.ChunkedGrammar
import Ckarta.ChunkedAcceptance
import Ckarta.HeaderGrammar
import Ckarta.HeaderOctets
import Ckarta.AsyncListeners
import Ckarta.CompletedDrive
import Ckarta.ReaderQueue
import Ckarta.BufferLimit
import Ckarta.ReaderIdle
import Ckarta.BodyFailure
import Ckarta.OutputWriter
import Ckarta.ConnectionRecycle
import Ckarta.OutputHistory
import Ckarta.LengthNumerals
import Ckarta.ChunkedBounds
import Ckarta.ReaderRange
import Ckarta.RequestAdapter
import Ckarta.NativeHandles
import Ckarta.Config
import Ckarta.ConfigTokens
import Ckarta.ConfigLoad
import Ckarta.ConfigLines
import Ckarta.ConfigDump
import Ckarta.ConfigGrammar
import Ckarta.ConfigFiles
import Ckarta.RuntimeLifecycle
import Ckarta.RuntimeProtocol
import Ckarta.RuntimeCalls
import Ckarta.RuntimeTask
import Ckarta.DispatchPipeline
import Ckarta.DispatchWorker
import Ckarta.BlockLedger
import Ckarta.ConnectionHeap
import Ckarta.RegistryTeardown
import Ckarta.CycleIds
import Ckarta.MainProgram
import Ckarta.EventLoop

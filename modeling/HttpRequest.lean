import HttpRequest.Foundations.Delimiters
import HttpRequest.Foundations.Decomposition
import HttpRequest.Foundations.Base64
import HttpRequest.Foundations.Machine
import HttpRequest.Foundations.Program
import HttpRequest.Foundations.Monitor
import HttpRequest.Foundations.Refinement
import HttpRequest.Foundations.Ledger
import HttpRequest.Foundations.Once
import HttpRequest.Foundations.Growth
import HttpRequest.Foundations.Retry
import HttpRequest.Foundations.Rounding
import HttpRequest.Foundations.Segments
import HttpRequest.Model.Bytes
import HttpRequest.Numerals
import HttpRequest.Model.Utility
import HttpRequest.Splitting
import HttpRequest.Model.Data
import HttpRequest.Model.Types
import HttpRequest.Model.Url
import HttpRequest.Model.Encode
import HttpRequest.Model.ResponseHead
import HttpRequest.Model.Request
import HttpRequest.Model.Rules
import HttpRequest.Model.DataOps
import HttpRequest.Model.Sockets
import HttpRequest.Model.SocketOps
import HttpRequest.Model.Stack
import HttpRequest.Model.Words
import HttpRequest.GrowCapacity
import HttpRequest.DataInvariant
import HttpRequest.DataRefinement
import HttpRequest.DataSlices
import HttpRequest.DataGrowth
import HttpRequest.UrlComposition
import HttpRequest.Base64
import HttpRequest.Base64Overflow
import HttpRequest.HeadLines
import HttpRequest.Messages.Lines
import HttpRequest.Messages.HeadDecoding
import HttpRequest.Messages.FieldSpacing
import HttpRequest.Messages.EncodedFields
import HttpRequest.Messages.RequestFraming
import HttpRequest.Messages.ControlFields
import HttpRequest.Messages.UrlLines
import HttpRequest.Receiver.Phases
import HttpRequest.Receiver.ChunkAccount
import HttpRequest.Receiver.SizeLines
import HttpRequest.Receiver.Transcript
import HttpRequest.Receiver.Pieces
import HttpRequest.Receiver.HandOver
import HttpRequest.Receiver.Completion
import HttpRequest.Receiver.Endings
import HttpRequest.Receiver.Faults
import HttpRequest.Receiver.FramingNumbers
import HttpRequest.Receiver.LetterCase
import HttpRequest.Receiver.Chunks
import HttpRequest.Receiver.WholeBody
import HttpRequest.Receiver.Refusals
import HttpRequest.Exchange
import HttpRequest.Redirects.Chain
import HttpRequest.Messages.Authority
import HttpRequest.Redirects.Limit
import HttpRequest.Redirects.Headers
import HttpRequest.Redirects.Delivery
import HttpRequest.Lifecycle.Stages
import HttpRequest.Lifecycle.Points
import HttpRequest.Lifecycle.SocketUse
import HttpRequest.Lifecycle.WindingDown
import HttpRequest.Lifecycle.Release
import HttpRequest.Lifecycle.Silence
import HttpRequest.Lifecycle.Deadline
import HttpRequest.Lifecycle.RemainingTime
import HttpRequest.Sockets.Descriptors
import HttpRequest.Sockets.Connecting
import HttpRequest.Sockets.Waits
import HttpRequest.Sockets.Retrying
import HttpRequest.Sockets.FinalOutcomes
import HttpRequest.Sockets.WouldBlock
import HttpRequest.Sockets.SharedContext
import HttpRequest.Messages.Transmission
import HttpRequest.Messages.Outgoing
import HttpRequest.Stack.Methods
import HttpRequest.Stack.Plug
import HttpRequest.Stack.Traversal
import HttpRequest.Stack.Exchanges
import HttpRequest.Stack.Descriptors
import HttpRequest.Stack.Transport
import HttpRequest.Stack.Diagnosis

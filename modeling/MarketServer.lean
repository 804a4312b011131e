import MarketServer.Library.OrderedSet
import MarketServer.Library.OrderedMap
import MarketServer.Library.Transition
import MarketServer.Library.Replica
import MarketServer.Library.Session
import MarketServer.Library.Numeral
import MarketServer.Library.Wrapping
import MarketServer.Library.Grid
import MarketServer.Library.Rounding
import MarketServer.Library.BoundedLoop
import MarketServer.Library.Stream
import MarketServer.Library.Digest
import MarketServer.Json
import MarketServer.DataStruct
import MarketServer.Encoding
import MarketServer.Pipeline
import MarketServer.Log
import MarketServer.Outcome
import MarketServer.Invariants
import MarketServer.Progress
import MarketServer.Exact
import MarketServer.Delivery
import MarketServer.Refinement
import MarketServer.Announcements
import MarketServer.Requests
import MarketServer.ClientView
import MarketServer.DepthCache
import MarketServer.PackageId
import MarketServer.Failures
import MarketServer.Interleaving
import MarketServer.LevelBounds
import MarketServer.SymbolUpdates
import MarketServer.Decimal
import MarketServer.DecimalDouble
import MarketServer.DecimalOrder
import MarketServer.DecimalArithmetic
import MarketServer.DecimalText
import MarketServer.DecimalRounding
import MarketServer.DecimalLiteral
import MarketServer.DecimalParsing
import MarketServer.DecimalAccuracy
import MarketServer.DepthMessages
import MarketServer.SymbolLists
import MarketServer.Config
import MarketServer.ConfigFailures
import MarketServer.Utf8
import MarketServer.WebSocketProtocol
import MarketServer.FrameReader
import MarketServer.ChunkedReading
import MarketServer.ReceivedEvents
import MarketServer.FrameRoundTrip
import MarketServer.AsyncSocket
import MarketServer.LoopAccounts
import MarketServer.WebSocketServer
import MarketServer.ServerSessions
import MarketServer.ServerStreams
import MarketServer.ServerClients
import MarketServer.StuckCork
import MarketServer.PromptKernel
import MarketServer.Wired
import MarketServer.WiredStreams
import MarketServer.WebSocketHandshake
import MarketServer.HttpParser
import MarketServer.HttpContext
import MarketServer.App
import MarketServer.ClientRequest

import MarketServer.LoopAccounts
import MarketServer.Library.OrderedSet

/-! The WebSocket server of `WBServer` on the loop of its thread: upgrades, data, room to
write, ends of connections and broadcasts, in any order. Broadcasts come from another
thread, which nothing in the source holds back; the runs here are those in which none
overlaps an opening or another handler of the loop. -/
namespace MarketServer.UWS
open Library

/-- The handlers of `WBServer` that were called. -/
inductive Callback where
  | open
  | message (opCode : OpCode) (data : Bytes)
  | ping
  | pong
  | close
  deriving DecidableEq

/-- What a socket has beside its buffer once it is a WebSocket. `isShutDown` is set when
the end of the stream was sent. -/
structure Connection where
  opened : Bool
  reader : WebSocketData
  isShuttingDown : Bool
  isShutDown : Bool

structure Server (ι : Type) [LinearOrder ι] where
  loop : Loop ι
  connections : ι → Connection
  wssConSet : OrderedSet ι
  log : List (ι × Callback)

variable {ι : Type} [LinearOrder ι]

namespace Server

/-- Before the first socket. Memory is as it is. -/
def initial (mask : ι → Mask) : Server ι where
  loop := ⟨none, [], fun _ => ⟨[], [], false⟩, 0⟩
  connections socket := ⟨false, .initial (mask socket), false, false⟩
  wssConSet := ∅
  log := []

def call (socket : ι) (callback : Callback) (server : Server ι) : Server ι :=
  { server with log := server.log ++ [(socket, callback)] }

/-- The calls for one socket, oldest first. -/
def calls (socket : ι) (server : Server ι) : List Callback :=
  server.log.filterMap fun call => if call.1 = socket then some call.2 else none

def setConnection (socket : ι) (change : Connection → Connection) (server : Server ι) :
    Server ι :=
  { server with
    connections := Function.update server.connections socket (change (server.connections socket)) }

def setLoop (change : Loop ι → Loop ι) (server : Server ι) : Server ι :=
  { server with loop := change server.loop }

end Server

namespace WBServer

/-- `on_close` -/
def onClose (socket : ι) (server : Server ι) : Server ι :=
  let server := server.call socket .close
  if socket ∈ server.wssConSet then { server with wssConSet := server.wssConSet.erase socket }
  else server

end WBServer

section

-- the kernel, and the behavior of the server
variable (accepts : Nat → Nat) (maxPayloadLength maxBackpressure : Nat)

namespace WebSocket

def send (socket : ι) (message : Bytes) (opCode : OpCode) (server : Server ι) :
    Bool × Server ι :=
  let (ok, loop) := UWS.send accepts maxBackpressure socket message opCode server.loop
  (ok, { server with loop })

def shutdown (socket : ι) (server : Server ι) : Server ι :=
  server.setConnection socket ({ · with isShutDown := true })

/-- `end` -/
def end_ (socket : ι) (code : UInt16) (message : Bytes) (server : Server ι) : Server ι :=
  if (server.connections socket).isShuttingDown then server
  else
    let server := server.setConnection socket ({ · with isShuttingDown := true })
    let (ok, server) :=
      send accepts maxBackpressure socket (closePayload code message) .close server
    let server :=
      if server.loop.corkedSocket ≠ some socket ∧ ok then shutdown socket server else server
    WBServer.onClose socket server

end WebSocket

namespace WBServer

/-- `on_message`: the answer is of the kind of the question. -/
def onMessage (socket : ι) (opCode : OpCode) (data : Bytes) (server : Server ι) : Server ι :=
  (WebSocket.send accepts maxBackpressure socket (.ofLiteral "This is Cplus") opCode
    (server.call socket (.message opCode data))).2

/-- `on_open`, with what `get_symbols_str` returns. -/
def onOpen (socket : ι) (symbols : Bytes) (server : Server ι) : Server ι :=
  let server := server.call socket .open
  let server := { server with wssConSet := server.wssConSet.emplace socket }
  (WebSocket.send accepts maxBackpressure socket symbols .text server).2

def broadcast (message : Bytes) (server : Server ι) : Server ι :=
  server.wssConSet.toList.foldl
    (fun server socket => (WebSocket.send accepts maxBackpressure socket message .text server).2)
    server

end WBServer

namespace WebSocketContext

/-- `us_socket_close`, which calls the close handler. Once a connection is shutting down its
end has been announced. -/
def close (socket : ι) (server : Server ι) : Server ι :=
  let server := server.setLoop (·.setSocket socket ({ · with closed := true }))
  if (server.connections socket).isShuttingDown then server else WBServer.onClose socket server

/-- What `handleFragment` does about what it read. -/
def handle (socket : ι) (server : Server ι) : Event → Server ι
  | .message opCode data => WBServer.onMessage accepts maxBackpressure socket opCode data server
  | .ping data =>
    (WebSocket.send accepts maxBackpressure socket data .pong server).2.call socket .ping
  | .pong => server.call socket .pong
  | .close frame => WebSocket.end_ accepts maxBackpressure socket frame.code frame.message server
  | .forceClose _ => close socket server

/-- The end of the stream, once everything is sent. -/
def shutdownWhenDrained (socket : ι) (server : Server ι) : Server ι :=
  if (server.loop.sockets socket).buffer = [] ∧ (server.connections socket).isShuttingDown then
    WebSocket.shutdown socket server
  else server

/-- `on_data`: the socket is corked while its data are read. -/
def onData (socket : ι) (data : Bytes) (server : Server ι) : Except Failure (Server ι) :=
  if (server.connections socket).isShuttingDown then .ok server
  else do
    let server := server.setLoop (·.cork socket)
    let before := (server.connections socket).reader
    let reader ← consume true maxPayloadLength data before
    let server := server.setConnection socket ({ · with reader })
    let server := (reader.events.drop before.events.length).foldl
      (handle accepts maxBackpressure socket) server
    let server := server.setLoop (fun loop => (uncork accepts socket [] false loop).2)
    return shutdownWhenDrained socket server

/-- `on_writable` -/
def onWritable (socket : ι) (server : Server ι) : Server ι :=
  if (server.connections socket).isShutDown then server
  else
    let server := server.setLoop (fun loop => (write accepts socket [] false loop).2)
    shutdownWhenDrained socket server

/-- `upgrade` within the handler of the HTTP request, with the head of the response. -/
def upgrade (socket : ι) (response symbols : Bytes) (server : Server ι) : Server ι :=
  let server := server.setLoop (·.cork socket)
  let server := server.setLoop (fun loop => (write accepts socket response false loop).2)
  let server := server.setConnection socket ({ · with opened := true })
  let server := WBServer.onOpen accepts maxBackpressure socket symbols server
  server.setLoop (fun loop => (uncork accepts socket [] false loop).2)

end WebSocketContext

inductive Input (ι : Type) where
  | upgrade (socket : ι) (response symbols : Bytes)
  | data (socket : ι) (bytes : Bytes)
  | writable (socket : ι)
  /-- The peer is done, or was silent for too long. -/
  | gone (socket : ι)
  | broadcast (message : Bytes)

/-- A socket is upgraded once, and nothing happens to a socket that is closed. Every
input, a broadcast too, is handled to its end before the next one. -/
def step (server : Server ι) : Input ι → Option (Server ι)
  | .upgrade socket response symbols =>
    if (server.connections socket).opened then none
    else
      some (WebSocketContext.upgrade accepts maxBackpressure socket response symbols server)
  | .data socket bytes =>
    if (server.connections socket).opened ∧ !(server.loop.sockets socket).closed then
      (WebSocketContext.onData accepts maxPayloadLength maxBackpressure socket bytes server).toOption
    else none
  | .writable socket =>
    if (server.connections socket).opened ∧ !(server.loop.sockets socket).closed then
      some (WebSocketContext.onWritable accepts socket server)
    else none
  | .gone socket =>
    if (server.connections socket).opened ∧ !(server.loop.sockets socket).closed then
      some (WebSocketContext.close socket server)
    else none
  | .broadcast message => some (WBServer.broadcast accepts maxBackpressure message server)

end

end MarketServer.UWS

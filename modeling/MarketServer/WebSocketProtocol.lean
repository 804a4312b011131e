import MarketServer.Utf8
import MarketServer.Json
import Mathlib.Algebra.Group.Fin.Basic
import Mathlib.Algebra.Group.Nat.Defs

/-! WebSocket frames as `WebSocketProtocol.h` writes and reads them, with the fragment
handler of `WebSocketContext.h`. No behavior of this server asks for compression, so no
socket ever has it. -/
namespace MarketServer.UWS

/-- `OpCode`, an `unsigned char`. -/
abbrev OpCode := UInt8

namespace OpCode

def text : OpCode := 1
def binary : OpCode := 2
def close : OpCode := 8
def ping : OpCode := 9
def pong : OpCode := 10

end OpCode

def errTooBigMessage : Bytes := .ofLiteral "Received too big message"
def errInvalidText : Bytes := .ofLiteral "Received invalid UTF-8"

/-! Words in memory. The machine is little-endian. -/

/-- What `memcpy` takes from a word. -/
def wordBytes : Nat → Nat → Bytes
  | 0, _ => []
  | size + 1, value => UInt8.ofNat value :: wordBytes size (value / 256)

/-- `bit_cast` -/
def bitCast : Bytes → Nat
  | [] => 0
  | byte :: rest => byte.toNat + 256 * bitCast rest

/-- A word after `cond_byte_swap`. -/
def swappedBytes (size value : Nat) : Bytes := (wordBytes size value).reverse

/-- `cond_byte_swap(bit_cast(src))` -/
def swappedCast (bytes : Bytes) : Nat := bitCast bytes.reverse

/-- The four bytes a client masks a payload with. -/
abbrev Mask := Fin 4 → UInt8

/-- `unmaskImprecise` and `unmaskInplace`: the bytes they change behind the payload are
not read again. -/
def unmask (mask : Mask) (data : Bytes) : Bytes :=
  data.mapIdx fun i byte => byte ^^^ mask (Fin.ofNat 4 i)

def rotateMask (offset : Nat) (mask : Mask) : Mask := fun i => mask (i - Fin.ofNat 4 offset)

/-! Close payloads. -/

structure CloseFrame where
  code : UInt16
  message : Bytes
  deriving DecidableEq

def parseClosePayload (src : Bytes) : CloseFrame :=
  if 2 ≤ src.length then
    let code := UInt16.ofNat (swappedCast (src.take 2))
    let message := src.drop 2
    if code < 1000 ∨ code > 4999 ∨ (code > 1011 ∧ code < 4000) ∨ (code ≥ 1004 ∧ code ≤ 1006) ∨
        !isValidUtf8 message then ⟨1006, []⟩
    else ⟨code, message⟩
  else ⟨1005, []⟩

def formatClosePayload (code : UInt16) (message : Bytes) : Bytes :=
  if code ≠ 0 ∧ code ≠ 1005 ∧ code ≠ 1006 then swappedBytes 2 code.toNat ++ message else []

/-! Writing frames. -/

def messageFrameSize (messageSize : Nat) : Nat :=
  if messageSize < 126 then 2 + messageSize
  else if messageSize ≤ 65535 then 4 + messageSize
  else 10 + messageSize

/-- The second byte of a header and the length behind it. -/
def formatLength (isServer : Bool) (reportedLength : Nat) : Bytes :=
  let maskBit : UInt8 := if isServer then 0 else 0x80
  if reportedLength < 126 then [UInt8.ofNat reportedLength ||| maskBit]
  else if reportedLength ≤ 65535 then (126 ||| maskBit) :: swappedBytes 2 reportedLength
  else (127 ||| maskBit) :: swappedBytes 8 reportedLength

/-- A client takes the mask from `rand()`. -/
def formatMessage (isServer : Bool) (mask : Mask) (src : Bytes) (opCode : OpCode)
    (reportedLength : Nat) (compressed : Bool) : Bytes :=
  let first : UInt8 := 128 ||| (if compressed then 64 else 0) ||| opCode
  if isServer then first :: formatLength isServer reportedLength ++ src
  else first :: formatLength isServer reportedLength ++ List.ofFn mask ++ unmask mask src

/-! Reading frames. `src` is what is left of the data, its length is `length`. -/

def isFin (frame : Bytes) : Bool := frame.getD 0 0 &&& 128 ≠ 0
def getOpCode (frame : Bytes) : OpCode := frame.getD 0 0 &&& 15
def payloadLength (frame : Bytes) : UInt8 := frame.getD 1 0 &&& 127
def rsv23 (frame : Bytes) : Bool := frame.getD 0 0 &&& 48 ≠ 0
def rsv1 (frame : Bytes) : Bool := frame.getD 0 0 &&& 64 ≠ 0

def shortMessageHeader (isServer : Bool) : Nat := if isServer then 6 else 2
def mediumMessageHeader (isServer : Bool) : Nat := if isServer then 8 else 4
def longMessageHeader (isServer : Bool) : Nat := if isServer then 14 else 10

/-- `opStack` counts the entries of `opCode` that are in use; they are kept here with the
last one first. The source keeps `remainingBytes` in 32 bits, enough for every limit below
2^32; the limits of the server are. -/
structure WebSocketState where
  wantsHead : Bool
  spill : Bytes
  opStack : List OpCode
  lastFin : Bool
  remainingBytes : Nat
  mask : Mask

/-- What the reader hands on: a message, a ping that is answered with its data, a pong, a
close frame that ends the connection, or an error that closes the socket. -/
inductive Event where
  | message (opCode : OpCode) (data : Bytes)
  | ping (data : Bytes)
  | pong
  | close (frame : CloseFrame)
  | forceClose (reason : Bytes)
  deriving DecidableEq

/-- `WebSocketData`, as far as reading goes. `broken` is set when the socket is closed or
shutting down; the handlers of this server never do either. -/
structure WebSocketData where
  state : WebSocketState
  fragmentBuffer : Bytes
  controlTipLength : Nat
  broken : Bool
  events : List Event

/-- The constructor leaves the mask as memory has it. -/
def WebSocketData.initial (mask : Mask) : WebSocketData where
  state := ⟨true, [], [], true, 0, mask⟩
  fragmentBuffer := []
  controlTipLength := 0
  broken := false
  events := []

namespace WebSocketData

def emit (event : Event) (socket : WebSocketData) : WebSocketData :=
  { socket with events := socket.events ++ [event] }

def forceClose (reason : Bytes) (socket : WebSocketData) : WebSocketData :=
  { emit (.forceClose reason) socket with broken := true }

/-- A control frame that is complete. A close frame answers with `end`. -/
def handleControl (opCode : OpCode) (data : Bytes) (socket : WebSocketData) :
    Bool × WebSocketData :=
  if opCode = .close then
    (true, { emit (.close (parseClosePayload data)) socket with broken := true })
  else if opCode = .ping then (false, emit (.ping data) socket)
  else if opCode = .pong then (false, emit .pong socket)
  else (false, socket)

/-- The message is complete: text is checked before it is handed on. -/
def handleMessage (opCode : OpCode) (data : Bytes) (socket : WebSocketData) :
    Bool × WebSocketData :=
  if opCode = .text ∧ !isValidUtf8 data then (true, forceClose errInvalidText socket)
  else (false, emit (.message opCode data) socket)

/-- Returns true on breakage. -/
def handleFragment (maxPayloadLength : Nat) (data : Bytes) (remainingBytes : Nat)
    (opCode : OpCode) (fin : Bool) (socket : WebSocketData) : Bool × WebSocketData :=
  if opCode < 3 then
    if remainingBytes = 0 ∧ fin ∧ socket.fragmentBuffer = [] then handleMessage opCode data socket
    else if maxPayloadLength < data.length + socket.fragmentBuffer.length then
      (true, forceClose errTooBigMessage socket)
    else
      let socket := { socket with fragmentBuffer := socket.fragmentBuffer ++ data }
      if remainingBytes = 0 ∧ fin then
        match handleMessage opCode socket.fragmentBuffer socket with
        | (true, socket) => (true, socket)
        | (false, socket) => (false, { socket with fragmentBuffer := [] })
      else (false, socket)
  else if remainingBytes = 0 ∧ fin ∧ socket.controlTipLength = 0 then
    handleControl opCode data socket
  else
    let socket := { socket with
      fragmentBuffer := socket.fragmentBuffer ++ data
      controlTipLength := socket.controlTipLength + data.length }
    if remainingBytes = 0 ∧ fin then
      let rest := socket.fragmentBuffer.length - socket.controlTipLength
      match handleControl opCode (socket.fragmentBuffer.drop rest) socket with
      | (true, socket) => (true, socket)
      | (false, socket) =>
        (false, { socket with
          fragmentBuffer := socket.fragmentBuffer.take rest
          controlTipLength := 0 })
    else (false, socket)

def setState (change : WebSocketState → WebSocketState) (socket : WebSocketData) :
    WebSocketData :=
  { socket with state := change socket.state }

/-- `opStack--` after the last fragment. -/
def popOpCode (fin : Bool) (socket : WebSocketData) : WebSocketData :=
  if fin then socket.setState fun state => { state with opStack := state.opStack.tail }
  else socket

end WebSocketData

/-- Which opcode a frame continues or starts, with the entries below it. A frame that
starts where none may is refused. -/
def openFrame (src : Bytes) (opStack : List OpCode) (lastFin : Bool) :
    Option (OpCode × List OpCode) :=
  if getOpCode src ≠ 0 then
    if opStack.length = 2 ∨ (!lastFin ∧ getOpCode src < 2) then none
    else some (getOpCode src, opStack)
  else
    match opStack with
    | [] => none
    | opCode :: below => some (opCode, below)

/-- The mask in front of a payload. -/
def maskOf (header : Nat) (src : Bytes) : Mask := fun i => src.getD (header - 4 + i) 0

section

variable (isServer : Bool) (maxPayloadLength : Nat)

/-- Returns whether reading stops here, and the data behind the frame if not. -/
def consumeMessage (header payLength : Nat) (src : Bytes) (socket : WebSocketData) :
    Bool × Bytes × WebSocketData :=
  match openFrame src socket.state.opStack socket.state.lastFin with
  | none => (true, src, socket.forceClose [])
  | some (opCode, below) =>
    let fin := isFin src
    let socket := socket.setState fun state =>
      { state with opStack := opCode :: below, lastFin := fin }
    if maxPayloadLength < payLength then (true, src, socket.forceClose errTooBigMessage)
    else if payLength + header ≤ src.length then
      let payload := (src.drop header).take payLength
      let data := if isServer then unmask (maskOf header src) payload else payload
      match socket.handleFragment maxPayloadLength data 0 opCode fin with
      | (true, socket) => (true, src, socket)
      | (false, socket) =>
        (false, src.drop (payLength + header),
          (socket.popOpCode fin).setState fun state => { state with spill := [] })
    else
      let remainingBytes := payLength + header - src.length
      let payload := src.drop header
      let data := if isServer then unmask (maskOf header src) payload else payload
      let mask := rotateMask (4 - payload.length % 4) (maskOf header src)
      let socket := socket.setState fun state =>
        { state with
          spill := []
          wantsHead := false
          remainingBytes
          mask := if isServer then mask else state.mask }
      (true, src, (socket.handleFragment maxPayloadLength data remainingBytes opCode fin).2)

/-- Returns whether the frame is complete, and the data behind it. Without an open frame
the opcode is read from before its array. -/
def consumeContinuation (src : Bytes) (socket : WebSocketData) :
    Except Failure (Bool × Bytes × WebSocketData) :=
  let state := socket.state
  match state.opStack with
  | [] => .error .undefined
  | opCode :: _ =>
    if state.remainingBytes ≤ src.length then
      let payload := src.take state.remainingBytes
      let data := if isServer then unmask state.mask payload else payload
      match socket.handleFragment maxPayloadLength data 0 opCode state.lastFin with
      | (true, socket) => .ok (false, src, socket)
      | (false, socket) =>
        .ok (true, src.drop state.remainingBytes,
          (socket.popOpCode state.lastFin).setState fun state => { state with wantsHead := true })
    else
      let remainingBytes := state.remainingBytes - src.length
      let data := if isServer then unmask state.mask src else src
      let socket := socket.setState fun state => { state with remainingBytes }
      match socket.handleFragment maxPayloadLength data remainingBytes opCode state.lastFin with
      | (true, socket) => .ok (false, src, socket)
      | (false, socket) =>
        .ok (false, src,
          if isServer ∧ src.length % 4 ≠ 0 then
            socket.setState fun state =>
              { state with mask := rotateMask (4 - src.length % 4) state.mask }
          else socket)

/-- Reserved bits, opcodes and control frames that are refused. Compression is never
negotiated, so `setCompressed` fails. -/
def invalidHead (src : Bytes) : Bool :=
  rsv1 src || rsv23 src || (getOpCode src > 2 && getOpCode src < 8) || getOpCode src > 10 ||
    (getOpCode src > 2 && (!isFin src || payloadLength src > 125))

/-- What is left is the start of a header. -/
def spillRest (src : Bytes) (socket : WebSocketData) : WebSocketData :=
  if src.isEmpty then socket else socket.setState fun state => { state with spill := src }

/-- The loop at `parseNext`. Every frame takes a byte at least. -/
def parseNext : Nat → Bytes → WebSocketData → WebSocketData
  | 0, src, socket => spillRest src socket
  | passes + 1, src, socket =>
    let next : Bool × Bytes × WebSocketData → WebSocketData
      | (true, _, socket) => socket
      | (false, src, socket) => parseNext passes src socket
    if src.length < shortMessageHeader isServer then spillRest src socket
    else if invalidHead src then socket.forceClose []
    else if payloadLength src < 126 then
      next (consumeMessage isServer maxPayloadLength (shortMessageHeader isServer)
        (payloadLength src).toNat src socket)
    else if payloadLength src = 126 then
      if src.length < mediumMessageHeader isServer then spillRest src socket
      else
        next (consumeMessage isServer maxPayloadLength (mediumMessageHeader isServer)
          (swappedCast ((src.drop 2).take 2)) src socket)
    else if src.length < longMessageHeader isServer then spillRest src socket
    else
      next (consumeMessage isServer maxPayloadLength (longMessageHeader isServer)
        (swappedCast ((src.drop 2).take 8)) src socket)

def consume (data : Bytes) (socket : WebSocketData) : Except Failure WebSocketData :=
  let src := socket.state.spill ++ data
  if socket.state.wantsHead then
    .ok (parseNext isServer maxPayloadLength src.length src socket)
  else do
    match ← consumeContinuation isServer maxPayloadLength src socket with
    | (true, src, socket) => return parseNext isServer maxPayloadLength src.length src socket
    | (false, _, socket) => return socket

/-- The data handler of a socket, which gets no data when it is closed. -/
def onData (data : Bytes) (socket : WebSocketData) : Except Failure WebSocketData :=
  if socket.broken then .ok socket else consume isServer maxPayloadLength data socket

/-- The data of a connection, in the pieces it arrives in. -/
def receive (chunks : List Bytes) (socket : WebSocketData) : Except Failure WebSocketData :=
  chunks.foldlM (fun socket data => onData isServer maxPayloadLength data socket) socket

end

end MarketServer.UWS

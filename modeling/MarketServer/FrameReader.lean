import MarketServer.WebSocketProtocol
import Mathlib.Tactic.Common

/-! The reader of frames as a machine that takes one byte after the other. How the bytes
are cut into pieces cannot show in what such a machine does; the last part connects it
with the reader of the source. -/
namespace MarketServer.UWS

/-- Where a frame stands: its header so far, or what is left of its payload. -/
inductive Phase where
  | head (read : Bytes)
  | body (opCode : OpCode) (remaining : Nat) (mask : Mask)

/-- The message that is being put together, and the control frame within it. -/
structure Assembly where
  opStack : List OpCode
  lastFin : Bool
  pending : Bytes
  control : Bytes

/-- A connection that is closed keeps nothing but what it handed on. -/
structure Reader where
  events : List Event
  session : Option (Phase × Assembly)

namespace Reader

def fail (event : Event) (events : List Event) : Reader := ⟨events ++ [event], none⟩

/-- What is done about a control frame other than a close frame. -/
def controlEvents (opCode : OpCode) (data : Bytes) : List Event :=
  if opCode = .ping then [.ping data] else if opCode = .pong then [.pong] else []

/-- The frame is complete. -/
def complete (opCode : OpCode) (events : List Event) (assembly : Assembly) : Reader :=
  let opStack := if assembly.lastFin then assembly.opStack.tail else assembly.opStack
  if opCode < 3 then
    if assembly.lastFin then
      if opCode = .text ∧ !isValidUtf8 assembly.pending then fail (.forceClose errInvalidText) events
      else
        ⟨events ++ [.message opCode assembly.pending],
          some (.head [], { assembly with opStack, pending := [] })⟩
    else ⟨events, some (.head [], { assembly with opStack })⟩
  else if opCode = .close then fail (.close (parseClosePayload assembly.control)) events
  else
    ⟨events ++ controlEvents opCode assembly.control,
      some (.head [], { assembly with opStack, control := [] })⟩

/-- The last bytes of a payload, when they fit. -/
def finish (opCode : OpCode) (events : List Event) : Option Assembly → Reader
  | none => fail (.forceClose errTooBigMessage) events
  | some assembly => complete opCode events assembly

/-- Bytes of a payload that goes on, when they fit. -/
def pause (opCode : OpCode) (remaining : Nat) (mask : Mask) (events : List Event) :
    Option Assembly → Reader
  | none => fail (.forceClose errTooBigMessage) events
  | some assembly => ⟨events, some (.body opCode remaining mask, assembly)⟩

def advance (opCode : OpCode) (remaining : Nat) (mask : Mask) (events : List Event)
    (assembly : Assembly) : Reader :=
  if remaining = 0 then complete opCode events assembly
  else ⟨events, some (.body opCode remaining mask, assembly)⟩

end Reader

section

variable (isServer : Bool) (maxPayloadLength : Nat)

def headerLength (src : Bytes) : Nat :=
  if payloadLength src < 126 then shortMessageHeader isServer
  else if payloadLength src = 126 then mediumMessageHeader isServer
  else longMessageHeader isServer

def payloadSize (src : Bytes) : Nat :=
  if payloadLength src < 126 then (payloadLength src).toNat
  else if payloadLength src = 126 then swappedCast ((src.drop 2).take 2)
  else swappedCast ((src.drop 2).take 8)

/-- A client gets frames without a mask. -/
def frameMask (src : Bytes) : Mask :=
  if isServer then maskOf (headerLength isServer src) src else fun _ => 0

/-- Nothing, or no payload that would make the message too big. -/
def Assembly.append (opCode : OpCode) (data : Bytes) (assembly : Assembly) : Option Assembly :=
  if opCode < 3 then
    if maxPayloadLength < assembly.pending.length + data.length then none
    else some { assembly with pending := assembly.pending ++ data }
  else some { assembly with control := assembly.control ++ data }

namespace Reader

/-- The header so far. -/
def readHead (src : Bytes) (events : List Event) (assembly : Assembly) : Reader :=
  if src.length < shortMessageHeader isServer then ⟨events, some (.head src, assembly)⟩
  else if invalidHead src then fail (.forceClose []) events
  else if src.length < headerLength isServer src then ⟨events, some (.head src, assembly)⟩
  else
    match openFrame src assembly.opStack assembly.lastFin with
    | none => fail (.forceClose []) events
    | some (opCode, below) =>
      if maxPayloadLength < payloadSize src then fail (.forceClose errTooBigMessage) events
      else
        advance opCode (payloadSize src) (frameMask isServer src) events
          { assembly with opStack := opCode :: below, lastFin := isFin src }

def readBody (opCode : OpCode) (remaining : Nat) (mask : Mask) (byte : UInt8)
    (events : List Event) (assembly : Assembly) : Reader :=
  match assembly.append maxPayloadLength opCode (unmask mask [byte]) with
  | none => fail (.forceClose errTooBigMessage) events
  | some assembly => advance opCode (remaining - 1) (rotateMask 3 mask) events assembly

def readByte (reader : Reader) (byte : UInt8) : Reader :=
  match reader.session with
  | none => reader
  | some (.head read, assembly) =>
    readHead isServer maxPayloadLength (read ++ [byte]) reader.events assembly
  | some (.body opCode remaining mask, assembly) =>
    readBody maxPayloadLength opCode remaining mask byte reader.events assembly

def feed (reader : Reader) (bytes : Bytes) : Reader :=
  bytes.foldl (readByte isServer maxPayloadLength) reader

end Reader

end

namespace Reader

variable {isServer : Bool} {maxPayloadLength : Nat} {opCode : OpCode} {mask : Mask}
  {events : List Event} {assembly : Assembly}

theorem feed_append (reader : Reader) (first second : Bytes) :
    reader.feed isServer maxPayloadLength (first ++ second) =
      (reader.feed isServer maxPayloadLength first).feed isServer maxPayloadLength second :=
  List.foldl_append

theorem feed_cons (reader : Reader) (byte : UInt8) (rest : Bytes) :
    reader.feed isServer maxPayloadLength (byte :: rest) =
      (reader.readByte isServer maxPayloadLength byte).feed isServer maxPayloadLength rest := rfl

theorem feed_closed (bytes : Bytes) :
    (⟨events, none⟩ : Reader).feed isServer maxPayloadLength bytes = ⟨events, none⟩ := by
  induction bytes with
  | nil => rfl
  | cons byte rest ih => exact ih

theorem unmask_cons (byte : UInt8) (rest : Bytes) :
    unmask mask (byte :: rest) = unmask mask [byte] ++ unmask (rotateMask 3 mask) rest := by
  unfold unmask
  rw [List.mapIdx_cons, List.mapIdx_cons, List.mapIdx_nil, List.singleton_append]
  congr 1
  apply List.ext_getElem (by simp)
  intro i hi hi'
  simp only [List.getElem_mapIdx]
  congr 2
  apply Fin.ext
  simp only [Fin.val_sub, Fin.val_ofNat]
  omega

theorem append_nil (hpending : assembly.pending.length ≤ maxPayloadLength) :
    assembly.append maxPayloadLength opCode [] = some assembly := by
  unfold Assembly.append
  split
  · rw [if_neg (by simpa using hpending), List.append_nil]
  · rw [List.append_nil]

/-- What is too big stays too big with more data. -/
theorem append_append (first rest : Bytes) :
    assembly.append maxPayloadLength opCode (first ++ rest) =
      (assembly.append maxPayloadLength opCode first).bind
        (Assembly.append maxPayloadLength opCode rest) := by
  by_cases hdata : opCode < 3
  · by_cases hfirst : maxPayloadLength < assembly.pending.length + first.length
    · have hrest : maxPayloadLength < assembly.pending.length + (first.length + rest.length) := by
        omega
      simp [Assembly.append, hdata, hfirst, hrest]
    · simp [Assembly.append, hdata, hfirst, Nat.add_assoc]
  · simp [Assembly.append, hdata]

theorem pending_append {data : Bytes} {next : Assembly}
    (hpending : assembly.pending.length ≤ maxPayloadLength)
    (h : assembly.append maxPayloadLength opCode data = some next) :
    next.pending.length ≤ maxPayloadLength := by
  unfold Assembly.append at h
  split at h
  · split at h
    · cases h
    · rename_i hfits
      cases h
      simpa using hfits
  · cases h
    exact hpending

/-- The mask after a number of bytes. -/
def shiftMask (count : Nat) (mask : Mask) : Mask := rotateMask (4 - count % 4) mask

theorem shiftMask_of_mod {count : Nat} (h : count % 4 = 0) : shiftMask count mask = mask := by
  funext i
  apply congrArg mask
  apply Fin.ext
  simp only [Fin.val_sub, Fin.val_ofNat, h]
  omega

theorem shiftMask_zero : shiftMask 0 mask = mask := shiftMask_of_mod rfl

theorem shiftMask_succ (count : Nat) :
    shiftMask count (rotateMask 3 mask) = shiftMask (count + 1) mask := by
  funext i
  apply congrArg mask
  apply Fin.ext
  simp only [Fin.val_sub, Fin.val_ofNat]
  omega

/-- Payload bytes are collected, and the frame goes on or ends. -/
theorem feed_advance {remaining : Nat} {bytes : Bytes} (hbytes : bytes.length ≤ remaining)
    (hpending : assembly.pending.length ≤ maxPayloadLength) :
    (advance opCode remaining mask events assembly).feed isServer maxPayloadLength bytes =
      match assembly.append maxPayloadLength opCode (unmask mask bytes) with
      | none => fail (.forceClose errTooBigMessage) events
      | some assembly =>
        advance opCode (remaining - bytes.length) (shiftMask bytes.length mask) events assembly := by
  induction bytes generalizing remaining mask assembly with
  | nil =>
    rw [show unmask mask [] = [] from rfl, append_nil hpending, List.length_nil, shiftMask_zero]
    rfl
  | cons byte rest ih =>
    have hremaining : remaining ≠ 0 := by
      rintro rfl
      exact absurd hbytes (Nat.not_succ_le_zero _)
    rw [feed_cons, advance, if_neg hremaining, unmask_cons, append_append]
    change (readBody maxPayloadLength opCode remaining mask byte events assembly).feed isServer
      maxPayloadLength rest = _
    unfold readBody
    cases happend : assembly.append maxPayloadLength opCode (unmask mask [byte]) with
    | none => exact feed_closed rest
    | some next =>
      have hnext := pending_append hpending happend
      have hrest : rest.length ≤ remaining - 1 := by
        rw [List.length_cons] at hbytes
        omega
      simp only [Option.bind_some]
      rw [ih hrest hnext, shiftMask_succ, List.length_cons, Nat.sub_sub, Nat.add_comm 1]

theorem feed_whole {remaining : Nat} {bytes : Bytes} (hbytes : remaining ≤ bytes.length)
    (hpending : assembly.pending.length ≤ maxPayloadLength) :
    (advance opCode remaining mask events assembly).feed isServer maxPayloadLength bytes =
      (finish opCode events
        (assembly.append maxPayloadLength opCode (unmask mask (bytes.take remaining)))).feed
          isServer maxPayloadLength (bytes.drop remaining) := by
  have htake : (bytes.take remaining).length = remaining := List.length_take_of_le hbytes
  conv_lhs => rw [← List.take_append_drop remaining bytes]
  rw [feed_append, feed_advance htake.le hpending, htake, Nat.sub_self]
  rfl

theorem feed_part {remaining : Nat} {bytes : Bytes} (hbytes : bytes.length < remaining)
    (hpending : assembly.pending.length ≤ maxPayloadLength) :
    (advance opCode remaining mask events assembly).feed isServer maxPayloadLength bytes =
      pause opCode (remaining - bytes.length) (shiftMask bytes.length mask) events
        (assembly.append maxPayloadLength opCode (unmask mask bytes)) := by
  have hremaining : remaining - bytes.length ≠ 0 := by omega
  rw [feed_advance hbytes.le hpending]
  simp only [advance, hremaining, if_false]
  rfl

end Reader

/-! Headers. All that is asked of a header stands in its first bytes. -/

theorem getD_take {src : Bytes} {count i : Nat} (h : i < count) :
    (src.take count).getD i 0 = src.getD i 0 := by
  rw [List.getD_eq_getElem?_getD, List.getD_eq_getElem?_getD, List.getElem?_take_of_lt h]

section Header

variable {isServer : Bool} {src : Bytes} {count : Nat}

theorem isFin_take (h : 2 ≤ count) : isFin (src.take count) = isFin src := by
  unfold isFin
  rw [getD_take (by omega)]

theorem getOpCode_take (h : 2 ≤ count) : getOpCode (src.take count) = getOpCode src := by
  unfold getOpCode
  rw [getD_take (by omega)]

theorem payloadLength_take (h : 2 ≤ count) : payloadLength (src.take count) = payloadLength src := by
  unfold payloadLength
  rw [getD_take (by omega)]

theorem invalidHead_take (h : 2 ≤ count) : invalidHead (src.take count) = invalidHead src := by
  unfold invalidHead rsv1 rsv23
  rw [isFin_take h, getOpCode_take h, payloadLength_take h, getD_take (by omega)]

theorem headerLength_take (h : 2 ≤ count) :
    headerLength isServer (src.take count) = headerLength isServer src := by
  unfold headerLength
  rw [payloadLength_take h]

theorem openFrame_take (h : 2 ≤ count) (opStack : List OpCode) (lastFin : Bool) :
    openFrame (src.take count) opStack lastFin = openFrame src opStack lastFin := by
  unfold openFrame
  rw [getOpCode_take h]

theorem two_le_shortMessageHeader (isServer : Bool) : 2 ≤ shortMessageHeader isServer := by
  cases isServer <;> decide

theorem shortMessageHeader_le_headerLength (isServer : Bool) (src : Bytes) :
    shortMessageHeader isServer ≤ headerLength isServer src := by
  unfold headerLength
  split
  · exact le_rfl
  · split
    · cases isServer <;> decide
    · cases isServer <;> decide

theorem payloadSize_take :
    payloadSize (src.take (headerLength isServer src)) = payloadSize src := by
  have htwo : 2 ≤ headerLength isServer src :=
    (two_le_shortMessageHeader isServer).trans (shortMessageHeader_le_headerLength isServer src)
  unfold payloadSize
  rw [payloadLength_take htwo, List.drop_take, List.take_take, List.take_take]
  unfold headerLength
  split
  · rfl
  · split
    · cases isServer <;> rfl
    · cases isServer <;> rfl

theorem frameMask_take :
    frameMask isServer (src.take (headerLength isServer src)) = frameMask isServer src := by
  have hshort := shortMessageHeader_le_headerLength isServer src
  have htwo : 2 ≤ headerLength isServer src := (two_le_shortMessageHeader isServer).trans hshort
  unfold frameMask
  cases isServer with
  | false => rfl
  | true =>
    change 6 ≤ _ at hshort
    rw [headerLength_take htwo, if_pos rfl, if_pos rfl]
    funext i
    exact getD_take (by omega)

variable (isServer) in
/-- More bytes are needed before the frame can be opened or refused. -/
def Incomplete (src : Bytes) : Prop :=
  src.length < shortMessageHeader isServer ∨
    invalidHead src = false ∧ src.length < headerLength isServer src

theorem Incomplete.take (h : Incomplete isServer src) (count : Nat) :
    Incomplete isServer (src.take count) := by
  by_cases hshort : (src.take count).length < shortMessageHeader isServer
  · exact .inl hshort
  · have hle := List.length_take_le count src
    have htwo : 2 ≤ count := by
      have := two_le_shortMessageHeader isServer
      rw [List.length_take] at hshort
      omega
    rcases h with h | ⟨hvalid, h⟩
    · rw [List.length_take] at hshort
      omega
    · refine .inr ⟨(invalidHead_take htwo).trans hvalid, ?_⟩
      rw [headerLength_take htwo, List.length_take]
      omega

end Header

namespace Reader

variable {isServer : Bool} {maxPayloadLength : Nat} {events : List Event} {assembly : Assembly}

theorem readHead_of_incomplete {src : Bytes} (h : Incomplete isServer src) :
    readHead isServer maxPayloadLength src events assembly = ⟨events, some (.head src, assembly)⟩ := by
  unfold readHead
  split
  · rfl
  · rename_i hshort
    obtain ⟨hvalid, hlength⟩ := h.resolve_left hshort
    rw [if_neg (by simp [hvalid]), if_pos hlength]

theorem feed_head (read : Bytes) {bytes : Bytes} (h : Incomplete isServer (read ++ bytes)) :
    (⟨events, some (.head read, assembly)⟩ : Reader).feed isServer maxPayloadLength bytes =
      ⟨events, some (.head (read ++ bytes), assembly)⟩ := by
  induction bytes generalizing read with
  | nil =>
    rw [List.append_nil]
    rfl
  | cons byte rest ih =>
    have hcons : read ++ byte :: rest = (read ++ [byte]) ++ rest := by simp
    have hfirst : Incomplete isServer (read ++ [byte]) := by
      have htake := h.take (read ++ [byte]).length
      rwa [hcons, List.take_left] at htake
    rw [feed_cons]
    change (readHead isServer maxPayloadLength (read ++ [byte]) events assembly).feed isServer
      maxPayloadLength rest = _
    rw [readHead_of_incomplete hfirst, hcons]
    exact ih _ (hcons ▸ h)

/-- The last byte of a header decides. -/
theorem feed_header {src : Bytes} {count : Nat} (hlength : count < src.length)
    (h : Incomplete isServer (src.take count)) :
    (⟨events, some (.head [], assembly)⟩ : Reader).feed isServer maxPayloadLength src =
      (readHead isServer maxPayloadLength (src.take (count + 1)) events assembly).feed isServer
        maxPayloadLength (src.drop (count + 1)) := by
  have hsplit : src = src.take count ++ src[count] :: src.drop (count + 1) := by
    rw [← List.drop_eq_getElem_cons hlength, List.take_append_drop]
  conv_lhs => rw [hsplit]
  rw [feed_append, feed_head [] h, feed_cons, List.nil_append,
    List.take_succ_eq_append_getElem hlength]
  rfl

theorem feed_invalid {src : Bytes} (hlength : shortMessageHeader isServer ≤ src.length)
    (hinvalid : invalidHead src = true) :
    (⟨events, some (.head [], assembly)⟩ : Reader).feed isServer maxPayloadLength src =
      fail (.forceClose []) events := by
  have htwo := two_le_shortMessageHeader isServer
  obtain ⟨count, hcount⟩ : ∃ count, shortMessageHeader isServer = count + 1 :=
    ⟨shortMessageHeader isServer - 1, by omega⟩
  have hincomplete : Incomplete isServer (src.take count) := by
    left
    rw [List.length_take]
    omega
  rw [feed_header (by omega) hincomplete, ← hcount, readHead, if_neg (by simp; omega),
    invalidHead_take htwo, if_pos hinvalid]
  exact feed_closed _

/-- A complete header opens a frame or is refused. -/
theorem feed_frame {src : Bytes} (hlength : headerLength isServer src ≤ src.length)
    (hvalid : invalidHead src = false) :
    (⟨events, some (.head [], assembly)⟩ : Reader).feed isServer maxPayloadLength src =
      match openFrame src assembly.opStack assembly.lastFin with
      | none => fail (.forceClose []) events
      | some (opCode, below) =>
        if maxPayloadLength < payloadSize src then fail (.forceClose errTooBigMessage) events
        else
          (advance opCode (payloadSize src) (frameMask isServer src) events
            { assembly with opStack := opCode :: below, lastFin := isFin src }).feed isServer
            maxPayloadLength (src.drop (headerLength isServer src)) := by
  have hshort := shortMessageHeader_le_headerLength isServer src
  have htwo : 2 ≤ headerLength isServer src := (two_le_shortMessageHeader isServer).trans hshort
  obtain ⟨count, hcount⟩ : ∃ count, headerLength isServer src = count + 1 :=
    ⟨headerLength isServer src - 1, by omega⟩
  have hincomplete : Incomplete isServer (src.take count) := by
    by_cases hless : count < shortMessageHeader isServer
    · left
      rw [List.length_take]
      omega
    · right
      have hcountTwo : 2 ≤ count := by
        have := two_le_shortMessageHeader isServer
        omega
      rw [invalidHead_take hcountTwo, headerLength_take hcountTwo, List.length_take]
      exact ⟨hvalid, by omega⟩
  rw [feed_header (by omega) hincomplete, ← hcount, readHead, if_neg (by simp; omega),
    invalidHead_take htwo, hvalid, if_neg (by decide), headerLength_take htwo,
    if_neg (by simp; omega), openFrame_take htwo, payloadSize_take, frameMask_take,
    isFin_take htwo]
  cases openFrame src assembly.opStack assembly.lastFin with
  | none => exact feed_closed _
  | some frame =>
    obtain ⟨opCode, below⟩ := frame
    simp only
    split
    · exact feed_closed _
    · rfl

end Reader

end MarketServer.UWS

import MarketServer.ReceivedEvents

/-! What one end formats the other end reads: messages, control frames and close frames
come out as they went in, however the bytes between are cut. -/
namespace MarketServer.UWS

/-! Words. -/

theorem bitCast_wordBytes (size value : Nat) : bitCast (wordBytes size value) = value % 256 ^ size := by
  induction size generalizing value with
  | zero => rw [Nat.pow_zero, Nat.mod_one]; rfl
  | succ size ih =>
    have hbyte : (UInt8.ofNat value).toNat = value % 256 := UInt8.toNat_ofNat'
    rw [wordBytes, bitCast, hbyte, ih, Nat.pow_succ', Nat.mod_mul]

theorem length_wordBytes (size value : Nat) : (wordBytes size value).length = size := by
  induction size generalizing value with
  | zero => rfl
  | succ size ih => rw [wordBytes, List.length_cons, ih]

theorem swappedCast_swappedBytes {size value : Nat} (h : value < 256 ^ size) :
    swappedCast (swappedBytes size value) = value := by
  rw [swappedCast, swappedBytes, List.reverse_reverse, bitCast_wordBytes, Nat.mod_eq_of_lt h]

theorem length_swappedBytes (size value : Nat) : (swappedBytes size value).length = size := by
  rw [swappedBytes, List.length_reverse, length_wordBytes]

theorem unmask_unmask (mask : Mask) (data : Bytes) : unmask mask (unmask mask data) = data := by
  apply List.ext_getElem (by simp [unmask])
  intro i hi hi'
  simp only [unmask, List.getElem_mapIdx]
  rw [UInt8.xor_assoc, UInt8.xor_self, UInt8.xor_zero]

/-! Headers. -/

section Header

variable {isServer : Bool} {length : Nat}

theorem payloadLength_short (first : UInt8) (rest : Bytes) (h : length < 126) :
    payloadLength (first :: (UInt8.ofNat length ||| if isServer then 0 else 0x80) :: rest) =
      UInt8.ofNat length := by
  have hbits : ∀ byte : UInt8, byte.toNat < 126 →
      (byte ||| if isServer then 0 else 0x80) &&& 127 = byte := by
    cases isServer
    · exact forall_byte (by decide +kernel)
    · exact forall_byte (by decide +kernel)
  refine hbits _ ?_
  rw [UInt8.toNat_ofNat']
  exact (Nat.mod_le _ _).trans_lt h

theorem payloadLength_medium (first : UInt8) (rest : Bytes) :
    payloadLength (first :: (126 ||| if isServer then 0 else 0x80) :: rest) = 126 := by
  change (126 ||| if isServer then 0 else 0x80) &&& 127 = (126 : UInt8)
  cases isServer <;> decide

theorem payloadLength_long (first : UInt8) (rest : Bytes) :
    payloadLength (first :: (127 ||| if isServer then 0 else 0x80) :: rest) = 127 := by
  change (127 ||| if isServer then 0 else 0x80) &&& 127 = (127 : UInt8)
  cases isServer <;> decide

theorem take_swappedBytes (size value : Nat) (tail : Bytes) :
    (swappedBytes size value ++ tail).take size = swappedBytes size value :=
  List.take_left' (length_swappedBytes size value)

/-- The length that is written is the length that is read. -/
theorem header_formatLength (sender receiver : Bool) (first : UInt8) (tail : Bytes)
    (h : length < 2 ^ 64) :
    let src := first :: formatLength sender length ++ tail
    payloadSize src = length ∧
      headerLength receiver src =
        1 + (formatLength sender length).length + if receiver then 4 else 0 := by
  intro src
  by_cases hshort : length < 126
  · have hbyte : payloadLength src = UInt8.ofNat length := by
      simp only [src, formatLength, hshort, if_true]
      exact payloadLength_short first tail hshort
    have hnat : (UInt8.ofNat length).toNat = length := by
      rw [UInt8.toNat_ofNat', Nat.mod_eq_of_lt (by omega)]
    have hless : UInt8.ofNat length < 126 := by
      rw [UInt8.lt_iff_toNat_lt, hnat]
      exact hshort
    constructor
    · rw [payloadSize, hbyte, if_pos hless, hnat]
    · rw [headerLength, hbyte, if_pos hless]
      simp only [formatLength, hshort, if_true]
      cases receiver <;> rfl
  · by_cases hmedium : length ≤ 65535
    · have hformat : formatLength sender length =
          (126 ||| if sender then 0 else 0x80) :: swappedBytes 2 length := by
        simp only [formatLength, hshort, hmedium, if_true, if_false]
      have hbyte : payloadLength src = 126 := by
        simp only [src, hformat]
        exact payloadLength_medium first _
      constructor
      · rw [payloadSize, hbyte, if_neg (by decide), if_pos rfl]
        simp only [src, hformat, List.cons_append, List.drop_succ_cons, List.drop_zero,
          take_swappedBytes]
        exact swappedCast_swappedBytes (Nat.lt_succ_of_le hmedium)
      · rw [headerLength, hbyte, if_neg (by decide), if_pos rfl, hformat, List.length_cons,
          length_swappedBytes]
        cases receiver <;> rfl
    · have hformat : formatLength sender length =
          (127 ||| if sender then 0 else 0x80) :: swappedBytes 8 length := by
        simp only [formatLength, hshort, hmedium, if_false]
      have hbyte : payloadLength src = 127 := by
        simp only [src, hformat]
        exact payloadLength_long first _
      constructor
      · rw [payloadSize, hbyte, if_neg (by decide), if_neg (by decide)]
        simp only [src, hformat, List.cons_append, List.drop_succ_cons, List.drop_zero,
          take_swappedBytes]
        exact swappedCast_swappedBytes h
      · rw [headerLength, hbyte, if_neg (by decide), if_neg (by decide), hformat, List.length_cons,
          length_swappedBytes]
        cases receiver <;> rfl

end Header

/-- A frame before it is on the wire. Continuations have the opcode 0. -/
structure Frame where
  fin : Bool
  opCode : OpCode
  mask : Mask
  data : Bytes

namespace Frame

/-- Only what goes to a server is masked. -/
def maskBytes (isServer : Bool) (frame : Frame) : Bytes :=
  if isServer then List.ofFn frame.mask else []

def wireMask (isServer : Bool) (frame : Frame) : Mask :=
  if isServer then frame.mask else fun _ => 0

def first (frame : Frame) : UInt8 := (if frame.fin then 128 else 0) ||| frame.opCode

/-- The bytes of a frame on their way to a server, or to a client. -/
def bytes (isServer : Bool) (frame : Frame) : Bytes :=
  frame.first :: formatLength (!isServer) frame.data.length ++
    (frame.maskBytes isServer ++ unmask (frame.wireMask isServer) frame.data)

/-- What every frame has to keep to, wherever it stands. -/
structure Legal (frame : Frame) : Prop where
  opCode : frame.opCode = 0 ∨ frame.opCode = .text ∨ frame.opCode = .binary ∨
    frame.opCode = .close ∨ frame.opCode = .ping ∨ frame.opCode = .pong
  length : frame.data.length < 2 ^ 64
  control : ¬ frame.opCode < 3 → frame.fin = true ∧ frame.data.length ≤ 125

variable {isServer : Bool} {frame : Frame}

theorem first_bits (h : frame.Legal) (rest : Bytes) :
    isFin (frame.first :: rest) = frame.fin ∧ getOpCode (frame.first :: rest) = frame.opCode ∧
      rsv1 (frame.first :: rest) = false ∧ rsv23 (frame.first :: rest) = false := by
  have hfin : isFin (frame.first :: rest) = decide (frame.first &&& 128 ≠ 0) := rfl
  have hcode : getOpCode (frame.first :: rest) = frame.first &&& 15 := rfl
  have hrsv1 : rsv1 (frame.first :: rest) = decide (frame.first &&& 64 ≠ 0) := rfl
  have hrsv23 : rsv23 (frame.first :: rest) = decide (frame.first &&& 48 ≠ 0) := rfl
  rw [hfin, hcode, hrsv1, hrsv23]
  unfold first
  rcases h.opCode with h | h | h | h | h | h <;> rw [h] <;> cases frame.fin <;> decide

theorem length_maskBytes : (frame.maskBytes isServer).length = if isServer then 4 else 0 := by
  cases isServer <;> simp [maskBytes]

/-- Where the header ends. -/
theorem headerLength_bytes (isServer : Bool) (h : frame.Legal) (tail : Bytes) :
    headerLength isServer (frame.first :: formatLength (!isServer) frame.data.length ++
        (frame.maskBytes isServer ++ tail)) =
      (frame.first :: formatLength (!isServer) frame.data.length ++
        frame.maskBytes isServer).length := by
  rw [(header_formatLength (!isServer) isServer _ _ h.length).2, List.cons_append, List.length_cons,
    List.length_append, length_maskBytes]
  omega

/-- The four bytes in front of the data. -/
theorem maskOf_append (front tail : Bytes) (mask : Mask) :
    maskOf (front ++ List.ofFn mask).length (front ++ (List.ofFn mask ++ tail)) = mask := by
  funext i
  have hindex : (front ++ List.ofFn mask).length - 4 + i.val = front.length + i.val := by
    rw [List.length_append, List.length_ofFn, Nat.add_sub_cancel]
  have hi : i.val < (List.ofFn mask).length := by simp
  rw [maskOf, hindex, List.getD_eq_getElem?_getD, List.getElem?_append_right (Nat.le_add_right _ _),
    Nat.add_sub_cancel_left, List.getElem?_append_left hi, List.getElem?_eq_getElem hi,
    List.getElem_ofFn]
  rfl

theorem frameMask_bytes (h : frame.Legal) (tail : Bytes) :
    frameMask isServer (frame.first :: formatLength (!isServer) frame.data.length ++
        (frame.maskBytes isServer ++ tail)) = frame.wireMask isServer := by
  have hheader := headerLength_bytes isServer h tail
  cases isServer with
  | false => rfl
  | true =>
    change maskOf (headerLength true _) _ = frame.mask
    rw [hheader]
    exact maskOf_append _ tail frame.mask

theorem invalidHead_bytes (isServer : Bool) (h : frame.Legal) (tail : Bytes) :
    invalidHead (frame.first :: formatLength isServer frame.data.length ++ tail) = false := by
  obtain ⟨hfin, hcode, hrsv1, hrsv23⟩ :=
    first_bits h (formatLength isServer frame.data.length ++ tail)
  unfold invalidHead
  rw [List.cons_append, hfin, hcode, hrsv1, hrsv23]
  have hcodes : (frame.opCode > 2 && frame.opCode < 8) = false ∧
      decide (frame.opCode > 10) = false := by
    rcases h.opCode with h | h | h | h | h | h <;> rw [h] <;> decide
  rw [hcodes.1, hcodes.2]
  by_cases hdata : frame.opCode < 3
  · have hsmall : decide (frame.opCode > 2) = false := by
      rw [decide_eq_false_iff_not, gt_iff_lt, UInt8.lt_iff_toNat_lt]
      rw [UInt8.lt_iff_toNat_lt] at hdata
      exact Nat.not_lt.mpr (Nat.le_of_lt_succ hdata)
    rw [hsmall]
    rfl
  · obtain ⟨hwhole, hshort⟩ := h.control hdata
    have hless : frame.data.length < 126 := Nat.lt_succ_of_le hshort
    have hbyte : payloadLength (frame.first ::
        (formatLength isServer frame.data.length ++ tail)) = UInt8.ofNat frame.data.length := by
      simp only [formatLength, hless, if_true]
      exact payloadLength_short _ _ hless
    have hle : decide (UInt8.ofNat frame.data.length > 125) = false := by
      rw [decide_eq_false_iff_not, gt_iff_lt, UInt8.lt_iff_toNat_lt, UInt8.toNat_ofNat',
        Nat.mod_eq_of_lt (by omega)]
      exact Nat.not_lt.mpr hshort
    rw [hbyte, hle, hwhole]
    simp

variable {maxPayloadLength : Nat} {events : List Event} {assembly : Assembly} {opCode : OpCode}
  {below : List OpCode}

/-- A frame is complete at its last byte. -/
theorem feed_bytes (h : frame.Legal) (hmax : frame.data.length ≤ maxPayloadLength)
    (hopen : ∀ src, getOpCode src = frame.opCode →
      openFrame src assembly.opStack assembly.lastFin = some (opCode, below))
    (hpending : assembly.pending.length ≤ maxPayloadLength) (rest : Bytes) :
    (⟨events, some (.head [], assembly)⟩ : Reader).feed isServer maxPayloadLength
        (frame.bytes isServer ++ rest) =
      (Reader.finish opCode events
        ({ assembly with opStack := opCode :: below, lastFin := frame.fin }.append
          maxPayloadLength opCode frame.data)).feed isServer maxPayloadLength rest := by
  obtain ⟨payload, hpayload⟩ :
      ∃ payload, payload = unmask (frame.wireMask isServer) frame.data := ⟨_, rfl⟩
  obtain ⟨front, hfront⟩ : ∃ front, front = frame.first ::
      formatLength (!isServer) frame.data.length ++ frame.maskBytes isServer := ⟨_, rfl⟩
  obtain ⟨src, hsrc⟩ : ∃ src, src = frame.first :: formatLength (!isServer) frame.data.length ++
      (frame.maskBytes isServer ++ (payload ++ rest)) := ⟨_, rfl⟩
  have hbytes : frame.bytes isServer ++ rest = src := by
    rw [bytes, hsrc, hpayload, List.append_assoc, List.append_assoc]
  have hparts : src = front ++ (payload ++ rest) := by
    rw [hsrc, hfront, List.append_assoc]
  have hheader : headerLength isServer src = front.length := by
    rw [hsrc, hfront]
    exact headerLength_bytes isServer h _
  have hmask : frameMask isServer src = frame.wireMask isServer := by
    rw [hsrc]
    exact frameMask_bytes h _
  have hsize : payloadSize src = frame.data.length := by
    rw [hsrc]
    exact (header_formatLength (!isServer) isServer _ _ h.length).1
  have hvalid : invalidHead src = false := by
    rw [hsrc]
    exact invalidHead_bytes (!isServer) h _
  obtain ⟨hfin, hcode, _⟩ : isFin src = frame.fin ∧ getOpCode src = frame.opCode ∧ _ := by
    rw [hsrc]
    exact first_bits h _
  have hlength : payload.length = frame.data.length := by rw [hpayload, length_unmask]
  have hfits : headerLength isServer src ≤ src.length := by
    rw [hheader, hparts, List.length_append]
    exact Nat.le_add_right _ _
  have hwhole : frame.data.length ≤ (payload ++ rest).length := by
    rw [List.length_append]
    omega
  have hnext : ({ assembly with opStack := opCode :: below, lastFin := frame.fin } :
      Assembly).pending.length ≤ maxPayloadLength := hpending
  rw [hbytes, Reader.feed_frame hfits hvalid, hopen src hcode]
  simp only [hsize, hmask, hfin, hheader]
  rw [if_neg (Nat.not_lt.mpr hmax), hparts, List.drop_left, Reader.feed_whole hwhole hnext,
    ← hlength, List.take_left, List.drop_left, hpayload, unmask_unmask]

end Frame

/-- What a peer that keeps to the protocol sends, and what it means: messages in any number
of parts, with pings and pongs between the parts. The option is the message in parts so far. -/
inductive Conforms (maxPayloadLength : Nat) :
    Option (OpCode × Bytes) → List Frame → List Event → Prop where
  | nil : Conforms maxPayloadLength none [] []
  | whole {frame frames events}
      (kind : frame.opCode = .text ∧ frame.data.ValidUtf8 ∨ frame.opCode = .binary)
      (fin : frame.fin = true) (length : frame.data.length ≤ maxPayloadLength)
      (rest : Conforms maxPayloadLength none frames events) :
      Conforms maxPayloadLength none (frame :: frames) (.message frame.opCode frame.data :: events)
  | start {frame frames events} (kind : frame.opCode = .text ∨ frame.opCode = .binary)
      (fin : frame.fin = false)
      (rest : Conforms maxPayloadLength (some (frame.opCode, frame.data)) frames events) :
      Conforms maxPayloadLength none (frame :: frames) events
  | part {frame frames events opCode collected} (kind : frame.opCode = 0) (fin : frame.fin = false)
      (rest : Conforms maxPayloadLength (some (opCode, collected ++ frame.data)) frames events) :
      Conforms maxPayloadLength (some (opCode, collected)) (frame :: frames) events
  | last {frame frames events opCode collected} (kind : frame.opCode = 0) (fin : frame.fin = true)
      (text : opCode = .text → (collected ++ frame.data).ValidUtf8)
      (length : (collected ++ frame.data).length ≤ maxPayloadLength)
      (rest : Conforms maxPayloadLength none frames events) :
      Conforms maxPayloadLength (some (opCode, collected)) (frame :: frames)
        (.message opCode (collected ++ frame.data) :: events)
  | control {message frame frames events} (kind : frame.opCode = .ping ∨ frame.opCode = .pong)
      (fin : frame.fin = true) (short : frame.data.length ≤ 125)
      (length : frame.data.length ≤ maxPayloadLength)
      (rest : Conforms maxPayloadLength message frames events) :
      Conforms maxPayloadLength message (frame :: frames)
        (Reader.controlEvents frame.opCode frame.data ++ events)

/-- The assembly of a message in parts. -/
def Stands : Option (OpCode × Bytes) → Assembly → Prop
  | none, assembly => assembly = ⟨[], true, [], []⟩
  | some (opCode, collected), assembly => (opCode = .text ∨ opCode = .binary) ∧
      ∃ lastFin, assembly = ⟨[opCode], lastFin, collected, []⟩

section

variable {isServer : Bool} {maxPayloadLength : Nat} {message : Option (OpCode × Bytes)}
  {frames : List Frame} {events : List Event}

/-- Parts of a message that is not too long are not too long. -/
theorem Conforms.collected_le {opCode : OpCode} {collected : Bytes}
    (h : Conforms maxPayloadLength (some (opCode, collected)) frames events) :
    collected.length ≤ maxPayloadLength := by
  generalize hmessage : some (opCode, collected) = message at h
  induction h generalizing collected with
  | nil => cases hmessage
  | whole => cases hmessage
  | start => cases hmessage
  | part _ _ _ ih =>
    cases hmessage
    have hle := ih rfl
    rw [List.length_append] at hle
    omega
  | last _ _ _ length =>
    cases hmessage
    rw [List.length_append] at length
    omega
  | control _ _ _ _ _ ih => exact ih hmessage

theorem finish_message {opCode : OpCode} {collected data : Bytes}
    (kind : opCode = .text ∨ opCode = .binary)
    (text : opCode = .text → (collected ++ data).ValidUtf8)
    (length : (collected ++ data).length ≤ maxPayloadLength) (before : List Event) :
    Reader.finish opCode before ((⟨[opCode], true, collected, []⟩ : Assembly).append
        maxPayloadLength opCode data) =
      ⟨before ++ [.message opCode (collected ++ data)], some (.head [], ⟨[], true, [], []⟩)⟩ := by
  have hdata : opCode < 3 := by rcases kind with rfl | rfl <;> decide
  have hvalid : ¬ (opCode = .text ∧ !isValidUtf8 (collected ++ data)) := by
    rintro ⟨htext, hinvalid⟩
    have hutf : isValidUtf8 (collected ++ data) = true :=
      (isValidUtf8From_iff le_rfl).mpr (text htext)
    simp [hutf] at hinvalid
  rw [List.length_append] at length
  simp only [Assembly.append, hdata, if_true, Nat.not_lt.mpr length, if_false, Reader.finish,
    Reader.complete, hvalid]
  rfl

theorem finish_part {opCode : OpCode} {collected data : Bytes}
    (kind : opCode = .text ∨ opCode = .binary)
    (length : (collected ++ data).length ≤ maxPayloadLength) (before : List Event) :
    Reader.finish opCode before ((⟨[opCode], false, collected, []⟩ : Assembly).append
        maxPayloadLength opCode data) =
      ⟨before, some (.head [], ⟨[opCode], false, collected ++ data, []⟩)⟩ := by
  have hdata : opCode < 3 := by rcases kind with rfl | rfl <;> decide
  rw [List.length_append] at length
  simp only [Assembly.append, hdata, if_true, Nat.not_lt.mpr length, if_false, Reader.finish,
    Reader.complete]
  rfl

theorem finish_control {opCode : OpCode} {opStack : List OpCode} {pending data : Bytes}
    (kind : opCode = .ping ∨ opCode = .pong) (before : List Event) :
    Reader.finish opCode before ((⟨opCode :: opStack, true, pending, []⟩ : Assembly).append
        maxPayloadLength opCode data) =
      ⟨before ++ Reader.controlEvents opCode data, some (.head [], ⟨opStack, true, pending, []⟩)⟩ := by
  have hcontrol : ¬ opCode < 3 := by rcases kind with rfl | rfl <;> decide
  have hclose : opCode ≠ .close := by rcases kind with rfl | rfl <;> decide
  simp only [Assembly.append, hcontrol, if_false, Reader.finish, Reader.complete, hclose]
  rfl

theorem legal_data {frame : Frame} (hmax : maxPayloadLength < 2 ^ 32)
    (kind : frame.opCode = 0 ∨ frame.opCode = .text ∨ frame.opCode = .binary)
    (length : frame.data.length ≤ maxPayloadLength) : frame.Legal where
  opCode := by
    rcases kind with h | h | h
    · exact .inl h
    · exact .inr (.inl h)
    · exact .inr (.inr (.inl h))
  length := by omega
  control h := by
    have hdata : frame.opCode < 3 := by rcases kind with h | h | h <;> rw [h] <;> decide
    exact absurd hdata h

theorem legal_control {frame : Frame} (kind : frame.opCode = .ping ∨ frame.opCode = .pong)
    (fin : frame.fin = true) (short : frame.data.length ≤ 125) : frame.Legal where
  opCode := .inr (.inr (.inr (.inr kind)))
  length := by omega
  control _ := ⟨fin, short⟩

theorem openFrame_start {opCode : OpCode} (kind : opCode = .text ∨ opCode = .binary) (src : Bytes)
    (hcode : getOpCode src = opCode) : openFrame src [] true = some (opCode, []) := by
  have hnonzero : opCode ≠ 0 := by rcases kind with rfl | rfl <;> decide
  simp [openFrame, hcode, hnonzero]

theorem openFrame_continue {opCode : OpCode} {lastFin : Bool} (src : Bytes)
    (hcode : getOpCode src = 0) : openFrame src [opCode] lastFin = some (opCode, []) := by
  simp [openFrame, hcode]

theorem openFrame_control {opCode : OpCode} {opStack : List OpCode} {lastFin : Bool}
    (kind : opCode = .ping ∨ opCode = .pong) (hstack : opStack.length ≤ 1) (src : Bytes)
    (hcode : getOpCode src = opCode) : openFrame src opStack lastFin = some (opCode, opStack) := by
  have hnonzero : opCode ≠ 0 := by rcases kind with rfl | rfl <;> decide
  have hmay : ¬ (opStack.length = 2 ∨ !lastFin ∧ opCode < 2) := by
    rintro (h | ⟨_, h⟩)
    · omega
    · rcases kind with rfl | rfl <;> revert h <;> decide
  unfold openFrame
  rw [hcode, if_pos hnonzero, if_neg hmay]

/-- Whoever keeps to the protocol is understood. The induction is on the frames. -/
theorem feed_conforms (hmax : maxPayloadLength < 2 ^ 32)
    (h : Conforms maxPayloadLength message frames events) {assembly : Assembly}
    (hstands : Stands message assembly) (before : List Event) :
    (⟨before, some (.head [], assembly)⟩ : Reader).feed isServer maxPayloadLength
        (frames.flatMap (Frame.bytes isServer)) =
      ⟨before ++ events, some (.head [], ⟨[], true, [], []⟩)⟩ := by
  induction h generalizing assembly before with
  | nil =>
    obtain rfl := hstands
    rw [List.append_nil]
    rfl
  | @whole frame frames events kind fin length rest ih =>
    obtain rfl := hstands
    have hkind : frame.opCode = .text ∨ frame.opCode = .binary := kind.imp_left And.left
    have htext (h : frame.opCode = .text) : Bytes.ValidUtf8 ([] ++ frame.data) :=
      kind.elim And.right fun hbinary => absurd (h.symm.trans hbinary) (by decide)
    rw [List.flatMap_cons, Frame.feed_bytes (legal_data hmax (.inr hkind) length) length
      (openFrame_start hkind) (Nat.zero_le _), fin, finish_message hkind htext length, ih rfl,
      List.append_assoc]
    rfl
  | @start frame frames events kind fin rest ih =>
    obtain rfl := hstands
    have length := rest.collected_le
    rw [List.flatMap_cons, Frame.feed_bytes (legal_data hmax (.inr kind) length) length
      (openFrame_start kind) (Nat.zero_le _), fin, finish_part kind length]
    exact ih ⟨kind, false, rfl⟩ before
  | @part frame frames events opCode collected kind fin rest ih =>
    obtain ⟨hkind, lastFin, rfl⟩ := hstands
    have length := rest.collected_le
    have hlength := length
    rw [List.length_append] at hlength
    rw [List.flatMap_cons, Frame.feed_bytes (legal_data hmax (.inl kind) (by omega)) (by omega)
      (fun src hcode => openFrame_continue src (hcode.trans kind)) (Nat.le_of_add_right_le hlength),
      fin, finish_part hkind length]
    exact ih ⟨hkind, false, rfl⟩ before
  | @last frame frames events opCode collected kind fin text length rest ih =>
    obtain ⟨hkind, lastFin, rfl⟩ := hstands
    have hlength := length
    rw [List.length_append] at hlength
    rw [List.flatMap_cons, Frame.feed_bytes (legal_data hmax (.inl kind) (by omega)) (by omega)
      (fun src hcode => openFrame_continue src (hcode.trans kind)) (Nat.le_of_add_right_le hlength),
      fin, finish_message hkind text length, ih rfl, List.append_assoc]
    rfl
  | @control message frame frames events kind fin short length rest ih =>
    obtain ⟨opStack, lastFin, pending, rfl, hstack, hpending, hstands⟩ :
        ∃ opStack lastFin pending, assembly = ⟨opStack, lastFin, pending, []⟩ ∧
          opStack.length ≤ 1 ∧ pending.length ≤ maxPayloadLength ∧
          Stands message ⟨opStack, true, pending, []⟩ := by
      cases message with
      | none => exact ⟨[], true, [], hstands, by decide, Nat.zero_le _, rfl⟩
      | some parts =>
        obtain ⟨hkind, lastFin, hassembly⟩ := hstands
        exact ⟨_, lastFin, _, hassembly, le_rfl, rest.collected_le, hkind, true, rfl⟩
    rw [List.flatMap_cons, Frame.feed_bytes (legal_control kind fin short) length
      (openFrame_control kind hstack) hpending, fin, finish_control kind, ih hstands,
      List.append_assoc]

end

variable (isServer : Bool) {maxPayloadLength : Nat}

/-- Whatever a peer that keeps to the protocol sends, and however it arrives: the messages
are put together again, the control frames between their parts are seen where they stand,
and the connection stays open. -/
theorem receive_conforming (hmax : maxPayloadLength < 2 ^ 32) {frames : List Frame}
    {events : List Event} (h : Conforms maxPayloadLength none frames events) {chunks : List Bytes}
    (hchunks : chunks.flatten = frames.flatMap (Frame.bytes isServer)) (mask : Mask) :
    ∃ socket, receive isServer maxPayloadLength chunks (.initial mask) = .ok socket ∧
      socket.events = events ∧ socket.broken = false := by
  obtain ⟨socket, hsocket, hread, _⟩ := receive_reader isServer maxPayloadLength chunks mask
  rw [hchunks, feed_conforms hmax h rfl] at hread
  refine ⟨socket, hsocket, congrArg Reader.events hread, ?_⟩
  rw [← broken_eq_session isServer, hread]
  rfl

/-- A text in two parts with a ping between them. -/
def sampleFrames : List Frame :=
  [⟨false, .text, fun _ => 7, [0xc3]⟩, ⟨true, .ping, fun _ => 9, [1]⟩,
    ⟨true, 0, fun _ => 0, [0xa9]⟩]

theorem sampleFrames_conform :
    Conforms 16384 none sampleFrames [.ping [1], .message .text [0xc3, 0xa9]] :=
  .start (.inl rfl) rfl <| .control (.inl rfl) rfl (by decide) (by decide) <|
    .last rfl rfl (fun _ => by decide) (by decide) .nil

theorem receive_conforming_sample :
    ∃ socket, receive true 16384
        ((sampleFrames.flatMap (Frame.bytes true)).map fun byte => [byte])
        (.initial fun _ => 0) = .ok socket ∧
      socket.events = [.ping [1], .message .text [0xc3, 0xa9]] ∧ socket.broken = false :=
  receive_conforming true (by decide) sampleFrames_conform (by decide) _

/-- What `formatMessage` writes is such a frame. -/
theorem formatMessage_eq (mask : Mask) (data : Bytes) (opCode : OpCode) :
    formatMessage isServer mask data opCode data.length false =
      Frame.bytes (!isServer) ⟨true, opCode, mask, data⟩ := by
  cases isServer with
  | false => simp [formatMessage, Frame.bytes, Frame.first, Frame.maskBytes, Frame.wireMask]
  | true =>
    simp [formatMessage, Frame.bytes, Frame.first, Frame.maskBytes, Frame.wireMask, unmask_zero]

/-- A message or a control frame, with the mask a client finds for it. -/
structure Send where
  opCode : OpCode
  data : Bytes
  mask : Mask

namespace Send

def format (isServer : Bool) (send : Send) : Bytes :=
  formatMessage isServer send.mask send.data send.opCode send.data.length false

/-- What the other end does not refuse. -/
def Welcome (maxPayloadLength : Nat) (send : Send) : Prop :=
  send.data.length ≤ maxPayloadLength ∧
    ((send.opCode = .text ∧ send.data.ValidUtf8 ∨ send.opCode = .binary) ∨
      (send.opCode = .ping ∨ send.opCode = .pong) ∧ send.data.length ≤ 125)

/-- What the other end makes of it. -/
def events (send : Send) : List Event :=
  if send.opCode < 3 then [.message send.opCode send.data]
  else Reader.controlEvents send.opCode send.data

end Send

theorem conforms_sends {sends : List Send} (h : ∀ send ∈ sends, send.Welcome maxPayloadLength) :
    Conforms maxPayloadLength none (sends.map fun send => ⟨true, send.opCode, send.mask, send.data⟩)
      (sends.flatMap Send.events) := by
  induction sends with
  | nil => exact .nil
  | cons send sends ih =>
    have hrest := ih fun other hother => h other (List.mem_cons_of_mem _ hother)
    obtain ⟨hlength, hkind⟩ := h send List.mem_cons_self
    rw [List.map_cons, List.flatMap_cons]
    rcases hkind with hkind | ⟨hkind, hshort⟩
    · have hdata : send.opCode < 3 := by rcases hkind with ⟨h, _⟩ | h <;> rw [h] <;> decide
      rw [Send.events, if_pos hdata]
      exact .whole hkind rfl hlength hrest
    · have hcontrol : ¬ send.opCode < 3 := by rcases hkind with h | h <;> rw [h] <;> decide
      rw [Send.events, if_neg hcontrol]
      exact .control hkind rfl hshort hlength hrest

theorem feed_sends (hmax : maxPayloadLength < 2 ^ 32) {sends : List Send}
    (h : ∀ send ∈ sends, send.Welcome maxPayloadLength) (before : List Event) :
    Reader.feed isServer maxPayloadLength ⟨before, some (.head [], ⟨[], true, [], []⟩)⟩
        (sends.flatMap (Send.format (!isServer))) =
      ⟨before ++ sends.flatMap Send.events, some (.head [], ⟨[], true, [], []⟩)⟩ := by
  have hbytes : sends.flatMap (Send.format (!isServer)) =
      (sends.map fun send => (⟨true, send.opCode, send.mask, send.data⟩ : Frame)).flatMap
        (Frame.bytes isServer) := by
    rw [List.flatMap_map]
    apply List.flatMap_congr
    intro send _
    rw [Send.format, formatMessage_eq, Bool.not_not]
  rw [hbytes]
  exact feed_conforms hmax (conforms_sends h) rfl before

/-- What one end formats the other end reads, in both directions. -/
theorem receive_sends (hmax : maxPayloadLength < 2 ^ 32) {sends : List Send}
    (h : ∀ send ∈ sends, send.Welcome maxPayloadLength) {chunks : List Bytes}
    (hchunks : chunks.flatten = sends.flatMap (Send.format (!isServer))) (mask : Mask) :
    ∃ socket, receive isServer maxPayloadLength chunks (.initial mask) = .ok socket ∧
      socket.events = sends.flatMap Send.events ∧ socket.broken = false := by
  obtain ⟨socket, hsocket, hread, _⟩ := receive_reader isServer maxPayloadLength chunks mask
  rw [hchunks, feed_sends isServer hmax h, List.nil_append] at hread
  refine ⟨socket, hsocket, congrArg Reader.events hread, ?_⟩
  rw [← broken_eq_session isServer, hread]
  rfl

def sampleSends : List Send :=
  [⟨.text, [0xc3, 0xa9], fun _ => 7⟩, ⟨.ping, [1], fun _ => 9⟩, ⟨.binary, [0xff], fun _ => 0⟩]

theorem sampleSends_welcome : ∀ send ∈ sampleSends, send.Welcome 16384 := by
  simp [sampleSends, Send.Welcome]
  decide

theorem receive_sends_sample :
    ∃ socket, receive true 16384
        ((sampleSends.flatMap (Send.format false)).map fun byte => [byte])
        (.initial fun _ => 0) = .ok socket ∧
      socket.events = [.message .text [0xc3, 0xa9], .ping [1], .message .binary [0xff]] ∧
      socket.broken = false :=
  receive_sends true (by decide) sampleSends_welcome (by decide) _

theorem length_formatLength (length : Nat) :
    (formatLength isServer length).length =
      if length < 126 then 1 else if length ≤ 65535 then 3 else 9 := by
  unfold formatLength
  simp only
  by_cases hshort : length < 126
  · rw [if_pos hshort, if_pos hshort, List.length_singleton]
  · rw [if_neg hshort, if_neg hshort]
    split <;> rw [List.length_cons, length_swappedBytes]

/-- The buffer for a frame of the server is filled exactly. -/
theorem length_formatMessage (mask : Mask) (data : Bytes) (opCode : OpCode) (compressed : Bool) :
    (formatMessage true mask data opCode data.length compressed).length =
      messageFrameSize data.length := by
  unfold formatMessage
  rw [if_pos rfl, List.cons_append, List.length_cons, List.length_append, length_formatLength,
    messageFrameSize]
  split
  · omega
  · split <;> omega

/-! Close frames. -/

theorem parse_format {code : UInt16} (hcode : ¬ (code = 0 ∨ code = 1005 ∨ code = 1006))
    (message : Bytes) :
    parseClosePayload (formatClosePayload code message) =
      if WireCode code ∧ message.ValidUtf8 then ⟨code, message⟩ else ⟨1006, []⟩ := by
  have hformat : formatClosePayload code message = swappedBytes 2 code.toNat ++ message := by
    rw [formatClosePayload, if_pos (by simpa using hcode)]
  have hlength : 2 ≤ (swappedBytes 2 code.toNat ++ message).length := by
    rw [List.length_append, length_swappedBytes]
    exact Nat.le_add_right _ _
  have hdrop : (swappedBytes 2 code.toNat ++ message).drop 2 = message :=
    List.drop_left' (length_swappedBytes _ _)
  have hread : UInt16.ofNat (swappedCast ((swappedBytes 2 code.toNat ++ message).take 2)) = code := by
    rw [take_swappedBytes, swappedCast_swappedBytes code.toNat_lt, UInt16.ofNat_toNat]
  rw [hformat, parseClosePayload_eq hlength hread, hdrop]

theorem parse_format_none {code : UInt16} (hcode : code = 0 ∨ code = 1005 ∨ code = 1006)
    (message : Bytes) : parseClosePayload (formatClosePayload code message) = ⟨1005, []⟩ := by
  rcases hcode with rfl | rfl | rfl <;> rfl

/-- The payload that `end` sends: a reason is cut at 123 bytes, wherever a character ends. -/
def closePayload (code : UInt16) (message : Bytes) : Bytes :=
  formatClosePayload code (message.take 123)

/-- What a peer makes of the payload that `end` sends. -/
theorem parse_closePayload (code : UInt16) (message : Bytes) :
    parseClosePayload (closePayload code message) =
      if code = 0 ∨ code = 1005 ∨ code = 1006 then ⟨1005, []⟩
      else if WireCode code ∧ Bytes.ValidUtf8 (message.take 123) then ⟨code, message.take 123⟩
      else ⟨1006, []⟩ := by
  unfold closePayload
  split
  · rename_i hcode
    exact parse_format_none hcode _
  · rename_i hcode
    exact parse_format hcode _

theorem length_closePayload (code : UInt16) (message : Bytes) :
    (closePayload code message).length ≤ 125 := by
  unfold closePayload formatClosePayload
  split
  · rw [List.length_append, length_swappedBytes, List.length_take]
    omega
  · exact Nat.zero_le _

/-- A close frame is echoed, one without a code or with a payload that is refused by one
without a code. -/
theorem parse_echo {src : Bytes} (h : src.length ≤ 125) :
    parseClosePayload
        (closePayload (parseClosePayload src).code (parseClosePayload src).message) =
      if (parseClosePayload src).code = 1006 then ⟨1005, []⟩ else parseClosePayload src := by
  have hsound := parseClosePayload_sound h
  generalize parseClosePayload src = frame at hsound ⊢
  rw [parse_closePayload]
  rcases hsound with rfl | rfl | ⟨hcode, hutf, hlength⟩
  · rfl
  · rfl
  · have hnone : ¬ (frame.code = 0 ∨ frame.code = 1005 ∨ frame.code = 1006) := by
      rintro (h | h | h) <;> rw [h] at hcode <;> revert hcode <;> decide
    have habnormal : frame.code ≠ 1006 := fun h => hnone (.inr (.inr h))
    rw [if_neg hnone, if_neg habnormal, List.take_of_length_le hlength, if_pos ⟨hcode, hutf⟩]

theorem feed_close (isServer : Bool) {maxPayloadLength : Nat} {data : Bytes}
    (hshort : data.length ≤ 125) (hlength : data.length ≤ maxPayloadLength) (mask : Mask)
    (before : List Event) (rest : Bytes) :
    (⟨before, some (.head [], ⟨[], true, [], []⟩)⟩ : Reader).feed isServer maxPayloadLength
        (formatMessage (!isServer) mask data .close data.length false ++ rest) =
      ⟨before ++ [.close (parseClosePayload data)], none⟩ := by
  have hlegal : (⟨true, .close, mask, data⟩ : Frame).Legal :=
    ⟨.inr (.inr (.inr (.inl rfl))), by change data.length < 2 ^ 64; omega, fun _ => ⟨rfl, hshort⟩⟩
  have hopen : ∀ src, getOpCode src = OpCode.close → openFrame src [] true = some (.close, []) := by
    intro src hcode
    simp [openFrame, hcode, OpCode.close]
  rw [formatMessage_eq, Bool.not_not, Frame.feed_bytes hlegal hlength hopen (Nat.zero_le _)]
  exact Reader.feed_closed rest

theorem receive_close (isServer : Bool) {maxPayloadLength : Nat} {data : Bytes}
    (hshort : data.length ≤ 125) (hlength : data.length ≤ maxPayloadLength) {mask : Mask}
    {chunks : List Bytes}
    (hchunks : chunks.flatten = formatMessage (!isServer) mask data .close data.length false)
    (memory : Mask) :
    ∃ socket, receive isServer maxPayloadLength chunks (.initial memory) = .ok socket ∧
      socket.events = [.close (parseClosePayload data)] ∧ socket.broken = true := by
  obtain ⟨socket, hsocket, hread, _⟩ := receive_reader isServer maxPayloadLength chunks memory
  have hfed := feed_close isServer hshort hlength mask [] []
  rw [List.append_nil, ← hchunks, ← hread] at hfed
  refine ⟨socket, hsocket, congrArg Reader.events hfed, ?_⟩
  rw [← broken_eq_session isServer, hfed]
  rfl

/-- The closing handshake, whatever the client puts into its close frame and however the
bytes arrive: both ends come to the same code and reason, where a code of 1006 tells the
server that it refused the payload. -/
theorem close_handshake {maxPayloadLength : Nat} (hmax : 125 ≤ maxPayloadLength) {data : Bytes}
    (hshort : data.length ≤ 125) {mask : Mask} {question answer : List Bytes}
    (hquestion : question.flatten = formatMessage false mask data .close data.length false)
    (hanswer : answer.flatten =
      let frame := parseClosePayload data
      let payload := closePayload frame.code frame.message
      formatMessage true mask payload .close payload.length false) (memory : Mask) :
    ∃ server client,
      receive true maxPayloadLength question (.initial memory) = .ok server ∧
        server.events = [.close (parseClosePayload data)] ∧
        receive false maxPayloadLength answer (.initial memory) = .ok client ∧
        client.events = [.close (if (parseClosePayload data).code = 1006 then ⟨1005, []⟩
          else parseClosePayload data)] ∧
        server.broken = true ∧ client.broken = true := by
  obtain ⟨server, hserver, hserverEvents, hserverBroken⟩ :=
    receive_close true hshort (hshort.trans hmax) hquestion memory
  have hpayload := length_closePayload (parseClosePayload data).code (parseClosePayload data).message
  obtain ⟨client, hclient, hclientEvents, hclientBroken⟩ :=
    receive_close false hpayload (hpayload.trans hmax) hanswer memory
  rw [parse_echo hshort] at hclientEvents
  exact ⟨server, client, hserver, hserverEvents, hclient, hclientEvents, hserverBroken,
    hclientBroken⟩

/-- The client leaves with the code 1000 and a reason. -/
theorem close_handshake_sample :
    ∃ server client,
      receive true 16384
          ((formatMessage false (fun _ => 7) [3, 232, 98] .close 3 false).map fun byte => [byte])
          (.initial fun _ => 0) = .ok server ∧
        server.events = [.close ⟨1000, [98]⟩] ∧
        receive false 16384 [formatMessage true (fun _ => 7) [3, 232, 98] .close 3 false]
          (.initial fun _ => 0) = .ok client ∧
        client.events = [.close ⟨1000, [98]⟩] ∧ server.broken = true ∧ client.broken = true := by
  have hparse : parseClosePayload [3, 232, 98] = ⟨1000, [98]⟩ := by decide
  have hquestion :
      ((formatMessage false (fun _ => 7) [3, 232, 98] .close 3 false).map
        fun byte => [byte]).flatten =
        formatMessage false (fun _ => 7) [3, 232, 98] .close 3 false := by
    decide
  have hanswer : [formatMessage true (fun _ => 7) [3, 232, 98] .close 3 false].flatten =
      let frame := parseClosePayload [3, 232, 98]
      let payload := closePayload frame.code frame.message
      formatMessage true (fun _ => 7) payload .close payload.length false := by
    rw [hparse]
    decide
  have h := close_handshake (by decide : 125 ≤ 16384) (by decide : [3, 232, 98].length ≤ 125)
    hquestion hanswer fun _ => 0
  rw [hparse, if_neg (by decide)] at h
  exact h

end MarketServer.UWS

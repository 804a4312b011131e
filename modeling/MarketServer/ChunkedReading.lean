import MarketServer.FrameReader
import MarketServer.Library.Stream

/-! The reader of the source does what the machine for single bytes does, in whatever
pieces the data of a connection arrive. -/
namespace MarketServer.UWS
open Library

namespace WebSocketData

/-- What stands in front of the control frame in the buffer, and the control frame. -/
def assembly (socket : WebSocketData) : Assembly where
  opStack := socket.state.opStack
  lastFin := socket.state.lastFin
  pending := socket.fragmentBuffer.take (socket.fragmentBuffer.length - socket.controlTipLength)
  control := socket.fragmentBuffer.drop (socket.fragmentBuffer.length - socket.controlTipLength)

def phase (isServer : Bool) (socket : WebSocketData) : Phase :=
  if socket.state.wantsHead then .head socket.state.spill
  else
    .body (socket.state.opStack.headD 0) socket.state.remainingBytes
      (if isServer then socket.state.mask else fun _ => 0)

def reader (isServer : Bool) (socket : WebSocketData) : Reader where
  events := socket.events
  session := if socket.broken then none else some (socket.phase isServer, socket.assembly)

theorem reader_of_broken {isServer : Bool} {socket : WebSocketData} (h : socket.broken = true) :
    socket.reader isServer = ⟨socket.events, none⟩ := by
  simp [reader, h]

theorem reader_of_open {isServer : Bool} {socket : WebSocketData} (h : socket.broken = false) :
    socket.reader isServer = ⟨socket.events, some (socket.phase isServer, socket.assembly)⟩ := by
  simp [reader, h]

/-- The frame that is open belongs on top of the stack, and a control frame is short and
in one piece. -/
structure InFrame (opCode : OpCode) (below : List OpCode) (remaining : Nat)
    (socket : WebSocketData) : Prop where
  opStack : socket.state.opStack = opCode :: below
  below : ∀ opCode ∈ below, opCode < 3
  tip_le : socket.controlTipLength ≤ socket.fragmentBuffer.length
  data : opCode < 3 → socket.controlTipLength = 0
  control : ¬ opCode < 3 → socket.state.lastFin = true ∧ socket.controlTipLength + remaining ≤ 125

/-- What holds of an open socket before and after every piece of data. -/
structure Ready (isServer : Bool) (maxPayloadLength : Nat) (socket : WebSocketData) : Prop where
  unbroken : socket.broken = false
  opStack : socket.state.opStack.length ≤ 2
  pending : socket.assembly.pending.length ≤ maxPayloadLength
  head : socket.state.wantsHead = true →
    socket.controlTipLength = 0 ∧ (∀ opCode ∈ socket.state.opStack, opCode < 3) ∧
      Incomplete isServer socket.state.spill
  body : socket.state.wantsHead = false →
    socket.state.spill = [] ∧ 0 < socket.state.remainingBytes ∧
      socket.state.remainingBytes ≤ maxPayloadLength ∧
      ∃ opCode below, socket.InFrame opCode below socket.state.remainingBytes

end WebSocketData

section

variable {maxPayloadLength : Nat} {socket : WebSocketData} {opCode : OpCode} {data : Bytes}

open WebSocketData

theorem append_of_data (hdata : opCode < 3) (htip : socket.controlTipLength = 0) :
    socket.assembly.append maxPayloadLength opCode data =
      if maxPayloadLength < data.length + socket.fragmentBuffer.length then none
      else some { socket.assembly with pending := socket.fragmentBuffer ++ data } := by
  simp [Assembly.append, assembly, hdata, htip, Nat.add_comm]

/-- A piece that does not end its frame is kept. -/
theorem handleFragment_piece (maxPayloadLength : Nat) {remaining : Nat} {below : List OpCode} (fin : Bool)
    (hremaining : 0 < remaining)
    (hframe : socket.InFrame opCode below (data.length + remaining)) :
    match socket.assembly.append maxPayloadLength opCode data with
    | none => socket.handleFragment maxPayloadLength data remaining opCode fin =
        (true, socket.forceClose errTooBigMessage)
    | some assembly => ∃ next,
        socket.handleFragment maxPayloadLength data remaining opCode fin = (false, next) ∧
          next.state = socket.state ∧ next.broken = socket.broken ∧ next.events = socket.events ∧
          next.assembly = assembly ∧ next.InFrame opCode below remaining := by
  have hne : remaining ≠ 0 := hremaining.ne'
  unfold handleFragment
  by_cases hdata : opCode < 3
  · have htip := hframe.data hdata
    rw [append_of_data hdata htip]
    simp only [hdata, if_true, hne, false_and, if_false]
    by_cases hbig : maxPayloadLength < data.length + socket.fragmentBuffer.length
    · simp [hbig]
    · simp only [hbig, if_false]
      refine ⟨_, rfl, rfl, rfl, rfl, ?_, hframe.opStack, hframe.below, ?_, fun _ => htip,
        fun h => absurd hdata h⟩
      · simp [assembly, htip]
      · simp [htip]
  · obtain ⟨hfin, hlength⟩ := hframe.control hdata
    have htip := hframe.tip_le
    simp only [Assembly.append, hdata, if_false, hne, false_and]
    refine ⟨_, rfl, rfl, rfl, rfl, ?_, hframe.opStack, hframe.below, ?_, fun h => absurd h hdata,
      fun _ => ⟨hfin, ?_⟩⟩
    · simp only [assembly, List.length_append]
      rw [Nat.add_sub_add_right, List.take_append_of_le_length (by omega),
        List.drop_append_of_le_length (by omega)]
    · simp only [List.length_append]
      omega
    · simp only
      omega

/-- What the last piece of a frame leaves: a socket that is broken, or one that is ready
for the next header. -/
def Ends (expected : Reader) (socket : WebSocketData) : Bool × WebSocketData → Prop
  | (true, next) => next.broken = true ∧ expected = ⟨next.events, none⟩
  | (false, next) => next.state = socket.state ∧ next.broken = false ∧ next.controlTipLength = 0 ∧
      expected = ⟨next.events, some (.head [], (next.popOpCode socket.state.lastFin).assembly)⟩

/-- Between control frames the whole buffer waits for the rest of its message. -/
theorem assembly_of_no_tip (htip : socket.controlTipLength = 0) :
    socket.assembly = ⟨socket.state.opStack, socket.state.lastFin, socket.fragmentBuffer, []⟩ := by
  have hall : socket.fragmentBuffer.take socket.fragmentBuffer.length = socket.fragmentBuffer :=
    List.take_length
  simp [assembly, htip]

theorem popOpCode_spill (fin : Bool) : (socket.popOpCode fin).state.spill = socket.state.spill := by
  cases fin <;> rfl

theorem popOpCode_events (fin : Bool) : (socket.popOpCode fin).events = socket.events := by
  cases fin <;> rfl

theorem popOpCode_wantsHead (fin : Bool) :
    (socket.popOpCode fin).state.wantsHead = socket.state.wantsHead := by
  cases fin <;> rfl

/-- Ready for the next header. -/
theorem ends_of_events {expected : Reader} {next : WebSocketData} (hbroken : next.broken = false)
    (hstate : next.state = socket.state) (htip : next.controlTipLength = 0)
    (hexpected : expected = ⟨next.events, some (.head [],
      ⟨if socket.state.lastFin then socket.state.opStack.tail else socket.state.opStack,
        socket.state.lastFin, next.fragmentBuffer, []⟩)⟩) :
    Ends expected socket (false, next) := by
  refine ⟨hstate, hbroken, htip, hexpected.trans ?_⟩
  rw [assembly_of_no_tip (by cases socket.state.lastFin <;> exact htip)]
  cases hfin : socket.state.lastFin <;> simp [popOpCode, setState, hstate, hfin]

theorem handleMessage_ends (data : Bytes) (next : WebSocketData) (hdata : opCode < 3)
    (hbroken : next.broken = false) (hstate : next.state = socket.state)
    (hfin : socket.state.lastFin = true) (htip : next.controlTipLength = 0) :
    Ends
      (Reader.complete opCode next.events ⟨socket.state.opStack, true, data, []⟩) socket
      (match next.handleMessage opCode data with
      | (true, next) => (true, next)
      | (false, next) => (false, { next with fragmentBuffer := [] })) := by
  unfold handleMessage Reader.complete
  simp only [hdata, if_true]
  split
  · exact ⟨rfl, rfl⟩
  · refine ends_of_events hbroken hstate htip ?_
    simp [emit, hfin]

theorem handleControl_ends (data : Bytes) (next : WebSocketData) (rest : Nat) (hcontrol : ¬ opCode < 3)
    (hbroken : next.broken = false) (hstate : next.state = socket.state)
    (hfin : socket.state.lastFin = true) :
    Ends
      (Reader.complete opCode next.events
        ⟨socket.state.opStack, true, next.fragmentBuffer.take rest, data⟩)
      socket
      (match next.handleControl opCode data with
      | (true, next) => (true, next)
      | (false, next) => (false, { next with
          fragmentBuffer := next.fragmentBuffer.take rest
          controlTipLength := 0 })) := by
  unfold handleControl Reader.complete Reader.controlEvents
  simp only [hcontrol, if_false]
  by_cases hclose : opCode = .close
  · simp only [hclose, if_true]
    exact ⟨rfl, rfl⟩
  · simp only [hclose, if_false]
    split
    · exact ends_of_events hbroken hstate rfl (by simp [emit, hfin])
    · split
      · exact ends_of_events hbroken hstate rfl (by simp [emit, hfin])
      · exact ends_of_events hbroken hstate rfl (by simp [hfin])

theorem handleMessage_of_empty (hempty : socket.fragmentBuffer = []) :
    socket.handleMessage opCode data =
      match socket.handleMessage opCode data with
      | (true, next) => (true, next)
      | (false, next) => (false, { next with fragmentBuffer := [] }) := by
  unfold handleMessage
  split
  · rfl
  · simp [emit, ← hempty]

theorem handleControl_of_no_tip (htip : socket.controlTipLength = 0) :
    socket.handleControl opCode data =
      match socket.handleControl opCode data with
      | (true, next) => (true, next)
      | (false, next) => (false, { next with
          fragmentBuffer := next.fragmentBuffer.take socket.fragmentBuffer.length
          controlTipLength := 0 }) := by
  have hall : socket.fragmentBuffer.take socket.fragmentBuffer.length = socket.fragmentBuffer :=
    List.take_length
  unfold handleControl
  split
  · rfl
  · split
    · simp [emit, hall, ← htip]
    · split <;> simp [emit, hall, ← htip]

/-- The last piece of a frame. -/
theorem handleFragment_last {below : List OpCode} (hbroken : socket.broken = false)
    (hlength : data.length ≤ maxPayloadLength)
    (hframe : socket.InFrame opCode below data.length) :
    Ends
      (Reader.finish opCode socket.events (socket.assembly.append maxPayloadLength opCode data))
      socket (socket.handleFragment maxPayloadLength data 0 opCode socket.state.lastFin) := by
  unfold handleFragment
  by_cases hdata : opCode < 3
  · have htip := hframe.data hdata
    rw [append_of_data hdata htip, assembly_of_no_tip htip]
    have hends := handleMessage_ends (socket.fragmentBuffer ++ data)
      { socket with fragmentBuffer := socket.fragmentBuffer ++ data } hdata hbroken rfl
    cases hfin : socket.state.lastFin with
    | true =>
      by_cases hempty : socket.fragmentBuffer = []
      · -- the message was never in the buffer
        have hfits : ¬ maxPayloadLength < data.length + ([] : Bytes).length :=
          Nat.not_lt.mpr hlength
        simp only [hdata, hempty, hfits, if_true, if_false, true_and, List.nil_append]
        rw [handleMessage_of_empty hempty]
        exact handleMessage_ends data socket hdata hbroken rfl hfin htip
      · by_cases hbig : maxPayloadLength < data.length + socket.fragmentBuffer.length
        · simp only [hdata, hempty, hbig, if_true, if_false, and_false]
          exact ⟨rfl, rfl⟩
        · simp only [hdata, hempty, hbig, if_true, if_false, and_false, true_and]
          exact hends hfin htip
    | false =>
      by_cases hbig : maxPayloadLength < data.length + socket.fragmentBuffer.length
      · simp only [hdata, hbig, if_true, if_false, false_and, and_false, Bool.false_eq_true]
        exact ⟨rfl, rfl⟩
      · simp only [hdata, hbig, if_true, if_false, false_and, and_false, Bool.false_eq_true]
        refine ends_of_events hbroken rfl htip ?_
        simp [Reader.finish, Reader.complete, hdata, hfin]
  · obtain ⟨hfin, _⟩ := hframe.control hdata
    have htip := hframe.tip_le
    have happend : socket.assembly.append maxPayloadLength opCode data =
        some ⟨socket.state.opStack, true, socket.assembly.pending,
          socket.assembly.control ++ data⟩ := by
      simp [Assembly.append, hdata, assembly, hfin]
    rw [happend, hfin]
    by_cases hnone : socket.controlTipLength = 0
    · simp only [hdata, hnone, if_true, if_false, true_and]
      rw [assembly_of_no_tip hnone, List.nil_append, handleControl_of_no_tip hnone]
      have hends := handleControl_ends data socket socket.fragmentBuffer.length
        hdata hbroken rfl hfin
      rwa [List.take_length] at hends
    · have hrest : (socket.fragmentBuffer ++ data).length -
          (socket.controlTipLength + data.length) =
            socket.fragmentBuffer.length - socket.controlTipLength := by
        rw [List.length_append, Nat.add_sub_add_right]
      have hends := handleControl_ends (socket.assembly.control ++ data)
        { socket with
          fragmentBuffer := socket.fragmentBuffer ++ data
          controlTipLength := socket.controlTipLength + data.length }
        (socket.fragmentBuffer.length - socket.controlTipLength) hdata hbroken rfl hfin
      rw [List.take_append_of_le_length (by omega)] at hends
      simp only [hdata, hnone, if_true, if_false, true_and, and_false]
      rw [hrest, List.drop_append_of_le_length (by omega)]
      exact hends

end

/-! Whole frames. -/

section

variable {isServer : Bool} {maxPayloadLength : Nat} {socket : WebSocketData} {src : Bytes}

open WebSocketData

theorem unmask_zero (data : Bytes) : unmask (fun _ => 0) data = data := by
  apply List.ext_getElem (by simp [unmask])
  intro i hi hi'
  simp [unmask]

theorem length_unmask (mask : Mask) (data : Bytes) : (unmask mask data).length = data.length := by
  simp [unmask]

theorem unmask_of_mask {mask : Mask} (data : Bytes) :
    (if isServer then unmask mask data else data) =
      unmask (if isServer then mask else fun _ => 0) data := by
  cases isServer with
  | true => rfl
  | false => exact (unmask_zero data).symm

/-- Between two frames. -/
structure AtHead (maxPayloadLength : Nat) (socket : WebSocketData) : Prop where
  unbroken : socket.broken = false
  opStack : socket.state.opStack.length ≤ 2
  data : ∀ opCode ∈ socket.state.opStack, opCode < 3
  pending : socket.fragmentBuffer.length ≤ maxPayloadLength
  no_tip : socket.controlTipLength = 0

/-- What is left of the data belongs to a frame that is not complete. -/
def Rests (isServer : Bool) (maxPayloadLength : Nat) (expected : Reader) (socket : WebSocketData) :
    Prop :=
  socket.reader isServer = expected ∧
    (socket.broken = false → socket.Ready isServer maxPayloadLength)

theorem rests_of_broken {expected : Reader} (hbroken : socket.broken = true)
    (hexpected : expected = ⟨socket.events, none⟩) :
    Rests isServer maxPayloadLength expected socket :=
  ⟨(reader_of_broken hbroken).trans hexpected.symm, fun h => absurd (hbroken.symm.trans h) (by decide)⟩

/-- A control frame is not in parts, and short. -/
theorem control_header (hvalid : invalidHead src = false) (hcontrol : ¬ getOpCode src < 3) :
    isFin src = true ∧ payloadSize src ≤ 125 := by
  have hlarge : getOpCode src > 2 := by
    rw [gt_iff_lt, UInt8.lt_iff_toNat_lt]
    rw [UInt8.lt_iff_toNat_lt] at hcontrol
    exact Nat.not_lt.mp hcontrol
  obtain ⟨hfin, hshort⟩ : isFin src = true ∧ payloadLength src ≤ 125 := by
    simp only [invalidHead, hlarge, decide_true, Bool.true_and, Bool.or_eq_false_iff,
      Bool.not_eq_false', decide_eq_false_iff_not] at hvalid
    exact ⟨hvalid.2.1, UInt8.not_lt.mp hvalid.2.2⟩
  refine ⟨hfin, ?_⟩
  rw [UInt8.le_iff_toNat_le] at hshort
  have hless : payloadLength src < 126 := by
    rw [UInt8.lt_iff_toNat_lt]
    exact Nat.lt_succ_of_le hshort
  rw [payloadSize, if_pos hless]
  exact hshort

/-- The frame that a header opens. -/
theorem openFrame_spec {opStack below : List OpCode} {lastFin : Bool} {opCode : OpCode}
    (hstack : opStack.length ≤ 2) (hdata : ∀ opCode ∈ opStack, opCode < 3)
    (hvalid : invalidHead src = false) (hopen : openFrame src opStack lastFin = some (opCode, below)) :
    below.length ≤ 1 ∧ (∀ opCode ∈ below, opCode < 3) ∧
      (¬ opCode < 3 → isFin src = true ∧ payloadSize src ≤ 125) := by
  unfold openFrame at hopen
  split at hopen
  · split at hopen
    · cases hopen
    · rename_i hstarts
      push Not at hstarts
      cases hopen
      exact ⟨by omega, hdata, control_header hvalid⟩
  · cases opStack with
    | nil => cases hopen
    | cons first rest =>
      cases hopen
      refine ⟨Nat.le_of_succ_le_succ hstack, fun other h => hdata other (List.mem_cons_of_mem _ h),
        fun hcontrol => absurd (hdata _ List.mem_cons_self) hcontrol⟩

/-- A frame that ends leaves no more of its message than there was. -/
theorem pending_complete {opCode : OpCode} {events : List Event} {assembly next : Assembly}
    {phase : Phase} (h : (Reader.complete opCode events assembly).session = some (phase, next)) :
    next.pending.length ≤ assembly.pending.length := by
  by_cases hdata : opCode < 3
  · cases hfin : assembly.lastFin with
    | true =>
      simp only [Reader.complete, hdata, hfin, if_true] at h
      split at h
      · cases h
      · cases h
        exact Nat.zero_le _
    | false =>
      simp only [Reader.complete, hdata, hfin, if_true] at h
      cases h
      exact le_rfl
  · simp only [Reader.complete, hdata, if_false] at h
    split at h
    · cases h
    · cases h
      exact le_rfl

/-- What is known after the last piece of a frame. -/
theorem frame_ends (socket : WebSocketData) {opCode : OpCode} {below : List OpCode} {data : Bytes}
    (hbroken : socket.broken = false) (hlength : data.length ≤ maxPayloadLength)
    (hpending : socket.assembly.pending.length ≤ maxPayloadLength) (hbelow : below.length ≤ 1)
    (hframe : socket.InFrame opCode below data.length) :
    let expected := Reader.finish opCode socket.events
      (socket.assembly.append maxPayloadLength opCode data)
    match socket.handleFragment maxPayloadLength data 0 opCode socket.state.lastFin with
    | (true, next) => next.broken = true ∧ expected = ⟨next.events, none⟩
    | (false, next) => next.state = socket.state ∧
        AtHead maxPayloadLength (next.popOpCode socket.state.lastFin) ∧
        expected =
          ⟨next.events, some (.head [], (next.popOpCode socket.state.lastFin).assembly)⟩ := by
  intro expected
  have hends := handleFragment_last hbroken hlength hframe
  change Ends expected _ _ at hends
  cases h : socket.handleFragment maxPayloadLength data 0 opCode socket.state.lastFin with
  | mk broken next =>
    rw [h] at hends
    cases broken with
    | true => exact hends
    | false =>
      obtain ⟨hstate, hopen, htip, hexpected⟩ := hends
      have hnone : (next.popOpCode socket.state.lastFin).controlTipLength = 0 := by
        cases socket.state.lastFin <;> exact htip
      have hstack : (next.popOpCode socket.state.lastFin).state.opStack =
          if socket.state.lastFin then below else opCode :: below := by
        cases socket.state.lastFin with
        | true =>
          change next.state.opStack.tail = below
          rw [hstate, hframe.opStack, List.tail_cons]
        | false =>
          change next.state.opStack = opCode :: below
          rw [hstate, hframe.opStack]
      refine ⟨hstate, ⟨?_, ?_, ?_, ?_, hnone⟩, hexpected⟩
      · cases socket.state.lastFin <;> exact hopen
      · rw [hstack]
        cases socket.state.lastFin with
        | true => exact hbelow.trans (by decide)
        | false => exact Nat.succ_le_succ hbelow
      · rw [hstack]
        cases hfin : socket.state.lastFin with
        | true => exact hframe.below
        | false =>
          have hdata : opCode < 3 := by
            by_contra hcontrol
            have hlast := (hframe.control hcontrol).1
            rw [hfin] at hlast
            cases hlast
          intro other hmem
          rcases List.mem_cons.mp hmem with rfl | hmem
          · exact hdata
          · exact hframe.below other hmem
      · have hbuffer : (next.popOpCode socket.state.lastFin).assembly.pending =
            (next.popOpCode socket.state.lastFin).fragmentBuffer := by
          rw [assembly_of_no_tip hnone]
        rw [← hbuffer]
        unfold expected at hexpected
        cases happend : socket.assembly.append maxPayloadLength opCode data with
        | none =>
          rw [happend] at hexpected
          cases congrArg Reader.session hexpected
        | some kept =>
          rw [happend] at hexpected
          exact (pending_complete (congrArg Reader.session hexpected)).trans
            (Reader.pending_append hpending happend)

/-- The socket with the frame of a header on its stack. -/
def opened (src : Bytes) (opCode : OpCode) (below : List OpCode) (socket : WebSocketData) :
    WebSocketData :=
  socket.setState fun state => { state with opStack := opCode :: below, lastFin := isFin src }

theorem inFrame_opened {opCode : OpCode} {below : List OpCode} {count : Nat}
    (htip : socket.controlTipLength = 0) (hbelow : ∀ opCode ∈ below, opCode < 3)
    (hcontrol : ¬ opCode < 3 → isFin src = true ∧ payloadSize src ≤ 125)
    (hcount : count ≤ payloadSize src) :
    (opened src opCode below socket).InFrame opCode below count where
  opStack := rfl
  below := hbelow
  tip_le := htip.le.trans (Nat.zero_le _)
  data := fun _ => htip
  control h := by
    refine ⟨(hcontrol h).1, ?_⟩
    change socket.controlTipLength + count ≤ 125
    rw [htip, Nat.zero_add]
    exact hcount.trans (hcontrol h).2

theorem payload_unmasked (payload : Bytes) :
    (if isServer then unmask (maskOf (headerLength isServer src) src) payload else payload) =
      unmask (frameMask isServer src) payload :=
  unmask_of_mask payload

theorem AtHead.setState (change : WebSocketState → WebSocketState)
    (h : AtHead maxPayloadLength socket)
    (hchange : (change socket.state).opStack = socket.state.opStack) :
    AtHead maxPayloadLength (socket.setState change) :=
  ⟨h.unbroken, hchange ▸ h.opStack, hchange ▸ h.data, h.pending, h.no_tip⟩

theorem WebSocketData.InFrame.setState {opCode : OpCode} {below : List OpCode} {remaining : Nat}
    {change : WebSocketState → WebSocketState} (h : socket.InFrame opCode below remaining)
    (hstack : (change socket.state).opStack = socket.state.opStack)
    (hfin : (change socket.state).lastFin = socket.state.lastFin) :
    (socket.setState change).InFrame opCode below remaining :=
  ⟨hstack.trans h.opStack, h.below, h.tip_le, h.data,
    fun hcontrol => ⟨hfin.trans (h.control hcontrol).1, (h.control hcontrol).2⟩⟩

/-- Data that end within a payload. The mask has to be in place for the rest of it. -/
theorem frame_rests (isServer : Bool) {opCode : OpCode} {below : List OpCode} {data : Bytes}
    (remaining : Nat) (fin : Bool) (socket : WebSocketData) (hbroken : socket.broken = false) (hwants : socket.state.wantsHead = false)
    (hspill : socket.state.spill = []) (hrest : socket.state.remainingBytes = remaining)
    (hremaining : 0 < remaining) (hmax : remaining ≤ maxPayloadLength)
    (hpending : socket.assembly.pending.length ≤ maxPayloadLength) (hbelow : below.length ≤ 1)
    (hframe : socket.InFrame opCode below (data.length + remaining)) :
    let expected (mask : Mask) := Reader.pause opCode remaining
      (if isServer then mask else fun _ => 0) socket.events
      (socket.assembly.append maxPayloadLength opCode data)
    ∃ broken next,
      socket.handleFragment maxPayloadLength data remaining opCode fin = (broken, next) ∧
        (broken = true → ∀ mask, Rests isServer maxPayloadLength (expected mask) next) ∧
        (broken = false → next.state = socket.state ∧
          ∀ mask, Rests isServer maxPayloadLength (expected mask)
            (next.setState fun state => { state with mask })) := by
  intro expected
  have hpiece := handleFragment_piece maxPayloadLength fin hremaining hframe
  unfold expected
  cases happend : socket.assembly.append maxPayloadLength opCode data with
  | none =>
    rw [happend] at hpiece
    exact ⟨_, _, hpiece, fun _ mask => rests_of_broken rfl rfl, fun h => absurd h (by decide)⟩
  | some kept =>
    rw [happend] at hpiece
    obtain ⟨next, hhandled, hstate, hopen, hevents, hkept, hnext⟩ := hpiece
    refine ⟨_, _, hhandled, fun h => absurd h (by decide),
      fun _ => ⟨hstate, fun mask => ⟨?_, fun _ => ?_⟩⟩⟩
    · have hunbroken : (next.setState fun state => { state with mask }).broken = false :=
        hopen.trans hbroken
      have hphase : (next.setState fun state => { state with mask }).phase isServer =
          .body opCode remaining (if isServer then mask else fun _ => 0) := by
        simp [phase, setState, hstate, hwants, hrest, hframe.opStack]
      rw [reader_of_open hunbroken, hphase]
      exact congrArg₂ (fun events kept => Reader.mk events (some (_, kept))) hevents hkept
    · have hnextPending : next.assembly.pending.length ≤ maxPayloadLength :=
        hkept ▸ Reader.pending_append hpending happend
      refine ⟨hopen.trans hbroken, ?_, hnextPending, fun h => ?_, fun _ => ?_⟩
      · change next.state.opStack.length ≤ 2
        rw [hnext.opStack]
        exact Nat.succ_le_succ hbelow
      · change next.state.wantsHead = true at h
        rw [hstate, hwants] at h
        cases h
      · change next.state.spill = [] ∧ 0 < next.state.remainingBytes ∧ _
        rw [hstate, hrest]
        refine ⟨hspill, hremaining, ?_, opCode, below, ?_⟩
        · change next.state.remainingBytes ≤ maxPayloadLength
          rw [hstate, hrest]
          exact hmax
        · change (next.setState fun state => { state with mask }).InFrame opCode below
            next.state.remainingBytes
          rw [hstate, hrest]
          exact hnext.setState rfl rfl

/-- The opened socket with what is left of its payload. -/
def paused (isServer : Bool) (remainingBytes : Nat) (mask : Mask) (socket : WebSocketData) :
    WebSocketData :=
  socket.setState fun state =>
    { state with
      spill := []
      wantsHead := false
      remainingBytes
      mask := if isServer then mask else state.mask }

theorem opened_rests (isServer : Bool) {opCode : OpCode} {below : List OpCode} (data : Bytes) (mask : Mask)
    (hhead : AtHead maxPayloadLength socket) (hbelow : below.length ≤ 1)
    (hdata : ∀ opCode ∈ below, opCode < 3)
    (hcontrol : ¬ opCode < 3 → isFin src = true ∧ payloadSize src ≤ 125)
    (hlength : data.length < payloadSize src) (hmax : payloadSize src ≤ maxPayloadLength) :
    Rests isServer maxPayloadLength
      (Reader.pause opCode (payloadSize src - data.length) (if isServer then mask else fun _ => 0)
        socket.events ((opened src opCode below socket).assembly.append maxPayloadLength opCode data))
      ((paused isServer (payloadSize src - data.length) mask
        (opened src opCode below socket)).handleFragment maxPayloadLength data
          (payloadSize src - data.length) opCode (isFin src)).2 := by
  have hpending : (opened src opCode below socket).assembly.pending.length ≤ maxPayloadLength := by
    have htip : (opened src opCode below socket).controlTipLength = 0 := hhead.no_tip
    rw [assembly_of_no_tip htip]
    exact hhead.pending
  obtain ⟨broken, next, hhandled, hstops, hrests⟩ := frame_rests isServer
    (payloadSize src - data.length) (isFin src)
    (paused isServer (payloadSize src - data.length) mask (opened src opCode below socket)) hhead.unbroken rfl rfl rfl (Nat.sub_pos_of_lt hlength) ((Nat.sub_le _ _).trans hmax) hpending hbelow
    ((inFrame_opened hhead.no_tip hdata hcontrol (Nat.add_sub_of_le hlength.le).le).setState rfl rfl)
  rw [hhandled]
  cases broken with
  | true => exact hstops rfl mask
  | false =>
    obtain ⟨hstate, hnext⟩ := hrests rfl
    have hmask : (if isServer then next.state.mask else fun _ => 0) =
        if isServer then mask else fun _ => 0 := by
      rw [hstate]
      cases isServer <;> rfl
    have hself := hnext next.state.mask
    simp only [hmask] at hself
    exact hself

/-- One frame of the data, or what there is of it. -/
theorem consumeMessage_spec (hhead : AtHead maxPayloadLength socket)
    (hlength : headerLength isServer src ≤ src.length) (hvalid : invalidHead src = false) :
    let expected : Reader := (⟨socket.events, some (.head [], socket.assembly)⟩ : Reader).feed
      isServer maxPayloadLength src
    match consumeMessage isServer maxPayloadLength (headerLength isServer src) (payloadSize src)
        src socket with
    | (true, _, next) => Rests isServer maxPayloadLength expected next
    | (false, rest, next) => AtHead maxPayloadLength next ∧ next.state.spill = [] ∧
        next.state.wantsHead = socket.state.wantsHead ∧ rest.length < src.length ∧
        expected = (⟨next.events, some (.head [], next.assembly)⟩ : Reader).feed isServer
          maxPayloadLength rest := by
  intro expected
  unfold consumeMessage
  have hfeed : expected = _ := Reader.feed_frame hlength hvalid
  have hopenFrame : openFrame src socket.assembly.opStack socket.assembly.lastFin =
      openFrame src socket.state.opStack socket.state.lastFin := rfl
  rw [hopenFrame] at hfeed
  cases hopen : openFrame src socket.state.opStack socket.state.lastFin with
  | none =>
    rw [hopen] at hfeed
    exact rests_of_broken rfl hfeed
  | some frame =>
    obtain ⟨opCode, below⟩ := frame
    obtain ⟨hbelow, hdata, hcontrol⟩ := openFrame_spec hhead.opStack hhead.data hvalid hopen
    have hopened : (socket.setState fun state =>
        { state with opStack := opCode :: below, lastFin := isFin src }) =
          opened src opCode below socket := rfl
    rw [hopen] at hfeed
    simp only [payload_unmasked, hopened] at hfeed ⊢
    by_cases hbig : maxPayloadLength < payloadSize src
    · rw [if_pos hbig] at hfeed ⊢
      exact rests_of_broken rfl hfeed
    · rw [if_neg hbig] at hfeed ⊢
      change expected = (Reader.advance opCode (payloadSize src) (frameMask isServer src)
        socket.events (opened src opCode below socket).assembly).feed isServer maxPayloadLength
          (src.drop (headerLength isServer src)) at hfeed
      have hevents : (opened src opCode below socket).events = socket.events := rfl
      have hpending : (opened src opCode below socket).assembly.pending.length ≤
          maxPayloadLength := by
        have htip : (opened src opCode below socket).controlTipLength = 0 := hhead.no_tip
        rw [assembly_of_no_tip htip]
        exact hhead.pending
      by_cases hwhole : payloadSize src + headerLength isServer src ≤ src.length
      · have hlen : payloadSize src ≤ (src.drop (headerLength isServer src)).length := by
          rw [List.length_drop]
          omega
        have htake : (unmask (frameMask isServer src)
            ((src.drop (headerLength isServer src)).take (payloadSize src))).length =
              payloadSize src := by
          rw [length_unmask, List.length_take_of_le hlen]
        have hends := frame_ends (opened src opCode below socket)
          hhead.unbroken
          (htake.le.trans (Nat.not_lt.mp hbig)) hpending hbelow
          (inFrame_opened hhead.no_tip hdata hcontrol htake.le)
        rw [Reader.feed_whole hlen hpending, List.drop_drop] at hfeed
        rw [if_pos hwhole]
        cases hhandled : (opened src opCode below socket).handleFragment maxPayloadLength
          (unmask (frameMask isServer src)
            ((src.drop (headerLength isServer src)).take (payloadSize src))) 0 opCode
          (isFin src) with
        | mk broken next =>
          have hlast : (opened src opCode below socket).state.lastFin = isFin src := rfl
          rw [hlast, hhandled] at hends
          cases broken with
          | true =>
            obtain ⟨hbroken, hexpected⟩ := hends
            refine rests_of_broken hbroken (hfeed.trans ?_)
            rw [← hevents, hexpected]
            exact Reader.feed_closed _
          | false =>
            obtain ⟨hstate, hnext, hexpected⟩ := hends
            have hshort := shortMessageHeader_le_headerLength isServer src
            have htwo := two_le_shortMessageHeader isServer
            refine ⟨hnext.setState _ rfl, rfl, ?_, ?_, hfeed.trans ?_⟩
            · change (next.popOpCode (isFin src)).state.wantsHead = _
              rw [popOpCode_wantsHead, hstate]
              rfl
            · rw [List.length_drop]
              omega
            · rw [← hevents, hexpected, Nat.add_comm (payloadSize src)]
              cases isFin src <;> rfl
      · have hlen : (src.drop (headerLength isServer src)).length < payloadSize src := by
          rw [List.length_drop]
          omega
        have hremaining : payloadSize src + headerLength isServer src - src.length =
            payloadSize src - (src.drop (headerLength isServer src)).length := by
          rw [List.length_drop]
          omega
        rw [Reader.feed_part hlen hpending] at hfeed
        have hrests := opened_rests isServer
          (unmask (frameMask isServer src) (src.drop (headerLength isServer src)))
          (Reader.shiftMask (src.drop (headerLength isServer src)).length
            (maskOf (headerLength isServer src) src))
          hhead hbelow hdata hcontrol (by rwa [length_unmask]) (Nat.not_lt.mp hbig)
        rw [length_unmask] at hrests
        rw [if_neg hwhole, hremaining]
        have hmask : (if isServer then
            Reader.shiftMask (src.drop (headerLength isServer src)).length
              (maskOf (headerLength isServer src) src) else fun _ => 0) =
            Reader.shiftMask (src.drop (headerLength isServer src)).length (frameMask isServer src) := by
          cases isServer <;> rfl
        rw [hmask, ← hfeed] at hrests
        exact hrests

/-- The three kinds of header in one. -/
theorem parseNext_succ (passes : Nat) :
    parseNext isServer maxPayloadLength (passes + 1) src socket =
      if src.length < shortMessageHeader isServer then spillRest src socket
      else if invalidHead src then socket.forceClose []
      else if src.length < headerLength isServer src then spillRest src socket
      else
        match consumeMessage isServer maxPayloadLength (headerLength isServer src) (payloadSize src)
          src socket with
        | (true, _, socket) => socket
        | (false, src, socket) => parseNext isServer maxPayloadLength passes src socket := by
  rw [parseNext]
  unfold headerLength payloadSize
  split
  · rfl
  · split
    · rfl
    · split
      · rfl
      · split <;> rfl

theorem spillRest_eq (hspill : src = [] → socket.state.spill = []) :
    spillRest src socket = socket.setState fun state => { state with spill := src } := by
  unfold spillRest
  cases src with
  | nil =>
    obtain ⟨⟨wantsHead, spill, opStack, lastFin, remainingBytes, mask⟩, _⟩ := socket
    have hempty : spill = [] := hspill rfl
    rw [hempty]
    rfl
  | cons byte rest => rfl

theorem spillRest_rests (hhead : AtHead maxPayloadLength socket)
    (hwants : socket.state.wantsHead = true) (hspill : src = [] → socket.state.spill = [])
    (hincomplete : Incomplete isServer src) :
    Rests isServer maxPayloadLength
      ((⟨socket.events, some (.head [], socket.assembly)⟩ : Reader).feed isServer maxPayloadLength src)
      (spillRest src socket) := by
  rw [spillRest_eq hspill, Reader.feed_head [] hincomplete, List.nil_append]
  refine ⟨?_, fun _ => ⟨hhead.unbroken, hhead.opStack, ?_, fun _ => ?_, fun h => ?_⟩⟩
  · have hphase : (socket.setState fun state => { state with spill := src }).phase isServer =
        .head src := by
      simp [phase, setState, hwants]
    have hunbroken : (socket.setState fun state => { state with spill := src }).broken = false :=
      hhead.unbroken
    rw [reader_of_open hunbroken, hphase]
    rfl
  · change socket.assembly.pending.length ≤ maxPayloadLength
    rw [assembly_of_no_tip hhead.no_tip]
    exact hhead.pending
  · exact ⟨hhead.no_tip, hhead.data, hincomplete⟩
  · exact absurd (hwants.symm.trans h) (by decide)

/-- The induction is on the passes: every frame takes a byte at least. -/
theorem parseNext_rests (isServer : Bool) (src : Bytes) {passes : Nat} (hpasses : src.length ≤ passes)
    (hhead : AtHead maxPayloadLength socket) (hwants : socket.state.wantsHead = true)
    (hspill : src = [] → socket.state.spill = []) :
    Rests isServer maxPayloadLength
      ((⟨socket.events, some (.head [], socket.assembly)⟩ : Reader).feed isServer maxPayloadLength src)
      (parseNext isServer maxPayloadLength passes src socket) := by
  induction passes generalizing src socket with
  | zero =>
    obtain rfl : src = [] := List.eq_nil_of_length_eq_zero (Nat.le_zero.mp hpasses)
    have htwo := two_le_shortMessageHeader isServer
    exact spillRest_rests hhead hwants hspill (.inl (Nat.lt_of_lt_of_le (by decide) htwo))
  | succ passes ih =>
    rw [parseNext_succ]
    by_cases hshort : src.length < shortMessageHeader isServer
    · rw [if_pos hshort]
      exact spillRest_rests hhead hwants hspill (.inl hshort)
    · rw [if_neg hshort]
      cases hvalid : invalidHead src with
      | true =>
        rw [if_pos rfl, Reader.feed_invalid (Nat.not_lt.mp hshort) hvalid]
        exact rests_of_broken rfl rfl
      | false =>
        rw [if_neg (by decide)]
        by_cases hlength : src.length < headerLength isServer src
        · rw [if_pos hlength]
          exact spillRest_rests hhead hwants hspill (.inr ⟨hvalid, hlength⟩)
        · rw [if_neg hlength]
          have hspec := consumeMessage_spec hhead (Nat.not_lt.mp hlength) hvalid
          cases hconsumed : consumeMessage isServer maxPayloadLength (headerLength isServer src)
            (payloadSize src) src socket with
          | mk stops rest =>
            rw [hconsumed] at hspec
            cases stops with
            | true => exact hspec
            | false =>
              obtain ⟨hnext, hempty, hnextWants, hless, hexpected⟩ := hspec
              rw [hexpected]
              exact ih _ (by omega) hnext (hnextWants.trans hwants) fun _ => hempty

theorem reader_of_head (hready : socket.Ready isServer maxPayloadLength)
    (hwants : socket.state.wantsHead = true) (data : Bytes) :
    (socket.reader isServer).feed isServer maxPayloadLength data =
      (⟨socket.events, some (.head [], socket.assembly)⟩ : Reader).feed isServer maxPayloadLength
        (socket.state.spill ++ data) := by
  have hphase : socket.phase isServer = .head socket.state.spill := by simp [phase, hwants]
  rw [Reader.feed_append, Reader.feed_head [] (hready.head hwants).2.2,
    reader_of_open hready.unbroken, hphase, List.nil_append]

theorem reader_of_body {opCode : OpCode} {below : List OpCode}
    (hready : socket.Ready isServer maxPayloadLength) (hwants : socket.state.wantsHead = false)
    (hframe : socket.InFrame opCode below socket.state.remainingBytes) :
    socket.reader isServer =
      Reader.advance opCode socket.state.remainingBytes
        (if isServer then socket.state.mask else fun _ => 0) socket.events socket.assembly := by
  have hphase : socket.phase isServer = .body opCode socket.state.remainingBytes
      (if isServer then socket.state.mask else fun _ => 0) := by
    simp [phase, hwants, hframe.opStack]
  rw [Reader.advance, if_neg (hready.body hwants).2.1.ne', reader_of_open hready.unbroken, hphase]

theorem shiftMask_of_server (count : Nat) (mask : Mask) :
    (if isServer then Reader.shiftMask count mask else fun _ => 0) =
      Reader.shiftMask count (if isServer then mask else fun _ => 0) := by
  cases isServer <;> rfl

theorem shiftMask_of_server_or (count : Nat) (mask other : Mask) :
    (if isServer then (if isServer then Reader.shiftMask count mask else other) else fun _ => 0) =
      Reader.shiftMask count (if isServer then mask else fun _ => 0) := by
  cases isServer <;> rfl

/-- The mask is only turned when it has to be. -/
theorem rotateMask_of_server (count : Nat) :
    (if isServer ∧ count % 4 ≠ 0 then
      socket.setState fun state => { state with mask := rotateMask (4 - count % 4) state.mask }
    else socket) =
      socket.setState fun state =>
        { state with
          mask := if isServer then Reader.shiftMask count socket.state.mask else socket.state.mask } := by
  cases isServer with
  | false => rfl
  | true =>
    by_cases hcount : count % 4 = 0
    · simp [hcount, Reader.shiftMask_of_mod hcount, setState]
    · simp [hcount, Reader.shiftMask, setState]

/-- The rest of a payload, and the frames behind it. -/
theorem consumeContinuation_rests (src : Bytes) (hready : socket.Ready isServer maxPayloadLength)
    (hwants : socket.state.wantsHead = false) :
    ∃ stops rest next, consumeContinuation isServer maxPayloadLength src socket =
        .ok (stops, rest, next) ∧
      Rests isServer maxPayloadLength ((socket.reader isServer).feed isServer maxPayloadLength src)
        (if stops then parseNext isServer maxPayloadLength rest.length rest next else next) := by
  obtain ⟨hspill, hremaining, hmax, opCode, below, hframe⟩ := hready.body hwants
  have hbelow : below.length ≤ 1 := by
    have hle := hready.opStack
    rw [hframe.opStack] at hle
    exact Nat.le_of_succ_le_succ hle
  unfold consumeContinuation
  simp only [hframe.opStack, unmask_of_mask]
  rw [reader_of_body hready hwants hframe]
  by_cases hwhole : socket.state.remainingBytes ≤ src.length
  · rw [if_pos hwhole, Reader.feed_whole hwhole hready.pending]
    have htake : (unmask (if isServer then socket.state.mask else fun _ => 0)
        (src.take socket.state.remainingBytes)).length = socket.state.remainingBytes := by
      rw [length_unmask, List.length_take_of_le hwhole]
    have hends := frame_ends socket hready.unbroken (htake.le.trans hmax) hready.pending hbelow
      (htake ▸ hframe)
    cases hhandled : socket.handleFragment maxPayloadLength
      (unmask (if isServer then socket.state.mask else fun _ => 0)
        (src.take socket.state.remainingBytes)) 0 opCode socket.state.lastFin with
    | mk broken next =>
      rw [hhandled] at hends
      cases broken with
      | true =>
        obtain ⟨hbroken, hexpected⟩ := hends
        refine ⟨_, _, _, rfl, rests_of_broken hbroken ?_⟩
        rw [hexpected]
        exact Reader.feed_closed _
      | false =>
        obtain ⟨hstate, hnext, hexpected⟩ := hends
        have hrestSpill : (next.popOpCode socket.state.lastFin).state.spill = [] := by
          rw [popOpCode_spill, hstate, hspill]
        have hparsed := parseNext_rests isServer (src.drop socket.state.remainingBytes) le_rfl
          (hnext.setState (fun state => { state with wantsHead := true }) rfl) rfl
          (fun _ => hrestSpill)
        refine ⟨_, _, _, rfl, ?_⟩
        rw [hexpected, ← popOpCode_events socket.state.lastFin]
        exact hparsed
  · rw [if_neg hwhole, Reader.feed_part (Nat.not_le.mp hwhole) hready.pending]
    have hlength := length_unmask (if isServer then socket.state.mask else fun _ => 0) src
    obtain ⟨broken, next, hhandled, hstops, hrests⟩ := frame_rests isServer
      (socket.state.remainingBytes - src.length) socket.state.lastFin
      (socket.setState fun state =>
        { state with remainingBytes := socket.state.remainingBytes - src.length })
      hready.unbroken hwants hspill rfl (Nat.sub_pos_of_lt (Nat.not_le.mp hwhole))
      ((Nat.sub_le _ _).trans hmax) hready.pending hbelow
      (InFrame.setState (by rwa [hlength, Nat.add_sub_of_le (Nat.not_le.mp hwhole).le]) rfl rfl)
    rw [hhandled]
    cases broken with
    | true =>
      have hnext := hstops rfl (Reader.shiftMask src.length socket.state.mask)
      simp only [shiftMask_of_server] at hnext
      exact ⟨_, _, _, rfl, hnext⟩
    | false =>
      obtain ⟨hstate, hnext⟩ := hrests rfl
      have hmask := hnext (if isServer then Reader.shiftMask src.length next.state.mask
        else next.state.mask)
      simp only [shiftMask_of_server_or, hstate] at hmask
      refine ⟨_, _, _, rfl, ?_⟩
      rw [rotateMask_of_server]
      simp only [hstate]
      exact hmask

/-- What one piece of data preserves. -/
theorem consume_rests (hready : socket.Ready isServer maxPayloadLength) (data : Bytes) :
    ∃ next, consume isServer maxPayloadLength data socket = .ok next ∧
      Rests isServer maxPayloadLength ((socket.reader isServer).feed isServer maxPayloadLength data)
        next := by
  cases hwants : socket.state.wantsHead with
  | true =>
    obtain ⟨htip, hdata, _⟩ := hready.head hwants
    have hpending := hready.pending
    rw [assembly_of_no_tip htip] at hpending
    refine ⟨_, by rw [consume, if_pos hwants], ?_⟩
    rw [reader_of_head hready hwants]
    exact parseNext_rests isServer _ le_rfl ⟨hready.unbroken, hready.opStack, hdata, hpending, htip⟩
      hwants fun hempty => (List.append_eq_nil_iff.mp hempty).1
  | false =>
    obtain ⟨stops, rest, next, hconsumed, hrests⟩ := consumeContinuation_rests data hready hwants
    have hspill := (hready.body hwants).1
    unfold consume
    rw [if_neg (by simp [hwants]), hspill, List.nil_append, hconsumed]
    cases stops with
    | true => exact ⟨_, rfl, hrests⟩
    | false => exact ⟨_, rfl, hrests⟩

theorem onData_rests (hready : socket.broken = false → socket.Ready isServer maxPayloadLength)
    (data : Bytes) :
    ∃ next, onData isServer maxPayloadLength data socket = .ok next ∧
      Rests isServer maxPayloadLength ((socket.reader isServer).feed isServer maxPayloadLength data)
        next := by
  unfold onData
  cases hbroken : socket.broken with
  | true =>
    rw [reader_of_broken hbroken, Reader.feed_closed]
    exact ⟨socket, rfl, rests_of_broken hbroken rfl⟩
  | false =>
    rw [if_neg (by decide)]
    exact consume_rests (hready hbroken) data

/-- What any number of pieces preserves. -/
theorem receive_rests (hready : socket.broken = false → socket.Ready isServer maxPayloadLength)
    (chunks : List Bytes) :
    ∃ next, receive isServer maxPayloadLength chunks socket = .ok next ∧
      Rests isServer maxPayloadLength
        ((socket.reader isServer).feed isServer maxPayloadLength chunks.flatten) next := by
  obtain ⟨next, hnext, hkept, hread⟩ := Stream.foldlM_simulates
    (Reader.readByte isServer maxPayloadLength)
    (fun socket data => onData isServer maxPayloadLength data socket)
    (WebSocketData.reader isServer)
    (fun hready data => by
      obtain ⟨next, hnext, hrests⟩ := onData_rests hready data
      exact ⟨next, hnext, hrests.2, hrests.1⟩) chunks hready
  exact ⟨next, hnext, hread, hkept⟩

theorem ready_initial (mask : Mask) : (initial mask).Ready isServer maxPayloadLength where
  unbroken := rfl
  opStack := Nat.zero_le _
  pending := Nat.zero_le _
  head _ := ⟨rfl, fun _ h => absurd h List.not_mem_nil,
    .inl (Nat.lt_of_lt_of_le Nat.two_pos (two_le_shortMessageHeader isServer))⟩
  body h := absurd h Bool.noConfusion

variable (isServer maxPayloadLength)

/-- The reader of the source refines the machine for single bytes. -/
theorem receive_reader (chunks : List Bytes) (mask : Mask) :
    ∃ socket, receive isServer maxPayloadLength chunks (initial mask) = .ok socket ∧
      socket.reader isServer = Reader.feed isServer maxPayloadLength
        ⟨[], some (.head [], ⟨[], true, [], []⟩)⟩ chunks.flatten ∧
      (socket.broken = false → socket.Ready isServer maxPayloadLength) :=
  receive_rests (fun _ => ready_initial mask) chunks

theorem broken_eq_session : (socket.reader isServer).session.isNone = socket.broken := by
  cases hbroken : socket.broken <;> simp [reader, hbroken]

theorem receive_congr {chunks pieces : List Bytes} (h : chunks.flatten = pieces.flatten)
    (mask mask' : Mask) :
    ∃ socket other, receive isServer maxPayloadLength chunks (initial mask) = .ok socket ∧
      receive isServer maxPayloadLength pieces (initial mask') = .ok other ∧
      socket.events = other.events ∧ socket.broken = other.broken := by
  obtain ⟨socket, hsocket, hread, _⟩ := receive_reader isServer maxPayloadLength chunks mask
  obtain ⟨other, hother, hreadOther, _⟩ := receive_reader isServer maxPayloadLength pieces mask'
  have hsame := hread.trans ((congrArg _ h).trans hreadOther.symm)
  refine ⟨socket, other, hsocket, hother, congrArg Reader.events hsame, ?_⟩
  rw [← broken_eq_session isServer, ← broken_eq_session isServer, hsame]

/-- Neither the pieces a connection's data arrive in nor what is in memory at its start can
be seen in what is handed on, for any limit that the reader of the source can have (below
2^32). -/
theorem receive_flatten (chunks : List Bytes) (mask mask' : Mask) :
    ∃ socket whole, receive isServer maxPayloadLength chunks (initial mask) = .ok socket ∧
      receive isServer maxPayloadLength [chunks.flatten] (initial mask') = .ok whole ∧
      socket.events = whole.events ∧ socket.broken = whole.broken :=
  receive_congr isServer maxPayloadLength (by simp) mask mask'

end

end MarketServer.UWS

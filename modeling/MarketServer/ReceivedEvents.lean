import MarketServer.ChunkedReading

/-! What a peer can make the reader of frames hand on, whatever it sends. -/
namespace MarketServer.UWS

/-- The codes a close frame may carry. -/
def WireCode (code : UInt16) : Prop :=
  1000 ≤ code ∧ code ≤ 1003 ∨ 1007 ≤ code ∧ code ≤ 1011 ∨ 4000 ≤ code ∧ code ≤ 4999

instance (code : UInt16) : Decidable (WireCode code) := inferInstanceAs (Decidable (_ ∨ _))

/-- A close frame as `parseClosePayload` leaves it: 1005 and 1006 stand for a payload that
has no code and one that is refused. -/
def CloseFrame.Sound (frame : CloseFrame) : Prop :=
  frame = ⟨1005, []⟩ ∨ frame = ⟨1006, []⟩ ∨
    WireCode frame.code ∧ frame.message.ValidUtf8 ∧ frame.message.length ≤ 123

def Event.Sound (maxPayloadLength : Nat) : Event → Prop
  | .message opCode data => (opCode = .text ∧ data.ValidUtf8 ∨ opCode = .binary) ∧
      data.length ≤ maxPayloadLength
  | .ping data => data.length ≤ 125
  | .pong => True
  | .close frame => frame.Sound
  | .forceClose _ => True

/-- The events that end a connection. -/
def Event.ends : Event → Bool
  | .close _ | .forceClose _ => true
  | .message _ _ | .ping _ | .pong => false

theorem wireCode_iff (code : UInt16) :
    WireCode code ↔ ¬ (code < 1000 ∨ code > 4999 ∨ code > 1011 ∧ code < 4000 ∨
      code ≥ 1004 ∧ code ≤ 1006) := by
  simp only [WireCode, gt_iff_lt, ge_iff_le, UInt16.lt_iff_toNat_lt, UInt16.le_iff_toNat_le,
    UInt16.reduceToNat]
  omega

/-- Codes and reasons that may not be on the wire are refused. -/
theorem parseClosePayload_eq {src : Bytes} {code : UInt16} (h : 2 ≤ src.length)
    (hcode : UInt16.ofNat (swappedCast (src.take 2)) = code) :
    parseClosePayload src =
      if WireCode code ∧ Bytes.ValidUtf8 (src.drop 2) then ⟨code, src.drop 2⟩ else ⟨1006, []⟩ := by
  have hutf : isValidUtf8 (src.drop 2) = true ↔ Bytes.ValidUtf8 (src.drop 2) :=
    isValidUtf8From_iff le_rfl
  have hrefused : (code < 1000 ∨ code > 4999 ∨ (code > 1011 ∧ code < 4000) ∨
      (code ≥ 1004 ∧ code ≤ 1006) ∨ !isValidUtf8 (src.drop 2)) ↔
        ¬ (WireCode code ∧ Bytes.ValidUtf8 (src.drop 2)) := by
    rw [wireCode_iff, ← hutf, Bool.not_eq_true', ← Bool.not_eq_true]
    tauto
  rw [parseClosePayload, if_pos h]
  simp only [hcode, hrefused, ite_not]

theorem parseClosePayload_sound {src : Bytes} (h : src.length ≤ 125) :
    (parseClosePayload src).Sound := by
  by_cases hlength : 2 ≤ src.length
  · rw [parseClosePayload_eq hlength rfl]
    split
    · rename_i hvalid
      refine .inr (.inr ⟨hvalid.1, hvalid.2, ?_⟩)
      rw [List.length_drop]
      omega
    · exact .inr (.inl rfl)
  · rw [parseClosePayload, if_neg hlength]
    exact .inl rfl

/-- Messages that are not complete. -/
def Parts (opStack : List OpCode) : Prop := ∀ opCode ∈ opStack, opCode = .text ∨ opCode = .binary

namespace Reader

/-- What holds within a frame. -/
def FrameSound (maxPayloadLength : Nat) (opCode : OpCode) (remaining : Nat) (assembly : Assembly) :
    Prop :=
  assembly.pending.length ≤ maxPayloadLength ∧
    ∃ below, assembly.opStack = opCode :: below ∧ Parts below ∧
      ((opCode = .text ∨ opCode = .binary) ∧ assembly.control = [] ∨
        ¬ opCode < 3 ∧ assembly.lastFin = true ∧ assembly.control.length + remaining ≤ 125)

/-- What holds between two bytes. -/
def SessionSound (maxPayloadLength : Nat) : Phase × Assembly → Prop
  | (.head _, assembly) => Parts assembly.opStack ∧ assembly.control = [] ∧
      assembly.pending.length ≤ maxPayloadLength
  | (.body opCode remaining _, assembly) =>
      0 < remaining ∧ FrameSound maxPayloadLength opCode remaining assembly

/-- Nothing ended the connection so far. -/
def OpenEvents (maxPayloadLength : Nat) (events : List Event) : Prop :=
  ∀ event ∈ events, event.Sound maxPayloadLength ∧ event.ends = false

def Sound (maxPayloadLength : Nat) (reader : Reader) : Prop :=
  match reader.session with
  | some session => OpenEvents maxPayloadLength reader.events ∧ SessionSound maxPayloadLength session
  | none => ∃ before last, reader.events = before ++ [last] ∧ OpenEvents maxPayloadLength before ∧
      last.Sound maxPayloadLength ∧ last.ends = true

variable {isServer : Bool} {maxPayloadLength : Nat} {events : List Event} {assembly : Assembly}
  {opCode : OpCode}

theorem sound_fail {event : Event} (hevents : OpenEvents maxPayloadLength events)
    (hevent : event.Sound maxPayloadLength) (hends : event.ends = true) :
    (fail event events).Sound maxPayloadLength :=
  ⟨events, event, rfl, hevents, hevent, hends⟩

theorem OpenEvents.append {more : List Event} (hevents : OpenEvents maxPayloadLength events)
    (hmore : OpenEvents maxPayloadLength more) : OpenEvents maxPayloadLength (events ++ more) :=
  fun event h => (List.mem_append.mp h).elim (hevents event) (hmore event)

theorem openEvents_controlEvents {data : Bytes} (h : data.length ≤ 125) :
    OpenEvents maxPayloadLength (controlEvents opCode data) := by
  intro event hevent
  unfold controlEvents at hevent
  split at hevent
  · obtain rfl := List.mem_singleton.mp hevent
    exact ⟨h, rfl⟩
  · split at hevent
    · obtain rfl := List.mem_singleton.mp hevent
      exact ⟨trivial, rfl⟩
    · cases hevent

theorem sound_complete (hevents : OpenEvents maxPayloadLength events)
    (h : FrameSound maxPayloadLength opCode 0 assembly) :
    (complete opCode events assembly).Sound maxPayloadLength := by
  obtain ⟨hpending, below, hstack, hbelow, hframe⟩ := h
  rcases hframe with ⟨hdata, hcontrol⟩ | ⟨hcontrol, hfin, hlength⟩
  · have hless : opCode < 3 := by rcases hdata with rfl | rfl <;> decide
    unfold complete
    simp only [hless, if_true]
    cases hfin : assembly.lastFin with
    | true =>
      simp only [if_true]
      split
      · exact sound_fail hevents trivial rfl
      · rename_i hvalid
        refine ⟨hevents.append fun event h => ?_, ?_, hcontrol, Nat.zero_le _⟩
        · obtain rfl := List.mem_singleton.mp h
          refine ⟨⟨hdata.imp_left fun htext => ⟨htext, ?_⟩, hpending⟩, rfl⟩
          rw [← isValidUtf8From_iff (le_refl assembly.pending.length)]
          simpa [htext, isValidUtf8] using hvalid
        · simpa [hstack] using hbelow
    | false =>
      refine ⟨hevents, ?_, hcontrol, hpending⟩
      intro other hother
      rw [if_neg (by decide), hstack] at hother
      rcases List.mem_cons.mp hother with rfl | hother
      · exact hdata
      · exact hbelow other hother
  · unfold complete
    simp only [hcontrol, if_false, hfin, if_true]
    split
    · exact sound_fail hevents (parseClosePayload_sound hlength) rfl
    · refine ⟨hevents.append (openEvents_controlEvents hlength), ?_, rfl, hpending⟩
      simpa [hstack] using hbelow

theorem sound_advance (hevents : OpenEvents maxPayloadLength events) {remaining : Nat} {mask : Mask}
    (h : FrameSound maxPayloadLength opCode remaining assembly) :
    (advance opCode remaining mask events assembly).Sound maxPayloadLength := by
  unfold advance
  split
  · rename_i hremaining
    subst hremaining
    exact sound_complete hevents h
  · rename_i hremaining
    exact ⟨hevents, Nat.pos_of_ne_zero hremaining, h⟩

/-- A header opens a frame of a message in parts, or a control frame within it. -/
theorem parts_openFrame {src : Bytes} {opStack below : List OpCode} {lastFin : Bool}
    (hparts : Parts opStack) (hvalid : invalidHead src = false)
    (hopen : openFrame src opStack lastFin = some (opCode, below)) :
    Parts below ∧ ((opCode = .text ∨ opCode = .binary) ∨
      ¬ opCode < 3 ∧ isFin src = true ∧ payloadSize src ≤ 125) := by
  unfold openFrame at hopen
  split at hopen
  · rename_i hstarts
    split at hopen
    · cases hopen
    · cases hopen
      refine ⟨hparts, ?_⟩
      by_cases hdata : getOpCode src < 3
      · left
        have hnonzero : (getOpCode src).toNat ≠ 0 := fun h => hstarts (UInt8.toNat_inj.mp h)
        have hless : (getOpCode src).toNat < 3 := UInt8.lt_iff_toNat_lt.mp hdata
        have hcases : (getOpCode src).toNat = 1 ∨ (getOpCode src).toNat = 2 := by omega
        exact hcases.imp UInt8.toNat_inj.mp UInt8.toNat_inj.mp
      · exact .inr ⟨hdata, control_header hvalid hdata⟩
  · cases opStack with
    | nil => cases hopen
    | cons first rest =>
      cases hopen
      exact ⟨fun other h => hparts other (List.mem_cons_of_mem _ h),
        .inl (hparts _ List.mem_cons_self)⟩

theorem sound_readHead {src : Bytes} (hevents : OpenEvents maxPayloadLength events)
    (hparts : Parts assembly.opStack) (hcontrol : assembly.control = [])
    (hpending : assembly.pending.length ≤ maxPayloadLength) :
    (readHead isServer maxPayloadLength src events assembly).Sound maxPayloadLength := by
  unfold readHead
  split
  · exact ⟨hevents, hparts, hcontrol, hpending⟩
  · split
    · exact sound_fail hevents trivial rfl
    · rename_i hvalid
      split
      · exact ⟨hevents, hparts, hcontrol, hpending⟩
      · cases hopen : openFrame src assembly.opStack assembly.lastFin with
        | none => exact sound_fail hevents trivial rfl
        | some frame =>
          obtain ⟨opCode, below⟩ := frame
          simp only
          split
          · exact sound_fail hevents trivial rfl
          · obtain ⟨hbelow, hframe⟩ := parts_openFrame hparts (by simpa using hvalid) hopen
            refine sound_advance hevents ⟨hpending, below, rfl, hbelow, ?_⟩
            refine hframe.imp (⟨·, hcontrol⟩) fun ⟨hkind, hfin, hsize⟩ => ⟨hkind, hfin, ?_⟩
            simpa [hcontrol] using hsize

theorem sound_readBody {remaining : Nat} {mask : Mask} {byte : UInt8}
    (hevents : OpenEvents maxPayloadLength events) (hremaining : 0 < remaining)
    (h : FrameSound maxPayloadLength opCode remaining assembly) :
    (readBody maxPayloadLength opCode remaining mask byte events assembly).Sound
      maxPayloadLength := by
  obtain ⟨hpending, below, hstack, hbelow, hframe⟩ := h
  unfold readBody
  cases happend : assembly.append maxPayloadLength opCode (unmask mask [byte]) with
  | none => exact sound_fail hevents trivial rfl
  | some next =>
    have hnext := pending_append hpending happend
    unfold Assembly.append at happend
    rcases hframe with ⟨hdata, hcontrol⟩ | ⟨hkind, hfin, hlength⟩
    · have hless : opCode < 3 := by rcases hdata with rfl | rfl <;> decide
      rw [if_pos hless] at happend
      split at happend
      · cases happend
      · cases happend
        exact sound_advance hevents ⟨hnext, below, hstack, hbelow, .inl ⟨hdata, hcontrol⟩⟩
    · rw [if_neg hkind] at happend
      cases happend
      refine sound_advance hevents ⟨hnext, below, hstack, hbelow, .inr ⟨hkind, hfin, ?_⟩⟩
      rw [List.length_append, length_unmask, List.length_singleton]
      omega

theorem sound_readByte {reader : Reader} (h : reader.Sound maxPayloadLength) (byte : UInt8) :
    (reader.readByte isServer maxPayloadLength byte).Sound maxPayloadLength := by
  obtain ⟨events, session⟩ := reader
  cases session with
  | none => exact h
  | some session =>
    obtain ⟨phase, assembly⟩ := session
    obtain ⟨hevents, hsession⟩ := h
    cases phase with
    | head read => exact sound_readHead hevents hsession.1 hsession.2.1 hsession.2.2
    | body opCode remaining mask => exact sound_readBody hevents hsession.1 hsession.2

theorem sound_feed (isServer : Bool) {reader : Reader} (h : reader.Sound maxPayloadLength)
    (bytes : Bytes) :
    (reader.feed isServer maxPayloadLength bytes).Sound maxPayloadLength := by
  induction bytes generalizing reader with
  | nil => exact h
  | cons byte rest ih => exact ih (sound_readByte h byte)

/-! What was handed on stays so. -/

theorem prefix_complete (opCode : OpCode) (events : List Event) (assembly : Assembly) :
    events <+: (complete opCode events assembly).events := by
  unfold complete fail
  simp only
  split
  · split
    · split <;> exact List.prefix_append _ _
    · exact List.prefix_rfl
  · split <;> exact List.prefix_append _ _

theorem prefix_advance (opCode : OpCode) (remaining : Nat) (mask : Mask) (events : List Event)
    (assembly : Assembly) : events <+: (advance opCode remaining mask events assembly).events := by
  unfold advance
  split
  · exact prefix_complete opCode events assembly
  · exact List.prefix_rfl

theorem prefix_readByte (isServer : Bool) (maxPayloadLength : Nat) (reader : Reader) (byte : UInt8) :
    reader.events <+: (reader.readByte isServer maxPayloadLength byte).events := by
  obtain ⟨events, session⟩ := reader
  unfold readByte
  split
  · exact List.prefix_rfl
  · unfold readHead fail
    split
    · exact List.prefix_rfl
    · split
      · exact List.prefix_append _ _
      · split
        · exact List.prefix_rfl
        · split
          · exact List.prefix_append _ _
          · split
            · exact List.prefix_append _ _
            · exact prefix_advance ..
  · unfold readBody fail
    split
    · exact List.prefix_append _ _
    · exact prefix_advance ..

/-- A part of the data leads to a part of what is handed on. -/
theorem prefix_feed (isServer : Bool) (maxPayloadLength : Nat) {part whole : Bytes}
    (h : part <+: whole) (reader : Reader) :
    (reader.feed isServer maxPayloadLength part).events <+:
      (reader.feed isServer maxPayloadLength whole).events :=
  Library.Stream.prefix_of_prefix _ Reader.events (prefix_readByte isServer maxPayloadLength) h reader

end Reader

section

variable {isServer : Bool} {maxPayloadLength : Nat} {socket : WebSocketData}

theorem Incomplete.length_lt {src : Bytes} (h : Incomplete isServer src) :
    src.length < longMessageHeader isServer := by
  have hshort : shortMessageHeader isServer ≤ longMessageHeader isServer := by
    cases isServer <;> decide
  have hlong : headerLength isServer src ≤ longMessageHeader isServer := by
    unfold headerLength
    split
    · exact hshort
    · split
      · cases isServer <;> decide
      · exact le_rfl
  rcases h with h | ⟨_, h⟩
  · exact h.trans_le hshort
  · exact h.trans_le hlong

theorem tip_le_of_ready (h : socket.Ready isServer maxPayloadLength) :
    socket.controlTipLength ≤ 125 := by
  cases hwants : socket.state.wantsHead with
  | true =>
    rw [(h.head hwants).1]
    exact Nat.zero_le _
  | false =>
    obtain ⟨_, _, _, opCode, below, hframe⟩ := h.body hwants
    by_cases hdata : opCode < 3
    · rw [hframe.data hdata]
      exact Nat.zero_le _
    · exact (Nat.le_add_right _ _).trans (hframe.control hdata).2

theorem spill_lt_of_ready (h : socket.Ready isServer maxPayloadLength) :
    socket.state.spill.length < longMessageHeader isServer := by
  cases hwants : socket.state.wantsHead with
  | true => exact (h.head hwants).2.2.length_lt
  | false =>
    rw [(h.body hwants).1]
    cases isServer <;> decide

theorem fragmentBuffer_le_of_ready (h : socket.Ready isServer maxPayloadLength) :
    socket.fragmentBuffer.length ≤ maxPayloadLength + 125 := by
  have hpending := h.pending
  have htip := tip_le_of_ready h
  change (socket.fragmentBuffer.take _).length ≤ _ at hpending
  rw [List.length_take] at hpending
  omega

end

/-- What one piece of data adds to what was handed on: at most the last event ends the
connection. -/
theorem consume_events {isServer : Bool} {maxPayloadLength : Nat} {socket : WebSocketData}
    (hready : socket.Ready isServer maxPayloadLength)
    (hsound : (socket.reader isServer).Sound maxPayloadLength) (bytes : Bytes) :
    ∃ next added, consume isServer maxPayloadLength bytes socket = .ok next ∧
      next.events = socket.events ++ added ∧
      (next.broken = false ∧ Reader.OpenEvents maxPayloadLength added ∨
        next.broken = true ∧ ∃ before last, added = before ++ [last] ∧
          Reader.OpenEvents maxPayloadLength before ∧ last.Sound maxPayloadLength ∧
          last.ends = true) := by
  obtain ⟨next, hnext, hread, _⟩ := consume_rests hready bytes
  have hsoundNext := hread ▸ Reader.sound_feed isServer hsound bytes
  have hgrown : socket.events <+: next.events := by
    have h := Reader.prefix_feed isServer maxPayloadLength bytes.nil_prefix (socket.reader isServer)
    rw [← hread] at h
    exact h
  obtain ⟨added, hadded⟩ := hgrown
  refine ⟨next, added, hnext, hadded.symm, ?_⟩
  rw [WebSocketData.reader_of_open hready.unbroken] at hsound
  cases hbroken : next.broken with
  | false =>
    rw [WebSocketData.reader_of_open hbroken] at hsoundNext
    refine .inl ⟨rfl, fun event h => hsoundNext.1 event ?_⟩
    exact hadded ▸ List.mem_append_right _ h
  | true =>
    rw [WebSocketData.reader_of_broken hbroken] at hsoundNext
    obtain ⟨before, last, hevents, hbefore, hlast, hends⟩ := hsoundNext
    change next.events = before ++ [last] at hevents
    rw [← hadded] at hevents
    have hnot : last ∉ socket.events := by
      intro h
      rw [(hsound.1 last h).2] at hends
      cases hends
    refine .inr ⟨rfl, ?_⟩
    rcases List.append_eq_append_iff.mp hevents with ⟨middle, rfl, hadded⟩ | ⟨middle, hmiddle, hcut⟩
    · exact ⟨middle, last, hadded, fun event h => hbefore event (List.mem_append_right _ h), hlast,
        hends⟩
    · cases middle with
      | nil =>
        exact ⟨[], last, hcut.symm, fun _ h => absurd h List.not_mem_nil, hlast, hends⟩
      | cons event middle =>
        obtain rfl := (List.cons.inj hcut).1
        exact absurd (hmiddle ▸ List.mem_append_right before List.mem_cons_self) hnot

theorem sound_initial (isServer : Bool) (maxPayloadLength : Nat) (mask : Mask) :
    ((WebSocketData.initial mask).reader isServer).Sound maxPayloadLength :=
  ⟨fun _ h => absurd h List.not_mem_nil, fun _ h => absurd h List.not_mem_nil, rfl, Nat.zero_le _⟩

/-- What holds after any data, as long as the connection is open. -/
theorem receive_open {isServer : Bool} {maxPayloadLength : Nat} {chunks : List Bytes} {mask : Mask}
    {socket : WebSocketData}
    (h : receive isServer maxPayloadLength chunks (.initial mask) = .ok socket)
    (hbroken : socket.broken = false) :
    socket.Ready isServer maxPayloadLength ∧ (socket.reader isServer).Sound maxPayloadLength := by
  obtain ⟨reached, hreached, hread, hready⟩ := receive_reader isServer maxPayloadLength chunks mask
  rw [h] at hreached
  cases hreached
  refine ⟨hready hbroken, ?_⟩
  rw [hread]
  exact Reader.sound_feed isServer (sound_initial isServer maxPayloadLength mask) _

/-- Nothing is handed on behind the event that ends the connection. -/
theorem receive_shape {isServer : Bool} {maxPayloadLength : Nat} {chunks : List Bytes} {mask : Mask}
    {socket : WebSocketData}
    (h : receive isServer maxPayloadLength chunks (.initial mask) = .ok socket) :
    socket.broken = false ∧ Reader.OpenEvents maxPayloadLength socket.events ∨
      socket.broken = true ∧ ∃ before last, socket.events = before ++ [last] ∧
        Reader.OpenEvents maxPayloadLength before ∧ last.Sound maxPayloadLength ∧
        last.ends = true := by
  obtain ⟨reached, hreached, hread, _⟩ := receive_reader isServer maxPayloadLength chunks mask
  rw [h] at hreached
  cases hreached
  have hsound := hread ▸ Reader.sound_feed isServer
    (sound_initial isServer maxPayloadLength mask) chunks.flatten
  cases hbroken : socket.broken with
  | false =>
    rw [WebSocketData.reader_of_open hbroken] at hsound
    exact .inl ⟨rfl, hsound.1⟩
  | true =>
    rw [WebSocketData.reader_of_broken hbroken] at hsound
    exact .inr ⟨rfl, hsound⟩

theorem receive_concat {isServer : Bool} {maxPayloadLength : Nat} {chunks : List Bytes} {mask : Mask}
    {socket : WebSocketData}
    (h : receive isServer maxPayloadLength chunks (.initial mask) = .ok socket) (bytes : Bytes) :
    receive isServer maxPayloadLength (chunks ++ [bytes]) (.initial mask) =
      onData isServer maxPayloadLength bytes socket := by
  unfold receive at h ⊢
  rw [List.foldlM_append, h]
  simp only [List.foldlM_cons, List.foldlM_nil, bind_pure]
  rfl

/-- Whatever a peer sends, and in whatever pieces: text that is handed on is valid, nothing
is longer than allowed, nothing follows the event that ends the connection, and no buffer
outgrows its bound, for any limit that the reader of the source can have (below 2^32). -/
theorem receive_sound (isServer : Bool) (maxPayloadLength : Nat) (chunks : List Bytes)
    (mask : Mask) :
    ∃ socket, receive isServer maxPayloadLength chunks (.initial mask) = .ok socket ∧
      (∀ event ∈ socket.events, event.Sound maxPayloadLength) ∧
      (∀ event ∈ socket.events.dropLast, event.ends = false) ∧
      (socket.broken = true ↔ ∃ event ∈ socket.events, event.ends = true) ∧
      (socket.broken = false → socket.state.opStack.length ≤ 2 ∧
        socket.state.spill.length < longMessageHeader isServer ∧
        socket.fragmentBuffer.length ≤ maxPayloadLength + 125) := by
  obtain ⟨socket, hsocket, _, hready⟩ := receive_reader isServer maxPayloadLength chunks mask
  refine ⟨socket, hsocket, ?_⟩
  rcases receive_shape hsocket with ⟨hbroken, hevents⟩ | ⟨hbroken, before, last, hevents, hbefore,
    hlast, hends⟩
  · have hready := hready hbroken
    refine ⟨fun event h => (hevents event h).1,
      fun event h => (hevents event (List.dropLast_subset _ h)).2, ?_,
      fun _ => ⟨hready.opStack, spill_lt_of_ready hready, fragmentBuffer_le_of_ready hready⟩⟩
    rw [hbroken]
    refine ⟨fun h => absurd h (by decide), fun ⟨event, h, hends⟩ => ?_⟩
    rw [(hevents event h).2] at hends
    cases hends
  · rw [hevents, List.dropLast_concat, hbroken]
    refine ⟨fun event h => ?_, fun event h => (hbefore event h).2,
      ⟨fun _ => ⟨last, by simp, hends⟩, fun _ => rfl⟩, fun h => absurd h (by decide)⟩
    rcases List.mem_append.mp h with h | h
    · exact (hbefore event h).1
    · obtain rfl := List.mem_singleton.mp h
      exact hlast

end MarketServer.UWS

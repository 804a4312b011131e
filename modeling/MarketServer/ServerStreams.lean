import MarketServer.ServerSessions

/-! What the clients of the server get, over whole runs. Between two inputs nothing is
corked, and the stream of each client is made of whole frames of its own. -/
namespace MarketServer.UWS
open Library

/-- A part of the images of some elements are the images of a part of them. -/
theorem exists_of_subperm_map {α β : Type} {f : α → β} {images : List β} {list : List α}
    (h : images.Subperm (list.map f)) : ∃ part : List α, part.Subperm list ∧ images = part.map f := by
  obtain ⟨middle, hperm, hsublist⟩ := h
  obtain ⟨part, hpart, rfl⟩ := List.sublist_map_iff.mp hsublist
  have hmap := congrFun (congrFun (List.eq_map_comp_perm f) images) part
  obtain ⟨rest, himages, hrest⟩ := hmap.mpr hperm.symm
  exact ⟨rest, hrest.subperm.trans hpart.subperm, himages⟩

section

variable {ι : Type} [DecidableEq ι] {accepts : Nat → Nat} {maxBackpressure : Nat} {socket : ι}
  {loop : Loop ι} {message : Bytes}

/-- Nothing is corked. -/
def Loop.Idle (loop : Loop ι) : Prop := loop.corkedSocket = none ∧ loop.corkBuffer = []

/-- A message that comes between two inputs. -/
theorem send_grows (accepts : Nat → Nat) (opCode : OpCode) (hidle : loop.Idle)
    (hskips : ¬ Skips maxBackpressure socket loop) (hclosed : (loop.sockets socket).closed = false)
    (hfits : messageFrameSize message.length < corkBufferSize) :
    Grows socket (serverFrame message opCode) loop
        (send accepts maxBackpressure socket message opCode loop).2 ∧
      (send accepts maxBackpressure socket message opCode loop).2.Idle := by
  have hcorked : ({ loop.cork socket with
      corkBuffer := serverFrame message opCode } : Loop ι).corkedSocket = some socket := rfl
  obtain ⟨outcome, next, rest, hnext, hgrows, hrest, hnone, hempty⟩ :=
    uncork_grows accepts [] hcorked hclosed
  obtain rfl : rest = [] := hrest.elim id id
  rw [List.append_nil] at hgrows
  rw [send_idle hskips hidle.1 hidle.2 hfits, hnext]
  exact ⟨hgrows.of_sockets rfl rfl, hnone, hempty⟩

/-- A message to one socket after the other, where each that is sent gets into the stream of its
socket. `P` is what holds before a rest of the sockets. -/
theorem sends_induct (accepts : Nat → Nat) (maxBackpressure : Nat) (message : Bytes)
    (opCode : OpCode) {P : List ι → Loop ι → Prop}
    (hskip : ∀ {socket rest loop}, P (socket :: rest) loop → P rest loop)
    (hsend : ∀ {socket rest loop}, P (socket :: rest) loop → (loop.sockets socket).closed = false →
      ¬ Skips maxBackpressure socket loop →
      Grows socket (serverFrame message opCode) loop
          (send accepts maxBackpressure socket message opCode loop).2 ∧
        P rest (send accepts maxBackpressure socket message opCode loop).2)
    {sockets : List ι} (hnodup : sockets.Nodup) {loop : Loop ι} (hstart : P sockets loop)
    (hopen : ∀ socket ∈ sockets, (loop.sockets socket).closed = false) :
    P [] (sockets.foldl
        (fun loop socket => (send accepts maxBackpressure socket message opCode loop).2) loop) ∧
      ∀ socket, ((sockets.foldl
          (fun loop socket => (send accepts maxBackpressure socket message opCode loop).2)
          loop).sockets socket).stream =
        (loop.sockets socket).stream ++
          if socket ∈ sockets ∧ ¬ Skips maxBackpressure socket loop then serverFrame message opCode
          else [] := by
  induction sockets generalizing loop with
  | nil => exact ⟨hstart, fun socket => by simp⟩
  | cons first sockets ih =>
    obtain ⟨hfirst, hrest⟩ := List.nodup_cons.mp hnodup
    have hclosed := hopen first List.mem_cons_self
    have hsame := send_sameClosed accepts first maxBackpressure message opCode loop
    have hnext : P sockets (send accepts maxBackpressure first message opCode loop).2 ∧
        (∀ other, other ≠ first →
          (send accepts maxBackpressure first message opCode loop).2.sockets other =
            loop.sockets other) ∧
        ((send accepts maxBackpressure first message opCode loop).2.sockets first).stream =
          (loop.sockets first).stream ++
            if Skips maxBackpressure first loop then [] else serverFrame message opCode := by
      by_cases hskips : Skips maxBackpressure first loop
      · rw [send_skips hskips, if_pos hskips, List.append_nil]
        exact ⟨hskip hstart, fun _ _ => rfl, rfl⟩
      · obtain ⟨hgrows, hnext⟩ := hsend hstart hclosed hskips
        rw [if_neg hskips]
        exact ⟨hnext, hgrows.others, hgrows.stream⟩
    obtain ⟨hnext, hothers, hstream⟩ := hnext
    obtain ⟨hfinal, hstreams⟩ := ih hrest hnext fun socket hsocket =>
      (hsame socket).trans (hopen socket (List.mem_cons_of_mem _ hsocket))
    refine ⟨hfinal, fun socket => ?_⟩
    rw [List.foldl_cons, hstreams socket]
    by_cases hsocket : socket = first
    · subst hsocket
      rw [if_neg fun h => hfirst h.1, hstream]
      by_cases hskips : Skips maxBackpressure socket loop <;> simp [hskips]
    · have hskips : Skips maxBackpressure socket
          (send accepts maxBackpressure first message opCode loop).2 ↔
            Skips maxBackpressure socket loop := by
        unfold Skips
        rw [hothers socket hsocket]
      rw [hothers socket hsocket]
      simp [hskips, hsocket]

/-- A broadcast reaches the members whose buffers are not over the limit, whatever the kernel
does with the others. -/
theorem sends_stream (accepts : Nat → Nat) (maxBackpressure : Nat)
    (hfits : messageFrameSize message.length < corkBufferSize) {sockets : List ι}
    (hnodup : sockets.Nodup) {loop : Loop ι} (hidle : loop.Idle)
    (hopen : ∀ socket ∈ sockets, (loop.sockets socket).closed = false) :
    (sockets.foldl
        (fun loop socket => (send accepts maxBackpressure socket message .text loop).2) loop).Idle ∧
      ∀ socket, ((sockets.foldl
          (fun loop socket => (send accepts maxBackpressure socket message .text loop).2)
          loop).sockets socket).stream =
        (loop.sockets socket).stream ++
          if socket ∈ sockets ∧ ¬ Skips maxBackpressure socket loop then serverFrame message .text
          else [] :=
  sends_induct accepts maxBackpressure message .text (P := fun _ loop => loop.Idle) id
    (fun hidle hclosed hskips => send_grows accepts .text hidle hskips hclosed hfits) hnodup hidle
    hopen

end

theorem length_cplus : (Bytes.ofLiteral "This is Cplus").length ≤ 125 := by decide

/-- What the server writes to a client. -/
inductive Output where
  | response (head : Bytes)
  | message (opCode : OpCode) (data : Bytes)
  deriving DecidableEq

def Output.bytes : Output → Bytes
  | .response head => head
  | .message opCode data => serverFrame data opCode

/-- What is answered to what was read. -/
def Event.answers : Event → List Output
  | .message opCode _ => [.message opCode (.ofLiteral "This is Cplus")]
  | .ping data => [.message .pong data]
  | .pong => []
  | .close frame => [.message .close (closePayload frame.code frame.message)]
  | .forceClose _ => []

/-- What is read of a piece of data. -/
def Connection.reads (maxPayloadLength : Nat) (bytes : Bytes) (connection : Connection) :
    List Event :=
  if connection.isShuttingDown then []
  else
    match consume true maxPayloadLength bytes connection.reader with
    | .error _ => []
    | .ok reader => reader.events.drop connection.reader.events.length

section

variable {ι : Type} [LinearOrder ι] {accepts : Nat → Nat} {maxPayloadLength maxBackpressure : Nat}
  {server next : Server ι} {socket : ι} {base : ι → Bytes} {sent : Sent ι}

/-- What an input may add to the stream of a client. The answers to one piece of data may be
lost or change places. -/
def Adds (maxPayloadLength maxBackpressure : Nat) (socket : ι) (server : Server ι) :
    Input ι → List Output → Prop
  | .upgrade other response symbols, outputs =>
    outputs = if other = socket then [.response response, .message .text symbols] else []
  | .data other bytes, outputs =>
    outputs.Subperm
      (if other = socket then
        ((server.connections socket).reads maxPayloadLength bytes).flatMap Event.answers
      else [])
  | .broadcast message, outputs =>
    outputs =
      if socket ∈ server.wssConSet ∧ ¬ Skips maxBackpressure socket server.loop then
        [.message .text message]
      else []
  | .writable _, outputs | .gone _, outputs => outputs = []

/-- The frames of the server fit into the cork buffer. -/
def Input.Small : Input ι → Prop
  | .upgrade _ response symbols =>
    response.length + messageFrameSize symbols.length < corkBufferSize
  | .broadcast message => messageFrameSize message.length < corkBufferSize
  | .data _ _ | .writable _ | .gone _ => True

instance (input : Input ι) : Decidable input.Small :=
  match input with
  | .upgrade _ _ _ | .broadcast _ => inferInstanceAs (Decidable (_ < _))
  | .data _ _ | .writable _ | .gone _ => inferInstanceAs (Decidable True)

theorem answer_fits {message : Bytes} (h : message.length ≤ 125) :
    messageFrameSize message.length < corkBufferSize := by
  rw [messageFrameSize, if_pos (by omega), corkBufferSize]
  omega

/-- Within a handler of a socket no other socket is corked. -/
def CorkedAt (socket : ι) (loop : Loop ι) : Prop :=
  loop.corkedSocket = none ∨ loop.corkedSocket = some socket

theorem sendAnswer_accounted (accepts : Nat → Nat) (maxBackpressure : Nat) (socket : ι)
    {message : Bytes} (opCode : OpCode) (hshort : message.length ≤ 125)
    (h : Accounted base sent server.loop) (hcorked : CorkedAt socket server.loop) :
    Accounted base (sent.record socket [serverFrame message opCode])
        (WebSocket.send accepts maxBackpressure socket message opCode server).2.loop ∧
      CorkedAt socket (WebSocket.send accepts maxBackpressure socket message opCode server).2.loop := by
  obtain ⟨haccounted, hnext⟩ :=
    send_accounted accepts maxBackpressure socket opCode (answer_fits hshort) h
  refine ⟨haccounted, ?_⟩
  rcases hnext with hnone | hsame
  · exact .inl hnone
  · exact hcorked.imp hsame.trans hsame.trans

theorem loop_onClose (socket : ι) (server : Server ι) :
    (WBServer.onClose socket server).loop = server.loop := by
  unfold WBServer.onClose
  simp only
  split <;> rfl

theorem loop_close (socket : ι) (server : Server ι) :
    (WebSocketContext.close socket server).loop =
      server.loop.setSocket socket ({ · with closed := true }) := by
  unfold WebSocketContext.close
  simp only
  split
  · rfl
  · exact loop_onClose socket _

/-- To close a socket is no matter of the streams. -/
theorem stream_closed (socket : ι) (loop : Loop ι) (other : ι) :
    ((loop.setSocket socket ({ · with closed := true })).sockets other).stream =
      (loop.sockets other).stream := by
  by_cases hother : other = socket
  · subst hother
    simp [Loop.setSocket, SocketData.stream]
  · simp [Loop.setSocket, Function.update_of_ne hother]

theorem end_accounted (accepts : Nat → Nat) (maxBackpressure : Nat) (socket : ι) (frame : CloseFrame)
    (h : Accounted base sent server.loop) (hcorked : CorkedAt socket server.loop) :
    Accounted base (sent.record socket
          [serverFrame (closePayload frame.code frame.message) .close])
        (WebSocket.end_ accepts maxBackpressure socket frame.code frame.message server).loop ∧
      CorkedAt socket
        (WebSocket.end_ accepts maxBackpressure socket frame.code frame.message server).loop := by
  unfold WebSocket.end_
  split
  · exact ⟨h.lose _ socket, hcorked⟩
  · have hset : Accounted base sent
        (server.setConnection socket ({ · with isShuttingDown := true })).loop := h
    obtain ⟨haccounted, hnext⟩ := sendAnswer_accounted accepts maxBackpressure socket .close
      (length_closePayload frame.code frame.message) hset hcorked
    simp only
    generalize WebSocket.send accepts maxBackpressure socket
      (closePayload frame.code frame.message) .close
      (server.setConnection socket ({ · with isShuttingDown := true })) = result at haccounted hnext ⊢
    obtain ⟨ok, sent⟩ := result
    rw [loop_onClose]
    split
    · exact ⟨haccounted, hnext⟩
    · exact ⟨haccounted, hnext⟩

theorem handle_accounted (accepts : Nat → Nat) (maxBackpressure : Nat) (socket : ι) {event : Event}
    (hsound : event.Sound maxPayloadLength) (h : Accounted base sent server.loop)
    (hcorked : CorkedAt socket server.loop) :
    Accounted base (sent.record socket (event.answers.map Output.bytes))
        (WebSocketContext.handle accepts maxBackpressure socket server event).loop ∧
      CorkedAt socket (WebSocketContext.handle accepts maxBackpressure socket server event).loop := by
  cases event with
  | message opCode data =>
    exact sendAnswer_accounted accepts maxBackpressure socket opCode length_cplus h hcorked
  | ping data => exact sendAnswer_accounted accepts maxBackpressure socket .pong hsound h hcorked
  | pong =>
    refine ⟨?_, hcorked⟩
    rw [show Event.pong.answers.map Output.bytes = [] from rfl, record_nil]
    exact h
  | close frame => exact end_accounted accepts maxBackpressure socket frame h hcorked
  | forceClose reason =>
    change Accounted base (sent.record socket []) (WebSocketContext.close socket server).loop ∧
      CorkedAt socket (WebSocketContext.close socket server).loop
    rw [loop_close, record_nil]
    exact ⟨h.congr (stream_closed socket server.loop) ⟨rfl, rfl⟩, hcorked⟩

theorem handles_accounted (accepts : Nat → Nat) (maxBackpressure : Nat) (socket : ι)
    {events : List Event} (hsound : ∀ event ∈ events, event.Sound maxPayloadLength)
    {server : Server ι} (h : Accounted base sent server.loop) (hcorked : CorkedAt socket server.loop) :
    Accounted base (sent.record socket ((events.flatMap Event.answers).map Output.bytes))
        (events.foldl (WebSocketContext.handle accepts maxBackpressure socket) server).loop ∧
      CorkedAt socket
        (events.foldl (WebSocketContext.handle accepts maxBackpressure socket) server).loop := by
  induction events generalizing server sent with
  | nil =>
    refine ⟨?_, hcorked⟩
    rw [List.flatMap_nil, List.map_nil, record_nil]
    exact h
  | cons event events ih =>
    obtain ⟨hnext, hnextCorked⟩ := handle_accounted accepts maxBackpressure socket
      (hsound event List.mem_cons_self) h hcorked
    rw [List.flatMap_cons, List.map_append, record_append]
    exact ih (fun other hother => hsound other (List.mem_cons_of_mem _ hother)) hnext hnextCorked

/-- The end of a handler. -/
theorem uncorked_accounted (accepts : Nat → Nat) {loop : Loop ι} (h : Accounted base sent loop)
    (hcorked : CorkedAt socket loop) :
    Accounted base sent (uncork accepts socket [] false loop).2 ∧
      (uncork accepts socket [] false loop).2.corkedSocket = none := by
  rcases hcorked with hnone | hsome
  · have hother : loop.corkedSocket ≠ some socket := by
      rw [hnone]
      exact (Option.some_ne_none socket).symm
    rw [uncork_other hother]
    exact ⟨h, hnone⟩
  · have huncorked := uncork_accounted accepts [] h hsome
    rw [record_nil] at huncorked
    exact huncorked

/-- What an account says when nothing is corked any more. -/
theorem accounted_outputs {outputs : List Output} {loop : Loop ι}
    (h : Accounted base (Sent.record socket (outputs.map Output.bytes) fun _ => []) loop)
    (hidle : loop.corkedSocket = none) :
    loop.Idle ∧ ∀ other, ∃ added : List Output,
      added.Subperm (if socket = other then outputs else []) ∧
      (loop.sockets other).stream = base other ++ added.flatMap Output.bytes := by
  obtain ⟨kept, corked, haccount, hsent⟩ := h
  obtain rfl := haccount.idle hidle
  refine ⟨⟨hidle, haccount.cork⟩, fun other => ?_⟩
  have hother := hsent other
  rw [Loop.corkedFor, hidle, if_neg (by simp), List.append_nil] at hother
  have hpart : (kept other).Subperm
      ((if socket = other then outputs else []).map Output.bytes) := by
    by_cases hsocket : socket = other
    · subst hsocket
      rw [record_self, List.nil_append] at hother
      rwa [if_pos rfl]
    · rw [record_other (Ne.symm hsocket)] at hother
      rwa [if_neg hsocket]
  obtain ⟨added, hadded, hkept⟩ := exists_of_subperm_map hpart
  refine ⟨added, hadded, ?_⟩
  rw [haccount.stream, hkept, List.flatMap_def]

theorem shutdownWhenDrained_loop (socket : ι) (server : Server ι) :
    (WebSocketContext.shutdownWhenDrained socket server).loop = server.loop := by
  unfold WebSocketContext.shutdownWhenDrained
  split <;> rfl

/-- What is read while the connection is open. -/
theorem reads_shape {mask : Mask} {inputs : List (Input ι)}
    (hfollows : (server.session socket).Follows maxPayloadLength mask socket inputs)
    (hclosed : (server.loop.sockets socket).closed = false)
    (hdown : (server.connections socket).isShuttingDown = false) (bytes : Bytes) :
    ∃ reader, consume true maxPayloadLength bytes (server.connections socket).reader = .ok reader ∧
      reader.events.drop (server.connections socket).reader.events.length =
        (server.connections socket).reads maxPayloadLength bytes ∧
      (reader.broken = false ∧ Reader.OpenEvents maxPayloadLength
          ((server.connections socket).reads maxPayloadLength bytes) ∨
        reader.broken = true ∧ ∃ before last,
          (server.connections socket).reads maxPayloadLength bytes = before ++ [last] ∧
          Reader.OpenEvents maxPayloadLength before ∧ last.Sound maxPayloadLength ∧
          last.ends = true) := by
  obtain ⟨hbroken, _⟩ := hfollows.unended hclosed hdown
  obtain ⟨hready, hsound⟩ := receive_open hfollows.read hbroken
  obtain ⟨reader, added, hreader, hevents, hadded⟩ := consume_events hready hsound bytes
  change consume true maxPayloadLength bytes (server.connections socket).reader = _ at hreader
  change reader.events = (server.connections socket).reader.events ++ added at hevents
  have hreads : (server.connections socket).reads maxPayloadLength bytes = added := by
    rw [Connection.reads, if_neg (by simp [hdown]), hreader]
    simp only
    rw [hevents, List.drop_left]
  rw [hreads]
  exact ⟨reader, hreader, by rw [hevents, List.drop_left], hadded⟩

theorem reads_spec {mask : Mask} {inputs : List (Input ι)}
    (hfollows : (server.session socket).Follows maxPayloadLength mask socket inputs)
    (hclosed : (server.loop.sockets socket).closed = false)
    (hdown : (server.connections socket).isShuttingDown = false) (bytes : Bytes) :
    ∃ reader, consume true maxPayloadLength bytes (server.connections socket).reader = .ok reader ∧
      reader.events.drop (server.connections socket).reader.events.length =
        (server.connections socket).reads maxPayloadLength bytes ∧
      (∀ event ∈ (server.connections socket).reads maxPayloadLength bytes,
        event.Sound maxPayloadLength) ∧
      (reader.broken = false →
        ∀ event ∈ (server.connections socket).reads maxPayloadLength bytes, event.ends = false) := by
  obtain ⟨reader, hreader, hreads, hshape⟩ := reads_shape hfollows hclosed hdown bytes
  refine ⟨reader, hreader, hreads, ?_⟩
  rcases hshape with ⟨_, hopen⟩ | ⟨hends, before, last, heq, hbefore, hlast, _⟩
  · exact ⟨fun event hevent => (hopen event hevent).1, fun _ event hevent => (hopen event hevent).2⟩
  · refine ⟨fun event hevent => ?_, fun hbroken => ?_⟩
    · rw [heq] at hevent
      rcases List.mem_append.mp hevent with hevent | hevent
      · exact (hbefore event hevent).1
      · obtain rfl := List.mem_singleton.mp hevent
        exact hlast
    · rw [hends] at hbroken
      cases hbroken

theorem reads_sound {mask : Mask} {inputs : List (Input ι)}
    (hfollows : (server.session socket).Follows maxPayloadLength mask socket inputs)
    (hclosed : (server.loop.sockets socket).closed = false) (bytes : Bytes) :
    ∀ event ∈ (server.connections socket).reads maxPayloadLength bytes,
      event.Sound maxPayloadLength := by
  rcases Bool.eq_false_or_eq_true (server.connections socket).isShuttingDown with hdown | hdown
  · rw [Connection.reads, if_pos hdown]
    exact fun _ h => absurd h List.not_mem_nil
  · obtain ⟨_, _, _, hsound, _⟩ := reads_spec hfollows hclosed hdown bytes
    exact hsound

/-- The answers to a piece of data. -/
theorem onData_streams {mask : Mask} {inputs : List (Input ι)} {bytes : Bytes}
    (hidle : server.loop.Idle)
    (hfollows : (server.session socket).Follows maxPayloadLength mask socket inputs)
    (hclosed : (server.loop.sockets socket).closed = false)
    (h : WebSocketContext.onData accepts maxPayloadLength maxBackpressure socket bytes server =
      .ok next) :
    next.loop.Idle ∧ ∀ other, ∃ added : List Output,
      added.Subperm (if socket = other then
        ((server.connections socket).reads maxPayloadLength bytes).flatMap Event.answers else []) ∧
      (next.loop.sockets other).stream =
        (server.loop.sockets other).stream ++ added.flatMap Output.bytes := by
  unfold WebSocketContext.onData at h
  rcases Bool.eq_false_or_eq_true (server.connections socket).isShuttingDown with hdown | hdown
  · rw [if_pos hdown] at h
    cases h
    exact ⟨hidle, fun other => ⟨[], List.nil_subperm, by simp⟩⟩
  · obtain ⟨reader, hreader, hreads, hsound, _⟩ := reads_spec hfollows hclosed hdown bytes
    rw [if_neg (by simp [hdown])] at h
    simp only [Server.setLoop, hreader] at h
    cases h
    have hstart := (accounted_idle hidle.1 hidle.2).corkSocket socket hidle.1
    generalize hmiddle : Server.setConnection socket _ _ = middle
    have hloop : middle.loop = server.loop.cork socket := by rw [← hmiddle]; rfl
    rw [hreads]
    rw [← hloop] at hstart
    have hcorked : CorkedAt socket middle.loop := .inr (by rw [hloop]; rfl)
    obtain ⟨haccounted, hend⟩ :=
      handles_accounted accepts maxBackpressure socket hsound hstart hcorked
    obtain ⟨huncorked, hnone⟩ := uncorked_accounted accepts haccounted hend
    rw [shutdownWhenDrained_loop]
    exact accounted_outputs huncorked hnone

theorem loop_upgrade (accepts : Nat → Nat) (maxBackpressure : Nat) (socket : ι)
    (response symbols : Bytes) (server : Server ι) :
    (WebSocketContext.upgrade accepts maxBackpressure socket response symbols server).loop =
      (uncork accepts socket [] false (send accepts maxBackpressure socket symbols .text
        (write accepts socket response false (server.loop.cork socket)).2).2).2 := rfl

/-- The response and the snapshot behind it. -/
theorem upgrade_streams (accepts : Nat → Nat) (maxBackpressure : Nat) {response symbols : Bytes}
    (hidle : server.loop.Idle) (hclosed : (server.loop.sockets socket).closed = false)
    (hfresh : (server.loop.sockets socket).stream = [])
    (hsmall : response.length + messageFrameSize symbols.length < corkBufferSize) :
    let next := WebSocketContext.upgrade accepts maxBackpressure socket response symbols server
    next.loop.Idle ∧ ∀ other, (next.loop.sockets other).stream = (server.loop.sockets other).stream ++
      if socket = other then response ++ serverFrame symbols .text else [] := by
  have hbuffer : (server.loop.sockets socket).buffer = [] := (List.append_eq_nil_iff.mp hfresh).2
  have hroom : response.length ≤ corkBufferSize - (server.loop.cork socket).corkBuffer.length := by
    rw [Loop.cork, hidle.2, List.length_nil]
    omega
  have hcorked : (server.loop.cork socket).corkedSocket = some socket := rfl
  have hwrite : write accepts socket response false (server.loop.cork socket) =
      ((response.length, false), { server.loop.cork socket with corkBuffer := response }) := by
    have hopen : ((server.loop.cork socket).sockets socket).closed = false := hclosed
    rw [write_fits accepts hopen hbuffer hcorked hroom]
    simp [Loop.cork, hidle.2]
  have hskips : ¬ Skips maxBackpressure socket
      { server.loop.cork socket with corkBuffer := response } := by
    simp [Skips, Loop.cork, hbuffer]
  have hfull : ({ server.loop.cork socket with
      corkBuffer := response ++ serverFrame symbols .text } : Loop ι).corkedSocket = some socket := rfl
  intro next
  obtain ⟨outcome, final, rest, hfinal, hgrows, hrest, hnone, hempty⟩ :=
    uncork_grows accepts [] hfull hclosed
  obtain rfl : rest = [] := hrest.elim id id
  have hloop : next.loop = final := by
    rw [loop_upgrade, hwrite, send_room hskips hcorked hsmall, hfinal]
  rw [hloop]
  refine ⟨⟨hnone, hempty⟩, fun other => ?_⟩
  by_cases hother : socket = other
  · subst hother
    rw [hgrows.stream, if_pos rfl, List.append_nil]
    rfl
  · rw [hgrows.others other (Ne.symm hother), if_neg hother, List.append_nil]
    rfl

theorem broadcast_eq (accepts : Nat → Nat) (maxBackpressure : Nat) (message : Bytes)
    (server : Server ι) :
    WBServer.broadcast accepts maxBackpressure message server =
      server.setLoop fun loop => server.wssConSet.toList.foldl
        (fun loop socket => (send accepts maxBackpressure socket message .text loop).2) loop := by
  unfold WBServer.broadcast
  generalize server.wssConSet.toList = sockets
  induction sockets generalizing server with
  | nil => rfl
  | cons socket sockets ih => exact ih _

theorem loop_broadcast (accepts : Nat → Nat) (maxBackpressure : Nat) (message : Bytes)
    (server : Server ι) :
    (WBServer.broadcast accepts maxBackpressure message server).loop =
      server.wssConSet.toList.foldl
        (fun loop socket => (send accepts maxBackpressure socket message .text loop).2)
        server.loop := by
  rw [broadcast_eq]
  rfl

theorem onWritable_streams (accepts : Nat → Nat) (hidle : server.loop.Idle)
    (hclosed : (server.loop.sockets socket).closed = false) :
    (WebSocketContext.onWritable accepts socket server).loop.Idle ∧ ∀ other,
      ((WebSocketContext.onWritable accepts socket server).loop.sockets other).stream =
        (server.loop.sockets other).stream := by
  unfold WebSocketContext.onWritable
  split
  · exact ⟨hidle, fun _ => rfl⟩
  · have hcorked : server.loop.corkedSocket ≠ some socket := by
      rw [hidle.1]
      exact (Option.some_ne_none socket).symm
    obtain ⟨outcome, final, hfinal, hgrows, hsame⟩ := write_uncorked accepts [] hcorked hclosed
    rw [shutdownWhenDrained_loop, Server.setLoop]
    simp only [hfinal]
    refine ⟨⟨hsame.1.trans hidle.1, hsame.2.trans hidle.2⟩, fun other => ?_⟩
    by_cases hother : other = socket
    · rw [hother, hgrows.stream, List.append_nil]
    · rw [hgrows.others other hother]

/-- What holds between two inputs. -/
structure Streaming (maxPayloadLength : Nat) (mask : ι → Mask) (inputs : List (Input ι))
    (server : Server ι) : Prop where
  idle : server.loop.Idle
  fresh : ∀ socket, (server.connections socket).opened = false →
    (server.loop.sockets socket).stream = []
  follows : ∀ socket, (server.session socket).Follows maxPayloadLength (mask socket) socket inputs

theorem streaming_initial (maxPayloadLength : Nat) (mask : ι → Mask) :
    Streaming maxPayloadLength mask [] (Server.initial mask) where
  idle := ⟨rfl, rfl⟩
  fresh _ _ := rfl
  follows := follows_initial maxPayloadLength mask

variable {mask : ι → Mask} {inputs : List (Input ι)} {input : Input ι} {outputs : List Output}

/-- Nothing is written to a socket that is not upgraded. -/
theorem adds_unopened
    (hfollows : (server.session socket).Follows maxPayloadLength (mask socket) socket inputs)
    (hallows : (server.session socket).Allows socket input)
    (hopened : (server.session socket).opened = false) (hupgrade : input.isUpgrade socket = false)
    (h : Adds maxPayloadLength maxBackpressure socket server input outputs) : outputs = [] := by
  cases input with
  | upgrade other response symbols =>
    rw [Adds, if_neg (of_decide_eq_false hupgrade)] at h
    exact h
  | data other bytes =>
    have hother : other ≠ socket := by
      intro heq
      have htrue := (hallows heq).1
      rw [hopened] at htrue
      cases htrue
    rw [Adds, if_neg hother] at h
    exact List.subperm_nil.mp h
  | writable other => exact h
  | gone other => exact h
  | broadcast message =>
    have hregistered : ¬ (server.session socket).registered := by
      simp [hfollows.registered, hopened]
    rw [Adds, if_neg fun hmem => hregistered hmem.1] at h
    exact h

/-- What one input adds. -/
theorem step_adds (h : Streaming maxPayloadLength mask inputs server) (hsmall : input.Small)
    (hstep : step accepts maxPayloadLength maxBackpressure server input = some next) :
    next.loop.Idle ∧ ∀ socket, ∃ outputs,
      Adds maxPayloadLength maxBackpressure socket server input outputs ∧
      (next.loop.sockets socket).stream =
        (server.loop.sockets socket).stream ++ outputs.flatMap Output.bytes := by
  cases input with
  | upgrade other response symbols =>
    obtain ⟨hopened, heq⟩ := Option.ite_none_left_eq_some.mp hstep
    obtain rfl := Option.some.inj heq
    have hunopened := Bool.eq_false_iff.mpr hopened
    obtain ⟨hnext, hstreams⟩ := upgrade_streams accepts maxBackpressure h.idle
      ((h.follows other).fresh hunopened).2.2.2.1 (h.fresh other hunopened) hsmall
    refine ⟨hnext, fun socket => ⟨_, rfl, ?_⟩⟩
    rw [hstreams socket]
    by_cases hother : other = socket <;> simp [hother, Output.bytes]
  | data other bytes =>
    obtain ⟨hopen, hread⟩ := Option.ite_none_right_eq_some.mp hstep
    cases hdata : WebSocketContext.onData accepts maxPayloadLength maxBackpressure other bytes
      server with
    | error failure =>
      rw [hdata] at hread
      cases hread
    | ok result =>
      rw [hdata] at hread
      cases hread
      obtain ⟨hnext, hstreams⟩ := onData_streams h.idle (h.follows other)
        ((Bool.not_eq_true' _).mp hopen.2) hdata
      refine ⟨hnext, fun socket => ?_⟩
      obtain ⟨added, hadded, hstream⟩ := hstreams socket
      refine ⟨added, ?_, hstream⟩
      by_cases hother : other = socket
      · subst hother
        exact hadded
      · rw [if_neg hother] at hadded
        rw [Adds, if_neg hother]
        exact hadded
  | writable other =>
    obtain ⟨hopen, heq⟩ := Option.ite_none_right_eq_some.mp hstep
    obtain rfl := Option.some.inj heq
    obtain ⟨hnext, hstreams⟩ :=
      onWritable_streams accepts h.idle ((Bool.not_eq_true' _).mp hopen.2)
    exact ⟨hnext, fun socket => ⟨[], rfl, by simp [hstreams socket]⟩⟩
  | gone other =>
    obtain ⟨hopen, heq⟩ := Option.ite_none_right_eq_some.mp hstep
    obtain rfl := Option.some.inj heq
    rw [loop_close]
    refine ⟨h.idle, fun socket => ⟨[], rfl, ?_⟩⟩
    rw [stream_closed, List.flatMap_nil, List.append_nil]
  | broadcast message =>
    obtain rfl := Option.some.inj hstep
    have hopen : ∀ socket ∈ server.wssConSet.toList, (server.loop.sockets socket).closed = false :=
      fun socket hsocket => ((h.follows socket).registered.mp hsocket).2.1
    obtain ⟨hnext, hstreams⟩ := sends_stream accepts maxBackpressure hsmall server.wssConSet.nodup
      h.idle hopen
    rw [loop_broadcast]
    refine ⟨hnext, fun socket => ⟨_, rfl, ?_⟩⟩
    rw [hstreams socket]
    by_cases hsocket : socket ∈ server.wssConSet ∧ ¬ Skips maxBackpressure socket server.loop
    · have hlist : socket ∈ server.wssConSet.toList ∧ ¬ Skips maxBackpressure socket server.loop :=
        hsocket
      rw [if_pos hlist, if_pos hsocket]
      simp [Output.bytes]
    · have hlist : ¬ (socket ∈ server.wssConSet.toList ∧
          ¬ Skips maxBackpressure socket server.loop) := hsocket
      rw [if_neg hlist, if_neg hsocket]
      simp

/-- What one input preserves. -/
theorem step_streaming (h : Streaming maxPayloadLength mask inputs server) (hsmall : input.Small)
    (hstep : step accepts maxPayloadLength maxBackpressure server input = some next) :
    Streaming maxPayloadLength mask (inputs ++ [input]) next := by
  obtain ⟨hidle, hadds⟩ := step_adds h hsmall hstep
  have hnext (socket : ι) :
      (next.session socket).Follows maxPayloadLength (mask socket) socket (inputs ++ [input]) := by
    obtain ⟨hallows, hinput⟩ := step_session hstep socket
    rw [hinput]
    exact (h.follows socket).input hallows
  refine ⟨hidle, fun socket hopened => ?_, hnext⟩
  have hany := (hnext socket).opened.symm.trans hopened
  rw [List.any_append, Bool.or_eq_false_iff] at hany
  have hserver := (h.follows socket).opened.trans hany.1
  obtain ⟨outputs, houtputs, hstream⟩ := hadds socket
  obtain rfl := adds_unopened (h.follows socket) (step_session hstep socket).1 hserver
    (by simpa using hany.2) houtputs
  rw [hstream, h.fresh socket hserver]
  rfl

theorem run_streaming (hsmall : ∀ input ∈ inputs, input.Small)
    (hrun : Transition.run (step accepts maxPayloadLength maxBackpressure) (.initial mask) inputs =
      some server) : Streaming maxPayloadLength mask inputs server :=
  Transition.run_labels Input.Small (fun hsmall hstate hnext => step_streaming hstate hsmall hnext)
    hsmall (streaming_initial maxPayloadLength mask) hrun

/-- In every run with small frames: nothing is corked between two inputs, and the stream of a
client consists of what each input adds to it, one after the other. No frame is torn, doubled
or written to another client, whatever the kernel takes. -/
theorem streams_of_run (hsmall : ∀ input ∈ inputs, input.Small)
    (hrun : Transition.run (step accepts maxPayloadLength maxBackpressure) (.initial mask) inputs =
      some server) (socket : ι) :
    server.loop.Idle ∧ ∃ added : List (List Output),
      List.Forall₂ (fun adds outputs => adds outputs)
        (Transition.observations (step accepts maxPayloadLength maxBackpressure)
          (Adds maxPayloadLength maxBackpressure socket) (.initial mask) inputs) added ∧
      (server.loop.sockets socket).stream = added.flatten.flatMap Output.bytes := by
  obtain ⟨_, added, hadded, _, hstream⟩ := Transition.run_adds
    (fun server => ∃ inputs, Streaming maxPayloadLength mask inputs server)
    (fun server => (server.loop.sockets socket).stream) (List.flatMap Output.bytes)
    (Adds maxPayloadLength maxBackpressure socket) (fun _ => True) Input.Small
    (fun hsmall ⟨inputs, hstate⟩ hnext => by
      obtain ⟨outputs, houtputs, hstream⟩ := (step_adds hstate hsmall hnext).2 socket
      exact ⟨⟨_, step_streaming hstate hsmall hnext⟩, outputs, houtputs, trivial, hstream⟩)
    hsmall ⟨[], streaming_initial maxPayloadLength mask⟩ hrun
  refine ⟨(run_streaming hsmall hrun).idle, added, hadded, ?_⟩
  rw [hstream, List.flatten_eq_flatMap, List.flatMap_assoc]
  rfl

theorem sampleSession_small : ∀ input ∈ sampleSession, input.Small := by decide

/-- The kernel takes one byte of every write. -/
theorem streams_of_run_sample :
    ∃ server, Transition.run (step (fun _ => 1) 16384 1048576) (.initial fun _ _ => 0)
        sampleSession = some server ∧
      server.loop.Idle ∧ ∃ added : List (List Output),
        List.Forall₂ (fun adds outputs => adds outputs)
          (Transition.observations (step (fun _ => 1) 16384 1048576) (Adds 16384 1048576 0)
            (.initial fun _ _ => 0) sampleSession) added ∧
        (server.loop.sockets 0).stream = added.flatten.flatMap Output.bytes := by
  obtain ⟨server, hrun⟩ : ∃ server, Transition.run (step (fun _ => 1) 16384 1048576)
      (.initial fun _ _ => 0) sampleSession = some server :=
    Option.isSome_iff_exists.mp (by decide +kernel)
  exact ⟨server, hrun, streams_of_run sampleSession_small hrun 0⟩

end

end MarketServer.UWS

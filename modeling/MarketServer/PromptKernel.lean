import MarketServer.ServerStreams

/-! A kernel that takes a cork buffer at every call. Nothing waits in the buffer of a socket then,
and no message is left out. -/
namespace MarketServer.UWS
open Library

def Prompt (accepts : Nat → Nat) : Prop := ∀ calls, corkBufferSize ≤ accepts calls

/-- Nothing waits, but for what is corked. -/
structure Calm {ι : Type} (loop : Loop ι) : Prop where
  buffers : ∀ socket, (loop.sockets socket).buffer = []
  cork : loop.corkBuffer.length ≤ corkBufferSize

section

variable {ι : Type} [DecidableEq ι] {accepts : Nat → Nat} {maxBackpressure : Nat} {loop : Loop ι}
  {socket : ι} {src message : Bytes}

omit [DecidableEq ι] in
theorem Calm.stream (h : Calm loop) (socket : ι) :
    (loop.sockets socket).written = (loop.sockets socket).stream := by
  rw [SocketData.stream, h.buffers, List.append_nil]

omit [DecidableEq ι] in
theorem Calm.not_skips (h : Calm loop) : ¬ Skips maxBackpressure socket loop := by
  rw [Skips, h.buffers]
  exact fun hskips => Nat.not_lt_zero _ hskips.2

theorem passThrough_prompt (hprompt : Prompt accepts) (socket : ι)
    (hsrc : src.length ≤ corkBufferSize) (h : Calm loop) :
    ∃ next, passThrough accepts socket src false loop = ((src.length, false), next) ∧
      Grows socket src loop next ∧ SameCork loop next ∧ Calm next := by
  have hall : min (accepts loop.writes) src.length = src.length :=
    Nat.min_eq_right (hsrc.trans (hprompt loop.writes))
  obtain ⟨failed, next, hnext, hgrows, hsame⟩ := passThrough_grows src (h.buffers socket)
  have hpassed : passThrough accepts socket src false loop =
      ((src.length, false), (socketWrite accepts socket src loop).2) := by
    unfold passThrough socketWrite
    exact if_neg (hall.symm ▸ lt_irrefl _)
  rw [hpassed] at hnext
  cases hnext
  refine ⟨_, hpassed, hgrows, hsame, fun other => ?_, h.cork⟩
  by_cases hother : other = socket
  · subst hother
    simp [socketWrite, Loop.setSocket, h.buffers]
  · rw [hgrows.others other hother, h.buffers]

theorem passThrough_calm (hprompt : Prompt accepts) (socket : ι)
    (hsrc : src.length ≤ corkBufferSize) (h : Calm loop) :
    Calm (passThrough accepts socket src false loop).2 := by
  obtain ⟨next, hnext, _, _, hcalm⟩ := passThrough_prompt hprompt socket hsrc h
  rw [hnext]
  exact hcalm

theorem writeThen_calm {pass : Loop ι → Outcome × Loop ι} (socket : ι) (src : Bytes)
    (hpass : Calm (pass loop).2) (h : Calm loop) :
    Calm (writeThen accepts pass socket src false loop).2 := by
  unfold writeThen
  simp only [h.buffers socket, ne_eq, not_true_eq_false, if_false]
  split
  · exact h
  · split
    · exact hpass
    · exact h

theorem uncork_calm (hprompt : Prompt accepts) (socket : ι) (hsrc : src.length ≤ corkBufferSize)
    (h : Calm loop) : Calm (uncork accepts socket src false loop).2 := by
  have hwrite {src : Bytes} {loop : Loop ι} (hsrc : src.length ≤ corkBufferSize) (h : Calm loop) :
      Calm (writeThen accepts (passThrough accepts socket src false) socket src false loop).2 :=
    writeThen_calm socket src (passThrough_calm hprompt socket hsrc h) h
  have hfree : Calm { loop with corkedSocket := none } := ⟨h.buffers, h.cork⟩
  have hflushed := hwrite h.cork hfree
  have hempty : Calm { (writeThen accepts (passThrough accepts socket loop.corkBuffer false) socket
      loop.corkBuffer false { loop with corkedSocket := none }).2 with corkBuffer := [] } :=
    ⟨hflushed.buffers, Nat.zero_le _⟩
  unfold uncork
  simp only
  split
  · split
    · split
      · exact hempty
      · exact hwrite hsrc hempty
    · exact hwrite hsrc hfree
  · exact h

theorem write_calm (hprompt : Prompt accepts) (socket : ι) (hsrc : src.length ≤ corkBufferSize)
    (h : Calm loop) : Calm (write accepts socket src false loop).2 := by
  refine writeThen_calm socket src ?_ h
  unfold pass
  split
  · split
    · rename_i hfits
      refine ⟨h.buffers, ?_⟩
      rw [List.length_append]
      have hcork := h.cork
      omega
    · exact uncork_calm hprompt socket hsrc h
  · exact passThrough_calm hprompt socket hsrc h

theorem send_calm (hprompt : Prompt accepts) (maxBackpressure : Nat) (socket : ι) (opCode : OpCode)
    (hfits : messageFrameSize message.length < corkBufferSize) (h : Calm loop) :
    Calm (send accepts maxBackpressure socket message opCode loop).2 := by
  have hframe : (serverFrame message opCode).length ≤ corkBufferSize := by
    rw [length_serverFrame]
    exact hfits.le
  have hcorked : Calm (if loop.corkedSocket = none then loop.cork socket else loop) := by
    split
    · exact ⟨h.buffers, h.cork⟩
    · exact h
  have hsends : ¬ (maxBackpressure ≠ 0 ∧ maxBackpressure < (loop.sockets socket).buffer.length) :=
    h.not_skips
  unfold send
  simp only [if_neg hsends]
  generalize (if loop.corkedSocket = none then loop.cork socket else loop) = corked at hcorked ⊢
  by_cases hroom : corked.corkedSocket = some socket ∧
      corked.corkBuffer.length + messageFrameSize message.length < corkBufferSize
  · have hfilled : Calm { corked with
        corkBuffer := corked.corkBuffer ++ serverFrame message opCode } := by
      refine ⟨hcorked.buffers, ?_⟩
      rw [List.length_append, length_serverFrame]
      exact hroom.2.le
    simp only [if_pos hroom, Bool.false_eq_true, if_false]
    split
    · exact uncork_calm hprompt socket (Nat.zero_le _) hfilled
    · exact hfilled
  · have hwritten := write_calm hprompt socket hframe hcorked
    simp only [if_neg hroom]
    split
    · exact hwritten
    · split
      · exact uncork_calm hprompt socket (Nat.zero_le _) hwritten
      · exact hwritten

end

section

variable {ι : Type} [LinearOrder ι] {accepts : Nat → Nat} {maxPayloadLength maxBackpressure : Nat}
  {mask : ι → Mask} {inputs : List (Input ι)} {server next : Server ι} {socket : ι}

theorem setSocket_calm {loop : Loop ι} (h : Calm loop) :
    Calm (loop.setSocket socket ({ · with closed := true })) := by
  refine ⟨fun other => ?_, h.cork⟩
  by_cases hother : other = socket
  · subst hother
    simp [Loop.setSocket, h.buffers]
  · simp [Loop.setSocket, Function.update_of_ne hother, h.buffers]

theorem answer_calm (hprompt : Prompt accepts) (maxBackpressure : Nat) (socket : ι) {message : Bytes}
    (opCode : OpCode) (hshort : message.length ≤ 125) (h : Calm server.loop) :
    Calm (WebSocket.send accepts maxBackpressure socket message opCode server).2.loop :=
  send_calm hprompt maxBackpressure socket opCode (answer_fits hshort) h

theorem end_calm (hprompt : Prompt accepts) (maxBackpressure : Nat) (socket : ι) (frame : CloseFrame)
    (h : Calm server.loop) :
    Calm (WebSocket.end_ accepts maxBackpressure socket frame.code frame.message server).loop := by
  unfold WebSocket.end_
  split
  · exact h
  · have hset : Calm (server.setConnection socket ({ · with isShuttingDown := true })).loop := h
    have hsent := answer_calm hprompt maxBackpressure socket .close
      (length_closePayload frame.code frame.message) hset
    simp only
    rw [loop_onClose]
    split
    · exact hsent
    · exact hsent

theorem handle_calm (hprompt : Prompt accepts) (maxBackpressure : Nat) (socket : ι) {event : Event}
    (hsound : event.Sound maxPayloadLength) (h : Calm server.loop) :
    Calm (WebSocketContext.handle accepts maxBackpressure socket server event).loop := by
  cases event with
  | message opCode data =>
    have hcalled : Calm (server.call socket (.message opCode data)).loop := h
    exact answer_calm hprompt maxBackpressure socket opCode length_cplus hcalled
  | ping data => exact answer_calm hprompt maxBackpressure socket .pong hsound h
  | pong => exact h
  | close frame => exact end_calm hprompt maxBackpressure socket frame h
  | forceClose reason =>
    change Calm (WebSocketContext.close socket server).loop
    rw [loop_close]
    exact setSocket_calm h

theorem handles_calm (hprompt : Prompt accepts) (maxBackpressure : Nat) (socket : ι)
    {events : List Event} (hsound : ∀ event ∈ events, event.Sound maxPayloadLength)
    {server : Server ι} (h : Calm server.loop) :
    Calm (events.foldl (WebSocketContext.handle accepts maxBackpressure socket) server).loop := by
  induction events generalizing server with
  | nil => exact h
  | cons event events ih =>
    obtain ⟨hevent, hrest⟩ := List.forall_mem_cons.mp hsound
    exact ih hrest (handle_calm hprompt maxBackpressure socket hevent h)

theorem onData_calm {bytes : Bytes} (hprompt : Prompt accepts)
    (hsound : ∀ event ∈ (server.connections socket).reads maxPayloadLength bytes,
      event.Sound maxPayloadLength) (h : Calm server.loop)
    (hdata : WebSocketContext.onData accepts maxPayloadLength maxBackpressure socket bytes server =
      .ok next) : Calm next.loop := by
  unfold WebSocketContext.onData at hdata
  rcases Bool.eq_false_or_eq_true (server.connections socket).isShuttingDown with hdown | hdown
  · rw [if_pos hdown] at hdata
    cases hdata
    exact h
  · rw [if_neg (by simp [hdown])] at hdata
    rw [Connection.reads, if_neg (by simp [hdown])] at hsound
    cases hconsume : consume true maxPayloadLength bytes (server.connections socket).reader with
    | error failure =>
      simp only [Server.setLoop, hconsume] at hdata
      cases hdata
    | ok reader =>
      rw [hconsume] at hsound
      simp only [Server.setLoop, hconsume] at hdata
      cases hdata
      generalize hmiddle : Server.setConnection socket _ _ = middle
      have hloop : middle.loop = server.loop.cork socket := by rw [← hmiddle]; rfl
      have hstart : Calm middle.loop := hloop ▸ ⟨h.buffers, h.cork⟩
      rw [shutdownWhenDrained_loop]
      exact uncork_calm hprompt socket (Nat.zero_le _)
        (handles_calm hprompt maxBackpressure socket hsound hstart)

theorem sends_calm (hprompt : Prompt accepts) (maxBackpressure : Nat) {message : Bytes}
    (hfits : messageFrameSize message.length < corkBufferSize) (sockets : List ι) {loop : Loop ι}
    (h : Calm loop) : Calm (sockets.foldl
      (fun loop socket => (send accepts maxBackpressure socket message .text loop).2) loop) := by
  induction sockets generalizing loop with
  | nil => exact h
  | cons socket sockets ih => exact ih (send_calm hprompt maxBackpressure socket .text hfits h)

theorem step_calm (hprompt : Prompt accepts) (h : Calm server.loop)
    (hstreaming : Streaming maxPayloadLength mask inputs server) {input : Input ι}
    (hsmall : input.Small)
    (hstep : step accepts maxPayloadLength maxBackpressure server input = some next) :
    Calm next.loop := by
  cases input with
  | upgrade socket response symbols =>
    obtain ⟨_, heq⟩ := Option.ite_none_left_eq_some.mp hstep
    obtain rfl := Option.some.inj heq
    have hsmall : response.length + messageFrameSize symbols.length < corkBufferSize := hsmall
    have hresponse : response.length ≤ corkBufferSize := by omega
    have hcorked : Calm (server.loop.cork socket) := ⟨h.buffers, h.cork⟩
    rw [loop_upgrade]
    exact uncork_calm hprompt socket (Nat.zero_le _)
      (send_calm hprompt maxBackpressure socket .text (by omega)
        (write_calm hprompt socket hresponse hcorked))
  | data socket bytes =>
    obtain ⟨hopen, hread⟩ := Option.ite_none_right_eq_some.mp hstep
    have hsound := reads_sound (hstreaming.follows socket) ((Bool.not_eq_true' _).mp hopen.2) bytes
    cases hdata : WebSocketContext.onData accepts maxPayloadLength maxBackpressure socket bytes
      server with
    | error failure =>
      rw [hdata] at hread
      cases hread
    | ok result =>
      rw [hdata] at hread
      cases hread
      exact onData_calm hprompt hsound h hdata
  | writable socket =>
    obtain ⟨_, heq⟩ := Option.ite_none_right_eq_some.mp hstep
    obtain rfl := Option.some.inj heq
    unfold WebSocketContext.onWritable
    split
    · exact h
    · rw [shutdownWhenDrained_loop]
      exact write_calm hprompt socket (Nat.zero_le _) h
  | gone socket =>
    obtain ⟨_, heq⟩ := Option.ite_none_right_eq_some.mp hstep
    obtain rfl := Option.some.inj heq
    rw [loop_close]
    exact setSocket_calm h
  | broadcast message =>
    obtain rfl := Option.some.inj hstep
    rw [loop_broadcast]
    exact sends_calm hprompt maxBackpressure hsmall _ h

theorem calm_initial (mask : ι → Mask) : Calm (Server.initial mask).loop :=
  ⟨fun _ => rfl, Nat.zero_le _⟩

end

/-! The answers to a piece of data: none is lost and none overtakes another. -/
section

variable {ι : Type} [DecidableEq ι] {accepts : Nat → Nat} {maxBackpressure : Nat} {loop : Loop ι}
  {socket : ι} {src message base : Bytes} {sent : List Bytes}

theorem writeNow_prompt (hprompt : Prompt accepts) (h : Calm loop)
    (hsrc : src.length ≤ corkBufferSize) (hclosed : (loop.sockets socket).closed = false) :
    ∃ next, writeThen accepts (passThrough accepts socket src false) socket src false loop =
        ((src.length, false), next) ∧
      Grows socket src loop next ∧ SameCork loop next ∧ Calm next := by
  by_cases hempty : src = []
  · subst hempty
    refine ⟨loop, ?_, .refl socket loop, ⟨rfl, rfl⟩, h⟩
    simp [writeThen, hclosed, h.buffers]
  · obtain ⟨next, hnext, hgrows⟩ := passThrough_prompt hprompt socket hsrc h
    refine ⟨next, ?_, hgrows⟩
    simp [writeThen, hclosed, h.buffers, hempty, hnext]

/-- Data that come with what is corked are not lost. -/
theorem uncork_prompt (hprompt : Prompt accepts) (src : Bytes) (h : Calm loop)
    (hsrc : src.length ≤ corkBufferSize) (hcorked : loop.corkedSocket = some socket)
    (hclosed : (loop.sockets socket).closed = false) :
    ∃ outcome next, uncork accepts socket src false loop = (outcome, next) ∧
      Grows socket (loop.corkBuffer ++ src) loop next ∧ next.Idle ∧ Calm next := by
  have hfree : Calm { loop with corkedSocket := none } := ⟨h.buffers, h.cork⟩
  unfold uncork
  rw [if_pos hcorked]
  by_cases hempty : loop.corkBuffer = []
  · obtain ⟨next, hnext, hgrows, hsame, hcalm⟩ := writeNow_prompt hprompt hfree hsrc hclosed
    simp only
    rw [if_neg (not_not_intro hempty), hnext, hempty]
    exact ⟨_, next, rfl, hgrows.of_sockets rfl rfl, ⟨hsame.1, hsame.2.trans hempty⟩, hcalm⟩
  · obtain ⟨middle, hmiddle, hflushed, hsame, hmiddleCalm⟩ :=
      writeNow_prompt hprompt hfree h.cork hclosed
    have hcleared : Calm { middle with corkBuffer := [] } := ⟨hmiddleCalm.buffers, Nat.zero_le _⟩
    obtain ⟨next, hnext, hgrows, hsame', hcalm⟩ :=
      writeNow_prompt hprompt hcleared hsrc (hflushed.closed.trans hclosed)
    simp only
    rw [if_pos hempty, hmiddle]
    simp only [Bool.false_eq_true, if_false]
    rw [hnext]
    have hboth := hflushed.trans (hgrows.of_sockets rfl rfl)
    exact ⟨_, next, rfl, hboth.of_sockets rfl rfl, ⟨hsame'.1.trans hsame.1, hsame'.2⟩, hcalm⟩

/-- The frames that were sent to a socket in its handler, in their order: first those that are in
its stream, and then those in the cork buffer. -/
def InOrder (socket : ι) (base : Bytes) (sent : List Bytes) (loop : Loop ι) : Prop :=
  ∃ kept corked, (loop.sockets socket).stream = base ++ kept.flatten ∧
    loop.corkBuffer = corked.flatten ∧ (loop.corkedSocket = none → corked = []) ∧
    kept ++ corked = sent

omit [DecidableEq ι] in
theorem InOrder.flush {next : Loop ι} (frames : List Bytes) (h : InOrder socket base sent loop)
    (hgrows : Grows socket (loop.corkBuffer ++ frames.flatten) loop next) (hidle : next.Idle) :
    InOrder socket base (sent ++ frames) next := by
  obtain ⟨kept, corked, hstream, hcork, _, rfl⟩ := h
  refine ⟨kept ++ corked ++ frames, [], ?_, hidle.2, fun _ => rfl, List.append_nil _⟩
  rw [hgrows.stream, hstream, hcork, List.flatten_append, List.flatten_append, List.append_assoc,
    List.append_assoc]

omit [DecidableEq ι] in
theorem InOrder.cork {frame : Bytes} (h : InOrder socket base sent loop)
    (hcorked : loop.corkedSocket = some socket) :
    InOrder socket base (sent ++ [frame])
      { loop with corkBuffer := loop.corkBuffer ++ frame } := by
  obtain ⟨kept, corked, hstream, hcork, _, rfl⟩ := h
  refine ⟨kept, corked ++ [frame], hstream, ?_, fun hnone => ?_, (List.append_assoc ..).symm⟩
  · simp [hcork]
  · rw [hcorked] at hnone
    cases hnone

omit [DecidableEq ι] in
theorem InOrder.drain {next : Loop ι} (h : InOrder socket base sent loop)
    (hgrows : Grows socket [] loop next) (hsame : SameCork loop next) :
    InOrder socket base sent next := by
  obtain ⟨kept, corked, hstream, hcork, hnone, hsent⟩ := h
  refine ⟨kept, corked, ?_, hsame.2.trans hcork, fun hnext => hnone (hsame.1 ▸ hnext), hsent⟩
  rw [hgrows.stream, List.append_nil, hstream]

theorem send_inOrder (hprompt : Prompt accepts) (maxBackpressure : Nat) (opCode : OpCode)
    (hfits : messageFrameSize message.length < corkBufferSize) (hcalm : Calm loop)
    (hclosed : (loop.sockets socket).closed = false)
    (hcorked : loop.corkedSocket = none ∨ loop.corkedSocket = some socket)
    (h : InOrder socket base sent loop) :
    InOrder socket base (sent ++ [serverFrame message opCode])
        (send accepts maxBackpressure socket message opCode loop).2 ∧
      ((send accepts maxBackpressure socket message opCode loop).2.corkedSocket = none ∨
        (send accepts maxBackpressure socket message opCode loop).2.corkedSocket = some socket) := by
  have hskips : ¬ Skips maxBackpressure socket loop := hcalm.not_skips
  have hframe : (serverFrame message opCode).length ≤ corkBufferSize := by
    rw [length_serverFrame]
    exact hfits.le
  rcases hcorked with hnone | hcorked
  · obtain ⟨kept, corked, hstream, hcork, hidle, hsent⟩ := id h
    have hempty : loop.corkBuffer = [] := by rw [hcork, hidle hnone]; rfl
    have hstart : InOrder socket base sent (loop.cork socket) := by
      refine ⟨kept, corked, hstream, hcork, fun hnot => ?_, hsent⟩
      cases hnot
    have hfilled : InOrder socket base (sent ++ [serverFrame message opCode])
        { loop.cork socket with corkBuffer := loop.corkBuffer ++ serverFrame message opCode } :=
      hstart.cork rfl
    rw [hempty, List.nil_append] at hfilled
    have hfilledCalm : Calm { loop.cork socket with corkBuffer := serverFrame message opCode } :=
      ⟨hcalm.buffers, hframe⟩
    have hself : ({ loop.cork socket with
        corkBuffer := serverFrame message opCode } : Loop ι).corkedSocket = some socket := rfl
    obtain ⟨outcome, next, hnext, hgrows, hidleNext, _⟩ :=
      uncork_prompt hprompt [] hfilledCalm (Nat.zero_le _) hself hclosed
    have hflushed := hfilled.flush [] hgrows hidleNext
    rw [List.append_nil] at hflushed
    rw [send_idle hskips hnone hempty hfits, hnext]
    exact ⟨hflushed, .inl hidleNext.1⟩
  · have hsome : loop.corkedSocket ≠ none := by
      rw [hcorked]
      exact Option.some_ne_none socket
    by_cases hroom : loop.corkBuffer.length + messageFrameSize message.length < corkBufferSize
    · rw [send_room hskips hcorked hroom]
      exact ⟨h.cork hcorked, .inr hcorked⟩
    · rw [send_write hskips hsome fun h => hroom h.2]
      rcases write_corked accepts (serverFrame_ne_nil message opCode) hclosed hcorked with
        ⟨hstalls, _⟩ | ⟨_, drained, hdrained, hsame, hbuffer, hwrite⟩
      · rw [Stalls, hcalm.buffers] at hstalls
        exact absurd hstalls (Nat.not_lt_zero _)
      · have horder := h.drain hdrained hsame
        have hself : drained.corkedSocket = some socket := hsame.1.trans hcorked
        have hdrainedCalm : Calm drained := by
          refine ⟨fun other => ?_, hsame.2 ▸ hcalm.cork⟩
          by_cases hother : other = socket
          · rw [hother, hbuffer]
          · rw [hdrained.others other hother, hcalm.buffers]
        rw [hwrite, ← hsame.2]
        by_cases hfills : (serverFrame message opCode).length ≤
            corkBufferSize - drained.corkBuffer.length
        · rw [if_pos hfills]
          exact ⟨horder.cork hself, .inr hself⟩
        · obtain ⟨outcome, next, hnext, hgrows, hidleNext, _⟩ :=
            uncork_prompt hprompt (serverFrame message opCode) hdrainedCalm hframe hself
              (hdrained.closed.trans hclosed)
          have hflushed := horder.flush [serverFrame message opCode]
            (by rwa [List.flatten_singleton]) hidleNext
          rw [if_neg hfills, hnext]
          exact ⟨hflushed, .inl hidleNext.1⟩

end

section

variable {ι : Type} [LinearOrder ι] {accepts : Nat → Nat} {maxPayloadLength maxBackpressure : Nat}
  {server next : Server ι} {socket : ι} {base : Bytes} {sent : List Bytes}

/-- Within the handler of the data of a socket, as long as it is open. -/
structure Answering (socket : ι) (base : Bytes) (sent : List Bytes) (server : Server ι) : Prop where
  calm : Calm server.loop
  closed : (server.loop.sockets socket).closed = false
  corked : CorkedAt socket server.loop
  order : InOrder socket base sent server.loop

theorem Answering.send (hprompt : Prompt accepts) (maxBackpressure : Nat) {message : Bytes}
    (opCode : OpCode) (hshort : message.length ≤ 125) (h : Answering socket base sent server) :
    Answering socket base (sent ++ [serverFrame message opCode])
      (WebSocket.send accepts maxBackpressure socket message opCode server).2 := by
  obtain ⟨horder, hcorked⟩ := send_inOrder hprompt maxBackpressure opCode (answer_fits hshort)
    h.calm h.closed h.corked h.order
  exact ⟨answer_calm hprompt maxBackpressure socket opCode hshort h.calm,
    (send_sameClosed accepts socket maxBackpressure message opCode server.loop socket).trans h.closed,
    hcorked, horder⟩

theorem Answering.close (hprompt : Prompt accepts) (maxBackpressure : Nat) (frame : CloseFrame)
    (hdown : (server.connections socket).isShuttingDown = false)
    (h : Answering socket base sent server) :
    Answering socket base (sent ++ [serverFrame (closePayload frame.code frame.message) .close])
      (WebSocket.end_ accepts maxBackpressure socket frame.code frame.message server) := by
  have hset : Answering socket base sent
      (server.setConnection socket ({ · with isShuttingDown := true })) :=
    ⟨h.calm, h.closed, h.corked, h.order⟩
  have hsent := hset.send hprompt maxBackpressure .close
    (length_closePayload frame.code frame.message)
  have hloop : (WebSocket.end_ accepts maxBackpressure socket frame.code frame.message server).loop =
      (WebSocket.send accepts maxBackpressure socket (closePayload frame.code frame.message) .close
        (server.setConnection socket ({ · with isShuttingDown := true }))).2.loop := by
    unfold WebSocket.end_
    rw [if_neg (Bool.eq_false_iff.mp hdown)]
    simp only
    rw [loop_onClose]
    split <;> rfl
  exact ⟨hloop ▸ hsent.calm, hloop ▸ hsent.closed, hloop ▸ hsent.corked, hloop ▸ hsent.order⟩

theorem Answering.handle (hprompt : Prompt accepts) (maxBackpressure : Nat) {event : Event}
    (hsound : event.Sound maxPayloadLength) (hends : event.ends = false)
    (h : Answering socket base sent server) :
    Answering socket base (sent ++ event.answers.map Output.bytes)
      (WebSocketContext.handle accepts maxBackpressure socket server event) := by
  cases event with
  | message opCode data =>
    have hcalled : Answering socket base sent (server.call socket (.message opCode data)) :=
      ⟨h.calm, h.closed, h.corked, h.order⟩
    exact hcalled.send hprompt maxBackpressure opCode length_cplus
  | ping data =>
    have hsent := h.send hprompt maxBackpressure .pong hsound
    exact ⟨hsent.calm, hsent.closed, hsent.corked, hsent.order⟩
  | pong =>
    rw [Event.answers, List.map_nil, List.append_nil]
    exact ⟨h.calm, h.closed, h.corked, h.order⟩
  | close frame => cases hends
  | forceClose reason => cases hends

theorem Answering.handles (hprompt : Prompt accepts) (maxBackpressure : Nat) {events : List Event}
    (hevents : Reader.OpenEvents maxPayloadLength events) {sent : List Bytes} {server : Server ι}
    (h : Answering socket base sent server) :
    Answering socket base (sent ++ (events.flatMap Event.answers).map Output.bytes)
      (events.foldl (WebSocketContext.handle accepts maxBackpressure socket) server) := by
  induction events generalizing sent server with
  | nil =>
    rw [List.flatMap_nil, List.map_nil, List.append_nil]
    exact h
  | cons event events ih =>
    obtain ⟨hevent, hrest⟩ := List.forall_mem_cons.mp hevents
    rw [List.flatMap_cons, List.map_append, ← List.append_assoc]
    exact ih hrest (h.handle hprompt maxBackpressure hevent.1 hevent.2)

/-- The end of the handler. -/
theorem Answering.done (hprompt : Prompt accepts) (h : Answering socket base sent server) :
    ((uncork accepts socket [] false server.loop).2.sockets socket).stream =
      base ++ sent.flatten := by
  rcases h.corked with hnone | hcorked
  · have hother : server.loop.corkedSocket ≠ some socket := by
      rw [hnone]
      exact (Option.some_ne_none socket).symm
    obtain ⟨kept, corked, hstream, _, hidle, rfl⟩ := h.order
    rw [uncork_other hother, hstream, hidle hnone, List.append_nil]
  · obtain ⟨kept, corked, hstream, hcork, _, rfl⟩ := h.order
    obtain ⟨outcome, next, hnext, hgrows, _⟩ :=
      uncork_prompt hprompt [] h.calm (Nat.zero_le _) hcorked h.closed
    rw [hnext, hgrows.stream, hstream, hcork, List.append_nil, List.append_assoc,
      ← List.flatten_append]

/-- What is corked when the server closes the socket is lost. -/
theorem Answering.forced (h : Answering socket base sent server) :
    ∃ kept, kept <+: sent ∧
      ((uncork accepts socket [] false
        (server.loop.setSocket socket ({ · with closed := true }))).2.sockets socket).stream =
          base ++ kept.flatten := by
  obtain ⟨kept, corked, hstream, _, _, rfl⟩ := h.order
  refine ⟨kept, List.prefix_append kept corked, ?_⟩
  have hclosed : ((server.loop.setSocket socket ({ · with closed := true })).sockets
      socket).closed = true := by simp [Loop.setSocket]
  have hsame := stream_closed socket server.loop socket
  rcases h.corked with hnone | hcorked
  · have hother : (server.loop.setSocket socket ({ · with closed := true })).corkedSocket ≠
        some socket := by
      change server.loop.corkedSocket ≠ some socket
      rw [hnone]
      exact (Option.some_ne_none socket).symm
    rw [uncork_other hother, hsame, hstream]
  · have hself : (server.loop.setSocket socket ({ · with closed := true })).corkedSocket =
        some socket := hcorked
    obtain ⟨outcome, next, hnext, hsockets, _⟩ := uncork_closed accepts [] hself hclosed
    rw [hnext]
    simp only [hsockets]
    rw [hsame, hstream]

def Event.forces : Event → Bool
  | .forceClose _ => true
  | _ => false

/-- The answers to a piece of data come in the order of what was read. If the server closes the
socket the last of them may be lost. -/
theorem data_inOrder {mask : Mask} {inputs : List (Input ι)} {bytes : Bytes}
    (hprompt : Prompt accepts) (hcalm : Calm server.loop) (hidle : server.loop.Idle)
    (hfollows : (server.session socket).Follows maxPayloadLength mask socket inputs)
    (hclosed : (server.loop.sockets socket).closed = false)
    (h : WebSocketContext.onData accepts maxPayloadLength maxBackpressure socket bytes server =
      .ok next) :
    ∃ outputs : List Output,
      outputs <+: ((server.connections socket).reads maxPayloadLength bytes).flatMap Event.answers ∧
      ((∀ event ∈ (server.connections socket).reads maxPayloadLength bytes, event.forces = false) →
        outputs = ((server.connections socket).reads maxPayloadLength bytes).flatMap Event.answers) ∧
      (next.loop.sockets socket).stream =
        (server.loop.sockets socket).stream ++ outputs.flatMap Output.bytes := by
  unfold WebSocketContext.onData at h
  rcases Bool.eq_false_or_eq_true (server.connections socket).isShuttingDown with hdown | hdown
  · rw [if_pos hdown] at h
    cases h
    exact ⟨[], List.nil_prefix, fun _ => by simp [Connection.reads, hdown],
      (List.append_nil _).symm⟩
  · obtain ⟨reader, hreader, hreads, hshape⟩ := reads_shape hfollows hclosed hdown bytes
    rw [if_neg (by simp [hdown])] at h
    simp only [Server.setLoop, hreader] at h
    cases h
    generalize hmiddle : Server.setConnection socket _ _ = middle
    have hloop : middle.loop = server.loop.cork socket := by rw [← hmiddle]; rfl
    have hstart : Answering socket (server.loop.sockets socket).stream [] middle := by
      refine ⟨hloop ▸ ⟨hcalm.buffers, hcalm.cork⟩, hloop ▸ hclosed, .inr (by rw [hloop]; rfl),
        [], [], ?_, ?_, fun _ => rfl, rfl⟩
      · rw [hloop]
        exact (List.append_nil _).symm
      · rw [hloop]
        exact hidle.2
    rw [hreads, shutdownWhenDrained_loop]
    rcases hshape with ⟨_, hopen⟩ | ⟨_, before, last, heq, hbefore, hsound, hends⟩
    · have hdone := (hstart.handles hprompt maxBackpressure hopen).done hprompt
      refine ⟨_, List.prefix_refl _, fun _ => rfl, ?_⟩
      rw [List.nil_append, ← List.flatMap_def] at hdone
      exact hdone
    · have hthen := hstart.handles hprompt maxBackpressure hbefore
      rw [List.nil_append] at hthen
      rw [heq, List.foldl_append, List.flatMap_append, List.flatMap_singleton]
      cases last with
      | close frame =>
        have hup : ((before.foldl (WebSocketContext.handle accepts maxBackpressure socket)
            middle).connections socket).isShuttingDown = false := by
          have hsession := (changes_handles accepts maxBackpressure socket before middle).session_eq
            socket
          rw [if_pos rfl, Session.handles_open _ hbefore] at hsession
          have hmiddleUp : (middle.connections socket).isShuttingDown = false := by
            rw [← hmiddle]
            simp [Server.setConnection, hdown]
          exact (congrArg Session.isShuttingDown hsession).trans hmiddleUp
        have hdone := (hthen.close hprompt maxBackpressure frame hup).done hprompt
        refine ⟨_, List.prefix_refl _, fun _ => rfl, hdone.trans ?_⟩
        rw [List.flatMap_append, List.flatten_append, ← List.flatMap_def]
        rfl
      | forceClose reason =>
        obtain ⟨kept, hkept, hstream⟩ := hthen.forced
        refine ⟨(before.flatMap Event.answers).take kept.length, ?_, fun hnone => ?_, ?_⟩
        · exact (List.take_prefix _ _).trans (List.prefix_append _ _)
        · have hlast := hnone (.forceClose reason) (by simp)
          cases hlast
        · rw [List.flatMap_def, List.map_take, ← List.prefix_iff_eq_take.mp hkept]
          change ((uncork accepts socket [] false (WebSocketContext.close socket _).loop).2.sockets
            socket).stream = _
          rw [loop_close]
          exact hstream
      | message opCode data => cases hends
      | ping data => cases hends
      | pong => cases hends

/-- What an input adds to what the kernel took of a client. -/
def Writes (maxPayloadLength : Nat) (socket : ι) (server : Server ι) : Input ι → List Output → Prop
  | .upgrade other response symbols, outputs =>
    outputs = if other = socket then [.response response, .message .text symbols] else []
  | .data other bytes, outputs =>
    if other = socket then
      outputs <+: ((server.connections socket).reads maxPayloadLength bytes).flatMap Event.answers ∧
        ((∀ event ∈ (server.connections socket).reads maxPayloadLength bytes,
            event.forces = false) →
          outputs =
            ((server.connections socket).reads maxPayloadLength bytes).flatMap Event.answers)
    else outputs = []
  | .broadcast message, outputs =>
    outputs = if socket ∈ server.wssConSet then [.message .text message] else []
  | .writable _, outputs | .gone _, outputs => outputs = []

variable {mask : ι → Mask} {inputs : List (Input ι)} {input : Input ι}

theorem step_writes (hprompt : Prompt accepts) (hcalm : Calm server.loop)
    (hstreaming : Streaming maxPayloadLength mask inputs server) (hsmall : input.Small)
    (hstep : step accepts maxPayloadLength maxBackpressure server input = some next) (socket : ι) :
    ∃ outputs, Writes maxPayloadLength socket server input outputs ∧
      (next.loop.sockets socket).stream =
        (server.loop.sockets socket).stream ++ outputs.flatMap Output.bytes := by
  obtain ⟨outputs, houtputs, hstream⟩ := (step_adds hstreaming hsmall hstep).2 socket
  cases input with
  | upgrade other response symbols => exact ⟨outputs, houtputs, hstream⟩
  | writable other => exact ⟨outputs, houtputs, hstream⟩
  | gone other => exact ⟨outputs, houtputs, hstream⟩
  | broadcast message =>
    refine ⟨outputs, ?_, hstream⟩
    rw [Adds] at houtputs
    rw [Writes, houtputs]
    simp [hcalm.not_skips]
  | data other bytes =>
    by_cases hother : other = socket
    · subst hother
      obtain ⟨hopen, hread⟩ := Option.ite_none_right_eq_some.mp hstep
      cases hdata : WebSocketContext.onData accepts maxPayloadLength maxBackpressure other bytes
        server with
      | error failure =>
        rw [hdata] at hread
        cases hread
      | ok result =>
        rw [hdata] at hread
        cases hread
        obtain ⟨outputs, hbegins, hall, hstream⟩ := data_inOrder hprompt hcalm hstreaming.idle
          (hstreaming.follows other) ((Bool.not_eq_true' _).mp hopen.2) hdata
        refine ⟨outputs, ?_, hstream⟩
        rw [Writes, if_pos rfl]
        exact ⟨hbegins, hall⟩
    · rw [Adds, if_neg hother] at houtputs
      refine ⟨outputs, ?_, hstream⟩
      rw [Writes, if_neg hother]
      exact List.subperm_nil.mp houtputs

/-- With such a kernel, in every run with small frames, all that is written to a client is taken
at once, the messages to the members are never left out, and the answers to a client come in the
order of what it sent. -/
theorem writes_of_run (hprompt : Prompt accepts) (hsmall : ∀ input ∈ inputs, input.Small)
    (hrun : Transition.run (step accepts maxPayloadLength maxBackpressure) (.initial mask) inputs =
      some server) (socket : ι) :
    ∃ added : List (List Output),
      List.Forall₂ (fun writes outputs => writes outputs)
        (Transition.observations (step accepts maxPayloadLength maxBackpressure)
          (Writes maxPayloadLength socket) (.initial mask) inputs) added ∧
      (server.loop.sockets socket).written = added.flatten.flatMap Output.bytes := by
  obtain ⟨⟨_, hcalm, _⟩, added, hadded, _, hstream⟩ := Transition.run_adds
    (fun server => ∃ inputs, Calm server.loop ∧ Streaming maxPayloadLength mask inputs server)
    (fun server => (server.loop.sockets socket).stream) (List.flatMap Output.bytes)
    (Writes maxPayloadLength socket) (fun _ => True) Input.Small
    (fun hsmall ⟨inputs, hcalm, hstate⟩ hnext => by
      obtain ⟨outputs, houtputs, hstream⟩ := step_writes hprompt hcalm hstate hsmall hnext socket
      exact ⟨⟨_, step_calm hprompt hcalm hstate hsmall hnext, step_streaming hstate hsmall hnext⟩,
        outputs, houtputs, trivial, hstream⟩)
    hsmall ⟨[], calm_initial mask, streaming_initial maxPayloadLength mask⟩ hrun
  refine ⟨added, hadded, ?_⟩
  rw [hcalm.stream, hstream, List.flatten_eq_flatMap, List.flatMap_assoc]
  rfl

theorem writes_of_run_sample :
    ∃ server, Transition.run (step (fun _ => 16384) 16384 1048576) (.initial fun _ _ => 0)
        sampleSession = some server ∧
      ∃ added : List (List Output),
        List.Forall₂ (fun writes outputs => writes outputs)
          (Transition.observations (step (fun _ => 16384) 16384 1048576) (Writes 16384 0)
            (.initial fun _ _ => 0) sampleSession) added ∧
        (server.loop.sockets 0).written = added.flatten.flatMap Output.bytes := by
  obtain ⟨server, hrun⟩ : ∃ server, Transition.run (step (fun _ => 16384) 16384 1048576)
      (.initial fun _ _ => 0) sampleSession = some server :=
    Option.isSome_iff_exists.mp (by decide +kernel)
  exact ⟨server, hrun, writes_of_run (fun _ => le_rfl) sampleSession_small hrun 0⟩

end

end MarketServer.UWS

import MarketServer.ServerStreams

/-! Frames that do not fit into the cork buffer. When such a frame has to wait, `send` returns
before it uncorks the socket, and what is corked later may go to another client. -/
namespace MarketServer.UWS
open Library

section

variable {ι : Type} [DecidableEq ι] {accepts : Nat → Nat} {maxBackpressure : Nat} {socket : ι}
  {loop : Loop ι} {message : Bytes} {opCode : OpCode}

theorem uncork_empty (accepts : Nat → Nat) (src : Bytes) (hcorked : loop.corkedSocket = some socket)
    (hempty : loop.corkBuffer = []) (hclosed : (loop.sockets socket).closed = false) :
    ∃ outcome next, uncork accepts socket src false loop = (outcome, next) ∧
      Grows socket src loop next ∧ next.Idle := by
  obtain ⟨failed, next, hnext, hgrows, hsame⟩ :=
    writeNow_grows src { loop with corkedSocket := none } hclosed
  refine ⟨(src.length, failed), next, ?_, hgrows.of_sockets rfl rfl, hsame.1,
    hsame.2.trans hempty⟩
  unfold uncork
  simp only
  rw [if_pos hcorked, if_neg (not_not_intro hempty)]
  exact hnext

/-- A frame for which there is no room. -/
theorem send_large (accepts : Nat → Nat) (opCode : OpCode)
    (hskips : ¬ Skips maxBackpressure socket loop) (hidle : loop.corkedSocket = none)
    (hlarge : corkBufferSize ≤ messageFrameSize message.length) :
    send accepts maxBackpressure socket message opCode loop =
      (let ((_, failed), next) :=
          write accepts socket (serverFrame message opCode) false (loop.cork socket)
      if failed then (false, next)
      else
        let ((_, failed), next) := uncork accepts socket [] false next
        (!failed, next)) := by
  have hroom : ¬ loop.corkBuffer.length + messageFrameSize message.length < corkBufferSize :=
    Nat.not_lt.mpr (hlarge.trans (Nat.le_add_left _ _))
  unfold send
  refine (if_neg hskips).trans ?_
  simp only [hidle, Loop.cork, if_true, hroom, and_false, if_false]
  rfl

instance : Decidable (Stalls accepts socket loop) := inferInstanceAs (Decidable (_ < _))

/-- Such a frame gets into the stream of its socket. The socket stays corked when what waits
in its buffer is not taken. -/
theorem send_large_grows (accepts : Nat → Nat) (opCode : OpCode)
    (hskips : ¬ Skips maxBackpressure socket loop) (hidle : loop.Idle)
    (hclosed : (loop.sockets socket).closed = false)
    (hlarge : corkBufferSize ≤ messageFrameSize message.length) :
    ∃ ok next, send accepts maxBackpressure socket message opCode loop = (ok, next) ∧
      Grows socket (serverFrame message opCode) loop next ∧ next.corkBuffer = [] ∧
      next.corkedSocket = if Stalls accepts socket loop then some socket else none := by
  have hopen : ((loop.cork socket).sockets socket).closed = false := hclosed
  have hcorked : (loop.cork socket).corkedSocket = some socket := rfl
  rw [send_large accepts opCode hskips hidle.1 hlarge]
  rcases write_corked accepts (serverFrame_ne_nil message opCode) hopen hcorked with
    ⟨hstalls, outcome, next, hnext, hgrows, hsame⟩ |
      ⟨hdrains, drained, hdrained, hsame, _, hwrite⟩
  · rw [hnext]
    refine ⟨_, _, rfl, hgrows.of_sockets rfl rfl, hsame.2.trans hidle.2, ?_⟩
    exact hsame.1.trans (if_pos (show Stalls accepts socket loop from hstalls)).symm
  · have hself : drained.corkedSocket = some socket := hsame.1
    have hempty : drained.corkBuffer = [] := hsame.2.trans hidle.2
    have hdrainedOpen : (drained.sockets socket).closed = false := hdrained.closed.trans hclosed
    have hnone : none = if Stalls accepts socket loop then some socket else none :=
      (if_neg (show ¬ Stalls accepts socket loop from hdrains)).symm
    rw [← hnone, hwrite]
    by_cases hfills : (serverFrame message opCode).length ≤
        corkBufferSize - (loop.cork socket).corkBuffer.length
    · -- the frame fills the cork buffer exactly
      have hfilled : ({ drained with
          corkBuffer := (loop.cork socket).corkBuffer ++ serverFrame message opCode } :
            Loop ι).corkedSocket = some socket := hself
      obtain ⟨outcome, next, rest, hnext, hgrows, hrest, hidleNext⟩ :=
        uncork_grows accepts [] hfilled hdrainedOpen
      obtain rfl : rest = [] := hrest.elim id id
      rw [if_pos hfills]
      simp only [Bool.false_eq_true, if_false, hnext]
      refine ⟨_, _, rfl, ?_, hidleNext.2, hidleNext.1⟩
      have hflushed : Grows socket _ drained next := hgrows.of_sockets rfl rfl
      have hboth : Grows socket _ loop next := (hdrained.trans hflushed).of_sockets rfl rfl
      have hbuffer : (loop.cork socket).corkBuffer = [] := hidle.2
      simpa only [hbuffer, List.nil_append, List.append_nil] using hboth
    · obtain ⟨⟨written, failed⟩, next, hnext, hgrows, hidleNext⟩ :=
        uncork_empty accepts (serverFrame message opCode) hself hempty hdrainedOpen
      have hboth : Grows socket _ loop next := (hdrained.trans hgrows).of_sockets rfl rfl
      rw [List.nil_append] at hboth
      rw [if_neg hfills, hnext]
      cases failed with
      | true => exact ⟨_, _, rfl, hboth, hidleNext.2, hidleNext.1⟩
      | false =>
        have hother : next.corkedSocket ≠ some socket := by
          rw [hidleNext.1]
          exact (Option.some_ne_none socket).symm
        simp only [Bool.false_eq_true, if_false, uncork_other hother]
        exact ⟨_, _, rfl, hboth, hidleNext.2, hidleNext.1⟩

/-- A message to a socket while another one is corked. -/
theorem send_elsewhere {stuck : ι} (accepts : Nat → Nat) (opCode : OpCode)
    (hcorked : loop.corkedSocket = some stuck) (hother : socket ≠ stuck)
    (hskips : ¬ Skips maxBackpressure socket loop) (hclosed : (loop.sockets socket).closed = false) :
    Grows socket (serverFrame message opCode) loop
        (send accepts maxBackpressure socket message opCode loop).2 ∧
      SameCork loop (send accepts maxBackpressure socket message opCode loop).2 := by
  have hself : loop.corkedSocket ≠ some socket := by
    rw [hcorked]
    exact fun h => hother (Option.some.inj h).symm
  have hsome : loop.corkedSocket ≠ none := by
    rw [hcorked]
    exact Option.some_ne_none stuck
  obtain ⟨outcome, next, hnext, hgrows, hsame⟩ :=
    write_uncorked accepts (serverFrame message opCode) hself hclosed
  rw [send_write hskips hsome fun h => hself h.1, hnext]
  exact ⟨hgrows, hsame⟩

/-- The loop before a rest of the members, in a broadcast of a frame for which there is no
room. -/
structure Lagging (members rest : List ι) (loop : Loop ι) : Prop where
  empty : loop.corkBuffer = []
  corked : ∀ socket, loop.corkedSocket = some socket → socket ∈ members ∧ socket ∉ rest
  nodup : rest.Nodup
  subset : rest ⊆ members

omit [DecidableEq ι] in
theorem Lagging.skip {members rest : List ι} (h : Lagging members (socket :: rest) loop) :
    Lagging members rest loop where
  empty := h.empty
  corked other hother :=
    ⟨(h.corked other hother).1, fun hmem => (h.corked other hother).2 (List.mem_cons_of_mem _ hmem)⟩
  nodup := h.nodup.of_cons
  subset := List.subset_of_cons_subset h.subset

theorem Lagging.send {members rest : List ι} (accepts : Nat → Nat)
    (hlarge : corkBufferSize ≤ messageFrameSize message.length)
    (h : Lagging members (socket :: rest) loop) (hclosed : (loop.sockets socket).closed = false)
    (hskips : ¬ Skips maxBackpressure socket loop) :
    Grows socket (serverFrame message opCode) loop
        (send accepts maxBackpressure socket message opCode loop).2 ∧
      Lagging members rest (send accepts maxBackpressure socket message opCode loop).2 := by
  cases hcorked : loop.corkedSocket with
  | none =>
    obtain ⟨ok, next, hnext, hgrows, hempty, hstays⟩ :=
      send_large_grows accepts opCode hskips ⟨hcorked, h.empty⟩ hclosed hlarge
    rw [hnext]
    refine ⟨hgrows, hempty, fun other hother => ?_, h.nodup.of_cons,
      List.subset_of_cons_subset h.subset⟩
    rw [hstays] at hother
    obtain rfl : socket = other := by
      split at hother
      · exact Option.some.inj hother
      · cases hother
    exact ⟨h.subset List.mem_cons_self, (List.nodup_cons.mp h.nodup).1⟩
  | some stuck =>
    have hother : socket ≠ stuck := by
      rintro rfl
      exact (h.corked socket hcorked).2 List.mem_cons_self
    obtain ⟨hgrows, hsame⟩ := send_elsewhere accepts opCode hcorked hother hskips hclosed
    refine ⟨hgrows, hsame.2.trans h.empty, fun other hother => ?_, h.nodup.of_cons,
      List.subset_of_cons_subset h.subset⟩
    exact h.skip.corked other (hsame.1.symm.trans hother)

/-- A broadcast of a frame for which there is no room reaches the members all the same. One of
them may stay corked. -/
theorem sends_large (accepts : Nat → Nat) (maxBackpressure : Nat)
    (hlarge : corkBufferSize ≤ messageFrameSize message.length) {sockets : List ι}
    (hnodup : sockets.Nodup) (hidle : loop.Idle)
    (hopen : ∀ socket ∈ sockets, (loop.sockets socket).closed = false) :
    Lagging sockets [] (sockets.foldl
        (fun loop socket => (send accepts maxBackpressure socket message .text loop).2) loop) ∧
      ∀ socket, ((sockets.foldl
          (fun loop socket => (send accepts maxBackpressure socket message .text loop).2)
          loop).sockets socket).stream =
        (loop.sockets socket).stream ++
          if socket ∈ sockets ∧ ¬ Skips maxBackpressure socket loop then serverFrame message .text
          else [] := by
  have hstart : Lagging sockets sockets loop := by
    refine ⟨hidle.2, fun socket hcorked => ?_, hnodup, List.Subset.refl _⟩
    rw [hidle.1] at hcorked
    cases hcorked
  exact sends_induct accepts maxBackpressure message .text Lagging.skip (Lagging.send accepts hlarge)
    hnodup hstart hopen

/-- A broadcast of any length. -/
theorem sends_any (accepts : Nat → Nat) (maxBackpressure : Nat) (message : Bytes) {sockets : List ι}
    (hnodup : sockets.Nodup) (hidle : loop.Idle)
    (hopen : ∀ socket ∈ sockets, (loop.sockets socket).closed = false) :
    let next := sockets.foldl
      (fun loop socket => (send accepts maxBackpressure socket message .text loop).2) loop
    next.corkBuffer = [] ∧
      (∀ socket, next.corkedSocket = some socket →
        socket ∈ sockets ∧ corkBufferSize ≤ messageFrameSize message.length) ∧
      ∀ socket, (next.sockets socket).stream = (loop.sockets socket).stream ++
        if socket ∈ sockets ∧ ¬ Skips maxBackpressure socket loop then serverFrame message .text
        else [] := by
  by_cases hlarge : corkBufferSize ≤ messageFrameSize message.length
  · obtain ⟨hlagging, hstreams⟩ := sends_large accepts maxBackpressure hlarge hnodup hidle hopen
    exact ⟨hlagging.empty, fun socket h => ⟨(hlagging.corked socket h).1, hlarge⟩, hstreams⟩
  · obtain ⟨hnext, hstreams⟩ :=
      sends_stream accepts maxBackpressure (Nat.not_le.mp hlarge) hnodup hidle hopen
    refine ⟨hnext.2, fun socket h => ?_, hstreams⟩
    rw [hnext.1] at h
    cases h

/-- What messages to other sockets leave alone while one is corked. -/
structure PassesBy (stuck : ι) (loop next : Loop ι) : Prop where
  cork : SameCork loop next
  stuck : next.sockets stuck = loop.sockets stuck
  closed : SameClosed loop next

theorem sends_elsewhere {stuck : ι} (accepts : Nat → Nat) (maxBackpressure : Nat) (message : Bytes)
    {sockets : List ι} (hnodup : sockets.Nodup) (hcorked : loop.corkedSocket = some stuck)
    (hstuck : stuck ∉ sockets) (hopen : ∀ socket ∈ sockets, (loop.sockets socket).closed = false) :
    PassesBy stuck loop (sockets.foldl
      (fun loop socket => (send accepts maxBackpressure socket message .text loop).2) loop) := by
  have hall := sends_induct accepts maxBackpressure message .text
    (P := fun rest next => stuck ∉ rest ∧ PassesBy stuck loop next)
    (fun h => ⟨fun hmem => h.1 (List.mem_cons_of_mem _ hmem), h.2⟩)
    (fun {socket rest next} ⟨hrest, hpasses⟩ hclosed hskips => ?_) hnodup
    ⟨hstuck, ⟨rfl, rfl⟩, rfl, fun _ => rfl⟩ hopen
  · exact hall.1.2
  · have hother : stuck ≠ socket := fun heq => hrest (heq ▸ List.mem_cons_self)
    obtain ⟨hgrows, hnext⟩ := send_elsewhere accepts .text (hpasses.cork.1.trans hcorked)
      hother.symm hskips hclosed
    exact ⟨hgrows, fun hmem => hrest (List.mem_cons_of_mem _ hmem), hpasses.cork.trans hnext,
      (hgrows.others stuck hother).trans hpasses.stuck,
      hpasses.closed.trans (send_sameClosed accepts socket maxBackpressure message .text next)⟩

/-- A frame for which there is room waits in the cork buffer if its socket is corked already. -/
theorem sends_stuck {stuck : ι} (accepts : Nat → Nat) (maxBackpressure : Nat)
    (hfits : messageFrameSize message.length < corkBufferSize) {sockets : List ι}
    (hnodup : sockets.Nodup) (hcorked : loop.corkedSocket = some stuck)
    (hempty : loop.corkBuffer = []) (hstuck : stuck ∈ sockets)
    (hskips : ¬ Skips maxBackpressure stuck loop)
    (hopen : ∀ socket ∈ sockets, (loop.sockets socket).closed = false) :
    let next := sockets.foldl
      (fun loop socket => (send accepts maxBackpressure socket message .text loop).2) loop
    next.corkBuffer = serverFrame message .text ∧ next.sockets stuck = loop.sockets stuck := by
  obtain ⟨before, after, rfl⟩ := List.append_of_mem hstuck
  obtain ⟨hbefore, hrest, hdisjoint⟩ := List.nodup_append'.mp hnodup
  obtain ⟨hnotAfter, hafter⟩ := List.nodup_cons.mp hrest
  have hnotBefore : stuck ∉ before := fun hmem => hdisjoint hmem List.mem_cons_self
  rw [List.foldl_append, List.foldl_cons]
  have hfirst := sends_elsewhere accepts maxBackpressure message hbefore hcorked hnotBefore
    fun socket hsocket => hopen socket (List.mem_append_left _ hsocket)
  generalize before.foldl _ loop = middle at hfirst ⊢
  have hmiddleSkips : ¬ Skips maxBackpressure stuck middle := by
    rwa [Skips, hfirst.stuck]
  have hmiddleCorked : middle.corkedSocket = some stuck := hfirst.cork.1.trans hcorked
  have hmiddleEmpty : middle.corkBuffer = [] := hfirst.cork.2.trans hempty
  have hroom : middle.corkBuffer.length + messageFrameSize message.length < corkBufferSize := by
    rwa [hmiddleEmpty, List.length_nil, Nat.zero_add]
  rw [send_room hmiddleSkips hmiddleCorked hroom, hmiddleEmpty, List.nil_append]
  have hlast := sends_elsewhere accepts maxBackpressure message hafter
    (show ({ middle with corkBuffer := serverFrame message .text } : Loop ι).corkedSocket =
      some stuck from hmiddleCorked) hnotAfter fun socket hsocket =>
        (hfirst.closed socket).trans
          (hopen socket (List.mem_append_right _ (List.mem_cons_of_mem _ hsocket)))
  exact ⟨hlast.cork.2, hlast.stuck.trans hfirst.stuck⟩

/-- The first socket keeps the cork if what waits in its buffer is not taken. -/
theorem sends_corks {first : ι} {sockets : List ι} (accepts : Nat → Nat)
    (hlarge : corkBufferSize ≤ messageFrameSize message.length) (hnodup : (first :: sockets).Nodup)
    (hidle : loop.Idle) (hskips : ¬ Skips maxBackpressure first loop)
    (hstalls : Stalls accepts first loop)
    (hopen : ∀ socket ∈ first :: sockets, (loop.sockets socket).closed = false) :
    ((first :: sockets).foldl
      (fun loop socket => (send accepts maxBackpressure socket message .text loop).2)
      loop).corkedSocket = some first := by
  obtain ⟨hfirst, hrest⟩ := List.nodup_cons.mp hnodup
  obtain ⟨ok, next, hnext, hgrows, hempty, hcorked⟩ := send_large_grows accepts .text hskips hidle
    (hopen first List.mem_cons_self) hlarge
  rw [if_pos hstalls] at hcorked
  have hsame := send_sameClosed accepts first maxBackpressure message .text loop
  rw [List.foldl_cons, hnext]
  rw [hnext] at hsame
  have hpasses := sends_elsewhere accepts maxBackpressure message hrest hcorked hfirst
    fun socket hsocket => (hsame socket).trans (hopen socket (List.mem_cons_of_mem _ hsocket))
  exact hpasses.cork.1.trans hcorked

end

section

variable {ι : Type} [LinearOrder ι] {accepts : Nat → Nat} {maxPayloadLength maxBackpressure : Nat}
  {mask : ι → Mask} {inputs : List (Input ι)} {server next : Server ι} {socket other : ι}
  {message bytes : Bytes}

/-- Data that make nothing happen yet, read while something is corked. What is corked is
written to the socket of the data. -/
theorem onData_silent (hclosed : (server.loop.sockets socket).closed = false)
    (hdown : (server.connections socket).isShuttingDown = false)
    (hreads : (server.connections socket).reads maxPayloadLength bytes = [])
    (h : WebSocketContext.onData accepts maxPayloadLength maxBackpressure socket bytes server =
      .ok next) :
    next.loop.Idle ∧ Grows socket server.loop.corkBuffer server.loop next.loop := by
  unfold WebSocketContext.onData at h
  rw [if_neg (by simp [hdown])] at h
  cases hconsume : consume true maxPayloadLength bytes (server.connections socket).reader with
  | error failure =>
    simp only [Server.setLoop, hconsume] at h
    cases h
  | ok reader =>
    rw [Connection.reads, if_neg (by simp [hdown]), hconsume] at hreads
    change reader.events.drop (server.connections socket).reader.events.length = [] at hreads
    simp only [Server.setLoop, hconsume] at h
    cases h
    rw [hreads, shutdownWhenDrained_loop]
    have hcorked : (server.loop.cork socket).corkedSocket = some socket := rfl
    obtain ⟨outcome, final, rest, hfinal, hgrows, hrest, hidle⟩ :=
      uncork_grows accepts [] hcorked hclosed
    obtain rfl : rest = [] := hrest.elim id id
    rw [List.append_nil] at hgrows
    change (uncork accepts socket [] false (server.loop.cork socket)).2.Idle ∧
      Grows socket server.loop.corkBuffer server.loop
        (uncork accepts socket [] false (server.loop.cork socket)).2
    rw [hfinal]
    exact ⟨hidle, hgrows.of_sockets rfl rfl⟩

theorem members_open
    (hrun : Transition.run (step accepts maxPayloadLength maxBackpressure) (.initial mask) inputs =
      some server) :
    ∀ socket ∈ server.wssConSet.toList, (server.loop.sockets socket).closed = false :=
  fun socket hsocket => ((run_follows hrun socket).registered.mp hsocket).2.1

/-- A broadcast of any length, in every run with small frames before it. It reaches the same
clients as a small one. Nothing waits in the cork buffer after it, but where there is no room for
the frame, a client may stay corked. -/
theorem broadcast_large (hsmall : ∀ input ∈ inputs, input.Small)
    (hrun : Transition.run (step accepts maxPayloadLength maxBackpressure) (.initial mask) inputs =
      some server)
    (hstep : step accepts maxPayloadLength maxBackpressure server (.broadcast message) = some next) :
    next.loop.corkBuffer = [] ∧
      (∀ socket, next.loop.corkedSocket = some socket →
        socket ∈ server.wssConSet ∧ corkBufferSize ≤ messageFrameSize message.length) ∧
      ∀ socket, (next.loop.sockets socket).stream = (server.loop.sockets socket).stream ++
        if socket ∈ server.wssConSet ∧ ¬ Skips maxBackpressure socket server.loop then
          serverFrame message .text
        else [] := by
  obtain rfl := Option.some.inj hstep
  rw [loop_broadcast]
  exact sends_any accepts maxBackpressure message server.wssConSet.nodup
    (run_streaming hsmall hrun).idle (members_open hrun)

theorem broadcast_large_sample :
    ∃ server next,
      Transition.run (step (fun _ => 0) 16384 1048576) (.initial fun _ _ => 0) sampleSession =
        some server ∧
      step (fun _ => 0) 16384 1048576 server (.broadcast (List.replicate 16384 0)) = some next ∧
      next.loop.corkBuffer = [] ∧
        (∀ socket, next.loop.corkedSocket = some socket →
          socket ∈ server.wssConSet ∧
            corkBufferSize ≤ messageFrameSize (List.replicate 16384 (0 : UInt8)).length) ∧
        ∀ socket, (next.loop.sockets socket).stream = (server.loop.sockets socket).stream ++
          if socket ∈ server.wssConSet ∧ ¬ Skips 1048576 socket server.loop then
            serverFrame (List.replicate 16384 0) .text
          else [] := by
  obtain ⟨server, hrun⟩ : ∃ server, Transition.run (step (fun _ => 0) 16384 1048576)
      (.initial fun _ _ => 0) sampleSession = some server :=
    Option.isSome_iff_exists.mp (by decide +kernel)
  exact ⟨server, _, hrun, rfl, broadcast_large sampleSession_small hrun rfl⟩

/-- Where a broadcast leaves a client corked, the next small one does not reach that client: its
frame waits in the cork buffer until some client sends a piece of a frame, and is written to that
one, which may have got it already. -/
theorem broadcast_misdirected (hsmall : ∀ input ∈ inputs, input.Small)
    (hrun : Transition.run (step accepts maxPayloadLength maxBackpressure) (.initial mask) inputs =
      some server) {large : Bytes} {stuck told : Server ι}
    (hlarge : step accepts maxPayloadLength maxBackpressure server (.broadcast large) = some stuck)
    (hcorked : stuck.loop.corkedSocket = some socket)
    (hskips : ¬ Skips maxBackpressure socket stuck.loop)
    (hfits : messageFrameSize message.length < corkBufferSize)
    (hbroadcast : step accepts maxPayloadLength maxBackpressure stuck (.broadcast message) =
      some told)
    (hother : other ≠ socket) (hdown : (told.connections other).isShuttingDown = false)
    (hreads : (told.connections other).reads maxPayloadLength bytes = [])
    (hdata : step accepts maxPayloadLength maxBackpressure told (.data other bytes) = some next) :
    next.loop.Idle ∧ socket ∈ next.wssConSet ∧
      (next.loop.sockets socket).stream = (stuck.loop.sockets socket).stream ∧
      (next.loop.sockets other).stream =
        (told.loop.sockets other).stream ++ serverFrame message .text := by
  have hrunStuck : Transition.run (step accepts maxPayloadLength maxBackpressure) (.initial mask)
      (inputs ++ [.broadcast large]) = some stuck := Transition.run_concat hrun hlarge
  have hopen := members_open hrunStuck
  have hleft : stuck.loop.corkBuffer = [] ∧ socket ∈ stuck.wssConSet := by
    have hsame := congrArg Session.registered (step_session hlarge socket).2
    have hany := sends_any accepts maxBackpressure large server.wssConSet.nodup
      (run_streaming hsmall hrun).idle (members_open hrun)
    rw [← loop_broadcast, Option.some.inj hlarge] at hany
    exact ⟨hany.1, hsame.mpr (hany.2.1 socket hcorked).1⟩
  have hwaits : told.loop.corkBuffer = serverFrame message .text ∧
      told.loop.sockets socket = stuck.loop.sockets socket := by
    rw [← Option.some.inj hbroadcast, loop_broadcast]
    exact sends_stuck accepts maxBackpressure hfits stuck.wssConSet.nodup hcorked hleft.1 hleft.2
      hskips hopen
  have hregistered : socket ∈ next.wssConSet := by
    have hbefore := (step_session hbroadcast socket).2
    have hafter := (step_session hdata socket).2
    rw [Session.input, if_neg hother, hbefore] at hafter
    exact (congrArg Session.registered hafter).mpr hleft.2
  obtain ⟨hallowed, hread⟩ := Option.ite_none_right_eq_some.mp hdata
  cases hresult : WebSocketContext.onData accepts maxPayloadLength maxBackpressure other bytes
    told with
  | error failure =>
    rw [hresult] at hread
    cases hread
  | ok result =>
    rw [hresult] at hread
    cases hread
    obtain ⟨hidle, hgrows⟩ :=
      onData_silent ((Bool.not_eq_true' _).mp hallowed.2) hdown hreads hresult
    rw [hwaits.1] at hgrows
    refine ⟨hidle, hregistered, ?_, hgrows.stream⟩
    rw [hgrows.others socket hother.symm, hwaits.2]

/-- Two clients that have not taken their responses yet. -/
def slowSession : List (Input Nat) := [.upgrade 0 [72] [91, 93], .upgrade 1 [72] [91, 93]]

/-- The first byte of a text frame makes nothing happen yet. -/
theorem broadcast_misdirected_sample :
    ∃ server stuck told next : Server Nat,
      Transition.run (step (fun _ => 0) 16384 1048576) (.initial fun _ _ => 0) slowSession =
        some server ∧
      step (fun _ => 0) 16384 1048576 server (.broadcast (List.replicate 16384 65)) =
        some stuck ∧
      step (fun _ => 0) 16384 1048576 stuck (.broadcast [104]) = some told ∧
      step (fun _ => 0) 16384 1048576 told (.data 1 [129]) = some next ∧
      next.loop.Idle ∧ 0 ∈ next.wssConSet ∧
      (next.loop.sockets 0).stream = (stuck.loop.sockets 0).stream ∧
      (next.loop.sockets 1).stream =
        (told.loop.sockets 1).stream ++ serverFrame [104] .text := by
  have hsmall : ∀ input ∈ slowSession, input.Small := by decide
  obtain ⟨server, hrun, hmembers, hstalls, hstream, hopened, hdown, hreads, hopen⟩ :
      ∃ server : Server Nat,
        Transition.run (step (fun _ => 0) 16384 1048576) (.initial fun _ _ => 0) slowSession =
          some server ∧
        server.wssConSet.toList = [0, 1] ∧ Stalls (fun _ => 0) 0 server.loop ∧
        (server.loop.sockets 0).stream.length = 5 ∧
        (server.connections 1).opened = true ∧ (server.connections 1).isShuttingDown = false ∧
        (server.connections 1).reads 16384 [129] = [] ∧ (server.loop.sockets 1).closed = false :=
    Transition.run_satisfies (by decide +kernel)
  obtain ⟨stuck, hstuck⟩ : ∃ stuck, step (fun _ => 0) 16384 1048576 server
      (.broadcast (List.replicate 16384 65)) = some stuck := ⟨_, rfl⟩
  obtain ⟨told, htold⟩ : ∃ told,
      step (fun _ => 0) 16384 1048576 stuck (.broadcast [104]) = some told := ⟨_, rfl⟩
  have hrunTold : Transition.run (step (fun _ => 0) 16384 1048576) (.initial fun _ _ => 0)
      (slowSession ++ [.broadcast (List.replicate 16384 65), .broadcast [104]]) = some told :=
    Transition.run_append_eq_some.mpr ⟨server, hrun, Transition.run_cons_eq_some.mpr
      ⟨stuck, hstuck, Transition.run_cons_eq_some.mpr ⟨told, htold, rfl⟩⟩⟩
  have hconnection : told.connections 1 = server.connections 1 := by
    rw [← Option.some.inj htold, ← Option.some.inj hstuck, broadcast_eq, broadcast_eq]
    rfl
  have hclosed : (told.loop.sockets 1).closed = false := by
    have hsession := (step_session htold 1).2.trans (step_session hstuck 1).2
    exact (congrArg Session.closed hsession).trans hopen
  obtain ⟨next, hnext⟩ := onData_isOk (fun _ => 0) 1048576 [129] (run_follows hrunTold 1) hclosed
  have hdata : step (fun _ => 0) 16384 1048576 told (.data 1 [129]) = some next := by
    simp [step, hconnection, hopened, hclosed, hnext, Except.toOption]
  have hidle := (run_streaming hsmall hrun).idle
  have hstalled : ¬ Skips 1048576 0 server.loop := by
    have hle : (server.loop.sockets 0).buffer.length ≤ (server.loop.sockets 0).stream.length := by
      simp [SocketData.stream]
    unfold Skips
    omega
  have hcorked : stuck.loop.corkedSocket = some 0 := by
    rw [← Option.some.inj hstuck, loop_broadcast, hmembers]
    apply sends_corks
    · rw [List.length_replicate]
      decide
    · decide
    · exact hidle
    · exact hstalled
    · exact hstalls
    · rw [← hmembers]
      exact members_open hrun
  -- what is buffered is part of the stream, which grew by one frame
  have hbuffered : ¬ Skips 1048576 0 stuck.loop := by
    have hgrown := (sends_any (fun _ => 0) 1048576 (List.replicate 16384 65)
      server.wssConSet.nodup hidle (members_open hrun)).2.2 0
    rw [← loop_broadcast, Option.some.inj hstuck] at hgrown
    have hle : (stuck.loop.sockets 0).buffer.length ≤ (stuck.loop.sockets 0).stream.length := by
      simp [SocketData.stream]
    have hframe : (serverFrame (List.replicate 16384 (65 : UInt8)) .text).length = 16388 := by
      rw [length_serverFrame, List.length_replicate]
      decide
    rw [hgrown, List.length_append, hstream] at hle
    unfold Skips
    split at hle
    · omega
    · simp only [List.length_nil] at hle
      omega
  exact ⟨server, stuck, told, next, hrun, hstuck, htold, hdata,
    broadcast_misdirected hsmall hrun hstuck hcorked hbuffered (by decide) htold
      (by decide) (by rw [hconnection, hdown]) (by rw [hconnection, hreads]) hdata⟩

end

end MarketServer.UWS

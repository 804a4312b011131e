import MarketServer.ServerStreams

/-! The server with a client at the other end, which reads frames as `WebSocketProtocol.h`
does for a client. -/
namespace MarketServer.UWS
open Library

/-- What a client hears of what the server writes: nothing after a close frame. -/
def heard : List Output → List Event
  | [] => []
  | .response _ :: outputs => heard outputs
  | .message opCode data :: outputs =>
    if opCode = .close then [.close (parseClosePayload data)]
    else Send.events ⟨opCode, data, fun _ => 0⟩ ++ heard outputs

/-- What a client does not refuse. -/
def Output.Welcome (maxPayloadLength : Nat) : Output → Prop
  | .response _ => False
  | .message opCode data =>
    Send.Welcome maxPayloadLength ⟨opCode, data, fun _ => 0⟩ ∨
      opCode = .close ∧ data.length ≤ 125 ∧ data.length ≤ maxPayloadLength

theorem Send.Welcome.ne_close {maxPayloadLength : Nat} {send : Send}
    (h : send.Welcome maxPayloadLength) : send.opCode ≠ .close := by
  intro hclose
  rcases h.2 with (⟨hkind, _⟩ | hkind) | ⟨hkind | hkind, _⟩ <;>
    exact absurd (hclose.symm.trans hkind) (by decide)

theorem feed_send {maxPayloadLength : Nat} (hmax : maxPayloadLength < 2 ^ 32) {send : Send}
    (h : send.Welcome maxPayloadLength) (before : List Event) :
    (⟨before, some (.head [], ⟨[], true, [], []⟩)⟩ : Reader).feed false maxPayloadLength
        (send.format true) =
      ⟨before ++ send.events, some (.head [], ⟨[], true, [], []⟩)⟩ := by
  have hall : ∀ other ∈ [send], other.Welcome maxPayloadLength := by simpa using h
  have hfed := feed_sends false hmax hall before
  rwa [List.flatMap_singleton, List.flatMap_singleton] at hfed

theorem feed_outputs {maxPayloadLength : Nat} (hmax : maxPayloadLength < 2 ^ 32)
    {outputs : List Output} (h : ∀ output ∈ outputs, output.Welcome maxPayloadLength)
    (before : List Event) :
    ((⟨before, some (.head [], ⟨[], true, [], []⟩)⟩ : Reader).feed false maxPayloadLength
      (outputs.flatMap Output.bytes)).events = before ++ heard outputs := by
  induction outputs generalizing before with
  | nil => exact (List.append_nil before).symm
  | cons output outputs ih =>
    have hrest := ih fun other hother => h other (List.mem_cons_of_mem _ hother)
    have hwelcome := h output List.mem_cons_self
    cases output with
    | response head => exact absurd hwelcome id
    | message opCode data =>
      rw [List.flatMap_cons]
      rcases hwelcome with hwelcome | ⟨rfl, hshort, hlength⟩
      · rw [heard, if_neg hwelcome.ne_close, Reader.feed_append]
        have hfed := feed_send hmax hwelcome before
        change Reader.feed _ _ _ (Output.message opCode data).bytes = _ at hfed
        rw [hfed, hrest, List.append_assoc]
      · have hfed := feed_close false hshort hlength (fun _ => 0) before
          (outputs.flatMap Output.bytes)
        change Reader.feed _ _ _ ((Output.message .close data).bytes ++ _) = _ at hfed
        rw [hfed, heard, if_pos rfl]

/-- What a client hears of a stream, of which the kernel took a part. -/
theorem hears_stream {maxPayloadLength : Nat} (hmax : maxPayloadLength < 2 ^ 32)
    {outputs : List Output} (hwelcome : ∀ output ∈ outputs, output.Welcome maxPayloadLength)
    {head : Bytes} {data : SocketData} (hstream : data.stream = head ++ outputs.flatMap Output.bytes)
    {chunks : List Bytes} (hchunks : head ++ chunks.flatten <+: data.written) (memory : Mask) :
    ∃ client, receive false maxPayloadLength chunks (.initial memory) = .ok client ∧
      client.events <+: heard outputs ∧
      (head ++ chunks.flatten = data.stream → client.events = heard outputs) := by
  obtain ⟨client, hclient, hread, _⟩ := receive_reader false maxPayloadLength chunks memory
  have hfed := feed_outputs hmax hwelcome []
  refine ⟨client, hclient, ?_, fun hwhole => ?_⟩
  · have hwritten : data.written <+: data.stream := List.prefix_append _ _
    have hpart := hchunks.trans hwritten
    rw [hstream] at hpart
    have hevents := Reader.prefix_feed false maxPayloadLength
      ((List.prefix_append_right_inj head).mp hpart) ⟨[], some (.head [], ⟨[], true, [], []⟩)⟩
    rw [hfed, ← hread] at hevents
    exact hevents
  · rw [hstream] at hwhole
    rw [← List.append_cancel_left hwhole, ← hread] at hfed
    exact hfed

/-- The texts of the server. -/
def Input.ValidTexts {ι : Type} : Input ι → Prop
  | .upgrade _ _ symbols => symbols.ValidUtf8
  | .broadcast message => message.ValidUtf8
  | .data _ _ | .writable _ | .gone _ => True

section

variable {ι : Type} [LinearOrder ι] {accepts : Nat → Nat}
  {maxPayloadLength maxBackpressure clientLength : Nat} {mask : ι → Mask} {server : Server ι}
  {socket : ι} {input : Input ι} {outputs : List Output}

theorem answers_welcome (hlength : corkBufferSize ≤ clientLength) {event : Event}
    (h : event.Sound maxPayloadLength) : ∀ output ∈ event.answers, output.Welcome clientLength := by
  have hlarge : 125 ≤ clientLength := le_trans (by decide) hlength
  intro output houtput
  cases event with
  | message opCode data =>
    obtain rfl := List.mem_singleton.mp houtput
    have hvalid : (Bytes.ofLiteral "This is Cplus").ValidUtf8 := by decide +kernel
    refine .inl ⟨length_cplus.trans hlarge, .inl ?_⟩
    exact h.1.imp (fun htext => ⟨htext.1, hvalid⟩) id
  | ping data =>
    obtain rfl := List.mem_singleton.mp houtput
    exact .inl ⟨le_trans h hlarge, .inr ⟨.inr rfl, h⟩⟩
  | pong => cases houtput
  | close frame =>
    obtain rfl := List.mem_singleton.mp houtput
    have hshort := length_closePayload frame.code frame.message
    exact .inr ⟨rfl, hshort, hshort.trans hlarge⟩
  | forceClose reason => cases houtput

theorem text_welcome (hlength : corkBufferSize ≤ clientLength) {message : Bytes}
    (hfits : messageFrameSize message.length < corkBufferSize) (hvalid : message.ValidUtf8) :
    (Output.message .text message).Welcome clientLength := by
  have hsize : message.length ≤ messageFrameSize message.length := by
    unfold messageFrameSize
    split
    · omega
    · split <;> omega
  exact .inl ⟨(hsize.trans hfits.le).trans hlength, .inl (.inl ⟨rfl, hvalid⟩)⟩

/-- A client that is connected refuses nothing of what is added to its stream. -/
theorem adds_welcome {inputs : List (Input ι)} (hlength : corkBufferSize ≤ clientLength)
    (hfollows : (server.session socket).Follows maxPayloadLength (mask socket) socket inputs)
    (hallows : (server.session socket).Allows socket input)
    (hopened : (server.session socket).opened = true) (hsmall : input.Small)
    (hvalid : input.ValidTexts)
    (h : Adds maxPayloadLength maxBackpressure socket server input outputs) :
    ∀ output ∈ outputs, output.Welcome clientLength := by
  cases input with
  | upgrade other response symbols =>
    have hother : other ≠ socket := by
      intro heq
      have hfresh := hallows heq
      rw [hopened] at hfresh
      cases hfresh
    rw [Adds, if_neg hother] at h
    subst h
    exact fun _ hmem => absurd hmem List.not_mem_nil
  | data other bytes =>
    intro output houtput
    have hmem := h.subset houtput
    by_cases hother : other = socket
    · rw [if_pos hother] at hmem
      obtain ⟨event, hevent, hanswer⟩ := List.mem_flatMap.mp hmem
      exact answers_welcome hlength
        (reads_sound hfollows (hallows hother).2 bytes event hevent) output hanswer
    · rw [if_neg hother] at hmem
      cases hmem
  | writable other =>
    obtain rfl : outputs = [] := h
    exact fun _ hmem => absurd hmem List.not_mem_nil
  | gone other =>
    obtain rfl : outputs = [] := h
    exact fun _ hmem => absurd hmem List.not_mem_nil
  | broadcast message =>
    intro output houtput
    obtain rfl : outputs = _ := h
    split at houtput
    · obtain rfl := List.mem_singleton.mp houtput
      exact text_welcome hlength hsmall hvalid
    · cases houtput

theorem upgraded_stream {inputs : List (Input ι)} {next : Server ι} {head symbols : Bytes}
    (h : Streaming maxPayloadLength mask inputs server)
    (hsmall : (Input.upgrade socket head symbols).Small)
    (hstep : step accepts maxPayloadLength maxBackpressure server (.upgrade socket head symbols) =
      some next) :
    (next.loop.sockets socket).stream = head ++ (Output.message .text symbols).bytes := by
  have hunopened := (step_session hstep socket).1 rfl
  obtain ⟨outputs, houtputs, hstream⟩ := (step_adds h hsmall hstep).2 socket
  rw [Adds, if_pos rfl] at houtputs
  rw [hstream, h.fresh socket hunopened, houtputs]
  simp [Output.bytes]

/-- What is added to the stream of a client that is connected. -/
theorem run_welcome {inputs after : List (Input ι)} {final : Server ι}
    (h : Streaming maxPayloadLength mask inputs server)
    (hopened : inputs.any (Input.isUpgrade socket) = true)
    (hlength : corkBufferSize ≤ clientLength)
    (hafter : ∀ input ∈ after, input.Small ∧ input.ValidTexts)
    (hrun : Transition.run (step accepts maxPayloadLength maxBackpressure) server after =
      some final) :
    ∃ added : List (List Output),
      List.Forall₂ (fun adds outputs => adds outputs)
        (Transition.observations (step accepts maxPayloadLength maxBackpressure)
          (Adds maxPayloadLength maxBackpressure socket) server after) added ∧
      (∀ output ∈ added.flatten, output.Welcome clientLength) ∧
      (final.loop.sockets socket).stream =
        (server.loop.sockets socket).stream ++ added.flatten.flatMap Output.bytes := by
  obtain ⟨_, added, hadded, hwelcome, hstream⟩ := Transition.run_adds
    (fun server => ∃ inputs, Streaming maxPayloadLength mask inputs server ∧
      inputs.any (Input.isUpgrade socket) = true)
    (fun server => (server.loop.sockets socket).stream) (List.flatMap Output.bytes)
    (Adds maxPayloadLength maxBackpressure socket)
    (fun outputs => ∀ output ∈ outputs, output.Welcome clientLength)
    (fun input => input.Small ∧ input.ValidTexts)
    (fun hallowed ⟨inputs, hstate, hopened⟩ hnext => by
      obtain ⟨outputs, houtputs, hstream⟩ := (step_adds hstate hallowed.1 hnext).2 socket
      refine ⟨⟨_, step_streaming hstate hallowed.1 hnext, by simp [hopened]⟩, outputs, houtputs, ?_,
        hstream⟩
      exact adds_welcome hlength (hstate.follows socket) (step_session hnext socket).1
        ((hstate.follows socket).opened.trans hopened) hallowed.1 hallowed.2 houtputs)
    hafter ⟨inputs, h, hopened⟩ hrun
  refine ⟨added, hadded, fun output houtput => ?_, ?_⟩
  · obtain ⟨outputs, houtputs, hmem⟩ := List.mem_flatten.mp houtput
    exact hwelcome outputs houtputs output hmem
  · rw [hstream, List.flatten_eq_flatMap, List.flatMap_assoc]
    rfl

/-- The server and one of its clients, in every run: whatever the kernel takes, whatever the
clients send and in whatever pieces the bytes arrive, what the client hears is the beginning of
the list of the symbols at its opening and then of what was addressed to it. It has heard all
of it when the kernel has taken all. -/
theorem client_hears {before after : List (Input ι)} {head symbols : Bytes}
    (hsmall : ∀ input ∈ before ++ .upgrade socket head symbols :: after, input.Small)
    (hvalid : ∀ input ∈ before ++ .upgrade socket head symbols :: after, input.ValidTexts)
    (hrun : Transition.run (step accepts maxPayloadLength maxBackpressure) (.initial mask)
      (before ++ .upgrade socket head symbols :: after) = some server)
    (hlength : corkBufferSize ≤ clientLength) (hmax : clientLength < 2 ^ 32)
    {chunks : List Bytes} (hchunks : head ++ chunks.flatten <+: (server.loop.sockets socket).written)
    (memory : Mask) :
    ∃ upgraded client, ∃ added : List (List Output),
      Transition.run (step accepts maxPayloadLength maxBackpressure) (.initial mask)
        (before ++ [.upgrade socket head symbols]) = some upgraded ∧
      List.Forall₂ (fun adds outputs => adds outputs)
        (Transition.observations (step accepts maxPayloadLength maxBackpressure)
          (Adds maxPayloadLength maxBackpressure socket) upgraded after) added ∧
      receive false clientLength chunks (.initial memory) = .ok client ∧
      client.events <+: heard (.message .text symbols :: added.flatten) ∧
      (head ++ chunks.flatten = (server.loop.sockets socket).stream →
        client.events = heard (.message .text symbols :: added.flatten)) := by
  have hsmallUpgrade := hsmall _ (List.mem_append_right _ List.mem_cons_self)
  have hvalidUpgrade := hvalid _ (List.mem_append_right _ List.mem_cons_self)
  rw [List.append_cons] at hrun hsmall hvalid
  obtain ⟨upgraded, hupgraded, hafter⟩ := Transition.run_append_eq_some.mp hrun
  obtain ⟨opening, hopening, hupgrade⟩ := Transition.run_append_eq_some.mp hupgraded
  obtain ⟨_, hstep, hnil⟩ := Transition.run_cons_eq_some.mp hupgrade
  obtain rfl := Option.some.inj hnil
  have hstart := run_streaming
    (fun input h => hsmall input (List.mem_append_left _ (List.mem_append_left _ h))) hopening
  have hopened :
      (before ++ [Input.upgrade socket head symbols]).any (Input.isUpgrade socket) = true := by
    simp [Input.isUpgrade]
  obtain ⟨added, hadded, hwelcome, hstream⟩ := run_welcome
    (step_streaming hstart hsmallUpgrade hstep) hopened hlength
    (fun input h => ⟨hsmall input (List.mem_append_right _ h),
      hvalid input (List.mem_append_right _ h)⟩) hafter
  have hall : ∀ output ∈ Output.message .text symbols :: added.flatten,
      output.Welcome clientLength := by
    refine List.forall_mem_cons.mpr ⟨text_welcome hlength ?_ hvalidUpgrade, hwelcome⟩
    exact (Nat.le_add_left _ _).trans_lt hsmallUpgrade
  rw [upgraded_stream hstart hsmallUpgrade hstep, List.append_assoc, ← List.flatMap_cons] at hstream
  obtain ⟨client, hclient, hevents, hwhole⟩ := hears_stream hmax hall hstream hchunks memory
  exact ⟨_, client, added, hupgraded, hadded, hclient, hevents, hwhole⟩

theorem sampleSession_valid : ∀ input ∈ sampleSession, input.ValidTexts := by
  have hsymbols : Bytes.ValidUtf8 [91, 93] := by decide
  have hmessage : Bytes.ValidUtf8 [104] := by decide
  simp [sampleSession, Input.ValidTexts, hsymbols, hmessage]

/-- The client that stays has got all. -/
theorem client_hears_sample :
    ∃ server upgraded client, ∃ added : List (List Output),
      Transition.run (step (fun _ => 16384) 16384 1048576) (.initial fun _ _ => 0) sampleSession =
        some server ∧
      Transition.run (step (fun _ => 16384) 16384 1048576) (.initial fun _ _ => 0)
        (sampleSession.take 3) = some upgraded ∧
      List.Forall₂ (fun adds outputs => adds outputs)
        (Transition.observations (step (fun _ => 16384) 16384 1048576) (Adds 16384 1048576 1)
          upgraded (sampleSession.drop 3)) added ∧
      receive false 16384 [serverFrame [91, 93] .text, serverFrame [104] .text]
        (.initial fun _ => 0) = .ok client ∧
      client.events = heard (.message .text [91, 93] :: added.flatten) := by
  obtain ⟨server, hrun, hwritten, hbuffer⟩ : ∃ server : Server Nat,
      Transition.run (step (fun _ => 16384) 16384 1048576) (.initial fun _ _ => 0) sampleSession =
        some server ∧
      (server.loop.sockets 1).written = 72 :: serverFrame [91, 93] .text ++ serverFrame [104] .text ∧
      (server.loop.sockets 1).buffer = [] :=
    Transition.run_satisfies (by decide +kernel)
  have hchunks : [72] ++ [serverFrame [91, 93] .text, serverFrame [104] .text].flatten =
      (server.loop.sockets 1).written := by
    rw [hwritten]
    rfl
  have hsmall : ∀ input ∈ sampleSession.take 2 ++ .upgrade 1 [72] [91, 93] :: sampleSession.drop 3,
      input.Small :=
    sampleSession_small
  obtain ⟨upgraded, client, added, hupgraded, hadded, hclient, _, hall⟩ :=
    client_hears hsmall sampleSession_valid hrun (by decide : corkBufferSize ≤ 16384) (by decide)
      ⟨[], (List.append_nil _).trans hchunks⟩ fun _ => 0
  refine ⟨server, upgraded, client, added, hrun, hupgraded, hadded, hclient, hall ?_⟩
  rw [hchunks, SocketData.stream, hbuffer, List.append_nil]

end

end MarketServer.UWS

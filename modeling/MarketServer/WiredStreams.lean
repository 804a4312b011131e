import MarketServer.Wired
import MarketServer.Delivery
import MarketServer.PromptKernel

/-! What the clients hear of the stations. The stream of a client carries the messages that were
sent to it, in their order, with the answers to its own data between them. -/
namespace MarketServer
open Library

variable {F : Type} [Component F]

/-- What is sent, to all or to one. -/
def Observation.says? : Observation F → Option (Message F)
  | .broadcast message | .sent _ message => some message
  | _ => none

def Log.said (log : Log F) : List (Message F) := log.filterMap Observation.says?

/-- A part of what is written to a client behind the response to its upgrade. -/
inductive Talk (F : Type) [Component F] where
  | told (message : Message F)
  | answer (output : UWS.Output)

namespace Talk

variable (bytes : Text F → Bytes)

def output : Talk F → UWS.Output
  | .told message => .message .text (bytes message.text)
  | .answer output => output

def told? : Talk F → Option (Message F)
  | .told message => some message
  | .answer _ => none

/-- An answer to something that a client may send. -/
def Answers (maxPayloadLength : Nat) : Talk F → Prop
  | .told _ => True
  | .answer output =>
    ∃ event : UWS.Event, event.Sound maxPayloadLength ∧ event.ends = false ∧ output ∈ event.answers

end Talk

namespace UWS

variable {ι : Type} [LinearOrder ι] {accepts : Nat → Nat} {maxPayloadLength maxBackpressure : Nat}
  {mask : ι → Mask} {before : List (Input ι)} {server next : Server ι} {socket : ι}
  {outputs : List Output}

theorem reader_close (session : Session) : session.close.reader = session.reader := by
  unfold Session.close Session.announce
  simp only
  split <;> rfl

theorem reader_handle (session : Session) (event : Event) :
    (session.handle event).reader = session.reader := by
  cases event with
  | close frame =>
    by_cases hdown : session.isShuttingDown = true
    · rw [Session.handle, if_pos hdown]
    · rw [Session.handle, if_neg hdown]
      rfl
  | forceClose reason => exact reader_close session
  | _ => rfl

theorem reader_handles (events : List Event) (session : Session) :
    (events.foldl Session.handle session).reader = session.reader := by
  induction events generalizing session with
  | nil => rfl
  | cons event events ih => exact (ih _).trans (reader_handle session event)

/-- The answers to a piece of data, all of them before the end of the connection if it is not
over. -/
theorem data_answers {bytes : Bytes} (hstreaming : Streaming maxPayloadLength mask before server)
    (hstep : step accepts maxPayloadLength maxBackpressure server (.data socket bytes) = some next)
    (h : Adds maxPayloadLength maxBackpressure socket server (.data socket bytes) outputs) :
    ∀ output ∈ outputs, ∃ event : Event, event.Sound maxPayloadLength ∧
      output ∈ event.answers ∧ (socket ∈ next.wssConSet → event.ends = false) := by
  intro output houtput
  obtain ⟨hallows, hsession⟩ := step_session hstep socket
  obtain ⟨_, hclosed⟩ := hallows rfl
  rw [Adds, if_pos rfl] at h
  obtain ⟨event, hevent, hanswer⟩ := List.mem_flatMap.mp (h.subset houtput)
  have hsound := reads_sound (hstreaming.follows socket) hclosed bytes event hevent
  refine ⟨event, hsound, hanswer, fun hmem => ?_⟩
  rcases Bool.eq_false_or_eq_true (server.connections socket).isShuttingDown with hdown | hdown
  · rw [Connection.reads, if_pos hdown] at hevent
    cases hevent
  · obtain ⟨reader, hreader, _, _, hopen⟩ :=
      reads_spec (hstreaming.follows socket) hclosed hdown bytes
    have hfollows := (hstreaming.follows socket).input hallows
    rw [← hsession] at hfollows
    obtain ⟨_, hnextClosed, hnextDown⟩ := hfollows.registered.mp hmem
    have hbroken := (hfollows.unended hnextClosed hnextDown).1
    have hread : (next.session socket).reader = reader := by
      have hup : ¬ (server.session socket).isShuttingDown = true := by
        rw [Bool.not_eq_true]
        exact hdown
      have hconsume : consume true maxPayloadLength bytes (server.session socket).reader =
        .ok reader := hreader
      rw [hsession, Session.input, if_pos rfl, Session.data, if_neg hup, hconsume]
      exact reader_handles _ _
    rw [hread] at hbroken
    exact hopen hbroken event hevent

end UWS

namespace Wired

variable {bytes : Text F → Bytes} {accepts : Nat → Nat} {maxPayloadLength maxBackpressure : Nat}
  {mask : Client → UWS.Mask} {wired next : Wired F} {inputs : List (Input F)} {client : Client}

/-- No message is left out: there is no limit for the buffers, or nothing waits in them. -/
def Lossless (accepts : Nat → Nat) (maxBackpressure : Nat) : Prop :=
  maxBackpressure = 0 ∨ UWS.Prompt accepts

/-- The frames fit into the cork buffer, also behind the response to an upgrade. -/
def Fits (bytes : Text F → Bytes) (inputs : List (Input F)) (log : Log F) : Prop :=
  ∀ message ∈ Log.said log,
    UWS.messageFrameSize (bytes message.text).length < UWS.corkBufferSize ∧
      ∀ response ∈ inputs.filterMap Input.response?, response.length +
        UWS.messageFrameSize (bytes message.text).length < UWS.corkBufferSize

instance (log : Log F) : Decidable (Fits bytes inputs log) :=
  inferInstanceAs (Decidable (∀ message ∈ Log.said log, _ ∧ ∀ response ∈ _, _))

theorem Fits.earlier {more : List (Input F)} {log suffix : Log F}
    (h : Fits bytes (inputs ++ more) (log ++ suffix)) : Fits bytes inputs log := by
  intro message hmessage
  have hmem : message ∈ Log.said (log ++ suffix) := by
    rw [Log.said, List.filterMap_append]
    exact List.mem_append_left _ hmessage
  obtain ⟨hframe, hupgrades⟩ := h message hmem
  refine ⟨hframe, fun response hresponse => hupgrades response ?_⟩
  rw [List.filterMap_append]
  exact List.mem_append_left _ hresponse

/-- The messages to the members get into the streams, but for the clients whose buffers are over
the limit. -/
theorem carry_streams {messages : List (Message F)} {server final : UWS.Server Client}
    {before : List (UWS.Input Client)}
    (hstreaming : UWS.Streaming maxPayloadLength mask before server)
    (hcalm : UWS.Prompt accepts → UWS.Calm server.loop)
    (hfits : ∀ message ∈ messages,
      UWS.messageFrameSize (bytes message.text).length < UWS.corkBufferSize)
    (h : carry bytes accepts maxPayloadLength maxBackpressure messages server = some final) :
    (∃ after, UWS.Streaming maxPayloadLength mask after final) ∧
      (UWS.Prompt accepts → UWS.Calm final.loop) ∧
      ∀ client, ∃ told : List (Message F),
        told.Sublist (if client ∈ server.wssConSet then messages else []) ∧
        (Lossless accepts maxBackpressure →
          told = if client ∈ server.wssConSet then messages else []) ∧
        (final.loop.sockets client).stream = (server.loop.sockets client).stream ++
          (told.map fun message => Talk.output bytes (.told message)).flatMap UWS.Output.bytes := by
  induction messages generalizing server before with
  | nil =>
    obtain rfl := Option.some.inj h
    exact ⟨⟨before, hstreaming⟩, hcalm, fun client => ⟨[], List.nil_sublist _,
      fun _ => (ite_self _).symm, (List.append_nil _).symm⟩⟩
  | cons message messages ih =>
    obtain ⟨hfirst, hrest⟩ := List.forall_mem_cons.mp hfits
    obtain ⟨middle, hmiddle, hcarry⟩ := Transition.run_cons_eq_some.mp h
    have hsmall : (UWS.Input.broadcast (ι := Client) (bytes message.text)).Small := hfirst
    obtain ⟨hidle, hadds⟩ := UWS.step_adds hstreaming hsmall hmiddle
    have hmembers : middle.wssConSet = server.wssConSet := by
      rw [← Option.some.inj hmiddle, UWS.broadcast_eq]
      rfl
    obtain ⟨hfinal, hfinalCalm, htold⟩ := ih (UWS.step_streaming hstreaming hsmall hmiddle)
      (fun hprompt => UWS.step_calm hprompt (hcalm hprompt) hstreaming hsmall hmiddle) hrest hcarry
    refine ⟨hfinal, hfinalCalm, fun client => ?_⟩
    obtain ⟨outputs, houtputs, hstream⟩ := hadds client
    obtain ⟨told, hsublist, hall, hstreams⟩ := htold client
    rw [hmembers] at hsublist hall
    obtain rfl : outputs = _ := houtputs
    by_cases hmem : client ∈ server.wssConSet
    · rw [if_pos hmem] at hsublist hall ⊢
      by_cases hskips : UWS.Skips maxBackpressure client server.loop
      · rw [if_neg fun h => h.2 hskips] at hstream
        have hlossy : ¬ Lossless accepts maxBackpressure :=
          fun h => h.elim hskips.1 fun hprompt => (hcalm hprompt).not_skips hskips
        refine ⟨told, hsublist.cons message, fun h => absurd h hlossy, ?_⟩
        rw [hstreams, hstream, List.flatMap_nil, List.append_nil]
      · rw [if_pos ⟨hmem, hskips⟩] at hstream
        refine ⟨message :: told, hsublist.cons_cons message, fun hlossless => ?_, ?_⟩
        · rw [hall hlossless]
        · rw [hstreams, hstream, List.append_assoc, ← List.flatMap_append]
          rfl
    · rw [if_neg hmem] at hsublist hall ⊢
      rw [if_neg fun h => hmem h.1] at hstream
      refine ⟨told, hsublist, hall, ?_⟩
      rw [hstreams, hstream, List.flatMap_nil, List.append_nil]

/-- The stream of a client. `talks` is what comes before an end of the connection, `closing` the
answers to the last data. -/
structure Carried (bytes : Text F → Bytes) (accepts : Nat → Nat)
    (maxPayloadLength maxBackpressure : Nat) (client : Client) (wired : Wired F)
    (response : Bytes) (talks : List (Talk F)) (closing : List UWS.Output) : Prop where
  stream : (wired.server.loop.sockets client).stream =
    response ++ (talks.map (Talk.output bytes) ++ closing).flatMap UWS.Output.bytes
  answers : ∀ talk ∈ talks, talk.Answers maxPayloadLength
  ending : ∀ output ∈ closing,
    ∃ event : UWS.Event, event.Sound maxPayloadLength ∧ output ∈ event.answers
  registered : client ∈ wired.world.wssConSet → closing = []
  told : (talks.filterMap Talk.told?).Sublist (Log.messages client wired.world.log)
  all : Lossless accepts maxBackpressure →
    talks.filterMap Talk.told? = Log.messages client wired.world.log

theorem filterMap_told (messages : List (Message F)) :
    (messages.map Talk.told).filterMap Talk.told? = messages := by
  rw [List.filterMap_map]
  exact List.filterMap_some

theorem filterMap_answers (outputs : List UWS.Output) :
    (outputs.map (Talk.answer (F := F))).filterMap Talk.told? = [] := by
  rw [List.filterMap_map]
  exact List.filterMap_eq_nil_iff.mpr fun _ _ => rfl

variable {response : Bytes} {talks : List (Talk F)} {closing : List UWS.Output}

/-- More messages. -/
theorem Carried.tell {suffix : Log F} {messages told : List (Message F)}
    (h : Carried bytes accepts maxPayloadLength maxBackpressure client wired response talks closing)
    (hlog : next.world.log = wired.world.log ++ suffix)
    (hmembers : next.world.wssConSet = wired.world.wssConSet)
    (hmessages : Log.messages client suffix =
      if client ∈ wired.world.wssConSet then messages else [])
    (htold : told.Sublist (if client ∈ wired.world.wssConSet then messages else []))
    (hall : Lossless accepts maxBackpressure → told = if client ∈ wired.world.wssConSet then messages else [])
    (hstream : (next.server.loop.sockets client).stream = (wired.server.loop.sockets client).stream ++
      (told.map fun message => Talk.output bytes (.told message)).flatMap UWS.Output.bytes) :
    Carried bytes accepts maxPayloadLength maxBackpressure client next response
      (talks ++ told.map Talk.told) closing := by
  have hafter : Log.messages client next.world.log =
      Log.messages client wired.world.log ++ Log.messages client suffix := by
    rw [hlog, Log.messages_append]
  refine ⟨?_, ?_, h.ending, hmembers ▸ h.registered, ?_, fun hlossless => ?_⟩
  · by_cases hmem : client ∈ wired.world.wssConSet
    · rw [hstream, h.stream, h.registered hmem]
      simp [Function.comp_def]
    · rw [if_neg hmem] at htold
      obtain rfl := List.sublist_nil.mp htold
      rw [hstream, h.stream]
      simp
  · refine List.forall_mem_append.mpr ⟨h.answers, List.forall_mem_map.mpr fun _ _ => trivial⟩
  · rw [List.filterMap_append, filterMap_told, hafter, hmessages]
    exact h.told.append htold
  · rw [List.filterMap_append, filterMap_told, hafter, hmessages, h.all hlossless, hall hlossless]

/-- More answers, before or with the end of the connection. -/
theorem Carried.answer {suffix : Log F} {outputs : List UWS.Output}
    (h : Carried bytes accepts maxPayloadLength maxBackpressure client wired response talks closing)
    (hlog : next.world.log = wired.world.log ++ suffix)
    (hmessages : Log.messages client suffix = [])
    (hregistered : client ∈ next.world.wssConSet → client ∈ wired.world.wssConSet)
    (houtputs : ∀ output ∈ outputs,
      ∃ event : UWS.Event, event.Sound maxPayloadLength ∧ output ∈ event.answers)
    (hopen : client ∈ next.world.wssConSet →
      ∀ output ∈ outputs, (Talk.answer (F := F) output).Answers maxPayloadLength)
    (hstream : (next.server.loop.sockets client).stream =
      (wired.server.loop.sockets client).stream ++ outputs.flatMap UWS.Output.bytes) :
    ∃ more closing', Carried bytes accepts maxPayloadLength maxBackpressure client next response
      (talks ++ more) closing' := by
  have hafter : Log.messages client next.world.log = Log.messages client wired.world.log := by
    rw [hlog, Log.messages_append, hmessages, List.append_nil]
  by_cases hmem : client ∈ next.world.wssConSet
  · refine ⟨outputs.map Talk.answer, [], ?_, ?_, fun _ h => absurd h List.not_mem_nil, fun _ => rfl,
      ?_, fun hlossless => ?_⟩
    · rw [hstream, h.stream, h.registered (hregistered hmem)]
      simp [Function.comp_def, Talk.output]
    · refine List.forall_mem_append.mpr ⟨h.answers, List.forall_mem_map.mpr (hopen hmem)⟩
    · rw [List.filterMap_append, filterMap_answers, List.append_nil, hafter]
      exact h.told
    · rw [List.filterMap_append, filterMap_answers, List.append_nil, hafter]
      exact h.all hlossless
  · refine ⟨[], closing ++ outputs, ?_, ?_, ?_, fun h => absurd h hmem, ?_, fun hlossless => ?_⟩
    · rw [hstream, h.stream]
      simp
    · rw [List.append_nil]
      exact h.answers
    · exact List.forall_mem_append.mpr ⟨h.ending, houtputs⟩
    · rw [List.append_nil, hafter]
      exact h.told
    · rw [List.append_nil, hafter]
      exact h.all hlossless

/-- What the streams of all clients carry. -/
structure Carrying (bytes : Text F → Bytes) (accepts : Nat → Nat)
    (maxPayloadLength maxBackpressure : Nat) (mask : Client → UWS.Mask) (inputs : List (Input F))
    (wired : Wired F) : Prop where
  streaming : ∃ before, UWS.Streaming maxPayloadLength mask before wired.server
  calm : UWS.Prompt accepts → UWS.Calm wired.server.loop
  unopened : ∀ client, wired.world.nextClient ≤ client → Log.messages client wired.world.log = []
  carried : ∀ client response, (inputs.filterMap Input.response?)[client]? = some response →
    ∃ snapshot talks closing, snapshot.cause = none ∧
      Carried bytes accepts maxPayloadLength maxBackpressure client wired response
        (.told snapshot :: talks) closing

theorem carrying_initial (bytes : Text F → Bytes) (accepts : Nat → Nat)
    (maxPayloadLength maxBackpressure : Nat) (mask : Client → UWS.Mask) :
    Carrying bytes accepts maxPayloadLength maxBackpressure mask [] (initial F mask) where
  streaming := ⟨[], UWS.streaming_initial maxPayloadLength mask⟩
  calm _ := UWS.calm_initial mask
  unopened _ _ := rfl
  carried client response h := by simp at h

variable [Double F]

omit [Double F] in
theorem said_broadcasts {log : Log F} {message : Message F} (h : message ∈ Log.broadcasts log) :
    message ∈ Log.said log := by
  obtain ⟨observation, hmem, hmessage⟩ := List.mem_filterMap.mp h
  refine List.mem_filterMap.mpr ⟨observation, hmem, ?_⟩
  cases observation with
  | broadcast other => exact hmessage
  | _ => cases hmessage

theorem Carrying.station {event : Event F}
    (hagrees : Agrees accepts maxPayloadLength maxBackpressure mask inputs wired)
    (hcarrying : Carrying bytes accepts maxPayloadLength maxBackpressure mask inputs wired)
    (h : step bytes accepts maxPayloadLength maxBackpressure wired (.station event) = some next)
    (hfits : Fits bytes (inputs ++ [.station event]) next.world.log) :
    Carrying bytes accepts maxPayloadLength maxBackpressure mask (inputs ++ [.station event])
      next := by
  obtain ⟨hstation, hworld, hserver⟩ := station_cases h
  obtain ⟨events, hrun, _⟩ := hagrees.world
  obtain ⟨before, hstreaming⟩ := hcarrying.streaming
  obtain ⟨hmembers, hclients, suffix, hlog, hmessages⟩ :=
    (step_outcome (run_shaped hrun) hworld).station hstation
  rw [since, hlog, List.drop_left] at hserver
  have hsaid : ∀ message ∈ Log.broadcasts suffix,
      UWS.messageFrameSize (bytes message.text).length < UWS.corkBufferSize := by
    intro message hmessage
    apply (hfits message _).1
    rw [hlog, Log.said, List.filterMap_append]
    exact List.mem_append_right _ (said_broadcasts hmessage)
  obtain ⟨hnext, hcalm, htold⟩ := carry_streams hstreaming hcarrying.calm hsaid hserver
  refine ⟨hnext, hcalm, fun client hclient => ?_, fun client response hresponse => ?_⟩
  · rw [hclients] at hclient
    have hmem : client ∉ wired.world.wssConSet :=
      fun hmem => absurd (hagrees.member_lt hmem) (Nat.not_lt.mpr hclient)
    rw [hlog, Log.messages_append, hcarrying.unopened client hclient, hmessages, if_neg hmem]
    rfl
  · have hnone : [Input.station event].filterMap Input.response? = [] := rfl
    rw [List.filterMap_append, hnone, List.append_nil] at hresponse
    obtain ⟨snapshot, talks, closing, hsnapshot, hcarried⟩ :=
      hcarrying.carried client response hresponse
    obtain ⟨told, hsublist, hall, hstream⟩ := htold client
    rw [hagrees.members] at hsublist hall
    exact ⟨snapshot, _, closing, hsnapshot,
      hcarried.tell hlog hmembers (hmessages client) hsublist hall hstream⟩

theorem Carrying.upgrade {response : Bytes}
    (hagrees : Agrees accepts maxPayloadLength maxBackpressure mask inputs wired)
    (hcarrying : Carrying bytes accepts maxPayloadLength maxBackpressure mask inputs wired)
    (h : step bytes accepts maxPayloadLength maxBackpressure wired (.upgrade response) = some next)
    (hfits : Fits bytes (inputs ++ [.upgrade response]) next.world.log) :
    Carrying bytes accepts maxPayloadLength maxBackpressure mask (inputs ++ [.upgrade response])
      next := by
  obtain ⟨snapshot, hworld, hsnapshot, hserver⟩ := upgrade_cases h
  obtain ⟨events, hrun, _⟩ := hagrees.world
  obtain ⟨before, hstreaming⟩ := hcarrying.streaming
  obtain ⟨hmembers, hclients, hcause, hlog⟩ :=
    (step_outcome (run_shaped hrun) hworld).snapshot hsnapshot
  have hsaid : snapshot ∈ Log.said next.world.log := by
    rw [hlog, Log.said, List.filterMap_append]
    exact List.mem_append_right _ (by simp [Observation.says?])
  have hsmall : (UWS.Input.upgrade wired.world.nextClient response (bytes snapshot.text)).Small :=
    (hfits snapshot hsaid).2 response (by simp [Input.response?])
  obtain ⟨_, hadds⟩ := UWS.step_adds hstreaming hsmall hserver
  have hmessages (client : Client) : Log.messages client next.world.log =
      Log.messages client wired.world.log ++
        if wired.world.nextClient = client then [snapshot] else [] := by
    rw [hlog, Log.messages_append]
    by_cases hclient : wired.world.nextClient = client <;> simp [hclient]
  refine ⟨⟨_, UWS.step_streaming hstreaming hsmall hserver⟩,
    fun hprompt => UWS.step_calm hprompt (hcarrying.calm hprompt) hstreaming hsmall hserver,
    fun client hclient => ?_, fun client first hfirst => ?_⟩
  · rw [hclients] at hclient
    rw [hmessages, hcarrying.unopened client (Nat.le_of_succ_le hclient),
      if_neg (Nat.ne_of_lt hclient)]
    rfl
  · rw [List.filterMap_append] at hfirst
    obtain ⟨outputs, houtputs, hstream⟩ := hadds client
    rw [UWS.Adds] at houtputs
    by_cases hsame : wired.world.nextClient = client
    · rw [if_pos hsame] at houtputs
      obtain rfl : response = first := by
        rw [List.getElem?_append_right (hagrees.clients.trans hsame).le, hagrees.clients, hsame,
          Nat.sub_self] at hfirst
        exact Option.some.inj hfirst
      have hunopened : (wired.server.connections client).opened = false := by
        rw [Bool.eq_false_iff, ne_eq, hagrees.opened, hsame]
        exact Nat.lt_irrefl client
      rw [hstreaming.fresh client hunopened, houtputs] at hstream
      have hreceived : Log.messages client next.world.log = [snapshot] := by
        rw [hmessages, hcarrying.unopened client hsame.le, if_pos hsame]
        rfl
      refine ⟨snapshot, [], [], hcause, hstream, fun talk htalk => ?_,
        fun _ h => absurd h List.not_mem_nil, fun _ => rfl, ?_, fun _ => hreceived.symm⟩
      · obtain rfl := List.mem_singleton.mp htalk
        trivial
      · rw [hreceived]
        exact List.Sublist.refl _
    · rw [if_neg hsame] at houtputs
      have hbefore : client < (inputs.filterMap Input.response?).length := by
        obtain ⟨hlt, _⟩ := List.getElem?_eq_some_iff.mp hfirst
        rw [List.length_append, hagrees.clients] at hlt
        rw [hagrees.clients]
        exact Nat.lt_of_le_of_ne (Nat.le_of_lt_succ hlt) (Ne.symm hsame)
      rw [List.getElem?_append_left hbefore] at hfirst
      obtain ⟨snapshot, talks, closing, hsnapshot, hcarried⟩ :=
        hcarrying.carried client first hfirst
      have hregistered (hmem : client ∈ next.world.wssConSet) : client ∈ wired.world.wssConSet := by
        rw [hmembers, OrderedSet.mem_emplace] at hmem
        exact hmem.resolve_left (Ne.symm hsame)
      rw [houtputs] at hstream
      obtain ⟨more, closing', hmore⟩ := hcarried.answer hlog (by simp [hsame]) hregistered
        (fun _ h => absurd h List.not_mem_nil) (fun _ _ h => absurd h List.not_mem_nil) hstream
      exact ⟨snapshot, talks ++ more, closing', hsnapshot, hmore⟩

theorem Carrying.socket {input : UWS.Input Client} {label : Input F}
    (hagrees : Agrees accepts maxPayloadLength maxBackpressure mask inputs wired)
    (hcarrying : Carrying bytes accepts maxPayloadLength maxBackpressure mask inputs wired)
    (h : onSocket accepts maxPayloadLength maxBackpressure client input wired = some next)
    (hinput : Concerns client input) (hnext : next.server.wssConSet = next.world.wssConSet)
    (hlabel : label.response? = none) :
    Carrying bytes accepts maxPayloadLength maxBackpressure mask (inputs ++ [label]) next := by
  obtain ⟨before, hstreaming⟩ := hcarrying.streaming
  obtain ⟨added, hadded, hothers, hworld, hclients, hmembers, suffix, hlog, hmessages⟩ :=
    socket_cases hagrees h hinput
  have hserver := (onSocket_cases h).1
  have hsmall : input.Small := by
    cases input with
    | upgrade => cases hinput
    | broadcast => cases hinput
    | _ => trivial
  obtain ⟨_, hadds⟩ := UWS.step_adds hstreaming hsmall hserver
  refine ⟨⟨_, UWS.step_streaming hstreaming hsmall hserver⟩,
    fun hprompt => UWS.step_calm hprompt (hcarrying.calm hprompt) hstreaming hsmall hserver,
    fun other hother => ?_, fun other response hresponse => ?_⟩
  · rw [hclients] at hother
    rw [hlog, Log.messages_append, hcarrying.unopened other hother, hmessages]
    rfl
  · have hnone : [label].filterMap Input.response? = [] := by simp [hlabel]
    rw [List.filterMap_append, hnone, List.append_nil] at hresponse
    obtain ⟨snapshot, talks, closing, hsnapshot, hcarried⟩ :=
      hcarrying.carried other response hresponse
    obtain ⟨outputs, houtputs, hstream⟩ := hadds other
    have hanswers : ∀ output ∈ outputs, ∃ event : UWS.Event, event.Sound maxPayloadLength ∧
        output ∈ event.answers ∧ (other ∈ next.server.wssConSet → event.ends = false) := by
      cases input with
      | upgrade => cases hinput
      | broadcast => cases hinput
      | data socket bytes =>
        obtain rfl : socket = client := hinput
        by_cases hsame : socket = other
        · subst hsame
          exact UWS.data_answers hstreaming hserver houtputs
        · rw [UWS.Adds, if_neg hsame] at houtputs
          rw [List.subperm_nil.mp houtputs]
          exact fun _ h => absurd h List.not_mem_nil
      | writable socket =>
        obtain rfl : outputs = [] := houtputs
        exact fun _ h => absurd h List.not_mem_nil
      | gone socket =>
        obtain rfl : outputs = [] := houtputs
        exact fun _ h => absurd h List.not_mem_nil
    have hregistered (hmem : other ∈ next.world.wssConSet) : other ∈ wired.world.wssConSet :=
      ((hmembers other).mp hmem).1
    have hsound : ∀ output ∈ outputs,
        ∃ event : UWS.Event, event.Sound maxPayloadLength ∧ output ∈ event.answers := by
      intro output houtput
      obtain ⟨event, hsound, hanswer, _⟩ := hanswers output houtput
      exact ⟨event, hsound, hanswer⟩
    have hopen (hmem : other ∈ next.world.wssConSet) :
        ∀ output ∈ outputs, (Talk.answer (F := F) output).Answers maxPayloadLength := by
      intro output houtput
      obtain ⟨event, hsound, hanswer, hends⟩ := hanswers output houtput
      exact ⟨event, hsound, hends (hnext ▸ hmem), hanswer⟩
    obtain ⟨more, closing', hmore⟩ :=
      hcarried.answer hlog (hmessages other) hregistered hsound hopen hstream
    exact ⟨snapshot, talks ++ more, closing', hsnapshot, hmore⟩

theorem Carrying.step {input : Input F}
    (hagrees : Agrees accepts maxPayloadLength maxBackpressure mask inputs wired)
    (hcarrying : Carrying bytes accepts maxPayloadLength maxBackpressure mask inputs wired)
    (h : Wired.step bytes accepts maxPayloadLength maxBackpressure wired input = some next)
    (hfits : Fits bytes (inputs ++ [input]) next.world.log) :
    Carrying bytes accepts maxPayloadLength maxBackpressure mask (inputs ++ [input]) next := by
  have hnext := (hagrees.step h).members
  cases input with
  | station event => exact hcarrying.station hagrees h hfits
  | upgrade response => exact hcarrying.upgrade hagrees h hfits
  | data client data => exact hcarrying.socket hagrees h rfl hnext rfl
  | writable client => exact hcarrying.socket hagrees h rfl hnext rfl
  | gone client => exact hcarrying.socket hagrees h rfl hnext rfl

/-- The log only grows. -/
theorem step_log {input : Input F}
    (hagrees : Agrees accepts maxPayloadLength maxBackpressure mask inputs wired)
    (h : Wired.step bytes accepts maxPayloadLength maxBackpressure wired input = some next) :
    ∃ suffix, next.world.log = wired.world.log ++ suffix := by
  have hsocket {client : Client} {input : UWS.Input Client}
      (h : onSocket accepts maxPayloadLength maxBackpressure client input wired = some next)
      (hinput : Concerns client input) : ∃ suffix, next.world.log = wired.world.log ++ suffix := by
    obtain ⟨_, _, _, _, _, _, suffix, hlog, _⟩ := socket_cases hagrees h hinput
    exact ⟨suffix, hlog⟩
  obtain ⟨events, hrun, _⟩ := hagrees.world
  cases input with
  | station event =>
    obtain ⟨hstation, hworld, _⟩ := station_cases h
    obtain ⟨_, _, suffix, hlog, _⟩ := (step_outcome (run_shaped hrun) hworld).station hstation
    exact ⟨suffix, hlog⟩
  | upgrade response =>
    obtain ⟨snapshot, hworld, hsnapshot, _⟩ := upgrade_cases h
    obtain ⟨_, _, _, hlog⟩ := (step_outcome (run_shaped hrun) hworld).snapshot hsnapshot
    exact ⟨_, hlog⟩
  | data client data => exact hsocket h rfl
  | writable client => exact hsocket h rfl
  | gone client => exact hsocket h rfl

theorem run_carrying
    (hrun : Transition.run (Wired.step bytes accepts maxPayloadLength maxBackpressure)
      (initial F mask) inputs = some wired)
    (hfits : Fits bytes inputs wired.world.log) :
    Carrying bytes accepts maxPayloadLength maxBackpressure mask inputs wired := by
  have hboth := Transition.run_labels
    (P := fun inputs wired => Agrees accepts maxPayloadLength maxBackpressure mask inputs wired ∧
      (Fits bytes inputs wired.world.log →
        Carrying bytes accepts maxPayloadLength maxBackpressure mask inputs wired))
    (fun _ => True) (fun {labels state label next} _ ⟨hagrees, hcarrying⟩ hnext => ?_)
    (fun _ _ => trivial)
    ⟨agrees_initial accepts maxPayloadLength maxBackpressure mask,
      fun _ => carrying_initial bytes accepts maxPayloadLength maxBackpressure mask⟩ hrun
  · exact hboth.2 hfits
  · refine ⟨hagrees.step hnext, fun hfits => ?_⟩
    obtain ⟨suffix, hlog⟩ := step_log hagrees hnext
    have hbefore : Fits bytes labels state.world.log := (hlog ▸ hfits).earlier
    exact (hcarrying hbefore).step hagrees hnext hfits

end Wired

/-! What a client makes of it. -/

/-- A thing that a client hears. -/
inductive Hears (F : Type) [Component F] where
  | told (message : Message F)
  | answer (event : UWS.Event)

namespace Hears

def event (bytes : Text F → Bytes) : Hears F → UWS.Event
  | .told message => .message .text (bytes message.text)
  | .answer event => event

def told? : Hears F → Option (Message F)
  | .told message => some message
  | .answer _ => none

end Hears

def Talk.hears : Talk F → List (Hears F)
  | .told message => [.told message]
  | .answer output => (UWS.heard [output]).map Hears.answer

section

variable {maxPayloadLength : Nat} {talks : List (Talk F)}

theorem heard_answer {output : UWS.Output}
    (h : (Talk.answer (F := F) output).Answers maxPayloadLength) (rest : List UWS.Output) :
    UWS.heard (output :: rest) = UWS.heard [output] ++ UWS.heard rest := by
  obtain ⟨event, hsound, hends, hanswer⟩ := h
  have hmessage (opCode : UWS.OpCode) (data : Bytes) (hopen : opCode ≠ .close) :
      UWS.heard (.message opCode data :: rest) =
        UWS.heard [.message opCode data] ++ UWS.heard rest := by
    rw [UWS.heard, UWS.heard, if_neg hopen, if_neg hopen, UWS.heard, List.append_nil]
  cases event with
  | message opCode data =>
    obtain rfl := List.mem_singleton.mp hanswer
    apply hmessage
    rintro rfl
    rcases hsound.1 with ⟨h, _⟩ | h <;> exact absurd h (by decide)
  | ping data =>
    obtain rfl := List.mem_singleton.mp hanswer
    exact hmessage .pong data (by decide)
  | pong => cases hanswer
  | close frame => cases hends
  | forceClose reason => cases hends

theorem heard_talks (bytes : Text F → Bytes) (closing : List UWS.Output)
    (htalks : ∀ talk ∈ talks, talk.Answers maxPayloadLength) :
    UWS.heard (talks.map (Talk.output bytes) ++ closing) =
      (talks.flatMap Talk.hears ++ (UWS.heard closing).map Hears.answer).map (Hears.event bytes) := by
  induction talks with
  | nil => simp [Function.comp_def, Hears.event]
  | cons talk talks ih =>
    obtain ⟨htalk, hrest⟩ := List.forall_mem_cons.mp htalks
    rw [List.map_cons, List.cons_append, List.flatMap_cons, List.append_assoc, List.map_append,
      ← ih hrest]
    cases talk with
    | told message => rfl
    | answer output =>
      rw [Talk.output, heard_answer htalk]
      simp [Talk.hears, Function.comp_def, Hears.event]

theorem told_hears (talks : List (Talk F)) (events : List UWS.Event) :
    (talks.flatMap Talk.hears ++ events.map Hears.answer).filterMap Hears.told? =
      talks.filterMap Talk.told? := by
  have hnone (events : List UWS.Event) :
      (events.map (Hears.answer (F := F))).filterMap Hears.told? = [] := by
    rw [List.filterMap_map]
    exact List.filterMap_eq_nil_iff.mpr fun _ _ => rfl
  rw [List.filterMap_append, hnone, List.append_nil]
  induction talks with
  | nil => rfl
  | cons talk talks ih =>
    rw [List.flatMap_cons, List.filterMap_append, ih]
    cases talk with
    | told message => rfl
    | answer output =>
      rw [Talk.hears, hnone]
      rfl

end

theorem said_messages {log : Log F} {client : Client} {message : Message F}
    (h : message ∈ Log.messages client log) : message ∈ Log.said log := by
  obtain ⟨observation, hmem, hmessage⟩ := List.mem_filterMap.mp h
  refine List.mem_filterMap.mpr ⟨observation, hmem, ?_⟩
  cases observation with
  | sent other sent =>
    obtain ⟨_, hsome⟩ := Option.ite_none_right_eq_some.mp hmessage
    exact hsome
  | _ => cases hmessage

theorem said_broadcastLog {message other : Message F} {package : Package F}
    {clients : OrderedSet Client}
    (h : other ∈ Log.said (.handled package :: broadcastLog message clients)) : other = message := by
  obtain ⟨observation, hmem, hsays⟩ := List.mem_filterMap.mp h
  rcases List.mem_cons.mp hmem with rfl | hmem
  · cases hsays
  · rcases List.mem_cons.mp hmem with rfl | hmem
    · exact (Option.some.inj hsays).symm
    · obtain ⟨client, _, rfl⟩ := List.mem_map.mp hmem
      exact (Option.some.inj hsays).symm

variable [Double F]

/-- Every text that is sent was dumped. -/
theorem run_dumped {events : List (Event F)} {world : World F}
    (hrun : run (World.initial F) events = some world) :
    ∀ message ∈ Log.said world.log, ∃ json : Json F, json.dump = .ok message.text := by
  refine run_invariant
    (P := fun world => ∀ message ∈ Log.said world.log, ∃ json : Json F, json.dump = .ok message.text)
    (fun _ => True) (fun _ h => absurd h List.not_mem_nil) (fun _ _ hworld houtcome => ?_)
    (fun _ _ => trivial) hrun
  have happend {world next : World F} {suffix : Log F}
      (hworld : ∀ message ∈ Log.said world.log, ∃ json : Json F, json.dump = .ok message.text)
      (hlog : next.log = world.log ++ suffix)
      (hsuffix : ∀ message ∈ Log.said suffix, ∃ json : Json F, json.dump = .ok message.text) :
      ∀ message ∈ Log.said next.log, ∃ json : Json F, json.dump = .ok message.text := by
    rw [hlog, Log.said, List.filterMap_append]
    exact List.forall_mem_append.mpr ⟨hworld, hsuffix⟩
  cases houtcome with
  | publish hqueue hdepth hpackage htext =>
    refine happend hworld rfl fun message hmessage => ?_
    rw [said_broadcastLog hmessage]
    exact ⟨_, htext⟩
  | merge hqueue hdata hpackage hvalid htext =>
    refine happend hworld rfl fun message hmessage => ?_
    rw [said_broadcastLog hmessage]
    exact ⟨_, htext⟩
  | onOpen htext =>
    refine happend hworld rfl fun message hmessage => ?_
    obtain rfl : ⟨none, _⟩ = message := by simpa [Log.said, Observation.says?] using hmessage
    exact ⟨_, htext⟩
  | _ =>
    exact happend hworld rfl (by simp [Log.said, Observation.says?])

/-! A run on exact rationals. -/

namespace Json

def quote (text : Bytes) : Bytes := 34 :: text ++ [34]

mutual
/-- What `dump` writes for documents of plain strings and whole numbers. -/
def spell : Json ℚ → Bytes
  | .null => .ofLiteral "null"
  | .unsigned value => .ofLiteral value.toNat.repr
  | .string value => quote value
  | .array items => .ofLiteral "[" ++ (spellItems items).tail ++ .ofLiteral "]"
  | .object members => .ofLiteral "\x7b" ++ (spellMembers members).tail ++ .ofLiteral "\x7d"
  | .boolean _ | .integer _ | .float _ => []

def spellItems : List (Json ℚ) → Bytes
  | [] => []
  | item :: rest => .ofLiteral "," ++ item.spell ++ spellItems rest

def spellMembers : List (Bytes × Json ℚ) → Bytes
  | [] => []
  | member :: rest => .ofLiteral "," ++ spellMember member ++ spellMembers rest

def spellMember : Bytes × Json ℚ → Bytes
  | (key, value) => quote key ++ .ofLiteral ":" ++ value.spell
end

end Json

def sampleBytes (text : Text ℚ) : Bytes :=
  if text.val.spell.ValidUtf8 then text.val.spell else []

theorem sampleBytes_valid (json : Json ℚ) (text : Text ℚ) (_ : json.dump = .ok text) :
    (sampleBytes text).ValidUtf8 := by
  unfold sampleBytes
  split
  · assumption
  · decide

def sampleResponse : Bytes := .ofLiteral "HTTP/1.1 101 Switching Protocols\r\n\r\n"

/-- A client connects, and one update of a new symbol passes through the server. -/
def sampleInputs : List (Wired.Input ℚ) :=
  [.upgrade sampleResponse, .station (.onDepth btcDepth),
    .station .receive, .station (.process zeroMemory), .station .front, .station .front]

namespace Wired

variable {bytes : Text F → Bytes} {accepts : Nat → Nat}
  {maxPayloadLength maxBackpressure clientLength : Nat} {mask : Client → UWS.Mask}
  {wired : Wired F} {inputs : List (Input F)} {client : Client}

/-- What a client can make of its stream. -/
theorem Carried.welcome {response : Bytes} {talks : List (Talk F)} {closing : List UWS.Output}
    (hcarried : Carried bytes accepts maxPayloadLength maxBackpressure client wired response talks closing)
    (hagrees : Agrees accepts maxPayloadLength maxBackpressure mask inputs wired)
    (hfits : Fits bytes inputs wired.world.log)
    (hbytes : ∀ (json : Json F) text, json.dump = .ok text → (bytes text).ValidUtf8)
    (hlength : UWS.corkBufferSize ≤ clientLength) :
    ∀ output ∈ talks.map (Talk.output bytes) ++ closing, output.Welcome clientLength := by
  obtain ⟨events, hrun, _⟩ := hagrees.world
  refine List.forall_mem_append.mpr ⟨List.forall_mem_map.mpr fun talk htalk => ?_,
    fun output houtput => ?_⟩
  · cases talk with
    | told message =>
      have hmessage : message ∈ Log.messages client wired.world.log := by
        apply hcarried.told.subset
        exact List.mem_filterMap.mpr ⟨.told message, htalk, rfl⟩
      have hsaid := said_messages hmessage
      obtain ⟨json, hjson⟩ := run_dumped hrun message hsaid
      exact UWS.text_welcome hlength (hfits message hsaid).1 (hbytes json message.text hjson)
    | answer output =>
      obtain ⟨event, hsound, _, hanswer⟩ := hcarried.answers _ htalk
      exact UWS.answers_welcome hlength hsound output hanswer
  · obtain ⟨event, hsound, hanswer⟩ := hcarried.ending output houtput
    exact UWS.answers_welcome hlength hsound output hanswer

omit [Double F] in
theorem depthMessages_portions (client : Client) (log : Log F) :
    Log.depthMessages client log = Log.depthMessages client (Log.portion client .before log) ++
      Log.depthMessages client (Log.portion client .inside log) ++
      Log.depthMessages client (Log.portion client .beyond log) := by
  rw [← Log.depthMessages_append, ← Log.depthMessages_append]
  exact congrArg (Log.depthMessages client) (Session.portions_append log).symm

/-- What a client makes of the part of its stream that the kernel took, in whatever pieces it
comes. -/
def Understood (bytes : Text F → Bytes) (clientLength : Nat) (data : UWS.SocketData)
    (response : Bytes) (hears : List (Hears F)) : Prop :=
  ∀ (memory : UWS.Mask) (chunks : List Bytes), response ++ chunks.flatten <+: data.written →
    ∃ reader, UWS.receive false clientLength chunks (.initial memory) = .ok reader ∧
      reader.events <+: hears.map (Hears.event bytes) ∧
      (response ++ chunks.flatten = data.stream → reader.events = hears.map (Hears.event bytes))

theorem Carried.understood {response : Bytes} {snapshot : Message F} {talks : List (Talk F)}
    {closing : List UWS.Output}
    (hcarried : Carried bytes accepts maxPayloadLength maxBackpressure client wired response
      (.told snapshot :: talks) closing)
    (hagrees : Agrees accepts maxPayloadLength maxBackpressure mask inputs wired)
    (hfits : Fits bytes inputs wired.world.log)
    (hbytes : ∀ (json : Json F) text, json.dump = .ok text → (bytes text).ValidUtf8)
    (hlength : UWS.corkBufferSize ≤ clientLength) (hmax : clientLength < 2 ^ 32) :
    ∃ hears : List (Hears F),
      Understood bytes clientLength (wired.server.loop.sockets client) response
        (.told snapshot :: hears) ∧
      (Hears.told snapshot :: hears).filterMap Hears.told? =
        (Talk.told snapshot :: talks).filterMap Talk.told? := by
  have hwelcome := hcarried.welcome hagrees hfits hbytes hlength
  have htold := told_hears (.told snapshot :: talks) (UWS.heard closing)
  have htalks := heard_talks bytes closing hcarried.answers
  rw [List.flatMap_cons, List.append_assoc] at htold htalks
  refine ⟨talks.flatMap Talk.hears ++ (UWS.heard closing).map Hears.answer,
    fun memory chunks hchunks => ?_, htold⟩
  have hheard := UWS.hears_stream hmax hwelcome hcarried.stream hchunks memory
  rwa [htalks] at hheard

/-- A client at the end of the wire, after any run: it hears the list of the symbols first, and
then the messages that were sent to it, in their order and each at most once, with the answers to
its own data between them. Where no message is left out it is told all of them. -/
theorem client_is_told
    (hbytes : ∀ (json : Json F) text, json.dump = .ok text → (bytes text).ValidUtf8)
    (hrun : Transition.run (Wired.step bytes accepts maxPayloadLength maxBackpressure)
      (initial F mask) inputs = some wired)
    (hfits : Fits bytes inputs wired.world.log) {response : Bytes}
    (hresponse : (inputs.filterMap Input.response?)[client]? = some response)
    (hlength : UWS.corkBufferSize ≤ clientLength) (hmax : clientLength < 2 ^ 32) :
    ∃ snapshot, ∃ hears : List (Hears F), snapshot.cause = none ∧
      response <+: (wired.server.loop.sockets client).stream ∧
      Understood bytes clientLength (wired.server.loop.sockets client) response
        (.told snapshot :: hears) ∧
      ((Hears.told snapshot :: hears).filterMap Hears.told?).Sublist
        (Log.messages client wired.world.log) ∧
      (Lossless accepts maxBackpressure → (Hears.told snapshot :: hears).filterMap Hears.told? =
        Log.messages client wired.world.log) ∧
      (UWS.Prompt accepts → (wired.server.loop.sockets client).written =
        (wired.server.loop.sockets client).stream) := by
  have hcarrying := run_carrying hrun hfits
  obtain ⟨snapshot, talks, closing, hsnapshot, hcarried⟩ :=
    hcarrying.carried client response hresponse
  obtain ⟨hears, hunderstood, htold⟩ :=
    hcarried.understood (run_agrees hrun) hfits hbytes hlength hmax
  refine ⟨snapshot, hears, hsnapshot, ⟨_, hcarried.stream.symm⟩, hunderstood, ?_,
    fun hlossless => ?_, fun hprompt => (hcarrying.calm hprompt).stream client⟩
  · rw [htold]
    exact hcarried.told
  · exact htold.trans (hcarried.all hlossless)

theorem client_is_told_sample :
    ∃ wired, Transition.run (Wired.step sampleBytes (fun _ => 16384) 16384 1048576)
        (Wired.initial ℚ fun _ _ => 0) sampleInputs = some wired ∧
      ∃ snapshot, ∃ hears : List (Hears ℚ), snapshot.cause = none ∧
        sampleResponse <+: (wired.server.loop.sockets 0).stream ∧
        Wired.Understood sampleBytes 16384 (wired.server.loop.sockets 0) sampleResponse
          (.told snapshot :: hears) ∧
        (Hears.told snapshot :: hears).filterMap Hears.told? = Log.messages 0 wired.world.log := by
  obtain ⟨wired, hrun, hfits⟩ : ∃ wired,
      Transition.run (Wired.step sampleBytes (fun _ => 16384) 16384 1048576)
        (Wired.initial ℚ fun _ _ => 0) sampleInputs = some wired ∧
      Wired.Fits sampleBytes sampleInputs wired.world.log :=
    Transition.run_satisfies (by decide +kernel)
  have hresponse : (sampleInputs.filterMap Input.response?)[0]? = some sampleResponse := rfl
  obtain ⟨snapshot, hears, hsnapshot, hstarts, hunderstood, _, htold, _⟩ :=
    Wired.client_is_told sampleBytes_valid hrun hfits hresponse le_rfl (by decide)
  exact ⟨wired, hrun, snapshot, hears, hsnapshot, hstarts, hunderstood,
    htold (.inr fun _ => le_rfl)⟩

/-- The way of the updates from the hub to a client: what the client hears of them are the updates
that were published while it was connected, each once and in the order of the calls of the hub. -/
theorem updates_heard
    (hbytes : ∀ (json : Json F) text, json.dump = .ok text → (bytes text).ValidUtf8)
    (hvalid : ∀ input ∈ inputs, input.ValidTexts)
    (hrun : Transition.run (Wired.step bytes accepts maxPayloadLength maxBackpressure)
      (initial F mask) inputs = some wired)
    (hfits : Fits bytes inputs wired.world.log) (hlossless : Lossless accepts maxBackpressure)
    {response : Bytes} (hresponse : (inputs.filterMap Input.response?)[client]? = some response)
    (hlength : UWS.corkBufferSize ≤ clientLength) (hmax : clientLength < 2 ^ 32) :
    ∃ hears : List (Hears F),
      response <+: (wired.server.loop.sockets client).stream ∧
      Understood bytes clientLength (wired.server.loop.sockets client) response hears ∧
      ((hears.filterMap Hears.told?).filter fun message => message.depth?.isSome).map
          (fun message => Except.ok message.text) =
        (Log.published (Log.portion client .inside wired.world.log)).map EnhancedDepthData.encode ∧
      Log.published (Log.portion client .before wired.world.log) ++
          Log.published (Log.portion client .inside wired.world.log) ++
          Log.published (Log.portion client .beyond wired.world.log) ++
          wired.world.frontDepths ++ wired.world.processDepths ++ wired.world.receiveDepths =
        inputs.filterMap Input.depth? := by
  have hagrees := run_agrees hrun
  obtain ⟨events, hworld, hcalls, hevents⟩ := hagrees.world
  obtain ⟨snapshot, talks, closing, hsnapshot, hcarried⟩ :=
    (run_carrying hrun hfits).carried client response hresponse
  obtain ⟨hears, hunderstood, htold⟩ := hcarried.understood hagrees hfits hbytes hlength hmax
  refine ⟨_, ⟨_, hcarried.stream.symm⟩, hunderstood, ?_, ?_⟩
  · rw [htold, hcarried.all hlossless]
    obtain ⟨hbefore, hbeyond, hinside⟩ := run_delivered client hworld
    have hall : Log.depthMessages client wired.world.log =
        Log.depthMessages client (Log.portion client .inside wired.world.log) := by
      rw [depthMessages_portions, hbefore, hbeyond, List.nil_append, List.append_nil]
    rw [← hinside, ← hall]
    rfl
  · have hbroadcasts := run_broadcasts (hevents hvalid) hworld
    have hpublished : Log.published wired.world.log = Log.handledDepths wired.world.log :=
      filterMap_causes Package.depth? hbroadcasts
    rw [← published_portions, hpublished, ← hcalls, ← run_calls hworld]
    exact run_conserved hworld

theorem updates_heard_sample :
    ∃ wired, Transition.run (Wired.step sampleBytes (fun _ => 16384) 16384 1048576)
        (Wired.initial ℚ fun _ _ => 0) sampleInputs = some wired ∧
      (Log.published (Log.portion 0 .inside wired.world.log)).map (·.symbol) = [.ofLiteral "BTC"] ∧
      ∃ hears : List (Hears ℚ),
        sampleResponse <+: (wired.server.loop.sockets 0).stream ∧
        Understood sampleBytes 16384 (wired.server.loop.sockets 0) sampleResponse hears ∧
        ((hears.filterMap Hears.told?).filter fun message => message.depth?.isSome).map
            (fun message => Except.ok message.text) =
          (Log.published (Log.portion 0 .inside wired.world.log)).map EnhancedDepthData.encode := by
  have hvalid : ∀ input ∈ sampleInputs, input.ValidTexts := by
    have hbtc : btcDepth.ValidTexts := by decide
    simp [sampleInputs, Input.ValidTexts, Event.ValidTexts, hbtc]
  obtain ⟨wired, hrun, hfits, hpublished⟩ : ∃ wired,
      Transition.run (Wired.step sampleBytes (fun _ => 16384) 16384 1048576)
        (Wired.initial ℚ fun _ _ => 0) sampleInputs = some wired ∧
      Wired.Fits sampleBytes sampleInputs wired.world.log ∧
      (Log.published (Log.portion 0 .inside wired.world.log)).map (·.symbol) = [.ofLiteral "BTC"] :=
    Transition.run_satisfies (by decide +kernel)
  have hresponse : (sampleInputs.filterMap Input.response?)[0]? = some sampleResponse := rfl
  obtain ⟨hears, hstarts, hunderstood, hheard, _⟩ := updates_heard sampleBytes_valid hvalid hrun
    hfits (.inr fun _ => le_rfl) hresponse le_rfl (by decide)
  exact ⟨wired, hrun, hpublished, hears, hstarts, hunderstood, hheard⟩

end Wired

end MarketServer

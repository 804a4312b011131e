import MarketServer.ServerClients
import MarketServer.Invariants
import MarketServer.Exact

/-! The stations together with the server that carries their messages. What a station broadcasts
becomes frames, the list of the symbols goes behind the response to an upgrade, and the end of a
connection is announced to `WBServer` by the loop. The runs here are those in which no broadcast
overlaps an opening or another handler of the loop and every string is read in place. -/
namespace MarketServer
open Library

/-- An event that is no matter of the loop. -/
def Event.isStation {F : Type} [Component F] : Event F → Bool
  | .onOpen | .onClose _ => false
  | _ => true

section

variable (F : Type) [Component F]

structure Wired where
  world : World F
  server : UWS.Server Client

namespace Wired

inductive Input where
  | station (event : Event F)
  | upgrade (response : Bytes)
  | data (client : Client) (bytes : Bytes)
  | writable (client : Client)
  | gone (client : Client)

def initial (mask : Client → UWS.Mask) : Wired F := ⟨.initial F, .initial mask⟩

end Wired

end

namespace Wired

variable {F : Type} [Component F]

/-- What was sent to all or to one since. -/
def since (world next : World F) : Log F := next.log.drop world.log.length

section

-- the bytes of a text, the kernel, and the behavior of the server
variable (bytes : Text F → Bytes) (accepts : Nat → Nat) (maxPayloadLength maxBackpressure : Nat)

/-- The messages on their way to the members. -/
def carry (messages : List (Message F)) (server : UWS.Server Client) :
    Option (UWS.Server Client) :=
  Transition.run (UWS.step accepts maxPayloadLength maxBackpressure) server
    (messages.map fun message => .broadcast (bytes message.text))

variable [Double F]

/-- What the loop does about a socket, with the calls of `on_close`. -/
def onSocket (client : Client) (input : UWS.Input Client) (wired : Wired F) :
    Option (Wired F) := do
  let server ← UWS.step accepts maxPayloadLength maxBackpressure wired.server input
  let calls := (server.calls client).drop (wired.server.calls client).length
  let closes := calls.filter (· = .close)
  let world ← Transition.run MarketServer.step wired.world (closes.map fun _ => .onClose client)
  return ⟨world, server⟩

/-- An event of a station with all its broadcasts, and an upgrade with its list of symbols, is one
step. An upgrade whose list cannot be encoded is left out: the exception leaves the handler of the
request. -/
def step (wired : Wired F) : Input F → Option (Wired F)
  | .station event =>
    if event.isStation then do
      let world ← MarketServer.step wired.world event
      let server ← carry bytes accepts maxPayloadLength maxBackpressure
        (Log.broadcasts (since wired.world world)) wired.server
      return ⟨world, server⟩
    else none
  | .upgrade response => do
    let client := wired.world.nextClient
    let world ← MarketServer.step wired.world .onOpen
    match Log.messages client (since wired.world world) with
    | [snapshot] =>
      let server ← UWS.step accepts maxPayloadLength maxBackpressure wired.server
        (.upgrade client response (bytes snapshot.text))
      return ⟨world, server⟩
    | _ => none
  | .data client data =>
    onSocket accepts maxPayloadLength maxBackpressure client (.data client data) wired
  | .writable client => onSocket accepts maxPayloadLength maxBackpressure client (.writable client) wired
  | .gone client => onSocket accepts maxPayloadLength maxBackpressure client (.gone client) wired

end

end Wired

/-! What the world knows of its clients. -/
section

variable {F : Type} [Component F] [Double F] {world next : World F} {event : Event F}

/-- A station opens and closes nothing. The members get what is broadcast, and nobody else gets
anything. -/
theorem Outcome.station (h : Outcome world event next) (hstation : event.isStation = true) :
    next.wssConSet = world.wssConSet ∧ next.nextClient = world.nextClient ∧
      ∃ suffix, next.log = world.log ++ suffix ∧
        ∀ client, Log.messages client suffix =
          if client ∈ world.wssConSet then Log.broadcasts suffix else [] := by
  cases h with
  | onOpen => cases hstation
  | failOpen => cases hstation
  | onClose => cases hstation
  | _ => exact ⟨rfl, rfl, _, rfl, fun client => by simp⟩

/-- An opening with a list of the symbols. -/
theorem Outcome.snapshot (h : Outcome world .onOpen next) {message : Message F}
    (hsent : Log.messages world.nextClient (next.log.drop world.log.length) = [message]) :
    next.wssConSet = world.wssConSet.emplace world.nextClient ∧
      next.nextClient = world.nextClient + 1 ∧ message.cause = none ∧
      next.log = world.log ++ [.opened world.nextClient, .sent world.nextClient message] := by
  cases h with
  | onOpen htext =>
    rw [List.drop_left] at hsent
    obtain rfl : ⟨none, _⟩ = message := by simpa using hsent
    exact ⟨rfl, rfl, rfl, rfl⟩
  | failOpen =>
    rw [List.drop_left] at hsent
    simp at hsent

theorem step_onClose {client : Client} (hclient : client < world.nextClient) :
    step world (.onClose client) = some { world with
      wssConSet := world.wssConSet.erase client
      log := world.log ++ [.closed client] } := by
  rw [step, stepReading, if_pos hclient, dispatch, run_onClose]

/-- An end that is announced, however often. -/
theorem run_closes {α : Type} {client : Client} {world : World F}
    (hclient : client < world.nextClient) (closes : List α) :
    ∃ next, Transition.run step world (closes.map fun _ => .onClose client) = some next ∧
      next.nextClient = world.nextClient ∧
      (∀ other, other ∈ next.wssConSet ↔
        other ∈ world.wssConSet ∧ ¬ (other = client ∧ closes ≠ [])) ∧
      ∃ suffix, next.log = world.log ++ suffix ∧ ∀ other, Log.messages other suffix = [] := by
  induction closes generalizing world with
  | nil => exact ⟨world, rfl, rfl, by simp, [], (List.append_nil _).symm, fun _ => rfl⟩
  | cons first closes ih =>
    have hafter : client < ({ world with
      wssConSet := world.wssConSet.erase client
      log := world.log ++ [.closed client] } : World F).nextClient := hclient
    obtain ⟨next, hrun, hnext, hmembers, suffix, hlog, hsuffix⟩ := ih hafter
    refine ⟨next, Transition.run_cons_eq_some.mpr ⟨_, step_onClose hclient, hrun⟩, hnext,
      fun other => ?_, .closed client :: suffix, ?_, fun other => ?_⟩
    · rw [hmembers]
      simp only [OrderedSet.mem_erase, ne_eq, reduceCtorEq, not_false_eq_true, and_true]
      tauto
    · rw [hlog, List.append_assoc]
      rfl
    · simp [hsuffix]

end

/-! What a connection knows of its end. -/
namespace UWS.Session

/-- The calls that were added say whether a connection is still registered. -/
structure Records (session next : Session) (added : List Callback) : Prop where
  opened : next.opened = session.opened
  calls : next.calls = session.calls ++ added
  registered : next.registered ↔ session.registered ∧ .close ∉ added

variable {session middle next : Session} {first second : List Callback}

theorem Records.refl (session : Session) : Records session session [] :=
  ⟨rfl, (List.append_nil _).symm, by simp⟩

theorem Records.trans (h : Records session middle first) (h' : Records middle next second) :
    Records session next (first ++ second) where
  opened := h'.opened.trans h.opened
  calls := by rw [h'.calls, h.calls, List.append_assoc]
  registered := by
    rw [h'.registered, h.registered, List.mem_append]
    tauto

theorem announce_records (session : Session) : Records session session.announce [.close] :=
  ⟨rfl, rfl, by simp [announce]⟩

theorem close_records (session : Session) : ∃ added, Records session session.close added := by
  unfold close
  simp only
  split
  · exact ⟨[], rfl, (List.append_nil _).symm, by simp⟩
  · exact ⟨[.close], rfl, rfl, (announce_records session).registered⟩

theorem handle_records (session : Session) (event : Event) :
    ∃ added, Records session (session.handle event) added := by
  cases event with
  | close frame =>
    by_cases hdown : session.isShuttingDown = true
    · rw [handle, if_pos hdown]
      exact ⟨[], Records.refl session⟩
    · rw [handle, if_neg hdown]
      exact ⟨[.close], rfl, rfl, (announce_records session).registered⟩
  | forceClose reason => exact close_records session
  | _ => exact ⟨[_], rfl, rfl, by simp [handle, Event.callback]⟩

theorem handles_records (events : List Event) (session : Session) :
    ∃ added, Records session (events.foldl handle session) added := by
  induction events generalizing session with
  | nil => exact ⟨[], Records.refl session⟩
  | cons event events ih =>
    obtain ⟨first, hfirst⟩ := handle_records session event
    obtain ⟨second, hsecond⟩ := ih (session.handle event)
    exact ⟨first ++ second, hfirst.trans hsecond⟩

theorem data_records (maxPayloadLength : Nat) (bytes : Bytes) (session : Session) :
    ∃ added, Records session (session.data maxPayloadLength bytes) added := by
  unfold data
  split
  · exact ⟨[], Records.refl session⟩
  · split
    · exact ⟨[], Records.refl session⟩
    · obtain ⟨added, hadded⟩ := handles_records _ { session with reader := _ }
      exact ⟨added, hadded.opened, hadded.calls, hadded.registered⟩

end UWS.Session

/-- What the loop learns of a connection that is open. -/
def UWS.Input.isSocket {ι : Type} : UWS.Input ι → Bool
  | .data _ _ | .writable _ | .gone _ => true
  | .upgrade _ _ _ | .broadcast _ => false

namespace Wired

variable {F : Type} [Component F] [Double F] {bytes : Text F → Bytes} {accepts : Nat → Nat}
  {maxPayloadLength maxBackpressure : Nat} {mask : Client → UWS.Mask} {wired next : Wired F}

namespace Input

/-- What comes from the hub. -/
def depth? : Input F → Option (SDepthData F)
  | .station event => event.depth?
  | _ => none

/-- What comes from a client. -/
def socket? : Input F → Option (UWS.Input Client)
  | .data client bytes => some (.data client bytes)
  | .writable client => some (.writable client)
  | .gone client => some (.gone client)
  | .station _ | .upgrade _ => none

/-- What is written to a client before anything else. The clients count by their upgrades. -/
def response? : Input F → Option Bytes
  | .upgrade response => some response
  | _ => none

def ValidTexts : Input F → Prop
  | .station event => event.ValidTexts
  | _ => True

end Input

/-- Both parts of the system are in a state of their own, and they agree on the clients. -/
structure Agrees (accepts : Nat → Nat) (maxPayloadLength maxBackpressure : Nat)
    (mask : Client → UWS.Mask) (inputs : List (Input F)) (wired : Wired F) : Prop where
  world : ∃ events, MarketServer.run (World.initial F) events = some wired.world ∧
    hubCalls events = inputs.filterMap Input.depth? ∧
    ((∀ input ∈ inputs, input.ValidTexts) → ∀ event ∈ events, event.ValidTexts)
  server : ∃ serverInputs, Transition.run (UWS.step accepts maxPayloadLength maxBackpressure)
    (.initial mask) serverInputs = some wired.server ∧
    serverInputs.filter UWS.Input.isSocket = inputs.filterMap Input.socket?
  members : wired.server.wssConSet = wired.world.wssConSet
  opened : ∀ client,
    (wired.server.connections client).opened = true ↔ client < wired.world.nextClient
  clients : (inputs.filterMap Input.response?).length = wired.world.nextClient

omit [Double F] in
/-- Messages to the members change nothing but the loop. -/
theorem carry_keeps {messages : List (Message F)} {server final : UWS.Server Client}
    (h : carry bytes accepts maxPayloadLength maxBackpressure messages server = some final) :
    final.connections = server.connections ∧ final.wssConSet = server.wssConSet := by
  induction messages generalizing server with
  | nil =>
    obtain rfl := Option.some.inj h
    exact ⟨rfl, rfl⟩
  | cons message messages ih =>
    obtain ⟨middle, hmiddle, hrest⟩ := Transition.run_cons_eq_some.mp h
    obtain ⟨hconnections, hmembers⟩ := ih hrest
    obtain rfl := Option.some.inj hmiddle
    rw [hconnections, hmembers, UWS.broadcast_eq]
    exact ⟨rfl, rfl⟩

theorem station_cases {event : Event F}
    (h : step bytes accepts maxPayloadLength maxBackpressure wired (.station event) = some next) :
    event.isStation = true ∧ MarketServer.step wired.world event = some next.world ∧
      carry bytes accepts maxPayloadLength maxBackpressure
        (Log.broadcasts (since wired.world next.world)) wired.server = some next.server := by
  obtain ⟨hstation, hboth⟩ := Option.ite_none_right_eq_some.mp h
  obtain ⟨world, hworld, hcarry⟩ := Option.bind_eq_some_iff.mp hboth
  obtain ⟨server, hserver, hnext⟩ := Option.bind_eq_some_iff.mp hcarry
  obtain rfl := Option.some.inj hnext
  exact ⟨hstation, hworld, hserver⟩

theorem upgrade_cases {response : Bytes}
    (h : step bytes accepts maxPayloadLength maxBackpressure wired (.upgrade response) = some next) :
    ∃ snapshot, MarketServer.step wired.world .onOpen = some next.world ∧
      Log.messages wired.world.nextClient (since wired.world next.world) = [snapshot] ∧
      UWS.step accepts maxPayloadLength maxBackpressure wired.server
        (.upgrade wired.world.nextClient response (bytes snapshot.text)) = some next.server := by
  obtain ⟨world, hworld, hsent⟩ := Option.bind_eq_some_iff.mp h
  split at hsent
  · rename_i snapshot hsnapshot
    obtain ⟨server, hserver, hnext⟩ := Option.bind_eq_some_iff.mp hsent
    obtain rfl := Option.some.inj hnext
    exact ⟨snapshot, hworld, hsnapshot, hserver⟩
  · cases hsent

theorem onSocket_cases {client : Client} {input : UWS.Input Client}
    (h : onSocket accepts maxPayloadLength maxBackpressure client input wired = some next) :
    UWS.step accepts maxPayloadLength maxBackpressure wired.server input = some next.server ∧
      Transition.run MarketServer.step wired.world
        ((((next.server.calls client).drop (wired.server.calls client).length).filter
          (· = .close)).map fun _ => .onClose client) = some next.world := by
  obtain ⟨server, hserver, hcloses⟩ := Option.bind_eq_some_iff.mp h
  obtain ⟨world, hworld, hnext⟩ := Option.bind_eq_some_iff.mp hcloses
  obtain rfl := Option.some.inj hnext
  exact ⟨hserver, hworld⟩

/-- What the loop may do about one client. -/
def Concerns (client : Client) : UWS.Input Client → Prop
  | .data other _ | .writable other | .gone other => other = client
  | .upgrade _ _ _ | .broadcast _ => False

omit [Double F] in
theorem concerns_session {client : Client} {input : UWS.Input Client}
    {server final : UWS.Server Client} (hinput : Concerns client input)
    (h : UWS.step accepts maxPayloadLength maxBackpressure server input = some final) :
    (server.connections client).opened = true ∧ (server.loop.sockets client).closed = false ∧
      (∃ added, (server.session client).Records (final.session client) added) ∧
      ∀ other, other ≠ client → final.session other = server.session other := by
  have hboth := UWS.step_session h
  cases input with
  | upgrade => cases hinput
  | broadcast => cases hinput
  | data socket bytes =>
    obtain rfl : socket = client := hinput
    obtain ⟨hallows, hnext⟩ := hboth socket
    rw [hnext, UWS.Session.input, if_pos rfl]
    refine ⟨(hallows rfl).1, (hallows rfl).2, UWS.Session.data_records _ _ _, fun other hother => ?_⟩
    rw [(hboth other).2, UWS.Session.input, if_neg (Ne.symm hother)]
  | writable socket =>
    obtain rfl : socket = client := hinput
    obtain ⟨hallows, hnext⟩ := hboth socket
    rw [hnext]
    exact ⟨(hallows rfl).1, (hallows rfl).2, ⟨[], UWS.Session.Records.refl _⟩,
      fun other _ => (hboth other).2⟩
  | gone socket =>
    obtain rfl : socket = client := hinput
    obtain ⟨hallows, hnext⟩ := hboth socket
    rw [hnext, UWS.Session.input, if_pos rfl]
    refine ⟨(hallows rfl).1, (hallows rfl).2, UWS.Session.close_records _, fun other hother => ?_⟩
    rw [(hboth other).2, UWS.Session.input, if_neg (Ne.symm hother)]

variable {inputs : List (Input F)}

theorem Agrees.station {event : Event F}
    (hagrees : Agrees accepts maxPayloadLength maxBackpressure mask inputs wired)
    (h : step bytes accepts maxPayloadLength maxBackpressure wired (.station event) = some next) :
    Agrees accepts maxPayloadLength maxBackpressure mask (inputs ++ [.station event]) next := by
  obtain ⟨hstation, hworld, hserver⟩ := station_cases h
  obtain ⟨events, hrun, hcalls, hvalid⟩ := hagrees.world
  obtain ⟨serverInputs, hserverRun, hsockets⟩ := hagrees.server
  obtain ⟨hmembers, hclients, _⟩ := (step_outcome (run_shaped hrun) hworld).station hstation
  obtain ⟨hconnections, hset⟩ := carry_keeps hserver
  refine ⟨⟨events ++ [event], Transition.run_concat hrun hworld, ?_, fun hall => ?_⟩,
    ⟨_, Transition.run_append_eq_some.mpr ⟨_, hserverRun, hserver⟩, ?_⟩, ?_, fun client => ?_, ?_⟩
  · rw [hubCalls, List.filterMap_append, List.filterMap_append, ← hcalls]
    rfl
  · rw [List.forall_mem_append] at hall ⊢
    exact ⟨hvalid hall.1, List.forall_mem_singleton.mpr (hall.2 _ (List.mem_singleton.mpr rfl))⟩
  · rw [List.filter_append, List.filterMap_append, hsockets, List.filter_map]
    simp [UWS.Input.isSocket, Input.socket?, Function.comp_def]
  · rw [hset, hagrees.members, hmembers]
  · rw [hconnections, hclients, hagrees.opened client]
  · rw [hclients, ← hagrees.clients, List.filterMap_append]
    exact congrArg List.length (List.append_nil _)

theorem Agrees.upgrade {response : Bytes}
    (hagrees : Agrees accepts maxPayloadLength maxBackpressure mask inputs wired)
    (h : step bytes accepts maxPayloadLength maxBackpressure wired (.upgrade response) = some next) :
    Agrees accepts maxPayloadLength maxBackpressure mask (inputs ++ [.upgrade response]) next := by
  obtain ⟨snapshot, hworld, hsnapshot, hserver⟩ := upgrade_cases h
  obtain ⟨events, hrun, hcalls, hvalid⟩ := hagrees.world
  obtain ⟨serverInputs, hserverRun, hsockets⟩ := hagrees.server
  obtain ⟨hmembers, hclients, _⟩ := (step_outcome (run_shaped hrun) hworld).snapshot hsnapshot
  have hsession := fun client => (UWS.step_session hserver client).2
  refine ⟨⟨events ++ [.onOpen], Transition.run_concat hrun hworld, ?_, fun hall => ?_⟩,
    ⟨_, Transition.run_concat hserverRun hserver, ?_⟩, ?_, fun client => ?_, ?_⟩
  · rw [hubCalls, List.filterMap_append, List.filterMap_append, ← hcalls]
    rfl
  · rw [List.forall_mem_append] at hall ⊢
    exact ⟨hvalid hall.1, List.forall_mem_singleton.mpr trivial⟩
  · rw [List.filter_append, List.filterMap_append, hsockets]
    rfl
  · ext client
    have hregistered := congrArg UWS.Session.registered (hsession client)
    rw [UWS.Session.input] at hregistered
    rw [hmembers, OrderedSet.mem_emplace, ← hagrees.members]
    by_cases hclient : wired.world.nextClient = client
    · rw [if_pos hclient] at hregistered
      exact iff_of_true (hregistered.mpr trivial) (.inl hclient.symm)
    · rw [if_neg hclient] at hregistered
      rw [or_iff_right (Ne.symm hclient)]
      exact iff_of_eq hregistered
  · have hopened := congrArg UWS.Session.opened (hsession client)
    rw [UWS.Session.input] at hopened
    rw [hclients, Nat.lt_succ_iff_lt_or_eq, ← hagrees.opened client]
    by_cases hclient : wired.world.nextClient = client
    · rw [if_pos hclient] at hopened
      exact iff_of_true hopened (.inr hclient.symm)
    · rw [if_neg hclient] at hopened
      rw [or_iff_left (Ne.symm hclient)]
      exact iff_of_eq (congrArg (· = true) hopened)
  · rw [hclients, ← hagrees.clients, List.filterMap_append, List.length_append]
    rfl

/-- What the world learns of an input of the loop. -/
theorem socket_cases {client : Client} {input : UWS.Input Client}
    (hagrees : Agrees accepts maxPayloadLength maxBackpressure mask inputs wired)
    (h : onSocket accepts maxPayloadLength maxBackpressure client input wired = some next)
    (hinput : Concerns client input) :
    ∃ added, (wired.server.session client).Records (next.server.session client) added ∧
      (∀ other, other ≠ client → next.server.session other = wired.server.session other) ∧
      Transition.run MarketServer.step wired.world
        ((added.filter (· = .close)).map fun _ => .onClose client) = some next.world ∧
      next.world.nextClient = wired.world.nextClient ∧
      (∀ other, other ∈ next.world.wssConSet ↔
        other ∈ wired.world.wssConSet ∧ ¬ (other = client ∧ .close ∈ added)) ∧
      ∃ suffix, next.world.log = wired.world.log ++ suffix ∧
        ∀ other, Log.messages other suffix = [] := by
  obtain ⟨hserver, hworld⟩ := onSocket_cases h
  obtain ⟨hopened, _, ⟨added, hadded⟩, hothers⟩ := concerns_session hinput hserver
  have hclient : client < wired.world.nextClient := (hagrees.opened client).mp hopened
  have hdropped : (next.server.calls client).drop (wired.server.calls client).length = added := by
    have hnext : next.server.calls client = wired.server.calls client ++ added := hadded.calls
    rw [hnext, List.drop_left]
  rw [hdropped] at hworld
  obtain ⟨_, hcloses, hclients, hmembers, hlog⟩ :=
    run_closes hclient (added.filter (· = UWS.Callback.close))
  obtain rfl := Option.some.inj (hcloses.symm.trans hworld)
  refine ⟨added, hadded, hothers, hworld, hclients, fun other => ?_, hlog⟩
  simp [hmembers]

theorem Agrees.socket {client : Client} {input : UWS.Input Client} {label : Input F}
    (hagrees : Agrees accepts maxPayloadLength maxBackpressure mask inputs wired)
    (h : onSocket accepts maxPayloadLength maxBackpressure client input wired = some next)
    (hinput : Concerns client input) (hlabel : label.depth? = none)
    (hsocket : label.socket? = some input) (hresponse : label.response? = none) :
    Agrees accepts maxPayloadLength maxBackpressure mask (inputs ++ [label]) next := by
  obtain ⟨added, hadded, hothers, hworld, hclients, hmembers, _⟩ := socket_cases hagrees h hinput
  obtain ⟨events, hrun, hcalls, hvalid⟩ := hagrees.world
  obtain ⟨serverInputs, hserverRun, hsockets⟩ := hagrees.server
  refine ⟨⟨_, Transition.run_append_eq_some.mpr ⟨_, hrun, hworld⟩, ?_, fun hall => ?_⟩,
    ⟨_, Transition.run_concat hserverRun (onSocket_cases h).1, ?_⟩, ?_, fun other => ?_, ?_⟩
  · have hnone : (([label] : List (Input F)).filterMap Input.depth?) = [] := by simp [hlabel]
    rw [hubCalls, List.filterMap_append, List.filterMap_append, hnone, ← hcalls,
      List.filterMap_map]
    simp [hubCalls, Function.comp_def, Event.depth?]
  · have hbefore := hvalid fun other hother => hall other (List.mem_append_left _ hother)
    refine List.forall_mem_append.mpr ⟨hbefore, List.forall_mem_map.mpr fun _ _ => trivial⟩
  · have hkept : input.isSocket = true := by
      cases input with
      | data | writable | gone => rfl
      | upgrade | broadcast => cases hinput
    rw [List.filter_append, List.filterMap_append, hsockets]
    simp [hkept, hsocket]
  · ext other
    rw [hmembers, ← hagrees.members]
    by_cases hother : other = client
    · subst hother
      refine hadded.registered.trans (and_congr_right fun _ => not_congr ?_)
      simp
    · have hsame := congrArg UWS.Session.registered (hothers other hother)
      rw [and_iff_left fun h => hother h.1]
      exact iff_of_eq hsame
  · have hsame : (next.server.connections other).opened =
        (wired.server.connections other).opened := by
      by_cases hother : other = client
      · subst hother
        exact hadded.opened
      · exact congrArg UWS.Session.opened (hothers other hother)
    rw [hsame, hclients, hagrees.opened other]
  · rw [hclients, ← hagrees.clients, List.filterMap_append]
    simp [hresponse]

theorem agrees_initial (accepts : Nat → Nat) (maxPayloadLength maxBackpressure : Nat)
    (mask : Client → UWS.Mask) :
    Agrees accepts maxPayloadLength maxBackpressure mask [] (initial F mask) where
  world := ⟨[], rfl, rfl, fun _ _ h => absurd h List.not_mem_nil⟩
  server := ⟨[], rfl, rfl⟩
  members := rfl
  opened client := by simp [initial, UWS.Server.initial, World.initial]
  clients := rfl

theorem Agrees.step {input : Input F}
    (hagrees : Agrees accepts maxPayloadLength maxBackpressure mask inputs wired)
    (h : Wired.step bytes accepts maxPayloadLength maxBackpressure wired input = some next) :
    Agrees accepts maxPayloadLength maxBackpressure mask (inputs ++ [input]) next := by
  cases input with
  | station event => exact hagrees.station h
  | upgrade response => exact hagrees.upgrade h
  | data client data => exact hagrees.socket h rfl rfl rfl rfl
  | writable client => exact hagrees.socket h rfl rfl rfl rfl
  | gone client => exact hagrees.socket h rfl rfl rfl rfl

theorem run_agrees
    (hrun : Transition.run (step bytes accepts maxPayloadLength maxBackpressure) (initial F mask)
      inputs = some wired) :
    Agrees accepts maxPayloadLength maxBackpressure mask inputs wired :=
  Transition.run_labels (fun _ => True) (fun _ hstate hnext => hstate.step hnext)
    (fun _ _ => trivial) (agrees_initial accepts maxPayloadLength maxBackpressure mask) hrun

/-- Only a client that was opened is a member. -/
theorem Agrees.member_lt {client : Client}
    (hagrees : Agrees accepts maxPayloadLength maxBackpressure mask inputs wired)
    (hmem : client ∈ wired.world.wssConSet) : client < wired.world.nextClient := by
  obtain ⟨serverInputs, hserverRun, _⟩ := hagrees.server
  rw [← hagrees.members] at hmem
  exact (hagrees.opened client).mp ((UWS.run_follows hserverRun client).registered.mp hmem).1

/-- The system does nothing that its parts could not do alone: the world takes the calls of the
hub in their order, the loop what the clients sent, and both know the same clients. -/
theorem parts_of_run
    (hrun : Transition.run (step bytes accepts maxPayloadLength maxBackpressure) (initial F mask)
      inputs = some wired) :
    (∃ events, MarketServer.run (World.initial F) events = some wired.world ∧
      hubCalls events = inputs.filterMap Input.depth?) ∧
    (∃ serverInputs, Transition.run (UWS.step accepts maxPayloadLength maxBackpressure)
      (.initial mask) serverInputs = some wired.server ∧
      serverInputs.filter UWS.Input.isSocket = inputs.filterMap Input.socket?) ∧
    wired.server.wssConSet = wired.world.wssConSet ∧
    ∀ client, (wired.server.connections client).opened = true ↔ client < wired.world.nextClient := by
  have hagrees := run_agrees hrun
  obtain ⟨events, hworld, hcalls, _⟩ := hagrees.world
  exact ⟨⟨events, hworld, hcalls⟩, hagrees.server, hagrees.members, hagrees.opened⟩

/-- Two clients, and one of them asks with a ping in two pieces and leaves. -/
def sampleSession : List (Input ℚ) :=
  [.upgrade [72], .upgrade [72], .data 0 [137, 129], .data 0 [7, 7, 7, 7, 6], .gone 0]

theorem parts_of_run_sample :
    ∃ wired, Transition.run (step (fun _ => []) (fun _ => 0) 16384 1048576)
        (initial ℚ fun _ _ => 0) sampleSession = some wired ∧
      (∃ events, MarketServer.run (World.initial ℚ) events = some wired.world ∧
        hubCalls events = []) ∧
      (∃ serverInputs, Transition.run (UWS.step (fun _ => 0) 16384 1048576)
        (.initial fun _ _ => 0) serverInputs = some wired.server ∧
        serverInputs.filter UWS.Input.isSocket =
          [.data 0 [137, 129], .data 0 [7, 7, 7, 7, 6], .gone 0]) ∧
      wired.server.wssConSet = wired.world.wssConSet ∧
      ∀ client,
        (wired.server.connections client).opened = true ↔ client < wired.world.nextClient := by
  obtain ⟨wired, hrun⟩ : ∃ wired, Transition.run (step (fun _ => []) (fun _ => 0) 16384 1048576)
      (initial ℚ fun _ _ => 0) sampleSession = some wired :=
    Option.isSome_iff_exists.mp (by decide +kernel)
  exact ⟨wired, hrun, parts_of_run hrun⟩

/-- Who is told of an update depends on what the clients sent and on who is gone, not on the
pieces it came in, on the kernel or on what the stations did meanwhile. -/
theorem members_of_data
    (hrun : Transition.run (step bytes accepts maxPayloadLength maxBackpressure) (initial F mask)
      inputs = some wired) (client : Client) {chunks : List Bytes}
    (hchunks : chunks.flatten =
      ((inputs.filterMap Input.socket?).filterMap (UWS.Input.bytes? client)).flatten)
    (memory : UWS.Mask) :
    ∃ reader, UWS.receive true maxPayloadLength chunks (.initial memory) = .ok reader ∧
      (client ∈ wired.world.wssConSet ↔ client < wired.world.nextClient ∧
        reader.broken = false ∧
        (inputs.filterMap Input.socket?).any (UWS.Input.isGone client) = false) := by
  have hagrees := run_agrees hrun
  obtain ⟨serverInputs, hserverRun, hsockets⟩ := hagrees.server
  rw [← hsockets] at hchunks ⊢
  have h := UWS.run_follows hserverRun client
  have hbytes : (serverInputs.filter UWS.Input.isSocket).filterMap (UWS.Input.bytes? client) =
      serverInputs.filterMap (UWS.Input.bytes? client) := by
    rw [List.filterMap_filter]
    congr with input
    cases input <;> rfl
  have hgone : (serverInputs.filter UWS.Input.isSocket).any (UWS.Input.isGone client) =
      serverInputs.any (UWS.Input.isGone client) := by
    rw [List.any_filter]
    congr with input
    cases input <;> rfl
  rw [hbytes] at hchunks
  obtain ⟨reader, other, hreader, hother, _, hbroken⟩ :=
    UWS.receive_congr true maxPayloadLength hchunks memory (mask client)
  obtain rfl := Except.ok.inj (hother.symm.trans h.read)
  have hregistered := h.registered
  change client ∈ wired.server.wssConSet ↔ _ at hregistered
  refine ⟨reader, hreader, ?_⟩
  rw [← hagrees.members, hregistered, h.unended_iff, hgone, hbroken]
  exact and_congr_left fun _ => hagrees.opened client

theorem members_of_data_sample :
    ∃ wired reader, Transition.run (step (fun _ => []) (fun _ => 0) 16384 1048576)
        (initial ℚ fun _ _ => 0) sampleSession = some wired ∧
      UWS.receive true 16384 [[137, 129, 7, 7, 7, 7, 6]] (.initial fun _ => 0) = .ok reader ∧
      (0 ∈ wired.world.wssConSet ↔
        0 < wired.world.nextClient ∧ reader.broken = false ∧ true = false) := by
  obtain ⟨wired, hrun⟩ : ∃ wired, Transition.run (step (fun _ => []) (fun _ => 0) 16384 1048576)
      (initial ℚ fun _ _ => 0) sampleSession = some wired :=
    Option.isSome_iff_exists.mp (by decide +kernel)
  have hchunks : [[137, 129, 7, 7, 7, 7, 6]].flatten =
      ((sampleSession.filterMap Input.socket?).filterMap (UWS.Input.bytes? 0)).flatten := rfl
  obtain ⟨reader, hreader, hmember⟩ := members_of_data hrun 0 hchunks fun _ => 0
  exact ⟨wired, reader, hrun, hreader, hmember⟩

end Wired

end MarketServer

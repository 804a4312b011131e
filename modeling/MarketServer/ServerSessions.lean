import MarketServer.WebSocketServer

/-! Each connection of the server by itself: the calls of its handlers, whether it gets
broadcasts, and its end. The server runs all connections on one loop; what happens to one of
them follows from its own inputs. -/
namespace MarketServer.UWS
open Library

section

variable {ι : Type} [DecidableEq ι] {loop next final : Loop ι} (accepts : Nat → Nat) (socket : ι)

/-- Sending closes nobody. -/
def SameClosed (loop next : Loop ι) : Prop :=
  ∀ other, (next.sockets other).closed = (loop.sockets other).closed

omit [DecidableEq ι] in
theorem SameClosed.trans (h : SameClosed loop next) (h' : SameClosed next final) :
    SameClosed loop final :=
  fun other => (h' other).trans (h other)

theorem closed_setSocket {change : SocketData → SocketData}
    (h : ∀ data, (change data).closed = data.closed) (loop : Loop ι) (other : ι) :
    ((loop.setSocket socket change).sockets other).closed = (loop.sockets other).closed := by
  by_cases hother : other = socket
  · subst hother
    simp [Loop.setSocket, h]
  · simp [Loop.setSocket, Function.update_of_ne hother]

theorem socketWrite_sameClosed (src : Bytes) (loop : Loop ι) :
    SameClosed loop (socketWrite accepts socket src loop).2 := by
  intro other
  simp [socketWrite, closed_setSocket]

theorem writeThen_sameClosed {pass : Loop ι → Outcome × Loop ι}
    (hpass : ∀ loop, SameClosed loop (pass loop).2) (src : Bytes) (optionally : Bool)
    (loop : Loop ι) :
    SameClosed loop (writeThen accepts pass socket src optionally loop).2 := by
  have hwritten := socketWrite_sameClosed accepts socket (loop.sockets socket).buffer loop
  intro other
  unfold writeThen
  simp only [apply_ite Prod.snd, apply_ite Loop.sockets, apply_ite SocketData.closed, ite_apply]
  simp [closed_setSocket, hpass _ other, hwritten other]

theorem passThrough_sameClosed (src : Bytes) (optionally : Bool) (loop : Loop ι) :
    SameClosed loop (passThrough accepts socket src optionally loop).2 := by
  have hwritten := socketWrite_sameClosed accepts socket src loop
  intro other
  unfold passThrough
  simp only [apply_ite Prod.snd, apply_ite Loop.sockets, apply_ite SocketData.closed, ite_apply]
  simp [closed_setSocket, hwritten other]

theorem uncork_sameClosed (src : Bytes) (optionally : Bool) (loop : Loop ι) :
    SameClosed loop (uncork accepts socket src optionally loop).2 := by
  have hwrite (src : Bytes) (optionally : Bool) (loop : Loop ι) :=
    writeThen_sameClosed accepts socket (passThrough_sameClosed accepts socket src optionally) src
      optionally loop
  unfold uncork
  simp only
  split
  · split
    · have hflushed := hwrite loop.corkBuffer false { loop with corkedSocket := none }
      split
      · exact hflushed
      · exact hflushed.trans (hwrite src optionally
          { (writeThen accepts (passThrough accepts socket loop.corkBuffer false) socket
              loop.corkBuffer false { loop with corkedSocket := none }).2 with corkBuffer := [] })
    · exact hwrite src optionally { loop with corkedSocket := none }
  · exact fun _ => rfl

theorem write_sameClosed (src : Bytes) (optionally : Bool) (loop : Loop ι) :
    SameClosed loop (write accepts socket src optionally loop).2 := by
  apply writeThen_sameClosed
  intro loop
  unfold pass
  split
  · split
    · exact fun _ => rfl
    · exact uncork_sameClosed accepts socket src optionally loop
  · exact passThrough_sameClosed accepts socket src optionally loop

theorem send_sameClosed (maxBackpressure : Nat) (message : Bytes) (opCode : OpCode)
    (loop : Loop ι) :
    SameClosed loop (send accepts maxBackpressure socket message opCode loop).2 := by
  have hwrite (corked : Loop ι) :=
    write_sameClosed accepts socket (serverFrame message opCode) false corked
  have huncork (loop : Loop ι) :=
    uncork_sameClosed accepts socket [] false loop
  intro other
  unfold send
  split
  · rfl
  · simp only
    split
    · simp [apply_ite Prod.snd, apply_ite Loop.sockets, apply_ite SocketData.closed, ite_apply,
        hwrite _ other, huncork _ other, Loop.cork]
    · simp [apply_ite Prod.snd, apply_ite Loop.sockets, apply_ite SocketData.closed, ite_apply,
        hwrite _ other]

end

/-- The handler that is called for what was read. -/
def Event.callback : Event → Callback
  | .message opCode data => .message opCode data
  | .ping _ => .ping
  | .pong => .pong
  | .close _ | .forceClose _ => .close

theorem callback_of_ends {event : Event} (h : event.ends = true) : event.callback = .close := by
  cases event with
  | close frame => rfl
  | forceClose reason => rfl
  | _ => cases h

theorem callbacks_open {maxPayloadLength : Nat} {events : List Event}
    (h : Reader.OpenEvents maxPayloadLength events) :
    ∀ callback ∈ events.map Event.callback, callback ≠ .open ∧ callback ≠ .close := by
  intro callback hcallback
  obtain ⟨event, hevent, rfl⟩ := List.mem_map.mp hcallback
  have hends := (h event hevent).2
  cases event with
  | close frame => cases hends
  | forceClose reason => cases hends
  | _ => exact ⟨nofun, nofun⟩

/-- A connection without the server around it. -/
structure Session where
  opened : Bool
  reader : WebSocketData
  isShuttingDown : Bool
  closed : Bool
  registered : Prop
  calls : List Callback

namespace Session

def initial (mask : Mask) : Session := ⟨false, .initial mask, false, false, False, []⟩

def upgrade (session : Session) : Session :=
  { session with opened := true, registered := True, calls := session.calls ++ [.open] }

/-- The end is announced, once. -/
def announce (session : Session) : Session :=
  { session with registered := False, calls := session.calls ++ [.close] }

def close (session : Session) : Session :=
  let session := { session with closed := true }
  if session.isShuttingDown then session else session.announce

def handle (session : Session) : Event → Session
  | .close _ =>
    if session.isShuttingDown then session
    else { session.announce with isShuttingDown := true }
  | .forceClose _ => session.close
  | event => { session with calls := session.calls ++ [event.callback] }

def data (maxPayloadLength : Nat) (bytes : Bytes) (session : Session) : Session :=
  if session.isShuttingDown then session
  else
    match consume true maxPayloadLength bytes session.reader with
    | .error _ => session
    | .ok reader =>
      (reader.events.drop session.reader.events.length).foldl handle { session with reader }

variable {ι : Type} [LinearOrder ι]

/-- What an input means to one connection. -/
def input (maxPayloadLength : Nat) (socket : ι) (session : Session) : Input ι → Session
  | .upgrade other _ _ => if other = socket then session.upgrade else session
  | .data other bytes => if other = socket then session.data maxPayloadLength bytes else session
  | .gone other => if other = socket then session.close else session
  | .writable _ | .broadcast _ => session

/-- Whether there may be such an input. -/
def Allows (socket : ι) (session : Session) : Input ι → Prop
  | .upgrade other _ _ => other = socket → session.opened = false
  | .data other _ | .gone other | .writable other =>
    other = socket → session.opened = true ∧ session.closed = false
  | .broadcast _ => True

end Session

section

variable {ι : Type} [LinearOrder ι] {accepts : Nat → Nat} {maxPayloadLength maxBackpressure : Nat}
  {server next : Server ι} {socket : ι}

namespace Server

/-- One connection of a server. -/
def session (socket : ι) (server : Server ι) : Session where
  opened := (server.connections socket).opened
  reader := (server.connections socket).reader
  isShuttingDown := (server.connections socket).isShuttingDown
  closed := (server.loop.sockets socket).closed
  registered := socket ∈ server.wssConSet
  calls := server.calls socket

/-- Only the connection of a socket changes. -/
def Changes (socket : ι) (change : Session → Session) (server next : Server ι) : Prop :=
  ∀ other, next.session other =
    if other = socket then change (server.session socket) else server.session other

/-- No connection changes. -/
def Keeps (server next : Server ι) : Prop := ∀ other, next.session other = server.session other

theorem Changes.session_eq {change : Session → Session} {other : ι}
    (h : Changes other change server next) (socket : ι) :
    next.session socket =
      if other = socket then change (server.session socket) else server.session socket := by
  rw [h socket]
  by_cases hother : other = socket
  · rw [if_pos hother.symm, if_pos hother, hother]
  · rw [if_neg (Ne.symm hother), if_neg hother]

theorem Changes.trans {final : Server ι} {change change' : Session → Session}
    (h : Changes socket change server next) (h' : Changes socket change' next final) :
    Changes socket (change' ∘ change) server final := by
  intro other
  rw [h' other, h socket, if_pos rfl]
  by_cases hother : other = socket
  · rw [if_pos hother, if_pos hother]
    rfl
  · rw [if_neg hother, if_neg hother, h other, if_neg hother]

theorem Changes.keep {final : Server ι} {change : Session → Session}
    (h : Changes socket change server next) (h' : Keeps next final) :
    Changes socket change server final :=
  fun other => (h' other).trans (h other)

theorem Keeps.change {final : Server ι} {change : Session → Session}
    (h : Keeps server next) (h' : Changes socket change next final) :
    Changes socket change server final := by
  intro other
  rw [h' other, h socket, h other]

theorem Changes.congr {change change' : Session → Session}
    (h : change (server.session socket) = change' (server.session socket))
    (hchange : Changes socket change server next) : Changes socket change' server next := by
  intro other
  rw [hchange other, h]

theorem Keeps.changes (h : Keeps server next) : Changes socket id server next := by
  intro other
  by_cases hother : other = socket
  · rw [if_pos hother, ← hother]
    exact h other
  · rw [if_neg hother]
    exact h other

theorem Changes.keeps {change : Session → Session} (h : Changes socket change server next)
    (hchange : change (server.session socket) = server.session socket) : Keeps server next := by
  intro other
  by_cases hother : other = socket
  · rw [h other, if_pos hother, hchange, hother]
  · rw [h other, if_neg hother]

theorem keeps_setLoop (change : Loop ι → Loop ι) (h : SameClosed server.loop (change server.loop)) :
    Keeps server (server.setLoop change) := by
  intro other
  simp only [session, calls, setLoop, h other]

theorem changes_call (socket : ι) (callback : Callback) (server : Server ι) :
    Changes socket (fun session => { session with calls := session.calls ++ [callback] }) server
      (server.call socket callback) := by
  intro other
  by_cases hother : other = socket
  · subst hother
    simp [session, calls, call]
  · simp [session, calls, call, hother, Ne.symm hother]

theorem changes_emplace (socket : ι) (server : Server ι) :
    Changes socket ({ · with registered := True }) server
      { server with wssConSet := server.wssConSet.emplace socket } := by
  intro other
  by_cases hother : other = socket
  · subst hother
    simp [session, calls]
  · simp [session, calls, hother]

theorem changes_setConnection (socket : ι) (change : Connection → Connection) (server : Server ι) :
    Changes socket (fun session => { session with
        opened := (change (server.connections socket)).opened
        reader := (change (server.connections socket)).reader
        isShuttingDown := (change (server.connections socket)).isShuttingDown })
      server (server.setConnection socket change) := by
  intro other
  by_cases hother : other = socket
  · subst hother
    simp [session, calls, setConnection]
  · simp [session, calls, setConnection, hother]

end Server

/-! What each function of the server means to the connections. -/

theorem keeps_send (accepts : Nat → Nat) (maxBackpressure : Nat) (socket : ι) (message : Bytes)
    (opCode : OpCode) (server : Server ι) :
    server.Keeps (WebSocket.send accepts maxBackpressure socket message opCode server).2 := by
  intro other
  have hclosed := send_sameClosed accepts socket maxBackpressure message opCode server.loop other
  simp only [Server.session, Server.calls, WebSocket.send, hclosed]

theorem keeps_shutdown (socket : ι) (server : Server ι) :
    server.Keeps (WebSocket.shutdown socket server) := by
  apply (Server.changes_setConnection socket _ server).keeps
  rfl

theorem changes_onClose (socket : ι) (server : Server ι) :
    server.Changes socket Session.announce (WBServer.onClose socket server) := by
  intro other
  by_cases hmem : socket ∈ server.wssConSet
  · by_cases hother : other = socket
    · subst hother
      simp [Server.session, Server.calls, WBServer.onClose, Server.call, Session.announce, hmem]
    · simp [Server.session, Server.calls, WBServer.onClose, Server.call, hmem, hother, Ne.symm hother]
  · by_cases hother : other = socket
    · subst hother
      simp [Server.session, Server.calls, WBServer.onClose, Server.call, Session.announce, hmem]
    · simp [Server.session, Server.calls, WBServer.onClose, Server.call, hmem, hother, Ne.symm hother]

theorem changes_end (accepts : Nat → Nat) (maxBackpressure : Nat) (socket : ι) (code : UInt16)
    (message : Bytes) (server : Server ι) :
    server.Changes socket (·.handle (.close ⟨code, message⟩))
      (WebSocket.end_ accepts maxBackpressure socket code message server) := by
  unfold WebSocket.end_
  cases hdown : (server.connections socket).isShuttingDown with
  | true =>
    rw [if_pos rfl]
    apply Server.Changes.congr _ (Server.Keeps.changes fun other => rfl)
    exact (if_pos hdown).symm
  | false =>
    rw [if_neg (by decide)]
    have hset : server.Changes socket ({ · with isShuttingDown := true })
        (server.setConnection socket ({ · with isShuttingDown := true })) :=
      Server.changes_setConnection socket _ server
    have hsent := hset.keep (keeps_send accepts maxBackpressure socket (closePayload code message)
      .close _)
    simp only
    generalize WebSocket.send accepts maxBackpressure socket (closePayload code message) .close
      (server.setConnection socket ({ · with isShuttingDown := true })) = result at hsent ⊢
    obtain ⟨ok, sent⟩ := result
    have hdone : server.Changes socket ({ · with isShuttingDown := true })
        (if sent.loop.corkedSocket ≠ some socket ∧ ok then WebSocket.shutdown socket sent
          else sent) := by
      split
      · exact hsent.keep (keeps_shutdown socket sent)
      · exact hsent
    apply Server.Changes.congr _ (hdone.trans (changes_onClose socket _))
    exact (if_neg (Bool.eq_false_iff.mp hdown)).symm

theorem changes_close (socket : ι) (server : Server ι) :
    server.Changes socket Session.close (WebSocketContext.close socket server) := by
  have hclosed : server.Changes socket ({ · with closed := true })
      (server.setLoop (·.setSocket socket ({ · with closed := true }))) := by
    intro other
    by_cases hother : other = socket
    · subst hother
      simp [Server.session, Server.calls, Server.setLoop, Loop.setSocket]
    · simp [Server.session, Server.calls, Server.setLoop, Loop.setSocket, hother]
  unfold WebSocketContext.close
  cases hdown : (server.connections socket).isShuttingDown with
  | true =>
    simp only [Server.setLoop, hdown, if_true]
    apply Server.Changes.congr _ hclosed
    exact (if_pos hdown).symm
  | false =>
    simp only [Server.setLoop, hdown, Bool.false_eq_true, if_false]
    apply Server.Changes.congr _ (hclosed.trans (changes_onClose socket _))
    exact (if_neg (Bool.eq_false_iff.mp hdown)).symm

theorem changes_handle (accepts : Nat → Nat) (maxBackpressure : Nat) (socket : ι) (event : Event)
    (server : Server ι) :
    server.Changes socket (·.handle event)
      (WebSocketContext.handle accepts maxBackpressure socket server event) := by
  cases event with
  | message opCode data =>
    apply (Server.changes_call socket (.message opCode data) server).keep
    exact keeps_send accepts maxBackpressure socket _ opCode _
  | ping data =>
    exact (keeps_send accepts maxBackpressure socket data .pong server).change
      (Server.changes_call socket _ _)
  | pong => exact Server.changes_call socket _ server
  | close frame => exact changes_end accepts maxBackpressure socket frame.code frame.message server
  | forceClose reason => exact changes_close socket server

theorem changes_handles (accepts : Nat → Nat) (maxBackpressure : Nat) (socket : ι)
    (events : List Event) (server : Server ι) :
    server.Changes socket (events.foldl Session.handle)
      (events.foldl (WebSocketContext.handle accepts maxBackpressure socket) server) := by
  induction events generalizing server with
  | nil => exact Server.Keeps.changes fun other => rfl
  | cons event events ih =>
    exact (changes_handle accepts maxBackpressure socket event server).trans (ih _)

theorem keeps_shutdownWhenDrained (socket : ι) (server : Server ι) :
    server.Keeps (WebSocketContext.shutdownWhenDrained socket server) := by
  unfold WebSocketContext.shutdownWhenDrained
  split
  · exact keeps_shutdown socket server
  · exact fun other => rfl

theorem changes_onData {bytes : Bytes}
    (h : WebSocketContext.onData accepts maxPayloadLength maxBackpressure socket bytes server =
      .ok next) :
    server.Changes socket (Session.data maxPayloadLength bytes) next := by
  unfold WebSocketContext.onData at h
  cases hdown : (server.connections socket).isShuttingDown with
  | true =>
    rw [hdown, if_pos rfl] at h
    cases h
    apply Server.Changes.congr _ (Server.Keeps.changes fun other => rfl)
    exact (if_pos hdown).symm
  | false =>
    rw [hdown, if_neg (by decide)] at h
    simp only [Server.setLoop] at h
    cases hread : consume true maxPayloadLength bytes (server.connections socket).reader with
    | error failure =>
      rw [hread] at h
      cases h
    | ok reader =>
      rw [hread] at h
      cases h
      have hcorked : server.Keeps (server.setLoop (·.cork socket)) :=
        Server.keeps_setLoop _ fun other => rfl
      have hset := hcorked.change
        (Server.changes_setConnection socket ({ · with reader }) (server.setLoop (·.cork socket)))
      have hhandled := hset.trans (changes_handles accepts maxBackpressure socket
        (reader.events.drop (server.connections socket).reader.events.length) _)
      have huncorked := hhandled.keep (Server.keeps_setLoop
        (fun loop => (uncork accepts socket [] false loop).2)
        (uncork_sameClosed accepts socket [] false _))
      apply Server.Changes.congr _ (huncorked.keep (keeps_shutdownWhenDrained socket _))
      simp [Session.data, Server.session, Server.calls, hdown, hread, Server.setLoop]

theorem keeps_onWritable (accepts : Nat → Nat) (socket : ι) (server : Server ι) :
    server.Keeps (WebSocketContext.onWritable accepts socket server) := by
  unfold WebSocketContext.onWritable
  split
  · exact fun other => rfl
  · intro other
    rw [keeps_shutdownWhenDrained]
    exact Server.keeps_setLoop _ (write_sameClosed accepts socket [] false server.loop) other

theorem changes_upgrade (accepts : Nat → Nat) (maxBackpressure : Nat) (socket : ι)
    (response symbols : Bytes) (server : Server ι) :
    server.Changes socket Session.upgrade
      (WebSocketContext.upgrade accepts maxBackpressure socket response symbols server) := by
  have hwritten : server.Keeps ((server.setLoop (·.cork socket)).setLoop
      fun loop => (write accepts socket response false loop).2) :=
    Server.keeps_setLoop (fun loop => (write accepts socket response false (loop.cork socket)).2)
      (write_sameClosed accepts socket response false (server.loop.cork socket))
  have hopened := hwritten.change (Server.changes_setConnection socket ({ · with opened := true }) _)
  have hcalled := hopened.trans (Server.changes_call socket .open _)
  have hregistered := hcalled.trans (Server.changes_emplace socket _)
  have hsent := hregistered.keep (keeps_send accepts maxBackpressure socket symbols .text _)
  apply hsent.keep
  exact Server.keeps_setLoop _ (uncork_sameClosed accepts socket [] false _)

theorem keeps_broadcast (accepts : Nat → Nat) (maxBackpressure : Nat) (message : Bytes)
    (server : Server ι) :
    server.Keeps (WBServer.broadcast accepts maxBackpressure message server) := by
  unfold WBServer.broadcast
  generalize server.wssConSet.toList = sockets
  induction sockets generalizing server with
  | nil => exact fun other => rfl
  | cons socket sockets ih =>
    intro other
    exact (ih _ other).trans (keeps_send accepts maxBackpressure socket message .text server other)

theorem allowed {other : ι} (heq : other = socket)
    (h : (server.connections other).opened ∧ !(server.loop.sockets other).closed) :
    (server.session socket).opened = true ∧ (server.session socket).closed = false := by
  subst heq
  exact ⟨h.1, (Bool.not_eq_true' _).mp h.2⟩

/-- The server refines its connections: no input means anything to a connection but its
own. -/
theorem step_session {input : Input ι}
    (h : step accepts maxPayloadLength maxBackpressure server input = some next) (socket : ι) :
    (server.session socket).Allows socket input ∧
      next.session socket = (server.session socket).input maxPayloadLength socket input := by
  cases input with
  | upgrade other response symbols =>
    obtain ⟨hfresh, heq⟩ := Option.ite_none_left_eq_some.mp h
    obtain rfl := Option.some.inj heq
    have hchanges := changes_upgrade accepts maxBackpressure other response symbols server
    exact ⟨fun heq => Bool.eq_false_iff.mpr (heq ▸ hfresh), hchanges.session_eq socket⟩
  | data other bytes =>
    obtain ⟨hopen, hread⟩ := Option.ite_none_right_eq_some.mp h
    cases hdata : WebSocketContext.onData accepts maxPayloadLength maxBackpressure other bytes
      server with
    | error failure =>
      rw [hdata] at hread
      cases hread
    | ok result =>
      rw [hdata] at hread
      cases hread
      exact ⟨fun heq => allowed heq hopen, (changes_onData hdata).session_eq socket⟩
  | writable other =>
    obtain ⟨hopen, heq⟩ := Option.ite_none_right_eq_some.mp h
    obtain rfl := Option.some.inj heq
    exact ⟨fun heq => allowed heq hopen, keeps_onWritable accepts other server socket⟩
  | gone other =>
    obtain ⟨hopen, heq⟩ := Option.ite_none_right_eq_some.mp h
    obtain rfl := Option.some.inj heq
    exact ⟨fun heq => allowed heq hopen, (changes_close other server).session_eq socket⟩
  | broadcast message =>
    obtain rfl := Option.some.inj h
    exact ⟨trivial, keeps_broadcast accepts maxBackpressure message server socket⟩

end

/-! What a connection has come to. -/

namespace Input

variable {ι : Type} [LinearOrder ι]

/-- The data that came for a socket. -/
def bytes? (socket : ι) : Input ι → Option Bytes
  | .data other bytes => if other = socket then some bytes else none
  | _ => none

def isUpgrade (socket : ι) : Input ι → Bool
  | .upgrade other _ _ => other = socket
  | _ => false

def isGone (socket : ι) : Input ι → Bool
  | .gone other => other = socket
  | _ => false

end Input

namespace Session

theorem close_of_down {session : Session} (h : session.isShuttingDown = true) :
    session.close = { session with closed := true } :=
  if_pos h

theorem close_of_up {session : Session} (h : session.isShuttingDown = false) :
    session.close = { session with
      closed := true, registered := False, calls := session.calls ++ [.close] } :=
  if_neg (Bool.eq_false_iff.mp h)

theorem handles_open {maxPayloadLength : Nat} {events : List Event} (session : Session)
    (h : Reader.OpenEvents maxPayloadLength events) :
    events.foldl handle session =
      { session with calls := session.calls ++ events.map Event.callback } := by
  induction events generalizing session with
  | nil => simp
  | cons event events ih =>
    have hevent := (h event List.mem_cons_self).2
    rw [List.foldl_cons, ih _ fun other hother => h other (List.mem_cons_of_mem _ hother)]
    cases event with
    | message opCode data => simp [handle]
    | ping data => simp [handle]
    | pong => simp [handle]
    | close frame => cases hevent
    | forceClose reason => cases hevent

/-- The last event of a connection announces its end. -/
theorem handles_ended {maxPayloadLength : Nat} {before : List Event} {last : Event}
    (session : Session) (hbefore : Reader.OpenEvents maxPayloadLength before)
    (hends : last.ends = true) (hdown : session.isShuttingDown = false) :
    ∃ isShuttingDown closed, (before ++ [last]).foldl handle session =
        { session with
          isShuttingDown, closed, registered := False
          calls := session.calls ++ (before ++ [last]).map Event.callback } ∧
      (closed = true ∨ isShuttingDown = true) := by
  rw [List.foldl_append, handles_open session hbefore, List.map_append, ← List.append_assoc]
  cases last with
  | message opCode data => cases hends
  | ping data => cases hends
  | pong => cases hends
  | close frame =>
    refine ⟨true, session.closed, ?_, .inr rfl⟩
    exact if_neg (Bool.eq_false_iff.mp hdown)
  | forceClose reason =>
    exact ⟨session.isShuttingDown, true, close_of_up hdown, .inl rfl⟩

variable {ι : Type} [LinearOrder ι]

/-- The state of a connection after its inputs. -/
structure Follows (maxPayloadLength : Nat) (mask : Mask) (socket : ι) (inputs : List (Input ι))
    (session : Session) : Prop where
  opened : session.opened = inputs.any (Input.isUpgrade socket)
  read : receive true maxPayloadLength (inputs.filterMap (Input.bytes? socket)) (.initial mask) =
    .ok session.reader
  fresh : session.opened = false → session.calls = [] ∧ session.reader = .initial mask ∧
    session.isShuttingDown = false ∧ session.closed = false ∧
    inputs.any (Input.isGone socket) = false
  shuttingDown : session.isShuttingDown = true → session.reader.broken = true
  ended : session.closed = true ∨ session.isShuttingDown = true ↔
    session.reader.broken = true ∨ inputs.any (Input.isGone socket) = true
  registered : session.registered ↔ session.opened = true ∧ session.closed = false ∧
    session.isShuttingDown = false
  calls : session.opened = true →
    session.calls = .open :: session.reader.events.map Event.callback ++
      if session.reader.broken = false ∧ inputs.any (Input.isGone socket) = true then [.close] else []

namespace Follows

variable {maxPayloadLength : Nat} {mask : Mask} {socket : ι} {inputs : List (Input ι)}
  {session : Session}

theorem quiet (h : Follows maxPayloadLength mask socket inputs session) {input : Input ι}
    (hbytes : input.bytes? socket = none) (hupgrade : input.isUpgrade socket = false)
    (hgone : input.isGone socket = false) :
    Follows maxPayloadLength mask socket (inputs ++ [input]) session where
  opened := by simp [h.opened, hupgrade]
  read := by simp [List.filterMap_append, hbytes, h.read]
  fresh hopened := by simpa [hgone] using h.fresh hopened
  shuttingDown := h.shuttingDown
  ended := by simpa [hgone] using h.ended
  registered := h.registered
  calls hopened := by simpa [hgone] using h.calls hopened

theorem upgraded (h : Follows maxPayloadLength mask socket inputs session) (response symbols : Bytes)
    (hfresh : session.opened = false) :
    Follows maxPayloadLength mask socket (inputs ++ [.upgrade socket response symbols])
      session.upgrade := by
  obtain ⟨hcalls, hreader, hdown, hclosed, hgone⟩ := h.fresh hfresh
  have hread := h.read
  rw [hreader] at hread
  refine ⟨by simp [upgrade, Input.isUpgrade], ?_, fun hopened => absurd hopened Bool.noConfusion,
    h.shuttingDown, ?_, ?_, fun _ => ?_⟩
  · simpa [List.filterMap_append, List.filterMap_cons, Input.bytes?, upgrade, hreader] using hread
  · simpa [upgrade, Input.isGone] using h.ended
  · simp [upgrade, hclosed, hdown]
  · simp [upgrade, hcalls, hreader, hgone, Input.isGone, WebSocketData.initial]

theorem unended_iff (h : Follows maxPayloadLength mask socket inputs session) :
    session.closed = false ∧ session.isShuttingDown = false ↔
      session.reader.broken = false ∧ inputs.any (Input.isGone socket) = false := by
  simpa only [not_or, Bool.not_eq_true] using not_congr h.ended

theorem unended (h : Follows maxPayloadLength mask socket inputs session)
    (hclosed : session.closed = false) (hdown : session.isShuttingDown = false) :
    session.reader.broken = false ∧ inputs.any (Input.isGone socket) = false :=
  h.unended_iff.mp ⟨hclosed, hdown⟩

theorem went (h : Follows maxPayloadLength mask socket inputs session)
    (hopened : session.opened = true) (hclosed : session.closed = false) :
    Follows maxPayloadLength mask socket (inputs ++ [.gone socket]) session.close := by
  have hread : receive true maxPayloadLength
      ((inputs ++ [Input.gone socket]).filterMap (Input.bytes? socket)) (.initial mask) =
        .ok session.reader := by
    simpa [List.filterMap_append, List.filterMap_cons, Input.bytes?] using h.read
  have hany : (inputs ++ [Input.gone socket]).any (Input.isUpgrade socket) = true := by
    simpa [Input.isUpgrade] using h.opened.symm.trans hopened
  have hgone : (inputs ++ [Input.gone socket]).any (Input.isGone socket) = true := by
    simp [Input.isGone]
  have hcalls := h.calls hopened
  rcases Bool.eq_false_or_eq_true session.isShuttingDown with hdown | hdown
  · have hbroken := h.shuttingDown hdown
    rw [close_of_down hdown]
    refine ⟨hopened.trans hany.symm, hread, fun hfresh => ?_, fun _ => hbroken, ?_, ?_, fun _ => ?_⟩
    · rw [hopened] at hfresh
      cases hfresh
    · simp [hgone]
    · simpa [hdown] using h.registered
    · simpa [hbroken] using hcalls
  · obtain ⟨hbroken, hhere⟩ := h.unended hclosed hdown
    rw [close_of_up hdown]
    refine ⟨hopened.trans hany.symm, hread, fun hfresh => ?_, fun hdown' => ?_, ?_, ?_, fun _ => ?_⟩
    · rw [hopened] at hfresh
      cases hfresh
    · rw [hdown] at hdown'
      cases hdown'
    · simp [hgone]
    · simp
    · rw [hhere, hbroken] at hcalls
      simp [hbroken, hgone, hcalls]

theorem ignored (h : Follows maxPayloadLength mask socket inputs session) (bytes : Bytes)
    (hopened : session.opened = true) (hdown : session.isShuttingDown = true) :
    Follows maxPayloadLength mask socket (inputs ++ [.data socket bytes]) session := by
  have hbroken := h.shuttingDown hdown
  have hread := receive_concat h.read bytes
  rw [onData, if_pos hbroken] at hread
  refine ⟨?_, ?_, fun hfresh => ?_, h.shuttingDown, ?_, h.registered, fun _ => ?_⟩
  · simpa [Input.isUpgrade] using h.opened
  · simpa [List.filterMap_append, List.filterMap_cons, Input.bytes?] using hread
  · rw [hopened] at hfresh
    cases hfresh
  · simpa [Input.isGone] using h.ended
  · simpa [Input.isGone] using h.calls hopened

theorem heard (h : Follows maxPayloadLength mask socket inputs session) (bytes : Bytes)
    (hopened : session.opened = true) (hclosed : session.closed = false)
    (hdown : session.isShuttingDown = false) :
    Follows maxPayloadLength mask socket (inputs ++ [.data socket bytes])
      (session.data maxPayloadLength bytes) := by
  obtain ⟨hbroken, hhere⟩ := h.unended hclosed hdown
  obtain ⟨hready, hsound⟩ := receive_open h.read hbroken
  obtain ⟨next, added, hnext, hevents, hadded⟩ := consume_events hready hsound bytes
  have hread := receive_concat h.read bytes
  rw [onData, hbroken, if_neg (by decide), hnext] at hread
  have hchunks : (inputs ++ [Input.data socket bytes]).filterMap (Input.bytes? socket) =
      inputs.filterMap (Input.bytes? socket) ++ [bytes] := by
    simp [List.filterMap_append, Input.bytes?]
  have hany : (inputs ++ [Input.data socket bytes]).any (Input.isUpgrade socket) = true := by
    simpa [Input.isUpgrade] using h.opened.symm.trans hopened
  have hgone : (inputs ++ [Input.data socket bytes]).any (Input.isGone socket) = false := by
    simpa [Input.isGone] using hhere
  have hcalls := h.calls hopened
  rw [hhere, hbroken, if_neg (by simp), List.append_nil] at hcalls
  have hdata : session.data maxPayloadLength bytes =
      added.foldl handle { session with reader := next } := by
    rw [Session.data, if_neg (by simp [hdown]), hnext]
    simp only
    rw [hevents, List.drop_left]
  rw [hdata]
  rcases hadded with ⟨hopen, hadded⟩ | ⟨hends, before, last, rfl, hbefore, _, hlast⟩
  · rw [handles_open _ hadded]
    refine ⟨hopened.trans hany.symm, hchunks ▸ hread, fun hfresh => ?_, fun hdown' => ?_, ?_,
      h.registered, fun _ => ?_⟩
    · rw [hopened] at hfresh
      cases hfresh
    · rw [hdown] at hdown'
      cases hdown'
    · simp [hopen, hgone, hclosed, hdown]
    · simp [hgone, hcalls, hevents]
  · obtain ⟨isShuttingDown, closed, hhandled, hended⟩ :=
      handles_ended { session with reader := next } hbefore hlast hdown
    rw [hhandled]
    refine ⟨hopened.trans hany.symm, hchunks ▸ hread, fun hfresh => ?_, fun _ => hends, ?_, ?_,
      fun _ => ?_⟩
    · rw [hopened] at hfresh
      cases hfresh
    · simp [hends, hended]
    · simp only [false_iff, not_and, Bool.eq_false_iff]
      intro _ hclosed' hdown'
      exact hended.elim hclosed' hdown'
    · simp [hends, hcalls, hevents]

/-- What one input preserves. -/
theorem input (h : Follows maxPayloadLength mask socket inputs session) {input : Input ι}
    (hallows : session.Allows socket input) :
    Follows maxPayloadLength mask socket (inputs ++ [input])
      (session.input maxPayloadLength socket input) := by
  cases input with
  | upgrade other response symbols =>
    by_cases hother : other = socket
    · subst hother
      rw [Session.input, if_pos rfl]
      exact h.upgraded response symbols (hallows rfl)
    · rw [Session.input, if_neg hother]
      exact h.quiet rfl (decide_eq_false hother) rfl
  | data other bytes =>
    by_cases hother : other = socket
    · subst hother
      rw [Session.input, if_pos rfl]
      obtain ⟨hopened, hclosed⟩ := hallows rfl
      rcases Bool.eq_false_or_eq_true session.isShuttingDown with hdown | hdown
      · rw [Session.data, if_pos hdown]
        exact h.ignored bytes hopened hdown
      · exact h.heard bytes hopened hclosed hdown
    · rw [Session.input, if_neg hother]
      exact h.quiet (if_neg hother) rfl rfl
  | writable other => exact h.quiet rfl rfl rfl
  | gone other =>
    by_cases hother : other = socket
    · subst hother
      rw [Session.input, if_pos rfl]
      obtain ⟨hopened, hclosed⟩ := hallows rfl
      exact h.went hopened hclosed
    · rw [Session.input, if_neg hother]
      exact h.quiet rfl rfl (decide_eq_false hother)
  | broadcast message => exact h.quiet rfl rfl rfl

end Follows

end Session

section

variable {ι : Type} [LinearOrder ι] {accepts : Nat → Nat} {maxPayloadLength maxBackpressure : Nat}
  {mask : ι → Mask} {inputs : List (Input ι)} {server : Server ι}

theorem follows_initial (maxPayloadLength : Nat) (mask : ι → Mask) (socket : ι) :
    ((Server.initial mask).session socket).Follows maxPayloadLength (mask socket) socket [] := by
  refine ⟨rfl, rfl, fun _ => ⟨rfl, rfl, rfl, rfl, rfl⟩, fun h => absurd h Bool.noConfusion, ?_, ?_,
    fun h => absurd h Bool.noConfusion⟩
  · simp [Server.session, Server.initial, WebSocketData.initial]
  · simp [Server.session, Server.initial]

theorem run_follows
    (hrun : Transition.run (step accepts maxPayloadLength maxBackpressure) (.initial mask) inputs =
      some server) (socket : ι) :
    (server.session socket).Follows maxPayloadLength (mask socket) socket inputs := by
  revert socket
  apply Transition.run_labels (fun _ => True) _ (fun _ _ => trivial) _ hrun
  · intro labels state label next _ hstate hnext socket
    obtain ⟨hallows, hinput⟩ := step_session hnext socket
    rw [hinput]
    exact (hstate socket).input hallows
  · exact follows_initial maxPayloadLength mask

/-- Which handlers are called for a connection, in which order and with what, is decided by
the data of that connection alone: the kernel, the limit for buffers, the other connections
and the broadcasts do not show. -/
theorem calls_of_data
    (hrun : Transition.run (step accepts maxPayloadLength maxBackpressure) (.initial mask) inputs =
      some server) (socket : ι) :
    ∃ reader, receive true maxPayloadLength (inputs.filterMap (Input.bytes? socket))
        (.initial (mask socket)) = .ok reader ∧
      server.calls socket =
        (if inputs.any (Input.isUpgrade socket) then
          .open :: reader.events.map Event.callback ++
            if reader.broken = false ∧ inputs.any (Input.isGone socket) = true then [.close] else []
        else []) ∧
      (socket ∈ server.wssConSet ↔ inputs.any (Input.isUpgrade socket) = true ∧
        reader.broken = false ∧ inputs.any (Input.isGone socket) = false) := by
  have h := run_follows hrun socket
  refine ⟨_, h.read, ?_, ?_⟩
  · change (server.session socket).calls = _
    rw [← h.opened]
    cases hopened : (server.session socket).opened with
    | true => exact h.calls hopened
    | false => exact (h.fresh hopened).1
  · change (server.session socket).registered ↔ _
    rw [h.registered, h.opened, h.unended_iff]

/-- Two clients, and one of them asks with a ping in two pieces and leaves. -/
def sampleSession : List (Input Nat) :=
  [.upgrade 0 [] [91, 93], .data 0 [137, 129], .upgrade 1 [72] [91, 93], .data 0 [7, 7, 7, 7, 6],
    .broadcast [104], .gone 0]

theorem calls_of_data_sample :
    ∃ server, Transition.run (step (fun _ => 0) 16384 1048576) (.initial fun _ _ => 0)
        sampleSession = some server ∧
      server.calls 0 = [.open, .ping, .close] ∧ 0 ∉ server.wssConSet := by
  obtain ⟨server, hrun⟩ : ∃ server, Transition.run (step (fun _ => 0) 16384 1048576)
      (.initial fun _ _ => 0) sampleSession = some server :=
    Option.isSome_iff_exists.mp (by decide +kernel)
  obtain ⟨reader, hreader, hcalls, hmember⟩ := calls_of_data hrun 0
  have hread : (receive true 16384 [[137, 129], [7, 7, 7, 7, 6]] (.initial fun _ => 0)).map
      (fun reader => (reader.events, reader.broken)) = .ok ([.ping [1]], false) := by
    decide +kernel
  have hchunks : sampleSession.filterMap (Input.bytes? 0) = [[137, 129], [7, 7, 7, 7, 6]] := rfl
  rw [← hchunks, hreader] at hread
  obtain ⟨hevents, hbroken⟩ := Prod.mk.inj (Except.ok.inj hread)
  refine ⟨server, hrun, ?_, fun hmem => ?_⟩
  · rw [hcalls, hevents, hbroken]
    rfl
  · cases (hmember.mp hmem).2.2

/-- A connection is opened first and closed last, once, and it is among those that get
broadcasts in between. -/
theorem lifecycle
    (hrun : Transition.run (step accepts maxPayloadLength maxBackpressure) (.initial mask) inputs =
      some server) (socket : ι) :
    server.calls socket = [] ∧ socket ∉ server.wssConSet ∨
      ∃ between, (∀ callback ∈ between, callback ≠ .open ∧ callback ≠ .close) ∧
        (server.calls socket = .open :: between ∧ socket ∈ server.wssConSet ∨
          server.calls socket = .open :: between ++ [.close] ∧ socket ∉ server.wssConSet) := by
  have h := run_follows hrun socket
  have hregistered := h.registered
  change socket ∈ server.wssConSet ↔ _ at hregistered
  rw [h.unended_iff] at hregistered
  cases hopened : (server.session socket).opened with
  | false => exact .inl ⟨(h.fresh hopened).1, by simp [hregistered, hopened]⟩
  | true =>
    have hcalls := h.calls hopened
    change server.calls socket = _ at hcalls
    right
    rcases receive_shape h.read with ⟨hbroken, hevents⟩ | ⟨hbroken, before, last, hevents, hbefore,
      _, hends⟩
    · refine ⟨_, callbacks_open hevents, ?_⟩
      cases hgone : inputs.any (Input.isGone socket) with
      | false =>
        rw [hgone, if_neg (by simp), List.append_nil] at hcalls
        exact .inl ⟨hcalls, hregistered.mpr ⟨hopened, hbroken, hgone⟩⟩
      | true =>
        rw [hgone, if_pos ⟨hbroken, rfl⟩] at hcalls
        exact .inr ⟨hcalls, by simp [hregistered, hgone]⟩
    · refine ⟨_, callbacks_open hbefore, .inr ⟨?_, by simp [hregistered, hbroken]⟩⟩
      rw [hevents, hbroken, if_neg (by simp), List.append_nil, List.map_append, List.map_singleton,
        callback_of_ends hends] at hcalls
      exact hcalls

theorem lifecycle_sample :
    ∃ server, Transition.run (step (fun _ => 0) 16384 1048576) (.initial fun _ _ => 0)
        sampleSession = some server ∧
      (server.calls 1 = [] ∧ 1 ∉ server.wssConSet ∨
        ∃ between, (∀ callback ∈ between, callback ≠ .open ∧ callback ≠ .close) ∧
          (server.calls 1 = .open :: between ∧ 1 ∈ server.wssConSet ∨
            server.calls 1 = .open :: between ++ [.close] ∧ 1 ∉ server.wssConSet)) := by
  obtain ⟨server, hrun⟩ : ∃ server, Transition.run (step (fun _ => 0) 16384 1048576)
      (.initial fun _ _ => 0) sampleSession = some server :=
    Option.isSome_iff_exists.mp (by decide +kernel)
  exact ⟨server, hrun, lifecycle hrun 1⟩

/-- Whether there may be such an input. -/
def Enabled (server : Server ι) : Input ι → Prop
  | .upgrade socket _ _ => (server.connections socket).opened = false
  | .data socket _ | .writable socket | .gone socket =>
    (server.connections socket).opened = true ∧ (server.loop.sockets socket).closed = false
  | .broadcast _ => True

theorem onData_isOk (accepts : Nat → Nat) (maxBackpressure : Nat) (bytes : Bytes) {socket : ι}
    {memory : Mask} (h : (server.session socket).Follows maxPayloadLength memory socket inputs)
    (hclosed : (server.loop.sockets socket).closed = false) :
    ∃ next, WebSocketContext.onData accepts maxPayloadLength maxBackpressure socket bytes server =
      .ok next := by
  unfold WebSocketContext.onData
  split
  · exact ⟨server, rfl⟩
  · rename_i hdown
    obtain ⟨hbroken, _⟩ := h.unended hclosed (Bool.eq_false_iff.mpr hdown)
    obtain ⟨next, hnext, _⟩ := consume_rests (receive_open h.read hbroken).1 bytes
    change consume true maxPayloadLength bytes (server.connections socket).reader = _ at hnext
    simp only [Server.setLoop, hnext]
    exact ⟨_, rfl⟩

/-- Whatever a client sends, the reader never looks for an opcode that is not there. -/
theorem step_enabled_iff
    (hrun : Transition.run (step accepts maxPayloadLength maxBackpressure) (.initial mask) inputs =
      some server) (input : Input ι) :
    (step accepts maxPayloadLength maxBackpressure server input).isSome = true ↔
      Enabled server input := by
  cases input with
  | upgrade socket response symbols => simp [step, Enabled]
  | data socket bytes =>
    by_cases hclosed : (server.loop.sockets socket).closed = false
    · obtain ⟨next, hnext⟩ := onData_isOk accepts maxBackpressure bytes (run_follows hrun socket)
        hclosed
      simp [step, Enabled, hclosed, hnext, Except.toOption]
    · simp [step, Enabled, hclosed]
  | writable socket => simp [step, Enabled]
  | gone socket => simp [step, Enabled]
  | broadcast message => simp [step, Enabled]

theorem step_enabled_iff_sample :
    ∃ server, Transition.run (step (fun _ => 0) 16384 1048576) (.initial fun _ _ => 0)
        sampleSession = some server ∧
      ∀ bytes, (step (fun _ => 0) 16384 1048576 server (.data 1 bytes)).isSome = true := by
  obtain ⟨server, hrun, hopen⟩ : ∃ server : Server Nat,
      Transition.run (step (fun _ => 0) 16384 1048576) (.initial fun _ _ => 0) sampleSession =
        some server ∧
      (server.connections 1).opened = true ∧ (server.loop.sockets 1).closed = false :=
    Transition.run_satisfies (by decide +kernel)
  exact ⟨server, hrun, fun bytes => (step_enabled_iff hrun (.data 1 bytes)).mpr hopen⟩

end

end MarketServer.UWS

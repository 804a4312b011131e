import MarketServer.HttpContext
import MarketServer.ServerSessions

/-! The server of the clients from the first byte of a connection on: the HTTP context reads its
head, upgrades it and leaves what comes later to the WebSocket context. -/
namespace MarketServer.UWS
open Library HttpContext

variable {ι : Type} [LinearOrder ι]

/-- `App().ws<PerSocketData>("/*", …)` -/
structure App (ι : Type) [LinearOrder ι] where
  openings : ι → Opening
  server : Server ι

/-- What the loop has for the server. With a piece of data comes the list of the symbols, which the
handler of an upgrade reads. -/
inductive Traffic (ι : Type) where
  | data (socket : ι) (bytes symbols : Bytes)
  | writable (socket : ι)
  | gone (socket : ι)
  | broadcast (message : Bytes)

namespace Traffic

def bytes? (socket : ι) : Traffic ι → Option Bytes
  | .data other bytes _ => if other = socket then some bytes else none
  | _ => none

def isGone (socket : ι) : Traffic ι → Bool
  | .gone other => other = socket
  | _ => false

end Traffic

namespace App

def initial (mask : ι → Mask) : App ι := ⟨fun _ => .reading [], .initial mask⟩

def move (socket : ι) (opening : Opening) (app : App ι) (server : Server ι) : App ι :=
  { openings := Function.update app.openings socket opening, server }

section
variable (accepts : Nat → Nat) (maxPayloadLength maxBackpressure : Nat)

/-- A piece of the head. The socket is corked while it is read, and nothing is written to it unless
it is upgraded. -/
def onHttpData (socket : ι) (fallback bytes symbols : Bytes) (app : App ι) : Option (App ι) :=
  match HttpContext.onData onWebSocketRequest (.reading fallback) bytes with
  | .reading fallback =>
    some (app.move socket (.reading fallback) (app.server.setLoop fun loop =>
      (uncork accepts socket [] false (loop.cork socket)).2))
  | .upgraded response =>
    (UWS.step accepts maxPayloadLength maxBackpressure app.server
      (.upgrade socket response symbols)).map (app.move socket (.upgraded response))
  | .closed =>
    some (app.move socket .closed (app.server.setLoop fun loop =>
      (uncork accepts socket [] false
        ((loop.cork socket).setSocket socket ({ · with closed := true }))).2))
  | .terminated => none

/-- An event of a socket that is upgraded. -/
def onWebSocket (input : Input ι) (app : App ι) : Option (App ι) :=
  (UWS.step accepts maxPayloadLength maxBackpressure app.server input).map
    ({ app with server := · })

def step (app : App ι) : Traffic ι → Option (App ι)
  | .data socket bytes symbols =>
    match app.openings socket with
    | .reading fallback =>
      onHttpData accepts maxPayloadLength maxBackpressure socket fallback bytes symbols app
    | .upgraded _ => onWebSocket accepts maxPayloadLength maxBackpressure (.data socket bytes) app
    | .closed | .terminated => none
  | .writable socket =>
    match app.openings socket with
    | .reading _ =>
      some { app with
        server := app.server.setLoop fun loop => (write accepts socket [] true loop).2 }
    | .upgraded _ => onWebSocket accepts maxPayloadLength maxBackpressure (.writable socket) app
    | .closed | .terminated => none
  | .gone socket =>
    match app.openings socket with
    | .reading _ =>
      some (app.move socket .closed
        (app.server.setLoop (·.setSocket socket ({ · with closed := true }))))
    | .upgraded _ => onWebSocket accepts maxPayloadLength maxBackpressure (.gone socket) app
    | .closed | .terminated => none
  | .broadcast message =>
    onWebSocket accepts maxPayloadLength maxBackpressure (.broadcast message) app

end

/-- What the HTTP context makes of the pieces of a connection. -/
def openingOf (pieces : List Bytes) : Opening :=
  pieces.foldl (HttpContext.onData onWebSocketRequest) (.reading [])

/-- One connection after all that came for it: its head is read first, and the WebSocket context has
the pieces behind it. -/
def Stands (maxPayloadLength : Nat) (mask : Mask) (socket : ι) (traffic : List (Traffic ι))
    (session : Session) : Opening → Prop
  | .reading fallback =>
    openingOf (traffic.filterMap (Traffic.bytes? socket)) = .reading fallback ∧
    session.Follows maxPayloadLength mask socket [] ∧ traffic.any (Traffic.isGone socket) = false
  | .upgraded response => ∃ before piece fallback inputs,
    openingOf before = .reading fallback ∧ openingOf (before ++ [piece]) = .upgraded response ∧
    traffic.filterMap (Traffic.bytes? socket) =
      before ++ piece :: inputs.filterMap (Input.bytes? socket) ∧
    session.Follows maxPayloadLength mask socket inputs ∧ session.opened = true ∧
    inputs.any (Input.isGone socket) = traffic.any (Traffic.isGone socket)
  | .closed =>
    (∀ response, openingOf (traffic.filterMap (Traffic.bytes? socket)) ≠ .upgraded response) ∧
    session.calls = [] ∧ ¬ session.registered
  | .terminated => False

variable {accepts : Nat → Nat} {maxPayloadLength maxBackpressure : Nat} {mask : Mask} {socket : ι}
  {traffic : List (Traffic ι)} {session : Session} {opening : Opening} {app next : App ι}

theorem Stands.quiet (h : Stands maxPayloadLength mask socket traffic session opening)
    {label : Traffic ι} (hbytes : label.bytes? socket = none)
    (hgone : label.isGone socket = false) :
    Stands maxPayloadLength mask socket (traffic ++ [label]) session opening := by
  have hpieces : (traffic ++ [label]).filterMap (Traffic.bytes? socket) =
      traffic.filterMap (Traffic.bytes? socket) := by
    simp [List.filterMap_append, hbytes]
  have hany : (traffic ++ [label]).any (Traffic.isGone socket) =
      traffic.any (Traffic.isGone socket) := by
    simp [hgone]
  cases opening with
  | reading fallback => simpa only [Stands, hpieces, hany] using h
  | upgraded response => simpa only [Stands, hpieces, hany] using h
  | closed => simpa only [Stands, hpieces] using h
  | terminated => exact h

theorem stands_initial (maxPayloadLength : Nat) (mask : ι → Mask) (socket : ι) :
    Stands maxPayloadLength (mask socket) socket [] ((initial mask).server.session socket)
      ((initial mask).openings socket) :=
  ⟨rfl, follows_initial maxPayloadLength mask socket, rfl⟩

theorem session_setLoop (change : Loop ι → Loop ι) (server : Server ι) (socket : ι) :
    (server.setLoop change).session socket = { server.session socket with
      closed := ((change server.loop).sockets socket).closed } := rfl

/-- Reading a head keeps every connection of the WebSocket context. -/
theorem keeps_corked (accepts : Nat → Nat) (socket : ι) (server : Server ι) :
    server.Keeps
      (server.setLoop fun loop => (uncork accepts socket [] false (loop.cork socket)).2) :=
  Server.keeps_setLoop _ (uncork_sameClosed accepts socket [] false (server.loop.cork socket))

theorem keeps_drained (accepts : Nat → Nat) (socket : ι) (server : Server ι) :
    server.Keeps (server.setLoop fun loop => (write accepts socket [] true loop).2) :=
  Server.keeps_setLoop _ (write_sameClosed accepts socket [] true server.loop)

theorem changes_closed (socket : ι) (server : Server ι) :
    server.Changes socket ({ · with closed := true })
      (server.setLoop (·.setSocket socket ({ · with closed := true }))) := by
  intro other
  rw [session_setLoop]
  by_cases hother : other = socket
  · subst hother
    simp [Loop.setSocket]
  · rw [if_neg hother]
    simp [Loop.setSocket, hother, Server.session]

theorem changes_corkedClosed (accepts : Nat → Nat) (socket : ι) (server : Server ι) :
    server.Changes socket ({ · with closed := true })
      (server.setLoop fun loop => (uncork accepts socket [] false
        ((loop.cork socket).setSocket socket ({ · with closed := true }))).2) := by
  intro other
  have hsame := uncork_sameClosed accepts socket [] false
    ((server.loop.cork socket).setSocket socket ({ · with closed := true })) other
  rw [session_setLoop, hsame]
  exact changes_closed socket server other

theorem move_eq (socket : ι) (opening : Opening) (app : App ι) (server : Server ι) :
    (app.move socket opening server).openings socket = opening ∧
      ∀ other, other ≠ socket → (app.move socket opening server).openings other =
        app.openings other := by
  refine ⟨?_, fun other hother => ?_⟩
  · change Function.update app.openings socket opening socket = opening
    rw [Function.update_self]
  · change Function.update app.openings socket opening other = app.openings other
    rw [Function.update_of_ne hother]

theorem onWebSocket_cases {input : Input ι}
    (h : onWebSocket accepts maxPayloadLength maxBackpressure input app = some next) :
    next.openings = app.openings ∧ ∀ socket, (app.server.session socket).Allows socket input ∧
      next.server.session socket =
        (app.server.session socket).input maxPayloadLength socket input := by
  obtain ⟨server, hserver, rfl⟩ := Option.map_eq_some_iff.mp h
  exact ⟨rfl, step_session hserver⟩

/-- A piece of a head and what it makes of the connection. -/
theorem onHttpData_cases {fallback bytes symbols : Bytes}
    (h : onHttpData accepts maxPayloadLength maxBackpressure socket fallback bytes symbols app =
      some next) :
    (∀ other, other ≠ socket → next.openings other = app.openings other ∧
      next.server.session other = app.server.session other) ∧
    HttpContext.onData onWebSocketRequest (.reading fallback) bytes = next.openings socket ∧
    ((∃ fallback, next.openings socket = .reading fallback ∧
        next.server.session socket = app.server.session socket) ∨
      (∃ response, next.openings socket = .upgraded response ∧
        (app.server.session socket).opened = false ∧
        next.server.session socket = (app.server.session socket).upgrade) ∨
      next.openings socket = .closed ∧
        next.server.session socket = { app.server.session socket with closed := true }) := by
  unfold onHttpData at h
  split at h
  · rename_i fallback hopening
    obtain rfl := Option.some.inj h
    have hkeeps := keeps_corked accepts socket app.server
    obtain ⟨hsame, hother⟩ := move_eq socket (.reading fallback) app
      (app.server.setLoop fun loop => (uncork accepts socket [] false (loop.cork socket)).2)
    exact ⟨fun other hne => ⟨hother other hne, hkeeps other⟩, hopening.trans hsame.symm,
      .inl ⟨fallback, hsame, hkeeps socket⟩⟩
  · rename_i response hopening
    obtain ⟨server, hserver, rfl⟩ := Option.map_eq_some_iff.mp h
    obtain ⟨hsame, hother⟩ := move_eq socket (.upgraded response) app server
    refine ⟨fun other hne => ⟨hother other hne, ?_⟩, hopening.trans hsame.symm,
      .inr (.inl ⟨response, hsame, (step_session hserver socket).1 rfl, ?_⟩)⟩
    · exact (step_session hserver other).2.trans (if_neg (Ne.symm hne))
    · exact (step_session hserver socket).2.trans (if_pos rfl)
  · rename_i hopening
    obtain rfl := Option.some.inj h
    have hchanges := changes_corkedClosed accepts socket app.server
    obtain ⟨hsame, hother⟩ := move_eq socket .closed app
      (app.server.setLoop fun loop => (uncork accepts socket [] false
        ((loop.cork socket).setSocket socket ({ · with closed := true }))).2)
    exact ⟨fun other hne => ⟨hother other hne, (hchanges other).trans (if_neg hne)⟩,
      hopening.trans hsame.symm, .inr (.inr ⟨hsame, (hchanges socket).trans (if_pos rfl)⟩)⟩
  · cases h

theorem openingOf_concat (pieces : List Bytes) (bytes : Bytes) :
    openingOf (pieces ++ [bytes]) =
      HttpContext.onData onWebSocketRequest (openingOf pieces) bytes := by
  rw [openingOf, List.foldl_append]
  rfl

/-- An event of an upgraded socket is the same event for the WebSocket context. -/
theorem Stands.webSocket {response : Bytes}
    (h : Stands maxPayloadLength mask socket traffic session (.upgraded response))
    {label : Traffic ι} {input : Input ι} (hallows : session.Allows socket input)
    (hbytes : label.bytes? socket = input.bytes? socket)
    (hgone : label.isGone socket = input.isGone socket) :
    Stands maxPayloadLength mask socket (traffic ++ [label])
      (session.input maxPayloadLength socket input) (.upgraded response) := by
  obtain ⟨before, piece, fallback, inputs, hbefore, hpiece, hpieces, hfollows, hopened, hany⟩ := h
  have hnext := hfollows.input hallows
  refine ⟨before, piece, fallback, inputs ++ [input], hbefore, hpiece, ?_, hnext, ?_, ?_⟩
  · rw [List.filterMap_append, List.filterMap_append, hpieces, List.append_assoc, List.cons_append]
    simp [List.filterMap_cons, hbytes]
  · rw [hnext.opened, List.any_append, ← hfollows.opened, hopened, Bool.true_or]
  · rw [List.any_append, List.any_append, hany]
    simp [hgone]

theorem calls_of_fresh (h : session.Follows maxPayloadLength mask socket []) :
    session.calls = [] ∧ ¬ session.registered := by
  refine ⟨(h.fresh h.opened).1, fun hregistered => ?_⟩
  exact absurd ((h.registered.mp hregistered).1.symm.trans h.opened) Bool.noConfusion

theorem Stands.left {fallback : Bytes}
    (h : Stands maxPayloadLength mask socket traffic session (.reading fallback)) :
    Stands maxPayloadLength mask socket (traffic ++ [.gone socket])
      { session with closed := true } .closed := by
  obtain ⟨hopening, hfollows, -⟩ := h
  have hfresh := calls_of_fresh hfollows
  have hpieces : (traffic ++ [Traffic.gone socket]).filterMap (Traffic.bytes? socket) =
      traffic.filterMap (Traffic.bytes? socket) := by
    simp [List.filterMap_append, Traffic.bytes?]
  refine ⟨fun response => ?_, hfresh⟩
  rw [hpieces, hopening]
  exact Opening.noConfusion

/-- The first piece of a head or a later one. -/
theorem Stands.http {fallback bytes symbols : Bytes}
    (h : Stands maxPayloadLength mask socket traffic (app.server.session socket)
      (.reading fallback))
    (hnext : onHttpData accepts maxPayloadLength maxBackpressure socket fallback bytes symbols app =
      some next) :
    Stands maxPayloadLength mask socket (traffic ++ [.data socket bytes symbols])
      (next.server.session socket) (next.openings socket) := by
  obtain ⟨hopening, hfollows, hany⟩ := h
  obtain ⟨-, hread, hcases⟩ := onHttpData_cases hnext
  have hpieces : (traffic ++ [Traffic.data socket bytes symbols]).filterMap
      (Traffic.bytes? socket) = traffic.filterMap (Traffic.bytes? socket) ++ [bytes] := by
    simp [List.filterMap_append, Traffic.bytes?]
  have hgone : (traffic ++ [Traffic.data socket bytes symbols]).any (Traffic.isGone socket) =
      false := by
    rw [List.any_append, hany]
    rfl
  have hstream : openingOf (traffic.filterMap (Traffic.bytes? socket) ++ [bytes]) =
      next.openings socket := by
    rw [openingOf_concat, hopening, hread]
  obtain ⟨fallback', hreading, hsame⟩ | ⟨response, hupgraded, hfresh, hsame⟩ | ⟨hclosed, hsame⟩ :=
    hcases
  · rw [hreading, hsame]
    refine ⟨?_, hfollows, hgone⟩
    rw [hpieces, hstream, hreading]
  · rw [hupgraded, hsame]
    refine ⟨traffic.filterMap (Traffic.bytes? socket), bytes, fallback,
      [.upgrade socket response symbols], hopening, hstream.trans hupgraded, hpieces,
      hfollows.upgraded response symbols hfresh, rfl, ?_⟩
    rw [hgone]
    rfl
  · rw [hclosed, hsame]
    have hfresh := calls_of_fresh hfollows
    refine ⟨fun response => ?_, hfresh⟩
    rw [hpieces, hstream, hclosed]
    exact Opening.noConfusion

theorem step_writable {other : ι}
    (h : step accepts maxPayloadLength maxBackpressure app (.writable other) = some next)
    (socket : ι) :
    next.openings socket = app.openings socket ∧
      next.server.session socket = app.server.session socket := by
  cases hopening : app.openings other with
  | reading fallback =>
    simp only [step, hopening] at h
    obtain rfl := Option.some.inj h
    exact ⟨rfl, keeps_drained accepts other app.server socket⟩
  | upgraded response =>
    simp only [step, hopening] at h
    obtain ⟨hopenings, hsession⟩ := onWebSocket_cases h
    exact ⟨congrFun hopenings socket, (hsession socket).2⟩
  | closed => simp [step, hopening] at h
  | terminated => simp [step, hopening] at h

/-- The socket an event belongs to. -/
def Concerns (socket : ι) : Traffic ι → Prop
  | .data other _ _ | .writable other | .gone other => other = socket
  | .broadcast _ => False

theorem step_elsewhere {label : Traffic ι}
    (h : step accepts maxPayloadLength maxBackpressure app label = some next)
    (hother : ¬ Concerns socket label) :
    next.openings socket = app.openings socket ∧
      next.server.session socket = app.server.session socket := by
  cases label with
  | broadcast message =>
    obtain ⟨hopenings, hsession⟩ := onWebSocket_cases h
    exact ⟨congrFun hopenings socket, (hsession socket).2⟩
  | data other bytes symbols =>
    cases hopening : app.openings other with
    | reading fallback =>
      simp only [step, hopening] at h
      exact (onHttpData_cases h).1 socket (Ne.symm hother)
    | upgraded response =>
      simp only [step, hopening] at h
      obtain ⟨hopenings, hsession⟩ := onWebSocket_cases h
      exact ⟨congrFun hopenings socket, (hsession socket).2.trans (if_neg hother)⟩
    | closed => simp [step, hopening] at h
    | terminated => simp [step, hopening] at h
  | writable other => exact step_writable h socket
  | gone other =>
    cases hopening : app.openings other with
    | reading fallback =>
      simp only [step, hopening] at h
      obtain rfl := Option.some.inj h
      exact ⟨(move_eq other .closed app _).2 socket (Ne.symm hother),
        (changes_closed other app.server socket).trans (if_neg (Ne.symm hother))⟩
    | upgraded response =>
      simp only [step, hopening] at h
      obtain ⟨hopenings, hsession⟩ := onWebSocket_cases h
      exact ⟨congrFun hopenings socket, (hsession socket).2.trans (if_neg hother)⟩
    | closed => simp [step, hopening] at h
    | terminated => simp [step, hopening] at h

theorem step_stands {label : Traffic ι} {mask : ι → Mask}
    (h : step accepts maxPayloadLength maxBackpressure app label = some next)
    (hstands : ∀ socket, Stands maxPayloadLength (mask socket) socket traffic
      (app.server.session socket) (app.openings socket)) (socket : ι) :
    Stands maxPayloadLength (mask socket) socket (traffic ++ [label]) (next.server.session socket)
      (next.openings socket) := by
  have hsocket := hstands socket
  cases label with
  | broadcast message =>
    obtain ⟨hopenings, hsession⟩ := onWebSocket_cases h
    rw [hopenings, (hsession socket).2]
    exact hsocket.quiet rfl rfl
  | data other bytes symbols =>
    by_cases hother : other = socket
    · subst hother
      cases hopening : app.openings other with
      | reading fallback =>
        simp only [step, hopening] at h
        rw [hopening] at hsocket
        exact hsocket.http h
      | upgraded response =>
        simp only [step, hopening] at h
        obtain ⟨hopenings, hsession⟩ := onWebSocket_cases h
        rw [hopening] at hsocket
        rw [hopenings, hopening, (hsession other).2]
        exact hsocket.webSocket (hsession other).1 rfl rfl
      | closed => simp [step, hopening] at h
      | terminated => simp [step, hopening] at h
    · have hbytes : (Traffic.data other bytes symbols).bytes? socket = none := if_neg hother
      have hsame := step_elsewhere h hother
      rw [hsame.1, hsame.2]
      exact hsocket.quiet hbytes rfl
  | writable other =>
    have hsame := step_writable h socket
    rw [hsame.1, hsame.2]
    exact hsocket.quiet rfl rfl
  | gone other =>
    by_cases hother : other = socket
    · subst hother
      cases hopening : app.openings other with
      | reading fallback =>
        simp only [step, hopening] at h
        obtain rfl := Option.some.inj h
        rw [hopening] at hsocket
        have hchanges := changes_closed other app.server other
        rw [if_pos rfl] at hchanges
        rw [(move_eq other .closed app _).1]
        exact hchanges ▸ hsocket.left
      | upgraded response =>
        simp only [step, hopening] at h
        obtain ⟨hopenings, hsession⟩ := onWebSocket_cases h
        rw [hopening] at hsocket
        rw [hopenings, hopening, (hsession other).2]
        exact hsocket.webSocket (hsession other).1 rfl rfl
      | closed => simp [step, hopening] at h
      | terminated => simp [step, hopening] at h
    · have hsame := step_elsewhere h hother
      rw [hsame.1, hsame.2]
      exact hsocket.quiet rfl (decide_eq_false hother)

theorem run_stands {mask : ι → Mask}
    (hrun : Transition.run (step accepts maxPayloadLength maxBackpressure) (initial mask) traffic =
      some app) (socket : ι) :
    Stands maxPayloadLength (mask socket) socket traffic (app.server.session socket)
      (app.openings socket) := by
  revert socket
  apply Transition.run_labels (fun _ => True) _ (fun _ _ => trivial) _ hrun
  · intro labels state label next _ hstate hnext
    exact step_stands hnext hstate
  · exact stands_initial maxPayloadLength mask

theorem openingOf_append {front later : List Bytes} {response : Bytes}
    (h : openingOf front = .upgraded response) :
    openingOf (front ++ later) = .upgraded response := by
  rw [openingOf, List.foldl_append]
  change later.foldl _ (openingOf front) = _
  rw [h]
  induction later with
  | nil => rfl
  | cons _ _ ih => exact ih

/-- Which handlers are called for a client is decided by the bytes it sent from its first on: by
its head, and by the pieces behind the one in which the head ends. -/
theorem calls_of_traffic {mask : ι → Mask}
    (hrun : Transition.run (step accepts maxPayloadLength maxBackpressure) (initial mask) traffic =
      some app) (socket : ι) :
    (∀ response, openingOf (traffic.filterMap (Traffic.bytes? socket)) ≠ .upgraded response) ∧
        app.server.calls socket = [] ∧ socket ∉ app.server.wssConSet ∨
      ∃ (head : HttpParser.Head) (before later : List Bytes) (piece lost response : Bytes)
        (reader : WebSocketData),
        traffic.filterMap (Traffic.bytes? socket) = before ++ piece :: later ∧
        openingOf (traffic.filterMap (Traffic.bytes? socket)) = .upgraded response ∧
        before.flatten ++ piece = head.text ++ lost ∧
        before.flatten.length < head.text.length ∧
        webSocketAnswer head.request = .upgraded response ∧
        receive true maxPayloadLength later (.initial (mask socket)) = .ok reader ∧
        app.server.calls socket = .open :: reader.events.map Event.callback ++
          (if reader.broken = false ∧ traffic.any (Traffic.isGone socket) = true then [.close]
          else []) ∧
        (socket ∈ app.server.wssConSet ↔
          reader.broken = false ∧ traffic.any (Traffic.isGone socket) = false) := by
  have hstands := run_stands hrun socket
  cases hopening : app.openings socket with
  | reading fallback =>
    rw [hopening] at hstands
    obtain ⟨hstream, hfollows, -⟩ := hstands
    refine .inl ⟨fun response => ?_, calls_of_fresh hfollows⟩
    rw [hstream]
    exact Opening.noConfusion
  | upgraded response =>
    rw [hopening] at hstands
    obtain ⟨before, piece, fallback, inputs, hbefore, hpiece, hpieces, hfollows, hopened, hgone⟩ :=
      hstands
    obtain ⟨head, lost, hhead, hanswer⟩ := head_of_answer onWebSocketRequest_ne hpiece
      Opening.noConfusion fun _ => Opening.noConfusion
    rw [onWebSocketRequest_eq] at hanswer
    rw [List.flatten_append, List.flatten_singleton] at hhead
    have hshort := short_of_reading onWebSocketRequest_ne hbefore ⟨piece, hhead⟩
    have hstream : openingOf (traffic.filterMap (Traffic.bytes? socket)) = .upgraded response := by
      rw [hpieces, List.append_cons]
      exact openingOf_append hpiece
    refine .inr ⟨head, before, _, piece, lost, response, _, hpieces, hstream, hhead, hshort,
      hanswer, hfollows.read, ?_, ?_⟩
    · rw [← hgone]
      exact hfollows.calls hopened
    · have hregistered := hfollows.registered
      rw [hfollows.unended_iff, hgone] at hregistered
      exact hregistered.trans (and_iff_right hopened)
  | closed =>
    rw [hopening] at hstands
    exact .inl hstands
  | terminated =>
    rw [hopening] at hstands
    exact hstands.elim

/-- A client that sends its head in two pieces, then a ping, and another that sends no head. -/
def sampleTraffic : List (Traffic Nat) :=
  [.data 0 (HttpParser.sampleHead.text.take 30) [91, 93], .data 1 [13, 10, 13, 10] [91, 93],
    .data 0 (HttpParser.sampleHead.text.drop 30) [91, 93], .broadcast [104],
    .data 0 [137, 129, 7, 7, 7, 7, 6] [91, 93], .gone 1]

theorem calls_of_traffic_sample :
    ∃ app, Transition.run (step (fun _ => 0) 16384 1048576) (initial fun _ _ => 0) sampleTraffic =
        some app ∧
      app.server.calls 1 = [] ∧ .open ∈ app.server.calls 0 := by
  obtain ⟨app, hrun⟩ : ∃ app, Transition.run (step (fun _ => 0) 16384 1048576)
      (initial fun _ _ => 0) sampleTraffic = some app :=
    Option.isSome_iff_exists.mp (by decide +kernel)
  refine ⟨app, hrun, ?_, ?_⟩
  · obtain ⟨-, hcalls, -⟩ | ⟨_, _, _, _, _, response, _, _, hstream, _⟩ := calls_of_traffic hrun 1
    · exact hcalls
    · have hreading : openingOf (sampleTraffic.filterMap (Traffic.bytes? 1)) =
          .reading [13, 10, 13, 10] := by decide +kernel
      cases hreading.symm.trans hstream
  · obtain ⟨hnever, _⟩ | ⟨_, _, _, _, _, _, _, _, _, _, _, _, _, hcalls, _⟩ :=
      calls_of_traffic hrun 0
    · obtain ⟨response, hresponse⟩ : ∃ response,
          openingOf (sampleTraffic.filterMap (Traffic.bytes? 0)) = .upgraded response :=
        ⟨_, (by decide +kernel : _ = Opening.upgraded (.ofLiteral
          ("HTTP/1.1 101 Switching Protocols\r\nUpgrade: websocket\r\nConnection: Upgrade\r\n" ++
            "Sec-WebSocket-Accept: s3pPLMBiTxaQ9kYGzzhZRbK+xOo=\r\nuWebSockets: 18\r\n\r\n")))⟩
      exact absurd hresponse (hnever response)
    · rw [hcalls]
      exact List.mem_cons_self

end App

end MarketServer.UWS

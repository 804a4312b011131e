import MarketServer.FrameRoundTrip
import MarketServer.Library.Transition
import Mathlib.Logic.Function.Basic

/-! Sockets as `AsyncSocket.h` and `WebSocket.h` write to them: a buffer for each socket,
and one cork buffer for the whole loop. -/
namespace MarketServer.UWS
open Library

/-- `CORK_BUFFER_SIZE` -/
def corkBufferSize : Nat := 16 * 1024

/-- `written` is what the kernel took so far. -/
structure SocketData where
  buffer : Bytes
  written : Bytes
  closed : Bool

section

variable (ι : Type)

/-- The sockets of a loop with its `LoopData`. `corkBuffer` has the bytes up to
`corkOffset`. `writes` counts the calls of `us_socket_write`. -/
structure Loop where
  corkedSocket : Option ι
  corkBuffer : Bytes
  sockets : ι → SocketData
  writes : Nat

end

variable {ι : Type} [DecidableEq ι]

/-- What `write` and `uncork` return: a number of bytes and whether something has to wait. -/
abbrev Outcome := Nat × Bool

namespace Loop

def setSocket (socket : ι) (change : SocketData → SocketData) (loop : Loop ι) : Loop ι :=
  { loop with sockets := Function.update loop.sockets socket (change (loop.sockets socket)) }

/-- Looks at `corkedSocket` without care for another socket that is corked. -/
def cork (socket : ι) (loop : Loop ι) : Loop ι := { loop with corkedSocket := some socket }

end Loop

section

-- how many bytes the kernel is ready to take at each call
variable (accepts : Nat → Nat)

/-- `us_socket_write`: how many bytes were written. -/
def socketWrite (socket : ι) (src : Bytes) (loop : Loop ι) : Nat × Loop ι :=
  let written := min (accepts loop.writes) src.length
  (written,
    { loop.setSocket socket fun data => { data with written := data.written ++ src.take written } with
      writes := loop.writes + 1 })

/-- `write` up to where data are passed on: a closed socket only seems to take them, and
what waits in the buffer of the socket goes first. -/
def writeThen (pass : Loop ι → Outcome × Loop ι) (socket : ι) (src : Bytes) (optionally : Bool)
    (loop : Loop ι) : Outcome × Loop ι :=
  let data := loop.sockets socket
  if data.closed then ((src.length, false), loop)
  else if data.buffer ≠ [] then
    let (written, loop) := socketWrite accepts socket data.buffer loop
    if written < data.buffer.length then
      let buffer := data.buffer.drop written
      if optionally then ((0, true), loop.setSocket socket ({ · with buffer }))
      else ((src.length, true), loop.setSocket socket ({ · with buffer := buffer ++ src }))
    else
      let loop := loop.setSocket socket ({ · with buffer := [] })
      if src ≠ [] then pass loop else ((src.length, false), loop)
  else if src ≠ [] then pass loop
  else ((src.length, false), loop)

/-- `write` past the buffer of a socket that is not corked. -/
def passThrough (socket : ι) (src : Bytes) (optionally : Bool) (loop : Loop ι) :
    Outcome × Loop ι :=
  let (written, loop) := socketWrite accepts socket src loop
  if written < src.length then
    if optionally then ((written, true), loop)
    else
      ((src.length, true),
        loop.setSocket socket fun data => { data with buffer := data.buffer ++ src.drop written })
  else ((src.length, false), loop)

/-- `uncork` clears `corkedSocket` first, so what it writes is passed through. -/
def uncork (socket : ι) (src : Bytes) (optionally : Bool) (loop : Loop ι) : Outcome × Loop ι :=
  let write (src : Bytes) (optionally : Bool) :=
    writeThen accepts (passThrough accepts socket src optionally) socket src optionally
  if loop.corkedSocket = some socket then
    let loop := { loop with corkedSocket := none }
    if loop.corkBuffer ≠ [] then
      let ((_, failed), loop) := write loop.corkBuffer false loop
      let loop := { loop with corkBuffer := [] }
      if failed then ((0, true), loop) else write src optionally loop
    else write src optionally loop
  else ((0, false), loop)

/-- The rest of `write`. -/
def pass (socket : ι) (src : Bytes) (optionally : Bool) (loop : Loop ι) : Outcome × Loop ι :=
  if loop.corkedSocket = some socket then
    if src.length ≤ corkBufferSize - loop.corkBuffer.length then
      ((src.length, false), { loop with corkBuffer := loop.corkBuffer ++ src })
    else uncork accepts socket src optionally loop
  else passThrough accepts socket src optionally loop

def write (socket : ι) (src : Bytes) (optionally : Bool) (loop : Loop ι) : Outcome × Loop ι :=
  writeThen accepts (pass accepts socket src optionally) socket src optionally loop

/-- The frame of a message to a client. -/
def serverFrame (message : Bytes) (opCode : OpCode) : Bytes :=
  formatMessage true (fun _ => 0) message opCode message.length false

/-- `send` without its timer. The frame is formatted in the cork buffer where there is room
for it, and is written otherwise. A write that fails returns before the socket is uncorked. -/
def send (maxBackpressure : Nat) (socket : ι) (message : Bytes) (opCode : OpCode)
    (loop : Loop ι) : Bool × Loop ι :=
  if maxBackpressure ≠ 0 ∧ maxBackpressure < (loop.sockets socket).buffer.length then (true, loop)
  else
    let automaticallyCorked := loop.corkedSocket = none
    let loop := if automaticallyCorked then loop.cork socket else loop
    let frame := serverFrame message opCode
    let room := loop.corkedSocket = some socket ∧
      loop.corkBuffer.length + messageFrameSize message.length < corkBufferSize
    let (failed, loop) :=
      if room then (false, { loop with corkBuffer := loop.corkBuffer ++ frame })
      else
        let ((_, failed), loop) := write accepts socket frame false loop
        (failed, loop)
    if failed then (false, loop)
    else if automaticallyCorked then
      let ((_, failed), loop) := uncork accepts socket [] false loop
      (!failed, loop)
    else (true, loop)

end

/-- What the peer gets in the end, if the connection lasts. -/
def SocketData.stream (data : SocketData) : Bytes := data.written ++ data.buffer

/-- What an operation on a socket leaves alone. -/
structure Touches (socket : ι) (loop next : Loop ι) : Prop where
  others : ∀ other, other ≠ socket → next.sockets other = loop.sockets other
  closed : (next.sockets socket).closed = (loop.sockets socket).closed

/-- Data were added to the stream of a socket. -/
structure Grows (socket : ι) (added : Bytes) (loop next : Loop ι) : Prop
    extends Touches socket loop next where
  stream : (next.sockets socket).stream = (loop.sockets socket).stream ++ added

/-- Whether anything is corked. -/
def SameCork (loop next : Loop ι) : Prop :=
  next.corkedSocket = loop.corkedSocket ∧ next.corkBuffer = loop.corkBuffer

section

variable {accepts : Nat → Nat} {socket : ι} {src added more : Bytes} {loop next final : Loop ι}

omit [DecidableEq ι] in
theorem Grows.refl (socket : ι) (loop : Loop ι) : Grows socket [] loop loop :=
  ⟨⟨fun _ _ => rfl, rfl⟩, (List.append_nil _).symm⟩

omit [DecidableEq ι] in
theorem Grows.trans (h : Grows socket added loop next) (h' : Grows socket more next final) :
    Grows socket (added ++ more) loop final where
  others other hother := (h'.others other hother).trans (h.others other hother)
  closed := h'.closed.trans h.closed
  stream := by rw [h'.stream, h.stream, List.append_assoc]

omit [DecidableEq ι] in
theorem SameCork.trans (h : SameCork loop next) (h' : SameCork next final) : SameCork loop final :=
  ⟨h'.1.trans h.1, h'.2.trans h.2⟩

omit [DecidableEq ι] in
/-- Corking is no matter of the sockets. -/
theorem Grows.of_sockets {loop' next' : Loop ι} (h : Grows socket added loop next)
    (hloop : loop'.sockets = loop.sockets) (hnext : next'.sockets = next.sockets) :
    Grows socket added loop' next' where
  others other hother := by rw [hnext, hloop, h.others other hother]
  closed := by rw [hnext, hloop, h.closed]
  stream := by rw [hnext, hloop, h.stream]

/-- What is written of a socket's data and what the socket then has in its buffer. -/
theorem grows_write (accepts : Nat → Nat) (src more : Bytes) (hbuffer : (loop.sockets socket).buffer ++ added =
      src.take (socketWrite accepts socket src loop).1 ++ more) :
    Grows socket added loop
      ((socketWrite accepts socket src loop).2.setSocket socket ({ · with buffer := more })) := by
  refine ⟨⟨fun other hother => ?_, ?_⟩, ?_⟩
  · simp [socketWrite, Loop.setSocket, Function.update_of_ne hother]
  · simp [socketWrite, Loop.setSocket]
  · simp only [socketWrite, Loop.setSocket, Function.update_self, SocketData.stream] at hbuffer ⊢
    rw [List.append_assoc, List.append_assoc, hbuffer]

/-- A buffer that the kernel does not take in one piece. -/
def Stalls (accepts : Nat → Nat) (socket : ι) (loop : Loop ι) : Prop :=
  accepts loop.writes < (loop.sockets socket).buffer.length

theorem writeThen_closed {pass : Loop ι → Outcome × Loop ι}
    (hclosed : (loop.sockets socket).closed = true) :
    writeThen accepts pass socket src false loop = ((src.length, false), loop) := by
  simp [writeThen, hclosed]

/-- What waits stays in front. -/
theorem writeThen_stalls {pass : Loop ι → Outcome × Loop ι}
    (hclosed : (loop.sockets socket).closed = false) (hstalls : Stalls accepts socket loop) :
    ∃ next, writeThen accepts pass socket src false loop = ((src.length, true), next) ∧
      Grows socket src loop next ∧ SameCork loop next := by
  have hbuffer : (loop.sockets socket).buffer ≠ [] := by
    intro h
    rw [Stalls, h] at hstalls
    exact absurd hstalls (Nat.not_lt_zero _)
  have hless : (socketWrite accepts socket (loop.sockets socket).buffer loop).1 <
      (loop.sockets socket).buffer.length := (Nat.min_le_left _ _).trans_lt hstalls
  refine ⟨_, ?_, grows_write accepts (loop.sockets socket).buffer
    ((loop.sockets socket).buffer.drop
      (socketWrite accepts socket (loop.sockets socket).buffer loop).1 ++ src) ?_, rfl, rfl⟩
  · unfold writeThen
    simp only [hclosed, hbuffer, ne_eq, not_false_eq_true, if_true, if_false, Bool.false_eq_true]
    rw [if_pos hless]
  · rw [← List.append_assoc, List.take_append_drop]

theorem writeThen_drains {pass : Loop ι → Outcome × Loop ι}
    (hclosed : (loop.sockets socket).closed = false) (hdrains : ¬ Stalls accepts socket loop) :
    ∃ next, writeThen accepts pass socket src false loop =
        (if src ≠ [] then pass next else ((src.length, false), next)) ∧
      Grows socket [] loop next ∧ SameCork loop next ∧ (next.sockets socket).buffer = [] := by
  by_cases hbuffer : (loop.sockets socket).buffer = []
  · refine ⟨loop, ?_, .refl socket loop, ⟨rfl, rfl⟩, hbuffer⟩
    simp [writeThen, hclosed, hbuffer]
  · have hall : (socketWrite accepts socket (loop.sockets socket).buffer loop).1 =
        (loop.sockets socket).buffer.length := Nat.min_eq_right (Nat.not_lt.mp hdrains)
    refine ⟨_, ?_, grows_write accepts (loop.sockets socket).buffer [] ?_, ⟨rfl, rfl⟩, ?_⟩
    · unfold writeThen
      simp only [hclosed, hbuffer, ne_eq, not_false_eq_true, if_true, if_false, Bool.false_eq_true]
      rw [if_neg (by rw [hall]; exact lt_irrefl _)]
    · rw [hall, List.take_length]
    · simp [Loop.setSocket]

theorem passThrough_grows (src : Bytes) (hbuffer : (loop.sockets socket).buffer = []) :
    ∃ failed next, passThrough accepts socket src false loop = ((src.length, failed), next) ∧
      Grows socket src loop next ∧ SameCork loop next := by
  unfold passThrough
  by_cases hless : (socketWrite accepts socket src loop).1 < src.length
  · refine ⟨true, _, if_pos hless, ?_, ⟨rfl, rfl⟩⟩
    have hnone : ((socketWrite accepts socket src loop).2.sockets socket).buffer = [] := by
      simpa [socketWrite, Loop.setSocket] using hbuffer
    have hchange : (socketWrite accepts socket src loop).2.setSocket socket (fun data =>
          { data with
            buffer := data.buffer ++ src.drop (socketWrite accepts socket src loop).1 }) =
        (socketWrite accepts socket src loop).2.setSocket socket
          ({ · with buffer := src.drop (socketWrite accepts socket src loop).1 }) := by
      simp only [Loop.setSocket, hnone, List.nil_append]
    have hgrows : Grows socket src loop _ := grows_write accepts src
      (src.drop (socketWrite accepts socket src loop).1) (by
        rw [hbuffer, List.nil_append, List.take_append_drop])
    rw [← hchange] at hgrows
    exact hgrows
  · have hall : (socketWrite accepts socket src loop).1 = src.length :=
      Nat.le_antisymm (Nat.min_le_right _ _) (Nat.not_lt.mp hless)
    refine ⟨false, _, if_neg hless, ⟨⟨fun other hother => ?_, ?_⟩, ?_⟩, ⟨rfl, rfl⟩⟩
    · simp [Loop.setSocket, Function.update_of_ne hother]
    · simp [Loop.setSocket]
    · have hmin : min (accepts loop.writes) src.length = src.length := hall
      simp [Loop.setSocket, SocketData.stream, hbuffer, hmin]

/-- A write to a socket that is not corked, or no longer. -/
theorem writeNow_grows (src : Bytes) (loop : Loop ι) (hclosed : (loop.sockets socket).closed = false) :
    ∃ failed next, writeThen accepts (passThrough accepts socket src false) socket src false loop =
        ((src.length, failed), next) ∧ Grows socket src loop next ∧ SameCork loop next := by
  by_cases hstalls : Stalls accepts socket loop
  · obtain ⟨next, hnext, hgrows, hsame⟩ :=
      writeThen_stalls hclosed hstalls
    exact ⟨true, next, hnext, hgrows, hsame⟩
  · obtain ⟨drained, hdrained, hnone, hsame, hbuffer⟩ :=
      writeThen_drains hclosed hstalls
    rw [hdrained]
    by_cases hsrc : src = []
    · subst hsrc
      exact ⟨false, drained, rfl, hnone, hsame⟩
    · obtain ⟨failed, next, hnext, hgrows, hsame'⟩ :=
        passThrough_grows src hbuffer
      refine ⟨failed, next, by rw [if_pos hsrc, hnext], ?_, hsame.trans hsame'⟩
      simpa only [List.nil_append] using hnone.trans hgrows

theorem uncork_other (hcorked : loop.corkedSocket ≠ some socket) :
    uncork accepts socket src false loop = ((0, false), loop) := by
  rw [uncork, if_neg hcorked]

/-- What was corked is passed on. Data that come with it are lost if that fails. -/
theorem uncork_grows (accepts : Nat → Nat) (src : Bytes) (hcorked : loop.corkedSocket = some socket)
    (hclosed : (loop.sockets socket).closed = false) :
    ∃ outcome next rest, uncork accepts socket src false loop = (outcome, next) ∧
      Grows socket (loop.corkBuffer ++ rest) loop next ∧ (rest = src ∨ rest = []) ∧
      next.corkedSocket = none ∧ next.corkBuffer = [] := by
  unfold uncork
  rw [if_pos hcorked]
  by_cases hempty : loop.corkBuffer = []
  · obtain ⟨failed, next, hnext, hgrows, hsame⟩ :=
      writeNow_grows src { loop with corkedSocket := none } hclosed
    simp only
    rw [if_neg (not_not_intro hempty)]
    refine ⟨_, next, src, hnext, ?_, .inl rfl, hsame.1, hsame.2.trans hempty⟩
    rw [hempty]
    exact hgrows.of_sockets rfl rfl
  · obtain ⟨failed, middle, hmiddle, hflushed, hsame⟩ :=
      writeNow_grows loop.corkBuffer { loop with corkedSocket := none } hclosed
    simp only
    rw [if_pos hempty, hmiddle]
    cases failed with
    | true =>
      refine ⟨_, _, [], rfl, ?_, .inr rfl, hsame.1, rfl⟩
      rw [List.append_nil]
      exact hflushed.of_sockets rfl rfl
    | false =>
      obtain ⟨failed, next, hnext, hgrows, hsame'⟩ := writeNow_grows src
        { middle with corkBuffer := [] } (hflushed.closed.trans hclosed)
      have hboth := hflushed.trans (hgrows.of_sockets rfl rfl)
      exact ⟨_, next, src, hnext, hboth.of_sockets rfl rfl, .inl rfl, hsame'.1.trans hsame.1,
        hsame'.2⟩

theorem uncork_closed (accepts : Nat → Nat) (src : Bytes) (hcorked : loop.corkedSocket = some socket)
    (hclosed : (loop.sockets socket).closed = true) :
    ∃ outcome next, uncork accepts socket src false loop = (outcome, next) ∧
      next.sockets = loop.sockets ∧ next.corkedSocket = none ∧ next.corkBuffer = [] := by
  have hnow (src : Bytes) (loop' : Loop ι) (hsockets : loop'.sockets = loop.sockets) :
      writeThen accepts (passThrough accepts socket src false) socket src false loop' =
        ((src.length, false), loop') := writeThen_closed (by rw [hsockets, hclosed])
  unfold uncork
  simp only
  rw [if_pos hcorked]
  by_cases hempty : loop.corkBuffer = []
  · rw [if_neg (not_not_intro hempty), hnow src { loop with corkedSocket := none } rfl]
    exact ⟨_, _, rfl, rfl, rfl, hempty⟩
  · rw [if_pos hempty, hnow loop.corkBuffer { loop with corkedSocket := none } rfl]
    simp only [Bool.false_eq_true, if_false]
    rw [hnow src { loop with corkedSocket := none, corkBuffer := [] } rfl]
    exact ⟨_, _, rfl, rfl, rfl, rfl⟩

/-- A socket that is not corked, by whatever other. -/
theorem write_uncorked (accepts : Nat → Nat) (src : Bytes) (hcorked : loop.corkedSocket ≠ some socket)
    (hclosed : (loop.sockets socket).closed = false) :
    ∃ outcome next, write accepts socket src false loop = (outcome, next) ∧
      Grows socket src loop next ∧ SameCork loop next := by
  unfold write
  by_cases hstalls : Stalls accepts socket loop
  · obtain ⟨next, hnext, hgrows, hsame⟩ := writeThen_stalls hclosed hstalls
    exact ⟨_, next, hnext, hgrows, hsame⟩
  · obtain ⟨drained, hdrained, hnone, hsame, hbuffer⟩ := writeThen_drains hclosed hstalls
    rw [hdrained]
    by_cases hsrc : src = []
    · subst hsrc
      exact ⟨_, drained, rfl, hnone, hsame⟩
    · have hother : drained.corkedSocket ≠ some socket := hsame.1 ▸ hcorked
      obtain ⟨failed, next, hnext, hgrows, hsame'⟩ :=
        passThrough_grows src hbuffer
      refine ⟨(src.length, failed), next, ?_, ?_, hsame.trans hsame'⟩
      · rw [if_pos hsrc, pass, if_neg hother]
        exact hnext
      · simpa only [List.nil_append] using hnone.trans hgrows

/-- A socket that is corked: what waits in its buffer decides, and then the room that is
left in the cork buffer. -/
theorem write_corked (accepts : Nat → Nat) (hsrc : src ≠ []) (hclosed : (loop.sockets socket).closed = false)
    (hcorked : loop.corkedSocket = some socket) :
    (Stalls accepts socket loop ∧ ∃ outcome next,
      write accepts socket src false loop = ((outcome, true), next) ∧
        Grows socket src loop next ∧ SameCork loop next) ∨
    ¬ Stalls accepts socket loop ∧ ∃ drained,
      Grows socket [] loop drained ∧ SameCork loop drained ∧
      (drained.sockets socket).buffer = [] ∧
      write accepts socket src false loop =
        if src.length ≤ corkBufferSize - loop.corkBuffer.length then
          ((src.length, false), { drained with corkBuffer := loop.corkBuffer ++ src })
        else uncork accepts socket src false drained := by
  unfold write
  by_cases hstalls : Stalls accepts socket loop
  · obtain ⟨next, hnext, hgrows, hsame⟩ := writeThen_stalls hclosed hstalls
    exact .inl ⟨hstalls, _, next, hnext, hgrows, hsame⟩
  · obtain ⟨drained, hdrained, hnone, hsame, hbuffer⟩ := writeThen_drains hclosed hstalls
    refine .inr ⟨hstalls, drained, hnone, hsame, hbuffer, ?_⟩
    have hself : drained.corkedSocket = some socket := hsame.1.trans hcorked
    rw [hdrained, if_pos hsrc, pass, if_pos hself, hsame.2]

/-- Data for which there is room. -/
theorem write_fits (accepts : Nat → Nat) (hclosed : (loop.sockets socket).closed = false)
    (hbuffer : (loop.sockets socket).buffer = []) (hcorked : loop.corkedSocket = some socket)
    (hfits : src.length ≤ corkBufferSize - loop.corkBuffer.length) :
    write accepts socket src false loop =
      ((src.length, false), { loop with corkBuffer := loop.corkBuffer ++ src }) := by
  unfold write writeThen
  by_cases hsrc : src = []
  · simp [hclosed, hbuffer, hsrc]
  · simp [hclosed, hbuffer, hsrc, pass, hcorked, hfits]

section

variable {maxBackpressure : Nat} {message : Bytes} {opCode : OpCode}

/-- A message that is not sent at all. -/
def Skips (maxBackpressure : Nat) (socket : ι) (loop : Loop ι) : Prop :=
  maxBackpressure ≠ 0 ∧ maxBackpressure < (loop.sockets socket).buffer.length

instance : Decidable (Skips maxBackpressure socket loop) := inferInstanceAs (Decidable (_ ∧ _))

theorem send_skips (hskips : Skips maxBackpressure socket loop) :
    send accepts maxBackpressure socket message opCode loop = (true, loop) :=
  if_pos hskips

/-- Corked for the message alone. -/
theorem send_idle (hskips : ¬ Skips maxBackpressure socket loop)
    (hidle : loop.corkedSocket = none) (hempty : loop.corkBuffer = [])
    (hfits : messageFrameSize message.length < corkBufferSize) :
    send accepts maxBackpressure socket message opCode loop =
      (let ((_, failed), next) := uncork accepts socket [] false
        { loop.cork socket with corkBuffer := serverFrame message opCode }
      (!failed, next)) := by
  unfold send
  refine (if_neg hskips).trans ?_
  simp [hidle, hempty, Loop.cork, hfits]

theorem send_room (hskips : ¬ Skips maxBackpressure socket loop)
    (hcorked : loop.corkedSocket = some socket)
    (hroom : loop.corkBuffer.length + messageFrameSize message.length < corkBufferSize) :
    send accepts maxBackpressure socket message opCode loop =
      (true, { loop with corkBuffer := loop.corkBuffer ++ serverFrame message opCode }) := by
  unfold send
  refine (if_neg hskips).trans ?_
  simp [hcorked, hroom]

theorem send_write (hskips : ¬ Skips maxBackpressure socket loop)
    (hcorked : loop.corkedSocket ≠ none)
    (hroom : ¬ (loop.corkedSocket = some socket ∧
      loop.corkBuffer.length + messageFrameSize message.length < corkBufferSize)) :
    send accepts maxBackpressure socket message opCode loop =
      (let ((_, failed), next) := write accepts socket (serverFrame message opCode) false loop
      (!failed, next)) := by
  unfold send
  refine (if_neg hskips).trans ?_
  simp only [hcorked, if_false, hroom]
  cases (write accepts socket (serverFrame message opCode) false loop) with
  | mk outcome next =>
    obtain ⟨written, failed⟩ := outcome
    cases failed <;> simp

end

end

end MarketServer.UWS

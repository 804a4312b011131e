import MarketServer.AsyncSocket
import Mathlib.Data.List.Perm.Subperm

/-! What became of the frames that the sockets of a loop were given: each is in the stream
of its own socket, or corked for it, or lost as a whole. -/
namespace MarketServer.UWS

variable {ι : Type} [DecidableEq ι]

/-- The frames of a handler, for each socket. -/
abbrev Sent (ι : Type) := ι → List Bytes

def Sent.record (socket : ι) (frames : List Bytes) (sent : Sent ι) : Sent ι :=
  Function.update sent socket (sent socket ++ frames)

/-- The frames in the cork buffer. -/
def Loop.corkedFor (loop : Loop ι) (corked : List Bytes) (socket : ι) : List Bytes :=
  if loop.corkedSocket = some socket then corked else []

/-- `base` are the streams before the handler, `kept` the frames that came behind them. -/
structure Account (base : ι → Bytes) (kept : Sent ι) (corked : List Bytes) (loop : Loop ι) :
    Prop where
  stream : ∀ socket, (loop.sockets socket).stream = base socket ++ (kept socket).flatten
  cork : loop.corkBuffer = corked.flatten
  idle : loop.corkedSocket = none → corked = []

/-- No frame is torn, doubled or in the stream of another socket. -/
def Accounted (base : ι → Bytes) (sent : Sent ι) (loop : Loop ι) : Prop :=
  ∃ kept corked, Account base kept corked loop ∧
    ∀ socket, (kept socket ++ loop.corkedFor corked socket).Subperm (sent socket)

section

variable {base : ι → Bytes} {sent : Sent ι}
  {loop next : Loop ι} {socket : ι} {frame : Bytes} {frames : List Bytes}

theorem record_self : sent.record socket frames socket = sent socket ++ frames :=
  Function.update_self ..

theorem record_other {other : ι} (h : other ≠ socket) :
    sent.record socket frames other = sent other :=
  Function.update_of_ne h ..

/-- Frames may be lost. -/
theorem Accounted.lose (frames : List Bytes) (socket : ι) (h : Accounted base sent loop) :
    Accounted base (sent.record socket frames) loop := by
  obtain ⟨kept, corked, haccount, hsent⟩ := h
  refine ⟨kept, corked, haccount, fun other => (hsent other).trans ?_⟩
  by_cases hother : other = socket
  · subst hother
    rw [record_self]
    exact (List.sublist_append_left _ _).subperm
  · rw [record_other hother]

theorem stream_record (haccount : ∀ other, (loop.sockets other).stream =
      base other ++ (sent other).flatten) (hgrows : Grows socket frames.flatten loop next)
    (other : ι) :
    (next.sockets other).stream = base other ++ (sent.record socket frames other).flatten := by
  by_cases hother : other = socket
  · subst hother
    rw [hgrows.stream, haccount, record_self, List.flatten_append, List.append_assoc]
  · rw [hgrows.others other hother, haccount, record_other hother]

theorem subperm_record {kept corked : Sent ι} {more : List Bytes}
    (hsent : ∀ other, (kept other ++ corked other).Subperm (sent other)) (other : ι) :
    (kept.record socket more other ++ corked other).Subperm (sent.record socket more other) := by
  by_cases hother : other = socket
  · subst hother
    have hperm : (kept other ++ (more ++ corked other)).Perm (kept other ++ corked other ++ more) := by
      rw [List.append_assoc]
      exact List.perm_append_comm.append_left _
    rw [record_self, record_self, List.append_assoc]
    exact hperm.subperm.trans ((List.subperm_append_right more).mpr (hsent other))
  · rw [record_other hother, record_other hother]
    exact hsent other

theorem record_nil : sent.record socket [] = sent := by
  funext other
  by_cases hother : other = socket
  · subst hother
    rw [record_self, List.append_nil]
  · rw [record_other hother]

theorem record_append (socket : ι) (first second : List Bytes) (sent : Sent ι) :
    sent.record socket (first ++ second) = (sent.record socket first).record socket second := by
  funext other
  by_cases hother : other = socket
  · subst hother
    rw [record_self, record_self, record_self, List.append_assoc]
  · rw [record_other hother, record_other hother, record_other hother]

theorem corkedFor_same {corked : List Bytes} (h : SameCork loop next) :
    next.corkedFor corked = loop.corkedFor corked := by
  funext other
  rw [Loop.corkedFor, Loop.corkedFor, h.1]

/-- A frame that came into the stream of its socket, in front of what is corked. -/
theorem Accounted.grow (h : Accounted base sent loop) (hgrows : Grows socket frame loop next)
    (hsame : SameCork loop next) : Accounted base (sent.record socket [frame]) next := by
  obtain ⟨kept, corked, haccount, hsent⟩ := h
  have hcorked : next.corkedFor corked = loop.corkedFor corked := corkedFor_same hsame
  refine ⟨kept.record socket [frame], corked, ⟨?_, hsame.2.trans haccount.cork,
    fun hidle => haccount.idle (hsame.1 ▸ hidle)⟩, ?_⟩
  · exact stream_record haccount.stream (by simpa using hgrows)
  · rw [hcorked]
    exact subperm_record hsent

theorem Accounted.congr (h : Accounted base sent loop)
    (hstream : ∀ other, (next.sockets other).stream = (loop.sockets other).stream)
    (hsame : SameCork loop next) : Accounted base sent next := by
  obtain ⟨kept, corked, haccount, hsent⟩ := h
  have hcorked : next.corkedFor corked = loop.corkedFor corked := corkedFor_same hsame
  exact ⟨kept, corked, ⟨fun other => (hstream other).trans (haccount.stream other),
    hsame.2.trans haccount.cork, fun hidle => haccount.idle (hsame.1 ▸ hidle)⟩, hcorked ▸ hsent⟩

/-- Bytes that went from the buffer to the kernel change nothing. -/
theorem Accounted.drain (h : Accounted base sent loop) (hgrows : Grows socket [] loop next)
    (hsame : SameCork loop next) : Accounted base sent next := by
  apply h.congr _ hsame
  intro other
  by_cases hother : other = socket
  · rw [hother, hgrows.stream, List.append_nil]
  · rw [hgrows.others other hother]

theorem Accounted.cork (frame : Bytes) (h : Accounted base sent loop) (hcorked : loop.corkedSocket = some socket) :
    Accounted base (sent.record socket [frame])
      { loop with corkBuffer := loop.corkBuffer ++ frame } := by
  obtain ⟨kept, corked, haccount, hsent⟩ := h
  refine ⟨kept, corked ++ [frame], ⟨haccount.stream, ?_, fun hidle => ?_⟩, fun other => ?_⟩
  · simp [haccount.cork]
  · rw [hcorked] at hidle
    cases hidle
  · have hother := hsent other
    unfold Loop.corkedFor at hother ⊢
    simp only [hcorked] at hother ⊢
    by_cases hsocket : other = socket
    · subst hsocket
      rw [if_pos rfl] at hother ⊢
      rw [record_self, ← List.append_assoc]
      exact (List.subperm_append_right [frame]).mpr hother
    · have hne : some socket ≠ some other := fun h => hsocket (Option.some.inj h).symm
      rw [if_neg hne] at hother ⊢
      rw [record_other hsocket]
      exact hother

/-- What was corked came into the stream, with some of the frames that were behind it. -/
theorem Accounted.flush (some_ : List Bytes) (h : Accounted base sent loop)
    (hcorked : loop.corkedSocket = some socket) (hsome : some_.Sublist frames)
    (hgrows : Grows socket (loop.corkBuffer ++ some_.flatten) loop next)
    (hidle : next.corkedSocket = none) (hempty : next.corkBuffer = []) :
    Accounted base (sent.record socket frames) next := by
  obtain ⟨kept, corked, haccount, hsent⟩ := h
  rw [haccount.cork, ← List.flatten_append] at hgrows
  refine ⟨kept.record socket (corked ++ some_), [],
    ⟨stream_record haccount.stream hgrows, hempty, fun _ => rfl⟩, fun other => ?_⟩
  have hother := hsent other
  unfold Loop.corkedFor at hother ⊢
  simp only [hcorked, hidle, reduceCtorEq, if_false, List.append_nil] at hother ⊢
  by_cases hsocket : other = socket
  · subst hsocket
    rw [if_pos rfl] at hother
    rw [record_self, record_self, ← List.append_assoc]
    exact hother.append hsome.subperm
  · have hne : some socket ≠ some other := fun h => hsocket (Option.some.inj h).symm
    rw [if_neg hne, List.append_nil] at hother
    rw [record_other hsocket, record_other hsocket]
    exact hother

/-- What was corked is lost with its socket. -/
theorem Accounted.drop (h : Accounted base sent loop) (hsockets : next.sockets = loop.sockets)
    (hidle : next.corkedSocket = none) (hempty : next.corkBuffer = []) : Accounted base sent next := by
  obtain ⟨kept, corked, haccount, hsent⟩ := h
  refine ⟨kept, [], ⟨fun other => by rw [hsockets, haccount.stream], hempty, fun _ => rfl⟩,
    fun other => ?_⟩
  unfold Loop.corkedFor
  rw [hidle, if_neg (by simp), List.append_nil]
  exact (List.sublist_append_left _ _).subperm.trans (hsent other)

theorem Accounted.corkSocket (socket : ι) (h : Accounted base sent loop) (hidle : loop.corkedSocket = none) :
    Accounted base sent (loop.cork socket) := by
  obtain ⟨kept, corked, haccount, hsent⟩ := h
  obtain rfl := haccount.idle hidle
  refine ⟨kept, [], ⟨haccount.stream, haccount.cork, fun _ => rfl⟩, fun other => ?_⟩
  have hother := hsent other
  unfold Loop.corkedFor at hother ⊢
  rw [ite_self] at hother ⊢
  exact hother

/-- Before a handler. -/
theorem accounted_idle (hidle : loop.corkedSocket = none) (hempty : loop.corkBuffer = []) :
    Accounted (fun other => (loop.sockets other).stream) (fun _ => []) loop := by
  refine ⟨fun _ => [], [], ⟨fun other => ?_, hempty, fun _ => rfl⟩, fun other => ?_⟩
  · simp
  · rw [Loop.corkedFor, hidle, if_neg (by simp)]
    exact List.nil_subperm

theorem length_serverFrame (message : Bytes) (opCode : OpCode) :
    (serverFrame message opCode).length = messageFrameSize message.length :=
  length_formatMessage ..

theorem serverFrame_ne_nil (message : Bytes) (opCode : OpCode) : serverFrame message opCode ≠ [] := by
  intro h
  have hlength := length_serverFrame message opCode
  rw [h, messageFrameSize, List.length_nil] at hlength
  split at hlength
  · omega
  · split at hlength <;> omega

/-- Nothing is corked behind it, and data that come with it are lost at worst. -/
theorem uncork_accounted (accepts : Nat → Nat) (frames : List Bytes) (h : Accounted base sent loop)
    (hcorked : loop.corkedSocket = some socket) :
    Accounted base (sent.record socket frames)
        (uncork accepts socket frames.flatten false loop).2 ∧
      (uncork accepts socket frames.flatten false loop).2.corkedSocket = none := by
  cases hclosed : (loop.sockets socket).closed with
  | true =>
    obtain ⟨outcome, next, hnext, hsockets, hidle, hempty⟩ :=
      uncork_closed accepts frames.flatten hcorked hclosed
    rw [hnext]
    exact ⟨(h.drop hsockets hidle hempty).lose frames socket, hidle⟩
  | false =>
    obtain ⟨outcome, next, rest, hnext, hgrows, hrest, hidle, hempty⟩ :=
      uncork_grows accepts frames.flatten hcorked hclosed
    rw [hnext]
    refine ⟨?_, hidle⟩
    rcases hrest with rfl | rfl
    · exact h.flush frames hcorked (List.Sublist.refl frames) hgrows hidle hempty
    · exact h.flush [] hcorked (List.nil_sublist frames) hgrows hidle hempty

theorem write_accounted (accepts : Nat → Nat) (socket : ι) (hframe : frame ≠ []) (h : Accounted base sent loop) :
    Accounted base (sent.record socket [frame]) (write accepts socket frame false loop).2 ∧
      ((write accepts socket frame false loop).2.corkedSocket = none ∨
        (write accepts socket frame false loop).2.corkedSocket = loop.corkedSocket) := by
  cases hclosed : (loop.sockets socket).closed with
  | true =>
    rw [write, writeThen_closed hclosed]
    exact ⟨h.lose _ _, .inr rfl⟩
  | false =>
    by_cases hcorked : loop.corkedSocket = some socket
    · rcases write_corked accepts hframe hclosed hcorked with
        ⟨_, outcome, next, hnext, hgrows, hsame⟩ | ⟨_, drained, hnone, hsame, _, hwrite⟩
      · rw [hnext]
        exact ⟨h.grow hgrows hsame, .inr hsame.1⟩
      · have hdrained := h.drain hnone hsame
        have hself : drained.corkedSocket = some socket := hsame.1.trans hcorked
        rw [hwrite]
        split
        · rw [← hsame.2]
          exact ⟨hdrained.cork _ hself, .inr hsame.1⟩
        · have huncorked := uncork_accounted accepts [frame] hdrained hself
          rw [List.flatten_singleton] at huncorked
          exact ⟨huncorked.1, .inl huncorked.2⟩
    · obtain ⟨outcome, next, hnext, hgrows, hsame⟩ :=
        write_uncorked accepts frame hcorked hclosed
      rw [hnext]
      exact ⟨h.grow hgrows hsame, .inr hsame.1⟩

/-- A message whose frame fits into the cork buffer. Whatever is corked at that time, the
socket that is corked then is corked no longer or still. -/
theorem send_accounted (accepts : Nat → Nat) (maxBackpressure : Nat) (socket : ι) {message : Bytes}
    (opCode : OpCode) (hfits : messageFrameSize message.length < corkBufferSize) (h : Accounted base sent loop) :
    Accounted base (sent.record socket [serverFrame message opCode])
        (send accepts maxBackpressure socket message opCode loop).2 ∧
      ((send accepts maxBackpressure socket message opCode loop).2.corkedSocket = none ∨
        (send accepts maxBackpressure socket message opCode loop).2.corkedSocket =
          loop.corkedSocket) := by
  by_cases hskips : Skips maxBackpressure socket loop
  · rw [send_skips hskips]
    exact ⟨h.lose _ _, .inr rfl⟩
  · cases hcorked : loop.corkedSocket with
    | none =>
      obtain ⟨_, corked, haccount, _⟩ := id h
      have hempty : loop.corkBuffer = [] := by
        rw [haccount.cork, haccount.idle hcorked]
        rfl
      have hframe := (h.corkSocket socket hcorked).cork (serverFrame message opCode) rfl
      have hbuffer : (loop.cork socket).corkBuffer ++ serverFrame message opCode =
          serverFrame message opCode := by
        change loop.corkBuffer ++ _ = _
        rw [hempty, List.nil_append]
      rw [hbuffer] at hframe
      have huncorked := uncork_accounted accepts [] hframe rfl
      rw [record_nil] at huncorked
      rw [send_idle hskips hcorked hempty hfits]
      exact ⟨huncorked.1, .inl huncorked.2⟩
    | some other =>
      have hcorks : loop.corkedSocket ≠ none := by rw [hcorked]; exact Option.some_ne_none other
      by_cases hroom : loop.corkedSocket = some socket ∧
          loop.corkBuffer.length + messageFrameSize message.length < corkBufferSize
      · rw [send_room hskips hroom.1 hroom.2]
        exact ⟨h.cork _ hroom.1, .inr hcorked⟩
      · rw [send_write hskips hcorks hroom]
        have hwritten := write_accounted accepts socket (serverFrame_ne_nil message opCode) h
        exact ⟨hwritten.1, hwritten.2.imp_right (·.trans hcorked)⟩

end

end MarketServer.UWS

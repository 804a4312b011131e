import MarketServer.Exact
import MarketServer.Library.Session

/-! What a single connection receives. Its session is the piece of the log from
its opening to its closing; the depth messages it gets are those of the updates
published within it. -/
namespace MarketServer
open Library

variable {F : Type} [Component F]

def Observation.opens (client : Client) : Observation F → Bool
  | .opened other => other == client
  | _ => false

def Observation.closes (client : Client) : Observation F → Bool
  | .closed other => other == client
  | _ => false

namespace Log

def phase (client : Client) (log : Log F) : Session.Phase :=
  Session.phase (Observation.opens client) (Observation.closes client) log

def portion (client : Client) (part : Session.Phase) (log : Log F) : Log F :=
  Session.portion (Observation.opens client) (Observation.closes client) part log

/-- The depth messages a connection received, oldest first. -/
def depthMessages (client : Client) (log : Log F) : List (Message F) :=
  (messages client log).filter fun message => message.depth?.isSome

@[simp] theorem depthMessages_append (client : Client) (first second : Log F) :
    depthMessages client (first ++ second) =
      depthMessages client first ++ depthMessages client second := by
  simp [depthMessages]

theorem depthMessages_broadcastLog (client : Client) (package : Package F) (message : Message F)
    (clients : OrderedSet Client) :
    depthMessages client (.handled package :: broadcastLog message clients) =
      if client ∈ clients ∧ message.depth?.isSome then [message] else [] := by
  by_cases hmem : client ∈ clients
  · by_cases hdepth : message.depth?.isSome <;> simp [depthMessages, hmem, hdepth]
  · simp [depthMessages, hmem]

/-- A piece of the log that opens and closes nothing. -/
def Unmarked (client : Client) (log : Log F) : Prop :=
  (∀ observation ∈ log, observation.opens client = false) ∧
    ∀ observation ∈ log, observation.closes client = false

theorem Unmarked.phase_append {client : Client} {first second : Log F}
    (h : Unmarked client second) : phase client (first ++ second) = phase client first := by
  unfold phase
  rw [Session.phase_append, Session.phaseFrom_unmarked h.1 h.2]

theorem Unmarked.portion_append {client : Client} {first second : Log F}
    (h : Unmarked client second) (part : Session.Phase) :
    portion client part (first ++ second) =
      portion client part first ++ if phase client first = part then second else [] := by
  unfold portion
  rw [Session.portion_append, Session.portionFrom_unmarked h.1 h.2]
  rfl

theorem unmarked_broadcastLog (client : Client) (package : Package F) (message : Message F)
    (clients : OrderedSet Client) :
    Unmarked client (.handled package :: broadcastLog message clients) := by
  constructor <;> simp [broadcastLog, Observation.opens, Observation.closes]

end Log

/-- The connection set and the log agree on who is connected. -/
structure World.Tracked (world : World F) : Prop where
  opened : ∀ client ∈ world.wssConSet, client < world.nextClient
  phase : ∀ client, Log.phase client world.log =
    if client ∈ world.wssConSet then .inside
    else if client < world.nextClient then .beyond else .before

theorem tracked_initial : (World.initial F).Tracked := ⟨fun _ h => absurd h List.not_mem_nil, fun _ => rfl⟩

theorem World.Tracked.unmarked {world next : World F} (h : world.Tracked) (suffix : Log F)
    (hlog : next.log = world.log ++ suffix) (hset : next.wssConSet = world.wssConSet)
    (hclient : next.nextClient = world.nextClient)
    (hsuffix : ∀ client, Log.Unmarked client suffix) : next.Tracked := by
  refine ⟨?_, fun client => ?_⟩
  · rw [hset, hclient]
    exact h.opened
  · rw [hlog, hset, hclient, (hsuffix client).phase_append]
    exact h.phase client

theorem World.Tracked.opening {world next : World F} (h : world.Tracked)
    (observation : Observation F)
    (hlog : next.log = world.log ++ [.opened world.nextClient, observation])
    (hset : next.wssConSet = world.wssConSet.emplace world.nextClient)
    (hclient : next.nextClient = world.nextClient + 1)
    (hunmarked : ∀ client, Log.Unmarked client [observation]) : next.Tracked := by
  refine ⟨fun client hmem => ?_, fun client => ?_⟩
  · rw [hset, OrderedSet.mem_emplace] at hmem
    rw [hclient]
    rcases hmem with rfl | hmem
    · exact Nat.lt_succ_self _
    · exact Nat.lt_succ_of_lt (h.opened client hmem)
  · have hphase := h.phase client
    rw [hlog, hset, hclient, List.append_cons, (hunmarked client).phase_append]
    unfold Log.phase at hphase ⊢
    rw [Session.phase_append, hphase]
    by_cases heq : client = world.nextClient
    · subst heq
      have hnew : world.nextClient ∉ world.wssConSet :=
        fun hmem => Nat.lt_irrefl _ (h.opened _ hmem)
      simp [hnew, Session.phaseFrom, Session.Phase.next, Observation.opens]
    · have hlt : client < world.nextClient + 1 ↔ client < world.nextClient :=
        Nat.lt_succ_iff_lt_or_eq.trans (or_iff_left heq)
      have hunopened : ∀ observation ∈ [Observation.opened (F := F) world.nextClient],
          observation.opens client = false := by
        simp [Observation.opens, Ne.symm heq]
      have hunclosed : ∀ observation ∈ [Observation.opened (F := F) world.nextClient],
          observation.closes client = false := by
        simp [Observation.closes]
      rw [Session.phaseFrom_unmarked hunopened hunclosed]
      simp [heq, hlt]

theorem World.Tracked.closing {world next : World F} (h : world.Tracked) {closed : Client}
    (hclosed : closed < world.nextClient) (hlog : next.log = world.log ++ [.closed closed])
    (hset : next.wssConSet = world.wssConSet.erase closed)
    (hclient : next.nextClient = world.nextClient) : next.Tracked := by
  refine ⟨fun client hmem => ?_, fun client => ?_⟩
  · rw [hset, OrderedSet.mem_erase] at hmem
    rw [hclient]
    exact h.opened client hmem.1
  · have hphase := h.phase client
    rw [hlog, hset, hclient]
    unfold Log.phase at hphase ⊢
    rw [Session.phase_append, hphase]
    by_cases heq : client = closed
    · subst heq
      by_cases hmem : client ∈ world.wssConSet
      · simp [hmem, hclosed, Session.phaseFrom, Session.Phase.next, Observation.closes]
      · simp [hmem, hclosed, Session.phaseFrom, Session.Phase.next]
    · have hunopened : ∀ observation ∈ [Observation.closed (F := F) closed],
          observation.opens client = false := by
        simp [Observation.opens]
      have hunclosed : ∀ observation ∈ [Observation.closed (F := F) closed],
          observation.closes client = false := by
        simp [Observation.closes, Ne.symm heq]
      rw [Session.phaseFrom_unmarked hunopened hunclosed]
      simp [heq]

variable [Double F]

theorem Outcome.tracked {world next : World F} {event : Event F}
    (h : Outcome world event next) (hworld : world.Tracked) : next.Tracked := by
  cases h with
  | onOpen htext =>
    exact hworld.opening _ rfl rfl rfl fun client => by
      simp [Log.Unmarked, Observation.opens, Observation.closes]
  | failOpen hinvalid =>
    exact hworld.opening _ rfl rfl rfl fun client => by
      simp [Log.Unmarked, Observation.opens, Observation.closes]
  | onClose hclient => exact hworld.closing hclient rfl rfl rfl
  | publish hqueue =>
    exact hworld.unmarked _ rfl rfl rfl fun client => Log.unmarked_broadcastLog client _ _ _
  | merge hqueue =>
    exact hworld.unmarked _ rfl rfl rfl fun client => Log.unmarked_broadcastLog client _ _ _
  | _ =>
    exact hworld.unmarked _ rfl rfl rfl fun client => by
      simp [Log.Unmarked, Observation.opens, Observation.closes]

omit [Double F] in
theorem depthMessages_sublist {client : Client} {first second : Log F}
    (h : first.Sublist second) (hnone : Log.depthMessages client second = []) :
    Log.depthMessages client first = [] :=
  List.sublist_nil.mp (hnone ▸ (h.filterMap _).filter _)

omit [Double F] in
theorem published_sublist {first second : Log F} (h : first.Sublist second)
    (hnone : Log.published second = []) : Log.published first = [] :=
  List.sublist_nil.mp (hnone ▸ (h.filterMap _).filterMap _)

/-- No depth message reaches a connection outside its session, and within it
there is one for each published update, in the same order. -/
structure Delivered (client : Client) (log : Log F) : Prop where
  before : Log.depthMessages client (Log.portion client .before log) = []
  beyond : Log.depthMessages client (Log.portion client .beyond log) = []
  inside : (Log.depthMessages client (Log.portion client .inside log)).map
      (fun message => Except.ok message.text) =
    (Log.published (Log.portion client .inside log)).map EnhancedDepthData.encode

theorem Delivered.quiet {client : Client} {log suffix : Log F} (h : Delivered client log)
    (hmessages : Log.depthMessages client suffix = []) (hpublished : Log.published suffix = []) :
    Delivered client (log ++ suffix) := by
  have hpiece : ∀ part, ∃ piece, piece.Sublist suffix ∧
      Log.portion client part (log ++ suffix) = Log.portion client part log ++ piece :=
    fun part => ⟨_, Session.portionFrom_sublist _ _ part _ suffix, Session.portion_append _ _ part log suffix⟩
  obtain ⟨before, hbefore, hbeforeEq⟩ := hpiece .before
  obtain ⟨inside, hinside, hinsideEq⟩ := hpiece .inside
  obtain ⟨beyond, hbeyond, hbeyondEq⟩ := hpiece .beyond
  refine ⟨?_, ?_, ?_⟩
  · rw [hbeforeEq, Log.depthMessages_append, h.before, depthMessages_sublist hbefore hmessages]
    rfl
  · rw [hbeyondEq, Log.depthMessages_append, h.beyond, depthMessages_sublist hbeyond hmessages]
    rfl
  · rw [hinsideEq, Log.depthMessages_append, Log.published_append,
      depthMessages_sublist hinside hmessages, published_sublist hinside hpublished,
      List.append_nil, List.append_nil]
    exact h.inside

theorem Delivered.broadcast {client : Client} {log : Log F} {clients : OrderedSet Client}
    {package : Package F} {depth : SDepthData F} {text : Text F} (h : Delivered client log)
    (hphase : Log.phase client log = .inside ↔ client ∈ clients)
    (hdepth : package.depth? = some depth) (htext : EnhancedDepthData.encode depth = .ok text) :
    Delivered client (log ++ .handled package :: broadcastLog ⟨some package, text⟩ clients) := by
  have hmark := Log.unmarked_broadcastLog client package ⟨some package, text⟩ clients
  have hmessage : Message.depth? ⟨some package, text⟩ = some depth := hdepth
  have hmessages : Log.depthMessages client
      (.handled package :: broadcastLog ⟨some package, text⟩ clients) =
        if client ∈ clients then [⟨some package, text⟩] else [] := by
    simp [Log.depthMessages_broadcastLog, hmessage]
  have hpart : ∀ part, Log.depthMessages client (Log.portion client part
      (log ++ .handled package :: broadcastLog ⟨some package, text⟩ clients)) =
        Log.depthMessages client (Log.portion client part log) ++
          if Log.phase client log = part then
            if client ∈ clients then [⟨some package, text⟩] else [] else [] := by
    intro part
    rw [hmark.portion_append, Log.depthMessages_append]
    split
    · rw [hmessages]
    · rfl
  by_cases hmem : client ∈ clients
  · have hinside := hphase.mpr hmem
    refine ⟨?_, ?_, ?_⟩
    · simpa [hpart, hinside] using h.before
    · simpa [hpart, hinside] using h.beyond
    · rw [hpart, hmark.portion_append, List.map_append, h.inside]
      simp [hinside, hmem, hmessage, htext]
  · have houtside := mt hphase.mp hmem
    refine ⟨?_, ?_, ?_⟩
    · simpa [hpart, hmem] using h.before
    · simpa [hpart, hmem] using h.beyond
    · simpa [hpart, hmark.portion_append, houtside] using h.inside

theorem Outcome.delivered {world next : World F} {event : Event F} {client : Client}
    (h : Outcome world event next) (htracked : world.Tracked)
    (hworld : Delivered client world.log) : Delivered client next.log := by
  cases h with
  | publish hqueue hdepth hpackage htext =>
    refine hworld.broadcast ?_ hdepth htext
    rw [htracked.phase client]
    by_cases hmem : client ∈ world.wssConSet
    · simp [hmem]
    · by_cases hlt : client < world.nextClient <;> simp [hmem, hlt]
  | merge hqueue hdata =>
    have hnone := Package.depth?_eq_none hdata
    refine hworld.quiet ?_ ?_
    · simp [Log.depthMessages_broadcastLog, Message.depth?, hnone]
    · simp [Message.depth?, hnone]
  | onOpen htext =>
    refine hworld.quiet ?_ (by simp)
    by_cases heq : world.nextClient = client <;> simp [Log.depthMessages, heq, Message.depth?]
  | _ => exact hworld.quiet (by simp [Log.depthMessages]) (by simp)

theorem run_delivered {events : List (Event F)} {world : World F} (client : Client)
    (hrun : run (World.initial F) events = some world) : Delivered client world.log := by
  have hboth : world.Tracked ∧ Delivered client world.log := by
    refine run_invariant (P := fun world => world.Tracked ∧ Delivered client world.log)
      (fun _ => True) ⟨tracked_initial, rfl, rfl, rfl⟩ (fun _ _ hworld houtcome => ?_)
      (fun _ _ => trivial) hrun
    exact ⟨houtcome.tracked hworld.1, houtcome.delivered hworld.1 hworld.2⟩
  exact hboth.2

/-- Only updates within the level arrays are published. -/
theorem run_published_inBounds {events : List (Event F)} {world : World F}
    (hrun : run (World.initial F) events = some world) :
    ∀ depth ∈ Log.published world.log, depth.InBounds := by
  refine run_invariant (P := fun world => ∀ depth ∈ Log.published world.log, depth.InBounds)
    (fun _ => True) (fun _ h => absurd h List.not_mem_nil) (fun _ _ hworld houtcome => ?_)
    (fun _ _ => trivial) hrun
  cases houtcome with
  | publish hqueue hdepth hpackage htext =>
    obtain ⟨packageId, data, rfl, hdata⟩ := hpackage.eq_enhanced hdepth
    simpa [Message.depth?, or_imp, forall_and, hdata.stored] using ⟨hworld, hdata.inBounds⟩
  | merge hqueue hdata =>
    simpa [Message.depth?, Package.depth?_eq_none hdata] using hworld
  | _ => simpa using hworld

omit [Double F] in
theorem published_portions (client : Client) (log : Log F) :
    Log.published log = Log.published (Log.portion client .before log) ++
      Log.published (Log.portion client .inside log) ++
      Log.published (Log.portion client .beyond log) := by
  rw [← Log.published_append, ← Log.published_append]
  exact congrArg Log.published (Session.portions_append log).symm

theorem run_delivery {events : List (Event F)} {world : World F}
    (hvalid : ∀ event ∈ events, event.ValidTexts)
    (hrun : run (World.initial F) events = some world) :
    Log.published world.log ++ world.frontDepths ++ world.processDepths ++ world.receiveDepths =
        hubCalls events ∧
      ∀ client,
        Log.published world.log = Log.published (Log.portion client .before world.log) ++
          Log.published (Log.portion client .inside world.log) ++
          Log.published (Log.portion client .beyond world.log) ∧
        Log.depthMessages client (Log.portion client .before world.log) = [] ∧
        Log.depthMessages client (Log.portion client .beyond world.log) = [] ∧
        ∀ memory : EnhancedDepthData F,
          (Log.depthMessages client (Log.portion client .inside world.log)).map
              (fun message => Except.ok message.text) =
            (Log.published (Log.portion client .inside world.log)).map fun depth =>
              memory.init depth >>= EnhancedDepthData.getJsonStr := by
  have hbroadcasts := run_broadcasts hvalid hrun
  refine ⟨?_, fun client => ⟨published_portions client world.log, ?_⟩⟩
  · have hpublished : Log.published world.log = Log.handledDepths world.log :=
      filterMap_causes Package.depth? hbroadcasts
    rw [hpublished, ← run_calls hrun]
    exact run_conserved hrun
  · obtain ⟨hbefore, hbeyond, hinside⟩ := run_delivered client hrun
    refine ⟨hbefore, hbeyond, fun memory => ?_⟩
    rw [hinside]
    apply List.map_congr_left
    intro depth hdepth
    have hpublished : depth ∈ Log.published world.log := by
      rw [published_portions client]
      exact List.mem_append_left _ (List.mem_append_right _ hdepth)
    exact (memory.init_getJsonStr (run_published_inBounds hrun depth hpublished)).symm

/-- As long as every string is read in place, depth updates travel from the hub to every
connection in order, none lost and none twice. -/
theorem depth_delivery {turns : List (Turn F)} {world : World F} (huntouched : Untouched turns)
    (hvalid : ∀ turn ∈ turns, turn.event.ValidTexts)
    (hrun : runTurns (World.initial F) turns = some world) :
    Log.published world.log ++ world.frontDepths ++ world.processDepths ++ world.receiveDepths =
        hubCalls (turns.map Turn.event) ∧
      ∀ client,
        Log.published world.log = Log.published (Log.portion client .before world.log) ++
          Log.published (Log.portion client .inside world.log) ++
          Log.published (Log.portion client .beyond world.log) ∧
        Log.depthMessages client (Log.portion client .before world.log) = [] ∧
        Log.depthMessages client (Log.portion client .beyond world.log) = [] ∧
        ∀ memory : EnhancedDepthData F,
          (Log.depthMessages client (Log.portion client .inside world.log)).map
              (fun message => Except.ok message.text) =
            (Log.published (Log.portion client .inside world.log)).map fun depth =>
              memory.init depth >>= EnhancedDepthData.getJsonStr := by
  rw [runTurns_untouched huntouched] at hrun
  exact run_delivery (List.forall_mem_map.mpr hvalid) hrun

theorem depth_delivery_sample :
    ∃ world, runTurns (World.initial ℚ) (still sampleRun) = some world ∧
      Log.published world.log ++ world.frontDepths ++ world.processDepths ++
        world.receiveDepths = hubCalls ((still sampleRun).map Turn.event) ∧
      (Log.depthMessages 0 (Log.portion 0 .inside world.log)).map
          (fun message => Except.ok message.text) =
        (Log.published (Log.portion 0 .inside world.log)).map fun depth =>
          zeroMemory.init depth >>= EnhancedDepthData.getJsonStr := by
  obtain ⟨world, hreaches⟩ := sampleRun_reaches
  have hrun := (runTurns_still _ sampleRun).trans hreaches
  obtain ⟨hconserved, hdelivered⟩ :=
    depth_delivery (still_untouched _) (still_valid sampleRun_valid) hrun
  exact ⟨world, hrun, hconserved, (hdelivered 0).2.2.2 zeroMemory⟩

/-- The memory of the symbol is reused before the last station encodes the update. -/
def misreadRun : List (Turn ℚ) :=
  still (sampleRun.take 5) ++ [⟨{ Reads.untouched with symbol := overwritten "ETH" }, .front⟩]

/-- An update of BTC is sent as one of ETH. -/
theorem depth_misread :
    (∀ depth ∈ hubCalls (misreadRun.map Turn.event), depth.InBounds ∧ depth.ValidTexts) ∧
      ∃ world, runTurns (World.initial ℚ) misreadRun = some world ∧
        (Log.depthMessages 0 (Log.portion 0 .inside world.log)).map
            (fun message => symbolWritten message.text) = [some (.ofLiteral "ETH")] ∧
        (Log.published (Log.portion 0 .inside world.log)).map SDepthData.symbol =
          [.ofLiteral "BTC"] ∧
        (Log.depthMessages 0 (Log.portion 0 .inside world.log)).map
            (fun message => Except.ok message.text) ≠
          (Log.published (Log.portion 0 .inside world.log)).map fun depth =>
            zeroMemory.init depth >>= EnhancedDepthData.getJsonStr := by
  obtain ⟨world, hrun, hsent, hsymbols, hencoded⟩ :
      ∃ world, runTurns (World.initial ℚ) misreadRun = some world ∧
        (Log.depthMessages 0 (Log.portion 0 .inside world.log)).map
            (fun message => symbolWritten message.text) = [some (.ofLiteral "ETH")] ∧
        (Log.published (Log.portion 0 .inside world.log)).map SDepthData.symbol =
          [.ofLiteral "BTC"] ∧
        (Log.published (Log.portion 0 .inside world.log)).map (fun depth =>
            (zeroMemory.init depth >>= EnhancedDepthData.getJsonStr).toOption.bind symbolWritten) =
          [some (.ofLiteral "BTC")] := Transition.run_satisfies (by decide +kernel)
  refine ⟨by decide +kernel, world, hrun, hsent, hsymbols, fun heq => ?_⟩
  have hread := congrArg (List.map fun text => text.toOption.bind symbolWritten) heq
  rw [List.map_map, List.map_map] at hread
  exact absurd (hsent.symm.trans (hread.trans hencoded)) (by decide +kernel)

end MarketServer

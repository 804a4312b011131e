import MarketServer.Announcements
import MarketServer.Delivery

/-! The symbols a connected client knows of: those of its snapshot and of every
symbol message it was sent. An announcement reaches it as an empty list, so its
view is complete exactly until the next announcement. -/
namespace MarketServer
open Library

variable {F : Type} [Component F]

/-- A snapshot or a message caused by a `SymbolData` package. -/
def Message.listsSymbols (message : Message F) : Bool :=
  match message.cause with
  | none => true
  | some package => package.symbolData?.isSome

namespace Log

/-- The log since a connection was opened. -/
def session (client : Client) (log : Log F) : Log F := portion client .inside log

/-- All symbols of all lists a connection was sent. -/
def symbolsReceived (client : Client) (log : Log F) : List Bytes :=
  ((messages client log).filter Message.listsSymbols).flatMap fun message =>
    symbolsRead message.text

/-- The `SymbolData` packages `FrontServer` has handled. -/
def symbolPackages (log : Log F) : List (Package F) :=
  (handled log).filter fun package => package.symbolData?.isSome

/-- The last `SymbolData` package handled, if there is one, is an announcement. -/
def EndsInAnnouncement (log : Log F) : Prop :=
  (symbolPackages log).getLast?.map Package.creator = some .processNewSymbol

@[simp] theorem symbolsReceived_append (client : Client) (first second : Log F) :
    symbolsReceived client (first ++ second) =
      symbolsReceived client first ++ symbolsReceived client second := by
  simp [symbolsReceived]

@[simp] theorem symbolPackages_append (first second : Log F) :
    symbolPackages (first ++ second) = symbolPackages first ++ symbolPackages second := by
  simp [symbolPackages]

theorem symbolsReceived_front (client : Client) (package : Package F) (message : Message F)
    (clients : OrderedSet Client) :
    symbolsReceived client (.handled package :: broadcastLog message clients) =
      if client ∈ clients ∧ message.listsSymbols then symbolsRead message.text else [] := by
  by_cases hmem : client ∈ clients
  · by_cases hlists : message.listsSymbols <;>
      simp [symbolsReceived, hmem, hlists]
  · simp [symbolsReceived, hmem]

theorem symbolPackages_front (package : Package F) (message : Message F)
    (clients : OrderedSet Client) :
    symbolPackages (.handled package :: broadcastLog message clients) =
      if package.symbolData?.isSome then [package] else [] := by
  simp [symbolPackages, List.filter_cons]

end Log

/-- What a client that is connected knows. -/
structure Views (client : Client) (world : World F) : Prop where
  sound : ∀ symbol ∈ Log.symbolsReceived client (Log.session client world.log),
    symbol ∈ world.symbols
  complete_iff : (∀ symbol ∈ world.symbols,
      symbol ∈ Log.symbolsReceived client (Log.session client world.log)) ↔
    ¬ Log.EndsInAnnouncement (Log.session client world.log)

theorem session_append {client : Client} {world : World F} (htracked : world.Tracked)
    (hmem : client ∈ world.wssConSet) {suffix : Log F} (hsuffix : Log.Unmarked client suffix) :
    Log.session client (world.log ++ suffix) = Log.session client world.log ++ suffix := by
  unfold Log.session
  rw [hsuffix.portion_append, htracked.phase client, if_pos hmem, if_pos rfl]

theorem Views.quiet {client : Client} {world next : World F} (h : Views client world)
    (htracked : world.Tracked) (hmem : client ∈ world.wssConSet) {suffix : Log F}
    (hlog : next.log = world.log ++ suffix) (hsymbols : next.symbols = world.symbols)
    (hunmarked : Log.Unmarked client suffix) (hreceived : Log.symbolsReceived client suffix = [])
    (hpackages : Log.symbolPackages suffix = []) : Views client next := by
  have hsession := session_append htracked hmem hunmarked
  obtain ⟨hsound, hcomplete⟩ := h
  constructor
  · simpa [hlog, hsession, hsymbols, hreceived] using hsound
  · simpa [hlog, hsession, hsymbols, hreceived, Log.EndsInAnnouncement, hpackages] using hcomplete

/-- A new symbol that the client is not told leaves its view incomplete. -/
theorem Views.announced {client : Client} {world next : World F} (h : Views client world)
    (htracked : world.Tracked) (hmem : client ∈ world.wssConSet) {suffix : Log F}
    (packageId : Int32) {symbol : Bytes} (hlog : next.log = world.log ++ suffix)
    (hnew : symbol ∉ world.symbols)
    (hsymbols : ∀ other, other ∈ next.symbols ↔ other ∈ world.symbols ∨ other = symbol)
    (hunmarked : Log.Unmarked client suffix) (hreceived : Log.symbolsReceived client suffix = [])
    (hpackages : Log.symbolPackages suffix = [announcement F packageId symbol]) :
    Views client next := by
  have hsession := session_append htracked hmem hunmarked
  obtain ⟨hsound, _⟩ := h
  have hreads : Log.symbolsReceived client (Log.session client next.log) =
      Log.symbolsReceived client (Log.session client world.log) := by
    simp [hlog, hsession, hreceived]
  have hends : Log.EndsInAnnouncement (Log.session client next.log) := by
    simp [hlog, hsession, Log.EndsInAnnouncement, hpackages, announcement]
  constructor
  · intro other hother
    rw [hreads] at hother
    exact (hsymbols other).mpr (Or.inl (hsound other hother))
  · refine iff_of_false (fun hall => ?_) (not_not_intro hends)
    have hread := hall symbol ((hsymbols symbol).mpr (Or.inr rfl))
    rw [hreads] at hread
    exact hnew (hsound symbol hread)

/-- A full list makes the view complete. -/
theorem Views.listed {client : Client} {world next : World F} (h : Views client world)
    (htracked : world.Tracked) (hmem : client ∈ world.wssConSet) {suffix : Log F}
    (hlog : next.log = world.log ++ suffix) (hsymbols : next.symbols = world.symbols)
    (hunmarked : Log.Unmarked client suffix)
    (hreceived : Log.symbolsReceived client suffix = world.symbols.toList)
    (hpackages : Log.symbolPackages suffix = [answer F world.symbols]) : Views client next := by
  have hsession := session_append htracked hmem hunmarked
  obtain ⟨hsound, _⟩ := h
  have hreads : ∀ symbol, symbol ∈ Log.symbolsReceived client (Log.session client next.log) ↔
      symbol ∈ Log.symbolsReceived client (Log.session client world.log) ∨
        symbol ∈ world.symbols := by
    simp [hlog, hsession, hreceived, OrderedSet.mem_def]
  have hends : ¬ Log.EndsInAnnouncement (Log.session client next.log) := by
    simp [hlog, hsession, Log.EndsInAnnouncement, hpackages, answer]
  constructor
  · intro symbol hsymbol
    rw [hsymbols]
    exact ((hreads symbol).mp hsymbol).elim (hsound symbol) id
  · refine iff_of_true (fun symbol hsymbol => ?_) hends
    exact (hreads symbol).mpr (Or.inr (hsymbols ▸ hsymbol))

/-- The snapshot makes the view of a new client complete. -/
theorem views_opened {world next : World F} (htracked : world.Tracked) {text : Text F}
    (htext : (listDocument F "symbol" world.symbols).dump = .ok text)
    (hlog : next.log =
      world.log ++ [.opened world.nextClient, .sent world.nextClient ⟨none, text⟩])
    (hsymbols : next.symbols = world.symbols) : Views world.nextClient next := by
  have hbefore : Log.phase world.nextClient world.log = .before := by
    have hnew : world.nextClient ∉ world.wssConSet :=
      fun hmem => Nat.lt_irrefl _ (htracked.opened _ hmem)
    simp [htracked.phase, hnew]
  have hsession : Log.session world.nextClient next.log =
      [.opened world.nextClient, .sent world.nextClient ⟨none, text⟩] := by
    unfold Log.session Log.portion
    rw [hlog, Session.portion_append, Session.portion_inside_of_before hbefore]
    unfold Log.phase at hbefore
    rw [hbefore]
    simp [Session.portionFrom, Session.Phase.next, Observation.opens, Observation.closes]
  have hreceived : Log.symbolsReceived world.nextClient (Log.session world.nextClient next.log) =
      world.symbols.toList := by
    rw [hsession, ← symbolsRead_of_dump (Or.inr rfl) htext]
    simp [Log.symbolsReceived, List.filter_cons, Message.listsSymbols]
  have hends : ¬ Log.EndsInAnnouncement (Log.session world.nextClient next.log) := by
    simp [hsession, Log.EndsInAnnouncement, Log.symbolPackages]
  constructor
  · simp [hreceived, hsymbols, OrderedSet.mem_def]
  · exact iff_of_true (by simp [hreceived, hsymbols, OrderedSet.mem_def]) hends

theorem unmarked_of_open {client opened : Client} (hne : client ≠ opened) (message : Message F) :
    Log.Unmarked client [.opened opened, .sent opened message] := by
  simp [Log.Unmarked, Observation.opens, Observation.closes, Ne.symm hne]

variable [Double F]

theorem Outcome.views {world next : World F} {event : Event F} {client : Client}
    (h : Outcome world event next) (hvalid : world.ValidTexts) (htracked : world.Tracked)
    (hconsistent : Replica.Consistent world.replica)
    (hworld : client ∈ world.wssConSet → Views client world)
    (hmem : client ∈ next.wssConSet) : Views client next := by
  have hmark := fun package message => Log.unmarked_broadcastLog (F := F) client package message
  cases h with
  | publish hqueue hdepth hpackage htext =>
    obtain ⟨packageId, data, rfl, _⟩ := hpackage.eq_enhanced hdepth
    exact (hworld hmem).quiet htracked hmem rfl rfl (hmark _ _ _)
      (by simp [Log.symbolsReceived_front, Message.listsSymbols])
      (by simp [Log.symbolPackages_front])
  | merge hqueue hdata hpackage hpackageValid htext =>
    obtain ⟨packageId, symbol, rfl, rfl⟩ | ⟨keys, rfl, rfl⟩ := hpackage.symbols_cases hdata
    · rw [merge_announcement hconsistent hqueue] at htext
      have hread := symbolsRead_of_dump (Or.inl rfl) htext
      refine (hworld hmem).announced htracked hmem packageId rfl
        (announcement_fresh hconsistent hqueue) ?_ (hmark _ _ _) ?_ ?_
      · intro other
        simp
      · simp [Log.symbolsReceived_front, hread]
      · simp [Log.symbolPackages_front]
    · have hkeys := answer_eq_symbols hconsistent hqueue
      rw [merge_answer hconsistent hqueue] at htext
      have hread := symbolsRead_of_dump (Or.inl rfl) htext
      refine (hworld hmem).listed htracked hmem rfl ?_ (hmark _ _ _) ?_ ?_
      · rw [merge_answer hconsistent hqueue]
      · rw [Log.symbolsReceived_front, if_pos ⟨hmem, rfl⟩, hread, ← hkeys]
      · simp [Log.symbolPackages_front, ← hkeys]
  | fail hqueue hpackage hinvalid =>
    exact absurd (hvalid.head hqueue) hinvalid
  | onOpen htext =>
    by_cases heq : client = world.nextClient
    · rw [heq]
      exact views_opened htracked htext rfl rfl
    · have hold : client ∈ world.wssConSet := by simpa [heq] using hmem
      refine (hworld hold).quiet htracked hold rfl rfl (unmarked_of_open heq _) ?_ ?_
      · simp [Log.symbolsReceived, Ne.symm heq]
      · simp [Log.symbolPackages]
  | failOpen hinvalid => exact absurd hvalid.symbols hinvalid
  | @onClose closed hclient =>
    obtain ⟨hold, hne⟩ := OrderedSet.mem_erase.mp hmem
    refine (hworld hold).quiet htracked hold rfl rfl ?_ ?_ ?_
    · simp [Log.Unmarked, Observation.opens, Observation.closes, Ne.symm hne]
    · simp [Log.symbolsReceived]
    · simp [Log.symbolPackages]
  | _ =>
    exact (hworld hmem).quiet htracked hmem rfl rfl
      (by simp [Log.Unmarked, Observation.opens, Observation.closes])
      (by simp [Log.symbolsReceived]) (by simp [Log.symbolPackages])

theorem run_views {events : List (Event F)} {world : World F}
    (hvalid : ∀ event ∈ events, event.ValidTexts)
    (hrun : run (World.initial F) events = some world) {client : Client}
    (hmem : client ∈ world.wssConSet) : Views client world := by
  have hall : world.Tracked ∧ Replica.Consistent world.replica ∧
      (client ∈ world.wssConSet → Views client world) := by
    refine run_invariant_valid (P := fun world => world.Tracked ∧
        Replica.Consistent world.replica ∧ (client ∈ world.wssConSet → Views client world))
      ⟨tracked_initial, consistent_initial, fun h => absurd h List.not_mem_nil⟩
      (fun hvalid hworld houtcome => ?_) hvalid hrun
    obtain ⟨htracked, hconsistent, hviews⟩ := hworld
    exact ⟨houtcome.tracked htracked,
      Replica.consistent_of_steps (houtcome.simulates hvalid) hconsistent,
      houtcome.views hvalid htracked hconsistent hviews⟩
  exact hall.2.2 hmem

theorem run_view_complete_iff {events : List (Event F)} {world : World F}
    (hvalid : ∀ event ∈ events, event.ValidTexts)
    (hrun : run (World.initial F) events = some world) (hquiescent : world.Quiescent)
    {client : Client} (hconnected : client ∈ world.wssConSet) :
    (∀ symbol, symbol ∈ Log.symbolsReceived client (Log.session client world.log) ↔
        ∃ depth ∈ hubCalls events, depth.symbol = symbol) ↔
      ¬ Log.EndsInAnnouncement (Log.session client world.log) := by
  obtain ⟨hsound, hcomplete⟩ := run_views hvalid hrun hconnected
  rw [← hcomplete]
  constructor
  · intro hall symbol hsymbol
    exact (hall symbol).mpr ((run_quiescent_symbols hvalid hrun hquiescent symbol).mp hsymbol)
  · intro hall symbol
    rw [← run_quiescent_symbols hvalid hrun hquiescent symbol]
    exact ⟨hsound symbol, hall symbol⟩

instance (log : Log F) : Decidable (Log.EndsInAnnouncement log) :=
  inferInstanceAs (Decidable (_ = _))

/-- As long as every string is read in place, the lists a connected client was sent make up
all symbols of the run if and only if the last symbol package handled in its session is not
an announcement. -/
theorem client_view_complete_iff {turns : List (Turn F)} {world : World F}
    (huntouched : Untouched turns) (hvalid : ∀ turn ∈ turns, turn.event.ValidTexts)
    (hrun : runTurns (World.initial F) turns = some world) (hquiescent : world.Quiescent)
    {client : Client} (hconnected : client ∈ world.wssConSet) :
    (∀ symbol, symbol ∈ Log.symbolsReceived client (Log.session client world.log) ↔
        ∃ depth ∈ hubCalls (turns.map Turn.event), depth.symbol = symbol) ↔
      ¬ Log.EndsInAnnouncement (Log.session client world.log) := by
  rw [runTurns_untouched huntouched] at hrun
  exact run_view_complete_iff (List.forall_mem_map.mpr hvalid) hrun hquiescent hconnected

theorem client_view_complete_iff_sample :
    ∃ world, runTurns (World.initial ℚ) (still sampleRun) = some world ∧
      ((∀ symbol, symbol ∈ Log.symbolsReceived 0 (Log.session 0 world.log) ↔
          ∃ depth ∈ hubCalls ((still sampleRun).map Turn.event), depth.symbol = symbol) ↔
        ¬ Log.EndsInAnnouncement (Log.session 0 world.log)) := by
  obtain ⟨world, hrun, hquiescent, hconnected⟩ : ∃ world,
      runTurns (World.initial ℚ) (still sampleRun) = some world ∧ world.Quiescent ∧
        0 ∈ world.wssConSet :=
    Transition.run_satisfies (by decide +kernel)
  exact ⟨world, hrun, client_view_complete_iff (still_untouched _) (still_valid sampleRun_valid)
    hrun hquiescent hconnected⟩

/-- A client is connected, one update of a new symbol passes through the server,
and no list the client was sent contains the symbol. -/
theorem client_view_incomplete :
    Untouched (still (sampleRun.take 6)) ∧
      (∀ turn ∈ still (sampleRun.take 6), turn.event.ValidTexts) ∧
      btcDepth ∈ hubCalls ((still (sampleRun.take 6)).map Turn.event) ∧
      ∃ world, runTurns (World.initial ℚ) (still (sampleRun.take 6)) = some world ∧
        world.Quiescent ∧
        0 ∈ world.wssConSet ∧
        btcDepth.symbol ∉ Log.symbolsReceived 0 (Log.session 0 world.log) := by
  have hvalid : ∀ event ∈ sampleRun.take 6, event.ValidTexts :=
    fun event hevent => sampleRun_valid event (List.mem_of_mem_take hevent)
  exact ⟨still_untouched _, still_valid hvalid, List.mem_singleton.mpr rfl,
    Transition.run_satisfies (by decide +kernel)⟩

end MarketServer

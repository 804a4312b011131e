import MarketServer.Refinement
import MarketServer.Exact

/-! Requests for the full list. They are served and answered in the order they
were made, and each answer is broadcast complete. -/
namespace MarketServer
open Library

variable {F : Type} [Component F]

namespace Log

/-- The keys of the answers `FrontServer` has handled. -/
def answers (log : Log F) : List (OrderedSet Bytes) := (handled log).filterMap Package.answered?

/-- The answers that were broadcast, each with the text that was sent. -/
def answerTexts (log : Log F) : List (OrderedSet Bytes × Text F) :=
  (broadcasts log).filterMap Message.answer?

end Log

@[simp] theorem answered?_depthPackage (packageId : Int32) (depth : SDepthData F) :
    (depthPackage packageId depth).answered? = none := rfl

@[simp] theorem answered?_enhancedPackage (packageId : Int32) (data : EnhancedDepthData F) :
    (enhancedPackage packageId data).answered? = none := rfl

@[simp] theorem answered?_announcement (packageId : Int32) (symbol : Bytes) :
    (announcement F packageId symbol).answered? = none := rfl

@[simp] theorem answered?_answer (keys : OrderedSet Bytes) :
    (answer F keys).answered? = some keys := rfl

/-- Requests and answers wait in line: those served so far are the first ones
made, and those handled so far are the first ones served. -/
structure World.Served (world : World F) : Prop where
  requests : (Log.served world.log).map Prod.fst ++
    world.processService.filterMap ProcessTask.request? = Log.requested world.log
  answers : Log.answers world.log ++ world.frontService.filterMap Package.answered? =
    (Log.served world.log).map Prod.snd

variable [Double F]

theorem Outcome.requests_eq {world next : World F} {event : Event F}
    (h : Outcome world event next)
    (hworld : (Log.served world.log).map Prod.fst ++
      world.processService.filterMap ProcessTask.request? = Log.requested world.log) :
    (Log.served next.log).map Prod.fst ++
      next.processService.filterMap ProcessTask.request? = Log.requested next.log := by
  cases h with
  | requestAllSymbol => simp [← hworld]
  | receive hqueue => simpa [filterMap_cons_toList] using hworld
  | known hqueue => simpa [filterMap_cons_toList, hqueue] using hworld
  | new hqueue => simpa [filterMap_cons_toList, hqueue] using hworld
  | serve hqueue => simpa [filterMap_cons_toList, hqueue] using hworld
  | _ => simpa using hworld

theorem Outcome.answers_eq {world next : World F} {event : Event F}
    (h : Outcome world event next)
    (hworld : Log.answers world.log ++ world.frontService.filterMap Package.answered? =
      (Log.served world.log).map Prod.snd) :
    Log.answers next.log ++ next.frontService.filterMap Package.answered? =
      (Log.served next.log).map Prod.snd := by
  unfold Log.answers at hworld ⊢
  cases h with
  | known hqueue => simpa [filterMap_cons_toList] using hworld
  | new hqueue => simpa [filterMap_cons_toList] using hworld
  | serve hqueue => simp [← hworld]
  | publish hqueue => simpa [filterMap_cons_toList, hqueue] using hworld
  | merge hqueue => simpa [filterMap_cons_toList, hqueue] using hworld
  | fail hqueue => simpa [filterMap_cons_toList, hqueue] using hworld
  | _ => simpa using hworld

theorem Outcome.served {world next : World F} {event : Event F}
    (h : Outcome world event next) (hworld : world.Served) : next.Served :=
  ⟨h.requests_eq hworld.requests, h.answers_eq hworld.answers⟩

theorem run_served {events : List (Event F)} {world : World F}
    (hrun : run (World.initial F) events = some world) : world.Served :=
  run_invariant (P := World.Served) (fun _ => True) ⟨rfl, rfl⟩
    (fun _ _ hworld houtcome => houtcome.served hworld) (fun _ _ => trivial) hrun

omit [Double F] in
theorem answerTexts_fst {log : Log F}
    (h : (Log.broadcasts log).map Message.cause = (Log.handled log).map some) :
    (Log.answerTexts log).map Prod.fst = Log.answers log := by
  unfold Log.answerTexts Log.answers
  rw [List.map_filterMap, ← filterMap_causes Package.answered? h]
  congr 1
  funext message
  cases hkeys : message.cause.bind Package.answered? <;> simp [Message.answer?, hkeys]

/-- Handling an answer when the stores agree broadcasts it whole and moves nothing. -/
theorem Outcome.answer_handled {world next : World F} {package : Package F}
    {rest : List (Package F)} {keys : OrderedSet Bytes} (h : Outcome world .front next)
    (hvalid : world.ValidTexts) (hconsistent : Replica.Consistent world.replica)
    (hqueue : world.frontService = package :: rest) (hkeys : package.answered? = some keys) :
    next.symbols = world.symbols ∧
      ∃ text, next.log = world.log ++
          .handled package :: broadcastLog ⟨some package, text⟩ world.wssConSet ∧
        symbolsRead text = keys.toList := by
  cases h with
  | publish hhead hdepth hpackage htext =>
    cases hqueue.symm.trans hhead
    obtain ⟨packageId, data, rfl, _⟩ := hpackage.eq_enhanced hdepth
    cases hkeys
  | merge hhead hdata hpackage hvalid htext =>
    cases hqueue.symm.trans hhead
    obtain ⟨packageId, symbol, rfl, rfl⟩ | ⟨keys, rfl, rfl⟩ := hpackage.symbols_cases hdata
    · cases hkeys
    · cases hkeys
      rw [merge_answer hconsistent hqueue] at htext ⊢
      exact ⟨rfl, _, rfl, symbolsRead_of_dump (Or.inl rfl) htext⟩
  | fail hhead hpackage hinvalid =>
    exact absurd (hvalid.head hhead) hinvalid

/-- Every broadcast answer reads as the keys it was made of. -/
def World.AnswersComplete (world : World F) : Prop :=
  ∀ keys text, (keys, text) ∈ Log.answerTexts world.log → symbolsRead text = keys.toList

theorem Outcome.answersComplete {world next : World F} {event : Event F}
    (h : Outcome world event next) (hconsistent : Replica.Consistent world.replica)
    (hworld : world.AnswersComplete) : next.AnswersComplete := by
  unfold World.AnswersComplete Log.answerTexts at hworld ⊢
  cases h with
  | publish hqueue hdepth hpackage htext =>
    obtain ⟨packageId, data, rfl, _⟩ := hpackage.eq_enhanced hdepth
    simpa [filterMap_cons_toList, Message.answer?] using hworld
  | merge hqueue hdata hpackage hvalid htext =>
    obtain ⟨packageId, symbol, rfl, rfl⟩ | ⟨keys, rfl, rfl⟩ := hpackage.symbols_cases hdata
    · simpa [filterMap_cons_toList, Message.answer?] using hworld
    · rw [merge_answer hconsistent hqueue] at htext
      have hread := symbolsRead_of_dump (Or.inl rfl) htext
      intro other text hmem
      simp only [Log.broadcasts_append, Log.broadcasts_cons, Log.broadcasts_broadcastLog,
        List.filterMap_append, List.mem_append] at hmem
      rcases hmem with hold | hnew
      · exact hworld other text hold
      · simp [Message.answer?] at hnew
        rw [hnew.1, hnew.2, hread]
  | _ => simpa using hworld

theorem run_answersComplete {events : List (Event F)} {world : World F}
    (hvalid : ∀ event ∈ events, event.ValidTexts)
    (hrun : run (World.initial F) events = some world) : world.AnswersComplete := by
  have hboth : Replica.Consistent world.replica ∧ world.AnswersComplete := by
    refine run_invariant_valid
      (P := fun world => Replica.Consistent world.replica ∧ world.AnswersComplete)
      ⟨consistent_initial, fun _ _ h => absurd h List.not_mem_nil⟩
      (fun hvalid hworld houtcome => ?_) hvalid hrun
    exact ⟨Replica.consistent_of_steps (houtcome.simulates hvalid) hworld.1,
      houtcome.answersComplete hworld.1 hworld.2⟩
  exact hboth.2

theorem run_answered {events : List (Event F)} {world : World F}
    (hvalid : ∀ event ∈ events, event.ValidTexts)
    (hrun : run (World.initial F) events = some world) :
    (∀ i requestId, (Log.requested world.log)[i]? = some requestId →
      i < (Log.answers world.log).length →
        ∃ keys text, (Log.served world.log)[i]? = some (requestId, keys) ∧
          (Log.answerTexts world.log)[i]? = some (keys, text) ∧
          symbolsRead text = keys.toList) ∧
      ∀ package rest keys next, world.frontService = package :: rest →
        package.answered? = some keys → step world .front = some next →
          next.symbols = world.symbols := by
  obtain ⟨hrequests, hanswers⟩ := run_served hrun
  have htexts := answerTexts_fst (run_broadcasts hvalid hrun)
  constructor
  · intro i requestId hrequest hi
    have hserved : i < (Log.served world.log).length := by
      have hlength := congrArg List.length hanswers
      simp only [List.length_append, List.length_map] at hlength
      omega
    have htext : i < (Log.answerTexts world.log).length := by
      rwa [← htexts, List.length_map] at hi
    have hid : requestId = (Log.served world.log)[i].1 := by
      rw [← hrequests, List.getElem?_append_left (by simpa using hserved)] at hrequest
      simpa [hserved] using hrequest.symm
    have hkeys : (Log.answerTexts world.log)[i].1 = (Log.served world.log)[i].2 := by
      have hpast : (Log.answers world.log ++
          world.frontService.filterMap Package.answered?)[i]? =
          ((Log.served world.log).map Prod.snd)[i]? := by rw [hanswers]
      rw [List.getElem?_append_left hi, ← htexts] at hpast
      simpa [hserved, htext] using hpast
    refine ⟨(Log.served world.log)[i].2, (Log.answerTexts world.log)[i].2, ?_, ?_, ?_⟩
    · rw [hid]
      exact List.getElem?_eq_getElem hserved
    · rw [← hkeys]
      exact List.getElem?_eq_getElem htext
    · rw [← hkeys]
      exact run_answersComplete hvalid hrun _ _ (List.getElem_mem htext)
  · intro package rest keys next hqueue hkeys hstep
    exact ((step_outcome (run_shaped hrun) hstep).answer_handled (run_validTexts hvalid hrun)
      (run_consistent hvalid hrun) hqueue hkeys).1

/-- While an answer is handled no string of an update is read. -/
theorem front_symbols_reads (reads : Reads) {package : Package F} {keys : OrderedSet Bytes}
    (h : package.answered? = some keys) :
    FrontServer.handleResponseMessage reads package =
      FrontServer.handleResponseMessage .untouched package := by
  obtain ⟨creator, packageId, field⟩ := package
  unfold FrontServer.handleResponseMessage
  cases field with
  | symbolData data => rfl
  | _ => cases creator <;> cases h

/-- As long as every string is read in place, the answer to the request made as number `i`
is the answer served as number `i`: once handled, it was broadcast with the keys found when
it was served. -/
theorem symbol_request_answered {turns : List (Turn F)} {world : World F}
    (huntouched : Untouched turns) (hvalid : ∀ turn ∈ turns, turn.event.ValidTexts)
    (hrun : runTurns (World.initial F) turns = some world) :
    (∀ i requestId, (Log.requested world.log)[i]? = some requestId →
      i < (Log.answers world.log).length →
        ∃ keys text, (Log.served world.log)[i]? = some (requestId, keys) ∧
          (Log.answerTexts world.log)[i]? = some (keys, text) ∧
          symbolsRead text = keys.toList) ∧
      ∀ reads package rest keys next, world.frontService = package :: rest →
        package.answered? = some keys → stepReading reads world .front = some next →
          next.symbols = world.symbols := by
  rw [runTurns_untouched huntouched] at hrun
  obtain ⟨hanswered, hunchanged⟩ := run_answered (List.forall_mem_map.mpr hvalid) hrun
  refine ⟨hanswered, fun reads package rest keys next hqueue hkeys hstep => ?_⟩
  simp only [stepReading, hqueue, front_symbols_reads reads hkeys] at hstep
  refine hunchanged package rest keys next hqueue hkeys ?_
  simpa only [step, stepReading, hqueue] using hstep

theorem symbol_request_answered_sample :
    ∃ world, runTurns (World.initial ℚ) (still sampleRun) = some world ∧
      ∃ keys text, (Log.served world.log)[0]? = some (2, keys) ∧
        (Log.answerTexts world.log)[0]? = some (keys, text) ∧ symbolsRead text = keys.toList := by
  obtain ⟨world, hrun, hrequest, hhandled⟩ : ∃ world, run (World.initial ℚ) sampleRun =
      some world ∧ (Log.requested world.log)[0]? = some 2 ∧ 0 < (Log.answers world.log).length :=
    Transition.run_satisfies (by decide +kernel)
  have hturns := (runTurns_still _ sampleRun).trans hrun
  exact ⟨world, hturns, (symbol_request_answered (still_untouched _) (still_valid sampleRun_valid)
    hturns).1 0 2 hrequest hhandled⟩

/-- The memory of the symbol is reused while the new key is made of it. -/
def misfiledRun : List (Turn ℚ) :=
  still [.onDepth btcDepth, .receive] ++
    [⟨{ Reads.untouched with stored := overwritten "ETH" }, .process zeroMemory⟩] ++
    still [.front, .front, .requestAllSymbol, .process zeroMemory]

/-- The key of the answer was never announced: the merge takes it out of the answer. -/
theorem answer_incomplete :
    (∀ turn ∈ misfiledRun, turn.event.ValidTexts) ∧
      ∃ world next, runTurns (World.initial ℚ) misfiledRun = some world ∧
        stepReading .untouched world .front = some next ∧
        (Log.served next.log).map (fun entry => entry.2.toList) = [[.ofLiteral "ETH"]] ∧
        (Log.answerTexts next.log).map (fun entry => symbolsRead entry.2) = [[]] ∧
        next.symbols.toList ≠ world.symbols.toList := by
  have hbtc : btcDepth.ValidTexts := by decide
  refine ⟨by simp [misfiledRun, still, Event.ValidTexts, hbtc], ?_⟩
  exact Transition.step_satisfies (⟨.untouched, .front⟩ : Turn ℚ) (by decide +kernel)

end MarketServer

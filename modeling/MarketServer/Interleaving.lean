import MarketServer.Outcome
import MarketServer.Exact

/-! The two threads of the last station. Connections open and close on the listen
thread while packages are handled on the other one; the steps below are what each
does without the other in between. -/
namespace MarketServer
open Library

variable {F : Type} [Component F]

variable (F) in
structure Threads where
  world : World F
  /-- The connection that is registered and waits for its snapshot. -/
  opening : Option Client
  /-- The package whose symbols were merged, with what the merge left in it. -/
  leftover : Option (Package F × SymbolData)

def Threads.initial (F : Type) [Component F] : Threads F := ⟨World.initial F, none, none⟩

variable (F) in
inductive Action where
  | register
  | snapshot
  | close (client : Client)
  /-- Any package, so that its strings may be taken as they are read. -/
  | handle (package : Package F)
  | broadcastLeftover

/-- `process_symbols_package` up to its broadcast. -/
def mergePackage (package : Package F) (data : SymbolData) : Handler F SymbolData := do
  record (.handled package)
  let _updatedSymbolsStr ← data.getJsonStr F
  FrontServer.mergeSymbols data

section

variable [Double F]

/-- How the text for a package is made. -/
def encodePackage (package : Package F) : Except Failure (Text F) :=
  match package.field with
  | .rtnDepth depth => .ok (Component.convertUTData depth)
  | .sDepthData depth => sDepthDataToJsonStr depth
  | .enhancedDepthData data => data.getJsonStr
  | .symbolData data => data.getJsonStr F

/-- The steps that send a message to every connection. A package with symbols is
merged first, and nothing is sent for a package that cannot be encoded. -/
def Action.broadcasts : Action F → Bool
  | .handle package =>
    match package.field, encodePackage package with
    | .symbolData _, _ => false
    | _, .ok _ => true
    | _, .error _ => false
  | .broadcastLeftover => true
  | .register | .snapshot | .close _ => false

/-- Whether a connection waits for its snapshot, and whether a step ever
broadcast while one did. -/
structure Scan where
  opening : Bool
  interrupted : Bool

def Scan.next (scan : Scan) : Action F → Scan
  | .register => { scan with opening := true }
  | .snapshot => { scan with opening := false }
  | action => { scan with interrupted := scan.interrupted || (scan.opening && action.broadcasts) }

/-- A step broadcasts between a registration and the snapshot for it. -/
def Interrupted (actions : List (Action F)) : Prop :=
  (actions.foldl Scan.next ⟨false, false⟩).interrupted = true

instance (actions : List (Action F)) : Decidable (Interrupted actions) :=
  inferInstanceAs (Decidable (_ = true))

end

namespace Threads

variable [Double F]

/-- The listen thread runs one callback at a time, the other thread one handler. -/
def step (threads : Threads F) : Action F → Option (Threads F)
  | .register =>
    match threads.opening with
    | none =>
      let client := threads.world.nextClient
      (dispatch (WBServer.register client) { threads.world with nextClient := client + 1 }).map
        fun world => { threads with world, opening := some client }
    | some _ => none
  | .snapshot =>
    match threads.opening with
    | none => none
    | some client =>
      (dispatch (WBServer.sendSnapshot client) threads.world).map fun world =>
        { threads with world, opening := none }
  | .close client =>
    if threads.opening = none ∧ client < threads.world.nextClient then
      (dispatch (WBServer.onClose client) threads.world).map fun world => { threads with world }
    else none
  | .handle package =>
    match threads.leftover, package.field with
    | some _, _ => none
    | none, .symbolData data =>
      match (mergePackage package data).run threads.world with
      | .ok rest world => some { threads with world, leftover := some (package, rest) }
      | .error (.typeError _) world =>
        some { threads with world := { world with log := world.log ++ [.escaped] } }
      | .error .undefined _ => none
    | none, _ =>
      (dispatch (FrontServer.handleResponseMessage .untouched package) threads.world).map fun world =>
        { threads with world }
  | .broadcastLeftover =>
    match threads.leftover with
    | none => none
    | some (package, rest) =>
      (dispatch (FrontServer.broadcastSymbols package rest) threads.world).map fun world =>
        { threads with world, leftover := none }

/-- What only valid texts can get into. -/
structure Safe (threads : Threads F) : Prop where
  symbols : ∀ symbol ∈ threads.world.symbols, symbol.ValidUtf8
  leftover : ∀ package rest, threads.leftover = some (package, rest) →
    ∀ symbol ∈ rest.symbols, symbol.ValidUtf8

inductive Effect (threads : Threads F) : Action F → Threads F → Prop where
  | register (hidle : threads.opening = none) :
      Effect threads .register
        { threads with
          world := { threads.world with
            nextClient := threads.world.nextClient + 1
            wssConSet := threads.world.wssConSet.emplace threads.world.nextClient
            log := threads.world.log ++ [.opened threads.world.nextClient] }
          opening := some threads.world.nextClient }
  | snapshot {client : Client} {text : Text F} (hopening : threads.opening = some client)
      (htext : (listDocument F "symbol" threads.world.symbols).dump = .ok text) :
      Effect threads .snapshot
        { threads with
          world := { threads.world with
            log := threads.world.log ++ [.sent client ⟨none, text⟩] }
          opening := none }
  | close {client : Client} (hidle : threads.opening = none)
      (hclient : client < threads.world.nextClient) :
      Effect threads (.close client)
        { threads with
          world := { threads.world with
            wssConSet := threads.world.wssConSet.erase client
            log := threads.world.log ++ [.closed client] } }
  | publish {package : Package F} {text : Text F} (hidle : threads.leftover = none)
      (hbroadcasts : (Action.handle package).broadcasts = true) :
      Effect threads (.handle package)
        { threads with
          world := { threads.world with
            log := threads.world.log ++
              .handled package :: broadcastLog ⟨some package, text⟩ threads.world.wssConSet } }
  | escape {package : Package F} (hidle : threads.leftover = none)
      (hbroadcasts : (Action.handle package).broadcasts = false) :
      Effect threads (.handle package)
        { threads with
          world := { threads.world with
            log := threads.world.log ++ [.handled package, .escaped] } }
  | merge {package : Package F} {data : SymbolData} (hidle : threads.leftover = none)
      (hfield : package.field = .symbolData data)
      (hvalid : ∀ symbol ∈ data.symbols, symbol.ValidUtf8) :
      Effect threads (.handle package)
        { threads with
          world := { threads.world with
            symbols := (threads.world.symbols.merge data.symbols).1
            log := threads.world.log ++ [.handled package] }
          leftover := some (package, ⟨(threads.world.symbols.merge data.symbols).2⟩) }
  | broadcastLeftover {package : Package F} {rest : SymbolData} {text : Text F}
      (hleftover : threads.leftover = some (package, rest)) :
      Effect threads .broadcastLeftover
        { threads with
          world := { threads.world with
            log := threads.world.log ++
              broadcastLog ⟨some package, text⟩ threads.world.wssConSet }
          leftover := none }

theorem Effect.safe {threads next : Threads F} {action : Action F}
    (h : Effect threads action next) (hsafe : threads.Safe) : next.Safe := by
  cases h with
  | merge hidle hfield hvalid =>
    constructor
    · intro symbol hsymbol
      exact (OrderedSet.mem_merge_fst.mp hsymbol).elim (hsafe.symbols symbol) (hvalid symbol)
    · intro package rest hleftover symbol hsymbol
      cases hleftover
      exact hvalid symbol (OrderedSet.mem_merge_snd.mp hsymbol).1
  | broadcastLeftover => exact ⟨hsafe.symbols, fun _ _ h => by cases h⟩
  | register => exact ⟨hsafe.symbols, hsafe.leftover⟩
  | snapshot => exact ⟨hsafe.symbols, hsafe.leftover⟩
  | close => exact ⟨hsafe.symbols, hsafe.leftover⟩
  | publish => exact ⟨hsafe.symbols, hsafe.leftover⟩
  | escape => exact ⟨hsafe.symbols, hsafe.leftover⟩

/-- Such a package is broadcast in one piece. -/
theorem run_handleResponseMessage {package : Package F}
    (hfield : ∀ data, package.field ≠ .symbolData data) (world : World F) :
    (FrontServer.handleResponseMessage .untouched package).run world =
      match encodePackage package with
      | .ok text => .ok () { world with
          log := world.log ++ .handled package :: broadcastLog ⟨some package, text⟩ world.wssConSet }
      | .error failure => .error failure { world with log := world.log ++ [.handled package] } := by
  have hbody : (FrontServer.handleResponseMessage .untouched package).run world =
      (do let text ← encodePackage package; WBServer.broadcast ⟨some package, text⟩ :
        Handler F Unit).run { world with log := world.log ++ [.handled package] } := by
    unfold FrontServer.handleResponseMessage encodePackage
    simp only [EStateM.run_bind, run_record]
    cases hkind : package.field with
    | rtnDepth depth => rfl
    | sDepthData depth => rfl
    | enhancedDepthData data => rfl
    | symbolData data => exact absurd hkind (hfield data)
  rw [hbody, run_encode_broadcast]
  cases encodePackage package <;> simp

omit [Double F] in
theorem run_mergePackage_valid (package : Package F) {data : SymbolData}
    (hvalid : ∀ symbol ∈ data.symbols, symbol.ValidUtf8) (world : World F) :
    (mergePackage package data).run world =
      .ok ⟨(world.symbols.merge data.symbols).2⟩ { world with
        symbols := (world.symbols.merge data.symbols).1
        log := world.log ++ [.handled package] } := by
  obtain ⟨text, htext⟩ := listDocument_dump_ok (F := F) "symbols" hvalid
  unfold mergePackage
  rw [SymbolData.getJsonStr_eq, htext]
  simp [run_mergeSymbols]

omit [Double F] in
theorem run_mergePackage_invalid (package : Package F) {data : SymbolData}
    (hinvalid : ¬ ∀ symbol ∈ data.symbols, symbol.ValidUtf8) (world : World F) :
    (mergePackage package data).run world =
      .error (.typeError 316) { world with log := world.log ++ [.handled package] } := by
  unfold mergePackage
  rw [SymbolData.getJsonStr_eq, listDocument_dump_error hinvalid]
  simp

theorem broadcasts_of_encoded {package : Package F} {text : Text F}
    (hfield : ∀ data, package.field ≠ .symbolData data)
    (hencoded : encodePackage package = .ok text) :
    (Action.handle package).broadcasts = true := by
  simp only [Action.broadcasts, hencoded]

theorem broadcasts_of_symbols {package : Package F} {data : SymbolData}
    (hfield : package.field = .symbolData data) :
    (Action.handle package).broadcasts = false := by
  simp only [Action.broadcasts, hfield]

theorem broadcasts_of_failed {package : Package F} {failure : Failure}
    (hencoded : encodePackage package = .error failure) :
    (Action.handle package).broadcasts = false := by
  simp only [Action.broadcasts, hencoded]
  cases package.field <;> rfl

theorem dispatch_effect {threads : Threads F} {next : World F} {package : Package F}
    (hidle : threads.leftover = none) (hfield : ∀ data, package.field ≠ .symbolData data)
    (h : dispatch (FrontServer.handleResponseMessage .untouched package) threads.world = some next) :
    Effect threads (.handle package) { threads with world := next } := by
  rw [dispatch, run_handleResponseMessage hfield] at h
  cases hencoded : encodePackage package with
  | ok text =>
    rw [hencoded] at h
    cases h
    exact .publish hidle (broadcasts_of_encoded hfield hencoded)
  | error failure =>
    rw [hencoded] at h
    cases failure with
    | typeError id =>
      cases h
      simpa using Effect.escape hidle (broadcasts_of_failed hencoded)
    | undefined => cases h

theorem handle_effect {threads next : Threads F} {package : Package F}
    (h : threads.step (.handle package) = some next) :
    Effect threads (.handle package) next := by
  simp only [step] at h
  split at h
  · cases h
  · rename_i data hidle hfield
    by_cases hvalid : ∀ symbol ∈ data.symbols, symbol.ValidUtf8
    · rw [run_mergePackage_valid package hvalid] at h
      cases h
      exact .merge hidle hfield hvalid
    · rw [run_mergePackage_invalid package hvalid] at h
      cases h
      simpa using Effect.escape hidle (broadcasts_of_symbols hfield)
  · rename_i hidle hfield
    obtain ⟨world, hworld, rfl⟩ := Option.map_eq_some_iff.mp h
    exact dispatch_effect hidle hfield hworld

theorem step_effect {threads next : Threads F} {action : Action F} (hsafe : threads.Safe)
    (h : threads.step action = some next) : Effect threads action next := by
  cases action with
  | register =>
    simp only [step] at h
    split at h
    · rename_i hidle
      cases h
      exact .register hidle
    · cases h
  | snapshot =>
    simp only [step] at h
    split at h
    · cases h
    · rename_i client hopening
      obtain ⟨text, htext⟩ := listDocument_dump_ok (F := F) "symbol" hsafe.symbols
      have hrun : (WBServer.sendSnapshot client).run threads.world = .ok () { threads.world with
          log := threads.world.log ++ [.sent client ⟨none, text⟩] } := by
        simp [WBServer.sendSnapshot, FrontServer.getSymbolsStr, symbolsToJsonStr_eq, htext]
      rw [dispatch, hrun] at h
      cases h
      exact .snapshot hopening htext
  | close client =>
    simp only [step] at h
    split at h
    · rename_i hclient
      rw [dispatch, run_onClose] at h
      cases h
      exact .close hclient.1 hclient.2
    · cases h
  | handle package => exact handle_effect h
  | broadcastLeftover =>
    simp only [step] at h
    split at h
    · cases h
    · rename_i package rest hleftover
      obtain ⟨text, htext⟩ := listDocument_dump_ok (F := F) "symbols"
        (hsafe.leftover package rest hleftover)
      rw [dispatch, run_broadcastSymbols package htext] at h
      cases h
      exact .broadcastLeftover hleftover

end Threads

namespace Log

/-- No connection was sent anything before its snapshot. -/
def SnapshotFirst (log : Log F) : Prop :=
  ∀ client message, (messages client log).head? = some message → message.cause = none

end Log

namespace Threads

/-- What the threads know of the connections, and what the steps so far say of
them: `scan` is what was recorded of those. -/
structure Tracks (scan : Scan) (threads : Threads F) : Prop where
  registered : ∀ client ∈ threads.world.wssConSet, client < threads.world.nextClient
  fresh : ∀ client, threads.world.nextClient ≤ client →
    Log.messages client threads.world.log = []
  opening : ∀ client, threads.opening = some client → client ∈ threads.world.wssConSet
  served : ∀ client ∈ threads.world.wssConSet, threads.opening ≠ some client →
    Log.messages client threads.world.log ≠ []
  scanned : scan.opening = threads.opening.isSome
  pending : ∀ client, threads.opening = some client → scan.interrupted = false →
    Log.messages client threads.world.log = []
  first_iff : Log.SnapshotFirst threads.world.log ↔ scan.interrupted = false

theorem tracks_initial : Tracks ⟨false, false⟩ (Threads.initial F) where
  registered := fun _ h => absurd h List.not_mem_nil
  fresh := fun _ _ => rfl
  opening := fun _ h => by cases h
  served := fun _ h => absurd h List.not_mem_nil
  scanned := rfl
  pending := fun _ h => by cases h
  first_iff := iff_of_true (fun _ _ h => by cases h) rfl

/-- What is broadcast while a connection waits is the first message it gets; what
is broadcast otherwise comes after the snapshots. -/
theorem Tracks.broadcast {scan : Scan} {threads next : Threads F} (h : Tracks scan threads)
    (log : Log F) (package : Package F) (text : Text F)
    (hmessages : ∀ client, Log.messages client log = Log.messages client threads.world.log)
    (hlog : next.world.log =
      log ++ broadcastLog ⟨some package, text⟩ threads.world.wssConSet)
    (hset : next.world.wssConSet = threads.world.wssConSet)
    (hclient : next.world.nextClient = threads.world.nextClient)
    (hopening : next.opening = threads.opening) :
    Tracks { scan with interrupted := scan.interrupted || scan.opening } next := by
  obtain ⟨hregistered, hfresh, hin, hserved, hscanned, hpending, hfirst⟩ := h
  have hreads : ∀ client, Log.messages client next.world.log =
      Log.messages client threads.world.log ++
        if client ∈ threads.world.wssConSet then [⟨some package, text⟩] else [] := by
    intro client
    rw [hlog, Log.messages_append, hmessages, Log.messages_broadcastLog]
  have hquiet : (scan.interrupted || scan.opening) = false ↔
      scan.interrupted = false ∧ threads.opening = none := by
    rw [Bool.or_eq_false_iff, hscanned, Option.isSome_eq_false_iff, Option.isNone_iff_eq_none]
  refine ⟨?_, ?_, ?_, ?_, ?_, ?_, ?_⟩
  · rw [hset, hclient]
    exact hregistered
  · intro client hle
    rw [hclient] at hle
    have hout : client ∉ threads.world.wssConSet :=
      fun hmem => Nat.not_lt.mpr hle (hregistered client hmem)
    rw [hreads, hfresh client hle, if_neg hout]
    rfl
  · rw [hset, hopening]
    exact hin
  · intro client hmem _
    rw [hset] at hmem
    rw [hreads, if_pos hmem]
    exact List.append_ne_nil_of_right_ne_nil _ (List.cons_ne_nil _ _)
  · rw [hopening]
    exact hscanned
  · intro client hwaits hnot
    rw [hopening, (hquiet.mp hnot).2] at hwaits
    cases hwaits
  · rw [hquiet]
    constructor
    · intro hnext
      have hold : scan.interrupted = false := by
        refine hfirst.mp fun client message hhead => hnext client message ?_
        rw [hreads, List.head?_append, hhead]
        rfl
      refine ⟨hold, ?_⟩
      cases hwaits : threads.opening with
      | none => rfl
      | some client =>
        have hhead : (Log.messages client next.world.log).head? = some ⟨some package, text⟩ := by
          rw [hreads, hpending client hwaits hold, if_pos (hin client hwaits)]
          rfl
        cases hnext client _ hhead
    · rintro ⟨hold, hidle⟩ client message hhead
      have hsnapshot : Log.SnapshotFirst threads.world.log := hfirst.mpr hold
      rw [hreads, List.head?_append] at hhead
      by_cases hmem : client ∈ threads.world.wssConSet
      · have hother : threads.opening ≠ some client := by simp [hidle]
        obtain ⟨first, hsome⟩ := Option.isSome_iff_exists.mp
          (List.isSome_head?.mpr (hserved client hmem hother))
        rw [hsome] at hhead
        exact hsnapshot client message (hsome.trans hhead)
      · rw [if_neg hmem, List.head?_nil, Option.or_none] at hhead
        exact hsnapshot client message hhead

/-- Steps that send nothing and register nobody. -/
theorem Tracks.quiet {scan : Scan} {threads next : Threads F} (h : Tracks scan threads)
    (hmessages : ∀ client,
      Log.messages client next.world.log = Log.messages client threads.world.log)
    (hset : ∀ client ∈ next.world.wssConSet, client ∈ threads.world.wssConSet)
    (hkept : ∀ client, threads.opening = some client → client ∈ next.world.wssConSet)
    (hclient : next.world.nextClient = threads.world.nextClient)
    (hopening : next.opening = threads.opening) : Tracks scan next where
  registered := fun client hmem => hclient ▸ h.registered client (hset client hmem)
  fresh := fun client hle => (hmessages client).trans (h.fresh client (hclient ▸ hle))
  opening := fun client hwaits => hkept client (hopening ▸ hwaits)
  served := fun client hmem hidle => by
    rw [hmessages]
    exact h.served client (hset client hmem) (hopening ▸ hidle)
  scanned := hopening ▸ h.scanned
  pending := fun client hwaits hnot => by
    rw [hmessages]
    exact h.pending client (hopening ▸ hwaits) hnot
  first_iff := by
    rw [← h.first_iff]
    simp only [Log.SnapshotFirst, hmessages]

theorem Tracks.register {scan : Scan} {threads : Threads F} (h : Tracks scan threads)
    (hidle : threads.opening = none) :
    Tracks (F := F) { scan with opening := true }
      { threads with
        world := { threads.world with
          nextClient := threads.world.nextClient + 1
          wssConSet := threads.world.wssConSet.emplace threads.world.nextClient
          log := threads.world.log ++ [.opened threads.world.nextClient] }
        opening := some threads.world.nextClient } := by
  have hmessages : ∀ client, Log.messages client
      (threads.world.log ++ [.opened threads.world.nextClient]) =
        Log.messages client threads.world.log := by simp
  refine ⟨?_, ?_, ?_, ?_, rfl, ?_, ?_⟩
  · intro client hmem
    rcases OrderedSet.mem_emplace.mp hmem with rfl | hmem
    · exact Nat.lt_succ_self _
    · exact Nat.lt_succ_of_lt (h.registered client hmem)
  · intro client hle
    exact (hmessages client).trans (h.fresh client (Nat.le_of_succ_le hle))
  · intro client hwaits
    cases hwaits
    exact OrderedSet.mem_emplace.mpr (Or.inl rfl)
  · intro client hmem hother
    rw [hmessages]
    rcases OrderedSet.mem_emplace.mp hmem with rfl | hmem
    · exact absurd rfl hother
    · exact h.served client hmem (hidle ▸ nofun)
  · intro client hwaits _
    cases hwaits
    exact (hmessages _).trans (h.fresh _ (Nat.le_refl _))
  · rw [← h.first_iff]
    simp only [Log.SnapshotFirst, hmessages]

theorem Tracks.snapshot {scan : Scan} {threads : Threads F} (h : Tracks scan threads)
    {client : Client} {text : Text F} (hopening : threads.opening = some client) :
    Tracks (F := F) { scan with opening := false }
      { threads with
        world := { threads.world with
          log := threads.world.log ++ [.sent client ⟨none, text⟩] }
        opening := none } := by
  have hmessages : ∀ other, Log.messages other
      (threads.world.log ++ [.sent client ⟨none, text⟩]) =
        Log.messages other threads.world.log ++ if client = other then [⟨none, text⟩] else [] := by
    intro other
    by_cases heq : client = other <;> simp [heq]
  refine ⟨h.registered, ?_, nofun, ?_, rfl, nofun, ?_⟩
  · intro other hle
    have hne : client ≠ other := by
      rintro rfl
      exact Nat.not_lt.mpr hle (h.registered client (h.opening client hopening))
    rw [hmessages, h.fresh other hle, if_neg hne]
    rfl
  · intro other hmem _
    rw [hmessages]
    by_cases heq : client = other
    · rw [if_pos heq]
      exact List.append_ne_nil_of_right_ne_nil _ (List.cons_ne_nil _ _)
    · refine List.append_ne_nil_of_left_ne_nil (h.served other hmem fun hwaits => heq ?_) _
      exact Option.some.inj (hopening.symm.trans hwaits)
  · rw [← h.first_iff]
    constructor
    · intro hnext other message hhead
      refine hnext other message ?_
      rw [hmessages, List.head?_append, hhead]
      rfl
    · intro hold other message hhead
      rw [hmessages, List.head?_append] at hhead
      cases hfirst : (Log.messages other threads.world.log).head? with
      | some first =>
        rw [hfirst] at hhead
        exact hold other message (hfirst.trans hhead)
      | none =>
        rw [hfirst, Option.none_or] at hhead
        split at hhead
        · cases hhead
          rfl
        · cases hhead

variable [Double F]

theorem Effect.tracks {scan : Scan} {threads next : Threads F} {action : Action F}
    (h : Effect threads action next) (htracks : Tracks scan threads) :
    Tracks (scan.next action) next := by
  cases h with
  | register hidle => exact htracks.register hidle
  | snapshot hopening htext => exact htracks.snapshot hopening
  | @close client hidle hclient =>
    have hscan : scan.next (.close (F := F) client) = scan := by
      simp [Scan.next, Action.broadcasts]
    rw [hscan]
    exact htracks.quiet (by simp) (fun client hmem => (OrderedSet.mem_erase.mp hmem).1)
      (fun client hwaits => nomatch hidle.symm.trans hwaits) rfl rfl
  | @publish package text hidle hbroadcasts =>
    have hscan : scan.next (.handle package) =
        { scan with interrupted := scan.interrupted || scan.opening } := by
      simp [Scan.next, hbroadcasts]
    rw [hscan]
    exact htracks.broadcast (threads.world.log ++ [.handled package]) package text
      (by simp) (by simp) rfl rfl rfl
  | @escape package hidle hbroadcasts =>
    have hscan : scan.next (.handle package) = scan := by simp [Scan.next, hbroadcasts]
    rw [hscan]
    exact htracks.quiet (by simp) (fun _ h => h) htracks.opening rfl rfl
  | @merge package data hidle hfield hvalid =>
    have hscan : scan.next (.handle package) = scan := by
      simp [Scan.next, broadcasts_of_symbols hfield]
    rw [hscan]
    exact htracks.quiet (by simp) (fun _ h => h) htracks.opening rfl rfl
  | broadcastLeftover hleftover =>
    have hscan : scan.next (.broadcastLeftover (F := F)) =
        { scan with interrupted := scan.interrupted || scan.opening } := by
      simp [Scan.next, Action.broadcasts]
    rw [hscan]
    exact htracks.broadcast _ _ _ (fun _ => rfl) rfl rfl rfl rfl

theorem run_tracks {actions : List (Action F)} {threads : Threads F}
    (hrun : Transition.run step (initial F) actions = some threads) :
    Tracks (actions.foldl Scan.next ⟨false, false⟩) threads := by
  have hboth : threads.Safe ∧ Tracks (actions.foldl Scan.next ⟨false, false⟩) threads := by
    refine Transition.run_history (P := fun scan threads => threads.Safe ∧ Tracks scan threads)
      Scan.next (fun _ => True) (fun _ hstate hstep => ?_) _ (fun _ _ => trivial)
      ⟨⟨fun _ h => absurd h List.not_mem_nil, fun _ _ h => nomatch h⟩, tracks_initial⟩ hrun
    have heffect := step_effect hstate.1 hstep
    exact ⟨heffect.safe hstate.1, heffect.tracks hstate.2⟩
  exact hboth.2

end Threads

section Refinement

variable [Double F]

/-! The events of the whole server that concern the last station are runs of the
two threads without the other one in between. -/

theorem onOpen_threads {world next : World F}
    (hvalid : ∀ symbol ∈ world.symbols, symbol.ValidUtf8)
    (h : step world .onOpen = some next) :
    Transition.run Threads.step ⟨world, none, none⟩ [.register, .snapshot] =
      some ⟨next, none, none⟩ := by
  obtain ⟨text, htext⟩ := listDocument_dump_ok (F := F) "symbol" hvalid
  simp only [step, stepReading, dispatch, run_onOpen, htext] at h
  cases h
  simp [Transition.run, Threads.step, dispatch, WBServer.register, WBServer.sendSnapshot,
    FrontServer.getSymbolsStr, symbolsToJsonStr_eq, htext]

theorem onClose_threads {world next : World F} {client : Client}
    (h : step world (.onClose client) = some next) :
    Transition.run Threads.step ⟨world, none, none⟩ [.close client] =
      some ⟨next, none, none⟩ := by
  simp only [step, stepReading] at h
  split at h
  · rename_i hclient
    simp [Transition.run, Threads.step, hclient, h]
  · cases h

theorem front_threads {world next : World F} {package : Package F} {rest : List (Package F)}
    (hqueue : world.frontService = package :: rest) (h : step world .front = some next) :
    ∃ actions, Transition.run Threads.step ⟨{ world with frontService := rest }, none, none⟩
      actions = some ⟨next, none, none⟩ := by
  simp only [step, stepReading, hqueue] at h
  cases hfield : package.field with
  | symbolData data =>
    unfold dispatch FrontServer.handleResponseMessage at h
    simp only [EStateM.run_bind, run_record, hfield] at h
    by_cases hvalid : ∀ symbol ∈ data.symbols, symbol.ValidUtf8
    · obtain ⟨text, htext, hrun⟩ := run_processSymbolsPackage_valid package hvalid
        { world with frontService := rest, log := world.log ++ [.handled package] }
      rw [hrun] at h
      cases h
      have hleftover : ∀ later : World F, (FrontServer.broadcastSymbols package
          ⟨(world.symbols.merge data.symbols).2⟩).run later = .ok () { later with
            log := later.log ++ broadcastLog ⟨some package, text⟩ later.wssConSet } :=
        fun later => run_broadcastSymbols package htext later
      refine ⟨[.handle package, .broadcastLeftover], ?_⟩
      simp [Transition.run, Threads.step, hfield, Threads.run_mergePackage_valid package hvalid,
        dispatch, hleftover]
    · rw [run_processSymbolsPackage_invalid package hvalid] at h
      cases h
      refine ⟨[.handle package], ?_⟩
      simp [Transition.run, Threads.step, hfield,
        Threads.run_mergePackage_invalid package hvalid]
  | _ =>
    refine ⟨[.handle package], ?_⟩
    simp [Transition.run, Threads.step, hfield, h]

end Refinement

/-- Whatever the order of the steps of both threads, every connection gets its
snapshot first if and only if nothing is broadcast between a registration and the
snapshot for it. -/
theorem snapshot_first_iff [Double F] {actions : List (Action F)} {threads : Threads F}
    (hrun : Transition.run Threads.step (Threads.initial F) actions = some threads) :
    (∀ client message, (Log.messages client threads.world.log).head? = some message →
      message.cause = none) ↔ ¬ Interrupted actions := by
  unfold Interrupted
  rw [Bool.not_eq_true]
  exact (Threads.run_tracks hrun).first_iff

/-- Two clients, the second of which is told of an update before its snapshot. -/
def racingRun : List (Action ℚ) :=
  [.register, .snapshot, .register, .handle (enhancedPackage 0 zeroMemory), .snapshot]

/-- Two clients open while packages are handled. Only the merge of an announcement falls
between a registration and the snapshot for it. -/
def orderlyRun : List (Action ℚ) :=
  [.register, .snapshot, .handle (enhancedPackage 0 zeroMemory), .register,
    .handle (announcement ℚ 1 (.ofLiteral "BTC")), .snapshot, .broadcastLeftover,
    .handle (enhancedPackage 2 zeroMemory), .close 0, .handle (enhancedPackage 3 zeroMemory)]

theorem snapshot_first_iff_sample :
    ∃ threads, Transition.run Threads.step (Threads.initial ℚ) orderlyRun = some threads ∧
      (Log.messages 0 threads.world.log).length = 4 ∧
      (Log.messages 1 threads.world.log).length = 4 ∧
      ∀ client message, (Log.messages client threads.world.log).head? = some message →
        message.cause = none := by
  obtain ⟨threads, hrun, hfirst, hsecond⟩ : ∃ threads,
      Transition.run Threads.step (Threads.initial ℚ) orderlyRun = some threads ∧
        (Log.messages 0 threads.world.log).length = 4 ∧
        (Log.messages 1 threads.world.log).length = 4 :=
    Transition.run_satisfies (by decide +kernel)
  exact ⟨threads, hrun, hfirst, hsecond, (snapshot_first_iff hrun).mpr (by decide +kernel)⟩

theorem broadcast_before_snapshot :
    ∃ threads, Transition.run Threads.step (Threads.initial ℚ) racingRun = some threads ∧
      ∃ message, (Log.messages 1 threads.world.log).head? = some message ∧
        message.cause ≠ none := by
  obtain ⟨threads, hrun, hread⟩ :
      ∃ threads, Transition.run Threads.step (Threads.initial ℚ) racingRun = some threads ∧
        ((Log.messages 1 threads.world.log).head?.any fun message => message.cause.isSome) = true :=
    Transition.run_satisfies (by decide +kernel)
  obtain ⟨message, hhead, hcause⟩ := (Option.any_eq_true _ _).mp hread
  exact ⟨threads, hrun, message, hhead, Option.isSome_iff_ne_none.mp hcause⟩

end MarketServer

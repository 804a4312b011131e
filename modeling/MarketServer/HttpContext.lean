import MarketServer.HttpParser
import MarketServer.WebSocketHandshake

/-! What a request is answered with by the two servers: the one of the clients upgrades the
connection or closes it, and the one of `rest_server.cpp` has handlers that never respond. -/
namespace MarketServer.UWS

/-- `std::bitset<512>` -/
abbrev BloomFilter := BitVec 512

namespace BloomFilter

def hash1 (key : Bytes) : Nat :=
  (((key.getD (key.length - 1) 0).toUInt64 - (.ofNat key.length : UInt64) <<< 3) &&& 511).toNat

def hash2 (key : Bytes) : Nat :=
  (((key.getD 0 0).toUInt64 + (.ofNat key.length : UInt64) <<< 4) &&& 511).toNat

def hash3 (key : Bytes) : Nat :=
  (((key.getD (key.length - 2) 0).toUInt64 - (97 : UInt64) - (.ofNat key.length : UInt64) <<< 5) &&&
    511).toNat

def test (filter : BloomFilter) (i : Nat) : Bool := filter.getLsbD i

def set (filter : BloomFilter) (i : Nat) : BloomFilter := filter ||| BitVec.twoPow 512 i

def mightHave (filter : BloomFilter) (key : Bytes) : Bool :=
  filter.test (hash1 key) && filter.test (hash2 key) &&
    (key.length < 2 || filter.test (hash3 key))

def add (filter : BloomFilter) (key : Bytes) : BloomFilter :=
  let filter := (filter.set (hash1 key)).set (hash2 key)
  if 2 ≤ key.length then filter.set (hash3 key) else filter

theorem test_set_of_test {filter : BloomFilter} {i : Nat} (j : Nat) (h : filter.test i = true) :
    (filter.set j).test i = true := by
  rw [test, set, BitVec.getLsbD_or]
  exact Bool.or_eq_true_iff.mpr (.inl h)

theorem test_set_self (filter : BloomFilter) {i : Nat} (h : i < 512) :
    (filter.set i).test i = true := by
  rw [test, set, BitVec.getLsbD_or, BitVec.getLsbD_twoPow]
  simp [h]

theorem masked_lt (value : UInt64) : (value &&& 511).toNat < 512 := by
  rw [UInt64.toNat_and]
  exact Nat.lt_succ_of_le Nat.and_le_right

theorem test_add_of_test {filter : BloomFilter} {i : Nat} (key : Bytes) (h : filter.test i = true) :
    (filter.add key).test i = true := by
  rw [add]
  split
  · exact test_set_of_test _ (test_set_of_test _ (test_set_of_test _ h))
  · exact test_set_of_test _ (test_set_of_test _ h)

theorem mightHave_add_of_mightHave {filter : BloomFilter} {key : Bytes} (other : Bytes)
    (h : filter.mightHave key = true) : (filter.add other).mightHave key = true := by
  simp only [mightHave, Bool.and_eq_true, Bool.or_eq_true] at h ⊢
  obtain ⟨⟨h1, h2⟩, h3⟩ := h
  exact ⟨⟨test_add_of_test other h1, test_add_of_test other h2⟩,
    h3.imp_right (test_add_of_test other)⟩

theorem mightHave_add (filter : BloomFilter) (key : Bytes) :
    (filter.add key).mightHave key = true := by
  have h1 : ((filter.set (hash1 key)).set (hash2 key)).test (hash1 key) = true :=
    test_set_of_test _ (test_set_self _ (masked_lt _))
  have h2 : ((filter.set (hash1 key)).set (hash2 key)).test (hash2 key) = true :=
    test_set_self _ (masked_lt _)
  simp only [mightHave, Bool.and_eq_true, Bool.or_eq_true, decide_eq_true_eq]
  rw [add]
  split
  · exact ⟨⟨test_set_of_test _ h1, test_set_of_test _ h2⟩, .inr (test_set_self _ (masked_lt _))⟩
  · exact ⟨⟨h1, h2⟩, .inl (by omega)⟩

/-- The filter has no key that it denies. -/
theorem mightHave_of_mem {keys : List Bytes} {key : Bytes} (hkey : key ∈ keys)
    (filter : BloomFilter) : (keys.foldl add filter).mightHave key = true := by
  have hkept (others : List Bytes) {filter : BloomFilter} (h : filter.mightHave key = true) :
      (others.foldl add filter).mightHave key = true := by
    induction others generalizing filter with
    | nil => exact h
    | cons other others ih => exact ih (mightHave_add_of_mightHave other h)
  obtain ⟨before, behind, rfl⟩ := List.append_of_mem hkey
  rw [List.foldl_append, List.foldl_cons]
  exact hkept behind (mightHave_add _ key)

end BloomFilter

namespace HttpParser.HttpRequest

/-- The loops over the headers stop at an empty key. -/
def listed (request : HttpRequest) : List Header :=
  request.headers.takeWhile fun header => !header.key.isEmpty

def bf (request : HttpRequest) : BloomFilter :=
  (request.listed.map Header.key).foldl BloomFilter.add 0

/-- The first header with the key. -/
def field (request : HttpRequest) (key : Bytes) : Bytes :=
  ((request.listed.find? (·.key == key)).map Header.value).getD []

def getHeader (request : HttpRequest) (lowerCasedHeader : Bytes) : Bytes :=
  if request.bf.mightHave lowerCasedHeader then request.field lowerCasedHeader else []

theorem getHeader_eq (request : HttpRequest) (key : Bytes) :
    request.getHeader key = request.field key := by
  rw [getHeader]
  split
  · rfl
  · rename_i hdenied
    have hmissing : request.listed.find? (·.key == key) = none := by
      refine List.find?_eq_none.mpr fun header hheader hkey => hdenied ?_
      have hmem : key ∈ request.listed.map Header.key :=
        List.mem_map.mpr ⟨header, hheader, beq_iff_eq.mp hkey⟩
      exact BloomFilter.mightHave_of_mem hmem 0
    rw [field, hmissing]
    rfl

end HttpParser.HttpRequest

open HttpParser

/-- `route` among methods with the one pattern `/*`: any url but an empty one. -/
def HttpRouter.route (methods : List Bytes) (method url : Bytes) : Bool :=
  methods.contains method && !url.isEmpty

namespace HttpResponse

def writeStatus (status : Bytes) : Bytes := Bytes.ofLiteral "HTTP/1.1 " ++ status ++ [13, 10]

def writeHeader (key value : Bytes) : Bytes := key ++ Bytes.ofLiteral ": " ++ value ++ [13, 10]

def writeContinue : Bytes := Bytes.ofLiteral "HTTP/1.1 100 Continue" ++ [13, 10, 13, 10]

/-- The response of `upgrade` without compression, which these servers leave disabled. -/
def upgrade (secWebSocketAccept secWebSocketProtocol : Bytes) : Bytes :=
  writeStatus (.ofLiteral "101 Switching Protocols") ++
    writeHeader (.ofLiteral "Upgrade") (.ofLiteral "websocket") ++
    writeHeader (.ofLiteral "Connection") (.ofLiteral "Upgrade") ++
    writeHeader (.ofLiteral "Sec-WebSocket-Accept") secWebSocketAccept ++
    (if secWebSocketProtocol.isEmpty then [] else
      writeHeader (.ofLiteral "Sec-WebSocket-Protocol")
        (secWebSocketProtocol.takeWhile (· != 44))) ++
    writeHeader (.ofLiteral "uWebSockets") (.ofLiteral "18") ++ [13, 10]

end HttpResponse

namespace HttpContext

/-- An accepted connection: `terminated` is the end of the whole process. -/
inductive Opening where
  | reading (fallback : Bytes)
  | upgraded (response : Bytes)
  | closed
  | terminated
  deriving DecidableEq, Repr

/-- What the handler of `onHttp` writes before it calls that of the application. -/
def continued (request : HttpRequest) : Bytes :=
  if request.getHeader (.ofLiteral "expect") = .ofLiteral "100-continue" then
    HttpResponse.writeContinue else []

/-- The handler of `ws` behind the router of `wb_server.cpp`. -/
def onWebSocketRequest (request : HttpRequest) : Opening :=
  if HttpRouter.route [.ofLiteral "get"] request.getMethod request.getUrl then
    let secWebSocketKey := request.getHeader (.ofLiteral "sec-websocket-key")
    if secWebSocketKey.length = 24 then
      .upgraded (continued request ++
        HttpResponse.upgrade (WebSocketHandshake.generate secWebSocketKey)
          (request.getHeader (.ofLiteral "sec-websocket-protocol")))
    else .closed
  else .closed

/-- The router of `rest_server.cpp`. Its handlers return without a response, which the context does
not forgive. -/
def onRestRequest (request : HttpRequest) : Opening :=
  if HttpRouter.route [.ofLiteral "get", .ofLiteral "post", .ofLiteral "delete", .ofLiteral "put"]
      request.getMethod request.getUrl then .terminated
  else .closed

section
variable (onRequest : HttpRequest → Opening)

def opening : Parsing → Opening
  | .reading fallback => .reading fallback
  | .asked request => onRequest request
  | .failed => .closed

def onData : Opening → Bytes → Opening
  | .reading fallback, data => opening onRequest (consumePostPadded fallback data)
  | state, _ => state

variable {onRequest}

theorem foldl_onData (hanswers : ∀ request fallback, onRequest request ≠ .reading fallback)
    (pieces : List Bytes) (parsing : Parsing) :
    pieces.foldl (onData onRequest) (opening onRequest parsing) =
      opening onRequest (pieces.foldl Parsing.feed parsing) := by
  induction pieces generalizing parsing with
  | nil => rfl
  | cons data pieces ih =>
    have hstep : onData onRequest (opening onRequest parsing) data =
        opening onRequest (parsing.feed data) := by
      cases parsing with
      | reading fallback => rfl
      | failed => rfl
      | asked request =>
        change onData onRequest (onRequest request) data = onRequest request
        cases hanswer : onRequest request with
        | reading fallback => exact absurd hanswer (hanswers request fallback)
        | upgraded response => rfl
        | closed => rfl
        | terminated => rfl
    rw [List.foldl_cons, hstep, ih, List.foldl_cons]

/-- A head that the parser can hold has its answer, whatever pieces it arrives in. -/
theorem answered (hanswers : ∀ request fallback, onRequest request ≠ .reading fallback)
    (head : Head) (rest : Bytes) {first : Bytes} {pieces : List Bytes} (hfirst : first ≠ [])
    (h : (first :: pieces).flatten = head.text ++ rest)
    (hfits : head.text.length ≤ MAX_FALLBACK_SIZE ∨ head.text.length ≤ first.length) :
    (first :: pieces).foldl (onData onRequest) (.reading []) = onRequest head.request := by
  have hasked := (asked_iff head rest hfirst h).mpr hfits
  have hrun := foldl_onData hanswers (first :: pieces) (.reading [])
  rw [hasked] at hrun
  exact hrun

/-- An answer other than closing is to a head that was sent. -/
theorem head_of_answer (hanswers : ∀ request fallback, onRequest request ≠ .reading fallback)
    {pieces : List Bytes} {answer : Opening}
    (h : pieces.foldl (onData onRequest) (.reading []) = answer) (hclosed : answer ≠ .closed)
    (hreading : ∀ fallback, answer ≠ .reading fallback) :
    ∃ (head : Head) (rest : Bytes), pieces.flatten = head.text ++ rest ∧
      onRequest head.request = answer := by
  have hrun := foldl_onData hanswers pieces (.reading [])
  rw [opening, h] at hrun
  cases hparsing : pieces.foldl Parsing.feed (.reading []) with
  | reading fallback =>
    rw [hparsing] at hrun
    exact absurd hrun (hreading fallback)
  | failed =>
    rw [hparsing] at hrun
    exact absurd hrun hclosed
  | asked request =>
    rw [hparsing] at hrun
    obtain ⟨head, rest, hsent, rfl⟩ := head_of_asked hparsing
    exact ⟨head, rest, hsent, hrun.symm⟩

/-- As long as the context reads, no head is complete. -/
theorem short_of_reading (hanswers : ∀ request fallback, onRequest request ≠ .reading fallback)
    {pieces : List Bytes} {fallback : Bytes}
    (h : pieces.foldl (onData onRequest) (.reading []) = .reading fallback) {head : Head}
    {rest : Bytes} (hpieces : pieces.flatten <+: head.text ++ rest) :
    pieces.flatten.length < head.text.length := by
  have hrun := foldl_onData hanswers pieces (.reading [])
  rw [opening, h] at hrun
  cases hparsing : pieces.foldl Parsing.feed (.reading []) with
  | reading next =>
    have hwaits := waits_of_reading Waits.nil hparsing
    rw [List.nil_append] at hwaits
    by_contra hlong
    obtain ⟨behind, hhead⟩ := getHeaders_of_long hpieces (Nat.not_lt.mp hlong)
    exact absurd (hwaits.incomplete.symm.trans hhead) (by simp)
  | failed =>
    rw [hparsing] at hrun
    cases hrun
  | asked request =>
    rw [hparsing] at hrun
    exact absurd hrun.symm (hanswers request fallback)

end

theorem onWebSocketRequest_ne (request : HttpRequest) (fallback : Bytes) :
    onWebSocketRequest request ≠ .reading fallback := by
  rw [onWebSocketRequest]
  split
  · dsimp only
    split <;> simp
  · simp

theorem onRestRequest_ne (request : HttpRequest) (fallback : Bytes) :
    onRestRequest request ≠ .reading fallback := by
  rw [onRestRequest]
  split <;> simp

/-- What the protocol asks the server of the clients to respond. -/
def webSocketAnswer (request : HttpRequest) : Opening :=
  let key := request.field (.ofLiteral "sec-websocket-key")
  if request.getMethod = .ofLiteral "get" ∧ request.getUrl ≠ [] ∧ key.length = 24 then
    .upgraded ((if request.field (.ofLiteral "expect") = .ofLiteral "100-continue" then
        HttpResponse.writeContinue else []) ++
      HttpResponse.upgrade (Library.Base64.encode
          (Library.Sha1.hash (key ++ WebSocketHandshake.guid)))
        (request.field (.ofLiteral "sec-websocket-protocol")))
  else .closed

theorem route_iff (methods : List Bytes) (method url : Bytes) :
    HttpRouter.route methods method url = true ↔ method ∈ methods ∧ url ≠ [] := by
  simp [HttpRouter.route]

theorem onWebSocketRequest_eq (request : HttpRequest) :
    onWebSocketRequest request = webSocketAnswer request := by
  simp only [onWebSocketRequest, webSocketAnswer, route_iff, List.mem_singleton,
    HttpRequest.getHeader_eq, continued]
  by_cases hroute : request.getMethod = .ofLiteral "get" ∧ request.getUrl ≠ []
  · rw [if_pos hroute]
    by_cases hkey : (request.field (.ofLiteral "sec-websocket-key")).length = 24
    · have hanswer : request.getMethod = .ofLiteral "get" ∧ request.getUrl ≠ [] ∧
          (request.field (.ofLiteral "sec-websocket-key")).length = 24 :=
        ⟨hroute.1, hroute.2, hkey⟩
      rw [if_pos hkey, if_pos hanswer, WebSocketHandshake.generate_eq hkey]
    · rw [if_neg hkey, if_neg fun h => hkey h.2.2]
  · rw [if_neg hroute, if_neg fun h => hroute ⟨h.1, h.2.1⟩]

/-- A client gets the answer to its own head, whatever pieces it arrives in. -/
theorem webSocket_answered (head : Head) (rest : Bytes) {first : Bytes} {pieces : List Bytes}
    (hfirst : first ≠ []) (h : (first :: pieces).flatten = head.text ++ rest)
    (hfits : head.text.length ≤ MAX_FALLBACK_SIZE ∨ head.text.length ≤ first.length) :
    (first :: pieces).foldl (onData onWebSocketRequest) (.reading []) =
      webSocketAnswer head.request := by
  rw [answered onWebSocketRequest_ne head rest hfirst h hfits, onWebSocketRequest_eq]

/-- A request to the other server, whatever pieces it arrives in, ends the process, and any
other head closes the connection. -/
theorem rest_terminated_iff (head : Head) (rest : Bytes) {first : Bytes} {pieces : List Bytes}
    (hfirst : first ≠ []) (h : (first :: pieces).flatten = head.text ++ rest)
    (hfits : head.text.length ≤ MAX_FALLBACK_SIZE ∨ head.text.length ≤ first.length) :
    ((first :: pieces).foldl (onData onRestRequest) (.reading []) = .terminated ↔
        head.request.getMethod ∈ [Bytes.ofLiteral "get", .ofLiteral "post", .ofLiteral "delete",
          .ofLiteral "put"] ∧ head.request.getUrl ≠ []) ∧
      ((first :: pieces).foldl (onData onRestRequest) (.reading []) = .closed ↔
        ¬ (head.request.getMethod ∈ [Bytes.ofLiteral "get", .ofLiteral "post", .ofLiteral "delete",
          .ofLiteral "put"] ∧ head.request.getUrl ≠ [])) := by
  rw [answered onRestRequest_ne head rest hfirst h hfits, onRestRequest, ← route_iff]
  split
  · rename_i hroute
    exact ⟨iff_of_true rfl hroute, iff_of_false (by simp) fun hnot => hnot hroute⟩
  · rename_i hroute
    exact ⟨iff_of_false (by simp) hroute, iff_of_true rfl hroute⟩

theorem webSocket_answered_sample :
    [sampleHead.text.take 30, sampleHead.text.drop 30].foldl (onData onWebSocketRequest)
        (.reading []) = webSocketAnswer sampleHead.request ∧
      webSocketAnswer sampleHead.request = .upgraded (.ofLiteral
        ("HTTP/1.1 101 Switching Protocols\r\nUpgrade: websocket\r\nConnection: Upgrade\r\n" ++
          "Sec-WebSocket-Accept: s3pPLMBiTxaQ9kYGzzhZRbK+xOo=\r\nuWebSockets: 18\r\n\r\n")) :=
  ⟨webSocket_answered sampleHead [] (by decide +kernel) (by decide +kernel) (by decide +kernel),
    (onWebSocketRequest_eq sampleHead.request).symm.trans (by decide +kernel)⟩

theorem rest_terminated_iff_sample :
    [sampleHead.text.take 30, sampleHead.text.drop 30].foldl (onData onRestRequest)
      (.reading []) = .terminated :=
  (rest_terminated_iff sampleHead [] (by decide +kernel) (by decide +kernel)
    (by decide +kernel)).1.mpr (by decide +kernel)

end HttpContext

end MarketServer.UWS

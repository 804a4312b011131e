import MarketServer.HttpContext

/-! Requests as clients write them, and what the server of the clients makes of them. -/
namespace MarketServer.UWS
open HttpParser HttpContext

/-- A header of a request. -/
structure Field where
  key : Bytes
  value : Bytes
  key_ne : key ≠ []
  isKey_key : ∀ c ∈ key, isKey c = true
  isSkipped_value : ∀ c ∈ value.head?, isSkipped c = false
  value_ne : ∀ c ∈ value, (c != 13) = true

namespace Field

def text (field : Field) : Bytes := field.key ++ .ofLiteral ": " ++ field.value ++ [13, 10]

theorem isSkipped_space : ∀ c ∈ [(32 : UInt8)], isSkipped c = true := by decide +kernel

theorem colon_ne_return : (58 : UInt8) ≠ 13 := by decide +kernel

def line (field : Field) : HeaderLine where
  key := field.key
  stop := 58
  skipped := [32]
  value := field.value
  isKey_key := field.isKey_key
  isKey_stop := rfl
  stop_ne := colon_ne_return
  isSkipped_skipped := isSkipped_space
  isSkipped_value := field.isSkipped_value
  value_ne := field.value_ne

end Field

def version : Bytes := .ofLiteral " HTTP/1.1"

/-- A request with no body. -/
structure ClientRequest where
  method : Bytes
  path : Bytes
  fields : List Field
  isKey_method : ∀ c ∈ method, isKey c = true
  path_ne : path ≠ []
  isSkipped_path : ∀ c ∈ path.head?, isSkipped c = false
  path_ne_return : ∀ c ∈ path, (c != 13) = true
  fields_lt : fields.length + 1 < MAX_HEADERS

namespace ClientRequest

def text (request : ClientRequest) : Bytes :=
  request.method ++ [32] ++ request.path ++ version ++ [13, 10] ++
    request.fields.flatMap Field.text ++ [13, 10]

/-- The value of the first header with the key, in any case. -/
def value (request : ClientRequest) (key : Bytes) : Bytes :=
  ((request.fields.find? fun field => field.key.map lower == key).map Field.value).getD []

theorem space_ne_return : (32 : UInt8) ≠ 13 := by decide +kernel

theorem isSkipped_url (request : ClientRequest) :
    ∀ c ∈ (request.path ++ version).head?, isSkipped c = false := by
  intro c hc
  rw [List.head?_append_of_ne_nil _ request.path_ne] at hc
  exact request.isSkipped_path c hc

theorem url_ne_return (request : ClientRequest) :
    ∀ c ∈ request.path ++ version, (c != 13) = true := by
  intro c hc
  have hversion : ∀ c ∈ version, (c != 13) = true := by decide +kernel
  exact (List.mem_append.mp hc).elim (request.path_ne_return c) (hversion c)

theorem length_lines (request : ClientRequest) (line : HeaderLine) :
    (line :: request.fields.map Field.line).length < MAX_HEADERS := by
  rw [List.length_cons, List.length_map]
  exact request.fields_lt

def line (request : ClientRequest) : HeaderLine where
  key := request.method
  stop := 32
  skipped := []
  value := request.path ++ version
  isKey_key := request.isKey_method
  isKey_stop := rfl
  stop_ne := space_ne_return
  isSkipped_skipped := List.forall_mem_nil _
  isSkipped_value := request.isSkipped_url
  value_ne := request.url_ne_return

theorem isKey_nil : ∀ c ∈ ([] : Bytes), isKey c = true := List.forall_mem_nil _

def head (request : ClientRequest) : Head where
  lines := request.line :: request.fields.map Field.line
  last := []
  lines_ne := List.cons_ne_nil _ _
  lines_lt := request.length_lines request.line
  isKey_last := isKey_nil

theorem text_line (field : Field) : field.line.text = field.text := by
  have hseparator : Bytes.ofLiteral ": " = [58, 32] := by decide +kernel
  simp [HeaderLine.text, Field.line, Field.text, hseparator]

theorem text_head (request : ClientRequest) : request.head.text = request.text := by
  have hfields : (request.fields.map Field.line).flatMap HeaderLine.text =
      request.fields.flatMap Field.text := by
    rw [List.flatMap_map]
    exact List.flatMap_congr fun field _ => text_line field
  simp only [Head.text, head, List.flatMap_cons, hfields, text]
  simp [HeaderLine.text, line]

theorem getMethod_head (request : ClientRequest) :
    request.head.request.getMethod = request.method.map lower := rfl

theorem getUrl_requestOf (line : Header) (headers : List Header) :
    (requestOf (line :: headers)).getUrl =
      (line.value.take (line.value.length - 9)).takeWhile (· != 63) :=
  (List.prefix_iff_eq_take.mp (List.takeWhile_prefix _)).symm

/-- What is behind the question mark does not belong to the url. -/
theorem getUrl_head (request : ClientRequest) :
    request.head.request.getUrl = request.path.takeWhile (· != 63) := by
  have hversion : version.length = 9 := by decide +kernel
  have hpath : (request.path ++ version).take ((request.path ++ version).length - 9) =
      request.path := by
    rw [List.length_append, hversion, Nat.add_sub_cancel, List.take_left]
  exact (getUrl_requestOf ⟨_, request.path ++ version⟩ _).trans (congrArg (List.takeWhile _) hpath)

theorem field_head (request : ClientRequest) (key : Bytes) :
    request.head.request.field key = request.value key := by
  have hheaders : request.head.request.headers =
      request.fields.map fun field => ⟨field.key.map lower, field.value⟩ := by
    change (request.fields.map Field.line).map HeaderLine.header = _
    rw [List.map_map]
    rfl
  have hlisted : request.head.request.listed = request.head.request.headers := by
    refine List.takeWhile_eq_self_iff.mpr fun header hheader => ?_
    rw [hheaders] at hheader
    obtain ⟨field, -, rfl⟩ := List.mem_map.mp hheader
    simp [field.key_ne]
  rw [HttpRequest.field, hlisted, hheaders, List.find?_map, Option.map_map]
  rfl

/-- A client that asks as the protocol has it is upgraded, with the response that it expects. -/
theorem upgraded_of_request (request : ClientRequest) (rest : Bytes) {first : Bytes}
    {pieces : List Bytes} (hfirst : first ≠ [])
    (h : (first :: pieces).flatten = request.text ++ rest)
    (hfits : request.text.length ≤ MAX_FALLBACK_SIZE)
    (hmethod : request.method.map lower = Bytes.ofLiteral "get")
    (hpath : request.path.head? ≠ some 63)
    (hkey : (request.value (.ofLiteral "sec-websocket-key")).length = 24) :
    (first :: pieces).foldl (onData onWebSocketRequest) (.reading []) = .upgraded
      ((if request.value (.ofLiteral "expect") = .ofLiteral "100-continue" then
          HttpResponse.writeContinue else []) ++
        HttpResponse.upgrade (Library.Base64.encode (Library.Sha1.hash
            (request.value (.ofLiteral "sec-websocket-key") ++ WebSocketHandshake.guid)))
          (request.value (.ofLiteral "sec-websocket-protocol"))) := by
  rw [← text_head] at h hfits
  have hurl : request.path.takeWhile (· != 63) ≠ [] := by
    cases hstart : request.path with
    | nil => exact absurd hstart request.path_ne
    | cons c others =>
      have hc : (c != 63) = true := by
        rw [hstart] at hpath
        simpa using hpath
      rw [List.takeWhile_cons, if_pos hc]
      exact List.cons_ne_nil _ _
  rw [webSocket_answered request.head rest hfirst h (.inl hfits), webSocketAnswer]
  simp only [field_head, getMethod_head, getUrl_head]
  rw [if_pos ⟨hmethod, hurl, hkey⟩]

def sample : ClientRequest where
  method := [71, 69, 84]
  path := .ofLiteral "/chat"
  fields := [
    { key := .ofLiteral "sec-websocket-key", value := .ofLiteral "x3JJHMbDL1EzLkh9GBhXDw=="
      key_ne := by decide +kernel, isKey_key := by decide +kernel
      isSkipped_value := by decide +kernel, value_ne := by decide +kernel },
    { key := .ofLiteral "Sec-WebSocket-Protocol", value := .ofLiteral "chat, superchat"
      key_ne := by decide +kernel, isKey_key := by decide +kernel
      isSkipped_value := by decide +kernel, value_ne := by decide +kernel }]
  isKey_method := by decide +kernel
  path_ne := by decide +kernel
  isSkipped_path := by decide +kernel
  path_ne_return := by decide +kernel
  fields_lt := by decide +kernel

example : sample.text = .ofLiteral ("GET /chat HTTP/1.1\r\n" ++
    "sec-websocket-key: x3JJHMbDL1EzLkh9GBhXDw==\r\n" ++
    "Sec-WebSocket-Protocol: chat, superchat\r\n\r\n") := by
  decide +kernel

theorem upgraded_of_request_sample :
    [sample.text.take 40, sample.text.drop 40].foldl (onData onWebSocketRequest) (.reading []) =
      .upgraded (HttpResponse.upgrade (Library.Base64.encode (Library.Sha1.hash
        (Bytes.ofLiteral "x3JJHMbDL1EzLkh9GBhXDw==" ++ WebSocketHandshake.guid)))
          (.ofLiteral "chat, superchat")) := by
  have hkey : sample.value (.ofLiteral "sec-websocket-key") =
      .ofLiteral "x3JJHMbDL1EzLkh9GBhXDw==" := by decide +kernel
  have hprotocol : sample.value (.ofLiteral "sec-websocket-protocol") =
      .ofLiteral "chat, superchat" := by decide +kernel
  have hexpect : ¬ sample.value (.ofLiteral "expect") = .ofLiteral "100-continue" := by
    decide +kernel
  have hpieces : [sample.text.take 40, sample.text.drop 40].flatten = sample.text ++ [] := by
    decide +kernel
  have hupgraded := upgraded_of_request sample [] (by decide +kernel) hpieces (by decide +kernel)
    (by decide +kernel) (by decide +kernel) (by decide +kernel)
  rw [hkey, hprotocol, if_neg hexpect, List.nil_append] at hupgraded
  exact hupgraded

end ClientRequest

end MarketServer.UWS

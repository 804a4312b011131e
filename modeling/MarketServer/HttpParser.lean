import MarketServer.Bytes
import Mathlib.Data.List.TakeWhile

/-! The head of a request, as `HttpParser.h` reads it: lines of a key and a value up to a blank
line, out of a buffer that a later piece may continue. -/
namespace MarketServer.UWS.HttpParser

/-- `struct HttpRequest::Header` -/
structure Header where
  key : Bytes
  value : Bytes
  deriving DecidableEq, Repr

/-- `(*postPaddedBuffer != ':') & (*postPaddedBuffer > 32)`, where a `char` has a sign -/
def isKey (c : UInt8) : Bool := c != 58 && 32 < c && c < 128

/-- `(*postPaddedBuffer == ':' || *postPaddedBuffer < 33) && *postPaddedBuffer != '\r'` -/
def isSkipped (c : UInt8) : Bool := (c == 58 || c < 33 || 128 ≤ c) && c != 13

/-- `*(postPaddedBuffer++) |= 32` -/
def lower (c : UInt8) : UInt8 := c ||| 32

inductive Line where
  | unfinished
  | blank (remaining : Bytes)
  | header (header : Header) (remaining : Bytes)
  deriving DecidableEq, Repr

/-- One turn of `getHeaders`. The buffer ends before its fence, which is a carriage return: it
stops the key and the skipping, and no line feed follows it. -/
def readLine (first : Bool) (buffer : Bytes) : Line :=
  match buffer.dropWhile isKey with
  | [] => .unfinished
  | stop :: rest =>
    if stop = 13 then
      match rest with
      | 10 :: remaining => if first then .unfinished else .blank remaining
      | _ => .unfinished
    else
      let text := rest.dropWhile isSkipped
      match text.dropWhile (· != 13) with
      | _ :: 10 :: remaining =>
        .header ⟨(buffer.takeWhile isKey).map lower, text.takeWhile (· != 13)⟩ remaining
      | _ => .unfinished

def MAX_HEADERS : Nat := 50

/-- The headers and what is behind them, or nothing as long as they are not complete. -/
def getHeaders : Nat → Bool → Bytes → Option (List Header × Bytes)
  | 0, _, _ => none
  | turns + 1, first, buffer =>
    match readLine first buffer with
    | .unfinished => none
    | .blank remaining => some ([], remaining)
    | .header header remaining =>
      (getHeaders turns false remaining).map fun (headers, rest) => (header :: headers, rest)

def lowerKey (line : Bytes) : Bytes := (line.takeWhile isKey).map lower ++ line.dropWhile isKey

/-- What `getHeaders` leaves in the buffer: the keys it came by are lowered in place. -/
def lowered : Nat → Bool → Bytes → Bytes
  | 0, _, buffer => buffer
  | turns + 1, first, buffer =>
    match readLine first buffer with
    | .header _ remaining =>
      lowerKey (buffer.take (buffer.length - remaining.length)) ++ lowered turns false remaining
    | _ => lowerKey buffer

theorem lower_lower (c : UInt8) : lower (lower c) = lower c := by
  rw [lower, lower, UInt8.or_assoc, UInt8.or_self]

theorem isKey_lower : ∀ {c : UInt8}, isKey c = true → isKey (lower c) = true := by
  have h : ∀ n : Fin 256, isKey (UInt8.ofFin n) = true → isKey (lower (UInt8.ofFin n)) = true := by
    decide +kernel
  intro c
  exact h c.toFin

theorem takeWhile_key {key : Bytes} (hkey : ∀ c ∈ key, isKey c = true) (rest : Bytes) :
    (key ++ rest).takeWhile isKey = key ++ rest.takeWhile isKey :=
  List.takeWhile_append_of_pos hkey

theorem dropWhile_key {key : Bytes} (hkey : ∀ c ∈ key, isKey c = true) (rest : Bytes) :
    (key ++ rest).dropWhile isKey = rest.dropWhile isKey :=
  List.dropWhile_append_of_pos hkey

theorem readLine_lower (first : Bool) {key : Bytes} (hkey : ∀ c ∈ key, isKey c = true)
    (rest : Bytes) : readLine first (key.map lower ++ rest) = readLine first (key ++ rest) := by
  have hlowered : ∀ c ∈ key.map lower, isKey c = true := by
    intro c hc
    obtain ⟨before, hmem, rfl⟩ := List.mem_map.mp hc
    exact isKey_lower (hkey before hmem)
  have hagain : (key.map lower).map lower = key.map lower := by
    rw [List.map_map]
    exact List.map_congr_left fun c _ => lower_lower c
  simp only [readLine, takeWhile_key hkey, dropWhile_key hkey, takeWhile_key hlowered,
    dropWhile_key hlowered, List.map_append, hagain]

theorem readLine_lowerKey (first : Bool) (line rest : Bytes) :
    readLine first (lowerKey line ++ rest) = readLine first (line ++ rest) := by
  have hkey : ∀ c ∈ line.takeWhile isKey, isKey c = true := fun _ => List.mem_takeWhile_imp
  rw [lowerKey, List.append_assoc, readLine_lower first hkey, ← List.append_assoc,
    List.takeWhile_append_dropWhile]

theorem length_lowerKey (line : Bytes) : (lowerKey line).length = line.length := by
  rw [lowerKey, List.length_append, List.length_map, ← List.length_append,
    List.takeWhile_append_dropWhile]

/-- A line with a header, up to its line feed. -/
structure HeaderLine where
  key : Bytes
  stop : UInt8
  skipped : Bytes
  value : Bytes
  isKey_key : ∀ c ∈ key, isKey c = true
  isKey_stop : isKey stop = false
  stop_ne : stop ≠ 13
  isSkipped_skipped : ∀ c ∈ skipped, isSkipped c = true
  isSkipped_value : ∀ c ∈ value.head?, isSkipped c = false
  value_ne : ∀ c ∈ value, (c != 13) = true

namespace HeaderLine

def text (line : HeaderLine) : Bytes :=
  line.key ++ line.stop :: (line.skipped ++ (line.value ++ [13, 10]))

def header (line : HeaderLine) : Header := ⟨line.key.map lower, line.value⟩

end HeaderLine

theorem dropWhile_skipped (line : HeaderLine) (rest : Bytes) :
    (line.skipped ++ (line.value ++ 13 :: rest)).dropWhile isSkipped =
      line.value ++ 13 :: rest := by
  rw [List.dropWhile_append_of_pos line.isSkipped_skipped]
  cases hvalue : line.value with
  | nil => rfl
  | cons c others =>
    have hc : isSkipped c = false := line.isSkipped_value c (by rw [hvalue]; rfl)
    rw [List.cons_append, List.dropWhile_cons_of_neg (by rw [hc]; exact Bool.false_ne_true)]

theorem readLine_text (first : Bool) (line : HeaderLine) (rest : Bytes) :
    readLine first (line.text ++ rest) = .header line.header rest := by
  have htext : line.text ++ rest =
      line.key ++ line.stop :: (line.skipped ++ (line.value ++ 13 :: 10 :: rest)) := by
    simp [HeaderLine.text]
  have hstop : ¬ isKey line.stop = true := by
    rw [line.isKey_stop]
    exact Bool.false_ne_true
  rw [htext, readLine, dropWhile_key line.isKey_key, takeWhile_key line.isKey_key,
    List.dropWhile_cons_of_neg hstop, List.takeWhile_cons_of_neg hstop]
  simp only [if_neg line.stop_ne, dropWhile_skipped]
  rw [List.dropWhile_append_of_pos line.value_ne, List.takeWhile_append_of_pos line.value_ne]
  simp [HeaderLine.header]

theorem readLine_last {key : Bytes} (hkey : ∀ c ∈ key, isKey c = true) (rest : Bytes) :
    readLine false (key ++ 13 :: 10 :: rest) = .blank rest := by
  rw [readLine, dropWhile_key hkey]
  rfl

theorem split_of_dropWhile {p : UInt8 → Bool} {buffer : Bytes} {stop : UInt8} {rest : Bytes}
    (h : buffer.dropWhile p = stop :: rest) :
    buffer = buffer.takeWhile p ++ stop :: rest ∧ p stop = false := by
  refine ⟨?_, ?_⟩
  · rw [← h, List.takeWhile_append_dropWhile]
  · have hstop := List.head_dropWhile_not p (l := buffer) (by rw [h]; exact List.cons_ne_nil _ _)
    simpa only [h, List.head_cons] using hstop

theorem head?_dropWhile (p : UInt8 → Bool) (buffer : Bytes) :
    ∀ c ∈ (buffer.dropWhile p).head?, p c = false := by
  intro c hc
  obtain ⟨rest, hrest⟩ := List.head?_eq_some_iff.mp hc
  exact (split_of_dropWhile hrest).2

/-- What `readLine` takes for a line. -/
theorem readLine_cases (first : Bool) (buffer : Bytes) :
    readLine first buffer = .unfinished ∨
    (∃ key rest, first = false ∧ (∀ c ∈ key, isKey c = true) ∧ buffer = key ++ 13 :: 10 :: rest) ∨
    ∃ (line : HeaderLine) (rest : Bytes), buffer = line.text ++ rest := by
  have hkey : ∀ c ∈ buffer.takeWhile isKey, isKey c = true := fun _ => List.mem_takeWhile_imp
  cases hdrop : buffer.dropWhile isKey with
  | nil => exact .inl (by rw [readLine, hdrop])
  | cons stop behind =>
    obtain ⟨hbuffer, hstop⟩ := split_of_dropWhile hdrop
    by_cases hreturn : stop = 13
    · subst hreturn
      rw [readLine, hdrop]
      simp only [if_true]
      split
      · rename_i rest
        cases first with
        | true => exact .inl rfl
        | false => exact .inr (.inl ⟨buffer.takeWhile isKey, rest, rfl, hkey, hbuffer⟩)
      · exact .inl rfl
    · have hskipped : ∀ c ∈ behind.takeWhile isSkipped, isSkipped c = true :=
        fun _ => List.mem_takeWhile_imp
      rw [readLine, hdrop]
      simp only [if_neg hreturn]
      split
      · rename_i carriage rest hfeed
        obtain ⟨htext, hcarriage⟩ := split_of_dropWhile hfeed
        have hcarriage' : carriage = 13 := by simpa using hcarriage
        subst hcarriage'
        refine .inr (.inr ⟨{
          key := buffer.takeWhile isKey
          stop := stop
          skipped := behind.takeWhile isSkipped
          value := (behind.dropWhile isSkipped).takeWhile (· != 13)
          isKey_key := hkey
          isKey_stop := hstop
          stop_ne := hreturn
          isSkipped_skipped := hskipped
          isSkipped_value := ?_
          value_ne := fun _ => List.mem_takeWhile_imp }, rest, ?_⟩)
        · intro c hc
          refine head?_dropWhile isSkipped behind c ?_
          rw [htext]
          exact List.mem_head?_append_of_mem_head? hc
        · calc buffer
            _ = buffer.takeWhile isKey ++ stop :: behind := hbuffer
            _ = buffer.takeWhile isKey ++ stop :: (behind.takeWhile isSkipped ++
                behind.dropWhile isSkipped) := by rw [List.takeWhile_append_dropWhile]
            _ = _ := by
              simp only [HeaderLine.text, List.append_assoc, List.cons_append, List.nil_append]
              rw [← htext]
      · exact .inl rfl

/-- A head in full: fewer lines than there are places, and a last key that no value follows. -/
structure Head where
  lines : List HeaderLine
  last : Bytes
  lines_ne : lines ≠ []
  lines_lt : lines.length < MAX_HEADERS
  isKey_last : ∀ c ∈ last, isKey c = true

namespace Head

def text (head : Head) : Bytes := head.lines.flatMap HeaderLine.text ++ (head.last ++ [13, 10])

def headers (head : Head) : List Header := head.lines.map HeaderLine.header

end Head

theorem getHeaders_lines {last : Bytes} (hlast : ∀ c ∈ last, isKey c = true) (rest : Bytes)
    (lines : List HeaderLine) {turns : Nat} (hturns : lines.length < turns) {first : Bool}
    (hfirst : first = true → lines ≠ []) :
    getHeaders turns first (lines.flatMap HeaderLine.text ++ (last ++ 13 :: 10 :: rest)) =
      some (lines.map HeaderLine.header, rest) := by
  induction lines generalizing turns first with
  | nil =>
    obtain ⟨turns, rfl⟩ := Nat.exists_eq_add_of_lt hturns
    have hsecond : first = false := by simpa using hfirst
    subst hsecond
    rw [List.flatMap_nil, List.nil_append, getHeaders, readLine_last hlast]
    rfl
  | cons line lines ih =>
    obtain ⟨turns, rfl⟩ := Nat.exists_eq_add_of_le' (Nat.one_le_of_lt hturns)
    rw [List.flatMap_cons, List.append_assoc, getHeaders, readLine_text]
    have hothers : getHeaders turns false _ = _ :=
      ih (Nat.lt_of_succ_lt_succ hturns) (fun h => Bool.noConfusion h)
    simp only [hothers]
    rfl

theorem lines_of_getHeaders {turns : Nat} {first : Bool} {buffer : Bytes} {headers : List Header}
    {rest : Bytes} (h : getHeaders turns first buffer = some (headers, rest)) :
    ∃ (lines : List HeaderLine) (last : Bytes), lines.length < turns ∧
      (first = true → lines ≠ []) ∧ (∀ c ∈ last, isKey c = true) ∧
      buffer = lines.flatMap HeaderLine.text ++ (last ++ 13 :: 10 :: rest) ∧
      headers = lines.map HeaderLine.header := by
  induction turns generalizing first buffer headers with
  | zero => simp [getHeaders] at h
  | succ turns ih =>
    rw [getHeaders] at h
    obtain hline | ⟨key, behind, rfl, hkey, rfl⟩ | ⟨line, behind, rfl⟩ :=
      readLine_cases first buffer
    · simp [hline] at h
    · simp only [readLine_last hkey, Option.some.injEq, Prod.mk.injEq] at h
      obtain ⟨rfl, rfl⟩ := h
      exact ⟨[], key, Nat.succ_pos turns, by simp, hkey, rfl, rfl⟩
    · simp only [readLine_text, Option.map_eq_some_iff] at h
      obtain ⟨⟨others, rest'⟩, hothers, heq⟩ := h
      obtain ⟨rfl, rfl⟩ := Prod.mk.inj heq
      obtain ⟨lines, last, hturns, -, hlast, rfl, rfl⟩ := ih hothers
      refine ⟨line :: lines, last, Nat.succ_lt_succ hturns, fun _ => List.cons_ne_nil _ _, hlast,
        ?_, rfl⟩
      rw [List.flatMap_cons, List.append_assoc]

theorem getHeaders_text (head : Head) (rest : Bytes) :
    getHeaders MAX_HEADERS true (head.text ++ rest) = some (head.headers, rest) := by
  have h := getHeaders_lines head.isKey_last rest head.lines head.lines_lt
    fun _ : true = true => head.lines_ne
  simpa only [Head.text, Head.headers, List.append_assoc, List.cons_append, List.nil_append] using h

theorem head_of_getHeaders {buffer : Bytes} {headers : List Header} {rest : Bytes}
    (h : getHeaders MAX_HEADERS true buffer = some (headers, rest)) :
    ∃ head : Head, buffer = head.text ++ rest ∧ headers = head.headers := by
  obtain ⟨lines, last, hturns, hlines, hlast, rfl, rfl⟩ := lines_of_getHeaders h
  exact ⟨⟨lines, last, hlines rfl, hturns, hlast⟩, by simp [Head.text], rfl⟩

/-- What was left in the buffer is read again as if it had not been touched. -/
theorem getHeaders_lowered (turns : Nat) (first : Bool) (buffer more : Bytes) :
    getHeaders turns first (lowered turns first buffer ++ more) =
      getHeaders turns first (buffer ++ more) := by
  induction turns generalizing first buffer with
  | zero => rfl
  | succ turns ih =>
    obtain hline | ⟨key, rest, rfl, hkey, rfl⟩ | ⟨line, rest, rfl⟩ := readLine_cases first buffer
    · simp only [lowered, hline, getHeaders, readLine_lowerKey]
    · simp only [lowered, readLine_last hkey, getHeaders, readLine_lowerKey]
    · simp only [lowered, readLine_text, List.length_append, Nat.add_sub_cancel,
        List.take_left, List.append_assoc, getHeaders, readLine_lowerKey, ih]

theorem length_lowered (turns : Nat) (first : Bool) (buffer : Bytes) :
    (lowered turns first buffer).length = buffer.length := by
  induction turns generalizing first buffer with
  | zero => rfl
  | succ turns ih =>
    obtain hline | ⟨key, rest, rfl, hkey, rfl⟩ | ⟨line, rest, rfl⟩ := readLine_cases first buffer
    · simp only [lowered, hline, length_lowerKey]
    · simp only [lowered, readLine_last hkey, length_lowerKey]
    · simp only [lowered, readLine_text, List.length_append, Nat.add_sub_cancel, List.take_left,
        length_lowerKey, ih]

/-- `struct HttpRequest`: its first header is the line with the method and the url. -/
structure HttpRequest where
  line : Header
  querySeparator : Nat
  headers : List Header
  deriving DecidableEq, Repr

/-- The request that the handler gets: the last nine characters of the first value are those of the
version. -/
def requestOf (headers : List Header) : HttpRequest :=
  let line := headers.headD ⟨[], []⟩
  let url := line.value.take (line.value.length - 9)
  ⟨⟨line.key, url⟩, (url.takeWhile (· != 63)).length, headers.tail⟩

namespace HttpRequest

def getMethod (request : HttpRequest) : Bytes := request.line.key

def getUrl (request : HttpRequest) : Bytes := request.line.value.take request.querySeparator

end HttpRequest

def MAX_FALLBACK_SIZE : Nat := 1024 * 4

/-- A connection up to its first request: none of the handlers of these servers leaves the socket
to the parser. -/
inductive Parsing where
  | reading (fallback : Bytes)
  | asked (request : HttpRequest)
  | failed
  deriving DecidableEq, Repr

def consumePostPadded (fallback data : Bytes) : Parsing :=
  if fallback.isEmpty then
    match getHeaders MAX_HEADERS true data with
    | some (headers, _) => .asked (requestOf headers)
    | none =>
      if data.length < MAX_FALLBACK_SIZE then .reading (lowered MAX_HEADERS true data) else .failed
  else
    let buffer := fallback ++ data.take (MAX_FALLBACK_SIZE - fallback.length)
    match getHeaders MAX_HEADERS true buffer with
    | some (headers, _) => .asked (requestOf headers)
    | none =>
      if buffer.length = MAX_FALLBACK_SIZE then .failed
      else .reading (lowered MAX_HEADERS true buffer)

def Parsing.feed : Parsing → Bytes → Parsing
  | .reading fallback, data => consumePostPadded fallback data
  | parsing, _ => parsing

def Head.request (head : Head) : HttpRequest := requestOf head.headers

/-- The fallback of a connection that has sent so much: the keys in it are lowered. -/
structure Waits (sent fallback : Bytes) : Prop where
  incomplete : getHeaders MAX_HEADERS true sent = none
  length : fallback.length = sent.length
  lt : sent.length < MAX_FALLBACK_SIZE
  resume : ∀ more, getHeaders MAX_HEADERS true (fallback ++ more) =
    getHeaders MAX_HEADERS true (sent ++ more)

theorem Waits.lowered {sent buffer : Bytes} (hlength : buffer.length = sent.length)
    (hlt : sent.length < MAX_FALLBACK_SIZE)
    (hresume : ∀ more, getHeaders MAX_HEADERS true (buffer ++ more) =
      getHeaders MAX_HEADERS true (sent ++ more))
    (hnone : getHeaders MAX_HEADERS true buffer = none) :
    Waits sent (lowered MAX_HEADERS true buffer) where
  incomplete := by simpa only [List.append_nil, hnone] using (hresume []).symm
  length := (length_lowered MAX_HEADERS true buffer).trans hlength
  lt := hlt
  resume more := (getHeaders_lowered MAX_HEADERS true buffer more).trans (hresume more)

theorem Waits.nil : Waits [] [] where
  incomplete := rfl
  length := rfl
  lt := by decide
  resume _ := rfl

theorem head_unique {head other : Head} {rest behind : Bytes}
    (h : head.text ++ rest = other.text ++ behind) :
    head.headers = other.headers ∧ rest = behind := by
  have hboth := (getHeaders_text head rest).symm.trans ((congrArg _ h).trans
    (getHeaders_text other behind))
  exact Prod.mk.inj (Option.some.inj hboth)

/-- A part of a head has no head. -/
theorem getHeaders_of_short {head : Head} {part rest : Bytes} (hpart : part <+: head.text ++ rest)
    (hshort : part.length < head.text.length) : getHeaders MAX_HEADERS true part = none := by
  cases hresult : getHeaders MAX_HEADERS true part with
  | none => rfl
  | some result =>
    obtain ⟨other, rfl, -⟩ := head_of_getHeaders hresult
    obtain ⟨behind, hbehind⟩ := hpart
    rw [List.append_assoc] at hbehind
    have hrest := (head_unique hbehind).2
    have hlength := congrArg List.length hbehind
    simp only [List.length_append, ← hrest] at hlength hshort
    omega

theorem getHeaders_of_long {head : Head} {part rest : Bytes} (hpart : part <+: head.text ++ rest)
    (hlong : head.text.length ≤ part.length) :
    ∃ behind, getHeaders MAX_HEADERS true part = some (head.headers, behind) := by
  have hhead : head.text <+: part :=
    List.prefix_of_prefix_length_le (List.prefix_append _ _) hpart hlong
  obtain ⟨behind, rfl⟩ := hhead
  exact ⟨behind, getHeaders_text head behind⟩

/-- A piece behind others. The buffer has the first of all that was sent. -/
theorem feed_later {sent fallback : Bytes} (h : Waits sent fallback) (hsent : sent ≠ [])
    (data : Bytes) :
    (∃ headers behind, getHeaders MAX_HEADERS true ((sent ++ data).take MAX_FALLBACK_SIZE) =
      some (headers, behind) ∧ consumePostPadded fallback data = .asked (requestOf headers)) ∨
    getHeaders MAX_HEADERS true ((sent ++ data).take MAX_FALLBACK_SIZE) = none ∧
      (MAX_FALLBACK_SIZE ≤ (sent ++ data).length ∧ consumePostPadded fallback data = .failed ∨
        ∃ next, Waits (sent ++ data) next ∧ consumePostPadded fallback data = .reading next) := by
  have hbuffer : (sent ++ data).take MAX_FALLBACK_SIZE =
      sent ++ data.take (MAX_FALLBACK_SIZE - fallback.length) := by
    rw [List.take_append, List.take_of_length_le h.lt.le, h.length]
  have hfallback : fallback.isEmpty = false := by
    rw [List.isEmpty_eq_false_iff, ← List.length_pos_iff_ne_nil, h.length]
    exact List.length_pos_iff_ne_nil.mpr hsent
  have hparse := h.resume (data.take (MAX_FALLBACK_SIZE - fallback.length))
  rw [← hbuffer] at hparse
  simp only [consumePostPadded, hfallback, Bool.false_eq_true, if_false, hparse]
  cases hresult : getHeaders MAX_HEADERS true ((sent ++ data).take MAX_FALLBACK_SIZE) with
  | some result => exact .inl ⟨result.1, result.2, rfl, rfl⟩
  | none =>
    refine .inr ⟨rfl, ?_⟩
    have hlength : (fallback ++ data.take (MAX_FALLBACK_SIZE - fallback.length)).length =
        min MAX_FALLBACK_SIZE (sent ++ data).length := by
      rw [← List.length_take, hbuffer, List.length_append, List.length_append, h.length]
    by_cases hfull : (fallback ++ data.take (MAX_FALLBACK_SIZE - fallback.length)).length =
        MAX_FALLBACK_SIZE
    · exact .inl ⟨by omega, if_pos hfull⟩
    · have hlt : (sent ++ data).length < MAX_FALLBACK_SIZE := by omega
      have hall : data.take (MAX_FALLBACK_SIZE - fallback.length) = data := by
        refine List.take_of_length_le ?_
        rw [List.length_append] at hlt
        rw [h.length]
        omega
      refine .inr ⟨_, ?_, if_neg hfull⟩
      refine Waits.lowered (by omega) hlt (fun more => ?_) (hparse.trans hresult)
      rw [hall, List.append_assoc, List.append_assoc, h.resume]

theorem feed_first (data : Bytes) :
    (∃ headers behind, getHeaders MAX_HEADERS true data = some (headers, behind) ∧
      consumePostPadded [] data = .asked (requestOf headers)) ∨
    getHeaders MAX_HEADERS true data = none ∧
      (MAX_FALLBACK_SIZE ≤ data.length ∧ consumePostPadded [] data = .failed ∨
        ∃ next, Waits data next ∧ consumePostPadded [] data = .reading next) := by
  simp only [consumePostPadded, List.isEmpty_nil, if_true]
  cases hresult : getHeaders MAX_HEADERS true data with
  | some result => exact .inl ⟨result.1, result.2, rfl, rfl⟩
  | none =>
    refine .inr ⟨rfl, ?_⟩
    by_cases hlt : data.length < MAX_FALLBACK_SIZE
    · exact .inr ⟨_, Waits.lowered rfl hlt (fun _ => rfl) hresult, if_pos hlt⟩
    · exact .inl ⟨Nat.not_lt.mp hlt, if_neg hlt⟩

theorem foldl_asked (pieces : List Bytes) (request : HttpRequest) :
    pieces.foldl Parsing.feed (.asked request) = .asked request := by
  induction pieces with
  | nil => rfl
  | cons _ _ ih => exact ih

theorem foldl_failed (pieces : List Bytes) : pieces.foldl Parsing.feed .failed = .failed := by
  induction pieces with
  | nil => rfl
  | cons _ _ ih => exact ih

theorem asked_later {head : Head} {rest : Bytes} {pieces : List Bytes} {sent fallback : Bytes}
    (hwaits : Waits sent fallback) (hsent : sent ≠ [])
    (h : sent ++ pieces.flatten = head.text ++ rest) :
    pieces.foldl Parsing.feed (.reading fallback) = .asked head.request ↔
      head.text.length ≤ MAX_FALLBACK_SIZE := by
  induction pieces generalizing sent fallback with
  | nil =>
    have hincomplete := hwaits.incomplete
    rw [List.flatten_nil, List.append_nil] at h
    rw [h, getHeaders_text] at hincomplete
    cases hincomplete
  | cons data pieces ih =>
    rw [List.flatten_cons, ← List.append_assoc] at h
    have htotal : sent ++ data <+: head.text ++ rest := ⟨pieces.flatten, h⟩
    have htake : (sent ++ data).take MAX_FALLBACK_SIZE <+: head.text ++ rest :=
      (List.take_prefix _ _).trans htotal
    have hlength := List.length_take (i := MAX_FALLBACK_SIZE) (l := sent ++ data)
    rw [List.foldl_cons, Parsing.feed]
    obtain ⟨headers, behind, hparse, hnext⟩ | ⟨hparse, ⟨hfull, hnext⟩ | ⟨next, hwaits', hnext⟩⟩ :=
      feed_later hwaits hsent data
    · have hlong : head.text.length ≤ ((sent ++ data).take MAX_FALLBACK_SIZE).length := by
        by_contra hshort
        have hnone := getHeaders_of_short htake (Nat.not_le.mp hshort)
        exact absurd (hparse.symm.trans hnone) (by simp)
      obtain ⟨behind', hhead⟩ := getHeaders_of_long htake hlong
      obtain ⟨rfl, -⟩ := Prod.mk.inj (Option.some.inj (hparse.symm.trans hhead))
      rw [hnext, foldl_asked]
      exact iff_of_true rfl (by omega)
    · have hlong : ¬ head.text.length ≤ MAX_FALLBACK_SIZE := by
        intro hle
        obtain ⟨behind, hhead⟩ := getHeaders_of_long htake (by omega)
        exact absurd (hparse.symm.trans hhead) (by simp)
      rw [hnext, foldl_failed]
      exact iff_of_false (by simp) hlong
    · rw [hnext]
      exact ih hwaits' (by simp [hsent]) h

/-- A head is read from its pieces when it fits in the fallback, or when no piece cuts it. -/
theorem asked_iff (head : Head) (rest : Bytes) {first : Bytes} {pieces : List Bytes}
    (hfirst : first ≠ []) (h : (first :: pieces).flatten = head.text ++ rest) :
    (first :: pieces).foldl Parsing.feed (.reading []) = .asked head.request ↔
      head.text.length ≤ MAX_FALLBACK_SIZE ∨ head.text.length ≤ first.length := by
  have hpart : first <+: head.text ++ rest := ⟨pieces.flatten, h⟩
  rw [List.foldl_cons, Parsing.feed]
  obtain ⟨headers, behind, hparse, hnext⟩ | ⟨hparse, hrest⟩ := feed_first first
  · have hlong : head.text.length ≤ first.length := by
      by_contra hshort
      have hnone := getHeaders_of_short hpart (Nat.not_le.mp hshort)
      exact absurd (hparse.symm.trans hnone) (by simp)
    obtain ⟨behind', hhead⟩ := getHeaders_of_long hpart hlong
    obtain ⟨rfl, -⟩ := Prod.mk.inj (Option.some.inj (hparse.symm.trans hhead))
    rw [hnext, foldl_asked]
    exact iff_of_true rfl (.inr hlong)
  · have hshort : ¬ head.text.length ≤ first.length := by
      intro hlong
      obtain ⟨behind, hhead⟩ := getHeaders_of_long hpart hlong
      exact absurd (hparse.symm.trans hhead) (by simp)
    obtain ⟨hfull, hnext⟩ | ⟨next, hwaits, hnext⟩ := hrest
    · rw [hnext, foldl_failed]
      exact iff_of_false (by simp) (by omega)
    · rw [hnext, asked_later hwaits hfirst h]
      exact ⟨.inl, fun hsize => hsize.resolve_right hshort⟩

/-- A piece in any state: nothing else is asked than what a part of the stream has. -/
theorem feed_cases {sent fallback : Bytes} (h : Waits sent fallback) (data : Bytes) :
    (∃ part headers behind, part <+: sent ++ data ∧
      getHeaders MAX_HEADERS true part = some (headers, behind) ∧
      consumePostPadded fallback data = .asked (requestOf headers)) ∨
    consumePostPadded fallback data = .failed ∨
    ∃ next, Waits (sent ++ data) next ∧ consumePostPadded fallback data = .reading next := by
  by_cases hsent : sent = []
  · subst hsent
    obtain rfl : fallback = [] := List.eq_nil_of_length_eq_zero h.length
    obtain ⟨headers, behind, hparse, hnext⟩ | ⟨-, ⟨-, hnext⟩ | hnext⟩ := feed_first data
    · exact .inl ⟨data, headers, behind, List.prefix_rfl, hparse, hnext⟩
    · exact .inr (.inl hnext)
    · exact .inr (.inr hnext)
  · obtain ⟨headers, behind, hparse, hnext⟩ | ⟨-, ⟨-, hnext⟩ | hnext⟩ := feed_later h hsent data
    · exact .inl ⟨_, headers, behind, List.take_prefix _ _, hparse, hnext⟩
    · exact .inr (.inl hnext)
    · exact .inr (.inr hnext)

theorem head_of_later {pieces : List Bytes} {request : HttpRequest} {sent fallback : Bytes}
    (hwaits : Waits sent fallback)
    (h : pieces.foldl Parsing.feed (.reading fallback) = .asked request) :
    ∃ (head : Head) (rest : Bytes), sent ++ pieces.flatten = head.text ++ rest ∧
      request = head.request := by
  induction pieces generalizing sent fallback with
  | nil => cases h
  | cons data pieces ih =>
    rw [List.foldl_cons, Parsing.feed] at h
    obtain ⟨part, headers, behind, ⟨others, hothers⟩, hparse, hnext⟩ | hnext |
      ⟨next, hwaits', hnext⟩ := feed_cases hwaits data
    · obtain ⟨head, rfl, rfl⟩ := head_of_getHeaders hparse
      rw [hnext, foldl_asked] at h
      refine ⟨head, behind ++ (others ++ pieces.flatten), ?_, (Parsing.asked.inj h).symm⟩
      rw [List.flatten_cons, ← List.append_assoc, ← hothers]
      simp only [List.append_assoc]
    · rw [hnext, foldl_failed] at h
      cases h
    · rw [hnext] at h
      simpa only [List.flatten_cons, List.append_assoc] using ih hwaits' h

/-- As long as the parser reads, no head is complete. -/
theorem waits_of_reading {pieces : List Bytes} {sent fallback next : Bytes}
    (hwaits : Waits sent fallback)
    (h : pieces.foldl Parsing.feed (.reading fallback) = .reading next) :
    Waits (sent ++ pieces.flatten) next := by
  induction pieces generalizing sent fallback with
  | nil =>
    obtain rfl := Parsing.reading.inj h
    rwa [List.flatten_nil, List.append_nil]
  | cons data pieces ih =>
    rw [List.foldl_cons, Parsing.feed] at h
    obtain ⟨part, headers, behind, -, -, hnext⟩ | hnext | ⟨next', hwaits', hnext⟩ :=
      feed_cases hwaits data
    · rw [hnext, foldl_asked] at h
      cases h
    · rw [hnext, foldl_failed] at h
      cases h
    · rw [hnext] at h
      simpa only [List.flatten_cons, List.append_assoc] using ih hwaits' h

/-- What is asked is what was sent. -/
theorem head_of_asked {pieces : List Bytes} {request : HttpRequest}
    (h : pieces.foldl Parsing.feed (.reading []) = .asked request) :
    ∃ (head : Head) (rest : Bytes), pieces.flatten = head.text ++ rest ∧ request = head.request :=
  head_of_later Waits.nil h

/-- A request with two headers. -/
def sampleHead : Head where
  lines := [
    { key := .ofLiteral "GET", stop := 32, skipped := [], value := .ofLiteral "/chat HTTP/1.1"
      isKey_key := by decide +kernel, isKey_stop := by decide +kernel, stop_ne := by decide +kernel
      isSkipped_skipped := by decide +kernel, isSkipped_value := by decide +kernel
      value_ne := by decide +kernel },
    { key := .ofLiteral "Upgrade", stop := 58, skipped := [32], value := .ofLiteral "websocket"
      isKey_key := by decide +kernel, isKey_stop := by decide +kernel, stop_ne := by decide +kernel
      isSkipped_skipped := by decide +kernel, isSkipped_value := by decide +kernel
      value_ne := by decide +kernel },
    { key := .ofLiteral "Sec-WebSocket-Key", stop := 58, skipped := [32]
      value := .ofLiteral "dGhlIHNhbXBsZSBub25jZQ=="
      isKey_key := by decide +kernel, isKey_stop := by decide +kernel, stop_ne := by decide +kernel
      isSkipped_skipped := by decide +kernel, isSkipped_value := by decide +kernel
      value_ne := by decide +kernel }]
  last := []
  lines_ne := List.cons_ne_nil _ _
  lines_lt := by decide
  isKey_last := List.forall_mem_nil _

example : sampleHead.text = .ofLiteral ("GET /chat HTTP/1.1\r\nUpgrade: websocket\r\n" ++
    "Sec-WebSocket-Key: dGhlIHNhbXBsZSBub25jZQ==\r\n\r\n") := by
  decide +kernel

theorem asked_iff_sample :
    [sampleHead.text.take 30, sampleHead.text.drop 30].foldl Parsing.feed (.reading []) =
        .asked sampleHead.request ∧
      sampleHead.request.getMethod = .ofLiteral "get" ∧
      sampleHead.request.getUrl = .ofLiteral "/chat" :=
  ⟨(asked_iff sampleHead [] (by decide) (by decide +kernel)).mpr (.inl (by decide +kernel)),
    by decide +kernel, by decide +kernel⟩

theorem head_of_asked_sample :
    ∃ (head : Head) (rest : Bytes), [sampleHead.text, [1, 2]].flatten = head.text ++ rest ∧
      sampleHead.request = head.request :=
  head_of_asked (by decide +kernel : [sampleHead.text, [1, 2]].foldl Parsing.feed (.reading []) =
    .asked sampleHead.request)

end MarketServer.UWS.HttpParser

import JNet.Lib.Strings

/-! # `jnet::HttpMsg`

    Requests and responses (`net/http.cc`): what `Encode` writes and what
    `TryDecode` reads.  Positions are kept in `int`, so the result of a search
    is cut to 32 bits and `npos` becomes -1.

    The loops run with a number of steps; one that has not ended by then is
    still `running`, and a call returns if some number of steps is enough.
-/

namespace JNet

open Memory Strings

/-- What keeps a call from returning. -/
inductive HttpFault where
  | running
  /-- An index outside the string. -/
  | outOfBounds
  /-- `substr` throws. -/
  | outOfRange
  /-- An `int` operation out of its range. -/
  | overflow
  /-- `AnyCast` throws. -/
  | badCast
  deriving DecidableEq, Repr

namespace HttpFault

/-- `a + b` on `int`. -/
def addInt (a b : Int) : Except HttpFault Int :=
  if -2 ^ 31 ≤ a + b ∧ a + b < 2 ^ 31 then .ok (a + b) else .error .overflow

/-- `buf[i]` with an `int` index. -/
def load (buf : Bytes) (i : Int) : Except HttpFault UInt8 :=
  match charAt buf i with
  | some b => .ok b
  | none => .error .outOfBounds

/-- `buf.substr(pos, n)` with `int` arguments. -/
def cut (buf : Bytes) (pos n : Int) : Except HttpFault Bytes :=
  match substr buf (toSize pos) (toSize n) with
  | some s => .ok s
  | none => .error .outOfRange

/-- `int i = buf.find(pat, pos)`. -/
def search (pat buf : Bytes) (pos : Int) : Int := toInt32 (findFrom pat buf (toSize pos))

end HttpFault

open HttpFault

def crlf : Bytes := ascii "\r\n"
def crlfcrlf : Bytes := ascii "\r\n\r\n"
def blank : Bytes := ascii " "
def colon : Bytes := ascii ":"

/-! ## Messages -/

/-- `std::map<std::string, std::string>`, in the order of the keys. -/
abbrev HttpMap : Type := List (Bytes × Bytes)

namespace HttpMap

/-- `m[n] = v`. -/
def set : HttpMap → Bytes → Bytes → HttpMap
  | [], n, v => [(n, v)]
  | (n', v') :: m, n, v =>
    if n = n' then (n, v) :: m else if n < n' then (n, v) :: (n', v') :: m
    else (n', v') :: set m n v

/-- `GetValueFromMap_`. -/
def getValue (m : HttpMap) (n : Bytes) : Bytes := (m.lookup n).getD []

/-- The lines that `Encode` writes. -/
def lines (m : HttpMap) : List Bytes := m.map fun hd => hd.1 ++ ascii ": " ++ hd.2

end HttpMap

/-- `HttpMsg::Result`. -/
inductive HttpResult where
  | Error
  | Complete
  | NotComplete
  | Continue
  deriving DecidableEq, Repr

structure HttpMsg where
  headers_ : HttpMap
  version_ : Bytes
  body_ : Bytes
  complete_ : Bool
  contentLen_ : Nat
  scanned_ : Nat
  deriving DecidableEq, Repr

/-- The lines behind the first one, and the body. -/
def HttpMsg.encodeRest (m : HttpMsg) : Bytes :=
  (m.headers_.lines.map (· ++ crlf)).flatten ++ ascii "Connection: Keep-Alive\r\n" ++
    (ascii "Content-Length: " ++ decimal m.body_.length ++ crlf) ++ crlf ++ m.body_

/-- `Encode` over a buffer that is taken as a byte queue, where `appended` is what
    it appends: the bytes in the buffer after it, and the `int` it returns. -/
def HttpMsg.encodeTo (appended buf : Bytes) : Bytes × Int :=
  let osz := buf.length
  let buf := buf ++ appended
  (buf, toInt32 (sizeSub buf.length osz))

def HttpMsg.clear : HttpMsg where
  headers_ := []
  version_ := ascii "HTTP/1.1"
  body_ := []
  complete_ := false
  contentLen_ := 0
  scanned_ := 0

def HttpMsg.getHeader (m : HttpMsg) (n : Bytes) : Bytes := m.headers_.getValue n

/-! ## Decoding -/

/-- The first loop of `TrimeSpaceAndToLower`. -/
def trimeSpace (buf : Bytes) : Nat → Int → Int → Except HttpFault (Int × Int)
  | 0, _, _ => .error .running
  | steps + 1, start, end_ => do
    if isspace (← load buf start) then trimeSpace buf steps (← addInt start 1) end_
    else if isspace (← load buf end_) then trimeSpace buf steps start (← addInt end_ (-1))
    else return (start, end_)

/-- The second one.  It drops what `tolower` returns and does not advance `i`. -/
def toLower (buf : Bytes) : Nat → Int → Int → Except HttpFault Unit
  | 0, _, _ => .error .running
  | steps + 1, i, end_ =>
    if i ≤ end_ then do
      let _ := tolower (← load buf i)
      toLower buf steps i end_
    else return ()

def trimeSpaceAndToLower (buf : Bytes) (steps : Nat) (start end_ : Int) :
    Except HttpFault (Int × Int) := do
  let (start, end_) ← trimeSpace buf steps start end_
  toLower buf steps start end_
  return (start, end_)

/-- `DecodeHeader_`. -/
def decodeHeader_ (buf : Bytes) : Nat → HttpMap → Int → Int → Except HttpFault HttpMap
  | 0, _, _, _ => .error .running
  | steps + 1, headers_, start, end_ =>
    if start < end_ then do
      let i := search crlf buf start
      let oldI := i
      let kEnd := search colon buf start
      let vStart ← addInt kEnd 1
      let (start, kEnd) ← trimeSpaceAndToLower buf steps start kEnd
      let (vStart, i) ← trimeSpaceAndToLower buf steps vStart i
      let name ← cut buf start (kEnd - start)
      let value ← cut buf vStart (i - vStart)
      -- The line end as it was found, before the blanks were cut.
      decodeHeader_ buf steps (headers_.set name value) (← addInt oldI 2) end_
    else return headers_

/-- `TryDecode_`, with the positions of the first line. -/
def HttpMsg.tryDecode_ (m : HttpMsg) (steps : Nat) (buf : Bytes) (lineStart lineEnd : Int) :
    Except HttpFault (HttpMsg × HttpResult × Int × Int) :=
  if m.complete_ then return (m, .Complete, lineStart, lineEnd)
  else if m.contentLen_ = 0 then
    let p := findFrom crlfcrlf buf 0
    if p = npos then return (m, .NotComplete, lineStart, lineEnd)
    else do
      let lineEnd := toInt32 (sizeSub (findFrom crlf buf 0) 1)
      -- The first header starts at `lineEnd + 3`.
      let headers_ ← decodeHeader_ buf steps m.headers_ (← addInt lineEnd 4) (toInt32 p)
      let m := { m with headers_ }
      let contentLen_ := toSize (atoi (m.getHeader (ascii "content-length")))
      let scanned_ := sizeT (p + 4)
      -- Less than `contentLen_` bytes if the rest has not arrived.
      match substr buf scanned_ contentLen_ with
      | some body_ =>
        return ({ m with contentLen_, scanned_, body_, complete_ := true }, .Complete, 0, lineEnd)
      | none => throw .outOfRange
  else return (m, .NotComplete, lineStart, lineEnd)

/-! ## Requests -/

structure HttpRequest extends HttpMsg where
  args_ : HttpMap
  method_ : Bytes
  uri_ : Bytes
  query_uri_ : Bytes
  deriving DecidableEq, Repr

namespace HttpRequest

def clear : HttpRequest where
  toHttpMsg := HttpMsg.clear
  args_ := []
  method_ := ascii "Get"
  uri_ := []
  query_uri_ := []

/-- The first line, as `snprintf` makes it in a buffer of 4096 bytes. -/
def requestLine (r : HttpRequest) : Bytes :=
  (cStr r.method_ ++ blank ++ cStr r.query_uri_ ++ blank ++ cStr r.version_ ++ crlf).take 4095

/-- What `Encode` appends. -/
def encode (r : HttpRequest) : Bytes := r.requestLine ++ r.encodeRest

def encodeTo (r : HttpRequest) (buf : Bytes) : Bytes × Int := HttpMsg.encodeTo r.encode buf

/-- One round of the inner loop of `DecodeArgs` moves the cursor: over a byte of
    the name, the `=`, or the `&`. -/
theorem lt_nextArg {qs : Bytes} {c : Nat} (hc : c < qs.length) :
    c < advanceOver qs 38 (advanceWhile qs (fun b => b != 38)
      (advanceOver qs 61 (advanceWhile qs (fun b => b != 61 && b != 38) c))) := by
  have hname := le_advanceWhile qs (fun b => b != 61 && b != 38) c
  have hequals := le_advanceOver qs 61 (advanceWhile qs (fun b => b != 61 && b != 38) c)
  have hvalue := le_advanceWhile qs (fun b => b != 38)
    (advanceOver qs 61 (advanceWhile qs (fun b => b != 61 && b != 38) c))
  have hand := le_advanceOver qs 38 (advanceWhile qs (fun b => b != 38)
    (advanceOver qs 61 (advanceWhile qs (fun b => b != 61 && b != 38) c)))
  by_cases hmid : qs.getD c 0 = 61
  · have hstays : advanceWhile qs (fun b => b != 61 && b != 38) c = c :=
      advanceWhile_stays (by rw [hmid]; rfl)
    have hover : advanceOver qs 61 c = c + 1 := if_pos ⟨hc, hmid⟩
    rw [hstays, hover] at hvalue hand ⊢
    omega
  · by_cases hsep : qs.getD c 0 = 38
    · have hstays : advanceWhile qs (fun b => b != 61 && b != 38) c = c :=
        advanceWhile_stays (by rw [hsep]; rfl)
      have hskip : advanceOver qs 61 c = c := if_neg fun h => hmid h.2
      have hempty : advanceWhile qs (fun b => b != 38) c = c :=
        advanceWhile_stays (by rw [hsep]; rfl)
      have hover : advanceOver qs 38 c = c + 1 := if_pos ⟨hc, hsep⟩
      rw [hstays, hskip, hempty, hover]
      omega
    · have hpass := lt_advanceWhile (p := fun b => b != 61 && b != 38) hc
        (by simp only [Bool.and_eq_true, bne_iff_ne]; exact ⟨hmid, hsep⟩)
      omega

/-- The inner loop of `DecodeArgs`, over what stands behind the `?`. -/
def decodeQuery (qs : Bytes) (args_ : HttpMap) (c kb : Nat) : HttpMap :=
  if c < qs.length then
    let ke := advanceWhile qs (fun b => b != 61 && b != 38) c
    let vb := advanceOver qs 61 ke
    let ve := advanceWhile qs (fun b => b != 38) vb
    let next := advanceOver qs 38 ve
    let args_ := if kb ≠ ke then args_.set (slice qs kb ke) (slice qs vb ve) else args_
    decodeQuery qs args_ next next
  else args_
termination_by qs.length - c
decreasing_by
  have := lt_nextArg ‹c < qs.length›
  omega

/-- The outer loop: the uri, and the arguments if there is a `?`. -/
def decodeUri (query_uri_ : Bytes) (uri_ : Bytes) (args_ : HttpMap) (i : Nat) : Bytes × HttpMap :=
  if i ≤ query_uri_.length then
    let uri_ := if i = query_uri_.length then query_uri_ else uri_
    -- Behind the end there is a 0.
    if query_uri_.getD i 0 = 63 then
      let qs := (query_uri_.drop (i + 1)).take (query_uri_.length - i - 1)
      (query_uri_.take i, decodeQuery qs args_ 0 0)
    else decodeUri query_uri_ uri_ args_ (i + 1)
  else (uri_, args_)
termination_by query_uri_.length + 1 - i

/-- `DecodeArgs`: `uri?name1=value1&name2=value2`. -/
def decodeArgs (r : HttpRequest) : HttpRequest :=
  let decoded := decodeUri r.query_uri_ r.uri_ r.args_ 0
  { r with uri_ := decoded.1, args_ := decoded.2 }

def tryDecode (r : HttpRequest) (steps : Nat) (buf : Bytes) :
    Except HttpFault (HttpRequest × HttpResult) := do
  let (msg, result, start, end_) ← r.toHttpMsg.tryDecode_ steps buf 0 0
  -- The first line is read whatever `TryDecode_` has returned.
  let i := search blank buf start
  let method_ ← cut buf start (i - start)
  let oldI ← addInt i 1
  let i := search blank buf oldI
  let query_uri_ ← cut buf oldI (i - oldI)
  let version_ ← cut buf (← addInt i 1) (end_ - i)
  let r := { r with toHttpMsg := { msg with version_ }, method_, query_uri_ }
  if query_uri_.head? = some 47 then return (r.decodeArgs, result) else return (r, .Error)

/-- The requests that a client may send. -/
structure WellFormed (r : HttpRequest) : Prop where
  method : ∀ b ∈ r.method_, b ≠ 32 ∧ b ≠ 13 ∧ b ≠ 10
  uri : r.query_uri_.head? = some 47 ∧ ∀ b ∈ r.query_uri_, b ≠ 32 ∧ b ≠ 13 ∧ b ≠ 10
  names : ∀ hd ∈ r.headers_, ∀ b ∈ hd.1, b ≠ 13 ∧ b ≠ 10 ∧ b ≠ 58
  values : ∀ hd ∈ r.headers_, ∀ b ∈ hd.2, b ≠ 13 ∧ b ≠ 10
  /-- No blanks around names and values. -/
  trimmed : ∀ hd ∈ r.headers_, ∀ s ∈ [hd.1, hd.2],
    (∀ b, s.head? = some b → isspace b = false) ∧ ∀ b, s.getLast? = some b → isspace b = false

end HttpRequest

/-! ## Responses -/

structure HttpResponse extends HttpMsg where
  statusWord_ : Bytes
  status_ : Int
  deriving DecidableEq, Repr

namespace HttpResponse

def clear : HttpResponse where
  toHttpMsg := HttpMsg.clear
  statusWord_ := ascii "OK"
  status_ := 200

/-- The first line, as `snprintf` makes it in a buffer of 1024 bytes. -/
def statusLine (r : HttpResponse) : Bytes :=
  let sign := if r.status_ < 0 then ascii "-" else []
  (cStr r.version_ ++ blank ++ sign ++ decimal r.status_.natAbs ++ blank ++ cStr r.statusWord_ ++
    crlf).take 1023

def encode (r : HttpResponse) : Bytes := r.statusLine ++ r.encodeRest

def encodeTo (r : HttpResponse) (buf : Bytes) : Bytes × Int := HttpMsg.encodeTo r.encode buf

def tryDecode (r : HttpResponse) (steps : Nat) (buf : Bytes) :
    Except HttpFault (HttpResponse × HttpResult) := do
  let (msg, result, start, end_) ← r.toHttpMsg.tryDecode_ steps buf 0 0
  let r := { r with toHttpMsg := msg }
  if start < end_ then
    let i := search blank buf start
    let version_ ← cut buf start (i - start)
    let oldI := i
    let i := search blank buf (← addInt i 1)
    let status ← cut buf (← addInt i 1) (i - oldI)
    let statusWord_ ← cut buf (← addInt i 1) end_
    return ({ r with version_, status_ := atoi status, statusWord_ }, result)
  else return (r, result)

end HttpResponse

end JNet

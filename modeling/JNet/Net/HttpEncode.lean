import JNet.Net.HttpMsg

/-! # Encoding

    What `Encode` should append to the output, and when it does.  The first line
    goes through an array, of 4096 bytes in a request and of 1024 in a response,
    and `snprintf` drops what does not fit; the size that is returned is an `int`.
-/

namespace JNet

open Memory Strings

namespace HttpMsg

/-- The lines behind the first one, and the body, one after the other. -/
def expectedRest (m : HttpMsg) : Bytes :=
  m.headers_.flatMap (fun hd => hd.1 ++ ascii ": " ++ hd.2 ++ crlf) ++
    (ascii "Connection: Keep-Alive" ++ crlf) ++
    (ascii "Content-Length: " ++ decimal m.body_.length ++ crlf) ++ crlf ++ m.body_

theorem encodeRest_eq (m : HttpMsg) : m.encodeRest = m.expectedRest := by
  have hconnection : ascii "Connection: Keep-Alive\r\n" = ascii "Connection: Keep-Alive" ++ crlf :=
    rfl
  have hlines : (m.headers_.lines.map (· ++ crlf)).flatten =
      m.headers_.flatMap (fun hd => hd.1 ++ ascii ": " ++ hd.2 ++ crlf) := by
    rw [HttpMap.lines, List.map_map, List.flatMap_def]
    rfl
  rw [encodeRest, expectedRest, hconnection, hlines]

end HttpMsg

/-- A first line of three fields. -/
def startLine (first second third : Bytes) : Bytes :=
  first ++ blank ++ second ++ blank ++ third ++ crlf

/-- `%d`. -/
def formatInt (n : Int) : Bytes := (if n < 0 then ascii "-" else []) ++ decimal n.natAbs

/-- `expected` was appended to `buf` and its size returned. -/
def Appended (buf expected : Bytes) (result : Bytes × Int) : Prop :=
  result.1 = buf ++ expected ∧ result.2 = expected.length

theorem cStr_eq {s : Bytes} (h : 0 ∉ s) : cStr s = s := by
  unfold cStr
  induction s with
  | nil => rfl
  | cons b s ih =>
    rw [List.mem_cons, not_or] at h
    rw [List.takeWhile_cons_of_pos (by simpa using Ne.symm h.1), ih h.2]

theorem encodeTo_snd (s buf : Bytes) :
    (HttpMsg.encodeTo s buf).2 = toInt32 (sizeSub (buf ++ s).length buf.length) := by
  rw [HttpMsg.encodeTo]

/-- A first line in an array, and the rest: all of it is there if the line fits,
    and then the returned size is right if it is an `int`. -/
theorem appended_iff (buf line rest : Bytes) (n : Nat) :
    Appended buf (line ++ rest) (HttpMsg.encodeTo (line.take n ++ rest) buf) ↔
      line.length ≤ n ∧ (line ++ rest).length < 2 ^ 31 := by
  have hint : ∀ x : Int, toInt32 x < 2 ^ 31 := by
    intro x
    unfold toInt32 Int.bmod
    dsimp only
    split <;> omega
  constructor
  · intro hcase
    rcases hcase with ⟨hbytes, hsize⟩
    -- A cut line is shorter, and a larger size is not returned.
    have hlen := congrArg List.length hbytes
    simp only [HttpMsg.encodeTo, List.length_append, List.length_take] at hlen
    rw [encodeTo_snd] at hsize
    have hbound := hint (sizeSub (buf ++ (line.take n ++ rest)).length buf.length)
    rw [hsize] at hbound
    exact ⟨by omega, by omega⟩
  · intro hcase
    rcases hcase with ⟨hfit, hsmall⟩
    have hsub : sizeSub (buf ++ (line ++ rest)).length buf.length = (line ++ rest).length := by
      rw [List.length_append]
      unfold sizeSub sizeT
      omega
    rw [List.take_of_length_le hfit]
    refine ⟨rfl, ?_⟩
    rw [encodeTo_snd, hsub, toInt32_of_fits (by omega) (by omega)]

namespace HttpRequest

/-- The first line. -/
def expectedLine (r : HttpRequest) : Bytes := startLine r.method_ r.query_uri_ r.version_

/-- No NUL in the fields of the first line. -/
structure NulFree (r : HttpRequest) : Prop where
  method : 0 ∉ r.method_
  uri : 0 ∉ r.query_uri_
  version : 0 ∉ r.version_

theorem encode_take {r : HttpRequest} (h : r.NulFree) :
    r.encode = r.expectedLine.take 4095 ++ r.expectedRest := by
  rw [encode, requestLine, cStr_eq h.method, cStr_eq h.uri, cStr_eq h.version,
    HttpMsg.encodeRest_eq]
  rfl

end HttpRequest

namespace HttpResponse

def expectedLine (r : HttpResponse) : Bytes :=
  startLine r.version_ (formatInt r.status_) r.statusWord_

structure NulFree (r : HttpResponse) : Prop where
  version : 0 ∉ r.version_
  word : 0 ∉ r.statusWord_

theorem encode_take {r : HttpResponse} (h : r.NulFree) :
    r.encode = r.expectedLine.take 1023 ++ r.expectedRest := by
  rw [encode, statusLine, cStr_eq h.version, cStr_eq h.word, HttpMsg.encodeRest_eq]
  simp only [expectedLine, startLine, formatInt, List.append_assoc]

end HttpResponse

/-- **Encoding**: `Encode` appends exactly the message and returns its size if and
    only if the first line fits its array and the size is an `int`. -/
theorem encodeTo_exact_iff (buf : Bytes) (req : HttpRequest) (rep : HttpResponse)
    (hreq : req.NulFree) (hrep : rep.NulFree) :
    (Appended buf (req.expectedLine ++ req.expectedRest) (req.encodeTo buf) ↔
      req.expectedLine.length ≤ 4095 ∧
        (req.expectedLine ++ req.expectedRest).length < 2 ^ 31) ∧
    (Appended buf (rep.expectedLine ++ rep.expectedRest) (rep.encodeTo buf) ↔
      rep.expectedLine.length ≤ 1023 ∧
        (rep.expectedLine ++ rep.expectedRest).length < 2 ^ 31) := by
  constructor
  · rw [HttpRequest.encodeTo, HttpRequest.encode_take hreq]
    exact appended_iff _ _ _ _
  · rw [HttpResponse.encodeTo, HttpResponse.encode_take hrep]
    exact appended_iff _ _ _ _

/-- A request and a response, each with a header and a body. -/
def postRequest : HttpRequest :=
  { HttpRequest.clear with
    method_ := ascii "POST", query_uri_ := ascii "/set?k=v"
    headers_ := [(ascii "host", ascii "jnet")], body_ := ascii "k=v" }

def createdResponse : HttpResponse :=
  { HttpResponse.clear with
    status_ := 201, statusWord_ := ascii "Created"
    headers_ := [(ascii "server", ascii "jnet")], body_ := ascii "done" }

/-- Both are appended to a byte that is there already. -/
theorem encodeTo_exact_post :
    Appended [120] (postRequest.expectedLine ++ postRequest.expectedRest)
        (postRequest.encodeTo [120]) ∧
      Appended [120] (createdResponse.expectedLine ++ createdResponse.expectedRest)
        (createdResponse.encodeTo [120]) := by
  have hexact := encodeTo_exact_iff [120] postRequest createdResponse
    ⟨by decide, by decide, by decide⟩ ⟨by decide, by decide⟩
  exact ⟨hexact.1.mpr ⟨by decide, by decide⟩, hexact.2.mpr ⟨by decide, by decide⟩⟩

/-- A response with a status word of 1100 bytes. -/
def longWord : HttpResponse :=
  { HttpResponse.clear with statusWord_ := List.replicate 1100 97 }

/-- Its first line loses its end, and with it the line break. -/
theorem encodeTo_long_word :
    longWord.NulFree ∧
      ¬ Appended [] (longWord.expectedLine ++ longWord.expectedRest) (longWord.encodeTo []) := by
  have hfree : longWord.NulFree := by
    refine ⟨by decide, ?_⟩
    intro hmem
    exact absurd (List.eq_of_mem_replicate hmem) (by decide)
  have hlong : 1023 < longWord.expectedLine.length := by
    have hword : longWord.statusWord_.length = 1100 := List.length_replicate
    rw [HttpResponse.expectedLine, startLine, List.length_append, List.length_append, hword]
    omega
  refine ⟨hfree, ?_⟩
  rw [HttpResponse.encodeTo, HttpResponse.encode_take hfree, appended_iff]
  omega

end JNet

import JNet.Net.HttpDecode

/-! # Responses

    Whether a response comes back from its encoding.  It never does: the status
    word is cut with the length of the line, so it reaches over the line break,
    and before that `DecodeHeader_` does not return.
-/

namespace JNet

open Memory Strings HttpFault

namespace HttpResponse

/-- The responses that a server may send. -/
structure WellFormed (r : HttpResponse) : Prop where
  version : ∀ b ∈ r.version_, b ≠ 32 ∧ b ≠ 13 ∧ b ≠ 10
  status : 100 ≤ r.status_ ∧ r.status_ ≤ 999
  word : r.statusWord_ ≠ [] ∧ ∀ b ∈ r.statusWord_, b ≠ 13 ∧ b ≠ 10
  names : ∀ hd ∈ r.headers_, ∀ b ∈ hd.1, b ≠ 58 ∧ isspace b = false ∧ tolower b = b
  values : ∀ hd ∈ r.headers_, ∀ b ∈ hd.2, b ≠ 13 ∧ b ≠ 10
  /-- No blanks around values. -/
  trimmed : ∀ hd ∈ r.headers_, (∀ b, hd.2.head? = some b → isspace b = false) ∧
    ∀ b, hd.2.getLast? = some b → isspace b = false

/-- The response is decoded from its encoding, and everything in it has come back. -/
def RoundTrip (r : HttpResponse) : Prop :=
  ∃ steps r', clear.tryDecode steps r.encode = .ok (r', .Complete) ∧
    r'.version_ = r.version_ ∧ r'.status_ = r.status_ ∧ r'.statusWord_ = r.statusWord_ ∧
    r'.body_ = r.body_ ∧ ∀ hd ∈ r.headers_, r'.getHeader hd.1 = hd.2

/-! ## The first line -/

/-- What stands before the status word. -/
def lineStart (r : HttpResponse) : Bytes :=
  cStr r.version_ ++ blank ++ ((if r.status_ < 0 then ascii "-" else []) ++
    decimal r.status_.natAbs) ++ blank

/-- The first line without the limit of `snprintf`. -/
def fullLine (r : HttpResponse) : Bytes := r.lineStart ++ cStr r.statusWord_ ++ crlf

/-- Everything before the body. -/
def head (r : HttpResponse) : Bytes := r.toHttpMsg.headFrom r.statusLine

variable {r : HttpResponse}

theorem statusLine_eq (r : HttpResponse) : r.statusLine = r.fullLine.take 1023 := by
  simp only [statusLine, fullLine, lineStart, List.append_assoc]

theorem encode_eq (r : HttpResponse) : r.encode = r.head ++ r.body_ := by
  rw [encode, head, HttpMsg.encode_headFrom]

theorem WellFormed.unbroken (h : r.WellFormed) : ∀ l ∈ r.toHttpMsg.lines, Unbroken l := by
  apply HttpMsg.lines_unbroken _ h.values
  intro hd hmem b hb
  have hspace := (h.names hd hmem b hb).2.1
  constructor
  · intro hcr
    rw [hcr] at hspace
    exact absurd hspace (by decide)
  · intro hlf
    rw [hlf] at hspace
    exact absurd hspace (by decide)

theorem lineStart_unbroken (h : r.WellFormed) : 13 ∉ r.lineStart := by
  have hstatus := h.status.1
  have hblank : 13 ∉ blank := by simp [blank, ascii]
  intro hb
  rw [lineStart, if_neg (by omega), List.nil_append] at hb
  simp only [List.mem_append] at hb
  obtain ((hb | hb) | hb) | hb := hb
  · exact (h.version 13 (List.takeWhile_subset _ hb)).2.1 rfl
  · exact hblank hb
  · exact absurd (isDigit_decimal hb).1 (by decide)
  · exact hblank hb

/-- The only line break in the first line is at its end. -/
theorem fullLine_unbroken (h : r.WellFormed) : 13 ∉ r.lineStart ++ cStr r.statusWord_ := by
  intro hb
  obtain hb | hb := List.mem_append.mp hb
  · exact lineStart_unbroken h hb
  · exact (h.word.2 13 (List.takeWhile_subset _ hb)).1 rfl

/-- The blanks around the status. -/
theorem lineStart_blanks (r : HttpResponse) :
    ∃ i j, i < j ∧ j < r.lineStart.length ∧ OccursAt blank r.lineStart i ∧
      OccursAt blank r.lineStart j := by
  let status := (if r.status_ < 0 then ascii "-" else []) ++ decimal r.status_.natAbs
  have hsplit : r.lineStart = cStr r.version_ ++ (blank ++ (status ++ blank)) := by
    simp only [lineStart, status, List.append_assoc]
  have hblank : blank.length = 1 := rfl
  refine ⟨(cStr r.version_).length, (cStr r.version_).length + (1 + status.length), by omega, ?_,
    ?_, ?_⟩
  · simp only [hsplit, List.length_append, hblank]
    omega
  · rw [hsplit]
    exact occursAt_append_self (List.prefix_append _ _)
  · rw [hsplit, occursAt_append_right, ← hblank, occursAt_append_right]
    exact occursAt_append_self (List.prefix_refl _)

/-! ## What is decoded -/

theorem tryDecode_ok {r r' : HttpResponse} {steps : Nat} {buf : Bytes} {result : HttpResult}
    (hok : r.tryDecode steps buf = .ok (r', result)) :
    ∃ msg start end_, r.toHttpMsg.tryDecode_ steps buf 0 0 = .ok (msg, result, start, end_) ∧
      (start < end_ →
        cut buf (search blank buf (search blank buf start + 1) + 1) end_ = .ok r'.statusWord_) := by
  unfold tryDecode at hok
  obtain ⟨⟨msg, res, start, end_⟩, hmsg, hok⟩ := bind_ok hok
  dsimp only at hok
  split at hok
  · obtain ⟨version_, -, hok⟩ := bind_ok hok
    obtain ⟨pos, hpos, hok⟩ := bind_ok hok
    obtain ⟨pos', hpos', hok⟩ := bind_ok hok
    obtain ⟨status, -, hok⟩ := bind_ok hok
    obtain ⟨pos'', hpos'', hok⟩ := bind_ok hok
    obtain ⟨word, hword, hok⟩ := bind_ok hok
    rw [addInt_eq hpos'', addInt_eq hpos] at hword
    cases hok
    exact ⟨msg, start, end_, hmsg, fun _ => hword⟩
  · next hempty =>
    cases hok
    exact ⟨msg, start, end_, hmsg, fun h => absurd h hempty⟩

/-- The status word that is decoded has the line break behind it in it. -/
theorem decoded_word_broken (h : r.WellFormed) {buf word : Bytes} (hstart : r.lineStart <+: buf)
    (hbreak : findFrom crlf buf 0 ≠ npos) (hsmall : findFrom crlf buf 0 < 2 ^ 31)
    (hcut : 0 < firstLineEnd buf →
      cut buf (search blank buf (search blank buf 0 + 1) + 1) (firstLineEnd buf) = .ok word) :
    13 ∈ word := by
  obtain ⟨i, j, hij, hj, hfirst, hsecond⟩ := lineStart_blanks r
  have hocc := (findFrom_ne_npos hbreak).1
  have hbehind : r.lineStart.length ≤ findFrom crlf buf 0 :=
    OccursAt.behind hocc rfl hstart (lineStart_unbroken h)
  have hbyte : buf[findFrom crlf buf 0]? = some 13 := occursAt_iff.mp hocc 0 (by decide)
  rw [firstLineEnd_eq hsmall] at hcut
  generalize findFrom crlf buf 0 = f at hbehind hbyte hsmall hcut
  -- Both blanks are found before the line break.
  obtain ⟨k, hk, hkge, hkle⟩ := blanks_found hstart hfirst hsecond hij (by omega)
  rw [hk] at hcut
  clear hk
  have hword := cut_eq (hcut (by omega))
  have hpos : toSize (k + 1) = k + 1 := by
    rw [toSize_of_nonneg (by omega) (by omega)]
    rfl
  have hn : toSize (f - 1) = f - 1 := by
    rw [toSize_of_nonneg (by omega) (by omega)]
    omega
  -- What is cut is as long as the line, and starts inside it.
  rw [hpos, hn] at hword
  have hat : word[f - (k + 1)]? = some 13 := by
    rw [hword, List.getElem?_take_of_lt (by omega), List.getElem?_drop, ← hbyte]
    congr 1
    omega
  exact List.mem_of_getElem? hat

/-- A line that fits its array is followed by its break. -/
theorem fullLine_starts (r : HttpResponse) (hfit : r.fullLine.length < 1024) :
    r.fullLine <+: r.encode := by
  rw [encode, statusLine_eq, List.take_of_length_le (by omega)]
  exact List.prefix_append _ _

/-- The first empty line is not in the first line. -/
theorem break_behind (h : r.WellFormed) {p : Nat} (hocc : OccursAt crlfcrlf (r.head ++ r.body_) p) :
    r.statusLine.length + (lineBlock r.toHttpMsg.lines).length + 16 ≤ p := by
  have hwhole := hocc
  unfold head HttpMsg.headFrom at hwhole
  simp only [List.append_assoc] at hwhole
  obtain hfirst | hlines := HttpMsg.break_cases h.unbroken hwhole
  · have hwithin := HttpMsg.break_within h.unbroken hocc hfirst
    have hline : OccursAt crlfcrlf r.statusLine p := by
      refine hocc.of_prefix ?_ hwithin
      unfold head HttpMsg.headFrom
      rw [List.append_assoc]
      exact List.prefix_append _ _
    rw [statusLine_eq] at hline
    have hfull := hline.mono (List.take_prefix _ _)
    have hend := hfull.length_le (by decide)
    have hbehind := hfull.behind rfl (List.prefix_append _ _) (fullLine_unbroken h)
    have hcrlf : crlf.length = 2 := rfl
    have hlen : crlfcrlf.length = 4 := rfl
    rw [fullLine, List.length_append] at hend
    omega
  · exact hlines

/-- What a round trip would have decoded: headers, and the status word. -/
theorem roundTrip_decoded (hround : r.RoundTrip) :
    findFrom crlfcrlf r.encode 0 ≠ npos ∧
      (∃ steps headers_, decodeHeader_ r.encode steps [] (firstLineEnd r.encode + 4)
        (toInt32 (findFrom crlfcrlf r.encode 0)) = .ok headers_) ∧
      (0 < firstLineEnd r.encode →
        cut r.encode (search blank r.encode (search blank r.encode 0 + 1) + 1)
          (firstLineEnd r.encode) = .ok r.statusWord_) := by
  obtain ⟨steps, r', hok, -, -, hword, -⟩ := hround
  obtain ⟨msg, start, end_, hmsg, hcut⟩ := tryDecode_ok hok
  have hsome : findFrom crlfcrlf r.encode 0 ≠ npos := by
    intro hnone
    rw [HttpMsg.tryDecode_waits rfl rfl hnone] at hmsg
    cases hmsg
  obtain ⟨-, hzero, hend, -, headers_, hheaders⟩ := HttpMsg.tryDecode_found rfl rfl hsome hmsg
  rw [hzero, hend, hword] at hcut
  exact ⟨hsome, ⟨steps, headers_, hheaders⟩, hcut⟩

/-- A line that fits its array has its break, and so has the decoded status word. -/
theorem not_roundTrip_of_line (h : r.WellFormed) (hline : r.fullLine.length < 1024) :
    ¬ r.RoundTrip := by
  intro hround
  obtain ⟨-, -, hcut⟩ := roundTrip_decoded hround
  have hstarts := fullLine_starts r hline
  have hbreak : OccursAt crlf r.encode (r.lineStart ++ cStr r.statusWord_).length :=
    (occursAt_append_self (List.prefix_refl _)).mono hstarts
  have hlen : (r.lineStart ++ cStr r.statusWord_).length < 1024 := by
    rw [fullLine, List.length_append] at hline
    omega
  obtain ⟨-, hle, -⟩ := findFrom_le hbreak (by decide) (Nat.zero_le _)
  have hmem : 13 ∈ r.statusWord_ := by
    apply decoded_word_broken h _ _ _ hcut
    · refine List.IsPrefix.trans ?_ hstarts
      rw [fullLine, List.append_assoc]
      exact List.prefix_append _ _
    · unfold npos
      omega
    · omega
  exact (h.word.2 13 hmem).1 rfl

/-- `DecodeHeader_` has the colon of the length ahead. -/
theorem not_roundTrip_of_head (h : r.WellFormed) (hhead : r.head.length < 2 ^ 31) :
    ¬ r.RoundTrip := by
  intro hround
  obtain ⟨hsome, ⟨steps, headers_, hheaders⟩, -⟩ := roundTrip_decoded hround
  have hbuf : r.encode <+: r.toHttpMsg.headFrom r.statusLine ++ r.body_ := by
    rw [encode_eq]
    exact List.prefix_refl _
  have hocc := (findFrom_ne_npos hsome).1
  have hbehind := break_behind h (hocc.mono hbuf)
  exact HttpMsg.decodeHeader_stuck hbuf hhead hsome hbehind steps _ hheaders

/-- **Round trip of responses**: no response comes back from its encoding.  (Left
    out is one whose first line is cut and whose head is more than an `int` can
    address.) -/
theorem not_roundTrip (r : HttpResponse) (h : r.WellFormed)
    (hsize : r.fullLine.length < 1024 ∨ r.head.length < 2 ^ 31) : ¬ r.RoundTrip := by
  obtain hline | hhead := hsize
  · exact not_roundTrip_of_line h hline
  · exact not_roundTrip_of_head h hhead

/-- A response with a header and a body. -/
def greeting : HttpResponse :=
  { clear with headers_ := [(ascii "server", ascii "jnet")], body_ := ascii "hello" }

theorem greeting_wellFormed : greeting.WellFormed where
  version := by decide +kernel
  status := by decide
  word := by decide +kernel
  names := by decide +kernel
  values := by decide +kernel
  trimmed := by
    simp [greeting, ascii]
    decide

theorem not_roundTrip_greeting : greeting.WellFormed ∧ ¬ greeting.RoundTrip :=
  ⟨greeting_wellFormed, not_roundTrip greeting greeting_wellFormed (.inl (by decide))⟩

/-- The answer of a server without a handler. -/
def notFound : HttpResponse :=
  { clear with status_ := 404, statusWord_ := ascii "Not Found", body_ := ascii "Not Found" }

theorem roundTrip_notFound : notFound.WellFormed ∧ ¬ notFound.RoundTrip := by
  have hwf : notFound.WellFormed := by
    refine ⟨?_, by decide, ?_, by decide, by decide, by decide⟩
    · simp [notFound, clear, HttpMsg.clear, ascii]
    · simp [notFound, ascii]
  exact ⟨hwf, not_roundTrip_of_line hwf (by decide)⟩

end HttpResponse

end JNet

import JNet.Net.HttpMsg

/-! # Decoding the beginning of a stream

    `TrimeSpaceAndToLower` does not advance in its second loop, so
    `DecodeHeader_` returns only when there is no colon ahead.  The first
    request of a stream has the one of its length, unless the first empty line
    is in its version; then it is decoded without the rest of the version.
-/

namespace JNet

open Memory Strings HttpFault

/-! ## The loops over a header -/

theorem addInt_ok_iff {a b c : Int} :
    addInt a b = .ok c ↔ a + b < 2 ^ 31 ∧ -2 ^ 31 ≤ a + b ∧ c = a + b := by
  unfold addInt
  split
  · next hfits =>
    rw [Except.ok.injEq]
    constructor
    · intro heq
      exact ⟨hfits.2, hfits.1, heq.symm⟩
    · intro hcase
      exact hcase.2.2.symm
  · next hout =>
    constructor
    · intro heq
      cases heq
    · intro hcase
      exact absurd ⟨hcase.2.1, hcase.1⟩ hout

theorem addInt_eq {a b c : Int} (h : addInt a b = .ok c) : c = a + b := (addInt_ok_iff.mp h).2.2

theorem toLower_error (buf : Bytes) {i end_ : Int} (h : i ≤ end_) (steps : Nat) :
    ∃ f, toLower buf steps i end_ = .error f := by
  induction steps with
  | zero => exact ⟨.running, rfl⟩
  | succ steps ih =>
    obtain ⟨f, hf⟩ := ih
    unfold toLower
    rw [if_pos h]
    cases hload : load buf i with
    | error g => exact ⟨g, rfl⟩
    | ok b => exact ⟨f, hf⟩

/-- The colon stops the first loop from both sides. -/
theorem trimeSpace_colon {buf : Bytes} {end_ : Int} (hcolon : load buf end_ = .ok 58) (steps : Nat)
    {start : Int} (hle : start ≤ end_) {r : Int × Int}
    (hok : trimeSpace buf steps start end_ = .ok r) : r.1 ≤ r.2 := by
  induction steps generalizing start with
  | zero => cases hok
  | succ steps ih =>
    unfold trimeSpace at hok
    obtain ⟨b, hb, hok⟩ := bind_ok hok
    split at hok
    · rename_i hspace
      obtain ⟨start', hstart', hok⟩ := bind_ok hok
      have hne : start ≠ end_ := by
        intro heq
        rw [heq, hcolon] at hb
        cases hb
        exact absurd hspace (by decide)
      have hnext := addInt_eq hstart'
      exact ih (by omega) hok
    · obtain ⟨b', hb', hok⟩ := bind_ok hok
      rw [hcolon] at hb'
      cases hb'
      rw [if_neg (by decide)] at hok
      cases hok
      exact hle

/-- `DecodeHeader_` with a colon ahead does not return. -/
theorem decodeHeader_error {buf : Bytes} {start end_ : Int} (hlt : start < end_)
    (hle : start ≤ search colon buf start)
    (hcolon : load buf (search colon buf start) = .ok 58) (steps : Nat) (headers_ : HttpMap)
    {r : HttpMap} : decodeHeader_ buf steps headers_ start end_ ≠ .ok r := by
  intro hok
  cases steps with
  | zero => cases hok
  | succ steps =>
    unfold decodeHeader_ at hok
    rw [if_pos hlt] at hok
    obtain ⟨vStart, -, hok⟩ := bind_ok hok
    obtain ⟨name, hname, -⟩ := bind_ok hok
    unfold trimeSpaceAndToLower at hname
    obtain ⟨bounds, hbounds, hname⟩ := bind_ok hname
    -- The first loop has left `start ≤ end`, so the second one does not end.
    obtain ⟨f, hf⟩ := toLower_error buf (trimeSpace_colon hcolon steps hle hbounds) steps
    obtain ⟨u, hu, -⟩ := bind_ok hname
    rw [hf] at hu
    cases hu

/-! ## The layout of a request -/

theorem crlf_starts_break : crlf <+: crlfcrlf := ⟨crlf, rfl⟩

/-- A line without its end. -/
def Unbroken (l : Bytes) : Prop := l ≠ [] ∧ ∀ b ∈ l, b ≠ 13 ∧ b ≠ 10

/-- Lines with their ends. -/
def lineBlock (ls : List Bytes) : Bytes := (ls.map (· ++ crlf)).flatten

theorem lineBlock_cons (l : Bytes) (ls : List Bytes) (t : Bytes) :
    lineBlock (l :: ls) ++ t = l ++ (crlf ++ (lineBlock ls ++ t)) := by
  simp [lineBlock]

/-- The first byte of a line is no part of a line break. -/
theorem lineBlock_first {l : Bytes} (hl : Unbroken l) (ls : List Bytes) (t : Bytes) :
    ∃ b, (lineBlock (l :: ls) ++ t)[0]? = some b ∧ b ≠ 13 ∧ b ≠ 10 := by
  obtain ⟨hne, hb⟩ := hl
  obtain ⟨b, l', rfl⟩ := List.exists_cons_of_ne_nil hne
  exact ⟨b, by rw [lineBlock_cons]; rfl, hb b (by simp)⟩

theorem break_bytes {s : Bytes} {i : Nat} (h : OccursAt crlfcrlf s i) :
    s[i]? = some 13 ∧ s[i + 1]? = some 10 ∧ s[i + 2]? = some 13 := by
  have hget := occursAt_iff.mp h
  exact ⟨hget 0 (by decide), hget 1 (by decide), hget 2 (by decide)⟩

/-- An empty line comes behind all of them at the earliest. -/
theorem lineBlock_no_break {ls : List Bytes} (hls : ∀ l ∈ ls, Unbroken l) {t : Bytes}
    (ht : t[0]? ≠ some 13) {i : Nat} (hi : i < (lineBlock ls).length) :
    ¬ OccursAt crlfcrlf (lineBlock ls ++ t) i := by
  induction ls generalizing i with
  | nil => cases hi
  | cons l ls ih =>
    intro hocc
    have hl : Unbroken l := hls l (by simp)
    have hnext : (lineBlock ls ++ t)[0]? ≠ some 13 := by
      cases ls with
      | nil => exact ht
      | cons l' ls =>
        obtain ⟨b, hb, hcr, -⟩ := lineBlock_first (hls l' (by simp)) ls t
        rw [hb]
        simpa using hcr
    rw [lineBlock_cons] at hocc
    obtain ⟨h0, -, h2⟩ := break_bytes hocc
    have hcrlf : crlf.length = 2 := rfl
    -- The break starts in the line, at its end, or behind it.
    by_cases hin : i < l.length
    · rw [List.getElem?_append_left hin] at h0
      exact (hl.2 13 (List.mem_of_getElem? h0)).1 rfl
    · obtain ⟨j, rfl⟩ : ∃ j, i = l.length + j := ⟨i - l.length, by omega⟩
      rw [occursAt_append_right] at hocc
      obtain ⟨h0, -, h2⟩ := break_bytes hocc
      by_cases hzero : j = 0
      · subst hzero
        rw [List.getElem?_append_right (by rw [hcrlf])] at h2
        exact hnext h2
      · by_cases hone : j = 1
        · subst hone
          rw [List.getElem?_append_left (by rw [hcrlf]; decide)] at h0
          exact absurd h0 (by decide)
        · obtain ⟨k, rfl⟩ : ∃ k, j = crlf.length + k := ⟨j - 2, by omega⟩
          rw [occursAt_append_right] at hocc
          refine ih (fun l' hl' => hls l' (by simp [hl'])) ?_ hocc
          have hlen : (lineBlock (l :: ls)).length =
              l.length + (crlf.length + (lineBlock ls).length) := by
            simp [lineBlock]
          omega

namespace HttpMsg

/-- The lines between the first one and that of the length. -/
def lines (m : HttpMsg) : List Bytes := m.headers_.lines ++ [ascii "Connection: Keep-Alive"]

/-- Everything before the body, behind a given first line. -/
def headFrom (m : HttpMsg) (line : Bytes) : Bytes :=
  line ++ (lineBlock m.lines ++
    (ascii "Content-Length: " ++ (decimal m.body_.length ++ crlfcrlf)))

variable {m : HttpMsg} {line : Bytes}

theorem encode_headFrom (m : HttpMsg) (line : Bytes) :
    line ++ m.encodeRest = m.headFrom line ++ m.body_ := by
  have hlines : lineBlock m.lines = (m.headers_.lines.map (· ++ crlf)).flatten ++
      ascii "Connection: Keep-Alive\r\n" := by
    simp [lineBlock, lines]
    rfl
  have hend : crlfcrlf = crlf ++ crlf := rfl
  unfold headFrom encodeRest
  rw [hlines, hend]
  simp only [List.append_assoc]

/-- Names and values without line breaks make unbroken lines. -/
theorem lines_unbroken (hnames : ∀ hd ∈ m.headers_, ∀ b ∈ hd.1, b ≠ 13 ∧ b ≠ 10)
    (hvalues : ∀ hd ∈ m.headers_, ∀ b ∈ hd.2, b ≠ 13 ∧ b ≠ 10) : ∀ l ∈ m.lines, Unbroken l := by
  intro l hl
  obtain hl | hl := List.mem_append.mp hl
  · obtain ⟨hd, hmem, rfl⟩ := List.mem_map.mp hl
    refine ⟨by simp [ascii], ?_⟩
    intro b hb
    obtain hb | hb := List.mem_append.mp hb
    · obtain hb | hb := List.mem_append.mp hb
      · exact hnames hd hmem b hb
      · have hsep : ∀ b ∈ ascii ": ", b ≠ 13 ∧ b ≠ 10 := by simp [ascii]
        exact hsep b hb
    · exact hvalues hd hmem b hb
  · rw [List.mem_singleton.mp hl]
    exact ⟨by simp [ascii], by simp [ascii]⟩

theorem lines_cons (h : ∀ l ∈ m.lines, Unbroken l) : ∃ l ls, m.lines = l :: ls ∧ Unbroken l := by
  obtain ⟨l, ls, hls⟩ := List.exists_cons_of_ne_nil (show m.lines ≠ [] by simp [lines])
  exact ⟨l, ls, hls, h l (by simp [hls])⟩

/-- An empty line comes with the end of the lines, or in the first one. -/
theorem break_cases (h : ∀ l ∈ m.lines, Unbroken l) {t : Bytes} {p : Nat}
    (hocc : OccursAt crlfcrlf
      (line ++ (lineBlock m.lines ++ (ascii "Content-Length: " ++ t))) p) :
    p < line.length ∨ line.length + (lineBlock m.lines).length + 16 ≤ p := by
  by_cases hfirst : p < line.length
  · exact .inl hfirst
  · right
    obtain ⟨j, rfl⟩ : ∃ j, p = line.length + j := ⟨p - line.length, by omega⟩
    rw [occursAt_append_right] at hocc
    -- In the lines it would be an empty one; in the name of the length there is no CR.
    by_cases hlines : j < (lineBlock m.lines).length
    · exact absurd hocc (lineBlock_no_break h (by simp [ascii]) hlines)
    · obtain ⟨k, rfl⟩ : ∃ k, j = (lineBlock m.lines).length + k :=
        ⟨j - (lineBlock m.lines).length, by omega⟩
      rw [occursAt_append_right] at hocc
      by_cases hlen : k < 16
      · have hbyte : (ascii "Content-Length: ")[k]? = some 13 := by
          rw [← (break_bytes hocc).1, List.getElem?_append_left hlen]
        have hnone : ∀ b ∈ ascii "Content-Length: ", b ≠ 13 := by simp [ascii]
        exact absurd rfl (hnone 13 (List.mem_of_getElem? hbyte))
      · omega

/-- The byte behind the first line starts a header. -/
theorem behind_line (h : ∀ l ∈ m.lines, Unbroken l) (t : Bytes) :
    ∃ b, (m.headFrom line ++ t)[line.length]? = some b ∧ b ≠ 13 ∧ b ≠ 10 := by
  obtain ⟨l, ls, hls, hl⟩ := lines_cons h
  obtain ⟨b, hb, hne⟩ := lineBlock_first hl ls
    (ascii "Content-Length: " ++ (decimal m.body_.length ++ crlfcrlf) ++ t)
  refine ⟨b, ?_, hne⟩
  unfold headFrom
  rw [hls, List.append_assoc, List.getElem?_append_right (Nat.le_refl _), Nat.sub_self,
    List.append_assoc]
  exact hb

/-- An empty line that starts in the first line ends in it. -/
theorem break_within (h : ∀ l ∈ m.lines, Unbroken l) {t : Bytes} {p : Nat}
    (hocc : OccursAt crlfcrlf (m.headFrom line ++ t) p) (hp : p < line.length) :
    p + 4 ≤ line.length := by
  have hget := occursAt_iff.mp hocc
  obtain ⟨b, hb, hcr, hlf⟩ := @behind_line m line h t
  by_contra hshort
  obtain heq | heq | heq : line.length = p + 1 ∨ line.length = p + 2 ∨ line.length = p + 3 := by
    omega
  · rw [heq, hget 1 (by decide)] at hb
    exact hlf (Option.some.inj hb).symm
  · rw [heq, hget 2 (by decide)] at hb
    exact hcr (Option.some.inj hb).symm
  · rw [heq, hget 3 (by decide)] at hb
    exact hlf (Option.some.inj hb).symm

/-- The break behind the lines, and the colon behind that. -/
theorem lines_end (m : HttpMsg) (line t : Bytes) :
    ∃ j, j + 2 = line.length + (lineBlock m.lines).length ∧
      OccursAt crlf (m.headFrom line ++ t) j ∧ OccursAt colon (m.headFrom line ++ t) (j + 16) := by
  let before := line ++ (lineBlock m.headers_.lines ++ ascii "Connection: Keep-Alive")
  let rest := ascii ": " ++ (decimal m.body_.length ++ crlfcrlf) ++ t
  have hblock : lineBlock m.lines =
      lineBlock m.headers_.lines ++ ascii "Connection: Keep-Alive" ++ crlf := by
    simp [lineBlock, lines]
  have hlength : ascii "Content-Length: " = ascii "Content-Length" ++ ascii ": " := rfl
  have hsplit : m.headFrom line ++ t = before ++ (crlf ++ (ascii "Content-Length" ++ rest)) := by
    simp only [headFrom, before, rest, hblock, hlength, List.append_assoc]
  refine ⟨before.length, ?_, ?_, ?_⟩
  · simp only [hblock, before, List.length_append]
    have hcrlf : crlf.length = 2 := rfl
    omega
  · rw [hsplit]
    exact occursAt_append_self (List.prefix_append _ _)
  · rw [hsplit, occursAt_append_right]
    exact ⟨ascii " " ++ (decimal m.body_.length ++ crlfcrlf) ++ t, by simp [rest]; rfl⟩

/-- The first empty line ends the head at the latest. -/
theorem found_lt {buf t : Bytes} (hbuf : buf <+: m.headFrom line ++ t)
    (hsome : findFrom crlfcrlf buf 0 ≠ npos) :
    findFrom crlfcrlf buf 0 < (m.headFrom line).length := by
  obtain ⟨hocc, hleast⟩ := findFrom_ne_npos hsome
  generalize findFrom crlfcrlf buf 0 = p at hocc hleast
  have hlen : p + 4 ≤ buf.length := hocc.length_le (by decide)
  by_contra hge
  -- Otherwise the buffer has the whole head, with its own empty line before `p`.
  have hhead : m.headFrom line <+: buf :=
    List.prefix_of_prefix_length_le (List.prefix_append _ _) hbuf (by omega)
  let before := line ++ (lineBlock m.lines ++
    (ascii "Content-Length: " ++ decimal m.body_.length))
  have hsplit : m.headFrom line = before ++ crlfcrlf := by
    simp only [headFrom, before, List.append_assoc]
  have hlast : OccursAt crlfcrlf (m.headFrom line) before.length := by
    rw [hsplit]
    exact occursAt_append_self (List.prefix_refl _)
  have hbound := hlast.length_le (by decide)
  have hbreak : crlfcrlf.length = 4 := rfl
  exact hleast before.length (Nat.zero_le _) (by omega) (hlast.mono hhead)

end HttpMsg

namespace HttpRequest

/-- The lines between the first one and that of the length. -/
def lines (r : HttpRequest) : List Bytes :=
  r.headers_.lines ++ [ascii "Connection: Keep-Alive"]

/-- Everything before the body. -/
def head (r : HttpRequest) : Bytes :=
  r.requestLine ++ (lineBlock r.lines ++
    (ascii "Content-Length: " ++ (decimal r.body_.length ++ crlfcrlf)))

/-- What stands before the version in the first line. -/
def lineStart (r : HttpRequest) : Bytes := cStr r.method_ ++ blank ++ cStr r.query_uri_ ++ blank

variable {r : HttpRequest}

theorem head_eq (r : HttpRequest) : r.head = r.toHttpMsg.headFrom r.requestLine := rfl

theorem encode_eq (r : HttpRequest) : r.encode = r.head ++ r.body_ := by
  rw [encode, head_eq, HttpMsg.encode_headFrom]

theorem WellFormed.unbroken (h : r.WellFormed) : ∀ l ∈ r.toHttpMsg.lines, Unbroken l := by
  apply HttpMsg.lines_unbroken _ h.values
  intro hd hmem b hb
  exact ⟨(h.names hd hmem b hb).1, (h.names hd hmem b hb).2.1⟩

theorem lineStart_unbroken (h : r.WellFormed) : 13 ∉ r.lineStart := by
  intro hb
  have hblank : 13 ∉ blank := by simp [blank, ascii]
  simp only [lineStart, List.mem_append] at hb
  obtain ((hb | hb) | hb) | hb := hb
  · exact (h.method 13 (List.takeWhile_subset _ hb)).2.1 rfl
  · exact hblank hb
  · exact (h.uri.2 13 (List.takeWhile_subset _ hb)).2.1 rfl
  · exact hblank hb

end HttpRequest

/-! ## What `TryDecode` returns -/

/-- A search that finds something within the range of `int`. -/
theorem search_le {pat buf : Bytes} {i : Nat} {pos : Int} (hocc : OccursAt pat buf i)
    (hne : pat ≠ []) (hpos : 0 ≤ pos) (hle : pos ≤ i) (hi : i < 2 ^ 31) :
    ∃ k : Nat, search pat buf pos = k ∧ pos ≤ k ∧ k ≤ i ∧ OccursAt pat buf k := by
  have hsize : toSize pos = pos.toNat := toSize_of_nonneg hpos (by omega)
  obtain ⟨hge, hfound, hk⟩ := findFrom_le hocc hne (show pos.toNat ≤ i by omega)
  refine ⟨findFrom pat buf pos.toNat, ?_, by omega, hfound, hk⟩
  unfold search
  rw [hsize, toInt32_of_fits (by omega) (by omega)]

/-- The second blank, found behind the first one. -/
theorem blanks_found {start buf : Bytes} {i j : Nat} (hstart : start <+: buf)
    (hi : OccursAt blank start i) (hj : OccursAt blank start j) (hij : i < j)
    (hsmall : j < 2 ^ 31) :
    ∃ k : Nat, search blank buf (search blank buf 0 + 1) = k ∧ 1 ≤ k ∧ k ≤ j := by
  obtain ⟨k₁, hk₁, -, hk₁le, -⟩ :=
    search_le (hi.mono hstart) (by decide) (show (0 : Int) ≤ 0 by omega) (by omega) (by omega)
  obtain ⟨k₂, hk₂, hk₂ge, hk₂le, -⟩ :=
    search_le (hj.mono hstart) (by decide) (show (0 : Int) ≤ (k₁ : Int) + 1 by omega)
      (by omega) (by omega)
  rw [hk₁, hk₂]
  exact ⟨k₂, rfl, by omega, hk₂le⟩

/-- `lineEnd` of `TryDecode_`. -/
def firstLineEnd (buf : Bytes) : Int := toInt32 (sizeSub (findFrom crlf buf 0) 1)

theorem firstLineEnd_eq {buf : Bytes} (h : findFrom crlf buf 0 < 2 ^ 31) :
    firstLineEnd buf = findFrom crlf buf 0 - 1 := by
  unfold firstLineEnd
  by_cases hzero : findFrom crlf buf 0 = 0
  · rw [hzero]
    decide
  · rw [sizeSub_of_le (by omega) (by omega), toInt32_of_fits (by omega) (by omega)]
    omega

theorem cut_eq {buf v : Bytes} {pos n : Int} (h : cut buf pos n = .ok v) :
    v = (buf.drop (toSize pos)).take (toSize n) := by
  unfold cut substr at h
  by_cases hpos : toSize pos ≤ buf.length
  · rw [if_pos hpos] at h
    cases h
    rfl
  · rw [if_neg hpos] at h
    cases h

/-- The byte at which a search stops. -/
theorem load_of_occursAt {b : UInt8} {buf : Bytes} {k : Nat} (h : OccursAt [b] buf k) :
    HttpFault.load buf k = .ok b := by
  have hk : k + 1 ≤ buf.length := h.length_le (by simp)
  unfold HttpFault.load charAt
  rw [if_pos (by omega)]
  simp [List.getD_eq_getElem?_getD, occursAt_singleton.mp h]

namespace HttpMsg

variable {m m' : HttpMsg} {steps : Nat} {buf : Bytes} {result : HttpResult} {start end_ : Int}

theorem tryDecode_waits (hcomplete : m.complete_ = false) (hlen : m.contentLen_ = 0)
    (hnone : findFrom crlfcrlf buf 0 = npos) :
    m.tryDecode_ steps buf 0 0 = .ok (m, .NotComplete, 0, 0) := by
  unfold tryDecode_
  rw [if_neg (by rw [hcomplete]; decide), if_pos hlen, if_pos hnone]
  rfl

theorem tryDecode_found (hcomplete : m.complete_ = false) (hlen : m.contentLen_ = 0)
    (hsome : findFrom crlfcrlf buf 0 ≠ npos)
    (hok : m.tryDecode_ steps buf 0 0 = .ok (m', result, start, end_)) :
    result = .Complete ∧ start = 0 ∧ end_ = firstLineEnd buf ∧ firstLineEnd buf + 4 < 2 ^ 31 ∧
      ∃ headers_, decodeHeader_ buf steps m.headers_ (firstLineEnd buf + 4)
        (toInt32 (findFrom crlfcrlf buf 0)) = .ok headers_ := by
  unfold tryDecode_ at hok
  rw [if_neg (by rw [hcomplete]; decide), if_pos hlen, if_neg hsome] at hok
  obtain ⟨start', hstart', hok⟩ := bind_ok hok
  obtain ⟨headers_, hheaders, hok⟩ := bind_ok hok
  rw [addInt_eq hstart'] at hheaders
  dsimp only at hok
  split at hok
  · cases hok
    exact ⟨rfl, rfl, rfl, (addInt_ok_iff.mp hstart').1, headers_, hheaders⟩
  · cases hok

/-- The colon of the length is ahead of `DecodeHeader_`. -/
theorem decodeHeader_stuck {line t : Bytes} (hbuf : buf <+: m.headFrom line ++ t)
    (hsmall : (m.headFrom line).length < 2 ^ 31) (hsome : findFrom crlfcrlf buf 0 ≠ npos)
    (hlines : line.length + (lineBlock m.lines).length + 16 ≤ findFrom crlfcrlf buf 0)
    (steps : Nat) (headers_ : HttpMap) {headers' : HttpMap} :
    decodeHeader_ buf steps headers_ (firstLineEnd buf + 4) (toInt32 (findFrom crlfcrlf buf 0)) ≠
      .ok headers' := by
  have hlt := found_lt hbuf hsome
  have hocc := (findFrom_ne_npos hsome).1
  generalize findFrom crlfcrlf buf 0 = p at hlt hocc hlines
  have hlen : p + 4 ≤ buf.length := hocc.length_le (by decide)
  obtain ⟨j, hj, hbreak, hcolon⟩ := lines_end m line t
  have hcrlf : crlf.length = 2 := rfl
  have hone : colon.length = 1 := rfl
  obtain ⟨-, hfle, -⟩ :=
    findFrom_le (hbreak.of_prefix hbuf (by omega)) (by decide) (Nat.zero_le j)
  -- The scan starts at `f + 3`, where `f + 2` is at most the end of the lines.
  rw [firstLineEnd_eq (by omega), toInt32_of_fits (by omega) (by omega)]
  generalize findFrom crlf buf 0 = f at hfle
  obtain ⟨k, hk, hge, -, hat⟩ :=
    search_le (hcolon.of_prefix hbuf (by omega)) (by decide)
      (show (0 : Int) ≤ (f : Int) - 1 + 4 by omega) (by omega) (by omega)
  refine decodeHeader_error (by omega) ?_ ?_ steps headers_
  · rw [hk]
    exact hge
  · rw [hk]
    exact load_of_occursAt hat

end HttpMsg

theorem HttpRequest.tryDecode_ok {r r' : HttpRequest} {steps : Nat} {buf : Bytes}
    {result : HttpResult} (hok : r.tryDecode steps buf = .ok (r', result)) :
    ∃ msg res start end_ i, r.toHttpMsg.tryDecode_ steps buf 0 0 = .ok (msg, res, start, end_) ∧
      (result = res ∨ result = .Error) ∧
      r'.complete_ = msg.complete_ ∧ r'.contentLen_ = msg.contentLen_ ∧
      i = search blank buf (search blank buf start + 1) ∧
      cut buf (i + 1) (end_ - i) = .ok r'.version_ := by
  unfold tryDecode at hok
  obtain ⟨⟨msg, res, start, end_⟩, hmsg, hok⟩ := bind_ok hok
  obtain ⟨method_, -, hok⟩ := bind_ok hok
  obtain ⟨oldI, holdI, hok⟩ := bind_ok hok
  obtain ⟨query_uri_, -, hok⟩ := bind_ok hok
  obtain ⟨pos, hpos, hok⟩ := bind_ok hok
  obtain ⟨version_, hversion, hok⟩ := bind_ok hok
  rw [addInt_eq hpos] at hversion
  rw [addInt_eq holdI] at hversion
  refine ⟨msg, res, start, end_, search blank buf (search blank buf start + 1), hmsg, ?_⟩
  split at hok
  · cases hok
    exact ⟨.inl rfl, rfl, rfl, rfl, hversion⟩
  · cases hok
    exact ⟨.inr rfl, rfl, rfl, rfl, hversion⟩

namespace HttpRequest

variable {r : HttpRequest} {t buf : Bytes} {p : Nat}

/-- The first line without the limit of `snprintf`. -/
theorem requestLine_eq (r : HttpRequest) :
    r.requestLine = (r.lineStart ++ (cStr r.version_ ++ crlf)).take 4095 := by
  simp only [requestLine, lineStart, List.append_assoc]

theorem requestLine_starts_head (r : HttpRequest) (t : Bytes) : r.requestLine <+: r.head ++ t := by
  unfold head
  rw [List.append_assoc]
  exact List.prefix_append _ _

/-- It is in the version. -/
theorem version_broken (h : r.WellFormed) (hocc : OccursAt crlfcrlf (r.head ++ t) p)
    (hp : p < r.requestLine.length) :
    r.lineStart.length ≤ p ∧ OccursAt crlf r.version_ (p - r.lineStart.length) := by
  have hline : OccursAt crlfcrlf r.requestLine p :=
    hocc.of_prefix (requestLine_starts_head r t) (HttpMsg.break_within h.unbroken hocc hp)
  rw [requestLine_eq] at hline
  have hfull := hline.mono (List.take_prefix _ _)
  have hstart : r.lineStart.length ≤ p :=
    hfull.behind rfl (List.prefix_append _ _) (lineStart_unbroken h)
  obtain ⟨j, rfl⟩ : ∃ j, p = r.lineStart.length + j := ⟨p - r.lineStart.length, by omega⟩
  rw [occursAt_append_right] at hfull
  have hend : j + 4 ≤ (cStr r.version_ ++ crlf).length := hfull.length_le (by decide)
  have hcrlf : crlf.length = 2 := rfl
  have hbreak : OccursAt crlf (cStr r.version_ ++ crlf) j := crlf_starts_break.trans hfull
  rw [List.length_append] at hend
  have hversion : OccursAt crlf (cStr r.version_) j :=
    hbreak.of_prefix (List.prefix_append _ _) (by omega)
  refine ⟨hstart, ?_⟩
  rw [Nat.add_sub_cancel_left]
  exact hversion.mono (List.takeWhile_prefix _)

/-- The blanks around the uri. -/
theorem lineStart_blanks (r : HttpRequest) :
    OccursAt blank r.lineStart (cStr r.method_).length ∧
      OccursAt blank r.lineStart ((cStr r.method_).length + (1 + (cStr r.query_uri_).length)) := by
  have hsplit : r.lineStart = cStr r.method_ ++ (blank ++ (cStr r.query_uri_ ++ blank)) := by
    simp only [lineStart, List.append_assoc]
  have hblank : blank.length = 1 := rfl
  rw [hsplit]
  constructor
  · exact occursAt_append_self (List.prefix_append _ _)
  · rw [occursAt_append_right, ← hblank, occursAt_append_right]
    exact occursAt_append_self (List.prefix_refl _)

/-- What is decoded ends at the first line break, and the version does not. -/
theorem decoded_version_ne (h : r.WellFormed) (hbuf : buf <+: r.head ++ t)
    (hocc : OccursAt crlfcrlf buf p) (hp : p < r.requestLine.length) {i : Int} {v : Bytes}
    (hi : i = search blank buf (search blank buf 0 + 1))
    (hcut : cut buf (i + 1) (firstLineEnd buf - i) = .ok v) : v ≠ r.version_ := by
  obtain ⟨hstart, hbreak⟩ := version_broken h (hocc.mono hbuf) hp
  have hshort : r.requestLine.length ≤ 4095 := by
    rw [requestLine_eq]
    exact List.length_take_le _ _
  have hlen : p + 4 ≤ buf.length := hocc.length_le (by decide)
  have hprefix : r.lineStart <+: buf := by
    have hline : r.lineStart <+: r.requestLine :=
      List.prefix_of_prefix_length_le (List.prefix_append _ _)
        (requestLine_eq r ▸ List.take_prefix _ _) (by omega)
    have hhead := hline.trans (requestLine_starts_head r t)
    exact List.prefix_of_prefix_length_le hhead hbuf (by omega)
  -- Both blanks stand before the version.
  obtain ⟨hfirst, hsecond⟩ := lineStart_blanks r
  have hbound := hsecond.length_le (by decide)
  have hblank : blank.length = 1 := rfl
  obtain ⟨k, hk, -, hkle⟩ := blanks_found hprefix hfirst hsecond (by omega) (by omega)
  rw [hk] at hi
  clear hk
  subst hi
  -- The first line break stands behind them.
  obtain ⟨-, hfle, hf⟩ := findFrom_le (crlf_starts_break.trans hocc) (by decide) (Nat.zero_le p)
  have hfge : r.lineStart.length ≤ findFrom crlf buf 0 :=
    OccursAt.behind hf rfl hprefix (lineStart_unbroken h)
  have hleast := (findFrom_ne_npos (show findFrom crlf buf 0 ≠ npos by unfold npos; omega)).2
  rw [firstLineEnd_eq (by omega)] at hcut
  generalize findFrom crlf buf 0 = f at hcut hfle hfge hleast
  -- What is cut ends before `f`, and a break in it would be an earlier one.
  have hv := cut_eq hcut
  have hpos : toSize (k + 1) = k + 1 := by
    rw [toSize_of_nonneg (by omega) (by omega)]
    rfl
  have hn : toSize (f - 1 - k) = f - 1 - k := by
    rw [toSize_of_nonneg (by omega) (by omega)]
    omega
  rw [hpos, hn] at hv
  intro heq
  rw [← heq, hv] at hbreak
  have hinside := hbreak.length_le (by decide)
  have htake : ((buf.drop (k + 1)).take (f - 1 - k)).length ≤ f - 1 - k :=
    List.length_take_le _ _
  have hcrlfLen : crlf.length = 2 := rfl
  exact hleast _ (Nat.zero_le _) (by omega) (occursAt_drop.mp (hbreak.mono (List.take_prefix _ _)))

/-- What `TryDecode` makes of the beginning of a stream. -/
theorem tryDecode_first (h : r.WellFormed) (hsmall : r.head.length < 2 ^ 31)
    (hbuf : buf <+: r.head ++ t) {req req' : HttpRequest} {steps : Nat} {result : HttpResult}
    (hcomplete : req.complete_ = false) (hlen : req.contentLen_ = 0)
    (hok : req.tryDecode steps buf = .ok (req', result)) :
    result = .Error ∨
      (result = .NotComplete ∧ req'.complete_ = false ∧ req'.contentLen_ = 0) ∨
      (result = .Complete ∧ req'.version_ ≠ r.version_) := by
  obtain ⟨msg, res, start, end_, i, hmsg, hresult, hcomplete', hlen', hi, hcut⟩ := tryDecode_ok hok
  obtain rfl | hresult := hresult
  · right
    by_cases hsome : findFrom crlfcrlf buf 0 = npos
    -- No empty line yet: the message stays as it was.
    · rw [HttpMsg.tryDecode_waits hcomplete hlen hsome] at hmsg
      cases hmsg
      exact .inl ⟨rfl, hcomplete'.trans hcomplete, hlen'.trans hlen⟩
    · obtain ⟨rfl, rfl, hend, -, headers_, hheaders⟩ :=
        HttpMsg.tryDecode_found hcomplete hlen hsome hmsg
      rw [hend] at hcut
      have hocc := (findFrom_ne_npos hsome).1
      have hwhole := hocc.mono hbuf
      unfold head at hwhole
      simp only [List.append_assoc] at hwhole
      obtain hfirst | hlines := HttpMsg.break_cases h.unbroken hwhole
      · exact .inr ⟨rfl, decoded_version_ne h hbuf hocc hfirst hi hcut⟩
      · exact absurd hheaders (HttpMsg.decodeHeader_stuck hbuf hsmall hsome hlines steps _)
  · exact .inl hresult

end HttpRequest

end JNet

import JNet.Net.HttpDecode

/-! # Which inputs are decoded at all

    A header is never decoded: with a colon ahead the loop over its name does not
    end, and without one the line is read at position -1.  So a fresh message
    decodes the inputs in which no header follows the first line, and no others,
    as long as the positions fit an `int`.
-/

namespace JNet

open Memory Strings HttpFault

/-- The call returns after some number of steps. -/
def Returns {α : Type} (call : Nat → Except HttpFault α) : Prop := ∃ steps r, call steps = .ok r

/-- Nothing stands between the first line and an empty one that `DecodeHeader_`
    would look at. -/
def HeaderFree (buf : Bytes) : Prop :=
  findFrom crlfcrlf buf 0 = npos ∨ findFrom crlfcrlf buf 0 ≤ findFrom crlf buf 0 + 3

instance (buf : Bytes) : Decidable (HeaderFree buf) := inferInstanceAs (Decidable (_ ∨ _))

/-- A position that an `int` can hold, and its successor. -/
def FitsInt (k : Nat) : Prop := k = npos ∨ k + 1 < 2 ^ 31

/-- The positions that are taken from the first line fit an `int`: where
    `DecodeHeader_` starts, and the two blanks. -/
structure Addressable (buf : Bytes) : Prop where
  line : findFrom crlfcrlf buf 0 = npos ∨ findFrom crlf buf 0 + 3 < 2 ^ 31
  first : FitsInt (findFrom blank buf 0)
  second : FitsInt (findFrom blank buf (findFrom blank buf 0 + 1))

/-! ## Positions -/

section positions

variable {buf pat : Bytes}

theorem search_npos {pos : Int} (h : findFrom pat buf (toSize pos) = npos) :
    search pat buf pos = -1 := by
  unfold search
  rw [h]
  decide

theorem found_inside {pos : Nat} (hne : pat ≠ []) (h : findFrom pat buf pos ≠ npos) :
    findFrom pat buf pos + 1 ≤ buf.length := by
  have hend := (findFrom_ne_npos h).1.length_le hne
  have hpos : 0 < pat.length := List.length_pos_iff.mpr hne
  omega

theorem search_found {pos : Int} (hsmall : findFrom pat buf (toSize pos) < 2 ^ 31) :
    search pat buf pos = findFrom pat buf (toSize pos) := by
  unfold search
  generalize findFrom pat buf (toSize pos) = k at hsmall
  exact toInt32_of_fits (by omega) (by omega)

/-- In a string that an `int` can address every position fits. -/
theorem fitsInt_of_length (hlen : buf.length < 2 ^ 31) (hne : pat ≠ []) (pos : Nat) :
    FitsInt (findFrom pat buf pos) := by
  by_cases h : findFrom pat buf pos = npos
  · exact .inl h
  · have hinside := found_inside hne h
    exact .inr (by omega)

/-- What a search gives is -1 or a position, if that fits. -/
theorem search_range {pos : Int} (hne : pat ≠ []) (h : FitsInt (findFrom pat buf (toSize pos))) :
    -1 ≤ search pat buf pos ∧ search pat buf pos + 1 ≤ buf.length ∧
      search pat buf pos + 1 < 2 ^ 31 := by
  by_cases hnone : findFrom pat buf (toSize pos) = npos
  · rw [search_npos hnone]
    omega
  · have hinside := found_inside hne hnone
    have hsmall := h.resolve_left hnone
    rw [search_found (by omega)]
    generalize findFrom pat buf (toSize pos) = k at hinside hsmall
    omega

/-- A search from a position on finds nothing before it. -/
theorem le_findFrom {pos : Nat} (h : findFrom pat buf pos ≠ npos) : pos ≤ findFrom pat buf pos := by
  unfold findFrom at h ⊢
  cases hfind : find pat (buf.drop pos) with
  | none => simp [hfind] at h
  | some j => simp

theorem addInt_ok {a b : Int} (hlow : -2 ^ 31 ≤ a + b) (hhigh : a + b < 2 ^ 31) :
    addInt a b = .ok (a + b) := addInt_ok_iff.mpr ⟨hhigh, hlow, rfl⟩

theorem cut_ok {pos : Int} (hlow : 0 ≤ pos) (hhigh : pos ≤ buf.length) (hsmall : pos < 2 ^ 31)
    (n : Int) : ∃ s, cut buf pos n = .ok s := by
  have hpos : toSize pos ≤ buf.length := by
    rw [toSize_of_nonneg hlow (by omega)]
    omega
  refine ⟨(buf.drop (toSize pos)).take (toSize n), ?_⟩
  unfold cut substr
  rw [if_pos hpos]

/-- The first empty line is inside the input, and not before the first line break. -/
theorem found_bounds (hsome : findFrom crlfcrlf buf 0 ≠ npos) :
    findFrom crlfcrlf buf 0 + 4 ≤ buf.length ∧ findFrom crlf buf 0 ≤ findFrom crlfcrlf buf 0 := by
  have hocc := (findFrom_ne_npos hsome).1
  obtain ⟨-, hle, -⟩ :=
    findFrom_le (crlf_starts_break.trans hocc) (by decide) (Nat.zero_le _)
  exact ⟨hocc.length_le (by decide), hle⟩

theorem addressable_of_length (hlen : buf.length < 2 ^ 31) : Addressable buf where
  line := by
    by_cases hsome : findFrom crlfcrlf buf 0 = npos
    · exact .inl hsome
    · obtain ⟨hend, hle⟩ := found_bounds hsome
      exact .inr (by omega)
  first := fitsInt_of_length hlen (by decide) _
  second := fitsInt_of_length hlen (by decide) _

/-- The blanks as the decoder of a first line finds them. -/
theorem Addressable.blanks (h : Addressable buf) :
    ∃ i j : Int, search blank buf 0 = i ∧ search blank buf (i + 1) = j ∧
      (-1 ≤ i ∧ i + 1 ≤ buf.length ∧ i + 1 < 2 ^ 31) ∧
      (-1 ≤ j ∧ j + 1 ≤ buf.length ∧ j + 1 < 2 ^ 31) := by
  have hzero : toSize 0 = 0 := rfl
  refine ⟨_, _, rfl, rfl, search_range (by decide) (by rw [hzero]; exact h.first), ?_⟩
  apply search_range (by decide)
  by_cases hnone : findFrom blank buf 0 = npos
  -- Without a blank the second search starts at 0 again.
  · have hsearch : search blank buf 0 = -1 := search_npos (by rw [hzero]; exact hnone)
    rw [hsearch]
    exact .inl hnone
  · have hsmall := h.first.resolve_left hnone
    have hsearch : search blank buf 0 = findFrom blank buf 0 := search_found (by rw [hzero]; omega)
    have hnext : toSize (search blank buf 0 + 1) = findFrom blank buf 0 + 1 := by
      rw [hsearch, toSize_of_nonneg (by omega) (by omega)]
      rfl
    rw [hnext]
    exact h.second

end positions

/-! ## Headers -/

/-- Without a colon the end of the name is -1, and the first loop reads there. -/
theorem trimeSpace_negative {buf : Bytes} {end_ : Int} (hend : end_ < 0) (steps : Nat)
    (start : Int) {r : Int × Int} : trimeSpace buf steps start end_ ≠ .ok r := by
  have hload : load buf end_ = .error .outOfBounds := by
    unfold HttpFault.load charAt
    rw [if_neg (by omega)]
  induction steps generalizing start with
  | zero => exact fun h => nomatch h
  | succ steps ih =>
    intro hok
    unfold trimeSpace at hok
    obtain ⟨b, -, hok⟩ := bind_ok hok
    split at hok
    · obtain ⟨start', -, hok⟩ := bind_ok hok
      exact ih start' hok
    · obtain ⟨b', hb', -⟩ := bind_ok hok
      rw [hload] at hb'
      cases hb'

/-- `DecodeHeader_` does not return once its loop is entered. -/
theorem decodeHeader_entered {buf : Bytes} (hlen : buf.length < 2 ^ 31) {start end_ : Int}
    (hstart : 0 ≤ start) (hbound : start < 2 ^ 31) (hlt : start < end_) (steps : Nat)
    (headers_ : HttpMap) {r : HttpMap} : decodeHeader_ buf steps headers_ start end_ ≠ .ok r := by
  by_cases hcolon : findFrom colon buf (toSize start) = npos
  · intro hok
    cases steps with
    | zero => cases hok
    | succ steps =>
      unfold decodeHeader_ at hok
      rw [if_pos hlt, search_npos hcolon] at hok
      obtain ⟨vStart, -, hok⟩ := bind_ok hok
      obtain ⟨name, hname, -⟩ := bind_ok hok
      unfold trimeSpaceAndToLower at hname
      obtain ⟨bounds, hbounds, -⟩ := bind_ok hname
      exact trimeSpace_negative (by decide) steps start hbounds
  · have hinside := found_inside (by decide) hcolon
    have hsearch : search colon buf start = findFrom colon buf (toSize start) :=
      search_found (by omega)
    have hocc := (findFrom_ne_npos hcolon).1
    have hge := le_findFrom hcolon
    have hsize : toSize start = start.toNat := toSize_of_nonneg hstart (by omega)
    apply decodeHeader_error hlt
    · rw [hsearch]
      generalize findFrom colon buf (toSize start) = k at hge
      omega
    · rw [hsearch]
      exact load_of_occursAt hocc

/-! ## The common part -/

section common

variable {m : HttpMsg} {buf : Bytes}

/-- A fresh message that is decoded is free of headers. -/
theorem headerFree_of_tryDecode_ (hcomplete : m.complete_ = false) (hlength : m.contentLen_ = 0)
    (hlen : buf.length < 2 ^ 31) {steps : Nat} {r : HttpMsg × HttpResult × Int × Int}
    (hok : m.tryDecode_ steps buf 0 0 = .ok r) : HeaderFree buf := by
  by_cases hsome : findFrom crlfcrlf buf 0 = npos
  · exact .inl hsome
  · right
    obtain ⟨-, -, -, -, headers_, hheaders⟩ := HttpMsg.tryDecode_found hcomplete hlength hsome hok
    obtain ⟨hend, hle⟩ := found_bounds hsome
    by_contra hfar
    rw [firstLineEnd_eq (by omega), toInt32_of_fits (by omega) (by omega)] at hheaders
    exact decodeHeader_entered hlen (by omega) (by omega) (by omega) steps _ hheaders

/-- `TryDecode_` once its parts are known. -/
theorem tryDecode_complete {p steps : Nat} {end_ stop start : Int} {headers_ : HttpMap}
    (hcomplete : m.complete_ = false) (hlength : m.contentLen_ = 0)
    (hp : findFrom crlfcrlf buf 0 = p) (hsome : p ≠ npos) (hend : firstLineEnd buf = end_)
    (hstop : toInt32 p = stop) (hstart : addInt end_ 4 = .ok start)
    (hheaders : decodeHeader_ buf steps m.headers_ start stop = .ok headers_)
    (hinside : sizeT (p + 4) ≤ buf.length) :
    ∃ msg, m.tryDecode_ steps buf 0 0 = .ok (msg, .Complete, 0, end_) := by
  unfold firstLineEnd at hend
  unfold HttpMsg.tryDecode_
  rw [if_neg (by rw [hcomplete]; decide), if_pos hlength]
  simp only [hp, if_neg hsome]
  rw [hend, hstart, hstop]
  simp only [bind, Except.bind, hheaders, substr, if_pos hinside]
  exact ⟨_, rfl⟩

/-- One step is enough where there is no header. -/
theorem tryDecode_headerFree (hcomplete : m.complete_ = false) (hlength : m.contentLen_ = 0)
    (hfree : HeaderFree buf) (haddr : Addressable buf) :
    ∃ msg result end_, m.tryDecode_ 1 buf 0 0 = .ok (msg, result, 0, end_) := by
  by_cases hsome : findFrom crlfcrlf buf 0 = npos
  · exact ⟨m, .NotComplete, 0, HttpMsg.tryDecode_waits hcomplete hlength hsome⟩
  · have hnear := hfree.resolve_left hsome
    have hsmall := haddr.line.resolve_left hsome
    obtain ⟨hend, -⟩ := found_bounds hsome
    have hline := @firstLineEnd_eq buf (by omega)
    have hstop : toInt32 (findFrom crlfcrlf buf 0) = findFrom crlfcrlf buf 0 :=
      toInt32_of_fits (by omega) (by omega)
    have hinside : sizeT (findFrom crlfcrlf buf 0 + 4) ≤ buf.length := by
      rw [sizeT_of_lt (by omega)]
      exact hend
    have hstart : addInt (findFrom crlf buf 0 - 1 : Int) 4 = .ok (findFrom crlf buf 0 - 1 + 4) :=
      addInt_ok (by omega) (by omega)
    have hheaders : decodeHeader_ buf 1 m.headers_ (findFrom crlf buf 0 - 1 + 4)
        (findFrom crlfcrlf buf 0) = .ok m.headers_ := by
      rw [decodeHeader_, if_neg (by omega)]
      rfl
    obtain ⟨msg, hmsg⟩ := tryDecode_complete hcomplete hlength rfl hsome hline hstop hstart
      hheaders hinside
    exact ⟨msg, _, _, hmsg⟩

end common

/-! ## Requests and responses -/

theorem ok_bind {α β : Type} (a : α) (f : α → Except HttpFault β) :
    (Except.ok a >>= f) = f a := rfl

section messages

variable {buf : Bytes} {msg : HttpMsg} {result : HttpResult} {end_ : Int} {steps : Nat}

/-- The first line of a request is read whatever stands in it. -/
theorem HttpRequest.tryDecode_line {r : HttpRequest} (haddr : Addressable buf)
    (hmsg : r.toHttpMsg.tryDecode_ steps buf 0 0 = .ok (msg, result, 0, end_)) :
    ∃ out, r.tryDecode steps buf = .ok out := by
  obtain ⟨i, j, hsearch, hsearch', hi, hj⟩ := haddr.blanks
  obtain ⟨method_, hmethod⟩ := @cut_ok buf 0 (Int.le_refl 0) (by omega) (by omega) (i - 0)
  obtain ⟨uri, huri⟩ := @cut_ok buf (i + 1) (by omega) hi.2.1 hi.2.2 (j - (i + 1))
  obtain ⟨version, hversion⟩ := @cut_ok buf (j + 1) (by omega) hj.2.1 hj.2.2 (end_ - j)
  unfold tryDecode
  rw [hmsg, ok_bind]
  dsimp only
  rw [hsearch, hmethod, ok_bind, addInt_ok (by omega) (by omega), ok_bind, hsearch', huri, ok_bind,
    addInt_ok (by omega) (by omega), ok_bind, hversion, ok_bind]
  split
  · exact ⟨_, rfl⟩
  · exact ⟨_, rfl⟩

/-- So is that of a response. -/
theorem HttpResponse.tryDecode_line {r : HttpResponse} (haddr : Addressable buf)
    (hmsg : r.toHttpMsg.tryDecode_ steps buf 0 0 = .ok (msg, result, 0, end_)) :
    ∃ out, r.tryDecode steps buf = .ok out := by
  obtain ⟨i, j, hsearch, hsearch', hi, hj⟩ := haddr.blanks
  obtain ⟨version, hversion⟩ := @cut_ok buf 0 (Int.le_refl 0) (by omega) (by omega) (i - 0)
  obtain ⟨status, hstatus⟩ := @cut_ok buf (j + 1) (by omega) hj.2.1 hj.2.2 (j - i)
  obtain ⟨word, hword⟩ := @cut_ok buf (j + 1) (by omega) hj.2.1 hj.2.2 end_
  unfold tryDecode
  rw [hmsg, ok_bind]
  dsimp only
  split
  · rw [hsearch, hversion, ok_bind, addInt_ok (by omega) (by omega), ok_bind, hsearch',
      addInt_ok (by omega) (by omega), ok_bind, hstatus, ok_bind, ok_bind, hword, ok_bind]
    exact ⟨_, rfl⟩
  · exact ⟨_, rfl⟩

end messages

/-- **Termination and safety of decoding**: a fresh message decodes the inputs that
    are free of headers and whose first line can be addressed with an `int`; of
    those that can be so addressed as a whole, no others. -/
theorem tryDecode_returns_iff (buf : Bytes) :
    (HeaderFree buf ∧ Addressable buf →
      Returns (fun steps => HttpRequest.clear.tryDecode steps buf) ∧
      Returns (fun steps => HttpResponse.clear.tryDecode steps buf)) ∧
    (Returns (fun steps => HttpRequest.clear.tryDecode steps buf) ∨
      Returns (fun steps => HttpResponse.clear.tryDecode steps buf) →
      2 ^ 31 ≤ buf.length ∨ HeaderFree buf ∧ Addressable buf) := by
  constructor
  · intro hcase
    rcases hcase with ⟨hfree, haddr⟩
    obtain ⟨msg, result, end_, hmsg⟩ :=
      @tryDecode_headerFree .clear buf rfl rfl hfree haddr
    obtain ⟨out, hout⟩ := HttpRequest.tryDecode_line (r := .clear) haddr hmsg
    obtain ⟨out', hout'⟩ := HttpResponse.tryDecode_line (r := .clear) haddr hmsg
    exact ⟨⟨1, out, hout⟩, ⟨1, out', hout'⟩⟩
  · intro hreturns
    by_cases hlen : 2 ^ 31 ≤ buf.length
    · exact .inl hlen
    · right
      have hmsg : ∃ steps r, HttpMsg.clear.tryDecode_ steps buf 0 0 = .ok r := by
        rcases hreturns with ⟨steps, r, hok⟩ | ⟨steps, r, hok⟩
        · unfold HttpRequest.tryDecode at hok
          obtain ⟨m, hm, -⟩ := bind_ok hok
          exact ⟨steps, m, hm⟩
        · unfold HttpResponse.tryDecode at hok
          obtain ⟨m, hm, -⟩ := bind_ok hok
          exact ⟨steps, m, hm⟩
      obtain ⟨steps, r, hok⟩ := hmsg
      exact ⟨headerFree_of_tryDecode_ rfl rfl (by omega) hok, addressable_of_length (by omega)⟩

/-- A request of one line is decoded. -/
theorem tryDecode_returns_line :
    Returns (fun steps => HttpRequest.clear.tryDecode steps (ascii "GET / X\r\n\r\n")) ∧
      Returns (fun steps => HttpResponse.clear.tryDecode steps (ascii "GET / X\r\n\r\n")) :=
  (tryDecode_returns_iff (ascii "GET / X\r\n\r\n")).1 ⟨by decide, addressable_of_length (by decide)⟩

/-- A request without a colon in its header reads before the string; with one it is
    never decoded. -/
theorem tryDecode_never :
    ¬ Returns (fun steps => HttpRequest.clear.tryDecode steps (ascii "GET / X\r\nabcd\r\n\r\n")) ∧
      ¬ Returns (fun steps =>
        HttpRequest.clear.tryDecode steps (ascii "GET / X\r\nab:cd\r\n\r\n")) := by
  have hnever : ∀ buf : Bytes, buf.length < 2 ^ 31 → ¬ HeaderFree buf →
      ¬ Returns (fun steps => HttpRequest.clear.tryDecode steps buf) := by
    intro buf hlen hheader hcase
    rcases hcase with ⟨steps, r, hok⟩
    unfold HttpRequest.tryDecode at hok
    obtain ⟨m, hm, -⟩ := bind_ok hok
    exact hheader (headerFree_of_tryDecode_ rfl rfl hlen hm)
  exact ⟨hnever _ (by decide) (by decide), hnever _ (by decide) (by decide)⟩

end JNet

import JNet.Lib.LTS
import JNet.Raft.Replication

/-! # A follower, request after request

    `AppendEntries` leaves logs behind that no longer have the layout of a built
    one.  What it does to the offset and term table can be said of any log, and
    that is enough for two questions about whole sequences of requests: whether a
    request may be delivered twice, and what becomes of `commitIndex_`.
-/

namespace JNet

open Memory

variable {Peer : Type} {pb : Protobuf LogEntry}

/-! ## Tables -/

namespace RaftLog

/-- There is an entry at `index`, of another term. -/
def conflicts (l : RaftLog) (index term : Int) : Bool :=
  l.validIndex index && !l.containLog index term

/-- `l'` is a log with the first index of `l`, a storage that works, and this
    table. -/
structure Became (l l' : RaftLog) (table : List (Nat × Int)) : Prop where
  first : l'.firstIndex_ = l.firstIndex_
  works : l'.storage_.failing = false
  table : l'.offset_term_ = table

section positions

variable {l : RaftLog} {k : Nat}

theorem entry_position (hk : k < 2 ^ 64) :
    l.entry (l.firstIndex_ + k) = l.offset_term_[k]?.elim (.error .outOfBounds) .ok := by
  unfold entry
  rw [toSize_add_sub _ hk]
  cases l.offset_term_[k]? <;> rfl

theorem validIndex_position (hk : k < 2 ^ 64) :
    l.validIndex (l.firstIndex_ + k) = true ↔ k < l.offset_term_.length := by
  rw [validIndex_iff, toSize_add_sub _ hk]

theorem containLog_position {t : Int} (hk : k < 2 ^ 64) :
    l.containLog (l.firstIndex_ + k) t = true ↔ ∃ x, l.offset_term_[k]? = some x ∧ x.2 = t := by
  rw [containLog_iff, toSize_add_sub _ hk]

theorem conflicts_position {t : Int} (hk : k < 2 ^ 64) :
    l.conflicts (l.firstIndex_ + k) t = true ↔ ∃ x, l.offset_term_[k]? = some x ∧ x.2 ≠ t := by
  have hcontain := containLog_position (l := l) (t := t) hk
  unfold conflicts
  rw [Bool.and_eq_true_iff, validIndex_position hk, Bool.not_eq_true', ← Bool.not_eq_true,
    hcontain]
  constructor
  · intro ⟨hlt, hno⟩
    refine ⟨l.offset_term_[k], List.getElem?_eq_getElem hlt, ?_⟩
    intro heq
    exact hno ⟨_, List.getElem?_eq_getElem hlt, heq⟩
  · intro ⟨x, hx, hne⟩
    obtain ⟨hlt, _⟩ := List.getElem?_eq_some_iff.mp hx
    refine ⟨hlt, ?_⟩
    intro ⟨y, hy, heq⟩
    rw [hx] at hy
    rw [Option.some.inj hy] at hne
    exact hne heq

/-- A valid index is a place in the table, if the difference does not overflow. -/
theorem position_of_validIndex {i : Int} (hdiff : Bytes.FitsSigned 8 (i - l.firstIndex_))
    (hlen : l.offset_term_.length ≤ 2 ^ 63) (hvalid : l.validIndex i = true) :
    ∃ k : Nat, i = l.firstIndex_ + k ∧ k < l.offset_term_.length := by
  have hlt := validIndex_iff.mp hvalid
  obtain ⟨hlow, hhigh⟩ := hdiff
  -- A negative difference is converted to 2^63 or more.
  have hnonneg : 0 ≤ i - l.firstIndex_ := by
    unfold toSize at hlt
    omega
  rw [toSize_of_nonneg hnonneg (by omega)] at hlt
  exact ⟨(i - l.firstIndex_).toNat, by omega, hlt⟩

theorem validIndex_of_containLog {i t : Int} (h : l.containLog i t = true) :
    l.validIndex i = true := by
  obtain ⟨x, hx, -⟩ := containLog_iff.mp h
  obtain ⟨hlt, -⟩ := List.getElem?_eq_some_iff.mp hx
  exact validIndex_iff.mpr hlt

end positions

/-! ### Operations -/

theorem write_works {s : Storage} (hs : s.failing = false) (buf : Bytes) {len : Int}
    (hlen : 0 ≤ len) (off : Nat) :
    ∃ r st, s.write buf len off = (r, st) ∧ r ≠ -1 ∧ st.failing = false := by
  have hguard : ¬ ((s.failing || decide (len < 0)) = true) := by
    rw [hs]
    simp
    omega
  rw [Storage.write, if_neg hguard]
  by_cases hnil : (buf.take len.toNat).isEmpty = true
  · exact ⟨0, s, if_pos hnil, by decide, hs⟩
  · exact ⟨_, _, if_neg hnil, by omega, hs⟩

/-- `Append` adds one element to the table. -/
theorem append_became {l : RaftLog} (hworks : l.storage_.failing = false) {e : PaddedEntry}
    (hsmall : (pb.serialize e).length < 2 ^ 31) :
    Became l (l.append pb e e.padding) (l.offset_term_ ++ [(l.bytes_, e.term)]) := by
  have hlen : Bytes.signed 4 (pb.serialize e).length = (pb.serialize e).length :=
    Bytes.signed_of_small (by omega)
  obtain ⟨r, st, hhead, hr, hst⟩ := write_works hworks
    ((headerOf pb e).image e.padding) (Int.natCast_nonneg LogHeader.size) l.bytes_
  obtain ⟨r', st', hbody, hr', hst'⟩ := write_works hst (pb.serialize e)
    (Int.natCast_nonneg (pb.serialize e).length) (l.bytes_ + LogHeader.size)
  unfold append
  simp only [hlen]
  rw [show ({ term_ := e.term, len_ := (pb.serialize e).length } : LogHeader) =
    headerOf pb e from rfl, hhead]
  simp only [if_neg hr, hbody, if_neg hr']
  exact ⟨rfl, hst', rfl⟩

/-- One `Append` after the other. -/
theorem appendAll_became (es : List PaddedEntry) {l : RaftLog}
    (hworks : l.storage_.failing = false)
    (hsmall : ∀ e ∈ es, (pb.serialize e).length < 2 ^ 31) :
    ∃ new, Became l (l.appendAll pb es) (l.offset_term_ ++ new) ∧
      new.map Prod.snd = es.map (·.term) := by
  induction es generalizing l with
  | nil => exact ⟨[], ⟨rfl, hworks, by simp⟩, rfl⟩
  | cons e es ih =>
    have hone := append_became hworks (hsmall e (by simp))
    obtain ⟨new, hrest, hterms⟩ := ih hone.works (fun e' he' => hsmall e' (by simp [he']))
    refine ⟨(l.bytes_, e.term) :: new, ⟨hrest.first.trans hone.first, hrest.works, ?_⟩, ?_⟩
    · rw [appendAll_cons, hrest.table, hone.table, List.append_assoc]
      rfl
    · simp [hterms]

/-- `Truncate` at an index behind the first takes one element out of the table. -/
theorem truncate_became {l : RaftLog} (hworks : l.storage_.failing = false) {k : Nat}
    (hk : k < 2 ^ 64) (hpos : 0 < k) (hlt : k < l.offset_term_.length) :
    ∃ l', l.truncate (l.firstIndex_ + k) = .ok l' ∧ Became l l' (l.offset_term_.eraseIdx k) := by
  have hvalid := (validIndex_position (l := l) hk).mpr hlt
  have hfirst : ¬ l.firstIndex_ + (k : Int) ≤ l.firstIndex_ := by omega
  have hentry := entry_position (l := l) hk
  rw [List.getElem?_eq_getElem hlt, Option.elim_some] at hentry
  unfold truncate
  rw [hvalid]
  simp only [Bool.not_true, Bool.false_eq_true, if_false, if_neg hfirst, bind, Except.bind,
    hentry, Storage.truncate, hworks, toSize_add_sub _ hk]
  exact ⟨_, rfl, rfl, rfl, rfl⟩

/-- A storage works or not, whatever is written. -/
theorem write_failing (s : Storage) (buf : Bytes) (len : Int) (off : Nat) :
    (s.write buf len off).2.failing = s.failing := by
  unfold Storage.write
  dsimp only
  split
  · rfl
  · split
    · rfl
    · rfl

theorem append_failing (pb : Protobuf LogEntry) (l : RaftLog) (e : LogEntry) (padding : Nat) :
    (l.append pb e padding).storage_.failing = l.storage_.failing := by
  unfold append
  dsimp only
  split
  · exact write_failing _ _ _ _
  · split
    · rw [write_failing, write_failing]
    · rw [write_failing, write_failing]

/-- A built log has a storage that works. -/
theorem built_works (pb : Protobuf LogEntry) (f : Int) (es : List PaddedEntry) :
    (built pb f es).storage_.failing = false := by
  have hfold : ∀ l : RaftLog, (l.appendAll pb es).storage_.failing = l.storage_.failing := by
    induction es with
    | nil => exact fun _ => rfl
    | cons e es ih =>
      intro l
      rw [appendAll_cons, ih, append_failing]
  rw [built, hfold, setFirstIndex_eq pb]
  rfl

end RaftLog

/-! ## `AppendEntries` on any log -/

/-- The test in front of everything else. -/
def Raft.Accepts (r : Raft Peer) (request : AppendEntriesRequest) : Prop :=
  r.currentTerm_ ≤ request.term ∧
  r.logs_.containLog request.prevLogIndex request.prevLogTerm = true

/-- What is left of the table before the new entries come: an entry in the place
    of the first of them is taken out if it is of another term. -/
def remaining (l : RaftLog) (request : AppendEntriesRequest) : List (Nat × Int) :=
  if l.conflicts (request.prevLogIndex + 1) request.term then
    l.offset_term_.eraseIdx (toSize (request.prevLogIndex + 1 - l.firstIndex_))
  else l.offset_term_

/-- The numbers the request leads to are in range: the difference of the indices
    is an `int64_t`, the table fits a vector, and the serialization of a new entry
    has a length that is an `int`. -/
structure InRange (pb : Protobuf LogEntry) (l : RaftLog) (request : AppendEntriesRequest) :
    Prop where
  diff : Bytes.FitsSigned 8 (request.prevLogIndex - l.firstIndex_)
  room : l.offset_term_.length + request.entries.length < 2 ^ 63
  small : ∀ e ∈ request.newEntries, (pb.serialize e).length < 2 ^ 31

section request

variable {r r' : Raft Peer} {request : AppendEntriesRequest}
  {reply reply' : AppendEntriesResponse} {paddings : Nat → Nat}

theorem term_of_mem_newEntries {e : LogEntry} (he : e ∈ request.newEntries) :
    e.term = request.term := by
  obtain ⟨k, hk, rfl⟩ := List.getElem_of_mem he
  simp [AppendEntriesRequest.newEntries]

theorem appendCommands_types {insertIndex term : Int} {types : List EntryType}
    {commands : List Bytes} {l l' : RaftLog}
    (h : Raft.appendCommands pb insertIndex term paddings l types commands = .ok l') :
    commands.length ≤ types.length := by
  induction commands generalizing paddings types l with
  | nil => exact Nat.zero_le _
  | cons command commands ih =>
    cases types with
    | nil => cases h
    | cons type types =>
      rw [Raft.appendCommands] at h
      simpa using ih h

theorem Raft.Accepts.guard (h : r.Accepts request) :
    ¬ (request.term < r.currentTerm_ ∨
      r.logs_.containLog request.prevLogIndex request.prevLogTerm = false) := by
  obtain ⟨hterm, hcontain⟩ := h
  rw [hcontain]
  simp
  omega

/-- The place of the entry the request refers to. -/
theorem Raft.Accepts.position (h : r.Accepts request) (hrange : InRange pb r.logs_ request) :
    ∃ k : Nat, request.prevLogIndex = r.logs_.firstIndex_ + k ∧
      k < r.logs_.offset_term_.length := by
  have hroom := hrange.room
  exact RaftLog.position_of_validIndex hrange.diff (by omega)
    (RaftLog.validIndex_of_containLog h.2)

/-- What `Truncate` is called for. -/
theorem removeConflict_became {l : RaftLog} (hworks : l.storage_.failing = false) {k : Nat}
    (hprev : request.prevLogIndex = l.firstIndex_ + k) (hlt : k < l.offset_term_.length)
    (hlen : l.offset_term_.length < 2 ^ 64) :
    ∃ l', Raft.removeConflict l (request.prevLogIndex + 1) request.term = .ok l' ∧
      l.Became l' (remaining l request) ∧
      (l.conflicts (request.prevLogIndex + 1) request.term = false → l' = l) := by
  have hplace : request.prevLogIndex + 1 = l.firstIndex_ + ((k + 1 : Nat) : Int) := by omega
  have hsize : toSize (request.prevLogIndex + 1 - l.firstIndex_) = k + 1 := by
    rw [hplace]
    exact RaftLog.toSize_add_sub _ (by omega)
  unfold Raft.removeConflict remaining
  cases hcontain : l.containLog (request.prevLogIndex + 1) request.term with
  | true =>
    have hno : l.conflicts (request.prevLogIndex + 1) request.term = false := by
      rw [RaftLog.conflicts, hcontain]
      simp
    rw [hno]
    exact ⟨l, rfl, ⟨rfl, hworks, rfl⟩, fun _ => rfl⟩
  | false =>
    by_cases hvalid : l.validIndex (request.prevLogIndex + 1) = true
    · -- There is an entry of another term: `Truncate` is called and takes one element.
      have hyes : l.conflicts (request.prevLogIndex + 1) request.term = true := by
        rw [RaftLog.conflicts, hcontain, hvalid]
        rfl
      rw [hyes, hsize, hplace]
      rw [hplace] at hvalid
      have hbehind := (RaftLog.validIndex_position (by omega)).mp hvalid
      obtain ⟨l', hok, hbecame⟩ := RaftLog.truncate_became hworks (by omega) (by omega) hbehind
      exact ⟨l', hok, hbecame, nofun⟩
    · -- Behind the end of the log `Truncate` is called as well, but does nothing.
      have hno : l.conflicts (request.prevLogIndex + 1) request.term = false := by
        rw [RaftLog.conflicts, Bool.eq_false_iff.mpr hvalid]
        rfl
      rw [hno]
      refine ⟨l, ?_, ⟨rfl, hworks, rfl⟩, fun _ => rfl⟩
      rw [if_pos rfl, RaftLog.truncate, Bool.eq_false_iff.mpr hvalid]
      rfl

/-- The commit index after an accepted request. -/
def newCommitIndex (r : Raft Peer) (request : AppendEntriesRequest) : Int :=
  if request.commitedIndex > r.commitIndex_ then
    min request.commitedIndex (request.prevLogIndex + 1)
  else r.commitIndex_

/-- A request that is not accepted changes nothing. -/
theorem appendEntries_refused (h : ¬ r.Accepts request)
    (hok : r.appendEntries pb paddings request reply = .ok (r', reply')) : r' = r := by
  have hguard : request.term < r.currentTerm_ ∨
      r.logs_.containLog request.prevLogIndex request.prevLogTerm = false := by
    unfold Raft.Accepts at h
    by_cases hterm : request.term < r.currentTerm_
    · exact .inl hterm
    · right
      rw [← Bool.not_eq_true]
      exact fun hcontain => h ⟨by omega, hcontain⟩
  rw [appendEntries_refuses pb paddings hguard] at hok
  cases hok
  rfl

/-- What an accepted request does: the table loses at most one element and gains
    one of the request's term for each entry. -/
theorem appendEntries_accepted (hworks : r.logs_.storage_.failing = false)
    (h : r.Accepts request) {k : Nat} (hprev : request.prevLogIndex = r.logs_.firstIndex_ + k)
    (hlt : k < r.logs_.offset_term_.length) (hlen : r.logs_.offset_term_.length < 2 ^ 64)
    (hsmall : ∀ e ∈ request.newEntries, (pb.serialize e).length < 2 ^ 31)
    (hok : r.appendEntries pb paddings request reply = .ok (r', reply')) :
    ∃ new, r.logs_.Became r'.logs_ (remaining r.logs_ request ++ new) ∧
      new.length = request.entries.length ∧
      new.map Prod.snd = List.replicate request.entries.length request.term ∧
      r' = { r with logs_ := r'.logs_, commitIndex_ := newCommitIndex r request } ∧
      (request.entries = [] →
        r.logs_.conflicts (request.prevLogIndex + 1) request.term = false →
        r'.logs_ = r.logs_) := by
  obtain ⟨l, hcut, hbecame, hsame⟩ := removeConflict_became hworks hprev hlt hlen
  unfold Raft.appendEntries at hok
  dsimp only at hok
  rw [if_neg h.guard, hcut] at hok
  simp only [bind, Except.bind] at hok
  split at hok
  · cases hok
  · next l' hloop =>
    cases hok
    -- The loop ended, so every entry has a known type and the run is one of `appendAll`.
    have htypes := appendCommands_types hloop
    rw [appendCommands_eq _ _ _ _ _ _ htypes] at hloop
    have hfold : l.appendAll pb (request.written paddings) = l' := Except.ok.inj hloop
    obtain ⟨new, hnew, hterms⟩ := RaftLog.appendAll_became (request.written paddings)
      hbecame.works fun e he => hsmall e (mem_written he)
    rw [hfold, hbecame.table] at hnew
    have hlength : new.length = request.entries.length := by
      rw [← List.length_map, hterms, List.length_map, length_written paddings htypes]
    refine ⟨new, ⟨hnew.first.trans hbecame.first, hnew.works, hnew.table⟩, hlength, ?_, rfl, ?_⟩
    · rw [List.eq_replicate_iff, List.length_map]
      refine ⟨hlength, ?_⟩
      rw [hterms]
      intro t ht
      obtain ⟨e, he, rfl⟩ := List.mem_map.mp ht
      exact term_of_mem_newEntries (mem_written he)
    · intro hnone hno
      rw [AppendEntriesRequest.written, AppendEntriesRequest.newEntries, hnone,
        List.zipWith_nil_right] at hfold
      rw [← hfold]
      exact hsame hno

/-! ### What becomes of the table -/

variable {l : RaftLog} {k : Nat}

theorem remaining_conflict (hprev : request.prevLogIndex = l.firstIndex_ + k)
    (hlt : k < l.offset_term_.length) (hlen : l.offset_term_.length < 2 ^ 64)
    (hyes : l.conflicts (request.prevLogIndex + 1) request.term = true) :
    remaining l request = l.offset_term_.eraseIdx (k + 1) ∧
      ∃ x, l.offset_term_[k + 1]? = some x ∧ x.2 ≠ request.term := by
  have hplace : request.prevLogIndex + 1 = l.firstIndex_ + ((k + 1 : Nat) : Int) := by omega
  have hk : k + 1 < 2 ^ 64 := by omega
  constructor
  · rw [remaining, if_pos hyes, hplace, RaftLog.toSize_add_sub _ hk]
  · rw [hplace] at hyes
    exact (RaftLog.conflicts_position hk).mp hyes

theorem remaining_fits (hno : l.conflicts (request.prevLogIndex + 1) request.term = false) :
    remaining l request = l.offset_term_ := by
  rw [remaining, hno]
  rfl

/-- The element that is taken out does not have the term of the request. -/
theorem count_remaining (hprev : request.prevLogIndex = l.firstIndex_ + k)
    (hlt : k < l.offset_term_.length) (hlen : l.offset_term_.length < 2 ^ 64) :
    ((remaining l request).map Prod.snd).count request.term =
      (l.offset_term_.map Prod.snd).count request.term := by
  cases hconf : l.conflicts (request.prevLogIndex + 1) request.term with
  | false => rw [remaining_fits hconf]
  | true =>
    obtain ⟨hrem, x, hx, hne⟩ := remaining_conflict hprev hlt hlen hconf
    obtain ⟨hbehind, rfl⟩ := List.getElem?_eq_some_iff.mp hx
    have hsplit : l.offset_term_ = l.offset_term_.take (k + 1) ++
        l.offset_term_[k + 1] :: l.offset_term_.drop (k + 2) := by
      rw [← List.drop_eq_getElem_cons hbehind, List.take_append_drop]
    rw [hrem, List.eraseIdx_eq_take_drop_succ]
    conv => rhs; rw [hsplit]
    rw [List.map_append, List.map_append, List.map_cons, List.count_append, List.count_append,
      List.count_cons_of_ne hne]

/-- At most one element is taken out. -/
theorem length_remaining (hprev : request.prevLogIndex = l.firstIndex_ + k)
    (hlt : k < l.offset_term_.length) (hlen : l.offset_term_.length < 2 ^ 64) :
    (remaining l request).length =
      if l.conflicts (request.prevLogIndex + 1) request.term then l.offset_term_.length - 1
      else l.offset_term_.length := by
  cases hconf : l.conflicts (request.prevLogIndex + 1) request.term with
  | false =>
    rw [remaining_fits hconf]
    rfl
  | true =>
    obtain ⟨hrem, x, hx, -⟩ := remaining_conflict hprev hlt hlen hconf
    obtain ⟨hbehind, -⟩ := List.getElem?_eq_some_iff.mp hx
    rw [hrem, List.length_eraseIdx_of_lt hbehind]
    rfl

/-- Up to the entry the request refers to, the table stays as it is. -/
theorem getElem?_remaining (hprev : request.prevLogIndex = l.firstIndex_ + k)
    (hlt : k < l.offset_term_.length) (hlen : l.offset_term_.length < 2 ^ 64)
    (new : List (Nat × Int)) : (remaining l request ++ new)[k]? = l.offset_term_[k]? := by
  cases hconf : l.conflicts (request.prevLogIndex + 1) request.term with
  | false => rw [remaining_fits hconf, List.getElem?_append_left hlt]
  | true =>
    obtain ⟨hrem, x, hx, -⟩ := remaining_conflict hprev hlt hlen hconf
    obtain ⟨hbehind, -⟩ := List.getElem?_eq_some_iff.mp hx
    have hk : k < (l.offset_term_.eraseIdx (k + 1)).length := by
      rw [List.length_eraseIdx_of_lt hbehind]
      omega
    rw [hrem, List.getElem?_append_left hk, List.getElem?_eraseIdx_of_lt (by omega)]

end request

/-! ## A request delivered twice -/

/-- The two logs hold the same entries at the same indices. -/
structure SameLog (pb : Protobuf LogEntry) (l l' : RaftLog) : Prop where
  last : l'.lastIndex = l.lastIndex
  entry : ∀ i, l'.entry i = l.entry i
  stored : ∀ i, l'.storedEntry pb i = l.storedEntry pb i

/-- Handling the request changes neither the log nor the commit index. -/
def Raft.Settled (pb : Protobuf LogEntry) (paddings : Nat → Nat) (r : Raft Peer)
    (request : AppendEntriesRequest) (reply : AppendEntriesResponse) : Prop :=
  ∃ r' reply', r.appendEntries pb paddings request reply = .ok (r', reply') ∧
    SameLog pb r.logs_ r'.logs_ ∧ r'.commitIndex_ = r.commitIndex_

/-- A request may be delivered twice if it has no entries, and the two entries
    behind the one it refers to are not both there with other terms. -/
def Raft.Redeliverable (r : Raft Peer) (request : AppendEntriesRequest) : Prop :=
  request.entries = [] ∧
  ¬ (r.logs_.conflicts (request.prevLogIndex + 1) request.term = true ∧
    r.logs_.conflicts (request.prevLogIndex + 2) request.term = true)

theorem SameLog.table_eq {l l' : RaftLog} (h : SameLog pb l l')
    (hfirst : l'.firstIndex_ = l.firstIndex_) (hlen : l.offset_term_.length < 2 ^ 64)
    (hlen' : l'.offset_term_.length < 2 ^ 64) : l'.offset_term_ = l.offset_term_ := by
  apply List.ext_getElem?
  intro k
  by_cases hk : k < 2 ^ 64
  · have hentry := h.entry (l.firstIndex_ + k)
    rw [RaftLog.entry_position hk, ← hfirst, RaftLog.entry_position hk] at hentry
    cases hx : l.offset_term_[k]? with
    | none =>
      cases hy : l'.offset_term_[k]? with
      | none => rfl
      | some y => simp [hx, hy] at hentry
    | some x =>
      cases hy : l'.offset_term_[k]? with
      | none => simp [hx, hy] at hentry
      | some y => simpa [hx, hy] using hentry
  · rw [List.getElem?_eq_none (by omega), List.getElem?_eq_none (by omega)]

section redelivery

variable {r r₁ : Raft Peer} {request : AppendEntriesRequest}
  {reply reply₁ : AppendEntriesResponse} {paddings : Nat → Nat} {k : Nat}

/-- Handling a request changes nothing exactly where nothing is to be removed,
    nothing to be appended, and nothing to be committed. -/
theorem Raft.Accepts.settled_iff (h : r.Accepts request)
    (hworks : r.logs_.storage_.failing = false)
    (hprev : request.prevLogIndex = r.logs_.firstIndex_ + k)
    (hlt : k < r.logs_.offset_term_.length)
    (hlen : r.logs_.offset_term_.length + request.entries.length < 2 ^ 64)
    (hsmall : ∀ e ∈ request.newEntries, (pb.serialize e).length < 2 ^ 31)
    (hcommit : newCommitIndex r request = r.commitIndex_) (reply : AppendEntriesResponse) :
    r.Settled pb paddings request reply ↔
      request.entries = [] ∧
      r.logs_.conflicts (request.prevLogIndex + 1) request.term = false := by
  have hlen' : r.logs_.offset_term_.length < 2 ^ 64 := by omega
  have hrem := length_remaining hprev hlt hlen'
  constructor
  · intro hsettled
    obtain ⟨r', reply', hok, hsame, -⟩ := hsettled
    obtain ⟨new, hbecame, hnew, hterms, -, -⟩ :=
      appendEntries_accepted hworks h hprev hlt hlen' hsmall hok
    have hshort : r'.logs_.offset_term_.length < 2 ^ 64 := by
      rw [hbecame.table, List.length_append, hrem]
      split <;> omega
    have htable := hsame.table_eq hbecame.first hlen' hshort
    rw [hbecame.table] at htable
    -- Each entry of the request is one more element of the request's term.
    have hnone : request.entries = [] := by
      have hcount := congrArg (fun t => (t.map Prod.snd).count request.term) htable
      simp only [List.map_append, List.count_append, count_remaining hprev hlt hlen', hterms,
        List.count_replicate_self] at hcount
      exact List.eq_nil_of_length_eq_zero (by omega)
    refine ⟨hnone, ?_⟩
    rw [← Bool.not_eq_true]
    intro hyes
    have hcount := congrArg List.length htable
    rw [List.length_append, hrem, if_pos hyes, hnew, hnone] at hcount
    simp only [List.length_nil] at hcount
    omega
  · intro ⟨hnone, hno⟩
    obtain ⟨l, hcut, -, hsame⟩ := removeConflict_became hworks hprev hlt hlen'
    have hloop : Raft.appendCommands pb (request.prevLogIndex + 1) request.term paddings l
        request.type request.entries = .ok l := by
      rw [hnone, Raft.appendCommands]
    obtain ⟨r', reply', hok, hlogs⟩ := appendEntries_ok h.guard hcut hloop
    obtain ⟨-, -, -, -, hr', -⟩ := appendEntries_accepted hworks h hprev hlt hlen' hsmall hok
    refine ⟨r', reply', hok, ?_, ?_⟩
    · rw [hlogs, hsame hno]
      exact ⟨rfl, fun _ => rfl, fun _ => rfl⟩
    · rw [hr']
      exact hcommit

/-- The commit index has gone as far as the request takes it. -/
theorem newCommitIndex_twice (h : r₁.commitIndex_ = newCommitIndex r request) :
    newCommitIndex r₁ request = r₁.commitIndex_ := by
  unfold newCommitIndex at h ⊢
  split at h
  · split
    · omega
    · rfl
  · rw [h, if_neg (by omega)]

/-- After a request without entries there is a conflict again if the next entry
    conflicts, too. -/
theorem conflicts_again {l l₁ : RaftLog}
    (hprev : request.prevLogIndex = l.firstIndex_ + k) (hlt : k < l.offset_term_.length)
    (hlen : l.offset_term_.length < 2 ^ 63) (hbecame : l.Became l₁ (remaining l request)) :
    l₁.conflicts (request.prevLogIndex + 1) request.term = true ↔
      l.conflicts (request.prevLogIndex + 1) request.term = true ∧
      l.conflicts (request.prevLogIndex + 2) request.term = true := by
  have hplace : request.prevLogIndex + 1 = l.firstIndex_ + ((k + 1 : Nat) : Int) := by omega
  have hplace' : request.prevLogIndex + 2 = l.firstIndex_ + ((k + 2 : Nat) : Int) := by omega
  have hagain : l₁.conflicts (request.prevLogIndex + 1) request.term = true ↔
      ∃ x, (remaining l request)[k + 1]? = some x ∧ x.2 ≠ request.term := by
    rw [hplace, ← hbecame.first, RaftLog.conflicts_position (by omega), hbecame.table]
  rw [hagain]
  cases hconf : l.conflicts (request.prevLogIndex + 1) request.term with
  | false =>
    rw [remaining_fits hconf, ← RaftLog.conflicts_position (by omega), ← hplace, hconf]
    simp
  | true =>
    obtain ⟨hrem, -⟩ := remaining_conflict hprev hlt (by omega) hconf
    rw [hrem, List.getElem?_eraseIdx_of_ge (by omega), hplace',
      RaftLog.conflicts_position (by omega)]
    simp

/-- **Redelivery**: over every log and for every accepted request, handling the
    request a second time leaves the log and the commit index as they are exactly
    for the requests without entries that do not find two conflicting entries. -/
theorem redelivery_iff (pb : Protobuf LogEntry) (paddings paddings' : Nat → Nat) (r : Raft Peer)
    (f : Int) (es : List PaddedEntry) (hlog : r.logs_ = RaftLog.built pb f es)
    (request : AppendEntriesRequest) (hrange : InRange pb r.logs_ request)
    (haccept : r.Accepts request) (reply : AppendEntriesResponse) (r₁ : Raft Peer)
    (reply₁ : AppendEntriesResponse)
    (hok : r.appendEntries pb paddings request reply = .ok (r₁, reply₁))
    (reply' : AppendEntriesResponse) :
    r₁.Settled pb paddings' request reply' ↔ r.Redeliverable request := by
  have hworks : r.logs_.storage_.failing = false := by
    rw [hlog]
    exact RaftLog.built_works pb f es
  have hroom := hrange.room
  obtain ⟨k, hprev, hlt⟩ := haccept.position hrange
  obtain ⟨new, hbecame, hnew, -, hr₁, -⟩ :=
    appendEntries_accepted hworks haccept hprev hlt (by omega) hrange.small hok
  have hterm₁ : r₁.currentTerm_ = r.currentTerm_ := by rw [hr₁]
  have hcommit₁ : r₁.commitIndex_ = newCommitIndex r request := by rw [hr₁]
  -- The request refers to the same place of the new table, and is accepted again.
  have hprev₁ : request.prevLogIndex = r₁.logs_.firstIndex_ + k := by rw [hbecame.first, hprev]
  have hget : r₁.logs_.offset_term_[k]? = r.logs_.offset_term_[k]? := by
    rw [hbecame.table]
    exact getElem?_remaining hprev hlt (by omega) new
  have hlt₁ : k < r₁.logs_.offset_term_.length := by
    rw [List.getElem?_eq_getElem hlt] at hget
    exact (List.getElem?_eq_some_iff.mp hget).1
  have hlen₁ : r₁.logs_.offset_term_.length < 2 ^ 63 := by
    rw [hbecame.table, List.length_append, length_remaining hprev hlt (by omega), hnew]
    split <;> omega
  have haccept₁ : r₁.Accepts request := by
    refine ⟨by rw [hterm₁]; exact haccept.1, ?_⟩
    have hcontain := haccept.2
    rw [hprev, RaftLog.containLog_position (by omega)] at hcontain
    rw [hprev₁, RaftLog.containLog_position (by omega), hget]
    exact hcontain
  rw [haccept₁.settled_iff hbecame.works hprev₁ hlt₁ (by omega) hrange.small
    (newCommitIndex_twice hcommit₁), Raft.Redeliverable]
  apply and_congr_right
  intro hnone
  rw [hnone] at hnew
  rw [List.eq_nil_of_length_eq_zero hnew, List.append_nil] at hbecame
  rw [← conflicts_again hprev hlt (by omega) hbecame, Bool.not_eq_true]

end redelivery

/-- A request of term 2 without entries that refers to the entry at index 1. -/
def heartbeat : AppendEntriesRequest := { oneCommand with type := [], entries := [] }

/-- A heartbeat that removes an entry, and then finds nothing more to remove. -/
theorem redelivery_heartbeat :
    ∃ r₁ reply₁, (follower [dataEntry 1 1 [97], dataEntry 1 2 [98]]).appendEntries protoFormat
        id heartbeat {} = .ok (r₁, reply₁) ∧
      r₁.Settled protoFormat id heartbeat {} := by
  have hiff := redelivery_iff protoFormat id id
    (follower [dataEntry 1 1 [97], dataEntry 1 2 [98]]) 1 [dataEntry 1 1 [97], dataEntry 1 2 [98]]
    rfl heartbeat ⟨by decide, by decide, nofun⟩ ⟨by decide, by decide⟩ {} _ _ rfl {}
  exact ⟨_, _, rfl, hiff.mpr ⟨rfl, by decide⟩⟩

/-- One command delivered twice is in the log twice. -/
theorem redelivery_appends_again :
    (follower [dataEntry 1 1 [97]]).Accepts oneCommand ∧
    ∃ r₁ reply₁ r₂ reply₂,
      (follower [dataEntry 1 1 [97]]).appendEntries protoFormat id oneCommand {} =
        .ok (r₁, reply₁) ∧
      r₁.appendEntries protoFormat id oneCommand {} = .ok (r₂, reply₂) ∧
      r₁.logs_.lastIndex = 2 ∧ r₂.logs_.lastIndex = 3 :=
  ⟨⟨by decide, by decide⟩, _, _, _, _, rfl, rfl, rfl, rfl⟩

/-! ## The commit index -/

/-- The indices of the log, and of `n` entries more, are `int64_t` values. -/
def RaftLog.IndexRange (l : RaftLog) (n : Nat) : Prop :=
  -2 ^ 63 ≤ l.firstIndex_ ∧ l.firstIndex_ + l.offset_term_.length + n ≤ 2 ^ 63

instance (l : RaftLog) (n : Nat) : Decidable (l.IndexRange n) :=
  inferInstanceAs (Decidable (_ ∧ _))

/-- A follower, and what `commitIndex_` was before the last request. -/
structure Following (Peer : Type) where
  node : Raft Peer
  before : Int

/-- A follower that handles one request after the other. -/
def followSystem (Peer : Type) (pb : Protobuf LogEntry) :
    LTS.System (Following Peer) (AppendEntriesRequest × AppendEntriesResponse) where
  init := fun s =>
    (∃ f es, s.node.logs_ = RaftLog.built pb f es) ∧ s.node.logs_.offset_term_ ≠ [] ∧
    s.node.logs_.IndexRange 0 ∧ s.node.commitIndex_ ≤ s.node.logs_.lastIndex ∧
    s.before = s.node.commitIndex_
  step := fun s (request, reply) s' =>
    InRange pb s.node.logs_ request ∧ s.node.logs_.IndexRange request.entries.length ∧
    (∃ paddings reply',
      s.node.appendEntries pb paddings request reply = .ok (s'.node, reply')) ∧
    s'.before = s.node.commitIndex_

/-- The commit index has not decreased, and is an index of the log. -/
def Following.Good (s : Following Peer) : Prop :=
  s.before ≤ s.node.commitIndex_ ∧ s.node.commitIndex_ ≤ s.node.logs_.lastIndex

/-- The last index a request without entries leaves. -/
def lastLeft (l : RaftLog) (request : AppendEntriesRequest) : Int :=
  if l.conflicts (request.prevLogIndex + 1) request.term then l.lastIndex - 1 else l.lastIndex

/-- An accepted request that would advance the commit index does not refer to an
    entry from before it; and one without entries leaves a log that reaches to
    the old commit index and to what it sets the new one to. -/
def CommitSafe (r : Raft Peer) (request : AppendEntriesRequest) : Prop :=
  r.Accepts request →
    (r.commitIndex_ < request.commitedIndex → r.commitIndex_ ≤ request.prevLogIndex + 1) ∧
    (request.entries = [] →
      r.commitIndex_ ≤ lastLeft r.logs_ request ∧
      (r.commitIndex_ < request.commitedIndex →
        request.commitedIndex ≤ lastLeft r.logs_ request ∨
        request.prevLogIndex + 1 ≤ lastLeft r.logs_ request))

/-- What is kept by every request, whatever becomes of the commit index. -/
structure FollowInv (s : Following Peer) : Prop where
  works : s.node.logs_.storage_.failing = false
  nonempty : s.node.logs_.offset_term_ ≠ []
  range : s.node.logs_.IndexRange 0

theorem lastIndex_of_range {l : RaftLog} (hne : l.offset_term_ ≠ []) (hrange : l.IndexRange 0) :
    l.lastIndex = l.offset_term_.length + l.firstIndex_ - 1 := by
  have hpos : 0 < l.offset_term_.length := List.length_pos_iff.mpr hne
  obtain ⟨hlow, hhigh⟩ := hrange
  exact RaftLog.lastIndex_of_length rfl (by omega) (by omega)

/-- One request: the log stays in range, and the commit index is right exactly
    under the condition. -/
theorem FollowInv.step {s s' : Following Peer} (h : FollowInv s) (hgood : s.Good)
    {request : AppendEntriesRequest} {reply : AppendEntriesResponse}
    (hstep : (followSystem Peer pb).step s (request, reply) s') :
    FollowInv s' ∧ (s'.Good ↔ CommitSafe s.node request) := by
  obtain ⟨hrange, hindex, ⟨paddings, reply', hok⟩, hbefore⟩ := hstep
  by_cases haccept : s.node.Accepts request
  · have hroom := hrange.room
    obtain ⟨k, hprev, hlt⟩ := haccept.position hrange
    have hlen : s.node.logs_.offset_term_.length < 2 ^ 64 := by omega
    obtain ⟨new, hbecame, hnew, -, hnode, -⟩ :=
      appendEntries_accepted h.works haccept hprev hlt hlen hrange.small hok
    have htable : s'.node.logs_.offset_term_.length =
        (remaining s.node.logs_ request).length + request.entries.length := by
      rw [hbecame.table, List.length_append, hnew]
    have hcommit : s'.node.commitIndex_ = newCommitIndex s.node request := by rw [hnode]
    have hfirst := hbecame.first
    have hlast := lastIndex_of_range h.nonempty h.range
    rw [length_remaining hprev hlt hlen] at htable
    have hbehind : s.node.logs_.conflicts (request.prevLogIndex + 1) request.term = true →
        k + 1 < s.node.logs_.offset_term_.length := by
      intro hconf
      obtain ⟨-, x, hx, -⟩ := remaining_conflict hprev hlt hlen hconf
      exact (List.getElem?_eq_some_iff.mp hx).1
    have hinv : FollowInv s' := by
      obtain ⟨hlow, hhigh⟩ := hindex
      refine ⟨hbecame.works, ?_, ?_, ?_⟩
      · rw [← List.length_pos_iff, htable]
        split
        · next hconf =>
          have := hbehind hconf
          omega
        · omega
      · rw [hfirst]
        exact hlow
      · rw [hfirst, htable]
        split <;> omega
    have hlast' := lastIndex_of_range hinv.nonempty hinv.range
    refine ⟨hinv, ?_⟩
    have hnil : request.entries = [] ↔ request.entries.length = 0 := List.length_eq_zero_iff.symm
    obtain ⟨-, hbound⟩ := hgood
    rw [Following.Good, CommitSafe, hbefore, hcommit, hlast', htable, hfirst, hnil,
      newCommitIndex, lastLeft]
    by_cases hconf : s.node.logs_.conflicts (request.prevLogIndex + 1) request.term = true
    · have hk := hbehind hconf
      rw [if_pos hconf, if_pos hconf, forall_prop_of_true haccept]
      split <;> omega
    · rw [if_neg hconf, if_neg hconf, forall_prop_of_true haccept]
      split <;> omega
  · -- A refused request changes nothing, and nothing is asked of it.
    have hsame := appendEntries_refused haccept hok
    obtain ⟨hmono, hbound⟩ := hgood
    refine ⟨⟨by rw [hsame]; exact h.works, by rw [hsame]; exact h.nonempty,
      by rw [hsame]; exact h.range⟩, ?_⟩
    constructor
    · exact fun _ hyes => absurd hyes haccept
    · intro _
      rw [Following.Good, hbefore, hsame]
      exact ⟨Int.le_refl _, hbound⟩

theorem followInv_initial (s : Following Peer) (h : (followSystem Peer pb).init s) :
    FollowInv s ∧ s.Good := by
  obtain ⟨⟨f, es, hlog⟩, hne, hrange, hbound, hbefore⟩ := h
  refine ⟨⟨?_, hne, hrange⟩, ?_, hbound⟩
  · rw [hlog]
    exact RaftLog.built_works pb f es
  · rw [hbefore]

/-- **Commit index of a follower**: in every run whose requests all meet the
    condition, the commit index never decreases and stays within the log; and the
    condition is exact, for a request that does not meet it breaks this at once. -/
theorem follower_commit_iff (pb : Protobuf LogEntry) (s : Following Peer)
    (hs : ((followSystem Peer pb).restrict fun s l => CommitSafe s.node l.1).Reachable s) :
    s.before ≤ s.node.commitIndex_ ∧ s.node.commitIndex_ ≤ s.node.logs_.lastIndex ∧
    ∀ request reply s', (followSystem Peer pb).step s (request, reply) s' →
      ((s'.before ≤ s'.node.commitIndex_ ∧ s'.node.commitIndex_ ≤ s'.node.logs_.lastIndex) ↔
        CommitSafe s.node request) := by
  have hinv : FollowInv s ∧ s.Good := by
    refine LTS.System.invariant (P := fun s => FollowInv s ∧ s.Good) ?_ ?_ s hs
    · exact fun s hinit => followInv_initial s hinit
    · intro s ⟨request, reply⟩ s' ⟨hinv, hgood⟩ ⟨hsafe, hstep⟩
      obtain ⟨hinv', hiff⟩ := hinv.step hgood hstep
      exact ⟨hinv', hiff.mpr hsafe⟩
  obtain ⟨hkeep, hmono, hbound⟩ := hinv
  refine ⟨hmono, hbound, ?_⟩
  intro request reply s' hstep
  exact (hkeep.step ⟨hmono, hbound⟩ hstep).2

/-- A follower whose log has entries is in a state a run may start in. -/
theorem follower_init (es : List PaddedEntry) (commit : Int)
    (hne : (follower es).logs_.offset_term_ ≠ []) (hrange : (follower es).logs_.IndexRange 0)
    (hcommit : commit ≤ (follower es).logs_.lastIndex) :
    (followSystem Nat protoFormat).init
      { node := { follower es with commitIndex_ := commit }, before := commit } :=
  ⟨⟨1, es, rfl⟩, hne, hrange, hcommit, rfl⟩

/-- One command is appended and committed. -/
theorem follower_commit_one :
    ∃ s : Following Nat, s.before = 0 ∧ s.node.commitIndex_ = 2 ∧
      s.node.commitIndex_ ≤ s.node.logs_.lastIndex := by
  let request : AppendEntriesRequest := { oneCommand with commitedIndex := 5 }
  have h0 : ((followSystem Nat protoFormat).restrict fun s l => CommitSafe s.node l.1).Reachable
      { node := follower [dataEntry 1 1 [97]], before := 0 } :=
    .start (follower_init [dataEntry 1 1 [97]] 0 (by decide) (by decide) (by decide))
  obtain ⟨r₁, reply₁, hok, hcommit⟩ : ∃ r₁ reply₁,
      (follower [dataEntry 1 1 [97]]).appendEntries protoFormat id request {} = .ok (r₁, reply₁) ∧
      r₁.commitIndex_ = 2 := ⟨_, _, rfl, rfl⟩
  have hstep : (followSystem Nat protoFormat).step
      { node := follower [dataEntry 1 1 [97]], before := 0 } (request, {})
      { node := r₁, before := 0 } :=
    ⟨⟨by decide, by decide, by decide⟩, by decide, ⟨id, reply₁, hok⟩, rfl⟩
  have h1 := h0.next (request, {}) ⟨fun _ => ⟨by decide, nofun⟩, hstep⟩
  exact ⟨_, rfl, hcommit, (follower_commit_iff protoFormat _ h1).2.1⟩

/-- A heartbeat behind the last entry takes the commit index beyond the log, and a
    command for an earlier place takes it back. -/
theorem follower_commit_breaks :
    (∃ s s' : Following Nat, (followSystem Nat protoFormat).init s ∧
      (followSystem Nat protoFormat).step s ({ heartbeat with commitedIndex := 5 }, {}) s' ∧
      s'.node.logs_.lastIndex < s'.node.commitIndex_) ∧
    (∃ s s' : Following Nat, (followSystem Nat protoFormat).init s ∧
      (followSystem Nat protoFormat).step s ({ oneCommand with commitedIndex := 5 }, {}) s' ∧
      s'.node.commitIndex_ < s'.before) := by
  constructor
  · exact ⟨_, ⟨_, 0⟩, follower_init [dataEntry 1 1 [97]] 0 (by decide) (by decide) (by decide),
      ⟨⟨by decide, by decide, by decide⟩, by decide, ⟨id, _, rfl⟩, rfl⟩, by decide⟩
  · exact ⟨_, ⟨_, 3⟩, follower_init longer 3 (by decide) (by decide) (by decide),
      ⟨⟨by decide, by decide, by decide⟩, by decide, ⟨id, _, rfl⟩, rfl⟩, by decide⟩

end JNet

import JNet.Raft.LogAccess
import JNet.Raft.Raft

/-! # Replication

    What `AppendEntries` makes of a follower's log.  The log is split at the
    entry the request refers to: `es` up to and with that entry, `tail` behind
    it.  The request's entries belong right behind `es`; the code puts them
    behind whatever `Truncate` has left, and gives all of them the same index.
    At the end, what it answers.
-/

namespace JNet

open Memory

variable {Peer : Type} {pb : Protobuf LogEntry}

/-! ## The entries of a request -/

/-- The entries the loop appends. -/
def AppendEntriesRequest.newEntries (request : AppendEntriesRequest) : List LogEntry :=
  List.zipWith (fun type command =>
    { type := type
      term := request.term
      index := request.prevLogIndex + 1
      command := command }) request.type request.entries

/-- Entries over the padding each of them finds. -/
def padded (paddings : Nat → Nat) (es : List LogEntry) : List PaddedEntry :=
  es.mapIdx fun n e => { toLogEntry := e, padding := paddings n }

@[simp] theorem length_padded (paddings : Nat → Nat) (es : List LogEntry) :
    (padded paddings es).length = es.length := List.length_mapIdx

@[simp] theorem map_padded (paddings : Nat → Nat) (es : List LogEntry) :
    (padded paddings es).map PaddedEntry.toLogEntry = es := by
  induction es generalizing paddings with
  | nil => rfl
  | cons e es ih =>
    rw [padded, List.mapIdx_cons, List.map_cons]
    exact congrArg (e :: ·) (ih fun n => paddings (n + 1))

/-- The entries as the loop appends them. -/
def AppendEntriesRequest.written (request : AppendEntriesRequest) (paddings : Nat → Nat) :
    List PaddedEntry := padded paddings request.newEntries

theorem mem_written {request : AppendEntriesRequest} {paddings : Nat → Nat} {e : PaddedEntry}
    (he : e ∈ request.written paddings) : e.toLogEntry ∈ request.newEntries := by
  rw [← map_padded paddings request.newEntries]
  exact List.mem_map_of_mem he

theorem length_written {request : AppendEntriesRequest} (paddings : Nat → Nat)
    (htypes : request.entries.length ≤ request.type.length) :
    (request.written paddings).length = request.entries.length := by
  simp [AppendEntriesRequest.written, AppendEntriesRequest.newEntries, htypes]

theorem appendCommands_eq (insertIndex term : Int) (paddings : Nat → Nat)
    (types : List EntryType) (commands : List Bytes) (l : RaftLog)
    (htypes : commands.length ≤ types.length) :
    Raft.appendCommands pb insertIndex term paddings l types commands =
      .ok (l.appendAll pb (padded paddings (List.zipWith (fun type command =>
        { type := type, term := term, index := insertIndex, command := command })
        types commands))) := by
  induction commands generalizing paddings types l with
  | nil => simp [Raft.appendCommands, padded]
  | cons command commands ih =>
    cases types with
    | nil => cases htypes
    | cons type types =>
      rw [Raft.appendCommands, ih _ types _ (by simpa using htypes), List.zipWith_cons_cons,
        padded, padded, List.mapIdx_cons, RaftLog.appendAll_cons]

/-- The `k`-th new entry carries the `k`-th command, and the index of the first. -/
theorem getElem?_written {request : AppendEntriesRequest} (paddings : Nat → Nat)
    (htypes : request.type.length = request.entries.length) {k : Nat} {c : Bytes}
    (hc : request.entries[k]? = some c) :
    ∃ e, (request.written paddings)[k]? = some e ∧ e.term = request.term ∧ e.command = c ∧
      e.index = request.prevLogIndex + 1 := by
  obtain ⟨hk, rfl⟩ := List.getElem?_eq_some_iff.mp hc
  have hk' : k < (request.written paddings).length := by rwa [length_written paddings htypes.ge]
  refine ⟨(request.written paddings)[k], List.getElem?_eq_getElem hk', ?_⟩
  simp [AppendEntriesRequest.written, padded, AppendEntriesRequest.newEntries]

/-! ## What should have happened -/

/-- The entry `e` is the one a command `c` at place `k` of the request asks for. -/
def Fulfils (request : AppendEntriesRequest) (k : Nat) (c : Bytes) (e : LogEntry) : Prop :=
  e.term = request.term ∧ e.command = c ∧ e.index = request.prevLogIndex + 1 + k

/-- The log `new` is `old` after the request: the commands are behind the entry
    the request refers to, nothing up to that entry has changed, and a tail that
    conflicts is gone. -/
structure Replicated (pb : Protobuf LogEntry) (request : AppendEntriesRequest) (old new : RaftLog) :
    Prop where
  entries : ∀ (k : Nat) (c : Bytes), request.entries[k]? = some c →
    new.containLog (request.prevLogIndex + 1 + k) request.term = true ∧
    ∃ e, new.storedEntry pb (request.prevLogIndex + 1 + k) = some e ∧ Fulfils request k c e
  below : ∀ i, old.firstIndex_ ≤ i → i ≤ request.prevLogIndex →
    new.entry i = old.entry i ∧ new.storedEntry pb i = old.storedEntry pb i
  conflict : old.validIndex (request.prevLogIndex + 1) = true →
    old.containLog (request.prevLogIndex + 1) request.term = false →
    new.lastIndex = request.prevLogIndex + request.entries.length

/-- The entries `behind` the one the request refers to are those it asks for. -/
def Holds (request : AppendEntriesRequest) (behind : List PaddedEntry) : Prop :=
  ∀ (k : Nat) (c : Bytes), request.entries[k]? = some c →
    ∃ e, behind[k]? = some e ∧ Fulfils request k c e

/-- The requests the code handles right: at most one entry, at the end of the
    log or in place of its last entry; or entries the log already has. -/
def Handles (tail : List PaddedEntry) (request : AppendEntriesRequest) : Prop :=
  (tail = [] ∧ request.entries.length ≤ 1) ∨
  (∃ e, tail = [e] ∧ e.term ≠ request.term ∧ request.entries.length ≤ 1) ∨
  (∃ e, tail.head? = some e ∧ e.term = request.term ∧ Holds request tail)

/-- A request that refers to the last entry of `es` in a log of `es` and `tail`.
    All entries, old and new, are read back from the file, and all indices are
    `int64_t` values. -/
structure Refers (pb : Protobuf LogEntry) (f : Int) (es tail : List PaddedEntry)
    (request : AppendEntriesRequest) : Prop where
  nonempty : es ≠ []
  prevIndex : request.prevLogIndex + 1 = f + es.length
  prevTerm : es.getLast?.map (·.term) = some request.prevLogTerm
  types : request.type.length = request.entries.length
  old : ∀ e ∈ es ++ tail, Readable pb e
  new : ∀ e ∈ request.newEntries, Readable pb e
  low : -2 ^ 63 ≤ f
  high : f + es.length + tail.length + request.entries.length < 2 ^ 63

/-! ## What happens -/

/-- The log `AppendEntries` leaves. -/
def followed (pb : Protobuf LogEntry) (paddings : Nat → Nat) (f : Int)
    (es tail : List PaddedEntry) (request : AppendEntriesRequest) : RaftLog :=
  match tail with
  | [] => RaftLog.logOf pb f (es ++ request.written paddings)
  | e :: rest =>
    if e.term = request.term then
      RaftLog.logOf pb f (es ++ (e :: rest ++ request.written paddings))
    else RaftLog.extend pb (RaftLog.truncated pb f es e rest) (request.written paddings)

/-- `AppendEntries` once its parts are known. -/
theorem appendEntries_ok {paddings : Nat → Nat} {r : Raft Peer} {request : AppendEntriesRequest}
    {reply : AppendEntriesResponse} {l l' : RaftLog}
    (haccept : ¬ (request.term < r.currentTerm_ ∨
      r.logs_.containLog request.prevLogIndex request.prevLogTerm = false))
    (hcut : Raft.removeConflict r.logs_ (request.prevLogIndex + 1) request.term = .ok l)
    (hloop : Raft.appendCommands pb (request.prevLogIndex + 1) request.term paddings l
      request.type request.entries = .ok l') :
    ∃ r' reply', r.appendEntries pb paddings request reply = .ok (r', reply') ∧ r'.logs_ = l' := by
  unfold Raft.appendEntries
  dsimp only
  rw [if_neg haccept, hcut]
  simp only [bind, Except.bind, hloop]
  exact ⟨_, _, rfl, rfl⟩

section follower

variable {f : Int} {es tail : List PaddedEntry} {request : AppendEntriesRequest}
  {paddings : Nat → Nat}

theorem Refers.written (h : Refers pb f es tail request) :
    ∀ e ∈ request.written paddings, Readable pb e := by
  intro e he
  exact h.new e (mem_written he)

theorem Refers.length_lt (h : Refers pb f es tail request) :
    es.length + tail.length + request.entries.length < 2 ^ 64 := by
  have h1 := h.low
  have h2 := h.high
  omega

/-- The request is accepted. -/
theorem Refers.contains (h : Refers pb f es tail request) :
    (RaftLog.logOf pb f (es ++ tail)).containLog request.prevLogIndex request.prevLogTerm =
      true := by
  have hpos : 0 < es.length := List.length_pos_iff.mpr h.nonempty
  have hlen := h.length_lt
  have hprev : request.prevLogIndex = f + (es.length - 1 : Nat) := by
    have := h.prevIndex
    omega
  obtain ⟨e, hlast, hterm⟩ := Option.map_eq_some_iff.mp h.prevTerm
  rw [hprev]
  apply (RaftLog.containLog_logOf (by omega)).mpr
  refine ⟨e, ?_, hterm⟩
  rw [List.getElem?_append_left (by omega), ← List.getLast?_eq_getElem?, hlast]

/-- What `AppendEntries` does with an accepted request. -/
theorem Refers.appendEntries (h : Refers pb f es tail request) (paddings : Nat → Nat)
    {r : Raft Peer}
    (hlog : r.logs_ = RaftLog.logOf pb f (es ++ tail)) (hterm : r.currentTerm_ ≤ request.term)
    (reply : AppendEntriesResponse) :
    ∃ r' reply', r.appendEntries pb paddings request reply = .ok (r', reply') ∧
      r'.logs_ = followed pb paddings f es tail request := by
  have hlen := h.length_lt
  have haccept : ¬ (request.term < r.currentTerm_ ∨
      r.logs_.containLog request.prevLogIndex request.prevLogTerm = false) := by
    rw [hlog, h.contains]
    simp
    omega
  have hloop : ∀ l, RaftLog.AtEnd l →
      Raft.appendCommands pb (request.prevLogIndex + 1) request.term paddings l request.type
        request.entries = .ok (RaftLog.extend pb l (request.written paddings)) := by
    intro l hl
    rw [appendCommands_eq _ _ _ _ _ _ h.types.ge]
    exact congrArg Except.ok
      (RaftLog.appendAll_eq hl fun e he => (h.written e he).carries.size_lt)
  have hput : ∀ l, RaftLog.AtEnd l →
      Raft.removeConflict r.logs_ (request.prevLogIndex + 1) request.term = .ok l →
      ∃ r' reply', r.appendEntries pb paddings request reply = .ok (r', reply') ∧
        r'.logs_ = RaftLog.extend pb l (request.written paddings) := by
    intro l hl hcut
    exact appendEntries_ok haccept hcut (hloop l hl)
  have hcontain : r.logs_.containLog (request.prevLogIndex + 1) request.term = true ↔
      ∃ e, tail.head? = some e ∧ e.term = request.term := by
    rw [hlog, h.prevIndex, RaftLog.containLog_logOf (by omega),
      List.getElem?_append_right (Nat.le_refl _), Nat.sub_self, List.head?_eq_getElem?]
  cases tail with
  | nil =>
    -- Nothing is behind `es`: `Truncate` finds the index invalid.
    have hcut : Raft.removeConflict r.logs_ (request.prevLogIndex + 1) request.term =
        .ok (RaftLog.logOf pb f es) := by
      have hno : r.logs_.containLog (request.prevLogIndex + 1) request.term = false := by
        rw [← Bool.not_eq_true, hcontain]
        simp
      have hinvalid : (RaftLog.logOf pb f es).validIndex (f + es.length) = false := by
        rw [RaftLog.validIndex_logOf (by omega)]
        simp
      rw [Raft.removeConflict, if_pos hno, hlog, List.append_nil, h.prevIndex, RaftLog.truncate,
        hinvalid]
      rfl
    obtain ⟨r', reply', hok, hlogs⟩ := hput _ (RaftLog.logOf_atEnd pb f es) hcut
    refine ⟨r', reply', hok, ?_⟩
    rw [hlogs, RaftLog.extend_logOf]
    rfl
  | cons e rest =>
    by_cases heq : e.term = request.term
    · -- The entry in place of the first new one looks right, and nothing is removed.
      have hcut : Raft.removeConflict r.logs_ (request.prevLogIndex + 1) request.term =
          .ok (RaftLog.logOf pb f (es ++ e :: rest)) := by
        have hyes := hcontain.mpr ⟨e, rfl, heq⟩
        rw [Raft.removeConflict, hyes, hlog]
        rfl
      obtain ⟨r', reply', hok, hlogs⟩ := hput _ (RaftLog.logOf_atEnd pb f _) hcut
      refine ⟨r', reply', hok, ?_⟩
      rw [hlogs, RaftLog.extend_logOf, followed, if_pos heq, List.append_assoc]
    · -- A conflict: the file is cut behind `es`.
      have hcut : Raft.removeConflict r.logs_ (request.prevLogIndex + 1) request.term =
          .ok (RaftLog.truncated pb f es e rest) := by
        have hno : r.logs_.containLog (request.prevLogIndex + 1) request.term = false := by
          rw [← Bool.not_eq_true, hcontain]
          simpa using heq
        rw [Raft.removeConflict, if_pos hno, hlog, h.prevIndex]
        exact RaftLog.truncate_logOf h.nonempty (by omega)
      have hend : RaftLog.AtEnd (RaftLog.truncated pb f es e rest) :=
        ⟨rfl, (RaftLog.logOf_atEnd pb f es).ends⟩
      obtain ⟨r', reply', hok, hlogs⟩ := hput _ hend hcut
      refine ⟨r', reply', hok, ?_⟩
      rw [hlogs, followed, if_neg heq]

/-! ## When this is right -/

/-- The new entries are right if there is at most one: the others would need
    indices of their own. -/
theorem Refers.holds_written (h : Refers pb f es tail request) :
    Holds request (request.written paddings) ↔ request.entries.length ≤ 1 := by
  constructor
  · intro hholds
    by_contra hmany
    -- The second command is stored with the index of the first.
    have hone : 1 < request.entries.length := by omega
    obtain ⟨e, he, _, _, hindex⟩ := hholds 1 _ (List.getElem?_eq_getElem hone)
    obtain ⟨e', he', _, _, hindex'⟩ :=
      getElem?_written paddings h.types (List.getElem?_eq_getElem hone)
    rw [he'] at he
    cases he
    omega
  · intro hfew k c hc
    obtain ⟨hk, _⟩ := List.getElem?_eq_some_iff.mp hc
    obtain ⟨e, he, hterm, hcommand, hindex⟩ := getElem?_written paddings h.types hc
    refine ⟨e, he, hterm, hcommand, ?_⟩
    rw [hindex]
    omega

/-- What has to be shown of a log that goes on with `behind` after `es`. -/
theorem Refers.replicated_logOf (h : Refers pb f es tail request) {behind : List PaddedEntry}
    (hgood : ∀ e ∈ behind, Readable pb e)
    (hconflict : (RaftLog.logOf pb f (es ++ tail)).validIndex (request.prevLogIndex + 1) = true →
      (RaftLog.logOf pb f (es ++ tail)).containLog (request.prevLogIndex + 1) request.term =
        false →
      behind.length = request.entries.length) :
    Replicated pb request (RaftLog.logOf pb f (es ++ tail))
      (RaftLog.logOf pb f (es ++ behind)) ↔ Holds request behind := by
  have hlen := h.length_lt
  have hall : ∀ e ∈ es ++ behind, Readable pb e := by
    intro e he
    rcases List.mem_append.mp he with he | he
    · exact h.old e (by simp [he])
    · exact hgood e he
  -- Places in the request and places in the log.
  have hplace : ∀ k : Nat, request.prevLogIndex + 1 + k = f + ((es.length + k : Nat) : Int) := by
    intro k
    have := h.prevIndex
    omega
  have hbehind : ∀ k, (es ++ behind)[es.length + k]? = behind[k]? := by
    intro k
    rw [List.getElem?_append_right (by omega), Nat.add_sub_cancel_left]
  have hbound : ∀ {k : Nat} {c : Bytes}, request.entries[k]? = some c → es.length + k < 2 ^ 64 := by
    intro k c hc
    obtain ⟨hk, _⟩ := List.getElem?_eq_some_iff.mp hc
    omega
  constructor
  · intro hrep k c hc
    obtain ⟨hcontain, e, hstored, hful⟩ := hrep.entries k c hc
    rw [hplace] at hcontain hstored
    obtain ⟨e', he', _⟩ := (RaftLog.containLog_logOf (hbound hc)).mp hcontain
    have hgood' := hall e' (List.mem_of_getElem? he')
    rw [RaftLog.storedEntry_logOf (hbound hc) he' hgood'] at hstored
    rw [← Option.some.inj hstored] at hful
    rw [hbehind] at he'
    exact ⟨e', he', hful⟩
  · intro hholds
    constructor
    · intro k c hc
      obtain ⟨e, he, hful⟩ := hholds k c hc
      have hgood' := hgood e (List.mem_of_getElem? he)
      rw [hplace]
      constructor
      · exact (RaftLog.containLog_logOf (hbound hc)).mpr ⟨e, by rw [hbehind, he], hful.1⟩
      · exact ⟨e, RaftLog.storedEntry_logOf (hbound hc) (by rw [hbehind, he]) hgood',
          hful⟩
    · -- Up to `es` both logs have the same records at the same offsets.
      intro i hfirst hprev
      obtain ⟨j, rfl⟩ : ∃ j : Nat, i = f + j := by
        have hle : f ≤ i := hfirst
        exact ⟨(i - f).toNat, by omega⟩
      have hprevIndex := h.prevIndex
      have hj : j < es.length := by omega
      have hj64 : j < 2 ^ 64 := by omega
      have hgood' := h.old es[j] (by simp)
      constructor
      · rw [RaftLog.entry_logOf_append hj64 hj, RaftLog.entry_logOf_append hj64 hj]
      · have hget : ∀ es', (es ++ es')[j]? = some es[j] := by
          intro es'
          rw [List.getElem?_append_left hj, List.getElem?_eq_getElem hj]
        rw [RaftLog.storedEntry_logOf hj64 (hget behind) hgood',
          RaftLog.storedEntry_logOf hj64 (hget tail) hgood']
    · intro hvalid hcontain
      have hcount := hconflict hvalid hcontain
      have hprevIndex := h.prevIndex
      have hlow := h.low
      have hhigh := h.high
      have hpos : 0 < es.length := List.length_pos_iff.mpr h.nonempty
      have htable : (RaftLog.logOf pb f (es ++ behind)).offset_term_.length =
          es.length + request.entries.length := by
        rw [RaftLog.logOf_offset_term, RaftLog.length_table, List.length_append, hcount]
      rw [RaftLog.lastIndex_of_length htable (by rw [RaftLog.logOf_firstIndex]; omega)
        (by rw [RaftLog.logOf_firstIndex]; omega), RaftLog.logOf_firstIndex]
      omega

/-- A log that keeps its conflicting tail is not what it should be. -/
theorem Refers.not_replicated_truncated {e e' : PaddedEntry} {rest : List PaddedEntry}
    (h : Refers pb f es (e :: e' :: rest) request) (hne : e.term ≠ request.term) :
    ¬ Replicated pb request (RaftLog.logOf pb f (es ++ e :: e' :: rest))
      (RaftLog.extend pb (RaftLog.truncated pb f es e (e' :: rest))
        (request.written paddings)) := by
  intro hrep
  have hlen := h.length_lt
  have hprevIndex := h.prevIndex
  have hlow := h.low
  have hhigh := h.high
  simp only [List.length_cons] at hlen hhigh
  have hvalid : (RaftLog.logOf pb f (es ++ e :: e' :: rest)).validIndex
      (request.prevLogIndex + 1) = true := by
    rw [hprevIndex, RaftLog.validIndex_logOf (by omega)]
    simp
  have hcontain : (RaftLog.logOf pb f (es ++ e :: e' :: rest)).containLog
      (request.prevLogIndex + 1) request.term = false := by
    rw [← Bool.not_eq_true, hprevIndex, RaftLog.containLog_logOf (by omega)]
    simpa using hne
  have hlast := hrep.conflict hvalid hcontain
  -- The table keeps `e'` and what is behind it, and grows by the new entries.
  have htable : (RaftLog.extend pb (RaftLog.truncated pb f es e (e' :: rest))
      (request.written paddings)).offset_term_.length =
        es.length + (rest.length + 1) + request.entries.length := by
    simp [RaftLog.extend, RaftLog.truncated, RaftLog.table, length_written paddings h.types.ge]
    omega
  have hbase : (RaftLog.extend pb (RaftLog.truncated pb f es e (e' :: rest))
      (request.written paddings)).firstIndex_ = f := rfl
  rw [RaftLog.lastIndex_of_length htable (by rw [hbase]; push_cast; omega)
    (by rw [hbase]; push_cast; omega), hbase] at hlast
  push_cast at hlast
  omega

/-- New entries behind a matching tail are out of place. -/
theorem Refers.holds_append_written (h : Refers pb f es tail request) (hne : tail ≠ []) :
    Holds request (tail ++ request.written paddings) ↔ Holds request tail := by
  have hpos : 0 < tail.length := List.length_pos_iff.mpr hne
  constructor
  · intro hholds k c hc
    obtain ⟨e, he, hful⟩ := hholds k c hc
    by_cases hk : k < tail.length
    · rw [List.getElem?_append_left hk] at he
      exact ⟨e, he, hful⟩
    · -- The first new entry behind the tail carries the index of the first place.
      obtain ⟨hkn, _⟩ := List.getElem?_eq_some_iff.mp hc
      have hzero : 0 < request.entries.length := by omega
      have hbehind : tail.length < request.entries.length := by omega
      obtain ⟨e', he', -, -, hindex⟩ :=
        getElem?_written paddings h.types (List.getElem?_eq_getElem hzero)
      obtain ⟨e'', he'', -, -, hindex'⟩ := hholds tail.length _ (List.getElem?_eq_getElem hbehind)
      rw [List.getElem?_append_right (Nat.le_refl _), Nat.sub_self, he'] at he''
      rw [Option.some.inj he'', hindex'] at hindex
      omega
  · intro hholds k c hc
    obtain ⟨e, he, hful⟩ := hholds k c hc
    obtain ⟨hk, _⟩ := List.getElem?_eq_some_iff.mp he
    exact ⟨e, by rw [List.getElem?_append_left hk, he], hful⟩

/-- The log `AppendEntries` leaves is right exactly for the requests the code
    handles. -/
theorem Refers.replicated_followed (h : Refers pb f es tail request) :
    Replicated pb request (RaftLog.logOf pb f (es ++ tail))
      (followed pb paddings f es tail request) ↔ Handles tail request := by
  have hlen := h.length_lt
  have hprevIndex := h.prevIndex
  cases tail with
  | nil =>
    have hvacuous : (RaftLog.logOf pb f (es ++ [])).validIndex (request.prevLogIndex + 1) =
        false := by
      rw [hprevIndex, RaftLog.validIndex_logOf (by omega)]
      simp
    rw [followed, h.replicated_logOf h.written (by rw [hvacuous]; nofun), h.holds_written]
    simp [Handles]
  | cons e rest =>
    by_cases heq : e.term = request.term
    · have hvacuous : (RaftLog.logOf pb f (es ++ e :: rest)).containLog
          (request.prevLogIndex + 1) request.term = true := by
        rw [hprevIndex, RaftLog.containLog_logOf (by omega)]
        exact ⟨e, by simp, heq⟩
      have hgood : ∀ e' ∈ e :: rest ++ request.written paddings, Readable pb e' := by
        intro e' he'
        rcases List.mem_append.mp he' with he' | he'
        · exact h.old e' (List.mem_append_right es he')
        · exact h.written e' he'
      rw [followed, if_pos heq, h.replicated_logOf hgood (by rw [hvacuous]; nofun),
        h.holds_append_written (by simp)]
      constructor
      · intro hholds
        exact .inr (.inr ⟨e, rfl, heq, hholds⟩)
      · intro hcase
        rcases hcase with ⟨hnil, _⟩ | ⟨e', hone, hne, _⟩ | ⟨_, _, _, hholds⟩
        · cases hnil
        · cases hone
          exact absurd heq hne
        · exact hholds
    · rw [followed, if_neg heq]
      -- One conflicting entry is removed properly, more of them are not.
      cases rest with
      | nil =>
        rw [RaftLog.truncated_nil, RaftLog.extend_logOf,
          h.replicated_logOf h.written (fun _ _ => length_written paddings h.types.ge),
          h.holds_written]
        constructor
        · intro hfew
          exact .inr (.inl ⟨e, rfl, heq, hfew⟩)
        · intro hcase
          rcases hcase with ⟨hnil, _⟩ | ⟨_, _, _, hfew⟩ | ⟨e', hhead, hterm, _⟩
          · cases hnil
          · exact hfew
          · cases hhead
            exact absurd hterm heq
      | cons e' rest =>
        constructor
        · intro hrep
          exact absurd hrep (h.not_replicated_truncated heq)
        · intro hcase
          rcases hcase with ⟨hnil, _⟩ | ⟨_, hone, _⟩ | ⟨e'', hhead, hterm, _⟩
          · cases hnil
          · cases hone
          · cases hhead
            exact absurd hterm heq

end follower

/-- **Follower log update**: over every log and every accepted request, the log
    is updated as it should be exactly for the requests the code handles. -/
theorem appendEntries_replicated_iff (pb : Protobuf LogEntry) (paddings : Nat → Nat)
    (r : Raft Peer) (f : Int) (es tail : List PaddedEntry)
    (hlog : r.logs_ = RaftLog.built pb f (es ++ tail))
    (request : AppendEntriesRequest) (reply : AppendEntriesResponse)
    (hterm : r.currentTerm_ ≤ request.term) (h : Refers pb f es tail request) :
    (∃ r' reply', r.appendEntries pb paddings request reply = .ok (r', reply') ∧
      Replicated pb request r.logs_ r'.logs_) ↔ Handles tail request := by
  have hlogOf : r.logs_ = RaftLog.logOf pb f (es ++ tail) := by
    rw [hlog, RaftLog.built_eq]
    intro e he
    exact (h.old e he).carries.size_lt
  obtain ⟨r', reply', hok, hlogs⟩ := h.appendEntries paddings hlogOf hterm reply
  rw [← h.replicated_followed]
  constructor
  · intro ⟨r'', reply'', hok', hrep⟩
    rw [hok] at hok'
    cases hok'
    rw [hlogOf, hlogs] at hrep
    exact hrep
  · intro hrep
    exact ⟨r', reply', hok, by rw [hlogOf, hlogs]; exact hrep⟩

/-- A follower whose log holds `es` from index 1 on. -/
def follower (es : List PaddedEntry) : Raft Nat :=
  { Raft.create .kFollower 0 {} 0 [1] with logs_ := RaftLog.built protoFormat 1 es }

/-- A request of term 2 from node 1 that refers to the entry at index 1, of term 1. -/
def oneCommand : AppendEntriesRequest where
  term := 2
  peerId := 1
  prevLogIndex := 1
  prevLogTerm := 1
  commitedIndex := 0
  type := [.data]
  entries := [[99]]

/-- The request refers to the first entry, whatever comes behind it. -/
theorem oneCommand_refers {tail : List PaddedEntry} (hlen : tail.length < 100)
    (htail : ∀ e ∈ tail, Readable protoFormat e) :
    Refers protoFormat 1 [dataEntry 1 1 [97]] tail oneCommand where
  nonempty := by decide
  prevIndex := by decide
  prevTerm := by decide
  types := by decide
  old := by
    intro e he
    rcases List.mem_append.mp he with he | he
    · obtain rfl : e = dataEntry 1 1 [97] := by simpa using he
      exact ⟨by decide, ⟨by decide, by decide⟩⟩
    · exact htail e he
  new := by
    intro e he
    obtain rfl : e = (dataEntry 2 2 [99]).toLogEntry := by
      simpa [AppendEntriesRequest.newEntries, oneCommand, dataEntry] using he
    exact ⟨by decide, ⟨by decide, by decide⟩⟩
  low := by decide
  high := by
    simp [oneCommand]
    omega

/-- A command in place of a last entry of another term. -/
theorem appendEntries_replicated_last :
    ∃ r' reply', (follower [dataEntry 1 1 [97], dataEntry 1 2 [98]]).appendEntries protoFormat id
        oneCommand {} = .ok (r', reply') ∧
      Replicated protoFormat oneCommand (follower [dataEntry 1 1 [97], dataEntry 1 2 [98]]).logs_
        r'.logs_ := by
  have htail : ∀ e ∈ [dataEntry 1 2 [98]], Readable protoFormat e := by
    intro e he
    obtain rfl : e = dataEntry 1 2 [98] := by simpa using he
    exact ⟨by decide, ⟨by decide, by decide⟩⟩
  apply (appendEntries_replicated_iff protoFormat id
    (follower [dataEntry 1 1 [97], dataEntry 1 2 [98]]) 1 [dataEntry 1 1 [97]]
    [dataEntry 1 2 [98]] rfl oneCommand {} (by decide) (oneCommand_refers (by decide) htail)).mpr
  right
  left
  exact ⟨dataEntry 1 2 [98], rfl, by decide, by decide⟩

/-- A log with two entries behind the first. -/
def longer : List PaddedEntry := [dataEntry 1 1 [97], dataEntry 1 2 [98], dataEntry 1 3 [100]]

/-- A command in place of two entries of another term: the second of them stays
    in the table, and the log ends at index 3 instead of 2. -/
theorem appendEntries_keeps_tail :
    Refers protoFormat 1 [dataEntry 1 1 [97]] [dataEntry 1 2 [98], dataEntry 1 3 [100]]
      oneCommand ∧
    ¬ ∃ r' reply', (follower longer).appendEntries protoFormat id oneCommand {} = .ok (r', reply') ∧
      Replicated protoFormat oneCommand (follower longer).logs_ r'.logs_ := by
  have hrefers : Refers protoFormat 1 [dataEntry 1 1 [97]]
      [dataEntry 1 2 [98], dataEntry 1 3 [100]] oneCommand := by
    apply oneCommand_refers (by decide)
    intro e he
    have hcase : e = dataEntry 1 2 [98] ∨ e = dataEntry 1 3 [100] := by simpa using he
    rcases hcase with rfl | rfl
    · exact ⟨by decide, ⟨by decide, by decide⟩⟩
    · exact ⟨by decide, ⟨by decide, by decide⟩⟩
  have hlog : (follower longer).logs_ = RaftLog.logOf protoFormat 1 longer := by
    show RaftLog.built protoFormat 1 longer = _
    apply RaftLog.built_eq
    intro e he
    exact (hrefers.old e he).carries.size_lt
  refine ⟨hrefers, ?_⟩
  intro ⟨r', reply', hok, hrep⟩
  obtain ⟨r'', reply'', hok', hlogs⟩ := hrefers.appendEntries id hlog (by decide) {}
  rw [hok'] at hok
  cases hok
  rw [hlog, hlogs] at hrep
  exact hrefers.not_replicated_truncated (by decide) hrep

/-! ## The answer -/

/-- The log `l` of the entries `es` matches the request: it has the entry the
    request refers to, or it is empty and the request refers to its end. -/
def Matches (l : RaftLog) (f : Int) (es : List PaddedEntry) (request : AppendEntriesRequest) :
    Prop :=
  (∃ k e, es[k]? = some e ∧ request.prevLogIndex = toInt64 (f + (k : Nat)) ∧
    e.term = request.prevLogTerm) ∨
  (es = [] ∧ request.prevLogIndex = l.lastIndex)

/-- The reply is truthful: it says whether the request is accepted, and a request
    that is not leaves the node alone. -/
structure Truthful (r : Raft Peer) (accepted : Prop) (r' : Raft Peer)
    (reply : AppendEntriesResponse) : Prop where
  success : reply.success = true ↔ accepted
  unchanged : ¬ accepted → r'.logs_ = r.logs_ ∧ r'.commitIndex_ = r.commitIndex_ ∧
    r'.currentTerm_ = r.currentTerm_ ∧ r'.votedFor_ = r.votedFor_

theorem appendEntries_refuses (pb : Protobuf LogEntry) (paddings : Nat → Nat) {r : Raft Peer}
    {request : AppendEntriesRequest} {reply : AppendEntriesResponse}
    (h : request.term < r.currentTerm_ ∨
      r.logs_.containLog request.prevLogIndex request.prevLogTerm = false) :
    r.appendEntries pb paddings request reply =
      .ok (r, { term := r.currentTerm_, success := false, peerId := r.id_ }) := by
  unfold Raft.appendEntries
  dsimp only
  rw [if_pos h]

/-- No path sets `success`. -/
theorem appendEntries_success {paddings : Nat → Nat} {r r' : Raft Peer}
    {request : AppendEntriesRequest} {reply reply' : AppendEntriesResponse}
    (hfresh : reply.success = false)
    (hok : r.appendEntries pb paddings request reply = .ok (r', reply')) :
    reply'.success = false := by
  unfold Raft.appendEntries at hok
  dsimp only at hok
  split at hok
  · cases hok
    rfl
  · obtain ⟨logs, -, hok⟩ := bind_ok hok
    obtain ⟨logs', -, hok⟩ := bind_ok hok
    cases hok
    exact hfresh

/-- `ContainLog` finds the entry the request refers to. -/
theorem RaftLog.Made.matches_iff {l : RaftLog} {f : Int} {es : List PaddedEntry}
    (h : l.Made pb f es) {i t : Int} (hi : Bytes.FitsSigned 8 i) :
    l.containLog i t = true ↔
      ∃ k e, es[k]? = some e ∧ i = toInt64 (f + (k : Nat)) ∧ e.term = t := by
  obtain ⟨hi1, hi2⟩ := hi
  rw [h.containLog_iff]
  constructor
  · intro hcase
    rcases hcase with ⟨e, he, ht⟩
    refine ⟨_, e, he, ?_, ht⟩
    unfold toInt64 toSize Int.bmod
    dsimp only
    split <;> omega
  · intro hcase
    rcases hcase with ⟨k, e, he, rfl, ht⟩
    obtain ⟨hk, -⟩ := List.getElem?_eq_some_iff.mp he
    have hlen := h.length_lt
    -- What the sum has lost in the conversion, the difference loses again.
    have hplace : toSize (toInt64 (f + k) - f) = k := by
      unfold toInt64 toSize Int.bmod
      dsimp only
      split <;> omega
    exact ⟨e, by rw [hplace]; exact he, ht⟩

/-- The answer is truthful exactly when the request has to be refused: no request
    is ever accepted, and an empty log refuses its first entry. -/
theorem appendEntries_truthful_iff (pb : Protobuf LogEntry) (paddings : Nat → Nat)
    (r : Raft Peer) (f : Int) (es : List PaddedEntry) (hlog : r.logs_.Made pb f es)
    (request : AppendEntriesRequest) (hprev : Bytes.FitsSigned 8 request.prevLogIndex) :
    (∃ r' reply, r.appendEntries pb paddings request {} = .ok (r', reply) ∧
      Truthful r (r.currentTerm_ ≤ request.term ∧ Matches r.logs_ f es request) r' reply) ↔
      request.term < r.currentTerm_ ∨ ¬ Matches r.logs_ f es request := by
  constructor
  · intro hcase
    rcases hcase with ⟨r', reply, hok, htrue⟩
    have hfalse := appendEntries_success rfl hok
    by_contra hno
    have haccepted := htrue.success.mpr (by
      rw [not_or, not_not] at hno
      exact ⟨by omega, hno.2⟩)
    rw [hfalse] at haccepted
    cases haccepted
  · intro hrefused
    have hguard : request.term < r.currentTerm_ ∨
        r.logs_.containLog request.prevLogIndex request.prevLogTerm = false := by
      rcases hrefused with hterm | hno
      · exact .inl hterm
      · right
        rw [← Bool.not_eq_true, hlog.matches_iff hprev]
        exact fun hhas => hno (.inl hhas)
    have hnot : ¬ (r.currentTerm_ ≤ request.term ∧ Matches r.logs_ f es request) := by
      rcases hrefused with hterm | hno
      · exact fun h => absurd h.1 (by omega)
      · exact fun h => hno h.2
    refine ⟨r, _, appendEntries_refuses pb paddings hguard, ?_, ?_⟩
    · exact ⟨fun h => (Bool.false_ne_true h).elim, fun h => absurd h hnot⟩
    · exact fun _ => ⟨rfl, rfl, rfl, rfl⟩

/-- A request that refers to an entry of another term is refused, truthfully. -/
theorem appendEntries_truthful_refused :
    ∃ r' reply, (follower [dataEntry 2 1 [97]]).appendEntries protoFormat id oneCommand {} =
        .ok (r', reply) ∧
      Truthful (follower [dataEntry 2 1 [97]])
        ((follower [dataEntry 2 1 [97]]).currentTerm_ ≤ oneCommand.term ∧
          Matches (follower [dataEntry 2 1 [97]]).logs_ 1 [dataEntry 2 1 [97]] oneCommand)
        r' reply := by
  apply (appendEntries_truthful_iff protoFormat id (follower [dataEntry 2 1 [97]]) 1
    [dataEntry 2 1 [97]] (.appended (by decide) (by decide) (by decide)) oneCommand
    (by decide)).mpr
  right
  intro hcase
  rcases hcase with ⟨k, e, he, -, hterm⟩ | ⟨hnil, -⟩
  · obtain rfl : e = dataEntry 2 1 [97] := by
      have := List.mem_of_getElem? he
      simpa using this
    exact absurd hterm (by decide)
  · cases hnil

/-- A request that is carried out is answered as if it had not been. -/
theorem appendEntries_denied :
    ¬ ∃ r' reply, (follower [dataEntry 1 1 [97]]).appendEntries protoFormat id oneCommand {} =
        .ok (r', reply) ∧
      Truthful (follower [dataEntry 1 1 [97]])
        ((follower [dataEntry 1 1 [97]]).currentTerm_ ≤ oneCommand.term ∧
          Matches (follower [dataEntry 1 1 [97]]).logs_ 1 [dataEntry 1 1 [97]] oneCommand)
        r' reply := by
  intro hcase
  rcases hcase with ⟨r', reply, hok, htrue⟩
  have hyes := htrue.success.mpr ⟨by decide, .inl ⟨0, _, rfl, by decide, rfl⟩⟩
  rw [appendEntries_success rfl hok] at hyes
  cases hyes

end JNet

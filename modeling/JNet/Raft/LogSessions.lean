import JNet.Lib.LTS
import JNet.Raft.LogRecovery

/-! # A log over several sessions

    A process that uses a log constructs a `RaftLog` over its file, calls
    `Load()` and then appends; the next process does the same over what it
    finds.  Nobody calls `SetFirstIndex` on the way, so a file that starts empty
    gets its eight bytes of first index from the gap that the first `Append`
    leaves.
-/

namespace JNet

open Memory

namespace RaftLog

/-! ## Sessions -/

/-- The log as a session finds it, and the log as the session leaves it. -/
structure Sessions where
  /-- At the end of the session before. -/
  before : RaftLog
  /-- After the `Load()` of the session. -/
  loaded : RaftLog
  /-- At the end of the session. -/
  ended : RaftLog
  deriving DecidableEq, Repr

namespace Sessions

/-- No session yet: a fresh log over an empty file. -/
def start : Sessions where
  before := { storage_ := {} }
  loaded := { storage_ := {} }
  ended := { storage_ := {} }

/-- A session: construct, `Load()`, and append `es`. -/
def next (pb : Protobuf LogEntry) (s : Sessions) (es : List PaddedEntry) :
    Except Fault Sessions := do
  let l ← load { storage_ := s.ended.storage_ }
  return { before := s.ended, loaded := l, ended := l.appendAll pb es }

/-- `Load()` has restored what the session before left. -/
structure Restored (s : Sessions) : Prop where
  firstIndex : s.loaded.firstIndex = s.before.firstIndex
  lastIndex : s.loaded.lastIndex = s.before.lastIndex
  offset_term : s.loaded.offset_term_ = s.before.offset_term_

end Sessions

/-! ## The first bytes of the file -/

variable {pb : Protobuf LogEntry}

/-- `Load()` over an empty file: a read of no bytes is no error, and `bytes_` moves
    past a first index that is not there. -/
theorem load_empty : load { storage_ := {} } = .ok { bytes_ := 8, storage_ := {} } := by
  have hread : (Storage.mk [] false).read 8 0 = (0, []) := by decide
  have hover : Bytes.signed 8 (Bytes.leNat (overlay (Bytes.leSigned 8 (-1)) [])) = -1 := by decide
  unfold load
  simp only [hread, hover]
  rw [if_neg (by decide), loadLoop_done (by simp [Storage.fileSize])]

/-- A write at offset 8 of an empty file fills the gap with zeros. -/
theorem write_gap {buf : Bytes} (hne : buf ≠ []) :
    (Storage.mk [] false).write buf buf.length 8 =
      (Storage.mk (Bytes.leSigned 8 0) false).write buf buf.length 8 := by
  have hzero : Bytes.leSigned 8 0 = List.replicate 8 0 := by decide
  have hlen : ¬ ((buf.length : Int) < 0) := by omega
  have hdrop : (List.replicate 8 (0 : UInt8)).drop (8 + buf.length) = [] :=
    List.drop_eq_nil_of_le (by simp)
  simp only [Storage.write, hzero, hlen, hdrop, Int.toNat_natCast, List.take_length]
  simp [hne]

/-- `Append` sees of the storage only what its first write makes of it. -/
theorem append_congr {l : RaftLog} {st : Storage} (e : PaddedEntry)
    (hwrite : ∀ h : LogHeader, ∀ p, l.storage_.write (h.image p) LogHeader.size l.bytes_ =
      st.write (h.image p) LogHeader.size l.bytes_) :
    l.append pb e e.padding = append pb { l with storage_ := st } e e.padding := by
  unfold append
  simp only [hwrite]

/-- The first `Append` behind the missing first index finds eight zeros there. -/
theorem append_gap (e : PaddedEntry) :
    append pb { bytes_ := 8, storage_ := {} } e e.padding =
      append pb { bytes_ := 8, storage_ := { file := Bytes.leSigned 8 0 } } e e.padding := by
  apply append_congr
  intro h p
  have hne : h.image p ≠ [] := by
    rw [← List.length_pos_iff, length_headerImage]
    decide
  have hgap := write_gap hne
  rwa [length_headerImage] at hgap

/-- What a session leaves that finds an empty file and appends something. -/
theorem appendAll_gap {es : List PaddedEntry} (hne : es ≠ [])
    (hsmall : ∀ e ∈ es, (pb.serialize e).length < 2 ^ 31) :
    appendAll pb { bytes_ := 8, storage_ := {} } es =
      { logOf pb 0 es with firstIndex_ := -1 } := by
  obtain ⟨e, es, rfl⟩ := List.exists_cons_of_ne_nil hne
  have hend : AtEnd { bytes_ := 8, storage_ := { file := Bytes.leSigned 8 0 } } :=
    ⟨rfl, by simp⟩
  rw [appendAll_cons, append_gap, ← appendAll_cons, appendAll_eq hend hsmall]
  simp [extend, logOf, image]

/-- The same log, field by field and for any list of entries. -/
theorem appendAll_fresh {es : List PaddedEntry}
    (hsmall : ∀ e ∈ es, (pb.serialize e).length < 2 ^ 31) {l : RaftLog}
    (hl : l = appendAll pb { bytes_ := 8, storage_ := {} } es) :
    l.firstIndex_ = -1 ∧ l.offset_term_ = table pb 8 es ∧ (es = [] → l.storage_ = {}) ∧
      (es ≠ [] → l.storage_ = { file := image pb 0 es }) := by
  by_cases hne : es = []
  · subst hne hl
    exact ⟨rfl, rfl, fun _ => rfl, fun h => absurd rfl h⟩
  · rw [hl, appendAll_gap hne hsmall]
    exact ⟨rfl, rfl, fun h => absurd h hne, fun _ => rfl⟩

/-! ## Runs of sessions -/

/-- The entries of the last session. -/
def lastSession (ss : List (List PaddedEntry)) : List PaddedEntry := ss.getLast?.getD []

theorem mem_of_lastSession {ss : List (List PaddedEntry)} (hne : lastSession ss ≠ []) :
    lastSession ss ∈ ss := by
  unfold lastSession at hne ⊢
  cases hl : ss.getLast? with
  | none => simp [hl] at hne
  | some last => exact List.mem_of_getLast? hl

/-- All sessions are quiet if the last one is and those before it are. -/
theorem quiet_of_last {ss : List (List PaddedEntry)} (hquiet : ∀ es ∈ ss.dropLast, es = [])
    (hlast : lastSession ss = []) : ∀ es ∈ ss, es = [] := by
  intro es hmem
  cases hl : ss.getLast? with
  | none => simp [List.getLast?_eq_none_iff.mp hl] at hmem
  | some last =>
    rw [lastSession, hl] at hlast
    obtain ⟨ys, rfl⟩ := List.getLast?_eq_some_iff.mp hl
    rw [List.dropLast_concat] at hquiet
    obtain hmem | hmem := List.mem_append.mp hmem
    · exact hquiet es hmem
    · rw [List.mem_singleton.mp hmem]
      exact hlast

/-- Every session so far but the last has found an empty file and left it empty. -/
structure SessionInv (pb : Protobuf LogEntry) (ss : List (List PaddedEntry)) (s : Sessions) :
    Prop where
  restored : s.Restored
  quiet : ∀ es ∈ ss.dropLast, es = []
  firstIndex : s.ended.firstIndex_ = -1
  offset_term : s.ended.offset_term_ = table pb 8 (lastSession ss)
  empty : lastSession ss = [] → s.ended.storage_ = {}
  image : lastSession ss ≠ [] → s.ended.storage_ = { file := image pb 0 (lastSession ss) }

theorem sessionInv_start (pb : Protobuf LogEntry) : SessionInv pb [] Sessions.start where
  restored := ⟨rfl, rfl, rfl⟩
  quiet := by simp
  firstIndex := rfl
  offset_term := rfl
  empty := fun _ => rfl
  image := fun h => absurd rfl h

namespace SessionInv

variable {ss : List (List PaddedEntry)} {s : Sessions}

/-- With nothing appended so far, the next session loads a fresh log. -/
theorem next (h : SessionInv pb ss s) (hquiet : ∀ es ∈ ss, es = []) {es : List PaddedEntry}
    (hsmall : ∀ e ∈ es, (pb.serialize e).length < 2 ^ 31) :
    ∃ s', s.next pb es = .ok s' ∧ SessionInv pb (ss ++ [es]) s' := by
  have hlast : lastSession ss = [] := by
    unfold lastSession
    cases hl : ss.getLast? with
    | none => rfl
    | some last => exact hquiet last (List.mem_of_getLast? hl)
  have hnow : lastSession (ss ++ [es]) = es := by simp [lastSession]
  -- The file is still empty, so `Load()` does as in the first session.
  have hexec : s.next pb es = .ok
      { before := s.ended
        loaded := { bytes_ := 8, storage_ := {} }
        ended := appendAll pb { bytes_ := 8, storage_ := {} } es } := by
    simp [Sessions.next, h.empty hlast, load_empty, bind, Except.bind, pure, Except.pure]
  have htable : s.ended.offset_term_ = [] := by rw [h.offset_term, hlast, table]
  obtain ⟨hfirst', htable', hempty', himage'⟩ := appendAll_fresh hsmall rfl
  refine ⟨_, hexec, ⟨h.firstIndex.symm, ?_, htable.symm⟩, ?_, hfirst', ?_, ?_, ?_⟩
  · simp [RaftLog.lastIndex, h.firstIndex, htable]
  · simpa using hquiet
  · rw [hnow]
    exact htable'
  · rw [hnow]
    exact hempty'
  · rw [hnow]
    exact himage'

/-- Once something was appended, the next session reads another first index. -/
theorem not_restored (h : SessionInv pb ss s) (hne : lastSession ss ≠ [])
    (hes : ∀ e ∈ lastSession ss, Storable pb e) {es : List PaddedEntry} {s' : Sessions}
    (hnext : s.next pb es = .ok s') : ¬ s'.Restored := by
  intro hrestored
  have hload : load { storage_ := s.ended.storage_ } = .ok (logOf pb 0 (lastSession ss)) := by
    rw [h.image hne]
    exact load_image (by decide) hes
  simp only [Sessions.next, hload, bind, Except.bind, pure, Except.pure] at hnext
  cases hnext
  -- The entries are read back; the first index is read from the zeros of the gap.
  have hfirst : (0 : Int) = -1 := hrestored.firstIndex.trans h.firstIndex
  omega

end SessionInv

/-! ## Main theorem -/

/-- Each `Load()` restores what the session before left, exactly when no session but
    the last appends anything. -/
theorem sessions_restored_iff (pb : Protobuf LogEntry) (ss : List (List PaddedEntry))
    (hes : ∀ es ∈ ss, ∀ e ∈ es, Storable pb e) :
    (∀ n, n ≤ ss.length → ∃ s, LTS.run (Sessions.next pb) Sessions.start (ss.take n) = .ok s ∧
      s.Restored) ↔
    ∀ es ∈ ss.dropLast, es = [] := by
  refine Iff.trans (LTS.run_exact (fun _ s => s.Restored) (SessionInv pb)
    (fun before _ => ∀ es ∈ before, es = []) (sessionInv_start pb) (fun _ _ h => h.restored) ss
    ?_ ?_) ?_
  · intro n hn s _ hinv hquiet
    exact hinv.next hquiet fun e he => (hes _ (List.getElem_mem hn) e he).size_lt
  · intro n hn s s' _ hinv hnext hrestored
    -- The sessions before the last were quiet; so was the last, or it would be read wrongly.
    have hlast : lastSession (ss.take n) = [] := by
      by_contra hne
      refine hinv.not_restored hne (fun e he => ?_) hnext hrestored
      exact hes _ (List.mem_of_mem_take (mem_of_lastSession hne)) e he
    exact quiet_of_last hinv.quiet hlast
  · constructor
    · intro hcond es hmem
      obtain ⟨m, hm, rfl⟩ := List.getElem_of_mem hmem
      rw [List.length_dropLast] at hm
      refine hcond (ss.length - 1) (by omega) _ ?_
      rw [← List.dropLast_eq_take]
      exact List.getElem_mem _
    · intro hquiet n hn es hmem
      refine hquiet es ?_
      rw [List.dropLast_eq_take]
      exact List.take_subset_take_left _ (by omega) hmem

/-- Only the second of two sessions appends. -/
theorem sessions_restored_once :
    let ss := [[], [dataEntry 1 0 [97]]]
    (∀ es ∈ ss, ∀ e ∈ es, Storable protoFormat e) ∧
      ∀ n, n ≤ ss.length → ∃ s,
        LTS.run (Sessions.next protoFormat) Sessions.start (ss.take n) = .ok s ∧ s.Restored := by
  have hes : ∀ es ∈ [[], [dataEntry 1 0 [97]]], ∀ e ∈ es, Storable protoFormat e := by
    simp only [List.forall_mem_cons, List.not_mem_nil, false_implies, implies_true, and_true,
      true_and]
    exact ⟨by decide, by decide⟩
  exact ⟨hes, (sessions_restored_iff protoFormat _ hes).mpr (by decide)⟩

/-- An entry appended by the first session has index -1 there and 0 in the second. -/
theorem sessions_shift_index :
    ¬ ∀ (pb : Protobuf LogEntry) (ss : List (List PaddedEntry)),
      (∀ es ∈ ss, ∀ e ∈ es, Storable pb e) →
      ∀ n, n ≤ ss.length → ∃ s, LTS.run (Sessions.next pb) Sessions.start (ss.take n) = .ok s ∧
        s.Restored := by
  intro hall
  have he : Storable protoFormat (dataEntry 1 0 [97]) := ⟨by decide, by decide⟩
  obtain ⟨s, hrun, hrestored⟩ := hall protoFormat [[dataEntry 1 0 [97]], []] (by simpa using he)
    2 (by decide)
  have hsmall : ∀ e ∈ [dataEntry 1 0 [97]], (protoFormat.serialize e).length < 2 ^ 31 := by
    simpa using he.size_lt
  obtain ⟨s₁, hs₁, hinv⟩ := (sessionInv_start protoFormat).next (by simp) hsmall
  have hnext : s₁.next protoFormat [] = .ok s := by
    have hfirst : LTS.run (Sessions.next protoFormat) Sessions.start [[dataEntry 1 0 [97]]] =
        .ok s₁ := by
      rw [LTS.run_cons, hs₁]
      rfl
    rw [← LTS.run_snoc_ok hfirst]
    exact hrun
  exact hinv.not_restored (by decide) (by simpa [lastSession] using he) hnext hrestored

end RaftLog

end JNet

import JNet.Lib.Memory
import JNet.Net.TimeStamp
import Mathlib.Data.List.DropRight

/-! # `Logger`

    A line of the log (`net/log.cc`) is put together in an array of 4096 bytes: the
    time, the formatted message as far as it fits, and one newline.

    The text of the message is what the format and its arguments make of each other.
-/

namespace JNet

open Memory

inductive LogLevel where
  | LFATAL
  | LERROR
  | LWARN
  | LINFO
  | LDEBUG
  | LTRACE
  | LALL
  deriving DecidableEq, Repr

namespace LogLevel

/-- The value of the enumerator. -/
def toInt : LogLevel → Int
  | .LFATAL => 0
  | .LERROR => 1
  | .LWARN => 2
  | .LINFO => 3
  | .LDEBUG => 4
  | .LTRACE => 5
  | .LALL => 6

end LogLevel

/-! ## One line -/

namespace Logger

/-- What becomes of a line. -/
structure LogLine where
  /-- The bytes given to `write`. -/
  written : Bytes
  /-- The text given to `syslog`. -/
  syslog : Option Bytes
  /-- The text printed to `stderr`. -/
  stderr : Option Bytes
  deriving DecidableEq, Repr

/-- `vsnprintf(p, size, fmt, args)` for the text that the format and its arguments make:
    what does not fit is cut, a NUL is put behind the rest.  The value is the length of the
    whole text. -/
def vsnprintf (mem : List Cell) (p size : Nat) (text : Bytes) : Except Fault (List Cell × Nat) := do
  if size = 0 then return (mem, text.length)
  else
    let mem ← store mem p ((text.take (size - 1) ++ [0]).map some)
    return (mem, text.length)

/-- `while (*--p == '\n') {}`, from `p` down; the value is the last `p`. -/
def trim (mem : List Cell) : Nat → Except Fault Nat
  | 0 => .error .outOfBounds
  | p + 1 =>
    match mem[p]? with
    | some (some b) => if b = 10 then trim mem p else .ok p
    | _ => .error .outOfBounds

/-- The C string in an array, if it is asked for. -/
def textAt (asked : Bool) (mem : List Cell) : Except Fault (Option Bytes) :=
  if asked then (cString mem).map some else .ok none

/-- The array as `Write` fills it with `tm`, the time and its blank, and the message; and the
    last `p` of the search for newlines. -/
def fill (tm text : Bytes) : Except Fault (List Cell × Nat) := do
  let buffer : List Cell := List.replicate (4 * 1024) none
  let mem ← store buffer 0 (tm.map some)
  let (mem, n) ← vsnprintf mem tm.length (4 * 1024 - tm.length) text
  let p ← trim mem (min (tm.length + n) (4 * 1024 - 2))
  let mem ← store mem (p + 1) [some 10]
  let mem ← store mem (p + 2) [some 0]
  return (mem, p)

/-- `Write`, behind `MaybeRotate`, of a logger with level `level_`; `tm` is the time as
    `ToFormattedString` gives it. -/
def write (level_ level : LogLevel) (tm text : Bytes) : Except Fault (Option LogLine) :=
  if level.toInt > level_.toInt then .ok none
  else do
    let (buffer, p) ← fill (tm ++ Strings.ascii " ") text
    let syslog ← textAt (level.toInt ≤ LogLevel.LERROR.toInt) (buffer.drop 27)
    let stderr ← textAt (level = .LFATAL) buffer
    return some { written := (buffer.take (p + 2)).map (·.getD 0), syslog, stderr }

/-- A text without the newlines at its end. -/
def chomp (text : Bytes) : Bytes := text.rdropWhile (· = 10)

/-! ### The array -/

/-- The newlines at the end of what has been stored are passed over. -/
theorem trim_eq {bs : Bytes} (tail : List Cell) (hne : chomp bs ≠ []) :
    trim (bs.map some ++ tail) bs.length = .ok ((chomp bs).length - 1) := by
  induction bs using List.reverseRecOn generalizing tail with
  | nil => exact absurd rfl hne
  | append_singleton bs b ih =>
    have hlen : (bs.map (some : UInt8 → Cell)).length = bs.length := List.length_map _
    have hat : ((bs ++ [b]).map some ++ tail)[bs.length]? = some (some b) := by
      rw [List.map_append, List.append_assoc, List.getElem?_append_right (by omega), hlen,
        Nat.sub_self]
      rfl
    rw [List.length_append, List.length_singleton, trim, hat]
    simp only [chomp, List.rdropWhile_concat, decide_eq_true_eq] at hne ⊢
    split
    · next hnewline =>
      rw [if_pos hnewline] at hne
      rw [List.map_append, List.append_assoc]
      exact ih _ hne
    · rw [List.length_append, List.length_singleton, Nat.add_sub_cancel]

/-- Only newlines are passed over. -/
theorem chomp_append {xs : Bytes} {b : UInt8} (hb : b ≠ 10) (ys : Bytes) :
    chomp (xs ++ [b] ++ ys) = xs ++ [b] ++ chomp ys := by
  induction ys using List.reverseRecOn with
  | nil =>
    rw [List.append_nil, chomp, List.rdropWhile_concat, if_neg (by simpa using hb)]
    simp [chomp]
  | append_singleton ys y ih =>
    rw [← List.append_assoc, chomp, List.rdropWhile_concat, chomp, List.rdropWhile_concat]
    split
    · exact ih
    · rw [List.append_assoc]

theorem chomp_le (bs : Bytes) : chomp bs <+: bs := List.rdropWhile_prefix _ _

/-- Behind `vsnprintf` the array holds the time and as much of the message as fits, and at
    least two more bytes. -/
theorem vsnprintf_eq {tm : Bytes} (htm : tm.length ≤ 4094) (text : Bytes) :
    ∃ tail, vsnprintf (tm.map some ++ List.replicate (4 * 1024 - tm.length) none) tm.length
        (4 * 1024 - tm.length) text =
          .ok ((tm ++ text.take (4 * 1024 - 2 - tm.length)).map some ++ tail, text.length) ∧
      2 ≤ tail.length ∧
      (tm ++ text.take (4 * 1024 - 2 - tm.length)).length =
        min (tm.length + text.length) (4 * 1024 - 2) := by
  have hfit : ((text.take (4 * 1024 - tm.length - 1) ++ [0]).map (some : UInt8 → Cell)).length ≤
      (List.replicate (4 * 1024 - tm.length) (none : Cell)).length := by
    simp only [List.length_map, List.length_append, List.length_take, List.length_singleton,
      List.length_replicate]
    omega
  have hstore := store_append (tm.map some) hfit
  rw [List.length_map] at hstore
  -- The last byte that fits in front of the NUL is given up again.
  have hsplit : text.take (4 * 1024 - tm.length - 1) =
      text.take (4 * 1024 - 2 - tm.length) ++
        (text.drop (4 * 1024 - 2 - tm.length)).take 1 := by
    rw [show 4 * 1024 - tm.length - 1 = 4 * 1024 - 2 - tm.length + 1 by omega, List.take_add]
  obtain ⟨tail, hmem, hlong⟩ : ∃ tail : List Cell, tm.map (some : UInt8 → Cell) ++
        (text.take (4 * 1024 - tm.length - 1) ++ [0]).map some ++
        (List.replicate (4 * 1024 - tm.length) none).drop
          ((text.take (4 * 1024 - tm.length - 1) ++ [0]).map (some : UInt8 → Cell)).length =
      (tm ++ text.take (4 * 1024 - 2 - tm.length)).map some ++ tail ∧ 2 ≤ tail.length := by
    refine ⟨((text.drop (4 * 1024 - 2 - tm.length)).take 1 ++ [0]).map some ++
      (List.replicate (4 * 1024 - tm.length) none).drop
        ((text.take (4 * 1024 - tm.length - 1) ++ [0]).map (some : UInt8 → Cell)).length, ?_, ?_⟩
    · rw [hsplit]
      simp only [List.map_append, List.append_assoc]
    · simp only [List.length_append, List.length_map, List.length_take, List.length_drop,
        List.length_replicate, List.length_singleton]
      omega
  refine ⟨tail, ?_, hlong, ?_⟩
  · rw [vsnprintf, if_neg (by omega), hstore, hmem]
    rfl
  · rw [List.length_append, List.length_take]
    omega

/-- The newline and the NUL go behind what is kept. -/
theorem store_end (bs : Bytes) {tail : List Cell} (hlong : 2 ≤ tail.length) :
    ∃ mem rest, store (bs.map some ++ tail) bs.length [some 10] = .ok mem ∧
      store mem (bs.length + 1) [some 0] = .ok ((bs ++ [10]).map some ++ some 0 :: rest) := by
  have hone : ([some 10] : List Cell).length ≤ tail.length := by
    rw [List.length_singleton]
    omega
  have htwo : ([some 0] : List Cell).length ≤ (tail.drop 1).length := by
    rw [List.length_singleton, List.length_drop]
    omega
  have hfirst := store_append (bs.map some) hone
  have hsecond := store_append ((bs ++ [10]).map some) htwo
  rw [List.length_map] at hfirst hsecond
  rw [List.length_append, List.length_singleton] at hsecond
  refine ⟨_, (tail.drop 1).drop 1, hfirst, ?_⟩
  rw [show bs.map some ++ [some 10] = (bs ++ [10]).map some by rw [List.map_append]; rfl]
  rw [List.append_assoc] at hsecond
  exact hsecond

theorem textAt_eq {bs : Bytes} (h : 0 ∉ bs) (asked : Bool) (cells : List Cell) :
    textAt asked (bs.map some ++ some 0 :: cells) = .ok (if asked then some bs else none) := by
  rw [textAt, cString_append h]
  cases asked <;> rfl

/-- The message may be cut, but what is kept of it ends with one newline, and nothing is
    stored outside the array. -/
theorem fill_eq {tm : Bytes} (b : UInt8) (hb : b ≠ 10) (htm : (tm ++ [b]).length = 27)
    (text : Bytes) :
    ∃ rest, fill (tm ++ [b]) text =
      .ok ((tm ++ [b] ++ (chomp (text.take 4067) ++ [10])).map some ++ some 0 :: rest,
        (tm ++ [b] ++ chomp (text.take 4067)).length - 1) := by
  have hshort : (tm ++ [b]).length ≤ 4094 := by omega
  obtain ⟨tail, hprint, hlong, hsize⟩ := vsnprintf_eq hshort text
  rw [htm, show 4 * 1024 - 2 - 27 = 4067 from rfl] at hprint hsize
  -- The time ends with a blank, where the search for newlines stops at the latest.
  have hkept : chomp (tm ++ [b] ++ text.take 4067) = tm ++ [b] ++ chomp (text.take 4067) :=
    chomp_append hb _
  have hne : chomp (tm ++ [b] ++ text.take 4067) ≠ [] := by
    rw [hkept]
    simp
  obtain ⟨newlines, hnewlines⟩ := chomp_le (text.take 4067)
  have hcells : (tm ++ [b] ++ text.take 4067).map some ++ tail =
      (tm ++ [b] ++ chomp (text.take 4067)).map some ++ (newlines.map some ++ tail) := by
    have hbody : tm ++ [b] ++ chomp (text.take 4067) ++ newlines = tm ++ [b] ++ text.take 4067 := by
      rw [List.append_assoc, hnewlines]
    rw [← List.append_assoc, ← List.map_append, hbody]
  have hstart : (tm ++ [b]).map (some : UInt8 → Cell) ++ List.replicate (4 * 1024 - 27) none =
      [] ++ (tm ++ [b]).map some ++
        (List.replicate (4 * 1024) none).drop ((tm ++ [b]).map (some : UInt8 → Cell)).length := by
    rw [List.length_map, htm, List.drop_replicate, List.nil_append]
  have hfit : ((tm ++ [b]).map (some : UInt8 → Cell)).length ≤
      (List.replicate (4 * 1024) (none : Cell)).length := by
    rw [List.length_map, htm, List.length_replicate]
    omega
  have hstore := store_append [] hfit
  rw [← hstart, List.length_nil, List.nil_append] at hstore
  have htrim := trim_eq tail hne
  rw [hsize, hkept, hcells] at htrim
  rw [hcells] at hprint
  have hlong' : 2 ≤ (newlines.map (some : UInt8 → Cell) ++ tail).length := by
    rw [List.length_append]
    omega
  obtain ⟨mem, rest, hnewline, hnul⟩ := store_end (tm ++ [b] ++ chomp (text.take 4067)) hlong'
  have hlast : (tm ++ [b] ++ chomp (text.take 4067)).length - 1 + 1 =
      (tm ++ [b] ++ chomp (text.take 4067)).length := by
    rw [List.length_append, htm]
    omega
  have hlast' : (tm ++ [b] ++ chomp (text.take 4067)).length - 1 + 2 =
      (tm ++ [b] ++ chomp (text.take 4067)).length + 1 := by
    omega
  refine ⟨rest, ?_⟩
  rw [fill, htm, bind_of_ok hstore, bind_of_ok hprint]
  simp only
  rw [bind_of_ok htrim, hlast, bind_of_ok hnewline, hlast', bind_of_ok hnul, List.append_assoc]
  rfl

end Logger

/-- **A line of the log**: whatever the message, nothing is stored outside the array, and
    what is written is the time, the message up to 4067 bytes without the newlines at its
    end, and one newline.  `syslog` gets the same without the time, `stderr` all of it. -/
theorem logger_writes_line (t : TimeStamp) (ht : t.FourDigits) (level_ level : LogLevel)
    (hlevel : level.toInt ≤ level_.toInt) (text : Bytes) (htext : 0 ∉ text) :
    Logger.write level_ level (t.toFormattedString true) text = .ok (some {
      written := t.toFormattedString true ++ [32] ++ (Logger.chomp (text.take 4067) ++ [10])
      syslog := if level.toInt ≤ LogLevel.LERROR.toInt then
        some (Logger.chomp (text.take 4067) ++ [10]) else none
      stderr := if level = .LFATAL then
        some (t.toFormattedString true ++ [32] ++ (Logger.chomp (text.take 4067) ++ [10]))
        else none }) := by
  have hlen : (t.toFormattedString true ++ [32]).length = 27 := by
    rw [List.length_append, ht.toFormattedString, Decimal.length_fields (ht.fit true)]
    rfl
  have hzero : 0 ∉ t.toFormattedString true := by
    rw [ht.toFormattedString]
    exact Decimal.zero_notMem_fields (by decide)
  have hkept : 0 ∉ Logger.chomp (text.take 4067) ++ [10] := by
    intro hmem
    rcases List.mem_append.mp hmem with hmem | hmem
    · exact htext (List.mem_of_mem_take ((Logger.chomp_le _).subset hmem))
    · cases List.mem_singleton.mp hmem
  have hline : 0 ∉ t.toFormattedString true ++ [32] ++ (Logger.chomp (text.take 4067) ++ [10]) := by
    intro hmem
    rcases List.mem_append.mp hmem with hmem | hmem
    · rcases List.mem_append.mp hmem with hmem | hmem
      · exact hzero hmem
      · cases List.mem_singleton.mp hmem
    · exact hkept hmem
  obtain ⟨rest, hfill⟩ := Logger.fill_eq 32 (by decide) hlen text
  -- `buffer + 27` is the end of the time.
  have hdrop : ((t.toFormattedString true ++ [32] ++
      (Logger.chomp (text.take 4067) ++ [10])).map some ++ some 0 :: rest).drop 27 =
      (Logger.chomp (text.take 4067) ++ [10]).map some ++ some 0 :: rest := by
    rw [List.map_append, List.append_assoc]
    apply List.drop_left'
    rw [List.length_map, hlen]
  have hwritten : (((t.toFormattedString true ++ [32] ++
      (Logger.chomp (text.take 4067) ++ [10])).map some ++ some 0 :: rest).take
        ((t.toFormattedString true ++ [32] ++ Logger.chomp (text.take 4067)).length - 1 + 2)).map
        (·.getD 0) =
      t.toFormattedString true ++ [32] ++ (Logger.chomp (text.take 4067) ++ [10]) := by
    rw [List.take_left' (by
      simp only [List.length_map, List.length_append, List.length_singleton] at hlen ⊢
      omega), List.map_map]
    exact List.map_id _
  rw [Logger.write, if_neg (by omega), show Strings.ascii " " = [32] from rfl, bind_of_ok hfill]
  simp only [hdrop, hwritten]
  rw [bind_of_ok (Logger.textAt_eq hkept _ _), bind_of_ok (Logger.textAt_eq hline _ _)]
  simp only [decide_eq_true_eq]
  rfl

/-- A message with newlines at its end. -/
theorem logger_writes_line_error :
    Logger.write .LALL .LERROR ((TimeStamp.mk 1709251199999999).toFormattedString true)
        [97, 10, 98, 10, 10] = .ok (some {
      written := Strings.ascii "2024-02-29 23:59:59.999999 a\nb\n"
      syslog := some [97, 10, 98, 10]
      stderr := none }) := by
  rw [logger_writes_line _ ⟨by decide, by decide⟩ _ _ (by decide) _ (by decide)]
  decide +kernel

end JNet

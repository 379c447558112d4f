import JNet.Lib.Bytes
import JNet.Lib.Memory
import JNet.Lib.Records

/-! # `jraft::Storage` and `jraft::RaftLog`

    The replicated log on disk (`raft/storage.cc`, `raft/raft_log.cc`): eight
    bytes of first index, then one record per entry, a 16-byte `LogHeader` and
    the serialized `LogEntry`.  In memory the log keeps a table of the offsets
    and terms of its entries.

    The header is written as the object it is, with four bytes of padding that no
    constructor sets: what is in them is an argument of each `Append`.

    Signed overflow of an index is outside the model; conversions between
    `int64_t` and `size_t` wrap as the language says.
-/

namespace JNet

open Memory

/-! ## Storage -/

/-- The file behind the descriptor.  When it is `failing`, every call on it
    returns -1. -/
structure Storage where
  file : Bytes := []
  failing : Bool := false
  deriving DecidableEq, Repr

namespace Storage

/-- `pwrite`: what the call returns, and the file after it.  A gap in front of
    `off` is filled with zeros; a negative length is refused by the kernel. -/
def write (s : Storage) (buf : Bytes) (len : Int) (off : Nat) : Int × Storage :=
  if s.failing || len < 0 then (-1, s)
  else
    let data := buf.take len.toNat
    if data.isEmpty then (0, s)
    else
      (data.length, { s with
        file := s.file.take off ++ List.replicate (off - s.file.length) 0 ++ data ++
          s.file.drop (off + data.length) })

/-- `pread`: what the call returns, and the bytes it has stored in the
    destination.  Near the end of the file these are fewer than asked for. -/
def read (s : Storage) (len : Int) (off : Nat) : Int × Bytes :=
  if s.failing || len < 0 then (-1, [])
  else
    let got := (s.file.drop off).take len.toNat
    (got.length, got)

/-- `ftruncate64`. -/
def truncate (s : Storage) (off : Nat) : Int × Storage :=
  if s.failing then (-1, s)
  else (0, { s with file := s.file.take off ++ List.replicate (off - s.file.length) 0 })

def fileSize (s : Storage) : Nat := s.file.length

end Storage

/-! ## Entries and headers -/

inductive EntryType where
  | noop
  | data
  | configuration
  deriving DecidableEq, Repr

structure LogEntry where
  type : EntryType
  term : Int
  index : Int
  command : Bytes
  deriving DecidableEq, Repr

/-- An entry, and what is in the padding of the header it is appended with. -/
structure PaddedEntry extends LogEntry where
  padding : Nat
  deriving DecidableEq, Repr

instance : Coe PaddedEntry LogEntry := ⟨PaddedEntry.toLogEntry⟩

structure LogHeader where
  term_ : Int := 0
  len_ : Int := 0
  deriving DecidableEq, Repr

namespace LogHeader

/-- `sizeof(LogHeader)`: the term, the length, and four bytes of padding. -/
def size : Nat := 16

/-- The object in memory. -/
def image (h : LogHeader) (padding : Nat) : Bytes :=
  Bytes.leSigned 8 h.term_ ++ Bytes.leSigned 4 h.len_ ++ Bytes.le 4 padding

/-- The object some bytes in memory make. -/
def ofImage (bs : Bytes) : LogHeader where
  term_ := Bytes.signed 8 (Bytes.leNat (bs.take 8))
  len_ := Bytes.signed 4 (Bytes.leNat ((bs.drop 8).take 4))

end LogHeader

/-- What a read of `got` leaves in a destination that held `dst`. -/
def overlay (dst got : Bytes) : Bytes := got ++ dst.drop got.length

/-! ## The class -/

structure RaftLog where
  firstIndex_ : Int := -1
  bytes_ : Nat := 0
  offset_term_ : List (Nat × Int) := []
  storage_ : Storage
  deriving DecidableEq, Repr

namespace RaftLog

/-- `padding` is what the stack holds where `header` has no member. -/
def append (pb : Protobuf LogEntry) (l : RaftLog) (log : LogEntry) (padding : Nat) : RaftLog :=
  let str := pb.serialize log
  let len := Bytes.signed 4 str.length  -- int len = str.size()
  let header : LogHeader := { term_ := log.term, len_ := len }
  let (r, st) := l.storage_.write (header.image padding) LogHeader.size l.bytes_
  if r = -1 then { l with storage_ := st }
  else
    let (r, st) := st.write str len (l.bytes_ + LogHeader.size)
    -- The header stays in the file, and the next `Append` writes over it.
    if r = -1 then { l with storage_ := st }
    else
      { l with
        offset_term_ := l.offset_term_ ++ [(l.bytes_, log.term)]
        bytes_ := l.bytes_ + (len.toNat + LogHeader.size)
        storage_ := st }

/-- One `Append` after the other. -/
def appendAll (pb : Protobuf LogEntry) (l : RaftLog) (es : List PaddedEntry) : RaftLog :=
  es.foldl (fun l (e : PaddedEntry) => l.append pb e e.padding) l

@[simp] theorem appendAll_nil (pb : Protobuf LogEntry) (l : RaftLog) :
    l.appendAll pb [] = l := rfl

@[simp] theorem appendAll_cons (pb : Protobuf LogEntry) (l : RaftLog) (e : PaddedEntry)
    (es : List PaddedEntry) :
    l.appendAll pb (e :: es) = (l.append pb e e.padding).appendAll pb es := rfl

/-- The loop of `Load`.  Only a result of -1 counts as an error, so whatever a
    short read has left in `header` goes into the table. -/
def loadLoop (file_size : Nat) (l : RaftLog) : Except Fault RaftLog :=
  if l.bytes_ < file_size then
    let (r, got) := l.storage_.read LogHeader.size l.bytes_
    if r = -1 then .ok l
    else
      let header := LogHeader.ofImage (overlay (LogHeader.image {} 0) got)
      let l' := { l with offset_term_ := l.offset_term_ ++ [(l.bytes_, header.term_)] }
      if header.len_ < 0 then .error .outOfBounds  -- char buf[header.len_]
      else
        let (r, _) := l'.storage_.read header.len_ (l'.bytes_ + LogHeader.size)
        if r = -1 then .ok l'
        else
          loadLoop file_size { l' with bytes_ := l.bytes_ + (LogHeader.size + header.len_.toNat) }
  else .ok l
termination_by file_size - l.bytes_
decreasing_by
  simp only [LogHeader.size]
  omega

def load (l : RaftLog) : Except Fault RaftLog :=
  let file_size := l.storage_.fileSize
  let (r, got) := l.storage_.read 8 l.bytes_
  if r = -1 then .ok l
  else
    loadLoop file_size { l with
      firstIndex_ := Bytes.signed 8 (Bytes.leNat (overlay (Bytes.leSigned 8 l.firstIndex_) got))
      bytes_ := l.bytes_ + 8 }

def firstIndex (l : RaftLog) : Int := l.firstIndex_

/-- The sum is a `size_t` and converted back. -/
def lastIndex (l : RaftLog) : Int := toInt64 (l.offset_term_.length + l.firstIndex_ - 1)

/-- The difference is compared as a `size_t`. -/
def validIndex (l : RaftLog) (index : Int) : Bool :=
  !l.offset_term_.isEmpty && toSize (index - l.firstIndex_) < l.offset_term_.length

/-- `offset_term_[index-firstIndex_]`, without a check. -/
def entry (l : RaftLog) (index : Int) : Except Fault (Nat × Int) :=
  match l.offset_term_[toSize (index - l.firstIndex_)]? with
  | some p => .ok p
  | none => .error .outOfBounds

/-- The content is read into an array of its length, and the parser is handed the
    array as a C string. -/
def get (pb : Protobuf LogEntry) (l : RaftLog) (index : Int) : Except Fault (Option LogEntry) :=
  if !l.validIndex index then .ok none
  else do
    let (off, _) ← l.entry index
    let (r, got) := l.storage_.read LogHeader.size off
    if r = -1 then return none
    else
      let len := (LogHeader.ofImage (overlay (LogHeader.image {} 0) got)).len_
      if len < 0 then .error .outOfBounds  -- char buf[len]
      else
        let (r, got) := l.storage_.read len (off + LogHeader.size)
        if r = -1 then return none
        else
          let buf := got.map some ++ List.replicate (len.toNat - got.length) none
          let str ← cString buf
          return some (pb.parse str)

/-- The test is the wrong way round: it is an invalid index that is looked up. -/
def term (l : RaftLog) (index : Int) : Except Fault Int :=
  if l.validIndex index then .ok 0
  else do
    let p ← l.entry index
    return p.2

def containLog (l : RaftLog) (index term : Int) : Bool :=
  if !l.validIndex index then false
  else
    match l.entry index with
    | .ok p => p.2 == term
    | .error _ => false

def setFirstIndex (l : RaftLog) (index : Int) : RaftLog :=
  let (r, st) := l.storage_.write (Bytes.leSigned 8 index) 8 l.bytes_
  if r = -1 then { l with storage_ := st }
  else { l with storage_ := st, bytes_ := l.bytes_ + 8, firstIndex_ := index }

/-- The table loses one element, whatever comes after it. -/
def truncate (l : RaftLog) (index : Int) : Except Fault RaftLog :=
  if !l.validIndex index then .ok l
  else do
    let l ←
      -- An index that is valid and not behind the first is the first.
      if index ≤ l.firstIndex_ then
        let (r, st) := l.storage_.truncate 0
        if r = -1 then .error .assertion
        else .ok (({ l with storage_ := st, bytes_ := 0 } : RaftLog).setFirstIndex index)
      else .ok l
    let (off, _) ← l.entry index
    let (r, st) := l.storage_.truncate off
    if r = -1 then .error .assertion
    else
      .ok { l with
        storage_ := st
        bytes_ := off
        offset_term_ := l.offset_term_.eraseIdx (toSize (index - l.firstIndex_)) }

/-- The entry the file holds for `index`, read to its full length. -/
def storedEntry (pb : Protobuf LogEntry) (l : RaftLog) (index : Int) : Option LogEntry :=
  match l.entry index with
  | .ok (off, _) =>
    let header := LogHeader.ofImage ((l.storage_.file.drop off).take LogHeader.size)
    some (pb.parse ((l.storage_.file.drop (off + LogHeader.size)).take header.len_.toNat))
  | .error _ => none

/-! ## Built logs -/

/-- `SetFirstIndex(f)` and one `Append` after the other, over an empty file. -/
def built (pb : Protobuf LogEntry) (f : Int) (es : List PaddedEntry) : RaftLog :=
  (setFirstIndex { storage_ := {} } f).appendAll pb es

end RaftLog

end JNet

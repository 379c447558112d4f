import JNet.Raft.RaftLog

/-! # `jraft::Raft`

    The consensus module of one node (`raft/raft.cc`): voting, candidacy, and
    the two sides of log replication.  A peer is whatever handle the node keeps
    for it; what a node sends is returned as a list of requests.

    The timeouts, `lastApplied_` and the functions with empty bodies decide
    nothing and are left out.
-/

namespace JNet

open Memory

/-! ## Messages -/

structure RequestVoteRequest where
  term : Int
  peerId : Int
  candidateId : Int
  lastLogIndex : Int
  lastLogTerm : Int
  deriving DecidableEq, Repr

structure RequestVoteResponse where
  term : Int := 0
  voteGranted : Bool := false
  peerId : Int := 0
  deriving DecidableEq, Repr

structure AppendEntriesRequest where
  term : Int
  peerId : Int
  prevLogIndex : Int
  prevLogTerm : Int
  commitedIndex : Int
  type : List EntryType
  entries : List Bytes
  deriving DecidableEq, Repr

structure AppendEntriesResponse where
  term : Int := 0
  success : Bool := false
  peerId : Int := 0
  deriving DecidableEq, Repr

/-! ## State -/

inductive Role where
  | kLeader
  | kCandidater
  | kFollower
  deriving DecidableEq, Repr

structure Raft (Peer : Type) where
  role_ : Role
  currentTerm_ : Int
  votedFor_ : Int
  logs_ : RaftLog
  commitIndex_ : Int
  nextIndex_ : List Int
  matchIndex_ : List Int
  peers_ : List Peer
  id_ : Int
  voted_ : Int

namespace Raft

variable {Peer : Type}

/-- The constructor.  It gives `role_` and `voted_` no value, so what these are
    is an argument. -/
def create (role : Role) (voted : Int) (storage : Storage) (id : Int) (peers : List Peer) :
    Raft Peer where
  role_ := role
  currentTerm_ := 0
  votedFor_ := -1
  logs_ := { storage_ := storage }
  commitIndex_ := 0
  nextIndex_ := []
  matchIndex_ := []
  peers_ := peers
  id_ := id
  voted_ := voted

/-! ## Elections -/

def setCurrentTerm (r : Raft Peer) (term : Int) : Raft Peer := { r with currentTerm_ := term }

def setVotedFor (r : Raft Peer) (id : Int) : Raft Peer := { r with votedFor_ := id }

/-- The requests sent, one to each peer.  The log fields are constants. -/
def startRequestVote (r : Raft Peer) : List (Peer × RequestVoteRequest) :=
  let request : RequestVoteRequest :=
    { term := r.currentTerm_
      peerId := r.id_
      candidateId := r.id_
      lastLogIndex := 0
      lastLogTerm := 0 }
  r.peers_.map fun p => (p, request)

def toCandidater (r : Raft Peer) : Raft Peer × List (Peer × RequestVoteRequest) :=
  let r := { r with role_ := .kCandidater }
  let r := r.setCurrentTerm (r.currentTerm_ + 1)
  let r := r.setVotedFor r.id_
  let r := { r with voted_ := 1 }
  (r, r.startRequestVote)

def toLeader (r : Raft Peer) : Raft Peer := { r with role_ := .kLeader }

/-- The command is ignored. -/
def propose (r : Raft Peer) : Raft Peer × List (Peer × RequestVoteRequest) := r.toCandidater

def newestLog (r : Raft Peer) (request : RequestVoteRequest) : Except Fault Bool := do
  let index := request.lastLogIndex
  let term := request.lastLogTerm
  let newestIndex := r.logs_.lastIndex
  let newestTerm ← r.logs_.term newestIndex
  -- Of two logs that end alike neither is the newer one.
  if term ≠ newestTerm then return newestTerm < term
  else return newestIndex < index

/-- The part of the vote test in front of the log check. -/
def mayVote (r : Raft Peer) (request : RequestVoteRequest) : Bool :=
  request.term > r.currentTerm_ && (r.votedFor_ == -1 || r.votedFor_ == request.peerId)

/-- `RequestVote` once the answer of the log check is known. -/
def requestVoteWith (r : Raft Peer) (request : RequestVoteRequest) (newest : Bool) :
    Raft Peer × RequestVoteResponse :=
  let reply : RequestVoteResponse := { peerId := r.id_, term := r.currentTerm_ }
  if r.mayVote request && newest then
    ({ r with votedFor_ := request.peerId }, { reply with voteGranted := true })
  else (r, { reply with voteGranted := false })

/-- The log is looked at only if the rest of the test has succeeded. -/
def requestVote (r : Raft Peer) (request : RequestVoteRequest) :
    Except Fault (Raft Peer × RequestVoteResponse) :=
  if r.mayVote request then do
    let newest ← r.newestLog request
    return r.requestVoteWith request newest
  else .ok (r.requestVoteWith request false)

/-- The comparison is one of `size_t` values. -/
def majority (r : Raft Peer) : Bool := toSize r.voted_ > (r.peers_.length + 1) / 2

def onRequestVote (r : Raft Peer) (reply : RequestVoteResponse) : Raft Peer :=
  if r.role_ ≠ .kCandidater ∨ reply.voteGranted = false ∨ r.currentTerm_ > reply.term then r
  else
    -- Who has answered is not looked at.
    let r := { r with voted_ := r.voted_ + 1 }
    if r.majority then r.toLeader else r

/-! ## Replication -/

/-- What `AppendEntries` does about an entry in the place of the first new one. -/
def removeConflict (logs : RaftLog) (insertIndex term : Int) : Except Fault RaftLog :=
  if logs.containLog insertIndex term = false then logs.truncate insertIndex else .ok logs

/-- The loop of `AppendEntries`; `insertIndex` does not move.  Every `Append` finds
    its own padding on the stack. -/
def appendCommands (pb : Protobuf LogEntry) (insertIndex term : Int) :
    (Nat → Nat) → RaftLog → List EntryType → List Bytes → Except Fault RaftLog
  | _, logs, _, [] => .ok logs
  | paddings, logs, type :: types, command :: commands =>
    let entry : LogEntry := { type := type, index := insertIndex, term := term, command := command }
    appendCommands pb insertIndex term (fun n => paddings (n + 1))
      (logs.append pb entry (paddings 0)) types commands
  | _, _, [], _ :: _ => .error .outOfBounds

/-- `reply` is the caller's object; its `success` is set on the failing path only. -/
def appendEntries (pb : Protobuf LogEntry) (paddings : Nat → Nat) (r : Raft Peer)
    (request : AppendEntriesRequest) (reply : AppendEntriesResponse) :
    Except Fault (Raft Peer × AppendEntriesResponse) :=
  let reply := { reply with term := r.currentTerm_, peerId := r.id_ }
  let insertIndex := request.prevLogIndex + 1
  let term := request.term
  if term < r.currentTerm_ ∨
      r.logs_.containLog request.prevLogIndex request.prevLogTerm = false then
    .ok (r, { reply with success := false })
  else do
    let logs ← removeConflict r.logs_ insertIndex term
    let logs ← appendCommands pb insertIndex term paddings logs request.type request.entries
    -- The bound is the first new entry, also where there are several or none.
    let commitIndex :=
      if request.commitedIndex > r.commitIndex_ then min request.commitedIndex insertIndex
      else r.commitIndex_
    return ({ r with logs_ := logs, commitIndex_ := commitIndex }, reply)

/-- An element of a vector at an `int64_t` position. -/
def element {α : Type} (v : List α) (i : Int) : Except Fault α :=
  match v[toSize i]? with
  | some x => .ok x
  | none => .error .outOfBounds

/-- The request and the reply are the caller's objects and are written to.  The
    peer's `AppendEntries` only prints a line; the retried request is handled by
    the node itself. -/
def onAppendEntries (pb : Protobuf LogEntry) (paddings : Nat → Nat) (r : Raft Peer)
    (request : AppendEntriesRequest) (reply : AppendEntriesResponse) :
    Except Fault (Raft Peer × AppendEntriesRequest × AppendEntriesResponse) :=
  let peerid := reply.peerId
  if request.term > r.currentTerm_ then .ok (r, request, reply)
  else if reply.success = false then do
    -- One step back, and the request is tried again from there.
    let next ← element r.nextIndex_ peerid
    let r := { r with nextIndex_ := r.nextIndex_.set (toSize peerid) (next - 1) }
    let request := { request with prevLogIndex := next - 1 - 1 }
    let prevTerm ← r.logs_.term request.prevLogIndex
    let request := { request with prevLogTerm := prevTerm }
    let _ ← element r.peers_ peerid
    let (r, reply) ← r.appendEntries pb paddings request reply
    return (r, request, reply)
  else do
    let next ← element r.nextIndex_ peerid
    let _ ← element r.matchIndex_ peerid
    -- One reply is enough to commit.
    return ({ r with
      matchIndex_ := r.matchIndex_.set (toSize peerid) next
      nextIndex_ := r.nextIndex_.set (toSize peerid) (next + 1)
      commitIndex_ := request.prevLogIndex + 1 }, request, reply)

end Raft

end JNet

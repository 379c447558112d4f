import JNet.Raft.Election

/-! # `jraft::Node`

    The consensus module as it is deployed (`raft/node.cc`, `raft/raft_peer.cc`,
    `raft/raft_service.cc`): a node serves `RequestVote`, asks its peers, and hands
    what they answer to `OnRequestVote`.  `AppendEntries` and `PreVote` have empty
    bodies on the serving side and print a line on the calling side, so nothing is
    ever written to the log of a node.

    A node that leaves the rules of the language while it serves a request is down
    from then on.
-/

namespace JNet

open Memory

/-! ## Replication, as a leader starts it -/

/-- `StartAppendEntries`.  A leader writes element 0 of two repeated fields that have
    no element, before it comes to its peers. -/
def Raft.startAppendEntries {Peer : Type} (r : Raft Peer) :
    Except Fault (List (Peer × AppendEntriesRequest)) :=
  if r.role_ ≠ .kLeader then .ok [] else .error .outOfBounds

/-! ## The cluster -/

/-- The nodes, every message ever sent, and the nodes that are down. -/
structure NodeCluster (n : Nat) where
  nodes : Fin n → Raft (Fin n)
  sent : List (VoteMsg n)
  down : Fin n → Bool

inductive NodeLabel (n : Nat) where
  | propose (i : Fin n)
  | requestVote (src dst : Fin n) (request : RequestVoteRequest)
  | onRequestVote (src dst : Fin n) (reply : RequestVoteResponse)
  | startAppendEntries (i : Fin n)

namespace NodeCluster

variable {n : Nat}

/-- Node `i` starts an election. -/
def propose (c : NodeCluster n) (i : Fin n) : NodeCluster n :=
  { c with
    nodes := Function.update c.nodes i (c.nodes i).propose.1
    sent := c.sent ++ (c.nodes i).propose.2.map fun m => .request i m.1 m.2 }

/-- Node `dst` serves a request of `src`. -/
def requestVote (c : NodeCluster n) (src dst : Fin n) (request : RequestVoteRequest) :
    NodeCluster n :=
  match (c.nodes dst).requestVote request with
  | .ok (r, reply) =>
    { c with nodes := Function.update c.nodes dst r, sent := c.sent ++ [.reply dst src reply] }
  | .error _ => { c with down := Function.update c.down dst true }

/-- Node `dst` gets an answer. -/
def onRequestVote (c : NodeCluster n) (dst : Fin n) (reply : RequestVoteResponse) :
    NodeCluster n :=
  { c with nodes := Function.update c.nodes dst ((c.nodes dst).onRequestVote reply) }

/-- Node `i` is told to replicate a command. -/
def startAppendEntries (c : NodeCluster n) (i : Fin n) : NodeCluster n :=
  match (c.nodes i).startAppendEntries with
  | .ok _ => c
  | .error _ => { c with down := Function.update c.down i true }

end NodeCluster

/-- Nodes as constructed, none of them its own peer, with different ids other than -1,
    which in `votedFor_` stands for nobody.  The constructor does not initialise `role_`;
    it starts as `kFollower` here.  Messages may arrive late, several times, or never. -/
def nodeSystem (n : Nat) : LTS.System (NodeCluster n) (NodeLabel n) where
  init := fun c =>
    c.sent = [] ∧ (∀ i, c.down i = false) ∧
    ∃ ids : Fin n → Int, Function.Injective ids ∧ (∀ i, ids i ≠ -1) ∧
      ∀ i, ∃ voted storage peers, i ∉ peers ∧
        c.nodes i = Raft.create .kFollower voted storage (ids i) peers
  step := fun c l c' =>
    match l with
    | .propose i => c.down i = false ∧ c' = c.propose i
    | .requestVote src dst request =>
        c.down dst = false ∧ .request src dst request ∈ c.sent ∧
        c' = c.requestVote src dst request
    | .onRequestVote src dst reply =>
        c.down dst = false ∧ .reply src dst reply ∈ c.sent ∧ c' = c.onRequestVote dst reply
    | .startAppendEntries i => c.down i = false ∧ c' = c.startAppendEntries i

/-! ## One node -/

namespace Raft

variable {Peer : Type} {r : Raft Peer} {request : RequestVoteRequest}

/-- A follower that has not voted, or a candidate that has voted for itself; nothing has
    been written to the log. -/
structure Idle (r : Raft Peer) : Prop where
  named : r.id_ ≠ -1
  empty : r.logs_.offset_term_ = []
  uncommitted : r.commitIndex_ = 0
  stance : (r.role_ = .kFollower ∧ r.votedFor_ = -1 ∧ r.currentTerm_ = 0) ∨
    (r.role_ = .kCandidater ∧ r.votedFor_ = r.id_ ∧ 0 < r.currentTerm_)

theorem Idle.create (voted : Int) (storage : Storage) {id : Int} (hid : id ≠ -1)
    (peers : List Peer) : (Raft.create .kFollower voted storage id peers).Idle where
  named := hid
  empty := rfl
  uncommitted := rfl
  stance := .inl ⟨rfl, rfl, rfl⟩

theorem Idle.propose (h : r.Idle) : r.propose.1.Idle where
  named := h.named
  empty := h.empty
  uncommitted := h.uncommitted
  stance := by
    refine .inr ⟨rfl, rfl, ?_⟩
    show 0 < r.currentTerm_ + 1
    rcases h.stance with ⟨_, _, hterm⟩ | ⟨_, _, hterm⟩ <;> omega

/-- The term of the last entry is looked up in an empty vector. -/
theorem newestLog_empty (h : r.logs_.offset_term_ = []) :
    r.newestLog request = .error .outOfBounds := by
  simp [newestLog, RaftLog.term, RaftLog.validIndex, RaftLog.entry, h, bind, Except.bind]

/-- A request of another node with a positive term: a node that has not proposed reads
    outside its log, one that has refuses. -/
theorem Idle.requestVote (h : r.Idle) (hother : request.peerId ≠ r.id_) (hterm : 0 < request.term) :
    r.requestVote request =
      if r.role_ = .kFollower then .error .outOfBounds
      else .ok (r, ⟨r.currentTerm_, false, r.id_⟩) := by
  rcases h.stance with ⟨hrole, hvoted, hzero⟩ | ⟨hrole, hvoted, _⟩
  · have hmay : r.mayVote request = true := mayVote_iff.mpr ⟨by omega, .inl hvoted⟩
    rw [if_pos hrole, Raft.requestVote, if_pos hmay, newestLog_empty h.empty]
    rfl
  · rw [if_neg (by rw [hrole]; decide)]
    -- It has voted for itself, so the log is not looked at.
    have hmay : ¬ r.mayVote request = true := by
      rw [mayVote_iff, hvoted]
      rintro ⟨_, hnone | hsame⟩
      · have := h.named
        omega
      · exact hother hsame.symm
    rw [Raft.requestVote, if_neg hmay, requestVoteWith_no (.inl (by simpa using hmay))]

end Raft

/-! ## The invariant -/

/-- Nobody has been voted for by another node. -/
structure NodeInv {n : Nat} (ids : Fin n → Int) (c : NodeCluster n) : Prop where
  idle : ∀ i, (c.nodes i).Idle
  id : ∀ i, (c.nodes i).id_ = ids i
  peers : ∀ i, i ∉ (c.nodes i).peers_
  requests : ∀ src dst request, VoteMsg.request src dst request ∈ c.sent →
    src ≠ dst ∧ request.peerId = ids src ∧ 0 < request.term
  replies : ∀ src dst reply, VoteMsg.reply src dst reply ∈ c.sent → reply.voteGranted = false
  down : ∀ i, c.down i = true → (c.nodes i).role_ = .kFollower

namespace NodeInv

variable {n : Nat} {ids : Fin n → Int} {c : NodeCluster n}

theorem initial (h : (nodeSystem n).init c) :
    ∃ ids, Function.Injective ids ∧ NodeInv ids c := by
  obtain ⟨hsent, hdown, ids, hinj, hnamed, hnodes⟩ := h
  refine ⟨ids, hinj, ?_, ?_, ?_, ?_, ?_, ?_⟩
  · intro i
    obtain ⟨voted, storage, peers, _, hi⟩ := hnodes i
    rw [hi]
    exact .create voted storage (hnamed i) peers
  · intro i
    obtain ⟨voted, storage, peers, _, hi⟩ := hnodes i
    rw [hi]
    rfl
  · intro i
    obtain ⟨voted, storage, peers, hpeers, hi⟩ := hnodes i
    rw [hi]
    exact hpeers
  · intro src dst request hmem
    rw [hsent] at hmem
    cases hmem
  · intro src dst reply hmem
    rw [hsent] at hmem
    cases hmem
  · intro i hi
    rw [hdown] at hi
    cases hi

theorem propose (h : NodeInv ids c) {i : Fin n} (hup : c.down i = false) :
    NodeInv ids (c.propose i) := by
  have hnode : ∀ k, (c.propose i).nodes k =
      if k = i then (c.nodes i).propose.1 else c.nodes k := by
    intro k
    by_cases hk : k = i
    · subst hk
      simp [NodeCluster.propose]
    · simp [NodeCluster.propose, hk]
  refine ⟨?_, ?_, ?_, ?_, ?_, ?_⟩
  · intro k
    rw [hnode]
    split
    · exact (h.idle i).propose
    · exact h.idle k
  · intro k
    rw [hnode]
    split
    · rename_i hk
      subst hk
      exact h.id k
    · exact h.id k
  · intro k
    rw [hnode]
    split
    · rename_i hk
      subst hk
      exact h.peers k
    · exact h.peers k
  · intro src dst request hmem
    rcases List.mem_append.mp hmem with hold | hnew
    · exact h.requests src dst request hold
    · -- A new request goes to a peer and carries the term just entered.
      obtain ⟨m, hm, heq⟩ := List.mem_map.mp hnew
      cases heq
      have hpeer : m.1 ∈ (c.nodes i).peers_ := by
        obtain ⟨p, hp, rfl⟩ := List.mem_map.mp hm
        exact hp
      rw [Raft.toCandidater_request hm]
      refine ⟨?_, h.id i, ?_⟩
      · rintro rfl
        exact h.peers m.1 hpeer
      · rcases (h.idle i).propose.stance with ⟨hrole, _⟩ | ⟨_, _, hpos⟩
        · cases hrole
        · exact hpos
  · intro src dst reply hmem
    rcases List.mem_append.mp hmem with hold | hnew
    · exact h.replies src dst reply hold
    · obtain ⟨m, _, heq⟩ := List.mem_map.mp hnew
      cases heq
  · intro k hk
    have hold : c.down k = true := hk
    rw [hnode, if_neg]
    · exact h.down k hold
    · rintro rfl
      rw [hup] at hold
      cases hold

/-- What happens to a request that is delivered. -/
theorem requestVote_eq (h : NodeInv ids c) (hinj : Function.Injective ids) {src dst : Fin n}
    {request : RequestVoteRequest} (hmem : VoteMsg.request src dst request ∈ c.sent) :
    (c.nodes dst).requestVote request =
      if (c.nodes dst).role_ = .kFollower then .error .outOfBounds
      else .ok (c.nodes dst, ⟨(c.nodes dst).currentTerm_, false, (c.nodes dst).id_⟩) := by
  obtain ⟨hne, hpeer, hterm⟩ := h.requests src dst request hmem
  refine (h.idle dst).requestVote ?_ hterm
  rw [hpeer, h.id dst]
  exact fun heq => hne (hinj heq)

theorem requestVote (h : NodeInv ids c) (hinj : Function.Injective ids) {src dst : Fin n}
    {request : RequestVoteRequest} (hmem : VoteMsg.request src dst request ∈ c.sent) :
    NodeInv ids (c.requestVote src dst request) := by
  have heq := h.requestVote_eq hinj hmem
  unfold NodeCluster.requestVote
  by_cases hrole : (c.nodes dst).role_ = .kFollower
  · -- A follower reads outside its log and is gone.
    rw [heq, if_pos hrole]
    refine ⟨h.idle, h.id, h.peers, h.requests, h.replies, ?_⟩
    intro k hk
    by_cases hd : k = dst
    · rw [hd]
      exact hrole
    · exact h.down k (by simpa [hd] using hk)
  · -- A candidate refuses and stays as it is.
    rw [heq, if_neg hrole]
    have hsame : Function.update c.nodes dst (c.nodes dst) = c.nodes := Function.update_eq_self _ _
    simp only [hsame]
    refine ⟨h.idle, h.id, h.peers, ?_, ?_, h.down⟩
    · intro src' dst' request' hmem'
      exact h.requests src' dst' request' (by simpa using hmem')
    · intro src' dst' reply hmem'
      rcases List.mem_append.mp hmem' with hold | hnew
      · exact h.replies src' dst' reply hold
      · cases List.mem_singleton.mp hnew
        rfl

theorem step (hinj : Function.Injective ids) (h : NodeInv ids c) {l : NodeLabel n}
    {c' : NodeCluster n} (hstep : (nodeSystem n).step c l c') : NodeInv ids c' := by
  cases l with
  | propose i =>
    obtain ⟨hup, rfl⟩ := hstep
    exact h.propose hup
  | requestVote src dst request =>
    obtain ⟨_, hmem, rfl⟩ := hstep
    exact h.requestVote hinj hmem
  | onRequestVote src dst reply =>
    obtain ⟨_, hmem, rfl⟩ := hstep
    -- No reply grants anything.
    rw [NodeCluster.onRequestVote, Raft.onRequestVote_refused (h.replies src dst reply hmem),
      Function.update_eq_self]
    exact h
  | startAppendEntries i =>
    obtain ⟨_, rfl⟩ := hstep
    have hrole : (c.nodes i).role_ ≠ .kLeader := by
      rcases (h.idle i).stance with ⟨hrole, _⟩ | ⟨hrole, _⟩ <;> simp [hrole]
    rw [NodeCluster.startAppendEntries, Raft.startAppendEntries, if_pos hrole]
    exact h

end NodeInv

/-- **A cluster of nodes never elects**: whatever is proposed and delivered, no node
    becomes a leader, no vote is granted to another node, and no log or commit index
    changes.  A request for a vote that reaches a node which has not proposed itself
    makes it read outside its empty log, and nothing else takes a node down; one that
    reaches a node which has is refused. -/
theorem node_cluster_never_elects {n : Nat} (c : NodeCluster n)
    (hc : (nodeSystem n).Reachable c) :
    (∀ i, (c.nodes i).role_ ≠ .kLeader ∧ (c.nodes i).logs_.offset_term_ = [] ∧
      (c.nodes i).commitIndex_ = 0 ∧ (c.nodes i).startAppendEntries = .ok []) ∧
    (∀ src dst reply, VoteMsg.reply src dst reply ∈ c.sent → reply.voteGranted = false) ∧
    (∀ src dst request, VoteMsg.request src dst request ∈ c.sent →
      ((c.nodes dst).requestVote request = .error .outOfBounds ↔
        (c.nodes dst).role_ = .kFollower)) ∧
    (∀ i, c.down i = true → (c.nodes i).role_ = .kFollower) := by
  obtain ⟨ids, hinj, h⟩ : ∃ ids : Fin n → Int, Function.Injective ids ∧ NodeInv ids c := by
    refine LTS.System.invariant
      (P := fun c => ∃ ids : Fin n → Int, Function.Injective ids ∧ NodeInv ids c) ?_ ?_ c hc
    · intro c hinit
      exact NodeInv.initial hinit
    · rintro c l c' ⟨ids, hinj, h⟩ hstep
      exact ⟨ids, hinj, h.step hinj hstep⟩
  refine ⟨?_, h.replies, ?_, h.down⟩
  · intro i
    have hrole : (c.nodes i).role_ ≠ .kLeader := by
      rcases (h.idle i).stance with ⟨hrole, _⟩ | ⟨hrole, _⟩ <;> simp [hrole]
    exact ⟨hrole, (h.idle i).empty, (h.idle i).uncommitted, if_pos hrole⟩
  · intro src dst request hmem
    rw [h.requestVote_eq hinj hmem]
    by_cases hrole : (c.nodes dst).role_ = .kFollower <;> simp [hrole]

/-- Two nodes; the first one asks the second for its vote. -/
theorem node_cluster_first_request :
    ∃ c : NodeCluster 2, (c.nodes 0).role_ = .kCandidater ∧
      VoteMsg.request 0 1 ⟨1, 0, 0, 0, 0⟩ ∈ c.sent ∧
      (c.nodes 1).requestVote ⟨1, 0, 0, 0, 0⟩ = .error .outOfBounds := by
  have hinit : (nodeSystem 2).init ⟨twoNodes.nodes, [], fun _ => false⟩ := by
    refine ⟨rfl, fun _ => rfl, fun i => i.val, ?_, ?_, ?_⟩
    · intro i j hij
      have : (i.val : Int) = j.val := hij
      omega
    · intro i
      show (i.val : Int) ≠ -1
      omega
    · intro i
      exact ⟨0, {}, [1 - i], by revert i; decide, rfl⟩
  have h0 : (nodeSystem 2).Reachable ⟨twoNodes.nodes, [], fun _ => false⟩ := .start hinit
  have h1 := h0.next (.propose 0) (by exact ⟨rfl, rfl⟩)
  have hsent : VoteMsg.request 0 1 ⟨1, 0, 0, 0, 0⟩ ∈
      (NodeCluster.propose ⟨twoNodes.nodes, [], fun _ => false⟩ 0).sent := by decide
  have hmain := node_cluster_never_elects _ h1
  exact ⟨_, rfl, hsent, (hmain.2.2.1 0 1 _ hsent).mpr rfl⟩

end JNet

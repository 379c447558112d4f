import JNet.Lib.LTS
import JNet.Raft.Raft

/-! # Elections

    A cluster of nodes that exchange votes over a network that may delay, lose
    and duplicate messages.  A reply carries the voter's term, which is below
    the term of the request whenever the vote is granted, and a candidate drops
    replies from terms below its own: so no granted vote is ever counted.
-/

namespace JNet

namespace Raft

variable {Peer : Type}

/-! ## One call -/

/-- A vote is granted. -/
theorem requestVoteWith_yes {r : Raft Peer} {request : RequestVoteRequest}
    (hmay : r.mayVote request = true) :
    r.requestVoteWith request true =
      ({ r with votedFor_ := request.peerId }, ⟨r.currentTerm_, true, r.id_⟩) := by
  unfold requestVoteWith
  simp [hmay]

/-- A vote is refused. -/
theorem requestVoteWith_no {r : Raft Peer} {request : RequestVoteRequest} {newest : Bool}
    (hno : r.mayVote request = false ∨ newest = false) :
    r.requestVoteWith request newest = (r, ⟨r.currentTerm_, false, r.id_⟩) := by
  unfold requestVoteWith
  rcases hno with hno | hno <;> simp [hno]

/-- What `RequestVote` can do. -/
theorem requestVoteWith_cases (r : Raft Peer) (request : RequestVoteRequest) (newest : Bool) :
    (r.mayVote request = true ∧ newest = true ∧
      r.requestVoteWith request newest =
        ({ r with votedFor_ := request.peerId }, ⟨r.currentTerm_, true, r.id_⟩)) ∨
    r.requestVoteWith request newest = (r, ⟨r.currentTerm_, false, r.id_⟩) := by
  by_cases hmay : r.mayVote request = true
  · by_cases hnew : newest = true
    · left
      subst hnew
      exact ⟨hmay, rfl, requestVoteWith_yes hmay⟩
    · right
      exact requestVoteWith_no (.inr (by simpa using hnew))
  · right
    exact requestVoteWith_no (.inl (by simpa using hmay))

theorem mayVote_iff {r : Raft Peer} {request : RequestVoteRequest} :
    r.mayVote request = true ↔ r.currentTerm_ < request.term ∧
      (r.votedFor_ = -1 ∨ r.votedFor_ = request.peerId) := by
  simp [mayVote]

/-- A granted vote carries a term below the one asked for. -/
theorem requestVoteWith_granted {r : Raft Peer} {request : RequestVoteRequest} {newest : Bool}
    (h : (r.requestVoteWith request newest).2.voteGranted = true) :
    (r.requestVoteWith request newest).2.term < request.term := by
  rcases requestVoteWith_cases r request newest with ⟨hmay, _, heq⟩ | heq
  · rw [heq]
    exact (mayVote_iff.mp hmay).1
  · rw [heq] at h
    cases h

theorem requestVoteWith_term (r : Raft Peer) (request : RequestVoteRequest) (newest : Bool) :
    (r.requestVoteWith request newest).1.currentTerm_ = r.currentTerm_ := by
  rcases requestVoteWith_cases r request newest with ⟨_, _, heq⟩ | heq <;> rw [heq]

theorem requestVoteWith_role (r : Raft Peer) (request : RequestVoteRequest) (newest : Bool) :
    (r.requestVoteWith request newest).1.role_ = r.role_ := by
  rcases requestVoteWith_cases r request newest with ⟨_, _, heq⟩ | heq <;> rw [heq]

/-- `RequestVote` is `requestVoteWith` for the answer the log check gives. -/
theorem requestVote_cases {r r' : Raft Peer} {request : RequestVoteRequest}
    {reply : RequestVoteResponse} (h : r.requestVote request = .ok (r', reply)) :
    ∃ newest, r.requestVoteWith request newest = (r', reply) := by
  unfold requestVote at h
  by_cases hmay : r.mayVote request = true
  · rw [if_pos hmay] at h
    cases hnew : r.newestLog request with
    | error f =>
      rw [hnew] at h
      cases h
    | ok newest =>
      rw [hnew] at h
      exact ⟨newest, Except.ok.inj h⟩
  · rw [if_neg hmay] at h
    exact ⟨false, Except.ok.inj h⟩

/-- A reply from a term below the node's own changes nothing. -/
theorem onRequestVote_expired {r : Raft Peer} {reply : RequestVoteResponse}
    (h : reply.term < r.currentTerm_) : r.onRequestVote reply = r := by
  rw [onRequestVote, if_pos (.inr (.inr h))]

/-- A refused vote changes nothing. -/
theorem onRequestVote_refused {r : Raft Peer} {reply : RequestVoteResponse}
    (h : reply.voteGranted = false) : r.onRequestVote reply = r := by
  rw [onRequestVote, if_pos (.inr (.inl h))]

/-- What `OnRequestVote` can do. -/
theorem onRequestVote_cases (r : Raft Peer) (reply : RequestVoteResponse) :
    r.onRequestVote reply = r ∨ r.onRequestVote reply = { r with voted_ := r.voted_ + 1 } ∨
      r.onRequestVote reply = { r with voted_ := r.voted_ + 1, role_ := .kLeader } := by
  unfold onRequestVote
  by_cases hdrop : r.role_ ≠ .kCandidater ∨ reply.voteGranted = false ∨
      r.currentTerm_ > reply.term
  · left
    rw [if_pos hdrop]
  · right
    rw [if_neg hdrop]
    by_cases hmaj : ({ r with voted_ := r.voted_ + 1 } : Raft Peer).majority = true
    · right
      simp only [hmaj, if_true]
      rfl
    · left
      simp only [hmaj]
      rfl

theorem onRequestVote_term (r : Raft Peer) (reply : RequestVoteResponse) :
    (r.onRequestVote reply).currentTerm_ = r.currentTerm_ := by
  rcases onRequestVote_cases r reply with heq | heq | heq <;> rw [heq]

theorem onRequestVote_votedFor (r : Raft Peer) (reply : RequestVoteResponse) :
    (r.onRequestVote reply).votedFor_ = r.votedFor_ := by
  rcases onRequestVote_cases r reply with heq | heq | heq <;> rw [heq]

theorem onRequestVote_id (r : Raft Peer) (reply : RequestVoteResponse) :
    (r.onRequestVote reply).id_ = r.id_ := by
  rcases onRequestVote_cases r reply with heq | heq | heq <;> rw [heq]

/-- What a new candidate sends. -/
theorem toCandidater_request {r : Raft Peer} {m : Peer × RequestVoteRequest}
    (h : m ∈ r.toCandidater.2) :
    m.2 = ⟨r.toCandidater.1.currentTerm_, r.id_, r.id_, 0, 0⟩ := by
  obtain ⟨p, _, rfl⟩ := List.mem_map.mp h
  rfl

end Raft

/-! ## The cluster -/

/-- A message on its way from one node to another. -/
inductive VoteMsg (n : Nat) where
  | request (src dst : Fin n) (request : RequestVoteRequest)
  | reply (src dst : Fin n) (reply : RequestVoteResponse)
  deriving DecidableEq

/-- The nodes, and every message ever sent. -/
structure Cluster (n : Nat) where
  nodes : Fin n → Raft (Fin n)
  sent : List (VoteMsg n)

namespace Cluster

variable {n : Nat}

/-- Node `i` starts an election. -/
def propose (c : Cluster n) (i : Fin n) : Cluster n where
  nodes := Function.update c.nodes i (c.nodes i).propose.1
  sent := c.sent ++ (c.nodes i).propose.2.map fun m => .request i m.1 m.2

/-- Node `dst` handles a request of `src` and answers it. -/
def requestVote (c : Cluster n) (src dst : Fin n) (request : RequestVoteRequest)
    (newest : Bool) : Cluster n where
  nodes := Function.update c.nodes dst ((c.nodes dst).requestVoteWith request newest).1
  sent := c.sent ++ [.reply dst src ((c.nodes dst).requestVoteWith request newest).2]

/-- Node `dst` handles a reply. -/
def onRequestVote (c : Cluster n) (dst : Fin n) (reply : RequestVoteResponse) : Cluster n where
  nodes := Function.update c.nodes dst ((c.nodes dst).onRequestVote reply)
  sent := c.sent

end Cluster

inductive VoteLabel (n : Nat) where
  | propose (i : Fin n)
  /-- The log check of `dst` answers `newest`. -/
  | requestVote (src dst : Fin n) (request : RequestVoteRequest) (newest : Bool)
  | onRequestVote (src dst : Fin n) (reply : RequestVoteResponse)

/-- Elections in a cluster of `n` nodes.  Messages stay available after their
    delivery, so a message may arrive late, several times, or never. -/
def election (n : Nat) : LTS.System (Cluster n) (VoteLabel n) where
  init := fun c =>
    c.sent = [] ∧
    ∃ ids : Fin n → Int, Function.Injective ids ∧ (∀ i, 0 ≤ ids i) ∧
      ∀ i, ∃ voted storage peers,
        c.nodes i = Raft.create .kFollower voted storage (ids i) peers
  step := fun c l c' =>
    match l with
    | .propose i => c' = c.propose i
    | .requestVote src dst request newest =>
        .request src dst request ∈ c.sent ∧ c' = c.requestVote src dst request newest
    | .onRequestVote src dst reply =>
        .reply src dst reply ∈ c.sent ∧ c' = c.onRequestVote dst reply

/-- No two nodes lead in the same term. -/
def ElectionSafe {n : Nat} (c : Cluster n) : Prop :=
  ∀ i j, (c.nodes i).role_ = .kLeader → (c.nodes j).role_ = .kLeader →
    (c.nodes i).currentTerm_ = (c.nodes j).currentTerm_ → i = j

/-- What holds of every reachable cluster: requests are not ahead of their
    sender, and a granted vote is behind the node it is for. -/
structure ElectionInv {n : Nat} (c : Cluster n) : Prop where
  noLeader : ∀ i, (c.nodes i).role_ ≠ .kLeader
  requests : ∀ src dst request, VoteMsg.request src dst request ∈ c.sent →
    request.term ≤ (c.nodes src).currentTerm_
  grants : ∀ src dst reply, VoteMsg.reply src dst reply ∈ c.sent → reply.voteGranted = true →
    reply.term < (c.nodes dst).currentTerm_

theorem election_initial {n : Nat} (c : Cluster n) (h : (election n).init c) : ElectionInv c := by
  obtain ⟨hsent, ids, _, _, hnodes⟩ := h
  constructor
  · intro i
    obtain ⟨voted, storage, peers, hi⟩ := hnodes i
    rw [hi]
    simp [Raft.create]
  · intro src dst request hmem
    rw [hsent] at hmem
    cases hmem
  · intro src dst reply hmem
    rw [hsent] at hmem
    cases hmem

/-- No step lowers a term. -/
theorem election_term_mono {n : Nat} {c c' : Cluster n} {l : VoteLabel n}
    (hstep : (election n).step c l c') (k : Fin n) :
    (c.nodes k).currentTerm_ ≤ (c'.nodes k).currentTerm_ := by
  simp only [election] at hstep
  match l with
  | .propose i =>
    subst hstep
    by_cases hk : k = i
    · subst hk
      simp [Cluster.propose, Raft.propose, Raft.toCandidater, Raft.setCurrentTerm,
        Raft.setVotedFor]
    · simp [Cluster.propose, hk]
  | .requestVote src dst request newest =>
    obtain ⟨_, rfl⟩ := hstep
    by_cases hk : k = dst
    · subst hk
      simp [Cluster.requestVote, Raft.requestVoteWith_term]
    · simp [Cluster.requestVote, hk]
  | .onRequestVote src dst reply =>
    obtain ⟨_, rfl⟩ := hstep
    by_cases hk : k = dst
    · subst hk
      simp [Cluster.onRequestVote, Raft.onRequestVote_term]
    · simp [Cluster.onRequestVote, hk]

theorem election_preserved {n : Nat} (c : Cluster n) (l : VoteLabel n) (c' : Cluster n)
    (hinv : ElectionInv c) (hstep : (election n).step c l c') : ElectionInv c' := by
  have hmono := election_term_mono hstep
  -- Messages that were there before stay behind the terms, which only grow.
  have hrequests : ∀ src dst request, VoteMsg.request src dst request ∈ c.sent →
      request.term ≤ (c'.nodes src).currentTerm_ := by
    intro src dst request hmem
    exact le_trans (hinv.requests src dst request hmem) (hmono src)
  have hgrants : ∀ src dst reply, VoteMsg.reply src dst reply ∈ c.sent →
      reply.voteGranted = true → reply.term < (c'.nodes dst).currentTerm_ := by
    intro src dst reply hmem hgranted
    exact lt_of_lt_of_le (hinv.grants src dst reply hmem hgranted) (hmono dst)
  simp only [election] at hstep
  match l with
  | .propose i =>
    subst hstep
    constructor
    · intro k
      by_cases hk : k = i
      · subst hk
        simp [Cluster.propose, Raft.propose, Raft.toCandidater, Raft.setCurrentTerm,
          Raft.setVotedFor]
      · simpa [Cluster.propose, hk] using hinv.noLeader k
    · intro src dst request hmem
      rcases List.mem_append.mp hmem with hold | hnew
      · exact hrequests src dst request hold
      · -- A new request carries the term its sender has just entered.
        obtain ⟨m, hm, heq⟩ := List.mem_map.mp hnew
        cases heq
        rw [Raft.toCandidater_request hm]
        simp [Cluster.propose, Raft.propose]
    · intro src dst reply hmem
      rcases List.mem_append.mp hmem with hold | hnew
      · exact hgrants src dst reply hold
      · obtain ⟨m, _, heq⟩ := List.mem_map.mp hnew
        cases heq
  | .requestVote src dst request newest =>
    obtain ⟨hreq, rfl⟩ := hstep
    constructor
    · intro k
      by_cases hk : k = dst
      · subst hk
        simpa [Cluster.requestVote, Raft.requestVoteWith_role] using hinv.noLeader k
      · simpa [Cluster.requestVote, hk] using hinv.noLeader k
    · intro src' dst' request' hmem
      apply hrequests src' dst' request'
      simpa [Cluster.requestVote] using hmem
    · intro src' dst' reply hmem hgranted
      rcases List.mem_append.mp hmem with hold | hnew
      · exact hgrants src' dst' reply hold hgranted
      · -- The new grant is below the request, which is not ahead of its sender.
        obtain ⟨rfl, rfl, rfl⟩ : src' = dst ∧ dst' = src ∧
            reply = ((c.nodes dst).requestVoteWith request newest).2 := by simpa using hnew
        exact lt_of_lt_of_le (Raft.requestVoteWith_granted hgranted) (hrequests dst' src' request hreq)
  | .onRequestVote src dst reply =>
    obtain ⟨hrep, rfl⟩ := hstep
    -- A granted reply is behind the node it reaches, so it is dropped like a refused one.
    have hsame : (c.nodes dst).onRequestVote reply = c.nodes dst := by
      by_cases hgranted : reply.voteGranted = true
      · exact Raft.onRequestVote_expired (hinv.grants src dst reply hrep hgranted)
      · exact Raft.onRequestVote_refused (by simpa using hgranted)
    rw [Cluster.onRequestVote, hsame, Function.update_eq_self]
    exact hinv

theorem election_reachable {n : Nat} (c : Cluster n) (h : (election n).Reachable c) :
    ElectionInv c :=
  LTS.System.invariant election_initial election_preserved c h

/-- **Election safety**: no two nodes are ever leaders of the same term. -/
theorem election_safe_reachable {n : Nat} (c : Cluster n) (h : (election n).Reachable c) :
    ElectionSafe c := by
  intro i j hi
  exact absurd hi ((election_reachable c h).noLeader i)

/-- Two nodes that have each other as peers. -/
def twoNodes : Cluster 2 where
  nodes := fun i => Raft.create .kFollower 0 {} i.val [1 - i]
  sent := []

/-- Node 0 asks node 1, which grants its vote; the reply arrives. -/
theorem election_safe_granted :
    ∃ c : Cluster 2, (election 2).Reachable c ∧ (c.nodes 0).role_ = .kCandidater ∧
      VoteMsg.reply 1 0 ⟨0, true, 1⟩ ∈ c.sent ∧ ElectionSafe c := by
  have hinit : (election 2).init twoNodes := by
    refine ⟨rfl, fun i => i.val, ?_, ?_, ?_⟩
    · intro i j hij
      have : (i.val : Int) = j.val := hij
      omega
    · intro i
      exact Int.natCast_nonneg _
    · intro i
      exact ⟨0, {}, [1 - i], rfl⟩
  have h0 : (election 2).Reachable twoNodes := .start hinit
  have h1 : (election 2).Reachable (twoNodes.propose 0) := h0.next (.propose 0) rfl
  have h2 : (election 2).Reachable
      ((twoNodes.propose 0).requestVote 0 1 ⟨1, 0, 0, 0, 0⟩ true) :=
    h1.next (.requestVote 0 1 ⟨1, 0, 0, 0, 0⟩ true) ⟨by decide, rfl⟩
  have h3 : (election 2).Reachable
      (((twoNodes.propose 0).requestVote 0 1 ⟨1, 0, 0, 0, 0⟩ true).onRequestVote 0 ⟨0, true, 1⟩) :=
    h2.next (.onRequestVote 1 0 ⟨0, true, 1⟩) ⟨by decide, rfl⟩
  exact ⟨_, h3, by decide, by decide, election_safe_reachable _ h3⟩

end JNet

import JNet.Lib.LTS
import JNet.Raft.Replication

/-! # A leader, reply after reply

    `OnAppendEntries` is called on the leader with the reply of a peer and the
    request it belongs to.  A success moves `commitIndex_` to the index of the
    first entry of that request, whoever else has acknowledged it; a failure is
    answered by handling the request once more, on the leader itself.

    The acknowledgements are recorded beside the node.  A request is an earlier
    one of this leader, so it carries a value `commitIndex_` has had.
-/

namespace JNet

open Memory

variable {Peer : Type} {pb : Protobuf LogEntry}

/-! ## The system -/

structure Leading (Peer : Type) where
  node : Raft Peer
  /-- Which peer has acknowledged entries up to which index. -/
  acks : List (Nat × Int)
  /-- The values `commitIndex_` has had. -/
  commits : List Int
  /-- What `commitIndex_` was before the last reply. -/
  before : Int

/-- The acknowledgement a reply brings: the entries of its request are in the
    peer's log. -/
def ackOf (request : AppendEntriesRequest) (reply : AppendEntriesResponse) : List (Nat × Int) :=
  if reply.success then [(reply.peerId.toNat, request.prevLogIndex + request.entries.length)]
  else []

/-- How many of `n` peers have acknowledged an entry at `index` or behind it. -/
def ackedBy (acks : List (Nat × Int)) (n : Nat) (index : Int) : Nat :=
  ((List.range n).filter fun p => acks.any fun a => a.1 == p && decide (index ≤ a.2)).length

/-- With the leader, more than half of the nodes have acknowledged `index`. -/
def MajorityAcked (acks : List (Nat × Int)) (n : Nat) (index : Int) : Prop :=
  n + 1 < 2 * (ackedBy acks n index + 1)

instance (acks : List (Nat × Int)) (n : Nat) (index : Int) :
    Decidable (MajorityAcked acks n index) :=
  inferInstanceAs (Decidable (_ < _))

/-- A leader with an element of `nextIndex_` and `matchIndex_` for every peer, to
    which replies are delivered in any order. -/
def leadSystem (Peer : Type) (pb : Protobuf LogEntry) :
    LTS.System (Leading Peer) (AppendEntriesRequest × AppendEntriesResponse) where
  init := fun s =>
    s.node.role_ = .kLeader ∧ s.node.nextIndex_.length = s.node.peers_.length ∧
    s.node.matchIndex_.length = s.node.peers_.length ∧ s.acks = [] ∧
    s.commits = [s.node.commitIndex_] ∧ s.before = s.node.commitIndex_
  step := fun s (request, reply) s' =>
    request.commitedIndex ∈ s.commits ∧
    0 ≤ reply.peerId ∧ reply.peerId < s.node.peers_.length ∧
    (∃ paddings request' reply', s.node.onAppendEntries pb paddings request reply =
      .ok (s'.node, request', reply')) ∧
    s'.acks = s.acks ++ ackOf request reply ∧
    s'.commits = s.commits ++ [s'.node.commitIndex_] ∧
    s'.before = s.node.commitIndex_

/-- The commit index has not decreased, and moved only to an index a majority has
    acknowledged. -/
def Leading.Good (s : Leading Peer) : Prop :=
  s.before ≤ s.node.commitIndex_ ∧
  (s.node.commitIndex_ ≠ s.before →
    MajorityAcked s.acks s.node.peers_.length s.node.commitIndex_)

/-- A success is not for a request from before the commit index, and one for a
    request behind it completes a majority for the first entry of that request. -/
def ReplySafe (s : Leading Peer) (l : AppendEntriesRequest × AppendEntriesResponse) : Prop :=
  l.2.success = true → l.1.term ≤ s.node.currentTerm_ →
    s.node.commitIndex_ ≤ l.1.prevLogIndex + 1 ∧
    (s.node.commitIndex_ < l.1.prevLogIndex + 1 →
      MajorityAcked (s.acks ++ ackOf l.1 l.2) s.node.peers_.length (l.1.prevLogIndex + 1))

/-! ## One reply -/

section reply

variable {r r' : Raft Peer} {request request' : AppendEntriesRequest}
  {reply reply' : AppendEntriesResponse} {paddings : Nat → Nat}

/-- `AppendEntries` keeps the peers, and the commit index unless it is told of a
    larger one. -/
theorem appendEntries_frame (hok : r.appendEntries pb paddings request reply = .ok (r', reply')) :
    r'.peers_ = r.peers_ ∧
      (request.commitedIndex ≤ r.commitIndex_ → r'.commitIndex_ = r.commitIndex_) := by
  unfold Raft.appendEntries at hok
  dsimp only at hok
  split at hok
  · cases hok
    exact ⟨rfl, fun _ => rfl⟩
  · simp only [bind, Except.bind] at hok
    split at hok
    · cases hok
    · split at hok
      · cases hok
      · cases hok
        refine ⟨rfl, ?_⟩
        intro hle
        exact if_neg (by omega)

/-- What a reply does to the peers and the commit index. -/
theorem onAppendEntries_frame
    (hok : r.onAppendEntries pb paddings request reply = .ok (r', request', reply')) :
    r'.peers_ = r.peers_ ∧
      (request.commitedIndex ≤ r.commitIndex_ →
        r'.commitIndex_ =
          if request.term ≤ r.currentTerm_ ∧ reply.success = true then request.prevLogIndex + 1
          else r.commitIndex_) := by
  unfold Raft.onAppendEntries at hok
  dsimp only at hok
  by_cases hterm : request.term > r.currentTerm_
  · rw [if_pos hterm] at hok
    cases hok
    exact ⟨rfl, fun _ => (if_neg (by omega)).symm⟩
  · rw [if_neg hterm] at hok
    cases hsuccess : reply.success with
    | false =>
      -- The request is handled once more, with the commit index it carried.
      rw [hsuccess, if_pos rfl] at hok
      simp only [bind, Except.bind] at hok
      split at hok
      · cases hok
      · split at hok
        · cases hok
        · split at hok
          · cases hok
          · split at hok
            · cases hok
            · next hagain =>
              cases hok
              obtain ⟨hpeers, hcommit⟩ := appendEntries_frame hagain
              refine ⟨hpeers, ?_⟩
              intro hle
              rw [if_neg (by simp)]
              exact hcommit hle
    | true =>
      rw [hsuccess, if_neg (by simp)] at hok
      simp only [bind, Except.bind] at hok
      split at hok
      · cases hok
      · split at hok
        · cases hok
        · cases hok
          exact ⟨rfl, fun _ => (if_pos ⟨by omega, rfl⟩).symm⟩

end reply

/-! ## All replies -/

/-- No request carries more than the commit index. -/
structure LeadInv (s : Leading Peer) : Prop where
  good : s.Good
  commits : ∀ c ∈ s.commits, c ≤ s.node.commitIndex_

theorem leadInv_initial (pb : Protobuf LogEntry) (s : Leading Peer)
    (h : (leadSystem Peer pb).init s) : LeadInv s := by
  obtain ⟨-, -, -, -, hcommits, hbefore⟩ := h
  refine ⟨⟨?_, ?_⟩, ?_⟩
  · rw [hbefore]
  · exact fun hne => absurd hbefore.symm hne
  · rw [hcommits]
    intro c hc
    rw [List.mem_singleton.mp hc]

/-- One reply keeps the commit index right exactly under the condition. -/
theorem LeadInv.step {s s' : Leading Peer} (h : LeadInv s)
    {l : AppendEntriesRequest × AppendEntriesResponse}
    (hstep : (leadSystem Peer pb).step s l s') : s'.Good ↔ ReplySafe s l := by
  obtain ⟨request, reply⟩ := l
  obtain ⟨hearlier, -, -, ⟨paddings, request', reply', hok⟩, hacks, -, hbefore⟩ := hstep
  obtain ⟨hpeers, hcommit⟩ := onAppendEntries_frame hok
  replace hcommit := hcommit (h.commits _ hearlier)
  unfold Leading.Good ReplySafe
  rw [hbefore, hacks, hpeers, hcommit]
  by_cases hcounts : request.term ≤ s.node.currentTerm_ ∧ reply.success = true
  · obtain ⟨hterm, hsuccess⟩ := hcounts
    rw [if_pos ⟨hterm, hsuccess⟩]
    dsimp only
    constructor
    · intro ⟨hmono, hmajority⟩ _ _
      exact ⟨hmono, fun hlt => hmajority (by omega)⟩
    · intro hsafe
      obtain ⟨hmono, hmajority⟩ := hsafe hsuccess hterm
      exact ⟨hmono, fun hne => hmajority (by omega)⟩
  · rw [if_neg hcounts]
    constructor
    · intro _ hsuccess hterm
      exact absurd ⟨hterm, hsuccess⟩ hcounts
    · intro _
      exact ⟨Int.le_refl _, fun hne => absurd rfl hne⟩

/-- The commit index having grown, it bounds what the next requests carry. -/
theorem LeadInv.next {s s' : Leading Peer} (h : LeadInv s)
    {l : AppendEntriesRequest × AppendEntriesResponse}
    (hstep : (leadSystem Peer pb).step s l s') (hgood : s'.Good) : LeadInv s' := by
  obtain ⟨-, -, -, -, -, hcommits, hbefore⟩ := hstep
  refine ⟨hgood, ?_⟩
  obtain ⟨hmono, -⟩ := hgood
  rw [hbefore] at hmono
  rw [hcommits]
  intro c hc
  rcases List.mem_append.mp hc with hold | hlast
  · have := h.commits c hold
    omega
  · rw [List.mem_singleton.mp hlast]

/-- **Commitment by majority**: in every run whose replies all meet the condition,
    the commit index never decreases and moves only to an index that more than
    half of the nodes have acknowledged; and the condition is exact, for a reply
    that does not meet it breaks this at once. -/
theorem leader_commit_iff (pb : Protobuf LogEntry) (s : Leading Peer)
    (hs : ((leadSystem Peer pb).restrict ReplySafe).Reachable s) :
    s.before ≤ s.node.commitIndex_ ∧
    (s.node.commitIndex_ ≠ s.before →
      MajorityAcked s.acks s.node.peers_.length s.node.commitIndex_) ∧
    ∀ l s', (leadSystem Peer pb).step s l s' → (s'.Good ↔ ReplySafe s l) := by
  have hinv : LeadInv s := by
    refine LTS.System.invariant (P := LeadInv) ?_ ?_ s hs
    · intro s hinit
      exact leadInv_initial pb s hinit
    · intro s l s' hinv ⟨hsafe, hstep⟩
      exact hinv.next hstep ((hinv.step hstep).mpr hsafe)
  obtain ⟨hmono, hmajority⟩ := hinv.good
  refine ⟨hmono, hmajority, ?_⟩
  intro l s' hstep
  exact hinv.step hstep

/-- A leader of term 2 with these peers, which has committed up to `commit`. -/
def leader (peers : List Nat) (commit : Int) : Leading Nat where
  node := { Raft.create .kLeader 0 {} 0 peers with
    currentTerm_ := 2
    commitIndex_ := commit
    nextIndex_ := peers.map fun _ => 2
    matchIndex_ := peers.map fun _ => 0 }
  acks := []
  commits := [commit]
  before := commit

theorem leader_init (peers : List Nat) (commit : Int) :
    (leadSystem Nat protoFormat).init (leader peers commit) :=
  ⟨rfl, by simp [leader, Raft.create], by simp [leader, Raft.create], rfl, rfl, rfl⟩

/-- Among three nodes one acknowledgement makes a majority with the leader. -/
theorem leader_commit_three :
    ∃ s : Leading Nat, s.node.commitIndex_ = 2 ∧ s.before = 0 ∧
      MajorityAcked s.acks s.node.peers_.length s.node.commitIndex_ := by
  have h0 : ((leadSystem Nat protoFormat).restrict ReplySafe).Reachable (leader [1, 2] 0) :=
    .start (leader_init [1, 2] 0)
  obtain ⟨r₁, request₁, reply₁, hok, hcommit⟩ : ∃ r₁ request₁ reply₁,
      (leader [1, 2] 0).node.onAppendEntries protoFormat id oneCommand
        { term := 2, success := true, peerId := 0 } = .ok (r₁, request₁, reply₁) ∧
      r₁.commitIndex_ = 2 := ⟨_, _, _, rfl, rfl⟩
  have hstep : (leadSystem Nat protoFormat).step (leader [1, 2] 0)
      (oneCommand, { term := 2, success := true, peerId := 0 })
      { node := r₁, acks := [(0, 2)], commits := [0, r₁.commitIndex_], before := 0 } :=
    ⟨by decide, by decide, by decide, ⟨id, request₁, reply₁, hok⟩, rfl, rfl, rfl⟩
  have h1 := h0.next _ ⟨fun _ _ => ⟨by decide, fun _ => by decide⟩, hstep⟩
  refine ⟨_, hcommit, rfl, (leader_commit_iff protoFormat _ h1).2.1 ?_⟩
  show r₁.commitIndex_ ≠ 0
  rw [hcommit]
  decide

/-- Among five nodes one acknowledgement is enough for the code, too; and a late
    success takes the commit index back. -/
theorem leader_commit_breaks :
    (∃ s s' : Leading Nat, (leadSystem Nat protoFormat).init s ∧
      (leadSystem Nat protoFormat).step s
        (oneCommand, { term := 2, success := true, peerId := 0 }) s' ∧
      s'.node.commitIndex_ ≠ s'.before ∧
      ¬ MajorityAcked s'.acks s'.node.peers_.length s'.node.commitIndex_) ∧
    (∃ s s' : Leading Nat, (leadSystem Nat protoFormat).init s ∧
      (leadSystem Nat protoFormat).step s
        ({ oneCommand with commitedIndex := 3 }, { term := 2, success := true, peerId := 0 }) s' ∧
      s'.node.commitIndex_ < s'.before) := by
  constructor
  · exact ⟨leader [1, 2, 3, 4] 0, ⟨_, [(0, 2)], [0, 2], 0⟩, leader_init [1, 2, 3, 4] 0,
      ⟨by decide, by decide, by decide, ⟨id, _, _, rfl⟩, by decide, rfl, rfl⟩, by decide, by decide⟩
  · exact ⟨leader [1, 2, 3, 4] 3, ⟨_, [(0, 2)], [3, 2], 3⟩, leader_init [1, 2, 3, 4] 3,
      ⟨by decide, by decide, by decide, ⟨id, _, _, rfl⟩, by decide, rfl, rfl⟩, by decide⟩

end JNet

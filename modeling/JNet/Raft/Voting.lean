import JNet.Raft.Election
import JNet.Raft.LogLayout
import Mathlib.Data.List.Induction
import Mathlib.Data.List.TakeWhile

/-! # The votes of a node

    One node under any sequence of calls, with every vote it casts recorded:
    for others when it grants a request, for itself when it becomes candidate.
    Then the two ends of one vote: what the candidate makes of the replies, and
    what the voter makes of the candidate's log.
-/

namespace JNet

open Memory

variable {Peer : Type}

/-! ## Runs of one node -/

inductive VoteOp where
  /-- A request arrives, and the log check answers `newest`. -/
  | requestVote (request : RequestVoteRequest) (newest : Bool)
  | propose
  | onRequestVote (reply : RequestVoteResponse)
  deriving DecidableEq

/-- A node and the votes it has cast, as pairs of a term and a node. -/
structure Voter (Peer : Type) where
  node : Raft Peer
  votes : List (Int × Int)

def VoteOp.exec (s : Voter Peer) : VoteOp → Voter Peer
  | .requestVote request newest =>
    let (r, reply) := s.node.requestVoteWith request newest
    { node := r
      votes :=
        if reply.voteGranted then s.votes ++ [(request.term, request.peerId)] else s.votes }
  | .propose =>
    let r := s.node.propose.1
    { node := r, votes := s.votes ++ [(r.currentTerm_, r.votedFor_)] }
  | .onRequestVote reply => { s with node := s.node.onRequestVote reply }

def runVotes (r : Raft Peer) (ops : List VoteOp) : Voter Peer :=
  ops.foldl VoteOp.exec { node := r, votes := [] }

/-- Two votes cast in one term are for the same node. -/
def OneVotePerTerm (votes : List (Int × Int)) : Prop :=
  ∀ t a b, (t, a) ∈ votes → (t, b) ∈ votes → a = b

/-! ## What the calls ask for -/

def VoteOp.isPropose : VoteOp → Bool
  | .propose => true
  | _ => false

/-- How often the node becomes candidate. -/
def candidacies (ops : List VoteOp) : Nat := ops.countP VoteOp.isPropose

/-- The term and the caller of a request that a node in term 0 may grant, as far
    as the term and the log are concerned. -/
def VoteOp.asks : VoteOp → Option (Int × Int)
  | .requestVote request newest =>
    if newest = true ∧ 0 < request.term then some (request.term, request.peerId) else none
  | _ => none

/-- What was asked for before the first candidacy. -/
def asked (ops : List VoteOp) : List (Int × Int) :=
  (ops.takeWhile fun op => !op.isPropose).filterMap VoteOp.asks

/-- Who asked first. -/
def firstCaller (ops : List VoteOp) : Option Int := (asked ops).head?.map Prod.snd

theorem candidacies_snoc (ops : List VoteOp) (op : VoteOp) :
    candidacies (ops ++ [op]) = candidacies ops + if op.isPropose then 1 else 0 := by
  simp [candidacies, List.countP_append, List.countP_singleton]

/-- Before the first candidacy every request counts. -/
theorem asked_snoc_early {ops : List VoteOp} (h : candidacies ops = 0) (op : VoteOp) :
    asked (ops ++ [op]) = asked ops ++ op.asks.toList := by
  have hall : ∀ o ∈ ops, (!o.isPropose) = true := by
    intro o ho
    simpa using List.countP_eq_zero.mp h o ho
  rw [asked, asked, List.takeWhile_append_of_pos hall, List.filterMap_append]
  congr 1
  · rw [List.takeWhile_eq_self_iff.mpr hall]
  · cases op with
    | requestVote request newest =>
      simp only [VoteOp.isPropose, Bool.not_false, List.takeWhile_cons_of_pos, List.takeWhile_nil]
      cases hasks : (VoteOp.requestVote request newest).asks <;> simp [hasks]
    | propose => rfl
    | onRequestVote reply => rfl

/-- After it none does. -/
theorem asked_snoc_late {ops : List VoteOp} (h : candidacies ops ≠ 0) (op : VoteOp) :
    asked (ops ++ [op]) = asked ops := by
  -- The list of early calls ends at a candidacy, before `op`.
  have hlen : ¬ (ops.takeWhile fun o => !o.isPropose).length = ops.length := by
    intro heq
    apply h
    apply List.countP_eq_zero.mpr
    intro o ho
    have hself := (List.takeWhile_prefix (l := ops) fun o => !o.isPropose).eq_of_length heq
    have := List.takeWhile_eq_self_iff.mp hself o ho
    simpa using this
  rw [asked, List.takeWhile_append, if_neg hlen, asked]

theorem mem_of_asked {ops : List VoteOp} {t c : Int} (h : (t, c) ∈ asked ops) :
    ∃ request newest, VoteOp.requestVote request newest ∈ ops ∧ request.term = t ∧
      request.peerId = c ∧ 0 < t := by
  obtain ⟨op, hop, hasks⟩ := List.mem_filterMap.mp h
  have hmem := (List.takeWhile_sublist _).mem hop
  cases op with
  | requestVote request newest =>
    simp only [VoteOp.asks] at hasks
    by_cases hcond : newest = true ∧ 0 < request.term
    · rw [if_pos hcond] at hasks
      cases hasks
      exact ⟨request, newest, hmem, rfl, rfl, hcond.2⟩
    · rw [if_neg hcond] at hasks
      cases hasks
  | propose => cases hasks
  | onRequestVote reply => cases hasks

/-- A request before the first candidacy that passes the tests of term and log. -/
theorem asked_request {ops : List VoteOp} (hzero : candidacies ops = 0)
    {request : RequestVoteRequest} (hterm : 0 < request.term) :
    asked (ops ++ [.requestVote request true]) =
      asked ops ++ [(request.term, request.peerId)] := by
  rw [asked_snoc_early hzero, VoteOp.asks, if_pos ⟨rfl, hterm⟩]
  rfl

theorem firstCaller_request {ops : List VoteOp} (hzero : candidacies ops = 0)
    {request : RequestVoteRequest} (hterm : 0 < request.term) :
    firstCaller (ops ++ [.requestVote request true]) =
      some ((firstCaller ops).getD request.peerId) := by
  rw [firstCaller, asked_request hzero hterm, firstCaller, List.head?_append]
  cases (asked ops).head? <;> rfl

/-- Once anything was asked for there is a first caller, and no default is needed. -/
theorem firstCaller_of_asked {ops : List VoteOp} {t c : Int} (hmem : (t, c) ∈ asked ops)
    (a b : Int) : firstCaller ops = some b ↔ (firstCaller ops).getD a = b := by
  cases hhead : (asked ops).head? with
  | none =>
    rw [List.head?_eq_none_iff.mp hhead] at hmem
    cases hmem
  | some p => simp [firstCaller, hhead]

/-! ## The votes cast -/

/-- What a run has done to a fresh node: its term counts its candidacies, its
    vote went to the first caller and then to itself, and the votes cast are
    those granted to the first caller and one for itself per candidacy. -/
structure VoteInv (id : Int) (ops : List VoteOp) (s : Voter Peer) : Prop where
  id_eq : s.node.id_ = id
  term_eq : s.node.currentTerm_ = candidacies ops
  votedFor_eq : s.node.votedFor_ =
    if candidacies ops = 0 then (firstCaller ops).getD (-1) else id
  votes_iff : ∀ t c, (t, c) ∈ s.votes ↔
    (c = id ∧ 1 ≤ t ∧ t ≤ candidacies ops) ∨ ((t, c) ∈ asked ops ∧ firstCaller ops = some c)

/-- The requests of a run come from other nodes. -/
def FromOthers (id : Int) (ops : List VoteOp) : Prop :=
  ∀ request newest, VoteOp.requestVote request newest ∈ ops →
    0 ≤ request.peerId ∧ request.peerId ≠ id

theorem voteInv_initial {r : Raft Peer} (hterm : r.currentTerm_ = 0) (hvoted : r.votedFor_ = -1) :
    VoteInv r.id_ [] { node := r, votes := [] } where
  id_eq := rfl
  term_eq := hterm
  votedFor_eq := hvoted
  votes_iff := by
    intro t c
    simp [candidacies, asked]
    omega

/-- A candidacy. -/
theorem VoteInv.propose {id : Int} {ops : List VoteOp} {s : Voter Peer} (h : VoteInv id ops s) :
    VoteInv id (ops ++ [.propose]) (VoteOp.propose.exec s) := by
  have hcount : candidacies (ops ++ [.propose]) = candidacies ops + 1 := by
    rw [candidacies_snoc]; rfl
  have hasked : asked (ops ++ [.propose]) = asked ops := by
    by_cases hzero : candidacies ops = 0
    · rw [asked_snoc_early hzero]
      exact List.append_nil _
    · exact asked_snoc_late hzero _
  have hfirst : firstCaller (ops ++ [.propose]) = firstCaller ops := by
    rw [firstCaller, hasked, firstCaller]
  have hterm : s.node.propose.1.currentTerm_ = candidacies ops + 1 := by
    rw [← h.term_eq]; rfl
  have hvoted : s.node.propose.1.votedFor_ = id := h.id_eq
  constructor
  · exact h.id_eq
  · show s.node.propose.1.currentTerm_ = _
    rw [hterm, hcount]
    push_cast
    rfl
  · show s.node.propose.1.votedFor_ = _
    rw [hvoted, hcount, if_neg (by omega)]
  · intro t c
    show (t, c) ∈ s.votes ++ [(s.node.propose.1.currentTerm_, s.node.propose.1.votedFor_)] ↔ _
    rw [List.mem_append, h.votes_iff, hcount, hasked, hfirst, hterm, hvoted]
    simp only [List.mem_singleton, Prod.mk.injEq]
    push_cast
    constructor
    · intro hcase
      rcases hcase with (⟨hc, h1, h2⟩ | hgrant) | ⟨ht, hc⟩
      · exact .inl ⟨hc, h1, by omega⟩
      · exact .inr hgrant
      · exact .inl ⟨hc, by omega, by omega⟩
    · intro hcase
      rcases hcase with ⟨hc, h1, h2⟩ | hgrant
      · -- The own vote of the term just entered is the one that was added.
        by_cases hlast : t = candidacies ops + 1
        · exact .inr ⟨hlast, hc⟩
        · exact .inl (.inl ⟨hc, h1, by omega⟩)
      · exact .inl (.inr hgrant)

/-- A call that changes neither what was asked for nor the number of candidacies,
    and leaves the node's vote alone. -/
theorem VoteInv.unchanged {id : Int} {ops : List VoteOp} {s s' : Voter Peer} {op : VoteOp}
    (h : VoteInv id ops s) (hop : op.isPropose = false)
    (hasked : asked (ops ++ [op]) = asked ops) (hid : s'.node.id_ = s.node.id_)
    (hterm : s'.node.currentTerm_ = s.node.currentTerm_)
    (hvoted : s'.node.votedFor_ = s.node.votedFor_) (hvotes : s'.votes = s.votes) :
    VoteInv id (ops ++ [op]) s' := by
  have hcount : candidacies (ops ++ [op]) = candidacies ops := by
    rw [candidacies_snoc, hop]; rfl
  have hfirst : firstCaller (ops ++ [op]) = firstCaller ops := by
    rw [firstCaller, hasked, firstCaller]
  constructor
  · rw [hid, h.id_eq]
  · rw [hterm, h.term_eq, hcount]
  · rw [hvoted, h.votedFor_eq, hcount, hfirst]
  · intro t c
    rw [hvotes, h.votes_iff, hcount, hasked, hfirst]

theorem firstCaller_nonneg {id : Int} {ops : List VoteOp} (hothers : FromOthers id ops) {c : Int}
    (h : firstCaller ops = some c) : 0 ≤ c := by
  obtain ⟨⟨t, c'⟩, hhead, hc⟩ := Option.map_eq_some_iff.mp h
  obtain ⟨request, newest, hmem, _, hpeer, _⟩ := mem_of_asked (List.mem_of_mem_head? hhead)
  have := (hothers request newest hmem).1
  simp only at hc
  omega

/-- Before its first candidacy the node may vote for nobody but the first caller. -/
theorem VoteInv.mayVote_iff {id : Int} {ops : List VoteOp} {s : Voter Peer}
    (h : VoteInv id ops s) (hothers : FromOthers id ops) (hzero : candidacies ops = 0)
    {request : RequestVoteRequest} (hterm : 0 < request.term) :
    s.node.mayVote request = true ↔
      (firstCaller ops).getD request.peerId = request.peerId := by
  have hcur : s.node.currentTerm_ = 0 := by rw [h.term_eq, hzero]; rfl
  rw [Raft.mayVote_iff, hcur, h.votedFor_eq, if_pos hzero]
  cases hcaller : firstCaller ops with
  | none => simp [hterm]
  | some c =>
    -- A caller's id is not negative, so it is not the -1 of a vote not cast.
    have := firstCaller_nonneg hothers hcaller
    simp only [Option.getD_some]
    omega

/-- A request of the first caller. -/
theorem VoteInv.granted {id : Int} {ops : List VoteOp} {s : Voter Peer} (h : VoteInv id ops s)
    (hothers : FromOthers id ops) (hzero : candidacies ops = 0) {request : RequestVoteRequest}
    (hterm : 0 < request.term)
    (hfirst : (firstCaller ops).getD request.peerId = request.peerId) :
    VoteInv id (ops ++ [.requestVote request true]) ((VoteOp.requestVote request true).exec s) := by
  have hcount : candidacies (ops ++ [.requestVote request true]) = 0 := by
    rw [candidacies_snoc, hzero]; rfl
  have hvote := Raft.requestVoteWith_yes ((h.mayVote_iff hothers hzero hterm).mpr hfirst)
  have hexec : (VoteOp.requestVote request true).exec s =
      { node := { s.node with votedFor_ := request.peerId }
        votes := s.votes ++ [(request.term, request.peerId)] } := by
    rw [VoteOp.exec, hvote]
    rfl
  rw [hexec]
  constructor
  · exact h.id_eq
  · rw [hcount, ← hzero]
    exact h.term_eq
  · rw [if_pos hcount, firstCaller_request hzero hterm, hfirst]
    rfl
  · intro t c
    rw [List.mem_append, h.votes_iff, hcount, hzero, asked_request hzero hterm,
      firstCaller_request hzero hterm, hfirst]
    simp only [List.mem_append, List.mem_singleton, Prod.mk.injEq, Option.some.injEq]
    constructor
    · intro hvotes
      -- An earlier grant went to the first caller, as this one does.
      rcases hvotes with (hself | ⟨hold, hc⟩) | ⟨ht, hc⟩
      · exact .inl hself
      · have hcaller := (firstCaller_of_asked hold request.peerId c).mp hc
        exact .inr ⟨.inl hold, hfirst.symm.trans hcaller⟩
      · exact .inr ⟨.inr ⟨ht, hc⟩, hc.symm⟩
    · intro hvotes
      rcases hvotes with hself | ⟨hold | hnew, hc⟩
      · exact .inl (.inl hself)
      · have hcaller := (firstCaller_of_asked hold request.peerId c).mpr (hfirst.trans hc)
        exact .inl (.inr ⟨hold, hcaller⟩)
      · exact .inr hnew

/-- A request of anybody else: it is asked for, but not granted. -/
theorem VoteInv.overruled {id : Int} {ops : List VoteOp} {s : Voter Peer} (h : VoteInv id ops s)
    (hothers : FromOthers id ops) (hzero : candidacies ops = 0) {request : RequestVoteRequest}
    (hterm : 0 < request.term)
    (hfirst : (firstCaller ops).getD request.peerId ≠ request.peerId) :
    VoteInv id (ops ++ [.requestVote request true]) ((VoteOp.requestVote request true).exec s) := by
  have hcount : candidacies (ops ++ [.requestVote request true]) = 0 := by
    rw [candidacies_snoc, hzero]; rfl
  have hmay : s.node.mayVote request = false := by
    rw [← Bool.not_eq_true, h.mayVote_iff hothers hzero hterm]
    exact hfirst
  have hexec : (VoteOp.requestVote request true).exec s = s := by
    rw [VoteOp.exec, Raft.requestVoteWith_no (.inl hmay)]
    rfl
  rw [hexec]
  constructor
  · exact h.id_eq
  · rw [hcount, ← hzero]
    exact h.term_eq
  · rw [if_pos hcount, firstCaller_request hzero hterm, h.votedFor_eq, if_pos hzero]
    cases hcaller : firstCaller ops with
    | none => simp [hcaller] at hfirst
    | some c => rfl
  · intro t c
    rw [h.votes_iff, hcount, hzero, asked_request hzero hterm, firstCaller_request hzero hterm]
    simp only [List.mem_append, List.mem_singleton, Prod.mk.injEq, Option.some.injEq]
    constructor
    · intro hvotes
      rcases hvotes with hself | ⟨hold, hc⟩
      · exact .inl hself
      · exact .inr ⟨.inl hold, (firstCaller_of_asked hold request.peerId c).mp hc⟩
    · intro hvotes
      rcases hvotes with hself | ⟨hold | ⟨_, hnew⟩, hc⟩
      · exact .inl hself
      · exact .inr ⟨hold, (firstCaller_of_asked hold request.peerId c).mpr hc⟩
      · exact absurd (hc.trans hnew) hfirst

/-- A request that is refused. -/
theorem VoteInv.refused {id : Int} {ops : List VoteOp} {s : Voter Peer} (h : VoteInv id ops s)
    {request : RequestVoteRequest} {newest : Bool}
    (hasked : asked (ops ++ [.requestVote request newest]) = asked ops)
    (hno : s.node.mayVote request = false ∨ newest = false) :
    VoteInv id (ops ++ [.requestVote request newest])
      ((VoteOp.requestVote request newest).exec s) := by
  have hexec : (VoteOp.requestVote request newest).exec s = s := by
    rw [VoteOp.exec, Raft.requestVoteWith_no hno]
    rfl
  rw [hexec]
  exact h.unchanged rfl hasked rfl rfl rfl rfl

theorem VoteInv.step {id : Int} {ops : List VoteOp} {s : Voter Peer} (h : VoteInv id ops s)
    (hid : 0 ≤ id) {op : VoteOp} (hothers : FromOthers id (ops ++ [op])) :
    VoteInv id (ops ++ [op]) (op.exec s) := by
  cases op with
  | requestVote request newest =>
    have hpeer := hothers request newest (by simp)
    by_cases hzero : candidacies ops = 0
    · by_cases hasks : newest = true ∧ 0 < request.term
      · obtain ⟨rfl, hterm⟩ := hasks
        have hbefore : FromOthers id ops := by
          intro request' newest' hmem
          exact hothers request' newest' (by simp [hmem])
        by_cases hfirst : (firstCaller ops).getD request.peerId = request.peerId
        · exact h.granted hbefore hzero hterm hfirst
        · exact h.overruled hbefore hzero hterm hfirst
      · -- The request fails the log check or asks for no term above 0.
        apply h.refused
        · rw [asked_snoc_early hzero, VoteOp.asks, if_neg hasks]
          exact List.append_nil _
        · by_cases hnew : newest = true
          · left
            have hcur : s.node.currentTerm_ = 0 := by rw [h.term_eq, hzero]; rfl
            have hlow : ¬ 0 < request.term := fun hpos => hasks ⟨hnew, hpos⟩
            simp [Raft.mayVote, hcur, hlow]
          · right
            simpa using hnew
    · -- The node has voted for itself and never takes that back.
      apply h.refused (asked_snoc_late hzero _)
      left
      have hself : s.node.votedFor_ = id := by rw [h.votedFor_eq, if_neg hzero]
      have h1 : id ≠ -1 := by omega
      have h2 : id ≠ request.peerId := hpeer.2.symm
      simp [Raft.mayVote, hself, h1, h2]
  | propose => exact h.propose
  | onRequestVote reply =>
    apply h.unchanged rfl
    · by_cases hzero : candidacies ops = 0
      · rw [asked_snoc_early hzero]
        exact List.append_nil _
      · exact asked_snoc_late hzero _
    · exact Raft.onRequestVote_id _ _
    · exact Raft.onRequestVote_term _ _
    · exact Raft.onRequestVote_votedFor _ _
    · rfl

theorem voteInv_run {r : Raft Peer} (hterm : r.currentTerm_ = 0) (hvoted : r.votedFor_ = -1)
    (hid : 0 ≤ r.id_) {ops : List VoteOp} (hothers : FromOthers r.id_ ops) :
    VoteInv r.id_ ops (runVotes r ops) := by
  induction ops using List.reverseRecOn with
  | nil => exact voteInv_initial hterm hvoted
  | append_singleton ops op ih =>
    have hbefore : FromOthers r.id_ ops := by
      intro request newest hmem
      exact hothers request newest (by simp [hmem])
    have hsnoc : runVotes r (ops ++ [op]) = op.exec (runVotes r ops) := by
      simp [runVotes]
    rw [hsnoc]
    exact (ih hbefore).step hid hothers

/-- A fresh node casts at most one vote per term exactly if every term that the
    first caller asked it for is above the number of its candidacies. -/
theorem one_vote_per_term_iff (r : Raft Peer) (hterm : r.currentTerm_ = 0)
    (hvoted : r.votedFor_ = -1) (hid : 0 ≤ r.id_) (ops : List VoteOp)
    (hothers : FromOthers r.id_ ops) :
    OneVotePerTerm (runVotes r ops).votes ↔
      ∀ t c, (t, c) ∈ asked ops → firstCaller ops = some c → (candidacies ops : Int) < t := by
  have hinv := voteInv_run hterm hvoted hid hothers
  constructor
  · intro hone t c hmem hfirst
    obtain ⟨request, newest, hop, _, hpeer, hpos⟩ := mem_of_asked hmem
    by_contra hle
    -- The node reached the term of its promise as a candidate, and voted for itself there.
    have hself := (hinv.votes_iff t r.id_).mpr (.inl ⟨rfl, by omega, by omega⟩)
    have hother := (hinv.votes_iff t c).mpr (.inr ⟨hmem, hfirst⟩)
    have hne := (hothers request newest hop).2
    rw [hpeer] at hne
    exact hne (hone t c r.id_ hother hself)
  · intro hcond t a b ha hb
    rcases (hinv.votes_iff t a).mp ha with ⟨rfl, _, hta⟩ | ⟨hma, hfa⟩
    · rcases (hinv.votes_iff t b).mp hb with ⟨rfl, _, _⟩ | ⟨hmb, hfb⟩
      · rfl
      · have := hcond t b hmb hfb
        omega
    · rcases (hinv.votes_iff t b).mp hb with ⟨rfl, _, htb⟩ | ⟨_, hfb⟩
      · have := hcond t a hma hfa
        omega
      · rw [hfa] at hfb
        exact Option.some.inj hfb

/-- A node as constructed, but for one entry of term 1 in its log, at index `f`. -/
def freshNode (id f : Int) (peers : List Nat) : Raft Nat :=
  { Raft.create .kFollower 0 {} id peers with
    logs_ := RaftLog.built protoFormat f [dataEntry 1 f [97]] }

/-- A vote for term 3, then two candidacies. -/
theorem one_vote_per_term_two :
    OneVotePerTerm (runVotes (freshNode 0 1 [7])
      [.requestVote ⟨3, 7, 7, 1, 2⟩ true, .propose, .propose]).votes := by
  apply (one_vote_per_term_iff (freshNode 0 1 [7]) rfl rfl (by decide)
    [.requestVote ⟨3, 7, 7, 1, 2⟩ true, .propose, .propose] ?_).mpr
  · intro t c hmem _
    obtain ⟨rfl, rfl⟩ : t = 3 ∧ c = 7 := by simpa [asked, VoteOp.asks, VoteOp.isPropose] using hmem
    decide
  · intro request newest hmem
    obtain ⟨rfl, rfl⟩ : request = ⟨3, 7, 7, 1, 2⟩ ∧ newest = true := by simpa using hmem
    decide

/-- A vote for node 7 in term 1, then a candidacy in term 1. -/
theorem two_votes_in_one_term :
    (freshNode 0 1 [7]).requestVote ⟨1, 7, 7, 1, 2⟩ =
      .ok ((freshNode 0 1 [7]).requestVoteWith ⟨1, 7, 7, 1, 2⟩ true) ∧
    FromOthers 0 [.requestVote ⟨1, 7, 7, 1, 2⟩ true, .propose] ∧
    ¬ OneVotePerTerm (runVotes (freshNode 0 1 [7])
      [.requestVote ⟨1, 7, 7, 1, 2⟩ true, .propose]).votes := by
  refine ⟨rfl, ?_, ?_⟩
  · intro request newest hmem
    obtain ⟨rfl, rfl⟩ : request = ⟨1, 7, 7, 1, 2⟩ ∧ newest = true := by simpa using hmem
    decide
  · intro hone
    have hvotes : (runVotes (freshNode 0 1 [7])
        [.requestVote ⟨1, 7, 7, 1, 2⟩ true, .propose]).votes = [(1, 7), (1, 0)] := rfl
    rw [hvotes] at hone
    exact absurd (hone 1 7 0 (by simp) (by simp)) (by decide)

/-! ## Counting the votes -/

/-- A candidate counts the granted votes delivered to it and leads from the
    majority on. -/
def CountsVotes (c : Raft Peer) (replies : List RequestVoteResponse) : Prop :=
  ∀ k, k ≤ replies.length →
    (1 + k ≤ (c.peers_.length + 1) / 2 →
      ((replies.take k).foldl Raft.onRequestVote c).role_ = .kCandidater ∧
      ((replies.take k).foldl Raft.onRequestVote c).voted_ = 1 + k) ∧
    ((c.peers_.length + 1) / 2 < 1 + k →
      ((replies.take k).foldl Raft.onRequestVote c).role_ = .kLeader)

/-- A granted reply to a candidate's request is from a term below the candidate's. -/
theorem granted_term_lt {r v v' : Raft Peer} {p : Peer} {request : RequestVoteRequest}
    (hreq : (p, request) ∈ r.toCandidater.2) {reply : RequestVoteResponse}
    (hvote : v.requestVote request = .ok (v', reply)) (hgranted : reply.voteGranted = true) :
    reply.term < r.toCandidater.1.currentTerm_ := by
  obtain ⟨newest, hwith⟩ := Raft.requestVote_cases hvote
  have hterm : request.term = r.toCandidater.1.currentTerm_ :=
    congrArg RequestVoteRequest.term (Raft.toCandidater_request hreq)
  have hreply : (v.requestVoteWith request newest).2 = reply := by rw [hwith]
  have hlt := Raft.requestVoteWith_granted (r := v) (by rw [hreply]; exact hgranted)
  rw [hreply, hterm] at hlt
  exact hlt

/-- Of the granted votes that reach a candidate with peers it counts none: it
    counts them right exactly when there are none. -/
theorem counts_votes_iff (r : Raft Peer) (hpeers : r.peers_ ≠ []) (p : Peer)
    (request : RequestVoteRequest) (hreq : (p, request) ∈ r.toCandidater.2)
    (replies : List RequestVoteResponse)
    (hreplies : ∀ reply ∈ replies, reply.voteGranted = true ∧
      ∃ v v' : Raft Peer, v.requestVote request = .ok (v', reply)) :
    CountsVotes r.toCandidater.1 replies ↔ replies = [] := by
  constructor
  · intro hcounts
    by_contra hne
    obtain ⟨reply, rest, rfl⟩ := List.exists_cons_of_ne_nil hne
    obtain ⟨hgranted, v, v', hvote⟩ := hreplies reply (by simp)
    have hsame : r.toCandidater.1.onRequestVote reply = r.toCandidater.1 :=
      Raft.onRequestVote_expired (granted_term_lt hreq hvote hgranted)
    -- The first reply should be counted or make the node leader; it does neither.
    obtain ⟨hcand, hlead⟩ := hcounts 1 (by simp)
    have htake : ((reply :: rest).take 1).foldl Raft.onRequestVote r.toCandidater.1 =
        r.toCandidater.1 := hsame
    rw [htake] at hcand hlead
    by_cases hmaj : (r.toCandidater.1.peers_.length + 1) / 2 < 1 + 1
    · have := hlead hmaj
      cases this
    · have hvoted := (hcand (by omega)).2
      have hone : r.toCandidater.1.voted_ = 1 := rfl
      rw [hone] at hvoted
      omega
  · intro hnil
    subst hnil
    intro k hk
    obtain rfl : k = 0 := by simpa using hk
    have hpos : 0 < r.peers_.length := List.length_pos_iff.mpr hpeers
    have hlen : r.toCandidater.1.peers_.length = r.peers_.length := rfl
    refine ⟨fun _ => ⟨rfl, rfl⟩, ?_⟩
    intro hmaj
    rw [hlen] at hmaj
    omega

/-- Three nodes, and both peers have voted. -/
theorem counts_votes_none_of_two :
    ¬ CountsVotes (freshNode 0 (-1) [1, 2]).toCandidater.1 [⟨0, true, 1⟩, ⟨0, true, 2⟩] := by
  have hiff := counts_votes_iff (freshNode 0 (-1) [1, 2]) (by decide) 1 ⟨1, 0, 0, 0, 0⟩
    (by decide) [⟨0, true, 1⟩, ⟨0, true, 2⟩] (by
      intro reply hmem
      have hcase : reply = ⟨0, true, 1⟩ ∨ reply = ⟨0, true, 2⟩ := by simpa using hmem
      rcases hcase with rfl | rfl
      · exact ⟨rfl, freshNode 1 (-1) [0, 2], { freshNode 1 (-1) [0, 2] with votedFor_ := 0 }, rfl⟩
      · exact ⟨rfl, freshNode 2 (-1) [0, 1], { freshNode 2 (-1) [0, 1] with votedFor_ := 0 }, rfl⟩)
  intro hcounts
  cases hiff.mp hcounts

/-- Two nodes: the vote of the only peer makes no leader. -/
theorem granted_vote_not_counted :
    ((freshNode 1 (-1) [0]).requestVote ⟨1, 0, 0, 0, 0⟩ =
      .ok ({ freshNode 1 (-1) [0] with votedFor_ := 0 }, ⟨0, true, 1⟩)) ∧
    (1, ⟨1, 0, 0, 0, 0⟩) ∈ (freshNode 0 (-1) [1]).toCandidater.2 ∧
    ¬ CountsVotes (freshNode 0 (-1) [1]).toCandidater.1 [⟨0, true, 1⟩] := by
  refine ⟨rfl, by decide, ?_⟩
  intro hcounts
  have hlead := (hcounts 1 (by decide)).2 (by decide)
  revert hlead
  decide

/-! ## Comparing logs -/

/-- The term of the last entry of a log, 0 if it has none. -/
def RaftLog.lastTerm (l : RaftLog) : Int := (l.offset_term_.getLast?.map Prod.snd).getD 0

/-- Log `lc` is at least as up to date as log `lv`: its last entry is of a later
    term, or of the same term and at no smaller index. -/
def AtLeastAsUpToDate (lc lv : RaftLog) : Prop :=
  lv.lastTerm < lc.lastTerm ∨ (lv.lastTerm = lc.lastTerm ∧ lv.lastIndex ≤ lc.lastIndex)

instance (lc lv : RaftLog) : Decidable (AtLeastAsUpToDate lc lv) :=
  inferInstanceAs (Decidable (_ ∨ _))

/-- The log check of a voter with entries, on a request as candidates build it. -/
theorem newestLog_candidate {v : Raft Peer} (hne : v.logs_.offset_term_ ≠ [])
    (hlen : v.logs_.offset_term_.length < 2 ^ 64) {request : RequestVoteRequest}
    (hindex : request.lastLogIndex = 0) (hterm : request.lastLogTerm = 0) :
    v.newestLog request = .ok (decide (v.logs_.lastIndex < 0)) := by
  simp only [Raft.newestLog, RaftLog.term_lastIndex hne hlen, hindex, hterm]
  rfl

/-- The node has not voted for another one. -/
def VoteFree (v : Raft Peer) (candidate : Int) : Prop :=
  v.votedFor_ = -1 ∨ v.votedFor_ = candidate

instance (v : Raft Peer) (candidate : Int) : Decidable (VoteFree v candidate) :=
  inferInstanceAs (Decidable (_ ∨ _))

/-- In front of the log check only the vote already cast can stand in the way. -/
theorem mayVote_candidate {v c : Raft Peer} {p : Peer} {request : RequestVoteRequest}
    (hreq : (p, request) ∈ c.toCandidater.2) (hterm : v.currentTerm_ < request.term) :
    v.mayVote request = true ↔ VoteFree v c.id_ := by
  have hpeer : request.peerId = c.id_ :=
    congrArg RequestVoteRequest.peerId (Raft.toCandidater_request hreq)
  rw [Raft.mayVote_iff, VoteFree, hpeer]
  exact ⟨fun h => h.2, fun h => ⟨hterm, h⟩⟩

/-- What a voter does with a candidate's request of a later term. -/
theorem requestVote_candidate {v c : Raft Peer} {p : Peer} {request : RequestVoteRequest}
    (hreq : (p, request) ∈ c.toCandidater.2) (hterm : v.currentTerm_ < request.term)
    (hlen : v.logs_.offset_term_.length < 2 ^ 64) :
    (¬ VoteFree v c.id_ ∧ v.requestVote request = .ok (v, ⟨v.currentTerm_, false, v.id_⟩)) ∨
    (VoteFree v c.id_ ∧ v.logs_.offset_term_ = [] ∧
      v.requestVote request = .error .outOfBounds) ∨
    (VoteFree v c.id_ ∧ v.logs_.offset_term_ ≠ [] ∧
      v.requestVote request =
        .ok (v.requestVoteWith request (decide (v.logs_.lastIndex < 0)))) := by
  have hshape : request = ⟨c.toCandidater.1.currentTerm_, c.id_, c.id_, 0, 0⟩ :=
    Raft.toCandidater_request hreq
  have hmay := mayVote_candidate hreq hterm
  unfold Raft.requestVote
  by_cases hfree : VoteFree v c.id_
  · right
    rw [if_pos (hmay.mpr hfree)]
    by_cases hempty : v.logs_.offset_term_ = []
    · left
      have hfault : v.newestLog request = .error .outOfBounds := by
        simp only [Raft.newestLog, RaftLog.term_empty hempty]
        rfl
      rw [hfault]
      exact ⟨hfree, hempty, rfl⟩
    · right
      rw [newestLog_candidate hempty hlen (by rw [hshape]) (by rw [hshape])]
      exact ⟨hfree, hempty, rfl⟩
  · left
    have hno : ¬ v.mayVote request = true := fun h => hfree (hmay.mp h)
    rw [if_neg hno, Raft.requestVoteWith_no (.inr rfl)]
    exact ⟨hfree, rfl⟩

/-- The vote is decided by the freshness of the candidate's log exactly in two
    cases: the voter has entries and has not voted for another node, and its
    last index is negative just if the candidate's log is fresh; or it has voted
    for another node, and the candidate's log is not fresh. -/
theorem vote_by_freshness_iff (v c : Raft Peer) (p : Peer) (request : RequestVoteRequest)
    (hreq : (p, request) ∈ c.toCandidater.2) (hterm : v.currentTerm_ < request.term)
    (hlen : v.logs_.offset_term_.length < 2 ^ 64) :
    (∃ v' reply, v.requestVote request = .ok (v', reply) ∧
      (reply.voteGranted = true ↔ AtLeastAsUpToDate c.logs_ v.logs_)) ↔
    (VoteFree v c.id_ ∧ v.logs_.offset_term_ ≠ [] ∧
      (v.logs_.lastIndex < 0 ↔ AtLeastAsUpToDate c.logs_ v.logs_)) ∨
    (¬ VoteFree v c.id_ ∧ ¬ AtLeastAsUpToDate c.logs_ v.logs_) := by
  rcases requestVote_candidate hreq hterm hlen with
    ⟨hfree, heq⟩ | ⟨hfree, hempty, heq⟩ | ⟨hfree, hne, heq⟩
  · rw [heq]
    simp [hfree]
  · rw [heq]
    simp [hfree, hempty]
  · -- The request passes every other test, so the answer of the log check is the vote.
    have hgranted : (v.requestVoteWith request (decide (v.logs_.lastIndex < 0))).2.voteGranted =
        true ↔ v.logs_.lastIndex < 0 := by
      by_cases hneg : v.logs_.lastIndex < 0
      · rw [decide_eq_true hneg,
          Raft.requestVoteWith_yes ((mayVote_candidate hreq hterm).mpr hfree)]
        simp [hneg]
      · rw [decide_eq_false hneg, Raft.requestVoteWith_no (.inr rfl)]
        simp [hneg]
    rw [heq]
    constructor
    · intro ⟨v', reply, h, hiff⟩
      have hreply := congrArg Prod.snd (Except.ok.inj h)
      simp only at hreply
      rw [← hreply, hgranted] at hiff
      exact .inl ⟨hfree, hne, hiff⟩
    · intro hcase
      rcases hcase with ⟨_, _, hiff⟩ | ⟨hnot, _⟩
      · exact ⟨_, _, rfl, hgranted.trans hiff⟩
      · exact absurd hfree hnot

/-- Equal logs whose only entry is at index -1: the vote is granted. -/
theorem vote_by_freshness_negative :
    ∃ v' reply, (freshNode 1 (-1) [0]).requestVote ⟨1, 0, 0, 0, 0⟩ = .ok (v', reply) ∧
      (reply.voteGranted = true ↔
        AtLeastAsUpToDate (freshNode 0 (-1) [1]).logs_ (freshNode 1 (-1) [0]).logs_) := by
  apply (vote_by_freshness_iff (freshNode 1 (-1) [0]) (freshNode 0 (-1) [1]) 1 ⟨1, 0, 0, 0, 0⟩
    (by decide) (by decide) (by decide)).mpr
  left
  exact ⟨by decide, by decide, by decide⟩

/-- Equal logs whose only entry is at index 1: the vote is refused. -/
theorem equal_log_refused :
    (1, ⟨1, 0, 0, 0, 0⟩) ∈ (freshNode 0 1 [1]).toCandidater.2 ∧
    AtLeastAsUpToDate (freshNode 0 1 [1]).logs_ (freshNode 1 1 [0]).logs_ ∧
    ¬ ∃ v' reply, (freshNode 1 1 [0]).requestVote ⟨1, 0, 0, 0, 0⟩ = .ok (v', reply) ∧
      (reply.voteGranted = true ↔
        AtLeastAsUpToDate (freshNode 0 1 [1]).logs_ (freshNode 1 1 [0]).logs_) := by
  have hfresh : AtLeastAsUpToDate (freshNode 0 1 [1]).logs_ (freshNode 1 1 [0]).logs_ := by decide
  refine ⟨by decide, hfresh, ?_⟩
  intro ⟨v', reply, hvote, hiff⟩
  have hrefused : (freshNode 1 1 [0]).requestVote ⟨1, 0, 0, 0, 0⟩ =
      .ok (freshNode 1 1 [0], ⟨0, false, 1⟩) := rfl
  have hreply := congrArg Prod.snd (Except.ok.inj (hrefused.symm.trans hvote))
  simp only at hreply
  rw [← hreply] at hiff
  cases hiff.mpr hfresh

end JNet

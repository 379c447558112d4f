import JNet.Net.TcpServer

/-! # The first data of an accepted connection

    `HandleAccept` sets the read callback after it has posted `Attach`, so an I/O
    loop may read from the connection first.  What a `HandleRead` takes from the
    socket it offers to the callback at its end, if there is one then; the
    kernel reports the descriptor again only when more arrives.
-/

namespace JNet

/-! ## What a read event takes and offers -/

namespace Connection

/-- The bytes the `read` calls with these results have stored. -/
def takenBy : List ReadResult → Bytes
  | .data bytes :: rest => if bytes.isEmpty then [] else bytes ++ takenBy rest
  | .eintr :: rest => takenBy rest
  | _ => []

variable {c : Connection} {callback : ReadCallback}

theorem offer_calls : (c.offer callback).calls =
    c.calls ++ (if c.readcb_ && !c.input_.isEmpty then [.read c.input_] else []) := by
  unfold offer
  split
  · cases callback.closes <;> rfl
  · simp

/-- `CleanUp` offers first and tells the state behind it. -/
theorem cleanUp_calls (c : Connection) (callback : ReadCallback) : ∃ states : List ConnState,
    (c.cleanUp callback).calls = (c.offer callback).calls ++ states.map .state := by
  unfold cleanUp
  dsimp only
  split
  · exact ⟨[(c.offer callback).toTcpConn.cleanUp.state_], rfl⟩
  · exact ⟨[], by simp⟩

/-- The loop offers what was in `input_` and what it took, at its end. -/
theorem readLoop_calls (callback : ReadCallback) (results : List ReadResult) (c : Connection) :
    ∃ states : List ConnState, (readLoop callback results c).calls = c.calls ++
      ((if c.readcb_ && !(c.input_ ++ takenBy results).isEmpty then
        [.read (c.input_ ++ takenBy results)] else []) ++ states.map .state) := by
  induction results generalizing c with
  | nil => exact ⟨[], by simp [readLoop, offer_calls, takenBy]⟩
  | cons result rest ih =>
    have hclean : ∃ states : List ConnState, (c.cleanUp callback).calls = c.calls ++
        ((if c.readcb_ && !c.input_.isEmpty then [.read c.input_] else []) ++
          states.map .state) := by
      obtain ⟨states, hstates⟩ := cleanUp_calls c callback
      exact ⟨states, by rw [hstates, offer_calls, List.append_assoc]⟩
    cases result with
    | data bytes =>
      by_cases hempty : bytes.isEmpty = true
      · simpa [readLoop, takenBy, hempty] using hclean
      · simp only [readLoop, takenBy, hempty]
        simpa using ih { c with input_ := c.input_ ++ bytes }
    | eintr => exact ih c
    | eagain => exact ⟨[], by simp [readLoop, offer_calls, takenBy]⟩
    | eof => simpa [readLoop, takenBy] using hclean
    | error errno => simpa [readLoop, takenBy] using hclean

theorem isSome_of_isOpen (hopen : c.isOpen = true) : c.channel_.isSome = true := by
  unfold isOpen at hopen
  cases hch : c.channel_ with
  | none => simp [hch] at hopen
  | some ch => rfl

theorem isOpen_connected : c.connected.isOpen = c.isOpen := by
  unfold isOpen connected
  cases c.channel_ <;> rfl

theorem isOpen_close : c.close.isOpen = false := by
  unfold isOpen close
  cases c.channel_ with
  | none => rfl
  | some ch =>
    unfold Channel.close
    by_cases hfd : ch.fd_ ≥ 0
    · simp [hfd]
    · simp only [Option.map_some, if_neg hfd, Option.any_some]
      simpa using hfd

theorem readAll_open (hopen : c.isOpen = true) (a : ReadAnswers) :
    c.readAll a = .ok (readLoop a.callback a.reads c) := by
  unfold isOpen at hopen
  unfold readAll
  cases hch : c.channel_ with
  | none => simp [hch] at hopen
  | some ch =>
    have hfd : ¬ ch.fd_ < 0 := by simpa [hch] using hopen
    simp only [if_neg hfd]

/-! ### The callback goes with the channel -/

/-- The callback is as before, or it was dropped with the channel. -/
def Keeps (c c' : Connection) : Prop :=
  c'.readcb_ = c.readcb_ ∨ (c'.readcb_ = false ∧ c'.isOpen = false)

theorem keeps_premises : HandlerPremises Keeps where
  quiet := fun _ _ hquiet => .inl hquiet.2
  offer := by
    intro c callback
    left
    unfold offer
    split
    · cases callback.closes <;> rfl
    · rfl
  cleanUp := fun _ _ => .inr ⟨rfl, rfl⟩
  after := by
    intro c d e hquiet hkeeps
    obtain hsame | hdropped := hkeeps
    · exact .inl (hsame.trans hquiet.2)
    · exact .inr hdropped

end Connection

namespace ReadEvent

/-- The bytes a read event on an open descriptor takes. -/
def taken (r : ReadEvent) : Bytes :=
  match r.conn.state_ with
  | .kHandShakeing =>
    if Connection.connects r.answers.poll then Connection.takenBy r.answers.reads else []
  | .kConnected => Connection.takenBy r.answers.reads
  | _ => []

/-- By its end the event has offered the bytes it took, behind those that were left. -/
def Offered (r : ReadEvent) : Prop :=
  r.taken = [] ∨ ∃ c' rest, r.conn.handleRead r.answers = .ok c' ∧
    c'.calls = r.conn.calls ++ .read (r.conn.input_ ++ r.taken) :: rest

/-- The event comes after `HandleAccept` has returned for the connection, or takes nothing. -/
def Late (r : ReadEvent) : Prop := r.early = false ∨ r.taken = []

/-- An event on an open descriptor calls back for what it took if a callback is set. -/
theorem handleRead_calls {r : ReadEvent} (hopen : r.conn.isOpen = true) (htaken : r.taken ≠ []) :
    ∃ c' states, r.conn.handleRead r.answers = .ok c' ∧ c'.calls = r.conn.calls ++
      ((if r.conn.readcb_ then [.read (r.conn.input_ ++ r.taken)] else []) ++
        List.map .state states) := by
  have hne : (r.conn.input_ ++ r.taken).isEmpty = false := by simp [htaken]
  unfold taken at htaken hne ⊢
  cases hstate : r.conn.state_ with
  | kHandShakeing =>
    simp only [hstate] at htaken hne ⊢
    cases hpoll : Connection.connects r.answers.poll with
    | false => simp [hpoll] at htaken
    | true =>
      simp only [hpoll, if_true] at hne ⊢
      -- The handshake succeeds and the loop follows in the same event.
      have hopen' : r.conn.connected.isOpen = true := by rw [Connection.isOpen_connected, hopen]
      obtain ⟨states, hcalls⟩ := Connection.readLoop_calls r.answers.callback
        r.answers.reads r.conn.connected
      refine ⟨_, states, (Connection.handleRead_connects hstate
        (Connection.isSome_of_isOpen hopen) hpoll).trans (Connection.readAll_open hopen' _), ?_⟩
      rw [hcalls]
      simp [Connection.connected, hne]
  | kConnected =>
    simp only [hstate] at hne ⊢
    obtain ⟨states, hcalls⟩ := Connection.readLoop_calls r.answers.callback
      r.answers.reads r.conn
    refine ⟨_, states, (Connection.handleRead_connected hstate).trans
      (Connection.readAll_open hopen _), ?_⟩
    rw [hcalls]
    simp [hne]
  | kInvalid => simp [hstate] at htaken
  | kClosed => simp [hstate] at htaken
  | kFailed => simp [hstate] at htaken

theorem offered_iff_late {r : ReadEvent} (hopen : r.conn.isOpen = true)
    (hcb : r.conn.readcb_ = !r.early) : r.Offered ↔ r.Late := by
  unfold Offered Late
  by_cases htaken : r.taken = []
  · simp [htaken]
  · obtain ⟨c', states, hok, hcalls⟩ := handleRead_calls hopen htaken
    rw [hcb] at hcalls
    simp only [htaken, false_or, or_false, hok]
    constructor
    · intro ⟨c'', rest, heq, hread⟩
      cases heq
      rw [hcalls] at hread
      have htail := List.append_cancel_left hread
      by_contra hearly
      -- Without a callback, only states follow.
      have hnone : ¬ (!r.early) = true := by simpa using hearly
      rw [if_neg hnone, List.nil_append] at htail
      cases states with
      | nil => cases htail
      | cons state states =>
        rw [List.map_cons] at htail
        cases htail
    · intro hearly
      have hset : (!r.early) = true := by simpa using hearly
      exact ⟨c', _, rfl, by rw [hcalls, if_pos hset]; rfl⟩

end ReadEvent

/-! ## All read events of a run -/

/-- The connections whose `Attach` is posted to loop `k`. -/
def TcpServer.posted (s : TcpServer) (k : Nat) : List Nat := (s.pending k).map Prod.fst

/-- An `Attach` is posted to the loop whose turn it is. -/
theorem TcpServer.posted_push (s : TcpServer) (i : Nat) (fd : Int) (k : Nat) :
    (Function.update s.pending s.next_ (s.pending s.next_ ++ [(i, fd)]) k).map Prod.fst =
      s.posted k ++ if k = s.next_ then [i] else [] := by
  by_cases hk : k = s.next_
  · subst hk
    simp [TcpServer.posted]
  · simp [TcpServer.posted, hk]

/-- In a server with a read callback a connection that is or can become open has one exactly
    when `HandleAccept` has returned. -/
structure CallbackInv (s : TcpServer) : Prop where
  server : s.readcb_ = true
  /-- Each `Attach` is posted once, for a connection that has no channel. -/
  nodup : ∀ k, (s.posted k).Nodup
  apart : ∀ k k' i, i ∈ s.posted k → i ∈ s.posted k' → k = k'
  waiting : ∀ k, ∀ i ∈ s.posted k, ∃ c, s.conn i = some c ∧ c.channel_ = none
  early : ∀ i c, s.conn i = some c → s.early i = true → c.readcb_ = false
  late : ∀ i c, s.conn i = some c → s.early i = false →
    c.readcb_ = true ∨ (c.isOpen = false ∧ ∀ k, i ∉ s.posted k)
  reads : ∀ r ∈ s.reads, r.conn.isOpen = true ∧ r.conn.readcb_ = !r.early

namespace CallbackInv

variable {s s' : TcpServer} {i : Nat} {c : Connection}

theorem not_posted (h : CallbackInv s) (hc : s.conn i = some c) (hlive : c.channel_.isSome = true)
    (k : Nat) : i ∉ s.posted k := by
  intro hi
  obtain ⟨c', hc', hnone⟩ := h.waiting k i hi
  rw [hc] at hc'
  cases hc'
  rw [hnone] at hlive
  cases hlive

/-- An open connection has a callback exactly when `HandleAccept` has returned. -/
theorem readcb_eq (h : CallbackInv s) (hc : s.conn i = some c) (hopen : c.isOpen = true) :
    c.readcb_ = !s.early i := by
  cases hearly : s.early i with
  | true => simpa using h.early i c hc hearly
  | false =>
    obtain hcb | ⟨hclosed, -⟩ := h.late i c hc hearly
    · simpa using hcb
    · rw [hopen] at hclosed
      cases hclosed

/-- A handler of a connection that has its channel. -/
theorem handled (h : CallbackInv s) {c' : Connection} (hc : s.conn i = some c)
    (hlive : c.channel_.isSome = true) (hkeeps : c.Keeps c')
    (hclosed : c.isOpen = false → c'.isOpen = false) : CallbackInv (s.handled i c c') := by
  have hposted := h.not_posted hc hlive
  refine ⟨h.server, h.nodup, h.apart, ?_, ?_, ?_, h.reads⟩
  · intro k j hj
    have hne : j ≠ i := fun heq => hposted k (heq ▸ hj)
    obtain ⟨d, hd, hnone⟩ := h.waiting k j hj
    exact ⟨d, (TcpServer.setConn_of_ne hne).trans hd, hnone⟩
  · intro j d hd hearly
    obtain ⟨rfl, rfl⟩ | ⟨-, hd⟩ := TcpServer.setConn_cases hd
    · obtain hsame | ⟨hfalse, -⟩ := hkeeps
      · rw [hsame]
        exact h.early j c hc hearly
      · exact hfalse
    · exact h.early j d hd hearly
  · intro j d hd hearly
    obtain ⟨rfl, rfl⟩ | ⟨-, hd⟩ := TcpServer.setConn_cases hd
    · obtain hsame | ⟨-, hopen⟩ := hkeeps
      · rw [hsame]
        exact (h.late j c hc hearly).imp_right fun ⟨hcl, hk⟩ => ⟨hclosed hcl, hk⟩
      · exact .inr ⟨hopen, hposted⟩
    · exact h.late j d hd hearly

/-- The accepting thread turns to a new connection, without a callback. -/
theorem accept (h : CallbackInv s) (hnone : s.accepting = none) (hfresh : s.conn i = none)
    (hcb : c.readcb_ = false) (hconn : s'.conn = (s.setConn i c).conn)
    (haccepting : s'.accepting = some (i, .onState)) (hserver : s'.readcb_ = s.readcb_)
    (hreads : s'.reads = s.reads) (hnodup : ∀ k, (s'.posted k).Nodup)
    (hapart : ∀ k k' j, j ∈ s'.posted k → j ∈ s'.posted k' → k = k')
    (hposted : ∀ k, ∀ j ∈ s'.posted k, j ∈ s.posted k ∨ (j = i ∧ c.channel_ = none)) :
    CallbackInv s' := by
  have hold : ∀ j, s.early j = false := by
    intro j
    unfold TcpServer.early
    rw [hnone]
    rfl
  have hnew : ∀ j, s'.early j = decide (i = j) := by
    intro j
    unfold TcpServer.early
    rw [haccepting]
    rfl
  refine ⟨hserver.trans h.server, hnodup, hapart, ?_, ?_, ?_, ?_⟩
  · intro k j hj
    rw [hconn]
    obtain hj | ⟨rfl, hch⟩ := hposted k j hj
    · obtain ⟨d, hd, hch⟩ := h.waiting k j hj
      have hne : j ≠ i := by
        intro heq
        rw [heq, hfresh] at hd
        cases hd
      exact ⟨d, (TcpServer.setConn_of_ne hne).trans hd, hch⟩
    · exact ⟨c, Function.update_self _ _ _, hch⟩
  · intro j d hd hearly
    rw [hnew, decide_eq_true_iff] at hearly
    rw [hconn] at hd
    obtain ⟨-, rfl⟩ | ⟨hne, -⟩ := TcpServer.setConn_cases hd
    · exact hcb
    · exact absurd hearly.symm hne
  · intro j d hd hearly
    rw [hnew, decide_eq_false_iff_not] at hearly
    rw [hconn] at hd
    obtain ⟨rfl, -⟩ | ⟨hne, hd⟩ := TcpServer.setConn_cases hd
    · exact absurd rfl hearly
    · refine (h.late j d hd (hold j)).imp_right fun ⟨hopen, hk⟩ => ⟨hopen, fun k hj => ?_⟩
      obtain hj | ⟨heq, -⟩ := hposted k j hj
      · exact hk k hj
      · exact hne heq
  · rw [hreads]
    exact h.reads

/-- `HandleAccept` up to the callbacks: `Attach` runs inline or is posted to the next loop. -/
theorem handleAccept (h : CallbackInv s) {loops : Nat} {fd : Int} (hnone : s.accepting = none)
    (hfresh : s.conn i = none) : CallbackInv (s.accept loops i fd) := by
  have hunposted : ∀ k, i ∉ s.posted k := by
    intro k hi
    obtain ⟨c, hc, -⟩ := h.waiting k i hi
    rw [hfresh] at hc
    cases hc
  unfold TcpServer.accept
  dsimp only
  split
  · exact h.accept (c := Connection.create.attachTo fd) hnone hfresh rfl rfl rfl rfl rfl
      h.nodup h.apart fun k j hj => .inl hj
  · have hmem : ∀ k j, j ∈ (Function.update s.pending s.next_
        (s.pending s.next_ ++ [(i, fd)]) k).map Prod.fst →
        j ∈ s.posted k ∨ (j = i ∧ k = s.next_) := by
      intro k j hj
      rw [s.posted_push] at hj
      obtain hj | hj := List.mem_append.mp hj
      · exact .inl hj
      · split at hj
        · next hk => exact .inr ⟨List.mem_singleton.mp hj, hk⟩
        · cases hj
    refine h.accept (c := Connection.create) hnone hfresh rfl rfl rfl rfl rfl ?_ ?_ ?_
    · intro k
      rw [TcpServer.posted, s.posted_push]
      split
      · rw [← List.concat_eq_append, List.nodup_concat]
        exact ⟨hunposted k, h.nodup k⟩
      · simpa using h.nodup k
    · intro k k' j hj hj'
      -- The new one is posted to the loop chosen now, and to no other.
      obtain hold | ⟨rfl, hk⟩ := hmem k j hj
      · obtain hold' | ⟨rfl, -⟩ := hmem k' j hj'
        · exact h.apart k k' j hold hold'
        · exact absurd hold (hunposted k)
      · obtain hold' | ⟨-, hk'⟩ := hmem k' j hj'
        · exact absurd hold' (hunposted k')
        · rw [hk, hk']
    · intro k j hj
      exact (hmem k j hj).imp_right fun hnew => ⟨hnew.1, rfl⟩

/-- `Attach` keeps the callbacks. -/
theorem attach (h : CallbackInv s) {k : Nat} {fd : Int} {rest : List (Nat × Int)}
    (hpending : s.pending k = (i, fd) :: rest) (hc : s.conn i = some c) :
    CallbackInv { s.setConn i (c.attachTo fd) with
      pending := Function.update s.pending k rest } := by
  have hhead : s.posted k = i :: rest.map Prod.fst := by
    unfold TcpServer.posted
    rw [hpending]
    rfl
  have hposted : ∀ k' j, j ∈ (Function.update s.pending k rest k').map Prod.fst →
      j ∈ s.posted k' ∧ j ≠ i := by
    intro k' j hj
    have hnodup := h.nodup k
    rw [hhead, List.nodup_cons] at hnodup
    by_cases hk : k' = k
    · subst hk
      rw [Function.update_self] at hj
      refine ⟨by rw [hhead]; exact List.mem_cons_of_mem _ hj, ?_⟩
      intro heq
      exact hnodup.1 (heq ▸ hj)
    · rw [Function.update_of_ne hk] at hj
      refine ⟨hj, ?_⟩
      intro heq
      exact hk (h.apart k' k i (heq ▸ hj) (by rw [hhead]; simp))
  have hi : i ∈ s.posted k := by rw [hhead]; simp
  refine ⟨h.server, ?_, ?_, ?_, ?_, ?_, h.reads⟩
  · intro k'
    unfold TcpServer.posted
    dsimp only
    by_cases hk : k' = k
    · subst hk
      have hnodup := h.nodup k'
      rw [hhead, List.nodup_cons] at hnodup
      rw [Function.update_self]
      exact hnodup.2
    · rw [Function.update_of_ne hk]
      exact h.nodup k'
  · intro k₁ k₂ j h₁ h₂
    exact h.apart k₁ k₂ j (hposted k₁ j h₁).1 (hposted k₂ j h₂).1
  · intro k' j hj
    obtain ⟨hj, hne⟩ := hposted k' j hj
    obtain ⟨d, hd, hch⟩ := h.waiting k' j hj
    exact ⟨d, (TcpServer.setConn_of_ne hne).trans hd, hch⟩
  · intro j d hd hearly
    obtain ⟨rfl, rfl⟩ | ⟨-, hd⟩ := TcpServer.setConn_cases hd
    · exact h.early j c hc hearly
    · exact h.early j d hd hearly
  · intro j d hd hearly
    obtain ⟨rfl, rfl⟩ | ⟨-, hd⟩ := TcpServer.setConn_cases hd
    · -- The callback is set: it cannot have been dropped before there was a channel.
      obtain hcb | ⟨-, hk⟩ := h.late j c hc hearly
      · exact .inl hcb
      · exact absurd hi (hk k)
    · refine (h.late j d hd hearly).imp_right fun ⟨hopen, hk⟩ => ⟨hopen, fun k' hj => ?_⟩
      exact hk k' (hposted k' j hj).1

/-- The accepting thread goes on with connection `i`: it sets a callback of it. -/
theorem setCallback (h : CallbackInv s) {c' : Connection} {pc : AcceptPc}
    {next : Option (Nat × AcceptPc)} (haccepting : s.accepting = some (i, pc))
    (hc : s.conn i = some c) (hch : c'.channel_ = c.channel_)
    (hnext : (next = none ∧ c'.readcb_ = true) ∨
      (next = some (i, .onRead) ∧ c'.readcb_ = c.readcb_)) :
    CallbackInv { s.setConn i c' with accepting := next } := by
  have hearly : ∀ j, s.early j = decide (i = j) := by
    intro j
    unfold TcpServer.early
    rw [haccepting]
    rfl
  refine ⟨h.server, h.nodup, h.apart, ?_, ?_, ?_, h.reads⟩
  · intro k j hj
    by_cases hne : j = i
    · subst hne
      obtain ⟨d, hd, hnone⟩ := h.waiting k j hj
      rw [hc] at hd
      cases hd
      exact ⟨c', Function.update_self _ _ _, hch.trans hnone⟩
    · obtain ⟨d, hd, hnone⟩ := h.waiting k j hj
      exact ⟨d, (TcpServer.setConn_of_ne hne).trans hd, hnone⟩
  -- `OnRead` is the last one: nobody is early any more.
  · intro j d hd hj
    obtain ⟨hnone, -⟩ | ⟨hsome, hsame⟩ := hnext
    · rw [hnone] at hj
      cases hj
    · obtain ⟨rfl, rfl⟩ | ⟨hne, -⟩ := TcpServer.setConn_cases hd
      · rw [hsame]
        exact h.early j c hc (by rw [hearly]; simp)
      · rw [hsome] at hj
        exact absurd (of_decide_eq_true hj).symm hne
  · intro j d hd hj
    obtain ⟨rfl, rfl⟩ | ⟨hne, hd⟩ := TcpServer.setConn_cases hd
    · obtain ⟨-, hset⟩ | ⟨hsome, -⟩ := hnext
      · exact .inl hset
      · rw [hsome] at hj
        exact absurd rfl (of_decide_eq_false hj)
    · exact h.late j d hd (by rw [hearly]; exact decide_eq_false fun heq => hne heq.symm)

end CallbackInv

theorem callbackInv_initial (loops : Nat) (statecb_ : Bool) (s : TcpServer)
    (h : (serverSystem loops statecb_ true).init s) : CallbackInv s := by
  rw [show s = TcpServer.create statecb_ true from h]
  constructor <;> simp [TcpServer.create, TcpServer.posted]

theorem callbackInv_preserved {loops : Nat} {statecb_ : Bool} (s : TcpServer)
    (l : ServerLabel) (s' : TcpServer) (h : CallbackInv s)
    (hstep : (serverSystem loops statecb_ true).step s l s') : CallbackInv s' := by
  cases l with
  | accept i fd =>
    obtain ⟨hnone, hfresh, -, rfl⟩ := hstep
    exact h.handleAccept hnone hfresh
  | onState =>
    obtain ⟨i, c, haccepting, hc, rfl⟩ := hstep
    exact h.setCallback haccepting hc rfl (.inr ⟨rfl, rfl⟩)
  | onRead =>
    obtain ⟨i, c, haccepting, hc, rfl⟩ := hstep
    exact h.setCallback haccepting hc rfl (.inl ⟨rfl, by simp [h.server]⟩)
  | attach k =>
    obtain ⟨i, fd, rest, c, hpending, hc, rfl⟩ := hstep
    exact h.attach hpending hc
  | read i a =>
    obtain ⟨-, c, c', hc, hopen, hok, rfl⟩ := hstep
    have hhandled : CallbackInv (s.handled i c c') :=
      h.handled hc (Connection.isSome_of_isOpen hopen) (Connection.keeps_premises.handleRead hok)
        (by simp [hopen])
    refine { hhandled with reads := ?_ }
    intro r hr
    obtain hr | hr := List.mem_append.mp hr
    · exact h.reads r hr
    · rw [List.mem_singleton.mp hr]
      exact ⟨hopen, h.readcb_eq hc hopen⟩
  | write i a =>
    obtain ⟨-, c, c', hc, hopen, hok, rfl⟩ := hstep
    exact h.handled hc (Connection.isSome_of_isOpen hopen)
      (Connection.keeps_premises.handleWrite hok) (by simp [hopen])
  | close i =>
    obtain ⟨-, c, hc, hlive, rfl⟩ := hstep
    exact h.handled hc hlive (.inl rfl) fun _ => Connection.isOpen_close

/-- Without I/O threads no event is handled while `HandleAccept` runs. -/
theorem reads_late (statecb_ : Bool) (s : TcpServer)
    (hs : (serverSystem 0 statecb_ true).Reachable s) : ∀ r ∈ s.reads, r.Late := by
  refine LTS.System.invariant (P := fun s => ∀ r ∈ s.reads, r.Late) ?_ ?_ s hs
  · intro s hinit
    rw [show s = TcpServer.create statecb_ true from hinit]
    simp [TcpServer.create]
  · intro s l s' h hstep
    cases l with
    | accept i fd =>
      obtain ⟨-, -, -, rfl⟩ := hstep
      exact h
    | onState =>
      obtain ⟨i, c, -, -, rfl⟩ := hstep
      exact h
    | onRead =>
      obtain ⟨i, c, -, -, rfl⟩ := hstep
      exact h
    | attach k =>
      obtain ⟨i, fd, rest, c, -, -, rfl⟩ := hstep
      exact h
    | read i a =>
      obtain ⟨hnone, c, c', -, -, -, rfl⟩ := hstep
      intro r hr
      obtain hr | hr := List.mem_append.mp hr
      · exact h r hr
      · rw [List.mem_singleton.mp hr]
        refine .inl ?_
        unfold TcpServer.early
        rw [hnone rfl]
        rfl
    | write i a =>
      obtain ⟨-, c, c', -, -, -, rfl⟩ := hstep
      exact h
    | close i =>
      obtain ⟨-, c, -, -, rfl⟩ := hstep
      exact h

theorem offered_iff_all_late {loops : Nat} {statecb_ : Bool} {s : TcpServer}
    (hs : (serverSystem loops statecb_ true).Reachable s) :
    (∀ r ∈ s.reads, r.Offered) ↔ ∀ r ∈ s.reads, r.Late := by
  have h := LTS.System.invariant (callbackInv_initial loops statecb_) callbackInv_preserved s hs
  have hiff : ∀ r ∈ s.reads, (r.Offered ↔ r.Late) := by
    intro r hr
    obtain ⟨hopen, hcb⟩ := h.reads r hr
    exact ReadEvent.offered_iff_late hopen hcb
  constructor
  · intro hoffered r hr
    exact (hiff r hr).mp (hoffered r hr)
  · intro hlate r hr
    exact (hiff r hr).mpr (hlate r hr)

/-- The kernel has connected the socket and one byte is there. -/
def firstByte : ReadAnswers := ⟨⟨1, POLLOUT⟩, [.data [97], .eagain], ⟨1, false⟩⟩

/-- With an I/O thread, `Attach` and the first read event may come before the callbacks. -/
theorem early_read {loops : Nat} (statecb_ : Bool) (hloops : loops ≠ 0) :
    ∃ s, (serverSystem loops statecb_ true).Reachable s ∧ ∃ r ∈ s.reads, ¬ r.Late := by
  have h0 : (serverSystem loops statecb_ true).Reachable (.create statecb_ true) := .start rfl
  have h1 := h0.next (.accept 0 5) (by exact ⟨rfl, rfl, by decide, rfl⟩)
  rw [show (TcpServer.create statecb_ true).accept loops 0 5 =
    { (TcpServer.create statecb_ true).setConn 0 Connection.create with
      conns_ := [0]
      accepting := some (0, .onState)
      next_ := if 0 + 1 ≥ loops then 0 else 0 + 1
      pending := Function.update (fun _ => []) 0 [(0, 5)] } from if_neg hloops] at h1
  have h2 := h1.next (.attach 0) (by exact ⟨0, 5, [], _, rfl, rfl, rfl⟩)
  have h3 := h2.next (.read 0 firstByte)
    (by exact ⟨fun h => absurd h hloops, _, _, rfl, rfl, rfl, rfl⟩)
  refine ⟨_, h3, _, List.mem_append_right _ (List.mem_singleton.mpr rfl), ?_⟩
  intro hlate
  obtain hearly | htaken := hlate
  · cases hearly
  · exact absurd (show ([97] : Bytes) = [] from htaken) (by decide)

/-- **First data**: what the read events of a run take is offered to the read callback by
    their ends exactly when each of those that take anything comes after `HandleAccept` has
    returned for its connection; all runs have this exactly when there are no I/O threads. -/
theorem first_data_iff (loops : Nat) (statecb_ : Bool) :
    (∀ s, (serverSystem loops statecb_ true).Reachable s →
      ((∀ r ∈ s.reads, r.Offered) ↔ ∀ r ∈ s.reads, r.Late)) ∧
    ((∀ s, (serverSystem loops statecb_ true).Reachable s → ∀ r ∈ s.reads, r.Offered) ↔
      loops = 0) := by
  refine ⟨fun s hs => offered_iff_all_late hs, ?_⟩
  constructor
  · intro hall
    by_contra hloops
    obtain ⟨s, hs, r, hr, hnot⟩ := early_read statecb_ hloops
    exact hnot ((offered_iff_all_late hs).mp (hall s hs) r hr)
  · intro hzero s hs
    subst hzero
    exact (offered_iff_all_late hs).mpr (reads_late statecb_ s hs)

/-- One I/O thread, and a byte that it reads while the accepting thread is about to set the
    callbacks. -/
theorem first_data_lost :
    ¬ ∀ (loops : Nat) (statecb_ : Bool) (s : TcpServer),
      (serverSystem loops statecb_ true).Reachable s → ∀ r ∈ s.reads, r.Offered := by
  intro hall
  obtain ⟨s, hs, r, hr, hnot⟩ := early_read true Nat.one_ne_zero
  exact hnot ((offered_iff_all_late hs).mp (hall 1 true s hs) r hr)

end JNet

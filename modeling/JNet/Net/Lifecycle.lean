import JNet.Net.Connection

/-! # The life cycle of a connection

    From `Attach` or `Connect` on, read and write events and the connect timeout
    drive a connection through its states.  Events arrive while its descriptor
    is open; `shaken` remembers that a handshake has succeeded.
-/

namespace JNet

/-! ## Runs -/

/-- What may happen to a connection. -/
inductive ConnInput where
  | read (a : ReadAnswers)
  | write (a : WriteAnswers)
  /-- The timer that `Connect` has set. -/
  | timeout
  deriving DecidableEq, Repr

structure Life where
  conn : Connection
  /-- A handshake has succeeded. -/
  shaken : Bool
  deriving DecidableEq, Repr

namespace Life

/-- After `Attach`, or `Connect`, which ends with it. -/
def start (fd : Int) (readcb_ : Bool) : Life where
  conn := Connection.attach fd readcb_ true
  shaken := false

/-- The channel is there, its descriptor open and registered. -/
def isOpen (l : Life) : Bool := l.conn.channel_.any (·.fd_ ≥ 0)

/-- A poll with this result completes a handshake. -/
def shakes (l : Life) (p : PollResult) : Bool :=
  l.shaken || (l.conn.state_ == .kHandShakeing && Connection.connects p)

/-- Once the descriptor is closed, no event arrives any more. -/
def step (l : Life) (input : ConnInput) : Except ConnFault Life :=
  if l.isOpen then
    match input with
    | .read a => do
      let conn ← l.conn.handleRead a
      return { conn, shaken := l.shakes a.poll }
    | .write a => do
      let conn ← l.conn.handleWrite a
      return { conn, shaken := l.shakes a.poll }
    | .timeout =>
      -- The channel is closed; nothing else changes.
      if l.conn.state_ = .kHandShakeing then .ok { l with conn := l.conn.close } else .ok l
  else .ok l

/-- The states the application was told of. -/
def told (l : Life) : List ConnState :=
  l.conn.calls.filterMap fun
    | .state s => some s
    | .read _ => none

/-- The final state of a connection that has ended. -/
def final (l : Life) : ConnState := if l.shaken then .kClosed else .kFailed

/-- The application was told of `kConnected` and of the final state, each once and when it was
    entered, and the final state is right. -/
structure Ok (l : Life) : Prop where
  told : l.told = (if l.shaken then [.kConnected] else []) ++ (if l.isOpen then [] else [l.final])
  final : l.isOpen = false → l.conn.state_ = l.final

end Life

/-! ## The state callback is never called for `kConnected` -/

namespace Connection

/-- No call of the state callback has found the state `kConnected`. -/
def Mute (c : Connection) : Prop := ConnCall.state .kConnected ∉ c.calls

variable {c : Connection} {callback : ReadCallback}

theorem Mute.record (h : c.Mute) {call : ConnCall} (hcall : call ≠ .state .kConnected) :
    (c.record call).Mute := by
  intro hmem
  obtain hmem | hmem := List.mem_append.mp hmem
  · exact h hmem
  · exact hcall (List.mem_singleton.mp hmem).symm

theorem Mute.offer (h : c.Mute) : (c.offer callback).Mute := by
  unfold Connection.offer
  split
  · have hrecord : (c.record (.read c.input_)).Mute := h.record (by simp)
    dsimp only
    split
    · exact hrecord
    · exact hrecord
  · exact h

theorem Mute.cleanUp (h : c.Mute) : (c.cleanUp callback).Mute := by
  unfold Connection.cleanUp
  dsimp only
  split
  · -- The state is `kFailed` or `kClosed` by now.
    have hoffer : (c.offer callback).Mute := h.offer
    refine hoffer.record ?_
    unfold TcpConn.cleanUp
    dsimp only
    split <;> simp
  · exact h.offer

theorem mute_premises : HandlerPremises fun c c' => c.Mute → c'.Mute where
  quiet := by
    intro c c' hquiet h
    unfold Mute
    rw [hquiet.1]
    exact h
  offer := fun _ _ h => h.offer
  cleanUp := fun _ _ h => h.cleanUp
  after := by
    intro c d e hquiet hnext h
    refine hnext ?_
    unfold Mute
    rw [hquiet.1]
    exact h

end Connection

/-! ## Behind the first event -/

namespace Life

/-- The connection is connected without the application knowing, or it has ended and the
    application was not told of a failure. -/
structure Silent (l : Life) : Prop where
  mute : l.conn.Mute
  missed : l.shaken = true ∨ (l.isOpen = false ∧ ConnState.kFailed ∉ l.told)

variable {l l' : Life}

theorem Silent.not_ok (h : l.Silent) : ¬ l.Ok := by
  intro hok
  have htold := hok.told
  cases hshaken : l.shaken with
  | true =>
    have hmem : ConnState.kConnected ∈ l.told := by simp [htold, hshaken]
    obtain ⟨call, hcall, hsome⟩ := List.mem_filterMap.mp hmem
    cases call with
    | read seen => cases hsome
    | state s =>
      cases hsome
      exact h.mute hcall
  | false =>
    -- It has ended without a handshake, and was not told of `kFailed`.
    obtain ⟨hclosed, hfailed⟩ := h.missed.resolve_left (by simp [hshaken])
    exact hfailed (by simp [htold, hshaken, hclosed, Life.final])

/-- What an event does on an open descriptor. -/
theorem step_cases {input : ConnInput} (hopen : l.isOpen = true) (hstep : l.step input = .ok l') :
    (∃ a, input = .read a ∧ l.conn.handleRead a = .ok l'.conn ∧ l'.shaken = l.shakes a.poll) ∨
    (∃ a, input = .write a ∧ l.conn.handleWrite a = .ok l'.conn ∧ l'.shaken = l.shakes a.poll) ∨
    (input = .timeout ∧ l.conn.state_ = .kHandShakeing ∧ l' = { l with conn := l.conn.close }) ∨
    (input = .timeout ∧ l.conn.state_ ≠ .kHandShakeing ∧ l' = l) := by
  unfold step at hstep
  rw [if_pos hopen] at hstep
  cases input with
  | read a =>
    left
    cases hread : l.conn.handleRead a with
    | error f => simp [hread, bind, Except.bind] at hstep
    | ok conn =>
      simp only [hread, bind, Except.bind, pure, Except.pure] at hstep
      cases hstep
      exact ⟨a, rfl, hread, rfl⟩
  | write a =>
    right; left
    cases hwrite : l.conn.handleWrite a with
    | error f => simp [hwrite, bind, Except.bind] at hstep
    | ok conn =>
      simp only [hwrite, bind, Except.bind, pure, Except.pure] at hstep
      cases hstep
      exact ⟨a, rfl, hwrite, rfl⟩
  | timeout =>
    right; right
    by_cases hstate : l.conn.state_ = .kHandShakeing
    · simp only [hstate, if_true] at hstep
      cases hstep
      exact .inl ⟨rfl, hstate, rfl⟩
    · simp only [hstate, if_false] at hstep
      cases hstep
      exact .inr ⟨rfl, hstate, rfl⟩

theorem mute_step {input : ConnInput} (h : l.conn.Mute) (hopen : l.isOpen = true)
    (hstep : l.step input = .ok l') : l'.conn.Mute := by
  obtain ⟨a, -, hread, -⟩ | ⟨a, -, hwrite, -⟩ | ⟨-, -, rfl⟩ | ⟨-, -, rfl⟩ := step_cases hopen hstep
  · exact Connection.mute_premises.handleRead hread h
  · exact Connection.mute_premises.handleWrite hwrite h
  · exact h
  · exact h

/-- Once behind, always behind. -/
theorem Silent.step {input : ConnInput} (h : l.Silent) (hstep : l.step input = .ok l') :
    l'.Silent := by
  cases hopen : l.isOpen with
  | true =>
    have hshaken : l.shaken = true := h.missed.resolve_right (by simp [hopen])
    -- `shaken` is never taken back.
    refine ⟨mute_step h.mute hopen hstep, .inl ?_⟩
    obtain ⟨a, -, -, heq⟩ | ⟨a, -, -, heq⟩ | ⟨-, -, rfl⟩ | ⟨-, -, rfl⟩ := step_cases hopen hstep
    · simp [heq, shakes, hshaken]
    · simp [heq, shakes, hshaken]
    · exact hshaken
    · exact hshaken
  | false =>
    unfold Life.step at hstep
    rw [if_neg (by simp [hopen])] at hstep
    cases hstep
    exact h

/-- A handshake that fails is reported as `kClosed`. -/
theorem calls_refused (fd : Int) (readcb_ : Bool) (callback : ReadCallback) :
    ((start fd readcb_).conn.refused callback).calls = [.state .kClosed] := by
  cases readcb_ <;> rfl

/-- The first event leaves the application behind, whichever it is. -/
theorem silent_first {fd : Int} (hfd : 0 ≤ fd) {readcb_ : Bool} {input : ConnInput}
    (hstep : (start fd readcb_).step input = .ok l) : l.Silent := by
  have hopen : (start fd readcb_).isOpen = true := by
    simpa [isOpen, start, Connection.attach, TcpConn.attach] using hfd
  have hlive : (start fd readcb_).conn.channel_.isSome = true := rfl
  have hstate : (start fd readcb_).conn.state_ = .kHandShakeing := rfl
  have hmute : (start fd readcb_).conn.Mute := List.not_mem_nil
  -- A failed handshake, in a read or a write event.
  have hrefused : ∀ callback, l.conn = (start fd readcb_).conn.refused callback →
      l.isOpen = false ∧ ConnState.kFailed ∉ l.told := by
    intro callback heq
    constructor
    · simp [isOpen, heq, Connection.refused]
    · simp [told, heq, calls_refused]
  refine ⟨mute_step hmute hopen hstep, ?_⟩
  obtain ⟨a, -, hread, heq⟩ | ⟨a, -, hwrite, heq⟩ | ⟨-, -, rfl⟩ | ⟨-, hne, -⟩ :=
    step_cases hopen hstep
  · cases hpoll : Connection.connects a.poll with
    | true => exact .inl (by rw [heq, shakes, hstate, hpoll]; rfl)
    | false =>
      rw [Connection.handleRead_refused hstate hlive hpoll] at hread
      exact .inr (hrefused a.callback (Except.ok.inj hread).symm)
  · cases hpoll : Connection.connects a.poll with
    | true => exact .inl (by rw [heq, shakes, hstate, hpoll]; rfl)
    | false =>
      rw [Connection.handleWrite_refused hstate hlive hpoll] at hwrite
      exact .inr (hrefused a.callback (Except.ok.inj hwrite).symm)
  · right
    constructor
    · simp [isOpen, start, Connection.attach, TcpConn.attach, Connection.close, Channel.close, hfd]
    · exact List.not_mem_nil
  · exact absurd hstate hne

end Life

/-! ## Main theorem -/

/-- A connection meets its life cycle only until its first event. -/
theorem lifecycle_ok_iff (fd : Int) (hfd : 0 ≤ fd) (readcb_ : Bool) (inputs : List ConnInput)
    (l : Life) (hrun : LTS.run Life.step (Life.start fd readcb_) inputs = .ok l) :
    l.Ok ↔ inputs = [] := by
  cases inputs with
  | nil =>
    cases hrun
    have hopen : (Life.start fd readcb_).isOpen = true := by
      simpa [Life.isOpen, Life.start, Connection.attach, TcpConn.attach] using hfd
    refine ⟨fun _ => rfl, fun _ => ⟨?_, ?_⟩⟩
    · rw [if_pos hopen]
      rfl
    · simp [hopen]
  | cons input inputs =>
    rw [LTS.run_cons] at hrun
    cases hfirst : (Life.start fd readcb_).step input with
    | error f =>
      rw [hfirst] at hrun
      cases hrun
    | ok l₁ =>
      rw [hfirst] at hrun
      have hsilent := LTS.run_invariant (fun s i s' h hstep => Life.Silent.step h hstep) inputs l₁ l
        (Life.silent_first hfd hfirst) hrun
      simpa using hsilent.not_ok

/-- A handshake that succeeds, and data behind it. -/
def shakenRead : List ConnInput :=
  [.write ⟨⟨1, POLLOUT⟩, [], ⟨0, false⟩⟩, .read ⟨⟨1, POLLIN⟩, [.data [104], .eagain], ⟨1, false⟩⟩]

/-- It is met before the first event, and no more once the connection is established. -/
theorem lifecycle_ok_established :
    (∃ l, LTS.run Life.step (Life.start 5 true) [] = .ok l ∧ l.Ok) ∧
    ∃ l, LTS.run Life.step (Life.start 5 true) shakenRead = .ok l ∧
      l.conn.state_ = .kConnected ∧ l.conn.calls = [.read [104]] ∧ ¬ l.Ok := by
  constructor
  · exact ⟨_, rfl, (lifecycle_ok_iff 5 (by decide) true [] _ rfl).mpr rfl⟩
  · refine ⟨_, rfl, rfl, rfl, ?_⟩
    intro hok
    have hnone := (lifecycle_ok_iff 5 (by decide) true shakenRead _ rfl).mp hok
    cases hnone

/-- The handshake of a connection fails: its final state is `kClosed`. -/
theorem lifecycle_refused :
    ¬ ∀ (fd : Int) (readcb_ : Bool) (inputs : List ConnInput) (l : Life), 0 ≤ fd →
      LTS.run Life.step (Life.start fd readcb_) inputs = .ok l → l.Ok := by
  intro hall
  have hok := hall 5 true [.write ⟨⟨1, POLLOUT ||| POLLERR⟩, [], ⟨0, false⟩⟩] _ (by decide) rfl
  exact absurd (hok.final rfl) (by decide)

end JNet

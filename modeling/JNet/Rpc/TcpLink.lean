import JNet.Net.TcpInput
import JNet.Net.TcpOutput
import JNet.Rpc.RpcSession

/-! # The codec over two connections

    `ProtobufCodec` on top of both sides of `TcpConn`: one end fills a buffer with
    the frame of a message and hands it to `Send(Buffer&)`, the other one has
    `OnMessage` as its read callback.  What the kernel takes of a `write`, when it
    reports events, and in which pieces it hands the bytes over is up to the
    environment.

    At every moment the frames of the messages sent are in four places: handed
    over, in `input_` of the receiver, with the kernels, and in `output_` of the
    sender.
-/

namespace JNet

open Memory InputEvent

/-! ## State and steps -/

structure TcpLink (Msg : Type) where
  sender : TcpConn
  sent : List Msg
  receiver : TcpInput
  got : List Msg

inductive TcpLinkLabel (Msg : Type) where
  /-- `ProtobufCodec::Send`. -/
  | send (m : Msg) (results : List WriteResult)
  /-- A write event at the sender. -/
  | handleWrite (p : PollResult) (results : List WriteResult)
  /-- A read event at the receiver. -/
  | handleRead
  /-- A round of the loop of `HandleRead`. -/
  | read (result : ReadResult)

/-- After these results `HandleRead` leaves its loop, by way of the read callback. -/
def ReadResult.ends : ReadResult → Bool
  | .data _ => false
  | .eintr => false
  | _ => true

namespace TcpLink

variable {Msg : Type}

/-- `OnMessage` as the read callback: how much of the input it consumes, and the
    messages it hands over.  It is not called for an empty input. -/
def onInput (pb : Protobuf Msg) (result : ReadResult) (input : Buffer) :
    Except Fault (Nat × List Msg) :=
  if result.ends = true ∧ input.getSize ≠ 0 then do
    let seen := input.contents.map (·.getD 0)
    let (rest, got) ← ProtobufCodec.onMessage pb seen
    return (seen.length - rest.length, got)
  else .ok (0, [])

/-- A round of the loop of `HandleRead`, with the codec behind its callback. -/
def read (pb : Protobuf Msg) (s : TcpLink Msg) (result : ReadResult) :
    Except Fault (TcpLink Msg) := do
  let input ← s.receiver.input_.makeRoomSuggested
  let (len, got) ← onInput pb result input
  let receiver ← s.receiver.readOnce result len
  return { s with receiver := receiver, got := s.got ++ got }

theorem read_eq {pb : Protobuf Msg} {s : TcpLink Msg} {result : ReadResult} {input : Buffer}
    {len : Nat} {got : List Msg} {receiver : TcpInput}
    (hroom : s.receiver.input_.makeRoomSuggested = .ok input)
    (hcall : onInput pb result input = .ok (len, got))
    (honce : s.receiver.readOnce result len = .ok receiver) :
    s.read pb result = .ok { s with receiver := receiver, got := s.got ++ got } := by
  rw [read, bind_of_ok hroom, bind_of_ok hcall]
  exact bind_of_ok honce _

/-- The `read` of a round goes into the log of the receiver. -/
def noteRead (s : TcpLink Msg) (result : ReadResult) : TcpLink Msg :=
  { s with receiver := s.receiver.noteRead result }

/-- What the kernel may answer in a round.  It hands over the bytes on the wire in
    order, and the codec can read what its callback finds. -/
structure Admits (s : TcpLink Msg) (result : ReadResult) : Prop where
  reading : s.receiver.reading = true
  order : received s.receiver.log ++ result.bytes <+: s.sender.wire
  fits : ∀ input, s.receiver.input_.makeRoomSuggested = .ok input →
    input.cap_ < 2 ^ 63 ∧ result.Fits input.getSpace
  readable : result.ends = true → s.receiver.input_.getSize ≠ 0 →
    FrameReadable (s.receiver.input_.contents.map (·.getD 0))

/-- The bytes with the kernels. -/
def inFlight (s : TcpLink Msg) : Bytes := s.sender.wire.drop (received s.receiver.log).length

/-- The bytes in `input_` of the receiver. -/
def buffered (s : TcpLink Msg) : Bytes := s.receiver.input_.contents.map (·.getD 0)

end TcpLink

/-- A connection from its handshake on, and the other end of it. -/
def tcpLinkSystem {Msg : Type} (pb : Protobuf Msg) (fd : Int) :
    LTS.System (TcpLink Msg) (TcpLinkLabel Msg) where
  init := fun s =>
    s.sender = TcpConn.attach fd ∧ s.sent = [] ∧ inputSystem.init s.receiver ∧ s.got = []
  step := fun s l s' =>
    match l with
    | .send m rs =>
        Sendable pb m ∧ (∀ r ∈ rs, r.isRegular) ∧
        ∃ buf sender, ProtobufCodec.fillEmptyBuffer pb m {} = .ok buf ∧
          (OutEvent.sendBuffer (buf.contents.map (·.getD 0)) rs).exec s.sender = some sender ∧
          s' = { s with sender := sender, sent := s.sent ++ [m] }
    | .handleWrite p rs =>
        (∀ r ∈ rs, r.isRegular) ∧
        ∃ sender, (OutEvent.handleWrite p rs).exec s.sender = some sender ∧
          s' = { s with sender := sender }
    | .handleRead =>
        ∃ receiver, inputSystem.step s.receiver .handleRead receiver ∧
          s' = { s with receiver := receiver }
    | .read result => s.Admits result ∧ (s.noteRead result).read pb result = .ok s'

/-! ## The invariant -/

namespace ProtobufCodec

variable {Msg : Type}

theorem stream_append (pb : Protobuf Msg) (ms ms' : List Msg) :
    stream pb (ms ++ ms') = stream pb ms ++ stream pb ms' := by
  simp [stream]

/-- Frames are not empty. -/
theorem eq_nil_of_stream {pb : Protobuf Msg} {ms : List Msg} (h : stream pb ms = []) : ms = [] := by
  cases ms with
  | nil => rfl
  | cons m ms =>
    have := congrArg List.length h
    simp only [stream, List.map_cons, List.flatten_cons, List.length_append, length_frame,
      List.length_nil] at this
    omega

end ProtobufCodec

/-- What is known of a link, `rest` being the messages not handed over yet. -/
structure TcpLinkInv {Msg : Type} (pb : Protobuf Msg) (s : TcpLink Msg) (rest : List Msg) :
    Prop where
  output : OutputInv (s.sender, ProtobufCodec.stream pb s.sent)
  /-- A failed handshake has ended the channel. -/
  dead : ¬ s.sender.Live → s.sender.channel_ = none
  wire : s.sender.wire <+: ProtobufCodec.stream pb s.sent
  input : InputInv s.receiver
  order : received s.receiver.log <+: s.sender.wire
  sent : s.sent = s.got ++ rest
  consumed : consumed s.receiver.log = (ProtobufCodec.stream pb s.got).length
  sends : ∀ m ∈ rest, Sendable pb m

/-! ## What a round of `HandleRead` does to the log -/

section log

variable {c c' : TcpInput} {len : Nat}

/-- Bytes are consumed only where the callback is called. -/
theorem consumed_offer (hcb : c.readcb_ = true) (hlen : c.input_.getSize = 0 → len = 0) :
    consumed (c.offer len).log = consumed c.log + len := by
  by_cases hzero : c.input_.getSize = 0
  · rw [TcpInput.offer, if_neg (by simp [hzero]), hlen hzero]
    rfl
  · rw [TcpInput.offer, if_pos ⟨hcb, hzero⟩]
    exact consumed_callback _ _ _ _

/-- Taking up the result of a `read` receives nothing more, and consumes what the callback
    does. -/
theorem handleResult_log {result : ReadResult} (hcb : c.readcb_ = true)
    (hlen : c.input_.getSize = 0 → len = 0) (hcall : result.ends = false → len = 0)
    (h : c.handleResult result len = .ok c') :
    received c'.log = received c.log ∧ consumed c'.log = consumed c.log + len := by
  have hoffer := And.intro (received_offer c len) (consumed_offer hcb hlen)
  cases result with
  | data bytes =>
    rw [TcpInput.handleResult] at h
    -- The loop reads on: the callback is not called yet.
    obtain ⟨mem, -, hok⟩ := bind_ok h
    cases hok
    rw [hcall rfl]
    exact ⟨rfl, rfl⟩
  | eintr =>
    cases h
    rw [hcall rfl]
    exact ⟨rfl, rfl⟩
  | eagain =>
    cases h
    exact hoffer
  | eof =>
    cases h
    exact hoffer
  | error errno =>
    cases h
    exact hoffer

/-- A round with its `read` in the log receives what the `read` returns. -/
theorem handleResult_noted (c : TcpInput) (space : Nat) {result : ReadResult}
    (hcb : c.readcb_ = true) (hlen : c.input_.getSize = 0 → len = 0)
    (hcall : result.ends = false → len = 0)
    (h : (c.record (.read space result.bytes)).handleResult result len = .ok c') :
    received c'.log = received c.log ++ result.bytes ∧ consumed c'.log = consumed c.log + len := by
  obtain ⟨hreceived, hconsumed⟩ :=
    handleResult_log (c := c.record (.read space result.bytes)) hcb hlen hcall h
  have hrecord : received (c.log ++ [.read space result.bytes]) = received c.log ++ result.bytes :=
    received_read _ _ _
  have hstill : consumed (c.log ++ [.read space result.bytes]) = consumed c.log :=
    consumed_read _ _ _
  constructor
  · exact hreceived.trans hrecord
  · exact hconsumed.trans (congrArg (· + len) hstill)

end log

/-! ## Steps -/

namespace TcpLinkInv

variable {Msg : Type} {pb : Protobuf Msg} {s : TcpLink Msg} {rest : List Msg}

theorem initial {fd : Int} (hinit : (tcpLinkSystem pb fd).init s) : TcpLinkInv pb s [] := by
  obtain ⟨hsender, hsent, hreceiver, hgot⟩ := hinit
  have hlog : s.receiver.log = [] := hreceiver.2.2.2.2.2
  constructor
  · rw [hsender, hsent]
    exact outputInv_attach fd
  · intro hdead
    rw [hsender] at hdead
    exact absurd (.inl rfl) hdead
  · rw [hsender]
    exact List.nil_prefix
  · exact inputInv_initial _ hreceiver
  · rw [hlog]
    exact List.nil_prefix
  · rw [hsent, hgot]
    rfl
  · rw [hlog, hgot]
    rfl
  · intro m hm
    cases hm

theorem buffered_eq (h : TcpLinkInv pb s rest) :
    s.buffered = (received s.receiver.log).drop (InputEvent.consumed s.receiver.log) := by
  rw [TcpLink.buffered, h.input.contents, List.map_map]
  exact List.map_id _

/-- What has been received starts with the frames of the messages handed over. -/
theorem received_eq (h : TcpLinkInv pb s rest) :
    received s.receiver.log = ProtobufCodec.stream pb s.got ++ s.buffered := by
  have hpre : received s.receiver.log <+: ProtobufCodec.stream pb s.sent := h.order.trans h.wire
  have hgot : ProtobufCodec.stream pb s.got <+: ProtobufCodec.stream pb s.sent := by
    rw [h.sent, ProtobufCodec.stream_append]
    exact List.prefix_append _ _
  have hle : (ProtobufCodec.stream pb s.got).length ≤ (received s.receiver.log).length := by
    rw [← h.consumed]
    exact h.input.bound
  obtain ⟨tail, htail⟩ := List.prefix_of_prefix_length_le hgot hpre hle
  rw [h.buffered_eq, h.consumed, ← htail, List.drop_left]

/-- The frames not handed over start with what is buffered. -/
theorem buffered_append (h : TcpLinkInv pb s rest) :
    s.buffered ++ (ProtobufCodec.stream pb s.sent).drop (received s.receiver.log).length =
      ProtobufCodec.stream pb rest := by
  obtain ⟨tail, htail⟩ := h.order.trans h.wire
  have hsplit : ProtobufCodec.stream pb s.got ++ (s.buffered ++ tail) =
      ProtobufCodec.stream pb s.got ++ ProtobufCodec.stream pb rest := by
    rw [← List.append_assoc, ← h.received_eq, htail, ← ProtobufCodec.stream_append, ← h.sent]
  rw [← htail, List.drop_left]
  exact List.append_cancel_left hsplit

/-- Whatever the sender does, what it has sent and written stays as it was. -/
theorem exec (h : TcpLinkInv pb s rest) {ev : OutEvent} {sender : TcpConn} {ms : List Msg}
    (hrs : ∀ r ∈ ev.results, r.isRegular) (hexec : ev.exec s.sender = some sender)
    (hms : ev.accepted s.sender = ProtobufCodec.stream pb ms) (hsends : ∀ m ∈ ms, Sendable pb m)
    (hwire : s.sender.wire <+: sender.wire)
    (hdead : ¬ sender.Live → sender.channel_ = none ∧ sender.wire = s.sender.wire) :
    TcpLinkInv pb { s with sender := sender, sent := s.sent ++ ms } (rest ++ ms) := by
  have hout : OutputInv (sender, ProtobufCodec.stream pb (s.sent ++ ms)) := by
    rw [ProtobufCodec.stream_append, ← hms]
    exact h.output.exec (not_strands_of_regular _ hrs) hexec
  constructor
  · exact hout
  · exact fun hnot => (hdead hnot).1
  · show sender.wire <+: ProtobufCodec.stream pb (s.sent ++ ms)
    by_cases hlive : sender.Live
    · have hstream : sender.wire ++ sender.output_ = ProtobufCodec.stream pb (s.sent ++ ms) :=
        (hout hlive).stream
      rw [← hstream]
      exact List.prefix_append _ _
    · -- A dead sender writes nothing more, whatever was sent meanwhile.
      rw [(hdead hlive).2, ProtobufCodec.stream_append]
      exact h.wire.trans (List.prefix_append _ _)
  · exact h.input
  · exact h.order.trans hwire
  · show s.sent ++ ms = s.got ++ (rest ++ ms)
    rw [h.sent, List.append_assoc]
  · exact h.consumed
  · intro m hm
    rcases List.mem_append.mp hm with hold | hnew
    · exact h.sends m hold
    · exact hsends m hnew

theorem send (h : TcpLinkInv pb s rest) {m : Msg} (hm : Sendable pb m) {rs : List WriteResult}
    (hrs : ∀ r ∈ rs, r.isRegular) {buf : Buffer} {sender : TcpConn}
    (hbuf : ProtobufCodec.fillEmptyBuffer pb m {} = .ok buf)
    (hexec : (OutEvent.sendBuffer (buf.contents.map (·.getD 0)) rs).exec s.sender = some sender) :
    TcpLinkInv pb { s with sender := sender, sent := s.sent ++ [m] } (rest ++ [m]) := by
  have hbytes : buf.contents.map (·.getD 0) = ProtobufCodec.stream pb [m] := by
    obtain ⟨buf', hbuf', hcontents, -⟩ := ProtobufCodec.fillEmptyBuffer_frame pb m
      (by rw [ProtobufCodec.length_frame]; have := hm.2; omega)
    rw [hbuf] at hbuf'
    cases hbuf'
    rw [hcontents, List.map_map]
    simp [ProtobufCodec.stream]
  have hregular : ∀ r ∈ (OutEvent.sendBuffer (buf.contents.map (·.getD 0)) rs).results,
      r.isRegular := hrs
  have hsteady : TcpConn.Steady s.sender sender := by
    obtain ⟨⟨c₂, left⟩, hsend, rfl⟩ := Option.map_eq_some_iff.mp hexec
    exact TcpConn.sendBuffer_steady hsend
  apply h.exec hregular hexec hbytes
  · intro m' hm'
    rw [List.mem_singleton.mp hm']
    exact hm
  · exact hsteady.wire
  · intro hnot
    have hdead : ¬ s.sender.Live := by
      intro hlive
      apply hnot
      unfold TcpConn.Live
      rw [hsteady.state]
      exact hlive
    -- Without a channel `Send` does nothing.
    have hnone := h.dead hdead
    have hsame : sender = s.sender := by
      simp only [OutEvent.exec, TcpConn.sendBuffer, hnone, Option.isSome_none, Bool.false_eq_true,
        if_false, Option.map_some, Option.some.injEq] at hexec
      exact hexec.symm
    rw [hsame]
    exact ⟨hnone, rfl⟩

theorem handleWrite (h : TcpLinkInv pb s rest) {p : PollResult} {rs : List WriteResult}
    (hrs : ∀ r ∈ rs, r.isRegular) {sender : TcpConn}
    (hexec : (OutEvent.handleWrite p rs).exec s.sender = some sender) :
    TcpLinkInv pb { s with sender := sender } rest := by
  have hstep : s.sender.wire <+: sender.wire ∧
      (¬ sender.Live → sender.channel_ = none ∧ sender.wire = s.sender.wire) := by
    by_cases hshake : s.sender.state_ = .kHandShakeing
    · -- `HandleHandShake`: the state may change, the wire does not.
      simp only [OutEvent.exec, TcpConn.handleWrite, hshake, Option.some.injEq] at hexec
      rw [← hexec, TcpConn.handleHandShake]
      split
      · refine ⟨List.prefix_refl _, fun hnot => absurd (.inr rfl) hnot⟩
      · exact ⟨List.prefix_refl _, fun _ => ⟨rfl, rfl⟩⟩
    · have hsteady := exec_steady hshake hexec
      refine ⟨hsteady.wire, ?_⟩
      intro hnot
      have hdead : ¬ s.sender.Live := by
        intro hlive
        apply hnot
        unfold TcpConn.Live
        rw [hsteady.state]
        exact hlive
      have hsame : sender = s.sender := by
        simp only [OutEvent.exec, TcpConn.handleWrite] at hexec
        split at hexec
        · next heq => exact absurd heq hshake
        · next heq => exact absurd (.inr heq) hdead
        · exact (Option.some.inj hexec).symm
      rw [hsame]
      exact ⟨h.dead hdead, rfl⟩
  have hregular : ∀ r ∈ (OutEvent.handleWrite p rs).results, r.isRegular := hrs
  have hnothing : (OutEvent.handleWrite p rs).accepted s.sender = ProtobufCodec.stream pb [] := rfl
  have hinv := h.exec hregular hexec hnothing (fun m hm => by cases hm) hstep.1 hstep.2
  rw [List.append_nil, List.append_nil] at hinv
  exact hinv

theorem handleRead (h : TcpLinkInv pb s rest) {receiver : TcpInput}
    (hstep : inputSystem.step s.receiver .handleRead receiver) :
    TcpLinkInv pb { s with receiver := receiver } rest := by
  have hinput := inputInv_preserved _ _ _ h.input hstep
  obtain ⟨-, rfl⟩ := hstep
  exact ⟨h.output, h.dead, h.wire, hinput, h.order, h.sent, h.consumed, h.sends⟩

/-- The callback consumes the frames of the messages it hands over. -/
theorem onInput (h : TcpLinkInv pb s rest) {result : ReadResult} {input : Buffer}
    (hcont : input.contents = s.receiver.input_.contents)
    (hread : result.ends = true → input.getSize ≠ 0 → FrameReadable s.buffered) :
    ∃ len got rest', TcpLink.onInput pb result input = .ok (len, got) ∧ rest = got ++ rest' ∧
      len = (ProtobufCodec.stream pb got).length ∧
      ((result.ends = true ∧ input.getSize ≠ 0 ∧
          ∃ left, ProtobufCodec.onMessage pb s.buffered = .ok (left, got) ∧
            len + left.length = s.buffered.length) ∨
        (¬ (result.ends = true ∧ input.getSize ≠ 0) ∧ got = [] ∧ len = 0)) := by
  by_cases hcall : result.ends = true ∧ input.getSize ≠ 0
  · -- What was buffered splits into the frames handed over and what is left.
    obtain ⟨left, got, rest', hmessage, hsplit, hbytes, -⟩ :=
      LinkInv.onMessage_readable h.buffered_append h.sends (hread hcall.1 hcall.2)
    have hlength : s.buffered.length = (ProtobufCodec.stream pb got).length + left.length := by
      have hwhole := congrArg List.length h.buffered_append
      rw [hsplit, ProtobufCodec.stream_append, ← hbytes] at hwhole
      simp only [List.length_append] at hwhole
      omega
    refine ⟨s.buffered.length - left.length, got, rest', ?_, hsplit, by omega,
      .inl ⟨hcall.1, hcall.2, left, hmessage, by omega⟩⟩
    rw [TcpLink.onInput, if_pos hcall, hcont]
    simp only [TcpLink.buffered] at hmessage ⊢
    simp only [hmessage, bind, Except.bind, pure, Except.pure]
  · refine ⟨0, [], rest, ?_, rfl, rfl, .inr ⟨hcall, rfl, rfl⟩⟩
    rw [TcpLink.onInput, if_neg hcall]

/-- A round hands over what `OnMessage` makes of the input, or nothing. -/
theorem read (h : TcpLinkInv pb s rest) {result : ReadResult} (hadmits : s.Admits result) :
    ∃ s' got rest', (s.noteRead result).read pb result = .ok s' ∧ TcpLinkInv pb s' rest' ∧
      s'.sent = s.sent ∧
      s'.got = s.got ++ got ∧ rest = got ++ rest' ∧
      ((FrameReadable s.buffered ∧ ∃ left, ProtobufCodec.onMessage pb s.buffered = .ok (left, got) ∧
          s'.buffered.length = left.length) ∨
        (got = [] ∧ s.buffered.length ≤ s'.buffered.length)) := by
  have hstate := h.input.reading hadmits.reading
  obtain ⟨hcb, hfd⟩ := h.input.connected hstate
  have hexp : 0 < s.receiver.input_.exp_ := by
    rw [h.input.exp]
    norm_num
  obtain ⟨input, hroom, hwf, hcont, -⟩ := h.input.wf.makeRoomSuggested hexp h.input.cap
  obtain ⟨hcap, hfits⟩ := hadmits.fits input hroom
  obtain ⟨hinv, hspace⟩ := h.input.makeRoom hroom hcap
  have hsize : input.getSize = s.buffered.length := by
    rw [TcpLink.buffered, List.length_map, ← hcont, hwf.length_contents, hwf.getSize_eq]
  have hsame : s.receiver.input_.getSize = input.getSize := by
    rw [hwf.getSize_eq, h.input.wf.getSize_eq, ← hwf.length_contents,
      ← h.input.wf.length_contents, hcont]
  have hreadable : result.ends = true → input.getSize ≠ 0 → FrameReadable s.buffered :=
    fun hends hne => hadmits.readable hends (by rw [hsame]; exact hne)
  obtain ⟨len, got, rest', hok, hsplit, hlen, hcalled⟩ := h.onInput hcont hreadable
  -- Where the callback is not called, it consumes nothing.
  have hnone : input.getSize = 0 → len = 0 := by
    rintro hzero
    obtain ⟨-, hne, -⟩ | ⟨-, -, hlen0⟩ := hcalled
    · exact absurd hzero hne
    · exact hlen0
  have hquiet : result.ends = false → len = 0 := by
    intro hnot
    obtain ⟨hends, -⟩ | ⟨-, -, hlen0⟩ := hcalled
    · rw [hends] at hnot
      cases hnot
    · exact hlen0
  have hlen' : len ≤ input.getSize := by
    rw [hsize]
    obtain ⟨-, -, left, -, hleft⟩ | ⟨-, -, hlen0⟩ := hcalled
    · omega
    · omega
  obtain ⟨receiver, hresult, hinput⟩ := hinv.handleResult hstate rfl hspace hfits hlen'
  have hnoted : (s.noteRead result).receiver.input_.makeRoomSuggested = .ok input := by
    rw [TcpLink.noteRead, TcpInput.noteRead_eq hroom hfd]
    exact hroom
  have honce : (s.noteRead result).receiver.readOnce result len = .ok receiver :=
    (TcpInput.noteRead_readOnce hroom hfd result len).trans hresult
  obtain ⟨hreceived, hconsumed⟩ : received receiver.log =
        received s.receiver.log ++ result.bytes ∧
      InputEvent.consumed receiver.log = InputEvent.consumed s.receiver.log + len :=
    handleResult_noted { s.receiver with input_ := input } _ hcb hnone hquiet hresult
  have hkeep : TcpLinkInv pb { s with receiver := receiver, got := s.got ++ got } rest' := by
    constructor
    · exact h.output
    · exact h.dead
    · exact h.wire
    · exact hinput
    · show received receiver.log <+: s.sender.wire
      rw [hreceived]
      exact hadmits.order
    · show s.sent = s.got ++ got ++ rest'
      rw [h.sent, hsplit, List.append_assoc]
    · show InputEvent.consumed receiver.log = (ProtobufCodec.stream pb (s.got ++ got)).length
      rw [hconsumed, ProtobufCodec.stream_append, List.length_append, ← hlen]
      exact congrArg (· + len) h.consumed
    · intro m hm
      apply h.sends
      rw [hsplit]
      exact List.mem_append_right _ hm
  refine ⟨{ s with receiver := receiver, got := s.got ++ got }, got, rest',
    TcpLink.read_eq hnoted hok honce, hkeep, rfl, rfl, hsplit, ?_⟩
  have hbuffered : (TcpLink.buffered { s with receiver := receiver, got := s.got ++ got }).length =
      s.buffered.length + result.bytes.length - len := by
    have hle := h.input.bound
    rw [hkeep.buffered_eq, h.buffered_eq, List.length_drop, List.length_drop]
    show (received receiver.log).length - InputEvent.consumed receiver.log = _
    rw [hreceived, hconsumed, List.length_append]
    omega
  rw [hbuffered]
  obtain ⟨hends, hne, left, hmessage, hleft⟩ | ⟨-, hgot, hlen0⟩ := hcalled
  · have hno : result.bytes = [] := by
      cases result with
      | data bytes => cases hends
      | eintr => rfl
      | eagain => rfl
      | eof => rfl
      | error errno => rfl
    exact .inl ⟨hreadable hends hne, left, hmessage, by rw [hno, List.length_nil]; omega⟩
  · exact .inr ⟨hgot, by omega⟩

/-- Where the frames not handed over are, while the connection stands. -/
theorem places (h : TcpLinkInv pb s rest) (hlive : s.sender.Live) :
    ProtobufCodec.stream pb rest = s.buffered ++ s.inFlight ++ s.sender.output_ := by
  have hstream : s.sender.wire ++ s.sender.output_ = ProtobufCodec.stream pb s.sent :=
    (h.output hlive).stream
  obtain ⟨tail, htail⟩ := h.order
  rw [← h.buffered_append, ← hstream, TcpLink.inFlight, ← htail, List.append_assoc,
    List.drop_left, List.drop_left, List.append_assoc]

end TcpLinkInv

/-- The invariant along every run. -/
theorem tcpLinkInv_reachable {Msg : Type} {pb : Protobuf Msg} {fd : Int} {s : TcpLink Msg}
    (hs : (tcpLinkSystem pb fd).Reachable s) : ∃ rest, TcpLinkInv pb s rest := by
  refine LTS.System.invariant (P := fun s => ∃ rest, TcpLinkInv pb s rest) ?_ ?_ s hs
  · intro s hinit
    exact ⟨[], .initial hinit⟩
  · intro s l s' hinv hstep
    obtain ⟨rest, h⟩ := hinv
    cases l with
    | send m rs =>
      obtain ⟨hm, hrs, buf, sender, hbuf, hexec, rfl⟩ := hstep
      exact ⟨rest ++ [m], h.send hm hrs hbuf hexec⟩
    | handleWrite p rs =>
      obtain ⟨hrs, sender, hexec, rfl⟩ := hstep
      exact ⟨rest, h.handleWrite hrs hexec⟩
    | handleRead =>
      obtain ⟨receiver, hread, rfl⟩ := hstep
      exact ⟨rest, h.handleRead hread⟩
    | read result =>
      obtain ⟨hadmits, hok⟩ := hstep
      obtain ⟨s₁, got, rest', hok₁, h₁, -⟩ := h.read hadmits
      rw [hok] at hok₁
      cases hok₁
      exact ⟨rest', h₁⟩

/-- **Messages over TCP**: at every point of every run the messages handed over are
    the first ones sent, and the next round of `HandleRead` does not fault.  While the
    connection stands, the frames of the messages sent are in order the ones handed
    over, the input of the receiver, what the kernels hold, and the output of the
    sender, for which write events are asked; with these three empty, everything has
    been handed over. -/
theorem tcpLink_conserves {Msg : Type} (pb : Protobuf Msg) (fd : Int) (s : TcpLink Msg)
    (hs : (tcpLinkSystem pb fd).Reachable s) :
    s.got <+: s.sent ∧
    (∀ result, s.Admits result → ∃ s', (s.noteRead result).read pb result = .ok s') ∧
    (s.sender.Live →
      ProtobufCodec.stream pb s.sent =
        ProtobufCodec.stream pb s.got ++ s.buffered ++ s.inFlight ++ s.sender.output_ ∧
      (s.sender.output_ ≠ [] → s.sender.isWriting) ∧
      (s.buffered = [] → s.inFlight = [] → s.sender.output_ = [] → s.got = s.sent)) := by
  obtain ⟨rest, h⟩ := tcpLinkInv_reachable hs
  refine ⟨?_, ?_, ?_⟩
  · rw [h.sent]
    exact List.prefix_append _ _
  · intro result hadmits
    obtain ⟨s', got, rest', hok, -⟩ := h.read hadmits
    exact ⟨s', hok⟩
  · intro hlive
    have hplaces := h.places hlive
    refine ⟨?_, (h.output hlive).interest, ?_⟩
    · rw [h.sent, ProtobufCodec.stream_append, hplaces, List.append_assoc, List.append_assoc,
        List.append_assoc]
    · intro hbuffered hflight hqueue
      rw [hbuffered, hflight, hqueue] at hplaces
      rw [h.sent, ProtobufCodec.eq_nil_of_stream hplaces, List.append_nil]

/-- A message of which the kernel has taken two bytes, and a receiver that is about to
    read the first of them. -/
theorem tcpLink_conserves_partial :
    ∃ s : TcpLink Bytes, s.sent = [[104]] ∧ s.got <+: s.sent ∧
      s.buffered ++ s.inFlight = [0, 0] ∧ s.sender.output_ = [0, 3, 10, 1, 104] ∧
      s.sender.isWriting ∧
      ∃ s', (s.noteRead (.data [0])).read ProtobufCodec.bytesField (.data [0]) = .ok s' := by
  let receiver : TcpInput :=
    { state_ := .kConnected, input_ := {}, fd := 6, readcb_ := true, reading := false, log := [] }
  let s : TcpLink Bytes :=
    { sender := ⟨.kConnected, [0, 3, 10, 1, 104], some ⟨5, 7#16⟩, [0, 0]⟩
      sent := [[104]]
      receiver := { receiver with reading := true }
      got := [] }
  obtain ⟨buf, hbuf, hcontents, -⟩ := ProtobufCodec.fillEmptyBuffer_frame
    ProtobufCodec.bytesField [104] (by decide +kernel)
  have hbytes : buf.contents.map (·.getD 0) = [0, 0, 0, 3, 10, 1, 104] := by
    rw [hcontents]
    decide +kernel
  have hsendable : Sendable ProtobufCodec.bytesField [104] :=
    ⟨ProtobufCodec.bytesField_carries (by decide), by decide +kernel⟩
  let system := tcpLinkSystem ProtobufCodec.bytesField 5
  have h0 : system.Reachable ⟨TcpConn.attach 5, [], receiver, []⟩ :=
    .start ⟨rfl, rfl, ⟨rfl, rfl, by decide, rfl, rfl, rfl⟩, rfl⟩
  have h1 : system.Reachable ⟨⟨.kConnected, [], some ⟨5, 7#16⟩, []⟩, [], receiver, []⟩ :=
    h0.next (.handleWrite ⟨1, POLLOUT⟩ []) ⟨by decide, _, rfl, rfl⟩
  have h2 : system.Reachable
      ⟨⟨.kConnected, [0, 0, 0, 3, 10, 1, 104], some ⟨5, 7#16⟩, []⟩, [[104]], receiver, []⟩ :=
    h1.next (.send [104] []) ⟨hsendable, by decide, buf, _, hbuf, by rw [hbytes]; rfl, rfl⟩
  have h3 : system.Reachable { s with receiver := receiver } :=
    h2.next (.handleWrite ⟨0, 0⟩ [.count 2, .eagain]) ⟨by decide, _, rfl, rfl⟩
  have h4 : system.Reachable s := h3.next .handleRead ⟨_, ⟨rfl, rfl⟩, rfl⟩
  obtain ⟨hfirst, hread, hlive⟩ := tcpLink_conserves ProtobufCodec.bytesField 5 s h4
  obtain ⟨-, hwriting, -⟩ := hlive (by decide)
  refine ⟨s, rfl, hfirst, rfl, rfl, hwriting (by decide), hread _ ⟨rfl, ?_, ?_, nofun⟩⟩
  · decide
  · intro input hroom
    obtain ⟨input', hok, -, -, -, hgrow, hspace⟩ :=
      Buffer.WF.empty.makeRoomSuggested (by show 0 < 4096; norm_num) (by show 0 < 2 ^ 63; norm_num)
    rw [show s.receiver.input_ = {} from rfl, hok] at hroom
    cases hroom
    have hcap : input.cap_ ≤ 4096 := hgrow
    exact ⟨by omega, by decide, hspace, by decide⟩

end JNet

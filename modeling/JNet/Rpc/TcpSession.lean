import JNet.Rpc.RpcSession
import JNet.Rpc.TcpLink

/-! # Calls over TCP

    A client and a server with everything between them: the two `RpcChannel`s, the
    codec, and a `TcpConn` on either side.  What one connection writes the other one
    reads, in both directions; the kernels answer as they please, and a connection
    whose `read` meets the end of the stream or an error closes.

    Every run is one of `Rpc/RpcSession.lean`, where the connections are streams of
    bytes: a write event moves no message, and a round of `HandleRead` is a read of
    the bytes that have come in since `OnMessage` was called last, or no step at all.
-/

namespace JNet

open Memory RpcChannel InputEvent

/-! ## State and steps -/

structure TcpSession where
  client : RpcClient
  /-- From the connection of the client to that of the server. -/
  requests : TcpLink RpcMessage
  server : RpcChannel
  /-- The requests whose service has been called and has not run its callback. -/
  serving : List RpcMessage
  /-- The requests answered, with what their response objects were serialized to. -/
  served : List (RpcMessage × Bytes)
  /-- From the connection of the server to that of the client. -/
  responses : TcpLink RpcMessage

inductive TcpSessionLabel where
  /-- A call of the client, also from inside a callback. -/
  | callMethod (method : MethodDescriptor) (request : Bytes) (response done : Nat)
      (results : List WriteResult)
  /-- A service runs its callback. -/
  | doneCallback (m : RpcMessage) (response : Bytes) (results : List WriteResult)
  | clientWrite (p : PollResult) (results : List WriteResult)
  | serverWrite (p : PollResult) (results : List WriteResult)
  | serverHandleRead
  | serverRead (result : ReadResult)
  | clientHandleRead
  | clientRead (result : ReadResult)
  /-- The callback of a call returns. -/
  | doneReturns
  /-- `CleanUp` of the client's connection gives up the channel. -/
  | clientHangUp
  | serverHangUp

namespace TcpConn

/-- A connection after its handshake. -/
def established (fd : Int) : TcpConn := ((attach fd).handleHandShake ⟨1, POLLOUT⟩).1

end TcpConn

namespace TcpLink

variable {Msg : Type}

/-- Two ends that have just been connected. -/
def Established (fd : Int) (s : TcpLink Msg) : Prop :=
  s.sender = TcpConn.established fd ∧ s.sent = [] ∧ inputSystem.init s.receiver ∧ s.got = []

/-- The connection that sends is cleaned up. -/
def hangUp (s : TcpLink Msg) : TcpLink Msg := { s with sender := s.sender.cleanUp }

/-- Nothing is under way, and nothing has been lost. -/
def Quiet (s : TcpLink Msg) : Prop :=
  s.sender.Live ∧ s.sender.output_ = [] ∧ s.inFlight = [] ∧ s.buffered = []

end TcpLink

namespace TcpSession

/-- The server's channel gets a message. -/
def serverMessage (s : TcpSession) (m : RpcMessage) : Except Fault TcpSession := do
  let (server, effects) ← s.server.onRpcMessage m
  return { s with server := server, serving := s.serving ++ effects.filterMap RpcEffect.request }

/-- The client's channel gets a message; the callback of the call starts to run. -/
def clientMessage (s : TcpSession) (m : RpcMessage) : Except Fault TcpSession := do
  let (chan, effects) ← s.client.chan.onRpcMessage m
  return { s with client := { s.client with
    chan := chan
    answers := s.client.answers ++ [(m.id, m.response, effects)]
    running := true } }

/-- A round of `HandleRead` at the server, with what its callback does. -/
def serverRead (pb : Protobuf RpcMessage) (s : TcpSession) (result : ReadResult) :
    Except Fault TcpSession := do
  let requests ← s.requests.read pb result
  (requests.got.drop s.requests.got.length).foldlM serverMessage { s with requests := requests }

def clientRead (pb : Protobuf RpcMessage) (s : TcpSession) (result : ReadResult) :
    Except Fault TcpSession := do
  let responses ← s.responses.read pb result
  (responses.got.drop s.responses.got.length).foldlM clientMessage
    { s with responses := responses }

/-- The `read` of a round at the server goes into the log there. -/
def noteServerRead (s : TcpSession) (result : ReadResult) : TcpSession :=
  { s with requests := s.requests.noteRead result }

def noteClientRead (s : TcpSession) (result : ReadResult) : TcpSession :=
  { s with responses := s.responses.noteRead result }

end TcpSession

/-- A client that calls services the server has, and makes fewer than 2^32 calls. -/
def tcpSessionSystem (pb : Protobuf RpcMessage) (server : RpcServer)
    (clientId serverId : BitVec 64) (fd fd' : Int) : LTS.System TcpSession TcpSessionLabel where
  init := fun s =>
    s.client = ⟨⟨clientId, fun _ => none, none⟩, [], [], false⟩ ∧
    s.requests.Established fd ∧ s.server = server.onConnection serverId ∧
    s.serving = [] ∧ s.served = [] ∧ s.responses.Established fd'
  step := fun s l s' =>
    match l with
    | .callMethod method request response done rs =>
        s.client.requests.length + 1 < 2 ^ 32 ∧ server.services_ method.service ≠ none ∧
        ∃ link, (tcpLinkSystem pb fd).step s.requests
            (.send (s.client.chan.callMethod method request ⟨some response, some done⟩).2 rs) link ∧
          s' = { s with
            client := s.client.callMethod method request ⟨some response, some done⟩
            requests := link }
    | .doneCallback m response rs =>
        m ∈ s.serving ∧
        ∃ link, (tcpLinkSystem pb fd').step s.responses (.send (doneMessage response m.id) rs) link ∧
          s' = { s with
            serving := s.serving.erase m
            served := s.served ++ [(m, response)]
            responses := link }
    | .clientWrite p rs =>
        ∃ link, (tcpLinkSystem pb fd).step s.requests (.handleWrite p rs) link ∧
          s' = { s with requests := link }
    | .serverWrite p rs =>
        ∃ link, (tcpLinkSystem pb fd').step s.responses (.handleWrite p rs) link ∧
          s' = { s with responses := link }
    | .serverHandleRead =>
        ∃ link, (tcpLinkSystem pb fd).step s.requests .handleRead link ∧
          s' = { s with requests := link }
    | .serverRead result =>
        s.requests.Admits result ∧ (s.noteServerRead result).serverRead pb result = .ok s'
    | .clientHandleRead =>
        s.client.running = false ∧
        ∃ link, (tcpLinkSystem pb fd').step s.responses .handleRead link ∧
          s' = { s with responses := link }
    | .clientRead result =>
        s.client.running = false ∧ s.responses.Admits result ∧
        (s.noteClientRead result).clientRead pb result = .ok s'
    | .doneReturns =>
        s.client.running = true ∧ s' = { s with client := { s.client with running := false } }
    | .clientHangUp =>
        s.responses.receiver.state_ ≠ .kConnected ∧ s' = { s with requests := s.requests.hangUp }
    | .serverHangUp =>
        s.requests.receiver.state_ ≠ .kConnected ∧ s' = { s with responses := s.responses.hangUp }

namespace TcpSession

/-- The session `s` over streams has the same ends, and they have exchanged the same
    messages. -/
structure SeenAs (t : TcpSession) (s : RpcSession) : Prop where
  client : s.client = t.client
  server : s.server = t.server
  serving : s.serving = t.serving
  served : s.served = t.served
  requests : s.requests.sent = t.requests.sent ∧ s.requests.got = t.requests.got
  responses : s.responses.sent = t.responses.sent ∧ s.responses.got = t.responses.got

/-- Every call that has ended was ended once, by the response that a service gave to
    its own request; and when nothing is under way, the calls that have not ended are
    the ones whose requests the server did not accept. -/
structure Answered (services : String → Option Service) (s : TcpSession) : Prop where
  once : s.client.answered.Nodup
  own : ∀ id payload effects, (id, payload, effects) ∈ s.client.answers →
    ∃ m response done, m ∈ s.requests.sent ∧ m.id = id ∧ RpcSession.accepts services m = true ∧
      (m, payload) ∈ s.served ∧ (id, ⟨some response, some done⟩) ∈ s.client.requests ∧
      effects = [.parseResponse response payload, .runDone done]
  quiet : s.requests.Quiet → s.serving = [] → s.responses.Quiet → ∀ m ∈ s.requests.sent,
    (m.id ∈ s.client.answered ↔ RpcSession.accepts services m = true) ∧
    (s.client.chan.outstandings_ (key m.id) ≠ none ↔ RpcSession.accepts services m = false)

end TcpSession

/-! ## A link as a stream of bytes -/

/-- The stream `l` stands for the link: what `OnMessage` has left of the input it was
    called with last is the input of the stream, all bytes behind it are on the wire. -/
structure LinkRefines {Msg : Type} (pb : Protobuf Msg) (s : TcpLink Msg) (l : Link Msg)
    (rest : List Msg) : Prop where
  inv : TcpLinkInv pb s rest
  sent : l.sent = s.sent
  got : l.got = s.got
  bytes : l.input ++ l.wire = ProtobufCodec.stream pb rest
  seen : l.input <+: s.buffered

namespace LinkRefines

variable {Msg : Type} {pb : Protobuf Msg} {s s' : TcpLink Msg} {l : Link Msg} {rest : List Msg}

theorem initial {fd : Int} (h : s.Established fd) : LinkRefines pb s {} [] := by
  obtain ⟨hsender, hsent, hreceiver, hgot⟩ := h
  -- The handshake is a write event of the connection as attached.
  have hinit : (tcpLinkSystem pb fd).init { s with sender := TcpConn.attach fd } :=
    ⟨rfl, hsent, hreceiver, hgot⟩
  have hattach : TcpLinkInv pb { s with sender := TcpConn.attach fd } [] := .initial hinit
  have hexec : (OutEvent.handleWrite ⟨1, POLLOUT⟩ []).exec (TcpConn.attach fd) =
      some s.sender := by
    rw [hsender]
    rfl
  have hinv := hattach.handleWrite (fun r hr => by cases hr) hexec
  refine ⟨hinv, hsent.symm, hgot.symm, rfl, ?_⟩
  exact List.nil_prefix

theorem linkInv (h : LinkRefines pb s l rest) : LinkInv pb l rest where
  sent := by
    rw [h.sent, h.got]
    exact h.inv.sent
  bytes := h.bytes
  sends := h.inv.sends

/-- Only the sending end has changed, and nothing was sent. -/
theorem sender (h : LinkRefines pb s l rest) {sender : TcpConn}
    (hinv : TcpLinkInv pb { s with sender := sender } rest) :
    LinkRefines pb { s with sender := sender } l rest :=
  ⟨hinv, h.sent, h.got, h.bytes, h.seen⟩

theorem send (h : LinkRefines pb s l rest) {fd : Int} {m : Msg} {rs : List WriteResult}
    (hstep : (tcpLinkSystem pb fd).step s (.send m rs) s') :
    Sendable pb m ∧ LinkRefines pb s'
      { l with sent := l.sent ++ [m], wire := l.wire ++ ProtobufCodec.frame pb m } (rest ++ [m]) := by
  obtain ⟨hm, hrs, buf, sender, hbuf, hexec, rfl⟩ := hstep
  refine ⟨hm, h.inv.send hm hrs hbuf hexec, ?_, h.got, ?_, h.seen⟩
  · show l.sent ++ [m] = s.sent ++ [m]
    rw [h.sent]
  · show l.input ++ (l.wire ++ ProtobufCodec.frame pb m) = _
    rw [← List.append_assoc, h.bytes, ProtobufCodec.stream_append]
    simp [ProtobufCodec.stream]

theorem handleWrite (h : LinkRefines pb s l rest) {fd : Int} {p : PollResult}
    {rs : List WriteResult} (hstep : (tcpLinkSystem pb fd).step s (.handleWrite p rs) s') :
    LinkRefines pb s' l rest := by
  obtain ⟨hrs, sender, hexec, rfl⟩ := hstep
  exact h.sender (h.inv.handleWrite hrs hexec)

theorem handleRead (h : LinkRefines pb s l rest) {fd : Int}
    (hstep : (tcpLinkSystem pb fd).step s .handleRead s') : LinkRefines pb s' l rest := by
  obtain ⟨receiver, hread, rfl⟩ := hstep
  have hinv := h.inv.handleRead hread
  obtain ⟨-, rfl⟩ := hread
  exact ⟨hinv, h.sent, h.got, h.bytes, h.seen⟩

theorem hangUp (h : LinkRefines pb s l rest) : LinkRefines pb s.hangUp l rest := by
  have hdead : ¬ s.sender.cleanUp.Live := by
    intro hlive
    unfold TcpConn.Live TcpConn.cleanUp at hlive
    split at hlive <;> simp at hlive
  apply h.sender
  exact ⟨fun hlive => absurd hlive hdead, fun _ => rfl, h.inv.wire, h.inv.input, h.inv.order,
    h.inv.sent, h.inv.consumed, h.inv.sends⟩

/-- A round of `HandleRead` is a read of the stream, or changes nothing there. -/
theorem read (h : LinkRefines pb s l rest) {result : ReadResult} (hadmits : s.Admits result) :
    ∃ s' got l' rest', (s.noteRead result).read pb result = .ok s' ∧ LinkRefines pb s' l' rest' ∧
      s'.got = s.got ++ got ∧
      ((got = [] ∧ l' = l) ∨
        ∃ n, FrameReadable (l.input ++ l.wire.take n) ∧ l.read pb n = .ok (l', got)) := by
  obtain ⟨s', got, rest', hok, hinv, hsent, hgot, hrest, hcase⟩ := h.inv.read hadmits
  have hbuffered : s.buffered <+: ProtobufCodec.stream pb rest := ⟨_, h.inv.buffered_append⟩
  have hbuffered' : s'.buffered <+: ProtobufCodec.stream pb rest' := ⟨_, hinv.buffered_append⟩
  obtain ⟨hreadable, left, hmessage, hlength⟩ | ⟨hnone, hlength⟩ := hcase
  · -- A call of `OnMessage` is one read of the link, of what has arrived since the last call.
    obtain ⟨more, hmore⟩ := h.seen
    obtain ⟨tail, htail⟩ := hbuffered
    have hsplit : l.input ++ l.wire = l.input ++ (more ++ tail) := by
      rw [h.bytes, ← htail, ← hmore, List.append_assoc]
    have hwire : l.wire = more ++ tail := List.append_cancel_left hsplit
    have htake : l.input ++ l.wire.take more.length = s.buffered := by
      rw [hwire, List.take_left, hmore]
    have hread : l.read pb more.length =
        .ok ({ l with wire := l.wire.drop more.length, input := left, got := l.got ++ got }, got) := by
      rw [Link.read, htake, hmessage]
      rfl
    rw [← htake] at hreadable
    obtain ⟨l', got', rest'', hread', hlink, -, -, hrest', -⟩ := h.linkInv.read hreadable
    rw [hread] at hread'
    cases hread'
    obtain rfl : rest' = rest'' := List.append_cancel_left (hrest.symm.trans hrest')
    have hleft : left <+: ProtobufCodec.stream pb rest' := ⟨_, hlink.bytes⟩
    refine ⟨s', got, _, rest', hok, ⟨hinv, ?_, ?_, hlink.bytes, ?_⟩, hgot,
      .inr ⟨more.length, hreadable, hread⟩⟩
    · rw [hsent]
      exact h.sent
    · rw [hgot, ← h.got]
    · exact List.prefix_of_prefix_length_le hleft hbuffered' hlength.ge
  · -- No callback: the link does not see the round.
    subst hnone
    obtain rfl : rest' = rest := hrest.symm
    refine ⟨s', [], l, rest', hok, ⟨hinv, ?_, ?_, h.bytes, ?_⟩, hgot, .inl ⟨rfl, rfl⟩⟩
    · rw [hsent, h.sent]
    · rw [hgot, h.got, List.append_nil]
    · exact h.seen.trans (List.prefix_of_prefix_length_le hbuffered hbuffered' hlength)

/-- With nothing under way in the link, nothing is in the stream. -/
theorem quiet (h : LinkRefines pb s l rest) (hquiet : s.Quiet) : l.wire = [] ∧ l.input = [] := by
  obtain ⟨hlive, houtput, hflight, hbuffered⟩ := hquiet
  have hplaces := h.inv.places hlive
  rw [houtput, hflight, hbuffered, ← h.bytes] at hplaces
  obtain ⟨hinput, hwire⟩ := List.append_eq_nil_iff.mp hplaces
  exact ⟨hwire, hinput⟩

end LinkRefines

/-! ## The session that the two ends see -/

namespace TcpSession

/-- The ends of the session, with streams for its links. -/
def session (t : TcpSession) (requests responses : Link RpcMessage) : RpcSession where
  client := t.client
  requests := requests
  server := t.server
  serving := t.serving
  served := t.served
  responses := responses

/-- Messages handed to the server's channel. -/
def serverMessages (t : TcpSession) (ms : List RpcMessage) : Except Fault TcpSession :=
  LTS.run serverMessage t ms

def clientMessages (t : TcpSession) (ms : List RpcMessage) : Except Fault TcpSession :=
  LTS.run clientMessage t ms

theorem serverMessage_session (t : TcpSession) (l l' : Link RpcMessage) (m : RpcMessage) :
    RpcSession.serverMessage (t.session l l') m = (t.serverMessage m).map (·.session l l') := by
  unfold RpcSession.serverMessage serverMessage session
  cases t.server.onRpcMessage m <;> rfl

theorem clientMessage_session (t : TcpSession) (l l' : Link RpcMessage) (m : RpcMessage) :
    RpcSession.clientMessage (t.session l l') m = (t.clientMessage m).map (·.session l l') := by
  unfold RpcSession.clientMessage clientMessage session
  cases t.client.chan.onRpcMessage m <;> rfl

/-- Handling messages leaves the links alone. -/
theorem serverMessages_links {t t' : TcpSession} {ms : List RpcMessage}
    (h : t.serverMessages ms = .ok t') :
    t'.requests = t.requests ∧ t'.responses = t.responses := by
  refine LTS.run_invariant (P := fun u => u.requests = t.requests ∧ u.responses = t.responses)
    ?_ ms t t' ⟨rfl, rfl⟩ h
  intro u m u' hu hstep
  obtain ⟨⟨server, effects⟩, -, hok⟩ := bind_ok hstep
  cases hok
  exact hu

theorem clientMessages_links {t t' : TcpSession} {ms : List RpcMessage}
    (h : t.clientMessages ms = .ok t') :
    t'.requests = t.requests ∧ t'.responses = t.responses := by
  refine LTS.run_invariant (P := fun u => u.requests = t.requests ∧ u.responses = t.responses)
    ?_ ms t t' ⟨rfl, rfl⟩ h
  intro u m u' hu hstep
  obtain ⟨⟨chan, effects⟩, -, hok⟩ := bind_ok hstep
  cases hok
  exact hu

end TcpSession

/-- The session `s` is what the ends of `t` see of it. -/
structure SessionRefines (pb : Protobuf RpcMessage) (services : String → Option Service)
    (first : BitVec 64) (t : TcpSession) (s : RpcSession) : Prop where
  inv : SessionInv pb services first s
  same : t.session s.requests s.responses = s
  requests : ∃ rest, LinkRefines pb t.requests s.requests rest
  responses : ∃ rest, LinkRefines pb t.responses s.responses rest

namespace SessionRefines

variable {pb : Protobuf RpcMessage} {services : String → Option Service} {first : BitVec 64}
  {t t' : TcpSession} {s : RpcSession} {link : TcpLink RpcMessage}

/-- A change of a link that its stream does not show. -/
theorem stutter_requests (h : SessionRefines pb services first t s)
    (hlink : ∀ rest, LinkRefines pb t.requests s.requests rest →
      LinkRefines pb link s.requests rest) :
    SessionRefines pb services first { t with requests := link } s := by
  obtain ⟨rest, hrest⟩ := h.requests
  exact ⟨h.inv, h.same, ⟨rest, hlink rest hrest⟩, h.responses⟩

theorem stutter_responses (h : SessionRefines pb services first t s)
    (hlink : ∀ rest, LinkRefines pb t.responses s.responses rest →
      LinkRefines pb link s.responses rest) :
    SessionRefines pb services first { t with responses := link } s := by
  obtain ⟨rest, hrest⟩ := h.responses
  exact ⟨h.inv, h.same, h.requests, ⟨rest, hlink rest hrest⟩⟩

theorem callMethod (h : SessionRefines pb services first t s) {fd : Int}
    {method : MethodDescriptor} {request : Bytes} {response done : Nat} {rs : List WriteResult}
    (hcalls : t.client.requests.length + 1 < 2 ^ 32) (hservice : services method.service ≠ none)
    (hstep : (tcpLinkSystem pb fd).step t.requests
      (.send (t.client.chan.callMethod method request ⟨some response, some done⟩).2 rs) link) :
    ∃ s', s.step pb (.callMethod method request response done) = .ok s' ∧
      SessionRefines pb services first { t with
        client := t.client.callMethod method request ⟨some response, some done⟩
        requests := link } s' := by
  obtain ⟨rest, hrest⟩ := h.requests
  obtain ⟨hsend, hlink⟩ := hrest.send hstep
  have hclient : s.client = t.client := by rw [← h.same]; rfl
  rw [← hclient] at hcalls hsend hlink
  obtain ⟨s', hs', hinv⟩ := h.inv.callMethod hcalls hservice hsend
  have hstep' := RpcSession.step_callMethod hsend
  rw [hs'] at hstep'
  cases hstep'
  refine ⟨_, hs', hinv, ?_, ⟨_, hlink⟩, h.responses⟩
  rw [← h.same]
  rfl

theorem doneCallback (h : SessionRefines pb services first t s) {fd : Int} {m : RpcMessage}
    {response : Bytes} {rs : List WriteResult} (hm : m ∈ t.serving)
    (hstep : (tcpLinkSystem pb fd).step t.responses (.send (doneMessage response m.id) rs) link) :
    ∃ s', s.step pb (.doneCallback m response) = .ok s' ∧
      SessionRefines pb services first { t with
        serving := t.serving.erase m
        served := t.served ++ [(m, response)]
        responses := link } s' := by
  obtain ⟨rest, hrest⟩ := h.responses
  obtain ⟨hsend, hlink⟩ := hrest.send hstep
  have hserving : s.serving = t.serving := by rw [← h.same]; rfl
  rw [← hserving] at hm
  obtain ⟨s', hs', hinv⟩ := h.inv.doneCallback hm hsend
  have hstep' := RpcSession.step_doneCallback (s := s) (m := m) hsend
  rw [hs'] at hstep'
  cases hstep'
  refine ⟨_, hs', hinv, ?_, h.requests, ⟨_, hlink⟩⟩
  rw [← h.same]
  rfl

/-- A round of `HandleRead` at the server does not fault, and the session sees a read
    of the requests or nothing. -/
theorem serverRead (h : SessionRefines pb services first t s) {result : ReadResult}
    (hadmits : t.requests.Admits result) :
    ∃ t', (t.noteServerRead result).serverRead pb result = .ok t' ∧
      (SessionRefines pb services first t' s ∨
        ∃ l s', s.step pb l = .ok s' ∧ SessionRefines pb services first t' s') := by
  obtain ⟨rest, hrest⟩ := h.requests
  obtain ⟨link, got, l', rest', hok, hlink, hgot, hcase⟩ := hrest.read hadmits
  have hnew : link.got.drop t.requests.got.length = got := by
    rw [hgot, List.drop_left]
  have hrun : (t.noteServerRead result).serverRead pb result =
      { t with requests := link }.serverMessages got := by
    have hround : (t.noteServerRead result).requests.read pb result = .ok link := hok
    have hbefore : (t.noteServerRead result).requests.got = t.requests.got := rfl
    rw [TcpSession.serverRead, bind_of_ok hround, hbefore, hnew]
    rfl
  rw [hrun]
  obtain ⟨rfl, rfl⟩ | ⟨n, hreadable, hread⟩ := hcase
  · exact ⟨_, rfl, .inl ⟨h.inv, h.same, ⟨_, hlink⟩, h.responses⟩⟩
  · obtain ⟨s', hs', hinv⟩ := h.inv.serverRead hreadable
    -- What the session does with the messages is what the channel does with them here.
    have hsession : s.step pb (.serverRead n) =
        ({ t with requests := link }.serverMessages got).map
          (fun u : TcpSession => u.session l' s.responses) := by
      have hmap := LTS.run_map (fun u : TcpSession => u.session l' s.responses)
        (fun u m => TcpSession.serverMessage_session u l' s.responses m) got
        { t with requests := link }
      rw [TcpSession.serverMessages, ← hmap]
      show (s.requests.read pb n >>= fun p =>
        p.2.foldlM RpcSession.serverMessage { s with requests := p.1 }) = _
      rw [bind_of_ok hread, ← h.same]
      rfl
    obtain ⟨t', hmessages, rfl⟩ := map_ok (hsession.symm.trans hs')
    obtain ⟨hreq, hres⟩ := TcpSession.serverMessages_links hmessages
    refine ⟨t', hmessages, .inr ⟨.serverRead n, _, hs', hinv, rfl, ⟨rest', ?_⟩, ?_⟩⟩
    · rw [hreq]
      exact hlink
    · rw [hres]
      exact h.responses

/-- The same at the client. -/
theorem clientRead (h : SessionRefines pb services first t s) {result : ReadResult}
    (hadmits : t.responses.Admits result) :
    ∃ t', (t.noteClientRead result).clientRead pb result = .ok t' ∧
      (SessionRefines pb services first t' s ∨
        ∃ l s', s.step pb l = .ok s' ∧ SessionRefines pb services first t' s') := by
  obtain ⟨rest, hrest⟩ := h.responses
  obtain ⟨link, got, l', rest', hok, hlink, hgot, hcase⟩ := hrest.read hadmits
  have hnew : link.got.drop t.responses.got.length = got := by
    rw [hgot, List.drop_left]
  have hrun : (t.noteClientRead result).clientRead pb result =
      { t with responses := link }.clientMessages got := by
    have hround : (t.noteClientRead result).responses.read pb result = .ok link := hok
    have hbefore : (t.noteClientRead result).responses.got = t.responses.got := rfl
    rw [TcpSession.clientRead, bind_of_ok hround, hbefore, hnew]
    rfl
  rw [hrun]
  obtain ⟨rfl, rfl⟩ | ⟨n, hreadable, hread⟩ := hcase
  · exact ⟨_, rfl, .inl ⟨h.inv, h.same, h.requests, ⟨_, hlink⟩⟩⟩
  · obtain ⟨s', hs', hinv⟩ := h.inv.clientRead hreadable
    have hsession : s.step pb (.clientRead n) =
        ({ t with responses := link }.clientMessages got).map
          (fun u : TcpSession => u.session s.requests l') := by
      have hmap := LTS.run_map (fun u : TcpSession => u.session s.requests l')
        (fun u m => TcpSession.clientMessage_session u s.requests l' m) got
        { t with responses := link }
      rw [TcpSession.clientMessages, ← hmap]
      show (s.responses.read pb n >>= fun p =>
        p.2.foldlM RpcSession.clientMessage { s with responses := p.1 }) = _
      rw [bind_of_ok hread, ← h.same]
      rfl
    obtain ⟨t', hmessages, rfl⟩ := map_ok (hsession.symm.trans hs')
    obtain ⟨hreq, hres⟩ := TcpSession.clientMessages_links hmessages
    refine ⟨t', hmessages, .inr ⟨.clientRead n, _, hs', hinv, rfl, ?_, ⟨rest', ?_⟩⟩⟩
    · rw [hreq]
      exact h.requests
    · rw [hres]
      exact hlink

theorem initial {server : RpcServer} {clientId serverId : BitVec 64} {fd fd' : Int}
    (h : (tcpSessionSystem pb server clientId serverId fd fd').init t) :
    SessionRefines pb server.services_ clientId t
      (RpcSession.create server clientId serverId) := by
  obtain ⟨hclient, hrequests, hserver, hserving, hserved, hresponses⟩ := h
  refine ⟨.initial pb server clientId serverId, ?_, ⟨[], .initial hrequests⟩,
    ⟨[], .initial hresponses⟩⟩
  unfold TcpSession.session RpcSession.create
  rw [hclient, hserver, hserving, hserved]

/-- Each step is one of the session, or one that the session does not see. -/
theorem step {server : RpcServer} {clientId serverId : BitVec 64} {fd fd' : Int}
    {l : TcpSessionLabel} (h : SessionRefines pb server.services_ first t s)
    (hstep : (tcpSessionSystem pb server clientId serverId fd fd').step t l t') :
    SessionRefines pb server.services_ first t' s ∨
      ∃ l' s', s.step pb l' = .ok s' ∧ SessionRefines pb server.services_ first t' s' := by
  cases l with
  | callMethod method request response done rs =>
    obtain ⟨hcalls, hservice, link, hlink, rfl⟩ := hstep
    obtain ⟨s', hs', h'⟩ := h.callMethod hcalls hservice hlink
    exact .inr ⟨_, s', hs', h'⟩
  | doneCallback m response rs =>
    obtain ⟨hm, link, hlink, rfl⟩ := hstep
    obtain ⟨s', hs', h'⟩ := h.doneCallback hm hlink
    exact .inr ⟨_, s', hs', h'⟩
  | clientWrite p rs =>
    obtain ⟨link, hlink, rfl⟩ := hstep
    exact .inl (h.stutter_requests fun _ hrest => hrest.handleWrite hlink)
  | serverWrite p rs =>
    obtain ⟨link, hlink, rfl⟩ := hstep
    exact .inl (h.stutter_responses fun _ hrest => hrest.handleWrite hlink)
  | serverHandleRead =>
    obtain ⟨link, hlink, rfl⟩ := hstep
    exact .inl (h.stutter_requests fun _ hrest => hrest.handleRead hlink)
  | serverRead result =>
    obtain ⟨hadmits, hok⟩ := hstep
    obtain ⟨t'', hok', h'⟩ := h.serverRead hadmits
    rw [hok] at hok'
    cases hok'
    exact h'
  | clientHandleRead =>
    obtain ⟨-, link, hlink, rfl⟩ := hstep
    exact .inl (h.stutter_responses fun _ hrest => hrest.handleRead hlink)
  | clientRead result =>
    obtain ⟨-, hadmits, hok⟩ := hstep
    obtain ⟨t'', hok', h'⟩ := h.clientRead hadmits
    rw [hok] at hok'
    cases hok'
    exact h'
  | doneReturns =>
    -- Only the client's channel takes part, and it is the same on both sides.
    obtain ⟨hrunning, rfl⟩ := hstep
    have hallowed : s.Allowed pb server.services_ .doneReturns := by
      show s.client.running = true
      rw [← h.same]
      exact hrunning
    obtain ⟨s', hs', hinv⟩ := h.inv.step hallowed
    refine .inr ⟨.doneReturns, s', hs', hinv, ?_, ?_, ?_⟩
    all_goals cases hs'
    · rw [← h.same]
      rfl
    · exact h.requests
    · exact h.responses
  | clientHangUp =>
    obtain ⟨-, rfl⟩ := hstep
    exact .inl (h.stutter_requests fun _ hrest => hrest.hangUp)
  | serverHangUp =>
    obtain ⟨-, rfl⟩ := hstep
    exact .inl (h.stutter_responses fun _ hrest => hrest.hangUp)

theorem seenAs (h : SessionRefines pb services first t s) : t.SeenAs s := by
  obtain ⟨rest, hrequests⟩ := h.requests
  obtain ⟨rest', hresponses⟩ := h.responses
  rw [← h.same]
  exact ⟨rfl, rfl, rfl, rfl, ⟨hrequests.sent, hrequests.got⟩, ⟨hresponses.sent, hresponses.got⟩⟩

/-- What the session says about its calls holds of those made over TCP. -/
theorem answered (h : SessionRefines pb services first t s) : t.Answered services := by
  obtain ⟨rest, hrequests⟩ := h.requests
  obtain ⟨rest', hresponses⟩ := h.responses
  obtain ⟨honce, hown, hquiet⟩ := h.inv.answered
  have hseen := h.seenAs
  rw [hseen.client] at honce hown hquiet
  rw [hseen.requests.1] at hown hquiet
  rw [hseen.served] at hown
  refine ⟨honce, hown, ?_⟩
  intro hreq hnone hres
  obtain ⟨hwire, hinput⟩ := hrequests.quiet hreq
  obtain ⟨hwire', hinput'⟩ := hresponses.quiet hres
  exact hquiet ⟨hwire, hinput, hseen.serving.trans hnone, hwire', hinput'⟩

end SessionRefines

/-- Every run over TCP is a run of the session over streams. -/
theorem tcpSession_refines {pb : Protobuf RpcMessage} {server : RpcServer}
    {clientId serverId : BitVec 64} {fd fd' : Int} {t : TcpSession}
    (ht : (tcpSessionSystem pb server clientId serverId fd fd').Reachable t) :
    ∃ ls s, LTS.run (RpcSession.step pb) (.create server clientId serverId) ls = .ok s ∧
      SessionRefines pb server.services_ clientId t s := by
  refine LTS.System.simulates ?_ ?_ t ht
  · intro t hinit
    exact .initial hinit
  · intro t s l t' h hstep
    exact h.step hstep

/-- **Calls over TCP**: whatever the kernels answer and in whatever order calls are made,
    events arrive, services run their callbacks and connections close, what the two ends
    have and have exchanged is the same in some run of the session over streams, no
    assertion of either channel fails, every call that has ended was ended once and by the
    response to its own request, and when both connections stand and have nothing under
    way, exactly the calls that the server did not accept are left open. -/
theorem tcp_session_answered (pb : Protobuf RpcMessage) (server : RpcServer)
    (clientId serverId : BitVec 64) (fd fd' : Int) (t : TcpSession)
    (ht : (tcpSessionSystem pb server clientId serverId fd fd').Reachable t) :
    (∃ ls s, LTS.run (RpcSession.step pb) (.create server clientId serverId) ls = .ok s ∧
      t.SeenAs s) ∧
    t.Answered server.services_ ∧
    (∀ result, t.requests.Admits result →
      ∃ t', (t.noteServerRead result).serverRead pb result = .ok t') ∧
    (∀ result, t.responses.Admits result →
      ∃ t', (t.noteClientRead result).clientRead pb result = .ok t') := by
  obtain ⟨ls, s, hrun, h⟩ := tcpSession_refines ht
  refine ⟨⟨ls, s, hrun, h.seenAs⟩, h.answered, ?_, ?_⟩
  · intro result hadmits
    obtain ⟨t', hok, -⟩ := h.serverRead hadmits
    exact ⟨t', hok⟩
  · intro result hadmits
    obtain ⟨t', hok, -⟩ := h.clientRead hadmits
    exact ⟨t', hok⟩

/-- The other side of a connection, before anything has arrived. -/
def idleInput (fd : Int) : TcpInput :=
  { state_ := .kConnected, input_ := {}, fd := fd, readcb_ := true, reading := false, log := [] }

/-- A call of which the kernel has taken ten bytes. -/
theorem tcp_session_answered_partial :
    ∃ t : TcpSession, t.requests.sent = [.mk .REQUEST 5 "Echo" "echo" [104] []] ∧
      t.requests.sender.wire.length = 10 ∧ t.requests.sender.output_ ≠ [] ∧
      t.Answered echoServer.services_ ∧
      ∃ ls s, LTS.run (RpcSession.step messageFormat) (.create echoServer 5 0) ls = .ok s ∧
        t.SeenAs s := by
  obtain ⟨hrequest, -⟩ := messageFormat_sends
  let m : RpcMessage := .mk .REQUEST 5 "Echo" "echo" [104] []
  obtain ⟨buf, hbuf, hcontents, -⟩ := ProtobufCodec.fillEmptyBuffer_frame messageFormat m
    (by decide +kernel)
  have hbytes : buf.contents.map (·.getD 0) = ProtobufCodec.frame messageFormat m := by
    rw [hcontents, List.map_map]
    exact List.map_id _
  let client : RpcClient := ⟨⟨5, fun _ => none, none⟩, [], [], false⟩
  -- Write events are still due from the handshake, so the frame is queued first.
  let queued : TcpConn := { TcpConn.established 6 with
    output_ := ProtobufCodec.frame messageFormat m }
  let written : TcpConn := { queued with
    output_ := queued.output_.drop 10
    wire := queued.output_.take 10 }
  let t₀ : TcpSession :=
    { client := client
      requests := ⟨TcpConn.established 6, [], idleInput 7, []⟩
      server := echoServer.onConnection 0
      serving := []
      served := []
      responses := ⟨TcpConn.established 7, [], idleInput 6, []⟩ }
  let t₁ : TcpSession := { t₀ with
    client := client.callMethod ⟨"Echo", "echo"⟩ [104] ⟨some 1, some 2⟩
    requests := ⟨queued, [m], idleInput 7, []⟩ }
  let t₂ : TcpSession := { t₁ with requests := ⟨written, [m], idleInput 7, []⟩ }
  let system := tcpSessionSystem messageFormat echoServer 5 0 6 7
  have h₀ : system.Reachable t₀ :=
    .start ⟨rfl, ⟨rfl, rfl, ⟨rfl, rfl, by decide, rfl, rfl, rfl⟩, rfl⟩, rfl, rfl, rfl,
      ⟨rfl, rfl, ⟨rfl, rfl, by decide, rfl, rfl, rfl⟩, rfl⟩⟩
  have hsend : (tcpLinkSystem messageFormat 6).step t₀.requests (.send m []) t₁.requests :=
    ⟨hrequest, by decide, buf, queued, hbuf, by rw [hbytes]; rfl, rfl⟩
  have h₁ : system.Reachable t₁ :=
    .next (TcpSessionLabel.callMethod ⟨"Echo", "echo"⟩ [104] 1 2 []) h₀
      ⟨by norm_num [t₀, client], by decide, t₁.requests, hsend, rfl⟩
  have hwrite : (tcpLinkSystem messageFormat 6).step t₁.requests
      (.handleWrite ⟨0, 0⟩ [.count 10, .eagain]) t₂.requests :=
    ⟨by decide, written, by decide +kernel, rfl⟩
  have h₂ : system.Reachable t₂ :=
    .next (TcpSessionLabel.clientWrite ⟨0, 0⟩ [.count 10, .eagain]) h₁ ⟨t₂.requests, hwrite, rfl⟩
  obtain ⟨hseen, hanswered, -, -⟩ := tcp_session_answered messageFormat echoServer 5 0 6 7 t₂ h₂
  exact ⟨t₂, rfl, by decide +kernel, by decide +kernel, hanswered, hseen⟩

end JNet

import JNet.Lib.Strings
import JNet.Rpc.RpcCalls
import JNet.Rpc.RpcServer

/-! # A client and a server

    Both ends of one connection: calls of a client's channel, their requests framed
    by the codec and carried as a stream of bytes, the channel of the server that
    calls its services, their callbacks in any order, and the responses on their way
    back.  Either end reads what has arrived in pieces of any size.

    The question is whether a call is ended by the response its own request got, and
    which calls are never ended.
-/

namespace JNet

open Memory RpcChannel

/-! ## One direction of a connection -/

/-- The messages sent, the bytes of them on their way, the input of the receiving
    end, and the messages it has handed to its callback. -/
structure Link (Msg : Type) where
  sent : List Msg := []
  wire : Bytes := []
  input : Bytes := []
  got : List Msg := []

namespace Link

variable {Msg : Type}

/-- `ProtobufCodec::Send`. -/
def send (pb : Protobuf Msg) (l : Link Msg) (m : Msg) : Except Fault (Link Msg) := do
  let buf ← ProtobufCodec.fillEmptyBuffer pb m {}
  return { l with sent := l.sent ++ [m], wire := l.wire ++ buf.contents.map (·.getD 0) }

/-- The next `n` bytes arrive, and `ProtobufCodec::OnMessage` is called. -/
def read (pb : Protobuf Msg) (l : Link Msg) (n : Nat) : Except Fault (Link Msg × List Msg) := do
  let (input, got) ← ProtobufCodec.onMessage pb (l.input ++ l.wire.take n)
  return ({ l with wire := l.wire.drop n, input := input, got := l.got ++ got }, got)

end Link

/-- A message the codec can send. -/
def Sendable {Msg : Type} (pb : Protobuf Msg) (m : Msg) : Prop :=
  pb.Carries m ∧ (pb.serialize m).length ≤ 4092

/-- An input the codec can read: the length of the next frame is there, and either the
    whole frame or less than its payload alone would take. -/
def FrameReadable (buf : Bytes) : Prop :=
  ∃ len : Nat, ProtobufCodec.peekInt32 buf = .ok (len : Int) ∧
    (buf.length < len ∨ len + 4 ≤ buf.length)

/-- A message that can be sent is put on the wire as its frame. -/
theorem Link.send_frame {Msg : Type} {pb : Protobuf Msg} (l : Link Msg) {m : Msg}
    (hm : Sendable pb m) :
    l.send pb m =
      .ok { l with sent := l.sent ++ [m], wire := l.wire ++ ProtobufCodec.frame pb m } := by
  obtain ⟨buf, hbuf, hcontents, -⟩ := ProtobufCodec.fillEmptyBuffer_frame pb m
    (by rw [ProtobufCodec.length_frame]; have := hm.2; omega)
  have hbytes : buf.contents.map (·.getD 0) = ProtobufCodec.frame pb m := by
    rw [hcontents, List.map_map]
    exact List.map_id _
  simp only [Link.send, hbuf, bind, Except.bind, hbytes]
  rfl

/-- What is under way are the frames of the messages not handed over yet. -/
structure LinkInv {Msg : Type} (pb : Protobuf Msg) (l : Link Msg) (rest : List Msg) : Prop where
  sent : l.sent = l.got ++ rest
  bytes : l.input ++ l.wire = ProtobufCodec.stream pb rest
  sends : ∀ m ∈ rest, Sendable pb m

namespace LinkInv

variable {Msg : Type} {pb : Protobuf Msg} {l : Link Msg} {rest : List Msg}

theorem initial (pb : Protobuf Msg) : LinkInv pb {} [] where
  sent := rfl
  bytes := rfl
  sends := nofun

/-- With nothing under way everything has been handed over. -/
theorem drained (h : LinkInv pb l rest) (hinput : l.input = []) (hwire : l.wire = []) :
    l.got = l.sent := by
  have hbytes := h.bytes
  rw [hinput, hwire] at hbytes
  cases rest with
  | nil => rw [h.sent, List.append_nil]
  | cons m rest =>
    have := congrArg List.length hbytes
    simp only [ProtobufCodec.stream, List.map_cons, List.flatten_cons, List.append_nil,
      List.length_nil, List.length_append, ProtobufCodec.length_frame] at this
    omega

theorem send (h : LinkInv pb l rest) {m : Msg} (hm : Sendable pb m) :
    LinkInv pb { l with sent := l.sent ++ [m], wire := l.wire ++ ProtobufCodec.frame pb m }
      (rest ++ [m]) where
  sent := by
    rw [h.sent, List.append_assoc]
  bytes := by
    rw [← List.append_assoc, h.bytes]
    simp [ProtobufCodec.stream]
  sends := by
    intro m' hm'
    rcases List.mem_append.mp hm' with hold | hnew
    · exact h.sends m' hold
    · rw [List.mem_singleton.mp hnew]
      exact hm

/-- The length read off an input that starts a frame is that of the frame. -/
theorem peekInt32_frame {m : Msg} (hm : pb.Carries m) {tail : Bytes} {size : Nat}
    (hsize : size ≤ (ProtobufCodec.frame pb m ++ tail).length) (len : Nat)
    (hpeek : ProtobufCodec.peekInt32 ((ProtobufCodec.frame pb m ++ tail).take size) =
      .ok (len : Int)) :
    4 ≤ size ∧ len = (pb.serialize m).length := by
  have hlen : ((ProtobufCodec.frame pb m ++ tail).take size).length = size := by
    rw [List.length_take]
    omega
  by_cases hfour : 4 ≤ size
  · refine ⟨hfour, ?_⟩
    have hhead : ((ProtobufCodec.frame pb m ++ tail).take size).take 4 =
        Bytes.be 4 (pb.serialize m).length := by
      rw [List.take_take, Nat.min_eq_left hfour, ProtobufCodec.frame, List.append_assoc]
      exact List.take_left' (by simp)
    have := hm.size_lt
    rw [ProtobufCodec.peekInt32, if_pos (by omega), hhead, Bytes.beNat_be (by omega),
      Bytes.signed_of_small (by omega)] at hpeek
    have := Except.ok.inj hpeek
    omega
  · rw [ProtobufCodec.peekInt32, if_neg (by omega)] at hpeek
    cases hpeek

/-- `OnMessage` on an input it can read hands over the next message or none, and leaves
    the frames of those behind it. -/
theorem onMessage_readable {buf left : Bytes} (hbytes : buf ++ left = ProtobufCodec.stream pb rest)
    (hrest : ∀ m ∈ rest, Sendable pb m) (hread : FrameReadable buf) :
    ∃ input got rest', ProtobufCodec.onMessage pb buf = .ok (input, got) ∧ rest = got ++ rest' ∧
      input ++ left = ProtobufCodec.stream pb rest' ∧ (got = [] ∨ ∃ m, got = [m]) := by
  obtain ⟨len, hpeek, hlen⟩ := hread
  cases rest with
  | nil =>
    -- Nothing is under way, so there is no length to read.
    obtain ⟨rfl, -⟩ := List.append_eq_nil_iff.mp hbytes
    simp [ProtobufCodec.peekInt32] at hpeek
  | cons m rest =>
    obtain ⟨hcarries, hfit⟩ := hrest m List.mem_cons_self
    have hstream : ProtobufCodec.stream pb (m :: rest) =
        ProtobufCodec.frame pb m ++ ProtobufCodec.stream pb rest := by
      simp [ProtobufCodec.stream]
    rw [hstream] at hbytes
    have hsize : buf.length ≤
        (ProtobufCodec.frame pb m ++ ProtobufCodec.stream pb rest).length := by
      rw [← hbytes, List.length_append]
      omega
    have hbuf : (ProtobufCodec.frame pb m ++ ProtobufCodec.stream pb rest).take buf.length =
        buf := by
      rw [← hbytes, List.take_left]
    have hmessage := ProtobufCodec.onMessage_frame hcarries (ProtobufCodec.stream pb rest) hsize
    rw [hbuf] at hmessage
    obtain ⟨hfour, rfl⟩ := peekInt32_frame hcarries hsize len (by rw [hbuf]; exact hpeek)
    rw [if_neg (by omega)] at hmessage
    rcases hlen with hpart | hwhole
    · rw [if_pos hpart] at hmessage
      exact ⟨buf, [], m :: rest, hmessage, rfl, by rw [hbytes, hstream], .inl rfl⟩
    · rw [if_neg (by omega), if_neg (by omega), if_neg (by omega)] at hmessage
      refine ⟨_, [m], rest, hmessage, rfl, ?_, .inr ⟨m, rfl⟩⟩
      -- The input holds the whole frame, and what it has beyond starts the rest.
      have hframe := ProtobufCodec.length_frame pb m
      have hbeyond : ProtobufCodec.stream pb rest = buf.drop (ProtobufCodec.frame pb m).length ++
          left := by
        rw [← List.drop_append_of_le_length (by omega), hbytes, List.drop_left]
      rw [hbeyond, ← hframe, ← List.length_drop, List.take_left]

/-- A read hands over the next message or none. -/
theorem read (h : LinkInv pb l rest) {n : Nat} (hread : FrameReadable (l.input ++ l.wire.take n)) :
    ∃ l' got rest', l.read pb n = .ok (l', got) ∧ LinkInv pb l' rest' ∧ l'.sent = l.sent ∧
      l'.got = l.got ++ got ∧ rest = got ++ rest' ∧ (got = [] ∨ ∃ m, got = [m]) := by
  have hbytes : (l.input ++ l.wire.take n) ++ l.wire.drop n = ProtobufCodec.stream pb rest := by
    rw [List.append_assoc, List.take_append_drop, h.bytes]
  obtain ⟨input, got, rest', hmessage, hsplit, hbytes', hgot⟩ :=
    onMessage_readable hbytes h.sends hread
  refine ⟨{ l with wire := l.wire.drop n, input := input, got := l.got ++ got }, got, rest', ?_,
    ⟨?_, hbytes', ?_⟩, rfl, rfl, hsplit, hgot⟩
  · simp only [Link.read, hmessage, bind, Except.bind]
    rfl
  · show l.sent = l.got ++ got ++ rest'
    rw [h.sent, hsplit, List.append_assoc]
  · intro m hm
    exact h.sends m (by rw [hsplit]; exact List.mem_append_right _ hm)

end LinkInv

/-! ## The session -/

/-- The request a service is called with. -/
def RpcEffect.request : RpcEffect → Option RpcMessage
  | .callService service method request id =>
      some { type := .REQUEST, id := id, service := service, method := method, request := request }
  | _ => none

structure RpcSession where
  client : RpcClient
  requests : Link RpcMessage
  server : RpcChannel
  /-- The requests whose service has been called and has not run its callback. -/
  serving : List RpcMessage
  /-- The requests answered, with what their response objects were serialized to. -/
  served : List (RpcMessage × Bytes)
  responses : Link RpcMessage

inductive SessionLabel where
  /-- A call of the client, also from inside a callback. -/
  | callMethod (method : MethodDescriptor) (request : Bytes) (response done : Nat)
  /-- Bytes arrive at the server. -/
  | serverRead (n : Nat)
  /-- A service runs its callback. -/
  | doneCallback (m : RpcMessage) (response : Bytes)
  /-- Bytes arrive at the client. -/
  | clientRead (n : Nat)
  /-- The callback of a call returns. -/
  | doneReturns

namespace RpcSession

/-- Both ends of a new connection. -/
def create (server : RpcServer) (clientId serverId : BitVec 64) : RpcSession where
  client := ⟨⟨clientId, fun _ => none, none⟩, [], [], false⟩
  requests := {}
  server := server.onConnection serverId
  serving := []
  served := []
  responses := {}

/-- The server's channel gets a message. -/
def serverMessage (s : RpcSession) (m : RpcMessage) : Except Fault RpcSession := do
  let (server, effects) ← s.server.onRpcMessage m
  return { s with server := server, serving := s.serving ++ effects.filterMap RpcEffect.request }

/-- The client's channel gets a message; the callback of the call starts to run. -/
def clientMessage (s : RpcSession) (m : RpcMessage) : Except Fault RpcSession := do
  let (chan, effects) ← s.client.chan.onRpcMessage m
  return { s with client := { s.client with
    chan := chan
    answers := s.client.answers ++ [(m.id, m.response, effects)]
    running := true } }

def step (pb : Protobuf RpcMessage) (s : RpcSession) : SessionLabel → Except Fault RpcSession
  | .callMethod method request response done => do
    let out : OutstandingCall := ⟨some response, some done⟩
    let requests ← s.requests.send pb (s.client.chan.callMethod method request out).2
    return { s with client := s.client.callMethod method request out, requests := requests }
  | .serverRead n => do
    let (requests, got) ← s.requests.read pb n
    got.foldlM serverMessage { s with requests := requests }
  | .doneCallback m response => do
    let responses ← s.responses.send pb (doneMessage response m.id)
    return { s with
      serving := s.serving.erase m, served := s.served ++ [(m, response)], responses := responses }
  | .clientRead n => do
    let (responses, got) ← s.responses.read pb n
    got.foldlM clientMessage { s with responses := responses }
  | .doneReturns => .ok { s with client := { s.client with running := false } }

/-- What the environment does in a step.  The client calls services that the server has
    and makes fewer than 2^32 calls; messages can be sent and inputs can be read; a
    service runs the callback of a request once; the client reads between callbacks. -/
def Allowed (pb : Protobuf RpcMessage) (services : String → Option Service) (s : RpcSession) :
    SessionLabel → Prop
  | .callMethod method request response done =>
      s.client.requests.length + 1 < 2 ^ 32 ∧ services method.service ≠ none ∧
      Sendable pb (s.client.chan.callMethod method request ⟨some response, some done⟩).2
  | .serverRead n => FrameReadable (s.requests.input ++ s.requests.wire.take n)
  | .doneCallback m response => m ∈ s.serving ∧ Sendable pb (doneMessage response m.id)
  | .clientRead n =>
      s.client.running = false ∧ FrameReadable (s.responses.input ++ s.responses.wire.take n)
  | .doneReturns => s.client.running = true

/-- Whether the server calls a service because of a request: it has the method, and the
    request parses. -/
def accepts (services : String → Option Service) (m : RpcMessage) : Bool :=
  match services m.service with
  | none => false
  | some service =>
    match service.findMethodByName m.method with
    | none => false
    | some method => method.parseFromString m.request

/-- Nothing is under way, and no service is at work. -/
def Quiet (s : RpcSession) : Prop :=
  s.requests.wire = [] ∧ s.requests.input = [] ∧ s.serving = [] ∧
  s.responses.wire = [] ∧ s.responses.input = []

/-- Every call that has ended was ended once, by the response that a service gave to
    its own request; and when nothing is under way, the calls that have not ended are
    the ones whose requests the server did not accept, which the channel keeps. -/
structure Answered (services : String → Option Service) (s : RpcSession) : Prop where
  once : s.client.answered.Nodup
  own : ∀ id payload effects, (id, payload, effects) ∈ s.client.answers →
    ∃ m response done, m ∈ s.requests.sent ∧ m.id = id ∧ accepts services m = true ∧
      (m, payload) ∈ s.served ∧ (id, ⟨some response, some done⟩) ∈ s.client.requests ∧
      effects = [.parseResponse response payload, .runDone done]
  quiet : s.Quiet → ∀ m ∈ s.requests.sent,
    (m.id ∈ s.client.answered ↔ accepts services m = true) ∧
    (s.client.chan.outstandings_ (key m.id) ≠ none ↔ accepts services m = false)

section sends

variable {pb : Protobuf RpcMessage} {s : RpcSession}

theorem step_callMethod {method : MethodDescriptor} {request : Bytes} {response done : Nat}
    (hsend : Sendable pb (s.client.chan.callMethod method request ⟨some response, some done⟩).2) :
    s.step pb (.callMethod method request response done) = .ok { s with
      client := s.client.callMethod method request ⟨some response, some done⟩
      requests := { s.requests with
        sent := s.requests.sent ++
          [(s.client.chan.callMethod method request ⟨some response, some done⟩).2]
        wire := s.requests.wire ++ ProtobufCodec.frame pb
          (s.client.chan.callMethod method request ⟨some response, some done⟩).2 } } := by
  simp only [step, Link.send_frame _ hsend]
  rfl

theorem step_doneCallback {m : RpcMessage} {response : Bytes}
    (hsend : Sendable pb (doneMessage response m.id)) :
    s.step pb (.doneCallback m response) = .ok { s with
      serving := s.serving.erase m
      served := s.served ++ [(m, response)]
      responses := { s.responses with
        sent := s.responses.sent ++ [doneMessage response m.id]
        wire := s.responses.wire ++ ProtobufCodec.frame pb (doneMessage response m.id) } } := by
  simp only [step, Link.send_frame _ hsend]
  rfl

end sends

end RpcSession

/-! ## The invariant -/

open RpcSession in
/-- The requests that were accepted are being served or have been, the responses are
    those of the requests served, and the client has been told of those it has got. -/
structure SessionInv (pb : Protobuf RpcMessage) (services : String → Option Service)
    (first : BitVec 64) (s : RpcSession) : Prop where
  client : ClientInv first s.client
  calls : s.client.requests.length < 2 ^ 32
  hasServices : s.server.services_ = some services
  ids : s.requests.sent.map (·.id) = s.client.requests.map Prod.fst
  known : ∀ m ∈ s.requests.sent, m.type = .REQUEST ∧ m.response = [] ∧ services m.service ≠ none
  requests : ∃ rest, LinkInv pb s.requests rest
  placed : (s.requests.got.filter (accepts services)).Perm (s.serving ++ s.served.map Prod.fst)
  responses : ∃ rest, LinkInv pb s.responses rest
  replies : s.responses.sent = s.served.map fun p => doneMessage p.2 p.1.id
  answers : s.client.answers.map (fun a => (a.1, a.2.1)) =
    s.responses.got.map fun m => (m.id, m.response)

namespace SessionInv

variable {pb : Protobuf RpcMessage} {services : String → Option Service} {first : BitVec 64}
  {s : RpcSession}

open RpcSession

theorem initial (pb : Protobuf RpcMessage) (server : RpcServer) (clientId serverId : BitVec 64) :
    SessionInv pb server.services_ clientId (RpcSession.create server clientId serverId) where
  client := clientInv_initial (s := (RpcSession.create server clientId serverId).client)
    ⟨fun _ => rfl, rfl, rfl, rfl⟩
  calls := by simp [RpcSession.create]
  hasServices := rfl
  ids := rfl
  known := nofun
  requests := ⟨[], .initial pb⟩
  placed := .nil
  responses := ⟨[], .initial pb⟩
  replies := rfl
  answers := rfl

/-- No two requests carry one id. -/
theorem ids_nodup (h : SessionInv pb services first s) :
    (s.requests.sent.map (·.id)).Nodup := by
  have hcalls := h.calls
  rw [h.ids, List.nodup_iff_pairwise_ne, List.pairwise_map, List.pairwise_iff_getElem]
  intro j k hj hk hjk heq
  have hid : s.client.requests[j].1 = _ := h.client.ids j _ _ (List.getElem?_eq_getElem hj)
  have hid' : s.client.requests[k].1 = _ := h.client.ids k _ _ (List.getElem?_eq_getElem hk)
  rw [hid, hid'] at heq
  have := key_add_inj (by omega) (by omega) (congrArg key heq)
  omega

/-- The requests served were sent and accepted. -/
theorem of_served (h : SessionInv pb services first s) {m : RpcMessage}
    (hm : m ∈ s.serving ++ s.served.map Prod.fst) :
    m ∈ s.requests.sent ∧ accepts services m = true := by
  obtain ⟨hgot, haccepts⟩ := List.mem_filter.mp (h.placed.mem_iff.mpr hm)
  obtain ⟨rest, hlink⟩ := h.requests
  exact ⟨by rw [hlink.sent]; exact List.mem_append_left _ hgot, haccepts⟩

/-- No request is served twice. -/
theorem served_nodup (h : SessionInv pb services first s) :
    (s.served.map fun p => p.1.id).Nodup := by
  obtain ⟨rest, hlink⟩ := h.requests
  have hgot : (s.requests.got.map (·.id)).Nodup := by
    have hids := h.ids_nodup
    rw [hlink.sent, List.map_append] at hids
    exact hids.of_append_left
  have hplaced : ((s.serving ++ s.served.map Prod.fst).map (·.id)).Nodup :=
    (h.placed.map _).nodup_iff.mp (hgot.sublist (List.filter_sublist.map _))
  rw [List.map_append, List.map_map] at hplaced
  exact hplaced.of_append_right

theorem answered_eq (h : SessionInv pb services first s) :
    s.client.answered = s.responses.got.map (·.id) := by
  have := congrArg (List.map Prod.fst) h.answers
  simpa [RpcClient.answered, List.map_map, Function.comp_def] using this

/-! ## Steps -/

theorem callMethod (h : SessionInv pb services first s) {method : MethodDescriptor}
    {request : Bytes} {response done : Nat}
    (hcalls : s.client.requests.length + 1 < 2 ^ 32) (hservice : services method.service ≠ none)
    (hsend : Sendable pb (s.client.chan.callMethod method request ⟨some response, some done⟩).2) :
    ∃ s', s.step pb (.callMethod method request response done) = .ok s' ∧
      SessionInv pb services first s' := by
  obtain ⟨rest, hlink⟩ := h.requests
  refine ⟨_, RpcSession.step_callMethod hsend, ?_⟩
  constructor
  · exact h.client.callMethod (by omega) method request response done
  · simp only [RpcClient.callMethod, List.length_append, List.length_singleton]
    exact hcalls
  · exact h.hasServices
  · simp only [RpcClient.callMethod, List.map_append, h.ids, List.map_cons, List.map_nil]
  · intro m hm
    rcases List.mem_append.mp hm with hold | hnew
    · exact h.known m hold
    · rw [List.mem_singleton.mp hnew]
      exact ⟨rfl, rfl, hservice⟩
  · exact ⟨_, hlink.send hsend⟩
  · exact h.placed
  · exact h.responses
  · exact h.replies
  · exact h.answers

/-- What the server's channel does with a request: it calls the service exactly if it
    accepts the request, and hands it the request as it was sent. -/
theorem serverMessage_request {m : RpcMessage} (hservices : s.server.services_ = some services)
    (htype : m.type = .REQUEST) (hempty : m.response = []) (hservice : services m.service ≠ none) :
    s.serverMessage m = .ok { s with
      serving := s.serving ++ if accepts services m then [m] else [] } := by
  obtain ⟨service, hsome⟩ := Option.ne_none_iff_exists'.mp hservice
  have hself : RpcMessage.mk .REQUEST m.id m.service m.method m.request [] = m := by
    rw [← htype, ← hempty]
  simp only [RpcSession.serverMessage, onRpcMessage, htype, hservices, hsome, accepts]
  cases hmethod : service.findMethodByName m.method with
  | none => rfl
  | some method =>
    cases hparse : method.parseFromString m.request with
    | false => simp [hparse, bind, Except.bind, pure, Except.pure]
    | true =>
      simp [hparse, bind, Except.bind, pure, Except.pure, RpcEffect.request, hself]

theorem serverRead (h : SessionInv pb services first s) {n : Nat}
    (hread : FrameReadable (s.requests.input ++ s.requests.wire.take n)) :
    ∃ s', s.step pb (.serverRead n) = .ok s' ∧ SessionInv pb services first s' := by
  obtain ⟨rest, hlink⟩ := h.requests
  obtain ⟨l', got, rest', hok, hlink', hsent, hgot, hsplit, hone⟩ := hlink.read hread
  -- The messages handed over, none or one, have been sent.
  have hknown : ∀ m ∈ got, m.type = .REQUEST ∧ m.response = [] ∧ services m.service ≠ none := by
    intro m hm
    apply h.known
    rw [hlink.sent, hsplit]
    exact List.mem_append_right _ (List.mem_append_left _ hm)
  have hrun : s.step pb (.serverRead n) = .ok { s with
      requests := l', serving := s.serving ++ got.filter (accepts services) } := by
    simp only [RpcSession.step, hok, bind, Except.bind]
    rcases hone with rfl | ⟨m, rfl⟩
    · simp [pure, Except.pure]
    · obtain ⟨htype, hempty, hservice⟩ := hknown m List.mem_cons_self
      rw [List.foldlM_cons,
        serverMessage_request (s := { s with requests := l' }) h.hasServices htype hempty hservice]
      cases haccepts : accepts services m <;>
        simp [haccepts, bind, Except.bind, pure, Except.pure]
  refine ⟨_, hrun, ⟨h.client, h.calls, h.hasServices, ?_, ?_, ⟨_, hlink'⟩, ?_, h.responses,
    h.replies, h.answers⟩⟩
  · rw [hsent]
    exact h.ids
  · rw [hsent]
    exact h.known
  · show (l'.got.filter (accepts services)).Perm
      (s.serving ++ got.filter (accepts services) ++ s.served.map Prod.fst)
    rw [hgot, List.filter_append, List.append_assoc]
    refine (h.placed.append_right _).trans ?_
    rw [List.append_assoc]
    exact List.perm_append_comm.append_left _

theorem doneCallback (h : SessionInv pb services first s) {m : RpcMessage} {response : Bytes}
    (hm : m ∈ s.serving) (hsend : Sendable pb (doneMessage response m.id)) :
    ∃ s', s.step pb (.doneCallback m response) = .ok s' ∧ SessionInv pb services first s' := by
  obtain ⟨rest, hlink⟩ := h.responses
  refine ⟨_, RpcSession.step_doneCallback hsend, ⟨h.client, h.calls, h.hasServices, h.ids, h.known,
    h.requests, ?_, ⟨_, hlink.send hsend⟩, ?_, h.answers⟩⟩
  · show (s.requests.got.filter (accepts services)).Perm
      (s.serving.erase m ++ (s.served ++ [(m, response)]).map Prod.fst)
    refine h.placed.trans ?_
    refine ((List.perm_cons_erase hm).append_right _).trans ?_
    rw [List.map_append, ← List.append_assoc]
    exact (List.perm_append_singleton m _).symm
  · simp only [h.replies, List.map_append, List.map_cons, List.map_nil]

theorem clientRead (h : SessionInv pb services first s) {n : Nat}
    (hread : FrameReadable (s.responses.input ++ s.responses.wire.take n)) :
    ∃ s', s.step pb (.clientRead n) = .ok s' ∧ SessionInv pb services first s' := by
  obtain ⟨rest, hlink⟩ := h.responses
  obtain ⟨l', got, rest', hok, hlink', hsent, hgot, hsplit, hone⟩ := hlink.read hread
  rcases hone with rfl | ⟨m, rfl⟩
  · refine ⟨{ s with responses := l' }, ?_, ⟨h.client, h.calls, h.hasServices, h.ids, h.known,
      h.requests, h.placed, ⟨_, hlink'⟩, ?_, ?_⟩⟩
    · simp only [RpcSession.step, hok, bind, Except.bind]
      rfl
    · rw [hsent]
      exact h.replies
    · rw [hgot, List.append_nil]
      exact h.answers
  · -- The message is the response to a request that was served.
    have hsent' : s.served.map (fun p => doneMessage p.2 p.1.id) =
        s.responses.got ++ m :: rest' := by
      rw [← h.replies, hlink.sent, hsplit, List.singleton_append]
    have hin : m ∈ s.served.map fun p => doneMessage p.2 p.1.id := by
      rw [hsent']
      exact List.mem_append_right _ List.mem_cons_self
    obtain ⟨⟨req, payload⟩, hserved, rfl⟩ := List.mem_map.mp hin
    have hreq : req.id ∈ s.client.requests.map Prod.fst := by
      rw [← h.ids]
      have hmem := h.of_served
        (List.mem_append_right _ (List.mem_map_of_mem (f := Prod.fst) hserved))
      exact List.mem_map_of_mem (f := (·.id)) hmem.1
    have hun : req.id ∉ s.client.answered := by
      have hnodup := h.served_nodup
      have hids : s.served.map (fun p => p.1.id) =
          s.responses.got.map (·.id) ++ req.id :: rest'.map (·.id) := by
        have := congrArg (List.map (·.id)) hsent'
        simpa [List.map_map, Function.comp_def, doneMessage] using this
      rw [hids] at hnodup
      rw [h.answered_eq]
      intro hmem
      exact List.disjoint_of_nodup_append hnodup hmem List.mem_cons_self
    obtain ⟨r, d, _, hmessage⟩ := h.client.onRpcMessage payload hreq hun
    have hclient := h.client.response (by have := h.calls; omega) hreq hun hmessage
    have hrun : s.step pb (.clientRead n) = .ok { s with
        responses := l'
        client := { s.client with
          chan := { s.client.chan with
            outstandings_ := Function.update s.client.chan.outstandings_ (key req.id) none }
          answers := s.client.answers ++
            [(req.id, payload, [.parseResponse r payload, .runDone d])]
          running := true } } := by
      simp only [RpcSession.step, hok, bind, Except.bind, List.foldlM_cons, List.foldlM_nil,
        RpcSession.clientMessage, doneMessage, hmessage, pure, Except.pure]
    refine ⟨_, hrun, ⟨hclient, h.calls, h.hasServices, h.ids, h.known, h.requests, h.placed,
      ⟨_, hlink'⟩, ?_, ?_⟩⟩
    · show l'.sent = _
      rw [hsent]
      exact h.replies
    · simp [hgot, h.answers, doneMessage]

theorem step (h : SessionInv pb services first s) {l : SessionLabel}
    (hl : s.Allowed pb services l) :
    ∃ s', s.step pb l = .ok s' ∧ SessionInv pb services first s' := by
  match l with
  | .callMethod method request response done => exact h.callMethod hl.1 hl.2.1 hl.2.2
  | .serverRead n => exact h.serverRead hl
  | .doneCallback m response => exact h.doneCallback hl.1 hl.2
  | .clientRead n => exact h.clientRead hl.2
  | .doneReturns =>
    refine ⟨_, rfl, ⟨⟨h.client.next, h.client.ids, h.client.whole, h.client.asked, h.client.once,
      h.client.outstanding, h.client.answers⟩, h.calls, h.hasServices, h.ids, h.known, h.requests,
      h.placed, h.responses, h.replies, h.answers⟩⟩

/-- The calls that have ended, when nothing is under way. -/
theorem quiet (h : SessionInv pb services first s) (hquiet : s.Quiet) {m : RpcMessage}
    (hm : m ∈ s.requests.sent) :
    m.id ∈ s.client.answered ↔ accepts services m = true := by
  obtain ⟨hwire, hinput, hserving, hwire', hinput'⟩ := hquiet
  obtain ⟨_, hlink⟩ := h.requests
  obtain ⟨_, hlink'⟩ := h.responses
  have hplaced := h.placed
  rw [hlink.drained hinput hwire, hserving, List.nil_append] at hplaced
  have hanswered : s.client.answered = s.served.map fun p => p.1.id := by
    rw [h.answered_eq, hlink'.drained hinput' hwire', h.replies, List.map_map]
    rfl
  rw [hanswered]
  constructor
  · intro hid
    obtain ⟨⟨m', payload⟩, hserved, hid'⟩ := List.mem_map.mp hid
    have hm' := h.of_served (List.mem_append_right _ (List.mem_map_of_mem (f := Prod.fst) hserved))
    -- The request served under this id is the one in question.
    rw [← List.inj_on_of_nodup_map h.ids_nodup hm'.1 hm hid']
    exact hm'.2
  · intro haccepts
    have hserved := hplaced.mem_iff.mp (List.mem_filter.mpr ⟨hm, haccepts⟩)
    obtain ⟨p, hp, rfl⟩ := List.mem_map.mp hserved
    exact List.mem_map.mpr ⟨p, hp, rfl⟩

theorem answered (h : SessionInv pb services first s) : s.Answered services where
  once := h.client.once
  own := by
    intro id payload effects hmem
    obtain ⟨response, done, hcall, heffects⟩ := h.client.answers id payload effects hmem
    have hgot : (id, payload) ∈ s.responses.got.map fun m => (m.id, m.response) := by
      rw [← h.answers]
      exact List.mem_map.mpr ⟨_, hmem, rfl⟩
    obtain ⟨m, hm, hpair⟩ := List.mem_map.mp hgot
    obtain ⟨rest, hlink⟩ := h.responses
    have hsent : m ∈ s.served.map fun p => doneMessage p.2 p.1.id := by
      rw [← h.replies, hlink.sent]
      exact List.mem_append_left _ hm
    obtain ⟨⟨req, payload'⟩, hserved, rfl⟩ := List.mem_map.mp hsent
    cases hpair
    have hreq := h.of_served (List.mem_append_right _ (List.mem_map_of_mem (f := Prod.fst) hserved))
    exact ⟨req, response, done, hreq.1, rfl, hreq.2, hserved, hcall, heffects⟩
  quiet := by
    intro hquiet m hm
    have hiff := h.quiet hquiet hm
    refine ⟨hiff, ?_⟩
    have hreq : m.id ∈ s.client.requests.map Prod.fst := by
      rw [← h.ids]
      exact List.mem_map_of_mem (f := (·.id)) hm
    obtain ⟨⟨id, out⟩, hcall, hid⟩ := List.mem_map.mp hreq
    obtain rfl : id = m.id := hid
    rw [← Bool.not_eq_true, ← hiff]
    constructor
    · intro hsome hanswered
      obtain ⟨out', hout'⟩ := Option.ne_none_iff_exists'.mp hsome
      obtain ⟨id', hcall', hun, hkey⟩ := (h.client.outstanding _ _).mp hout'
      obtain ⟨heq, -⟩ := h.client.eq_of_key (by have := h.calls; omega) hcall' hcall hkey
      rw [heq] at hun
      exact hun hanswered
    · intro hun
      rw [(h.client.outstanding (key m.id) out).mpr ⟨m.id, hcall, hun, rfl⟩]
      nofun

end SessionInv

/-- **Calls end to end**: whatever the order in which calls are made, services run
    their callbacks and bytes arrive, no assertion of either channel fails, every call
    that has ended was ended once and by the response to its own request, and in the end
    exactly the calls that the server did not accept are left open. -/
theorem rpc_session_answered (pb : Protobuf RpcMessage) (server : RpcServer)
    (clientId serverId : BitVec 64) (ls : List SessionLabel)
    (hls : ∀ n (hn : n < ls.length) s,
      LTS.run (RpcSession.step pb) (.create server clientId serverId) (ls.take n) = .ok s →
      s.Allowed pb server.services_ ls[n]) :
    ∃ s, LTS.run (RpcSession.step pb) (.create server clientId serverId) ls = .ok s ∧
      s.Answered server.services_ := by
  obtain ⟨s, hrun, hinv⟩ := LTS.run_safe (P := SessionInv pb server.services_ clientId)
    (fun s l h hl => h.step hl) ls _ (.initial pb server clientId serverId) hls
  exact ⟨s, hrun, hinv.answered⟩

/-- The wire format of messages whose fields are shorter than 128 bytes. -/
def messageFormat : Protobuf RpcMessage where
  serialize m :=
    match m.type with
    | .REQUEST =>
        let service := Strings.ascii m.service
        let method := Strings.ascii m.method
        [0x08, 1, 0x11] ++ Bytes.le 8 m.id.toNat ++ [0x1a, UInt8.ofNat service.length] ++ service ++
          [0x22, UInt8.ofNat method.length] ++ method ++
          [0x2a, UInt8.ofNat m.request.length] ++ m.request
    | .RESPONSE => responseFormat.serialize m
  parse bs :=
    if bs.getD 1 0 = 1 then
      let text : Bytes → String := fun b => String.ofList (b.map fun c => Char.ofNat c.toNat)
      let n := (bs.getD 12 0).toNat
      let rest := bs.drop (13 + n)
      let k := (rest.getD 1 0).toNat
      { type := .REQUEST
        id := BitVec.ofNat 64 (Bytes.leNat ((bs.drop 3).take 8))
        service := text ((bs.drop 13).take n)
        method := text ((rest.drop 2).take k)
        request := rest.drop (4 + k) }
    else responseFormat.parse bs

/-- The request of the session below, and its response. -/
theorem messageFormat_sends :
    Sendable messageFormat (.mk .REQUEST 5 "Echo" "echo" [104] []) ∧
    Sendable messageFormat (doneMessage [104] 5) :=
  ⟨⟨⟨by decide +kernel, by decide +kernel⟩, by decide +kernel⟩,
    ⟨⟨by decide +kernel, by decide +kernel⟩, by decide +kernel⟩⟩

/-- One call, the request of which arrives in two pieces. -/
theorem rpc_session_answered_echo :
    ∃ s, LTS.run (RpcSession.step messageFormat) (.create echoServer 5 0)
        [.callMethod ⟨"Echo", "echo"⟩ [104] 1 2, .serverRead 10, .serverRead 20,
          .doneCallback (.mk .REQUEST 5 "Echo" "echo" [104] []) [104], .clientRead 18] = .ok s ∧
      s.Answered echoServer.services_ := by
  obtain ⟨hrequest, hresponse⟩ := messageFormat_sends
  refine rpc_session_answered messageFormat echoServer 5 0 _ ?_
  refine LTS.run_meets_cons ⟨by decide, by decide, hrequest⟩
    (RpcSession.step_callMethod hrequest) ?_
  refine LTS.run_meets_cons ⟨26, by decide +kernel, by decide +kernel⟩ (by exact rfl) ?_
  refine LTS.run_meets_cons ⟨26, by decide +kernel, by decide +kernel⟩ (by exact rfl) ?_
  refine LTS.run_meets_cons ⟨by decide, hresponse⟩ (RpcSession.step_doneCallback hresponse) ?_
  refine LTS.run_meets_cons ⟨rfl, 14, by decide +kernel, by decide +kernel⟩ (by exact rfl) ?_
  intro n hn
  cases hn

end JNet

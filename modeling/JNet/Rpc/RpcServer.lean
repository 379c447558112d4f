import JNet.Rpc.ProtobufCodec
import JNet.Rpc.RpcChannel

/-! # `jrpc::RpcServer`

    The serving end of a channel (`rpc/protorpc/rpc_server.cc`, and `DoneCallback`
    of `rpc_channel.cc`).  A connection gets a channel that looks up the services
    of the server; a service that is called runs its callback once, and the
    callback sends the response.

    The question is which messages from the network are answered as they should
    be, and which ones the channel does not survive.
-/

namespace JNet

open Memory RpcChannel

/-! ## The class -/

/-- A registered service is found by the full name of its descriptor. -/
structure RpcServer where
  services_ : String → Option Service

namespace RpcServer

def registerService (server : RpcServer) (full_name : String) (service : Service) : RpcServer :=
  { server with services_ := Function.update server.services_ full_name (some service) }

/-- `OnConnection`: the channel of a new connection. -/
def onConnection (server : RpcServer) (id : BitVec 64) : RpcChannel where
  id_ := id
  outstandings_ := fun _ => none
  services_ := some server.services_

end RpcServer

namespace RpcChannel

/-- The message `DoneCallback` makes of a response object. -/
def doneMessage (response : Bytes) (id : BitVec 64) : RpcMessage :=
  { type := .RESPONSE, id := id, response := response }

/-- `DoneCallback`, with the message and the buffer it sends. -/
def doneCallback (pb : Protobuf RpcMessage) (response : Bytes) (id : BitVec 64) :
    Except Fault (RpcMessage × Buffer) := do
  let message := doneMessage response id
  let buf ← ProtobufCodec.fillEmptyBuffer pb message {}
  return (message, buf)

/-- What the callbacks send.  `respond` is what the response object of a call is
    serialized to when the service runs its callback. -/
def runCallbacks (pb : Protobuf RpcMessage) (respond : String → String → Bytes → Bytes) :
    List RpcEffect → Except Fault (List (RpcMessage × Buffer))
  | [] => .ok []
  | .callService service method request id :: effects => do
    let sent ← doneCallback pb (respond service method request) id
    let rest ← runCallbacks pb respond effects
    return sent :: rest
  | _ :: effects => runCallbacks pb respond effects

/-- A message from the network, and what is sent because of it. -/
def serve (pb : Protobuf RpcMessage) (respond : String → String → Bytes → Bytes) (c : RpcChannel)
    (message : RpcMessage) : Except Fault (RpcChannel × List (RpcMessage × Buffer)) := do
  let (c, effects) ← c.onRpcMessage message
  let sent ← runCallbacks pb respond effects
  return (c, sent)

end RpcChannel

/-! ## Serving ends -/

/-- A channel of a server: the services it was given, and the ids of the calls it
    has made itself and that are not answered yet. -/
structure ServerEnd where
  chan : RpcChannel
  services : String → Option Service
  calls : List (BitVec 64)
  hasServices : chan.services_ = some services
  outstanding : ∀ k, chan.outstandings_ k ≠ none ↔ ∃ id ∈ calls, key id = k

namespace ServerEnd

/-- The end of a new connection has made no calls. -/
def accepted (server : RpcServer) (id : BitVec 64) : ServerEnd where
  chan := server.onConnection id
  services := server.services_
  calls := []
  hasServices := rfl
  outstanding := by simp [RpcServer.onConnection]

/-- `CallMethod` on a serving end adds the id of its request. -/
def callMethod (s : ServerEnd) (method : MethodDescriptor) (request : Bytes)
    (out : OutstandingCall) : ServerEnd where
  chan := (s.chan.callMethod method request out).1
  services := s.services
  calls := s.chan.id_ :: s.calls
  hasServices := s.hasServices
  outstanding := by
    intro k
    have hkey : s.chan.id_ + 1 - 1 = s.chan.id_ := by
      rw [BitVec.add_sub_cancel]
    simp only [RpcChannel.callMethod, fetchId, RpcChannel.store, hkey, List.mem_cons,
      exists_eq_or_imp]
    by_cases hk : k = key s.chan.id_
    · simp [hk]
    · rw [Function.update_of_ne hk, s.outstanding]
      simp [Ne.symm hk]

end ServerEnd

/-- The message was handled as it should be: only the response to one of its own
    calls changes the calls of the channel, and a request has been answered once,
    with its own id. -/
structure Served (s : ServerEnd) (message : RpcMessage) (c : RpcChannel)
    (sent : List (RpcMessage × Buffer)) : Prop where
  outstandings : (message.type = .RESPONSE ∧ message.id ∈ s.calls) ∨
    c.outstandings_ = s.chan.outstandings_
  answered : message.type = .REQUEST →
    ∃ m buf, sent = [(m, buf)] ∧ m.type = .RESPONSE ∧ m.id = message.id

/-- The messages the code handles right.  A response belongs to a call the channel
    has made, with a callback if there is a response object; a request names a
    service and a method that are there, parses, and has a response that fits the
    buffer it is sent in. -/
def Servable (pb : Protobuf RpcMessage) (respond : String → String → Bytes → Bytes)
    (s : ServerEnd) (message : RpcMessage) : Prop :=
  match message.type with
  | .RESPONSE => message.id ∈ s.calls ∧
      ∀ out, s.chan.outstandings_ (key message.id) = some out →
        out.response = none ∨ out.done ≠ none
  | .REQUEST => ∃ service method, s.services message.service = some service ∧
      service.findMethodByName message.method = some method ∧
      method.parseFromString message.request = true ∧
      (pb.serialize (doneMessage (respond message.service message.method message.request)
        message.id)).length ≤ 4092

section serving

variable {pb : Protobuf RpcMessage} {respond : String → String → Bytes → Bytes} {s : ServerEnd}
  {message : RpcMessage}

/-- A response for a call that is outstanding takes it out of the map. -/
theorem serve_response {out : OutstandingCall} (htype : message.type = .RESPONSE)
    (hout : s.chan.outstandings_ (key message.id) = some out)
    (hdone : out.response = none ∨ out.done ≠ none) :
    s.chan.serve pb respond message =
      .ok ({ s.chan with
        outstandings_ := Function.update s.chan.outstandings_ (key message.id) none }, []) := by
  obtain ⟨response, done⟩ := out
  simp only [serve, onRpcMessage, htype, hout]
  cases response with
  | none => rfl
  | some response =>
    cases done with
    | none => simp at hdone
    | some done => rfl

theorem serve_response_iff (htype : message.type = .RESPONSE) :
    (∃ c sent, s.chan.serve pb respond message = .ok (c, sent) ∧ Served s message c sent) ↔
      Servable pb respond s message := by
  unfold Servable
  rw [htype]
  constructor
  · intro hcase
    rcases hcase with ⟨c, sent, hrun, hserved⟩
    cases hout : s.chan.outstandings_ (key message.id) with
    | none =>
      -- The id is not outstanding: the assertion fails.
      simp only [serve, onRpcMessage, htype, hout] at hrun
      cases hrun
    | some out =>
      have hdone : out.response = none ∨ out.done ≠ none := by
        by_contra hno
        obtain ⟨response, done⟩ := out
        obtain ⟨hresponse, hnone⟩ := not_or.mp hno
        obtain ⟨r, rfl⟩ := Option.ne_none_iff_exists'.mp hresponse
        obtain rfl := not_not.mp hnone
        simp only [serve, onRpcMessage, htype, hout] at hrun
        cases hrun
      refine ⟨?_, ?_⟩
      · rw [serve_response htype hout hdone] at hrun
        cases hrun
        -- An entry is gone, so the response has to be one to a call of its own.
        rcases hserved.outstandings with ⟨-, hmem⟩ | hsame
        · exact hmem
        · have hgone : Function.update s.chan.outstandings_ (key message.id) none
              (key message.id) = s.chan.outstandings_ (key message.id) :=
            congrFun hsame (key message.id)
          rw [Function.update_self, hout] at hgone
          cases hgone
      · intro out' hout'
        cases hout'
        exact hdone
  · intro hcase
    rcases hcase with ⟨hmem, hdone⟩
    have hsome := (s.outstanding (key message.id)).mpr ⟨_, hmem, rfl⟩
    obtain ⟨out, hout⟩ := Option.ne_none_iff_exists'.mp hsome
    refine ⟨_, _, serve_response htype hout (hdone out hout), ?_, ?_⟩
    · exact .inl ⟨htype, hmem⟩
    · intro hrequest
      rw [htype] at hrequest
      cases hrequest

/-- A request that reaches its method: what is sent is decided by the buffer. -/
theorem serve_request {service : Service} {method : ServiceMethod}
    (htype : message.type = .REQUEST) (hservice : s.services message.service = some service)
    (hmethod : service.findMethodByName message.method = some method)
    (hparse : method.parseFromString message.request = true) :
    s.chan.serve pb respond message = (doneCallback pb
      (respond message.service message.method message.request) message.id).map
        fun sent => (s.chan, [sent]) := by
  simp only [serve, onRpcMessage, htype, s.hasServices, hservice, hmethod, hparse, if_true, bind,
    Except.bind, runCallbacks]
  cases doneCallback pb (respond message.service message.method message.request) message.id <;> rfl

theorem serve_request_iff (htype : message.type = .REQUEST) :
    (∃ c sent, s.chan.serve pb respond message = .ok (c, sent) ∧ Served s message c sent) ↔
      Servable pb respond s message := by
  unfold Servable
  rw [htype]
  constructor
  · intro hcase
    rcases hcase with ⟨c, sent, hrun, hserved⟩
    obtain ⟨m, buf, hsent, -⟩ := hserved.answered htype
    cases hservice : s.services message.service with
    | none =>
      -- An unknown service: the assertion fails.
      simp only [serve, onRpcMessage, htype, s.hasServices, hservice] at hrun
      cases hrun
    | some service =>
      cases hmethod : service.findMethodByName message.method with
      | none =>
        simp only [serve, onRpcMessage, htype, s.hasServices, hservice, hmethod] at hrun
        cases hrun
        cases hsent
      | some method =>
        cases hparse : method.parseFromString message.request with
        | false =>
          simp only [serve, onRpcMessage, htype, s.hasServices, hservice, hmethod, hparse] at hrun
          cases hrun
          cases hsent
        | true =>
          refine ⟨service, method, rfl, hmethod, hparse, ?_⟩
          rw [serve_request htype hservice hmethod hparse] at hrun
          -- The response was stored inside its buffer.
          by_contra hlong
          have hover := ProtobufCodec.fillEmptyBuffer_overruns pb
            (doneMessage (respond message.service message.method message.request) message.id)
            (by rw [ProtobufCodec.length_frame]; omega)
          simp only [doneCallback, hover, bind, Except.bind] at hrun
          cases hrun
  · intro hcase
    rcases hcase with ⟨service, method, hservice, hmethod, hparse, hfit⟩
    obtain ⟨buf, hbuf, -⟩ := ProtobufCodec.fillEmptyBuffer_frame pb
      (doneMessage (respond message.service message.method message.request) message.id)
      (by rw [ProtobufCodec.length_frame]; omega)
    have hrun : s.chan.serve pb respond message = .ok (s.chan,
        [(doneMessage (respond message.service message.method message.request) message.id,
          buf)]) := by
      rw [serve_request htype hservice hmethod hparse]
      simp only [doneCallback, hbuf, bind, Except.bind]
      rfl
    exact ⟨_, _, hrun, .inr rfl, fun _ => ⟨_, buf, rfl, rfl, rfl⟩⟩

end serving

/-- **Serving**: the messages that are handled as they should be, whatever comes
    from the network.  All others fail an assertion, store outside a buffer, lose a
    call, or are left without an answer. -/
theorem serve_served_iff (pb : Protobuf RpcMessage) (respond : String → String → Bytes → Bytes)
    (s : ServerEnd) (message : RpcMessage) :
    (∃ c sent, s.chan.serve pb respond message = .ok (c, sent) ∧ Served s message c sent) ↔
      Servable pb respond s message := by
  cases htype : message.type with
  | REQUEST => exact serve_request_iff htype
  | RESPONSE => exact serve_response_iff htype

/-- The wire format of the messages a server sends, for responses shorter than 128
    bytes: the type, the id in eight bytes, and the response. -/
def responseFormat : Protobuf RpcMessage where
  serialize m :=
    [0x08, 2, 0x11] ++ Bytes.le 8 m.id.toNat ++ [0x32, UInt8.ofNat m.response.length] ++ m.response
  parse bs := doneMessage (bs.drop 13) (BitVec.ofNat 64 (Bytes.leNat ((bs.drop 3).take 8)))

/-- A server with one service, which has one method. -/
def echoServer : RpcServer :=
  RpcServer.registerService ⟨fun _ => none⟩ "Echo"
    ⟨fun name => if name = "echo" then some ⟨fun _ => true⟩ else none⟩

/-- A request for a service that is not there ends the server, one for a method
    that is not there gets no answer, and so does not end the call. -/
theorem serve_unknown :
    (¬ ∃ c sent, (ServerEnd.accepted echoServer 0).chan.serve responseFormat
        (fun _ _ request => request) { type := .REQUEST, id := 1, service := "Time" } =
          .ok (c, sent) ∧
      Served (ServerEnd.accepted echoServer 0)
        { type := .REQUEST, id := 1, service := "Time" } c sent) ∧
    (¬ ∃ c sent, (ServerEnd.accepted echoServer 0).chan.serve responseFormat
        (fun _ _ request => request)
        { type := .REQUEST, id := 1, service := "Echo", method := "shout" } = .ok (c, sent) ∧
      Served (ServerEnd.accepted echoServer 0)
        { type := .REQUEST, id := 1, service := "Echo", method := "shout" } c sent) := by
  constructor
  · intro hcase
    rcases hcase with ⟨c, sent, hrun, -⟩
    have hfault : (ServerEnd.accepted echoServer 0).chan.serve responseFormat
        (fun _ _ request => request) { type := .REQUEST, id := 1, service := "Time" } =
          .error .assertion := rfl
    rw [hfault] at hrun
    cases hrun
  · intro hcase
    rcases hcase with ⟨c, sent, hrun, hserved⟩
    have hsilent : (ServerEnd.accepted echoServer 0).chan.serve responseFormat
        (fun _ _ request => request)
        { type := .REQUEST, id := 1, service := "Echo", method := "shout" } =
          .ok ((ServerEnd.accepted echoServer 0).chan, []) := rfl
    rw [hsilent] at hrun
    cases hrun
    obtain ⟨m, buf, hsent, -⟩ := hserved.answered rfl
    cases hsent

end JNet

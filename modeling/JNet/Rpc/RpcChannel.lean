import JNet.Lib.LTS
import JNet.Lib.Bytes
import JNet.Lib.Memory
import Mathlib.Logic.Function.Basic

/-! # `jrpc::RpcChannel`

    The calls of an RPC channel (`rpc/protorpc/rpc_channel.cc`): `CallMethod`
    numbers its request and keeps the caller's response object and callback in
    `outstandings_`, `OnRpcMessage` finds them again when the response arrives.
    Ids are 64 bits wide, the keys of the map are `int`s.

    Objects behind pointers are numbers, `nullptr` is `none`.  What a channel
    does to the outside is a list of effects, in order.  The constructor gives
    `id_` no value, so a channel may start with any.
-/

namespace JNet

open Memory

/-! ## Messages -/

inductive MessageType where
  | REQUEST
  | RESPONSE
  deriving DecidableEq, Repr

structure RpcMessage where
  type : MessageType
  id : BitVec 64
  service : String := ""
  method : String := ""
  request : Bytes := []
  response : Bytes := []
  deriving DecidableEq, Repr

/-- A method as its descriptor names it. -/
structure MethodDescriptor where
  service : String
  name : String
  deriving DecidableEq, Repr

/-- A method of a registered service: whether its request class parses the given
    bytes. -/
structure ServiceMethod where
  parseFromString : Bytes → Bool

/-- A registered service, seen through its descriptor. -/
structure Service where
  findMethodByName : String → Option ServiceMethod

/-! ## The class -/

structure OutstandingCall where
  response : Option Nat
  done : Option Nat
  deriving DecidableEq, Repr

structure RpcChannel where
  id_ : BitVec 64
  outstandings_ : BitVec 32 → Option OutstandingCall
  services_ : Option (String → Option Service)

inductive RpcEffect where
  /-- The bytes are parsed into the response object. -/
  | parseResponse (response : Nat) (payload : Bytes)
  | runDone (done : Nat)
  /-- The method of the service is called, with a callback for this id. -/
  | callService (service method : String) (request : Bytes) (id : BitVec 64)
  deriving DecidableEq, Repr

namespace RpcChannel

/-- The `int` an id is converted to. -/
def key (id : BitVec 64) : BitVec 32 := id.setWidth 32

/-- `id_++`. -/
def fetchId (c : RpcChannel) : BitVec 64 × RpcChannel := (c.id_, { c with id_ := c.id_ + 1 })

/-- `outstandings_[id_-1] = out`. -/
def store (c : RpcChannel) (out : OutstandingCall) : RpcChannel :=
  { c with outstandings_ := Function.update c.outstandings_ (key (c.id_ - 1)) (some out) }

/-- `CallMethod`, with the message it sends. -/
def callMethod (c : RpcChannel) (method : MethodDescriptor) (request : Bytes)
    (out : OutstandingCall) : RpcChannel × RpcMessage :=
  let (id, c) := c.fetchId
  let message : RpcMessage :=
    { type := .REQUEST
      id := id
      service := method.service
      method := method.name
      request := request }
  (c.store out, message)

def onRpcMessage (c : RpcChannel) (message : RpcMessage) :
    Except Fault (RpcChannel × List RpcEffect) :=
  match message.type with
  | .RESPONSE =>
    match c.outstandings_ (key message.id) with
    | none => .error .assertion
    | some out =>
      let c := { c with outstandings_ := Function.update c.outstandings_ (key message.id) none }
      match out.response, out.done with
      -- The entry is gone although nothing is done about it.
      | none, _ => .ok (c, [])
      | some response, some done =>
        .ok (c, [.parseResponse response message.response, .runDone done])
      | some _, none => .error .outOfBounds  -- done->Run() on nullptr
  | .REQUEST =>
    match c.services_ with
    | none => .error .assertion
    | some services =>
      match services message.service with
      | none => .error .assertion
      | some service =>
        match service.findMethodByName message.method with
        -- Neither an unknown method nor a request that does not parse is answered.
        | none => .ok (c, [])
        | some method =>
          if method.parseFromString message.request then
            .ok (c, [.callService message.service message.method message.request message.id])
          else .ok (c, [])

/-- A response that is accepted takes its entry out of the map and changes nothing
    else. -/
theorem onRpcMessage_response {c c' : RpcChannel} {id : BitVec 64} {payload : Bytes}
    {effects : List RpcEffect}
    (h : c.onRpcMessage { type := .RESPONSE, id := id, response := payload } =
      .ok (c', effects)) :
    c' = { c with outstandings_ := Function.update c.outstandings_ (key id) none } := by
  simp only [onRpcMessage] at h
  split at h
  · cases h
  · split at h
    · cases h
      rfl
    · cases h
      rfl
    · cases h

/-! ## Ids and keys -/

/-- The keys of ids counted from a first one agree when the counts do modulo 2^32. -/
theorem key_add_eq_iff (first : BitVec 64) (m n : Nat) :
    key (first + BitVec.ofNat 64 m) = key (first + BitVec.ofNat 64 n) ↔
      m % 2 ^ 32 = n % 2 ^ 32 := by
  unfold key
  rw [← BitVec.toNat_inj]
  simp only [BitVec.toNat_setWidth, BitVec.toNat_add, BitVec.toNat_ofNat]
  omega

/-- Below 2^32 different counts have different keys. -/
theorem key_add_inj {first : BitVec 64} {m n : Nat} (hm : m < 2 ^ 32) (hn : n < 2 ^ 32)
    (h : key (first + BitVec.ofNat 64 m) = key (first + BitVec.ofNat 64 n)) : m = n := by
  have := (key_add_eq_iff first m n).mp h
  omega

end RpcChannel

end JNet

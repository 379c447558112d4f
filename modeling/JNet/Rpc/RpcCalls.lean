import JNet.Rpc.RpcChannel
import Mathlib.Data.List.Nodup

/-! # Calls and their responses

    A client's channel under any sequence of calls and responses.  With one call
    made at a time, every response finds the call it belongs to.  With several
    threads in `CallMethod` at once this depends on what happens between the two
    places where a call reads `id_`.
-/

namespace JNet

open Memory RpcChannel

/-! ## One call at a time -/

/-- A client's channel, and what it has sent and received: the requests with
    their calls, and the responses with what was done about each. -/
structure RpcClient where
  chan : RpcChannel
  requests : List (BitVec 64 × OutstandingCall)
  answers : List (BitVec 64 × Bytes × List RpcEffect)
  /-- A callback is running. -/
  running : Bool

inductive ClientLabel where
  /-- `CallMethod`, from anywhere: also from inside a callback. -/
  | callMethod (method : MethodDescriptor) (request : Bytes) (response done : Nat)
  /-- A RESPONSE arrives; its callback starts to run. -/
  | response (id : BitVec 64) (payload : Bytes)
  | doneReturns

namespace RpcClient

/-- The ids answered so far. -/
def answered (s : RpcClient) : List (BitVec 64) := s.answers.map Prod.fst

def callMethod (s : RpcClient) (method : MethodDescriptor) (request : Bytes)
    (out : OutstandingCall) : RpcClient :=
  { s with
    chan := (s.chan.callMethod method request out).1
    requests := s.requests ++ [((s.chan.callMethod method request out).2.id, out)] }

end RpcClient

/-- The peer answers a request at most once. -/
def clientSystem : LTS.System RpcClient ClientLabel where
  init := fun s =>
    (∀ k, s.chan.outstandings_ k = none) ∧ s.requests = [] ∧ s.answers = [] ∧ s.running = false
  step := fun s l s' =>
    match l with
    | .callMethod method request response done =>
        s' = s.callMethod method request ⟨some response, some done⟩
    | .response id payload =>
        s.running = false ∧ id ∈ s.requests.map Prod.fst ∧ id ∉ s.answered ∧
        ∃ chan effects,
          s.chan.onRpcMessage { type := .RESPONSE, id := id, response := payload } =
            .ok (chan, effects) ∧
          s' = { s with
            chan := chan
            answers := s.answers ++ [(id, payload, effects)]
            running := true }
    | .doneReturns => s.running = true ∧ s' = { s with running := false }

/-- Every response was matched to its call, and will be. -/
structure Matched (s : RpcClient) : Prop where
  /-- The channel holds exactly the calls sent and not answered, under their ids. -/
  outstanding : ∀ k out, s.chan.outstandings_ k = some out ↔
    ∃ id, (id, out) ∈ s.requests ∧ id ∉ s.answered ∧ key id = k
  /-- No two requests carry one id, and no id was answered twice. -/
  unique : (s.requests.map Prod.fst).Nodup ∧ s.answered.Nodup
  /-- A response was parsed into the object of the call with its id, whose
      callback was run once, and nothing else was done. -/
  answers : ∀ id payload effects, (id, payload, effects) ∈ s.answers →
    ∃ response done, (id, ⟨some response, some done⟩) ∈ s.requests ∧
      effects = [.parseResponse response payload, .runDone done]
  /-- The response to a request that is not answered yet will be accepted. -/
  accepts : ∀ id payload, id ∈ s.requests.map Prod.fst → id ∉ s.answered →
    ∃ chan effects,
      s.chan.onRpcMessage { type := .RESPONSE, id := id, response := payload } =
        .ok (chan, effects)

/-- What a run keeps: ids count up from a first one, every call has its two
    objects, and the map mirrors the history. -/
structure ClientInv (first : BitVec 64) (s : RpcClient) : Prop where
  next : s.chan.id_ = first + BitVec.ofNat 64 s.requests.length
  ids : ∀ (k : Nat) id out, s.requests[k]? = some (id, out) → id = first + BitVec.ofNat 64 k
  whole : ∀ id out, (id, out) ∈ s.requests →
    ∃ response done, out = ⟨some response, some done⟩
  asked : ∀ id ∈ s.answered, id ∈ s.requests.map Prod.fst
  once : s.answered.Nodup
  outstanding : ∀ k out, s.chan.outstandings_ k = some out ↔
    ∃ id, (id, out) ∈ s.requests ∧ id ∉ s.answered ∧ key id = k
  answers : ∀ id payload effects, (id, payload, effects) ∈ s.answers →
    ∃ response done, (id, ⟨some response, some done⟩) ∈ s.requests ∧
      effects = [.parseResponse response payload, .runDone done]

section client

variable {first : BitVec 64} {s : RpcClient}

theorem clientInv_initial {s : RpcClient} (h : clientSystem.init s) :
    ClientInv s.chan.id_ s := by
  obtain ⟨hempty, hrequests, hanswers, _⟩ := h
  have hanswered : s.answered = [] := by simp [RpcClient.answered, hanswers]
  constructor
  · simp [hrequests]
  · simp [hrequests]
  · simp [hrequests]
  · simp [hanswered]
  · simp [hanswered]
  · simp [hempty, hrequests]
  · simp [hanswers]

/-- Among fewer than 2^32 requests an id is found by its key. -/
theorem ClientInv.eq_of_key (h : ClientInv first s) (hcalls : s.requests.length ≤ 2 ^ 32)
    {id id' : BitVec 64} {out out' : OutstandingCall} (hid : (id, out) ∈ s.requests)
    (hid' : (id', out') ∈ s.requests) (hkey : key id = key id') : id = id' ∧ out = out' := by
  obtain ⟨j, hj⟩ := List.getElem?_of_mem hid
  obtain ⟨k, hk⟩ := List.getElem?_of_mem hid'
  obtain ⟨hjlt, _⟩ := List.getElem?_eq_some_iff.mp hj
  obtain ⟨hklt, _⟩ := List.getElem?_eq_some_iff.mp hk
  rw [h.ids j id out hj, h.ids k id' out' hk] at hkey
  obtain rfl : j = k := key_add_inj (by omega) (by omega) hkey
  rw [hj] at hk
  cases hk
  exact ⟨rfl, rfl⟩

/-- The key of the next request is not in use. -/
theorem ClientInv.key_next_ne (h : ClientInv first s) (hcalls : s.requests.length < 2 ^ 32)
    {id : BitVec 64} {out : OutstandingCall} (hid : (id, out) ∈ s.requests) :
    key id ≠ key s.chan.id_ := by
  obtain ⟨k, hk⟩ := List.getElem?_of_mem hid
  obtain ⟨hklt, _⟩ := List.getElem?_eq_some_iff.mp hk
  rw [h.ids k id out hk, h.next]
  intro hkey
  have := key_add_inj (by omega) hcalls hkey
  omega

/-- The map after a call. -/
theorem outstandings_callMethod (c : RpcChannel) (method : MethodDescriptor) (request : Bytes)
    (out : OutstandingCall) :
    (c.callMethod method request out).1.outstandings_ =
      Function.update c.outstandings_ (key c.id_) (some out) := by
  have hback : c.id_ + 1 - 1 = c.id_ := BitVec.add_sub_cancel c.id_ 1
  simp only [RpcChannel.callMethod, RpcChannel.fetchId, RpcChannel.store, hback]

theorem ClientInv.callMethod (h : ClientInv first s) (hcalls : s.requests.length < 2 ^ 32)
    (method : MethodDescriptor) (request : Bytes) (response done : Nat) :
    ClientInv first (s.callMethod method request ⟨some response, some done⟩) := by
  -- The new request carries the id that was next, which nobody has asked or answered.
  have hnew : s.chan.id_ ∉ s.answered := by
    intro hmem
    obtain ⟨⟨id, out⟩, hin, hid⟩ := List.mem_map.mp (h.asked _ hmem)
    obtain rfl : id = s.chan.id_ := hid
    exact h.key_next_ne hcalls hin rfl
  constructor
  · show s.chan.id_ + 1 = first + BitVec.ofNat 64 (s.requests ++ [_]).length
    rw [h.next, List.length_append, List.length_singleton, BitVec.ofNat_add, BitVec.add_assoc]
    rfl
  · intro k id out hget
    simp only [RpcClient.callMethod] at hget
    by_cases hk : k < s.requests.length
    · rw [List.getElem?_append_left hk] at hget
      exact h.ids k id out hget
    · obtain ⟨hlt, _⟩ := List.getElem?_eq_some_iff.mp hget
      rw [List.length_append, List.length_singleton] at hlt
      obtain rfl : k = s.requests.length := by omega
      rw [List.getElem?_append_right (Nat.le_refl _), Nat.sub_self] at hget
      cases hget
      exact h.next
  · intro id out hmem
    rcases List.mem_append.mp hmem with hold | hlast
    · exact h.whole id out hold
    · cases List.mem_singleton.mp hlast
      exact ⟨response, done, rfl⟩
  · intro id hid
    show id ∈ (s.requests ++ [_]).map Prod.fst
    rw [List.map_append]
    exact List.mem_append_left _ (h.asked id hid)
  · exact h.once
  · intro k out
    show (s.chan.callMethod method request ⟨some response, some done⟩).1.outstandings_ k =
      some out ↔ ∃ id, (id, out) ∈ s.requests ++ [(s.chan.id_, ⟨some response, some done⟩)] ∧
        id ∉ s.answered ∧ key id = k
    rw [outstandings_callMethod]
    by_cases hk : k = key s.chan.id_
    · subst hk
      rw [Function.update_self]
      constructor
      · intro hout
        cases hout
        exact ⟨s.chan.id_, by simp, hnew, rfl⟩
      · intro hcase
        rcases hcase with ⟨id, hmem, _, hkey⟩
        rcases List.mem_append.mp hmem with hold | hlast
        · exact absurd hkey (h.key_next_ne hcalls hold)
        · cases List.mem_singleton.mp hlast
          rfl
    · -- Under another key nothing changes.
      rw [Function.update_of_ne hk, h.outstanding]
      constructor
      · intro hcase
        rcases hcase with ⟨id, hmem, hun, hkey⟩
        exact ⟨id, List.mem_append_left _ hmem, hun, hkey⟩
      · intro hcase
        rcases hcase with ⟨id, hmem, hun, hkey⟩
        rcases List.mem_append.mp hmem with hold | hlast
        · exact ⟨id, hold, hun, hkey⟩
        · cases List.mem_singleton.mp hlast
          exact absurd hkey.symm hk
  · intro id payload effects hmem
    obtain ⟨r, d, hin, heff⟩ := h.answers id payload effects hmem
    exact ⟨r, d, List.mem_append_left _ hin, heff⟩

/-- What the channel does with the response to a request that is not answered. -/
theorem ClientInv.onRpcMessage (h : ClientInv first s) {id : BitVec 64} (payload : Bytes)
    (hreq : id ∈ s.requests.map Prod.fst) (hun : id ∉ s.answered) :
    ∃ response done, (id, ⟨some response, some done⟩) ∈ s.requests ∧
      s.chan.onRpcMessage { type := .RESPONSE, id := id, response := payload } =
        .ok ({ s.chan with
            outstandings_ := Function.update s.chan.outstandings_ (key id) none },
          [.parseResponse response payload, .runDone done]) := by
  obtain ⟨⟨id', out⟩, hmem, hid⟩ := List.mem_map.mp hreq
  obtain rfl : id' = id := hid
  obtain ⟨response, done, rfl⟩ := h.whole id' out hmem
  have hfound := (h.outstanding (key id') _).mpr ⟨id', hmem, hun, rfl⟩
  refine ⟨response, done, hmem, ?_⟩
  simp only [RpcChannel.onRpcMessage, hfound]

theorem ClientInv.response (h : ClientInv first s) (hcalls : s.requests.length ≤ 2 ^ 32)
    {id : BitVec 64} {payload : Bytes} (hreq : id ∈ s.requests.map Prod.fst)
    (hun : id ∉ s.answered) {chan : RpcChannel} {effects : List RpcEffect}
    (hok : s.chan.onRpcMessage { type := .RESPONSE, id := id, response := payload } =
      .ok (chan, effects)) :
    ClientInv first { s with
      chan := chan, answers := s.answers ++ [(id, payload, effects)], running := true } := by
  obtain ⟨response, done, hmem, hok'⟩ := h.onRpcMessage payload hreq hun
  rw [hok'] at hok
  cases hok
  let entry := (id, payload, [RpcEffect.parseResponse response payload, .runDone done])
  have hanswered : ∀ i, i ∈ (s.answers ++ [entry]).map Prod.fst ↔ i ∈ s.answered ∨ i = id := by
    intro i
    simp [RpcClient.answered, entry]
  constructor
  · exact h.next
  · exact h.ids
  · exact h.whole
  · intro i hi
    rcases (hanswered i).mp hi with hold | rfl
    · exact h.asked i hold
    · exact hreq
  · show ((s.answers ++ [entry]).map Prod.fst).Nodup
    rw [List.map_append]
    exact List.nodup_append.mpr ⟨h.once, by simp, by
      rintro a ha b hb rfl
      obtain rfl : a = id := by simpa using hb
      exact hun ha⟩
  · intro k out
    show Function.update s.chan.outstandings_ (key id) none k = some out ↔
      ∃ i, (i, out) ∈ s.requests ∧ i ∉ (s.answers ++ [entry]).map Prod.fst ∧ key i = k
    by_cases hk : k = key id
    · -- The entry is gone, and no other request has its key.
      subst hk
      rw [Function.update_self]
      constructor
      · nofun
      · intro hcase
        rcases hcase with ⟨i, hi, hnot, hkey⟩
        obtain ⟨rfl, _⟩ := h.eq_of_key hcalls hi hmem hkey
        exact absurd ((hanswered i).mpr (.inr rfl)) hnot
    · rw [Function.update_of_ne hk, h.outstanding]
      constructor
      · intro hcase
        rcases hcase with ⟨i, hi, hnot, hkey⟩
        refine ⟨i, hi, ?_, hkey⟩
        intro hin
        rcases (hanswered i).mp hin with hold | rfl
        · exact hnot hold
        · exact hk hkey.symm
      · intro hcase
        rcases hcase with ⟨i, hi, hnot, hkey⟩
        exact ⟨i, hi, fun hold => hnot ((hanswered i).mpr (.inl hold)), hkey⟩
  · intro i payload' effects hin
    rcases List.mem_append.mp hin with hold | hlast
    · exact h.answers i payload' effects hold
    · cases List.mem_singleton.mp hlast
      exact ⟨response, done, hmem, rfl⟩

/-- With fewer than 2^32 calls the invariant holds in every reachable state. -/
theorem clientInv_reachable (s : RpcClient) (hs : clientSystem.Reachable s) :
    s.requests.length < 2 ^ 32 → ∃ first, ClientInv first s := by
  refine LTS.System.invariant
    (P := fun s => s.requests.length < 2 ^ 32 → ∃ first, ClientInv first s) ?_ ?_ s hs
  · intro s hinit _
    exact ⟨_, clientInv_initial hinit⟩
  · intro s l s' ih hstep hcalls
    simp only [clientSystem] at hstep
    match l with
    | .callMethod method request response done =>
      subst hstep
      simp only [RpcClient.callMethod, List.length_append, List.length_singleton] at hcalls
      obtain ⟨first, hinv⟩ := ih (by omega)
      exact ⟨first, hinv.callMethod (by omega) method request response done⟩
    | .response id payload =>
      obtain ⟨_, hreq, hun, chan, effects, hok, rfl⟩ := hstep
      have hcalls' : s.requests.length < 2 ^ 32 := hcalls
      obtain ⟨first, hinv⟩ := ih hcalls'
      exact ⟨first, hinv.response (by omega) hreq hun hok⟩
    | .doneReturns =>
      obtain ⟨_, rfl⟩ := hstep
      obtain ⟨first, hinv⟩ := ih hcalls
      exact ⟨first, ⟨hinv.next, hinv.ids, hinv.whole, hinv.asked, hinv.once, hinv.outstanding,
        hinv.answers⟩⟩

end client

/-- **Responses are matched to their calls**, in every run of fewer than 2^32
    calls. -/
theorem responses_matched_reachable (s : RpcClient) (hs : clientSystem.Reachable s)
    (hcalls : s.requests.length < 2 ^ 32) : Matched s := by
  obtain ⟨first, h⟩ := clientInv_reachable s hs hcalls
  refine ⟨h.outstanding, ⟨?_, h.once⟩, h.answers, ?_⟩
  · -- Ids at different places have different keys already.
    rw [List.nodup_iff_pairwise_ne, List.pairwise_map, List.pairwise_iff_getElem]
    intro j k hj hk hjk heq
    have hid : s.requests[j].1 = _ := h.ids j _ _ (List.getElem?_eq_getElem hj)
    have hid' : s.requests[k].1 = _ := h.ids k _ _ (List.getElem?_eq_getElem hk)
    rw [hid, hid'] at heq
    have := key_add_inj (by omega) (by omega) (congrArg key heq)
    omega
  · intro id payload hreq hun
    obtain ⟨response, done, _, hok⟩ := h.onRpcMessage payload hreq hun
    exact ⟨_, _, hok⟩

/-- Two calls, the second of which is answered first; its callback makes a third
    call. -/
theorem responses_matched_nested :
    ∃ s : RpcClient, s.requests.map Prod.fst = [5, 6, 7] ∧ s.answered = [6] ∧
      s.running = true ∧ Matched s := by
  have h0 : clientSystem.Reachable ⟨⟨5, fun _ => none, none⟩, [], [], false⟩ :=
    .start ⟨fun _ => rfl, rfl, rfl, rfl⟩
  have h1 := h0.next (.callMethod ⟨"Echo", "Say"⟩ [104] 1 2) (by exact rfl)
  have h2 := h1.next (.callMethod ⟨"Echo", "Say"⟩ [105] 3 4) (by exact rfl)
  have h3 := h2.next (.response 6 [111])
    (by exact ⟨rfl, by decide, by decide, _, _, rfl, rfl⟩)
  have h4 := h3.next (.callMethod ⟨"Echo", "Say"⟩ [106] 5 6) (by exact rfl)
  exact ⟨_, rfl, rfl, rfl, responses_matched_reachable _ h4 (by decide)⟩

/-! ## Many callers -/

/-- Where a thread is in its call of `CallMethod`, with the number of the call
    in the order of their increments of `id_`. -/
inductive CallPc where
  | idle
  /-- `id_` is incremented, the call not stored. -/
  | fetched (call : Nat) (out : OutstandingCall)
  /-- Stored, not sent. -/
  | stored (call : Nat)
  deriving DecidableEq, Repr

/-- One execution of the locked block: the call, the key it was stored under, and
    the entry that was there before. -/
structure StoreEvent where
  call : Nat
  key : BitVec 32
  replaced : Option OutstandingCall
  deriving DecidableEq, Repr

/-- A channel and the threads that call it. -/
structure RpcCallers (Tid : Type) where
  chan : RpcChannel
  /-- The value of `id_` before the first call. -/
  first : BitVec 64
  /-- How many calls have incremented `id_`. -/
  calls : Nat
  pc : Tid → CallPc
  stores : List StoreEvent
  /-- The calls stored whose response has not arrived. -/
  unanswered : List Nat
  sent : List Nat

inductive CallersLabel (Tid : Type) where
  /-- `id_++`, for the message. -/
  | fetch (t : Tid) (out : OutstandingCall)
  /-- The locked block. -/
  | store (t : Tid)
  | send (t : Tid)
  /-- The response to a call arrives. -/
  | answer (call : Nat) (payload : Bytes)

namespace RpcCallers

variable {Tid : Type}

/-- The id in the request of a call. -/
def idOf (s : RpcCallers Tid) (call : Nat) : BitVec 64 := s.first + BitVec.ofNat 64 call

/-- Every call was stored under the id its request carries, and replaced nothing. -/
def KeepsCalls (s : RpcCallers Tid) : Prop :=
  ∀ e ∈ s.stores, e.key = key (s.idOf e.call) ∧ e.replaced = none

end RpcCallers

/-- Threads that call, and responses to calls that were sent. -/
def callersSystem (Tid : Type) [DecidableEq Tid] :
    LTS.System (RpcCallers Tid) (CallersLabel Tid) where
  init := fun s =>
    s.chan.id_ = s.first ∧ (∀ k, s.chan.outstandings_ k = none) ∧ s.calls = 0 ∧
    (∀ t, s.pc t = .idle) ∧ s.stores = [] ∧ s.unanswered = [] ∧ s.sent = []
  step := fun s l s' =>
    match l with
    | .fetch t out =>
        s.pc t = .idle ∧
        s' = { s with
          chan := s.chan.fetchId.2
          calls := s.calls + 1
          pc := Function.update s.pc t (.fetched s.calls out) }
    | .store t =>
        ∃ call out, s.pc t = .fetched call out ∧
          s' = { s with
            chan := s.chan.store out
            -- The key is read off `id_` again, which other calls may have moved on.
            stores := s.stores ++
              [⟨call, key (s.chan.id_ - 1), s.chan.outstandings_ (key (s.chan.id_ - 1))⟩]
            unanswered := s.unanswered ++ [call]
            pc := Function.update s.pc t (.stored call) }
    | .send t =>
        ∃ call, s.pc t = .stored call ∧
          s' = { s with sent := s.sent ++ [call], pc := Function.update s.pc t .idle }
    | .answer call payload =>
        call ∈ s.sent ∧ call ∈ s.unanswered ∧
        ∃ chan effects,
          s.chan.onRpcMessage
            { type := .RESPONSE, id := s.idOf call, response := payload } = .ok (chan, effects) ∧
          s' = { s with chan := chan, unanswered := s.unanswered.erase call }

/-- When a call stores, the other calls that have incremented `id_` since it did
    are a multiple of 2^32, in practice none, and no unanswered call has a number
    that agrees with its own modulo 2^32. -/
def StoreOk {Tid : Type} (s : RpcCallers Tid) : CallersLabel Tid → Prop
  | .store t => ∀ call out, s.pc t = .fetched call out →
      (s.calls - 1 - call) % 2 ^ 32 = 0 ∧ ∀ m ∈ s.unanswered, m % 2 ^ 32 ≠ call % 2 ^ 32
  | _ => True

/-- What a run keeps whose stores are all right: the map has an entry exactly
    under the keys of the unanswered calls, one for each. -/
structure CallersInv {Tid : Type} (s : RpcCallers Tid) : Prop where
  next : s.chan.id_ = s.first + BitVec.ofNat 64 s.calls
  fetched : ∀ t call out, s.pc t = .fetched call out → call < s.calls
  held : ∀ k, s.chan.outstandings_ k ≠ none ↔ ∃ m ∈ s.unanswered, key (s.idOf m) = k
  apart : (s.unanswered.map fun m => m % 2 ^ 32).Nodup
  keeps : s.KeepsCalls

section callers

variable {Tid : Type} {s : RpcCallers Tid}

/-- The key a store uses is that of the call made last. -/
theorem CallersInv.key_last (h : CallersInv s) (hpos : 0 < s.calls) :
    key (s.chan.id_ - 1) = key (s.idOf (s.calls - 1)) := by
  obtain ⟨n, hn⟩ : ∃ n, s.calls = n + 1 := ⟨s.calls - 1, by omega⟩
  have hid : s.chan.id_ = s.idOf n + 1 := by
    rw [h.next, RpcCallers.idOf, hn, BitVec.ofNat_add, BitVec.add_assoc]
    rfl
  rw [hid, BitVec.add_sub_cancel, hn, Nat.add_sub_cancel]

/-- The store of a call is right exactly if the key is its own and free. -/
theorem CallersInv.store_iff (h : CallersInv s) {call : Nat} (hcall : call < s.calls) :
    (key (s.chan.id_ - 1) = key (s.idOf call) ∧
      s.chan.outstandings_ (key (s.chan.id_ - 1)) = none) ↔
    (s.calls - 1 - call) % 2 ^ 32 = 0 ∧ ∀ m ∈ s.unanswered, m % 2 ^ 32 ≠ call % 2 ^ 32 := by
  have hkey : key (s.chan.id_ - 1) = key (s.idOf call) ↔ (s.calls - 1 - call) % 2 ^ 32 = 0 := by
    rw [h.key_last (by omega), RpcCallers.idOf, RpcCallers.idOf, key_add_eq_iff]
    omega
  have hfree : s.chan.outstandings_ (key (s.idOf call)) = none ↔
      ∀ m ∈ s.unanswered, m % 2 ^ 32 ≠ call % 2 ^ 32 := by
    have hheld := h.held (key (s.idOf call))
    constructor
    · intro hnone m hm heq
      exact hheld.mpr ⟨m, hm, (key_add_eq_iff s.first m call).mpr heq⟩ hnone
    · intro hall
      by_contra hsome
      obtain ⟨m, hm, hkeys⟩ := hheld.mp hsome
      exact hall m hm ((key_add_eq_iff s.first m call).mp hkeys)
  constructor
  · intro hcase
    rcases hcase with ⟨hown, hnone⟩
    rw [hown] at hnone
    exact ⟨hkey.mp hown, hfree.mp hnone⟩
  · intro hcase
    rcases hcase with ⟨hlast, hall⟩
    have hown := hkey.mpr hlast
    rw [hown]
    exact ⟨rfl, hfree.mpr hall⟩

theorem CallersInv.store (h : CallersInv s) {s' : RpcCallers Tid} {call : Nat}
    {out : OutstandingCall} (hfirst : s'.first = s.first) (hcalls : s'.calls = s.calls)
    (hchan : s'.chan = s.chan.store out)
    (hfetched : ∀ t call out, s'.pc t = .fetched call out → call < s.calls)
    (hstores : s'.stores = s.stores ++
      [⟨call, key (s.chan.id_ - 1), s.chan.outstandings_ (key (s.chan.id_ - 1))⟩])
    (hunanswered : s'.unanswered = s.unanswered ++ [call])
    (hown : key (s.chan.id_ - 1) = key (s.idOf call))
    (hnone : s.chan.outstandings_ (key (s.chan.id_ - 1)) = none)
    (hapart : ∀ m ∈ s.unanswered, m % 2 ^ 32 ≠ call % 2 ^ 32) : CallersInv s' := by
  have hidOf : ∀ m, s'.idOf m = s.idOf m := by
    intro m
    rw [RpcCallers.idOf, hfirst, RpcCallers.idOf]
  constructor
  · rw [hchan, hfirst, hcalls]
    exact h.next
  · rw [hcalls]
    exact hfetched
  · intro k
    rw [hchan, RpcChannel.store, hown, hunanswered]
    simp only [hidOf, List.mem_append, List.mem_singleton]
    by_cases hk : k = key (s.idOf call)
    · subst hk
      rw [Function.update_self]
      simp only [ne_eq, reduceCtorEq, not_false_eq_true, true_iff]
      exact ⟨call, .inr rfl, rfl⟩
    · rw [Function.update_of_ne hk, h.held]
      constructor
      · intro hcase
        rcases hcase with ⟨m, hm, hkey⟩
        exact ⟨m, .inl hm, hkey⟩
      · intro hcase
        rcases hcase with ⟨m, hm | rfl, hkey⟩
        · exact ⟨m, hm, hkey⟩
        · exact absurd hkey.symm hk
  · rw [hunanswered, List.map_append]
    apply List.nodup_append.mpr
    refine ⟨h.apart, by simp, ?_⟩
    intro a ha b hb
    obtain ⟨m, hm, rfl⟩ := List.mem_map.mp ha
    obtain rfl : b = call % 2 ^ 32 := by simpa using hb
    exact hapart m hm
  · intro e he
    rw [hstores] at he
    rw [hidOf]
    rcases List.mem_append.mp he with hold | hlast
    · exact h.keeps e hold
    · cases List.mem_singleton.mp hlast
      exact ⟨hown, hnone⟩

/-- The entry of an answered call is gone, and no other. -/
theorem CallersInv.held_erase (h : CallersInv s) {call : Nat} (hcall : call ∈ s.unanswered)
    (k : BitVec 32) :
    Function.update s.chan.outstandings_ (key (s.idOf call)) none k ≠ none ↔
      ∃ m ∈ s.unanswered.erase call, key (s.idOf m) = k := by
  have hmem : ∀ m, m ∈ s.unanswered.erase call ↔ m ≠ call ∧ m ∈ s.unanswered :=
    fun m => (List.Nodup.of_map _ h.apart).mem_erase_iff
  by_cases hk : k = key (s.idOf call)
  · subst hk
    rw [Function.update_self]
    constructor
    · intro hne
      exact absurd rfl hne
    · intro hcase
      rcases hcase with ⟨m, hm, hkey⟩
      obtain ⟨hne, hin⟩ := (hmem m).mp hm
      -- Unanswered calls differ modulo 2^32.
      have hmod := (key_add_eq_iff s.first m call).mp hkey
      exact absurd (List.inj_on_of_nodup_map h.apart hin hcall hmod) hne
  · rw [Function.update_of_ne hk, h.held]
    constructor
    · intro hcase
      rcases hcase with ⟨m, hm, hkey⟩
      refine ⟨m, (hmem m).mpr ⟨?_, hm⟩, hkey⟩
      rintro rfl
      exact hk hkey.symm
    · intro hcase
      rcases hcase with ⟨m, hm, hkey⟩
      exact ⟨m, ((hmem m).mp hm).2, hkey⟩

variable [DecidableEq Tid]

/-- A step that does not move a thread to `fetched` keeps the bound on the calls
    of the threads that are there. -/
theorem fetched_update (h : CallersInv s) (t : Tid) {pc : CallPc}
    (hpc : ∀ call out, pc ≠ .fetched call out) :
    ∀ t' call out, Function.update s.pc t pc t' = .fetched call out → call < s.calls := by
  intro t' call out hat
  by_cases ht : t' = t
  · subst ht
    rw [Function.update_self] at hat
    exact absurd hat (hpc call out)
  · rw [Function.update_of_ne ht] at hat
    exact h.fetched t' call out hat

theorem callersInv_preserved (s : RpcCallers Tid) (l : CallersLabel Tid) (s' : RpcCallers Tid)
    (h : CallersInv s) (hstep : ((callersSystem Tid).restrict StoreOk).step s l s') :
    CallersInv s' := by
  obtain ⟨hok, hstep⟩ := hstep
  simp only [callersSystem] at hstep
  match l with
  | .fetch t out =>
    obtain ⟨_, rfl⟩ := hstep
    refine ⟨?_, ?_, h.held, h.apart, h.keeps⟩
    · show s.chan.id_ + 1 = s.first + BitVec.ofNat 64 (s.calls + 1)
      rw [h.next, BitVec.ofNat_add, BitVec.add_assoc]
      rfl
    · intro t' call out' hat
      show call < s.calls + 1
      by_cases ht : t' = t
      · subst ht
        simp only [Function.update_self] at hat
        cases hat
        omega
      · simp only [Function.update_of_ne ht] at hat
        have := h.fetched t' call out' hat
        omega
  | .store t =>
    obtain ⟨call, out, hpc, rfl⟩ := hstep
    have hcond := hok call out hpc
    obtain ⟨hown, hnone⟩ := (h.store_iff (h.fetched t call out hpc)).mpr hcond
    exact h.store rfl rfl rfl (fetched_update h t nofun) rfl rfl hown hnone hcond.2
  | .send t =>
    obtain ⟨call, _, rfl⟩ := hstep
    exact ⟨h.next, fetched_update h t nofun, h.held, h.apart, h.keeps⟩
  | .answer call payload =>
    obtain ⟨_, hcall, chan, effects, hmsg, rfl⟩ := hstep
    obtain rfl := onRpcMessage_response hmsg
    refine ⟨h.next, h.fetched, h.held_erase hcall, ?_, h.keeps⟩
    show ((s.unanswered.erase call).map fun m => m % 2 ^ 32).Nodup
    exact h.apart.sublist (List.erase_sublist.map _)

end callers

/-- **Concurrent calls keep each other's entries** exactly as long as every store
    is right: in a run whose stores all are, every call was stored under the id
    of its own request and replaced no other; and any further step keeps this
    exactly if it is right too. -/
theorem callers_keep_calls_iff {Tid : Type} [DecidableEq Tid] (s : RpcCallers Tid)
    (hs : ((callersSystem Tid).restrict StoreOk).Reachable s) :
    s.KeepsCalls ∧
    ∀ l s', (callersSystem Tid).step s l s' → (s'.KeepsCalls ↔ StoreOk s l) := by
  have hinv : CallersInv s := by
    refine LTS.System.invariant ?_ callersInv_preserved s hs
    intro s hcase
    rcases hcase with ⟨hid, hempty, hcalls, hpc, hstores, hunanswered, _⟩
    constructor
    · simp [hid, hcalls]
    · intro t call out hat
      rw [hpc] at hat
      cases hat
    · simp [hempty, hunanswered]
    · simp [hunanswered]
    · intro e he
      rw [hstores] at he
      cases he
  refine ⟨hinv.keeps, ?_⟩
  intro l s' hstep
  constructor
  · intro hkeeps
    match l with
    | .fetch t out => trivial
    | .send t => trivial
    | .answer call payload => trivial
    | .store t =>
      intro call out hpc
      obtain ⟨call', out', hpc', rfl⟩ := hstep
      rw [hpc'] at hpc
      cases hpc
      apply (hinv.store_iff (hinv.fetched t call out hpc')).mp
      exact hkeeps ⟨call, key (s.chan.id_ - 1), s.chan.outstandings_ (key (s.chan.id_ - 1))⟩
        (List.mem_append_right _ List.mem_cons_self)
  · intro hok
    exact (callersInv_preserved s l s' hinv ⟨hok, hstep⟩).keeps

/-- A channel that has not been called, with `id_` at 0. -/
def freshCallers : RpcCallers Nat where
  chan := ⟨0, fun _ => none, none⟩
  first := 0
  calls := 0
  pc := fun _ => .idle
  stores := []
  unanswered := []
  sent := []

theorem freshCallers_init : (callersSystem Nat).init freshCallers :=
  ⟨rfl, fun _ => rfl, rfl, fun _ => rfl, rfl, rfl, rfl⟩

/-- Two calls, one after the other. -/
theorem callers_keep_calls_apart :
    ∃ s : RpcCallers Nat, s.stores = [⟨0, 0, none⟩, ⟨1, 1, none⟩] ∧ s.KeepsCalls := by
  have h0 : ((callersSystem Nat).restrict StoreOk).Reachable freshCallers :=
    .start freshCallers_init
  have h1 := h0.next (.fetch 0 ⟨some 1, some 2⟩) (by exact ⟨trivial, rfl, rfl⟩)
  have h2 := h1.next (.store 0) (by
    refine ⟨?_, ⟨0, ⟨some 1, some 2⟩, rfl, rfl⟩⟩
    intro call out hpc
    cases hpc
    decide)
  have h3 := h2.next (.fetch 1 ⟨some 3, some 4⟩) (by exact ⟨trivial, rfl, rfl⟩)
  have h4 := h3.next (.store 1) (by
    refine ⟨?_, ⟨1, ⟨some 3, some 4⟩, rfl, rfl⟩⟩
    intro call out hpc
    cases hpc
    decide)
  exact ⟨_, rfl, (callers_keep_calls_iff _ h4).1⟩

/-- Both threads increment `id_` before either of them stores: the first call is
    stored under the id of the second, which then takes its place. -/
theorem callers_lose_call :
    ∃ s : RpcCallers Nat, (callersSystem Nat).Reachable s ∧
      s.stores = [⟨0, 1, none⟩, ⟨1, 1, some ⟨some 1, some 2⟩⟩] ∧ ¬ s.KeepsCalls := by
  have h0 : (callersSystem Nat).Reachable freshCallers := .start freshCallers_init
  have h1 := h0.next (.fetch 0 ⟨some 1, some 2⟩) (by exact ⟨rfl, rfl⟩)
  have h2 := h1.next (.fetch 1 ⟨some 3, some 4⟩) (by exact ⟨rfl, rfl⟩)
  have h3 := h2.next (.store 0) (by exact ⟨0, ⟨some 1, some 2⟩, rfl, rfl⟩)
  have h4 := h3.next (.store 1) (by exact ⟨1, ⟨some 3, some 4⟩, rfl, rfl⟩)
  refine ⟨_, h4, rfl, ?_⟩
  intro hkeeps
  have hfirst := (hkeeps ⟨0, 1, none⟩ List.mem_cons_self).1
  revert hfirst
  decide

end JNet

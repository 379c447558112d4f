import JNet.Net.HttpConn
import JNet.Net.HttpDecode

/-! # What an HTTP server makes of a stream

    Nothing calls `SetContext` with an `HttpContext`, so the first chunk of a
    stream throws.  With a context, a connection whose peer has a port below
    32768 is taken for a client and decodes no request, and any other one comes
    to an end with its first request.
-/

namespace JNet

open Memory Strings HttpFault

/-! ## Runs -/

namespace HttpConn

variable {srv : HttpServer} {steps : Nat} {c c' : HttpConn} {ctx : HttpContext}

theorem anyCast_ok (h : c.anyCast = .ok ctx) : c.ctx_ = some ctx := by
  unfold anyCast at h
  split at h
  · rename_i ctx' hctx
    cases h
    exact hctx
  · cases h

/-- Without a context nothing is decoded. -/
theorem receive_badCast (hctx : c.ctx_ = none) (hlive : c.closed = false) (chunk : Bytes) :
    receive srv steps c chunk = .error .badCast := by
  unfold receive handleRead_ anyCast
  rw [if_neg (by rw [hlive]; decide)]
  simp only [hctx]
  rfl

theorem consume_ok {n : Int} (h : c.consume n = .ok c') :
    ∃ rest, c' = { c with input_ := rest } := by
  unfold consume at h
  split at h
  · cases h
    exact ⟨_, rfl⟩
  · cases h

/-- A client clears its response, a server its request. -/
theorem clearData_ok (h : c.clearData = .ok c') :
    c'.port = c.port ∧ c'.calls = c.calls ∧ ∃ ctx ctx', c.ctx_ = some ctx ∧ c'.ctx_ = some ctx' ∧
      (c.isClient = true → ctx'.req = ctx.req) := by
  unfold clearData at h
  obtain ⟨ctx, hctx, h⟩ := bind_ok h
  split at h
  · obtain ⟨c₁, hc₁, h⟩ := bind_ok h
    cases h
    obtain ⟨rest, rfl⟩ := consume_ok hc₁
    exact ⟨rfl, rfl, ctx, _, anyCast_ok hctx, rfl, fun _ => rfl⟩
  · rename_i hserver
    obtain ⟨c₁, hc₁, h⟩ := bind_ok h
    cases h
    obtain ⟨rest, rfl⟩ := consume_ok hc₁
    exact ⟨rfl, rfl, ctx, _, anyCast_ok hctx, rfl, fun hclient => absurd hclient hserver⟩

/-- A handler is called once, with the request at hand. -/
theorem callback_ok (hctx : c.ctx_ = some ctx) (h : c.callback srv = .ok c') :
    c'.port = c.port ∧ c'.calls = c.calls ++ [⟨ctx.req, c.arrived⟩] ∧
      ∃ ctx', c'.ctx_ = some ctx' ∧ (c.isClient = true → ctx'.req = ctx.req) := by
  unfold callback at h
  obtain ⟨ctx₁, hctx₁, h⟩ := bind_ok h
  rw [anyCast_ok hctx₁] at hctx
  cases hctx
  unfold sendResponse at h
  obtain ⟨ctx₂, hctx₂, h⟩ := bind_ok h
  obtain ⟨hport, hcalls, ctx₃, ctx', hctx₃, hctx', hreq⟩ := clearData_ok h
  cases hctx₃
  exact ⟨hport, hcalls, ctx', hctx', hreq⟩

/-- What `HandleRead_` does, by what is decoded. -/
theorem handleRead_server (hserver : c.isClient = false) (hctx : c.ctx_ = some ctx)
    (h : c.handleRead_ srv steps = .ok c') :
    ∃ req result, ctx.req.tryDecode steps c.input_ = .ok (req, result) ∧
      (result = .Error ∧ c'.closed = true ∧ c'.calls = c.calls ∨
        result = .Complete ∧ (c.setContext { ctx with req }).callback srv = .ok c' ∨
        result = .NotComplete ∧ c' = c.setContext { ctx with req } ∨
        result = .Continue ∧ c'.calls = c.calls) := by
  unfold handleRead_ anyCast at h
  rw [hctx] at h
  replace h := bind_ok h
  obtain ⟨ctx₁, hctx₁, h⟩ := h
  cases hctx₁
  rw [if_pos (by rw [hserver]; rfl)] at h
  obtain ⟨⟨req, result⟩, hdecode, h⟩ := bind_ok h
  refine ⟨req, result, hdecode, ?_⟩
  cases result with
  | Error =>
    cases h
    exact .inl ⟨rfl, rfl, rfl⟩
  | Complete => exact .inr (.inl ⟨rfl, h⟩)
  | NotComplete =>
    cases h
    exact .inr (.inr (.inl ⟨rfl, rfl⟩))
  | Continue =>
    cases h
    exact .inr (.inr (.inr ⟨rfl, rfl⟩))

theorem handleRead_client (hclient : c.isClient = true) (hctx : c.ctx_ = some ctx)
    (h : c.handleRead_ srv steps = .ok c') :
    ∃ rep, (c.setContext { ctx with rep }).callback srv = .ok c' ∨
      c'.port = c.port ∧ c'.calls = c.calls ∧ c'.ctx_ = some { ctx with rep } := by
  unfold handleRead_ anyCast at h
  rw [hctx] at h
  obtain ⟨ctx₁, hctx₁, h⟩ := bind_ok h
  cases hctx₁
  rw [if_neg (by rw [hclient]; decide)] at h
  obtain ⟨⟨rep, result⟩, -, h⟩ := bind_ok h
  refine ⟨rep, ?_⟩
  cases result with
  | Complete => exact .inl h
  | Error =>
    cases h
    exact .inr ⟨rfl, rfl, rfl⟩
  | NotComplete =>
    cases h
    exact .inr ⟨rfl, rfl, rfl⟩
  | Continue =>
    cases h
    exact .inr ⟨rfl, rfl, rfl⟩

/-- The calls of a connection are recorded for good. -/
theorem handleRead_calls (h : c.handleRead_ srv steps = .ok c') : c.calls <+: c'.calls := by
  cases hctx : c.ctx_ with
  | none =>
    unfold handleRead_ anyCast at h
    rw [hctx] at h
    cases h
  | some ctx =>
    have hcall : ∀ ctx', (c.setContext ctx').callback srv = .ok c' → c.calls <+: c'.calls := by
      intro ctx' hcallback
      rw [(callback_ok rfl hcallback).2.1]
      exact List.prefix_append _ _
    cases hclient : c.isClient with
    | true =>
      obtain ⟨rep, hcallback | ⟨-, hcalls, -⟩⟩ := handleRead_client hclient hctx h
      · exact hcall _ hcallback
      · exact hcalls ▸ List.prefix_refl _
    | false =>
      obtain ⟨req, result, -, ⟨-, -, hcalls⟩ | ⟨-, hcallback⟩ | ⟨-, rfl⟩ | ⟨-, hcalls⟩⟩ :=
        handleRead_server hclient hctx h
      · exact hcalls ▸ List.prefix_refl _
      · exact hcall _ hcallback
      · exact List.prefix_refl _
      · exact hcalls ▸ List.prefix_refl _

/-- Bytes of the first request have arrived, and no handler was called. -/
structure Waiting (c : HttpConn) (delivered : Bytes) : Prop where
  server : c.isClient = false
  calls : c.calls = []
  live : c.closed = false
  input : c.input_ = delivered
  ctx : ∃ ctx, c.ctx_ = some ctx ∧ ctx.req.complete_ = false ∧ ctx.req.contentLen_ = 0

/-- The connection is closed, or the first handler saw something else. -/
def Failed (c : HttpConn) (r : HttpRequest) : Prop :=
  c.closed = true ∨ ∃ call, c.calls.head? = some call ∧ ¬ call.seen.Shows r

theorem Failed.not_answered {r : HttpRequest} {rs : List HttpRequest} (h : c.Failed r) :
    ¬ c.Answered (r :: rs) := by
  intro hans
  obtain hclosed | ⟨call, hcall, hshows⟩ := h
  · rw [hans.live] at hclosed
    cases hclosed
  · have hcalls := hans.calls
    generalize c.calls = calls at hcall hcalls
    cases hcalls with
    | cons hfirst _ =>
      cases hcall
      exact hshows hfirst

theorem Failed.receive {r : HttpRequest} {chunk : Bytes} (h : c.Failed r)
    (hok : receive srv steps c chunk = .ok c') : c'.Failed r := by
  unfold HttpConn.receive at hok
  by_cases hclosed : c.closed = true
  · rw [if_pos hclosed] at hok
    cases hok
    exact .inl hclosed
  · rw [if_neg hclosed] at hok
    obtain hclosed' | ⟨call, hcall, hshows⟩ := h
    · exact absurd hclosed' hclosed
    · obtain ⟨later, hlater⟩ := handleRead_calls hok
      refine .inr ⟨call, ?_, hshows⟩
      rw [← hlater, List.head?_append_of_ne_nil _ (by intro hnil; rw [hnil] at hcall; cases hcall)]
      exact hcall

theorem Waiting.receive {r : HttpRequest} {delivered chunk t : Bytes} (h : c.Waiting delivered)
    (hwf : r.WellFormed) (hsmall : r.head.length < 2 ^ 31)
    (hstream : delivered ++ chunk <+: r.head ++ t)
    (hok : receive srv steps c chunk = .ok c') :
    c'.Waiting (delivered ++ chunk) ∨ c'.Failed r := by
  obtain ⟨ctx, hctx, hcomplete, hlen⟩ := h.ctx
  unfold HttpConn.receive at hok
  rw [if_neg (by rw [h.live]; decide)] at hok
  let c₁ : HttpConn :=
    { c with input_ := c.input_ ++ chunk, arrived := c.arrived + chunk.length }
  obtain ⟨req, result, hdecode, hcases⟩ :=
    handleRead_server (show c₁.isClient = false from h.server) hctx hok
  replace hdecode : ctx.req.tryDecode steps (delivered ++ chunk) = .ok (req, result) := by
    rw [← h.input]
    exact hdecode
  have hfirst := HttpRequest.tryDecode_first hwf hsmall hstream hcomplete hlen hdecode
  obtain ⟨rfl, hclosed, -⟩ | ⟨rfl, hcallback⟩ | ⟨rfl, rfl⟩ | ⟨rfl, -⟩ := hcases
  · exact .inr (.inl hclosed)
  -- Complete: the handler is called, with another version.
  · obtain hfirst | ⟨hfirst, -⟩ | ⟨-, hversion⟩ := hfirst
    · cases hfirst
    · cases hfirst
    · have hcalls := (callback_ok rfl hcallback).2.1
      refine .inr (.inr ⟨⟨req, c₁.arrived⟩, ?_, fun hshows => hversion hshows.version⟩)
      rw [hcalls, show (c₁.setContext { ctx with req }).calls = [] from h.calls]
      rfl
  -- Not complete: the next chunk is decoded from the start again.
  · obtain hfirst | ⟨-, hcomplete', hlen'⟩ | ⟨hfirst, -⟩ := hfirst
    · cases hfirst
    · exact .inl ⟨h.server, h.calls, h.live, by rw [← h.input]; rfl, _, rfl, hcomplete', hlen'⟩
    · cases hfirst
  · obtain hfirst | ⟨hfirst, -⟩ | ⟨hfirst, -⟩ := hfirst
    · cases hfirst
    · cases hfirst
    · cases hfirst

/-- The first request of a stream is not answered, whatever the chunks are. -/
theorem run_server {r : HttpRequest} {t : Bytes} (hwf : r.WellFormed)
    (hsmall : r.head.length < 2 ^ 31) (chunks : List Bytes) {delivered : Bytes}
    (h : c.Waiting delivered ∨ c.Failed r) (hstream : delivered ++ chunks.flatten = r.head ++ t)
    (hrun : LTS.run (receive srv steps) c chunks = .ok c') : c'.calls = [] ∨ c'.Failed r := by
  induction chunks generalizing c delivered with
  | nil =>
    cases hrun
    obtain hwaiting | hfailed := h
    · exact .inl hwaiting.calls
    · exact .inr hfailed
  | cons chunk chunks ih =>
    rw [LTS.run_cons] at hrun
    obtain ⟨c₁, hc₁, hrun⟩ := bind_ok hrun
    rw [List.flatten_cons, ← List.append_assoc] at hstream
    refine ih ?_ hstream hrun
    obtain hwaiting | hfailed := h
    · exact hwaiting.receive hwf hsmall ⟨_, hstream⟩ hc₁
    · exact .inr (hfailed.receive hc₁)

/-- A connection that is taken for a client has decoded no request. -/
structure Undecoded (c : HttpConn) : Prop where
  client : c.isClient = true
  ctx : ∃ ctx, c.ctx_ = some ctx ∧ ctx.req = HttpRequest.clear
  calls : ∀ call ∈ c.calls, call.seen = HttpRequest.clear

theorem Undecoded.receive {chunk : Bytes} (h : c.Undecoded)
    (hok : receive srv steps c chunk = .ok c') : c'.Undecoded := by
  obtain ⟨ctx, hctx, hreq⟩ := h.ctx
  unfold HttpConn.receive at hok
  by_cases hclosed : c.closed = true
  · rw [if_pos hclosed] at hok
    cases hok
    exact h
  · rw [if_neg hclosed] at hok
    let c₁ : HttpConn :=
      { c with input_ := c.input_ ++ chunk, arrived := c.arrived + chunk.length }
    have hclient : c₁.isClient = true := h.client
    obtain ⟨rep, hcallback | ⟨hport, hcalls, hctx'⟩⟩ := handleRead_client hclient hctx hok
    · obtain ⟨hport, hcalls, ctx', hctx', hreq'⟩ := callback_ok rfl hcallback
      refine ⟨?_, ⟨ctx', hctx', (hreq' hclient).trans hreq⟩, ?_⟩
      · unfold isClient
        rw [hport]
        exact hclient
      · rw [hcalls]
        intro call hcall
        obtain hcall | hcall := List.mem_append.mp hcall
        · exact h.calls call hcall
        · rw [List.mem_singleton.mp hcall]
          exact hreq
    · refine ⟨?_, ⟨_, hctx', hreq⟩, ?_⟩
      · unfold isClient
        rw [hport]
        exact hclient
      · rw [hcalls]
        exact h.calls

theorem Undecoded.not_answered {r : HttpRequest} {rs : List HttpRequest} (h : c.Undecoded)
    (hwf : r.WellFormed) : ¬ c.Answered (r :: rs) := by
  intro hans
  have hall := h.calls
  have hcalls := hans.calls
  generalize c.calls = calls at hall hcalls
  cases hcalls with
  | cons hfirst _ =>
    -- A handler has seen a cleared request, whose uri is empty.
    have huri := hwf.uri.1
    rw [← hfirst.uri, hall _ (by simp)] at huri
    cases huri

end HttpConn

/-! ## Serving a stream -/

section Serving

variable (srv : HttpServer) (port : BitVec 16) {rs : List HttpRequest} {chunks : List Bytes}

theorem HttpRequest.encode_ne_nil (r : HttpRequest) : r.encode ≠ [] := by
  unfold encode HttpMsg.encodeRest
  simp [ascii]

theorem httpStream_cons (r : HttpRequest) (rs : List HttpRequest) :
    httpStream (r :: rs) = r.head ++ (r.body_ ++ httpStream rs) := by
  unfold httpStream
  rw [List.map_cons, List.flatten_cons, r.encode_eq, List.append_assoc]

/-- Without requests there is nothing to answer. -/
theorem serves_nil {c : HttpConn} (hne : ∀ chunk ∈ chunks, chunk ≠ [])
    (hstream : chunks.flatten = httpStream []) (hans : c.Answered []) : Serves srv c chunks [] := by
  have hnil : chunks = [] := by
    cases chunks with
    | nil => rfl
    | cons chunk chunks =>
      have hempty : chunk = [] := List.flatten_eq_nil_iff.mp hstream chunk (by simp)
      exact absurd hempty (hne chunk (by simp))
  subst hnil
  exact ⟨0, c, rfl, hans⟩

/-- No request reaches a handler on a connection as the server makes it. -/
theorem not_serves_created {r : HttpRequest} (hstream : chunks.flatten = httpStream (r :: rs)) :
    ¬ Serves srv (.create port) chunks (r :: rs) := by
  intro ⟨steps, c, hrun, hans⟩
  cases chunks with
  | nil =>
    have hempty : r.encode = [] := (List.append_eq_nil_iff.mp hstream.symm).1
    exact r.encode_ne_nil hempty
  | cons chunk chunks =>
    -- The first chunk throws.
    rw [LTS.run_cons, HttpConn.receive_badCast rfl rfl] at hrun
    cases hrun

/-- With a context the first one does not get through either. -/
theorem not_serves_context {r : HttpRequest} (hwf : r.WellFormed)
    (hsmall : r.head.length < 2 ^ 31) (hstream : chunks.flatten = httpStream (r :: rs)) :
    ¬ Serves srv ((HttpConn.create port).setContext .clear) chunks (r :: rs) := by
  intro ⟨steps, c, hrun, hans⟩
  let c₀ : HttpConn := (HttpConn.create port).setContext .clear
  cases hclient : c₀.isClient with
  | true =>
    have hstart : c₀.Undecoded := ⟨hclient, ⟨_, rfl, rfl⟩, by intro call hcall; cases hcall⟩
    have hend := LTS.run_invariant (fun _ _ _ h hok => h.receive hok) chunks c₀ c hstart hrun
    exact hend.not_answered hwf hans
  | false =>
    have hstart : c₀.Waiting [] := ⟨hclient, rfl, rfl, rfl, _, rfl, rfl, rfl⟩
    rw [httpStream_cons] at hstream
    obtain hnone | hfailed := HttpConn.run_server hwf hsmall chunks (.inl hstart) hstream hrun
    · have hcalls := hans.calls
      rw [hnone] at hcalls
      cases hcalls
    · exact hfailed.not_answered hans

/-- A stream of requests is served as it should be iff it is empty: `AnyCast` throws on a
    connection as the server makes it, and with a context `DecodeHeader_` does not return. -/
theorem http_served_iff (hwf : ∀ r ∈ rs, r.WellFormed) (hne : ∀ chunk ∈ chunks, chunk ≠ [])
    (hstream : chunks.flatten = httpStream rs) :
    (Serves srv (.create port) chunks rs ↔ rs = []) ∧
      ((∀ r ∈ rs, r.head.length < 2 ^ 31) →
        (Serves srv ((HttpConn.create port).setContext .clear) chunks rs ↔ rs = [])) := by
  cases rs with
  | nil =>
    have hanswered : ∀ ctx_, { HttpConn.create port with ctx_ }.Answered [] := by
      intro ctx_
      refine ⟨.nil, ?_, rfl, rfl⟩
      intro n call h
      cases h
    have hcreated := serves_nil srv hne hstream (hanswered none)
    have hcontext := serves_nil srv hne hstream (hanswered (some .clear))
    exact ⟨⟨fun _ => rfl, fun _ => hcreated⟩, fun _ => ⟨fun _ => rfl, fun _ => hcontext⟩⟩
  | cons r rs =>
    refine ⟨?_, fun hsmall => ?_⟩
    · exact ⟨fun h => absurd h (not_serves_created srv port hstream), fun h => by cases h⟩
    · have hnot := not_serves_context srv port (hwf r (by simp)) (hsmall r (by simp)) hstream
      exact ⟨fun h => absurd h hnot, fun h => by cases h⟩

end Serving

/-- `GET /`. -/
def getRoot : HttpRequest :=
  { HttpRequest.clear with method_ := ascii "GET", query_uri_ := ascii "/" }

theorem getRoot_wellFormed : getRoot.WellFormed where
  method := by simp [getRoot, ascii]
  uri := by simp [getRoot, ascii]
  names := by simp [getRoot, HttpRequest.clear, HttpMsg.clear]
  values := by simp [getRoot, HttpRequest.clear, HttpMsg.clear]
  trimmed := by simp [getRoot, HttpRequest.clear, HttpMsg.clear]

/-- The server as it is made. -/
def emptyServer : HttpServer where
  cbs_ := fun _ _ => none
  defcb_ := HttpServer.notFound

/-- The request comes in two pieces. -/
theorem http_served_get :
    ¬ Serves emptyServer (.create 40000) [getRoot.encode.take 9, getRoot.encode.drop 9] [getRoot] ∧
      ¬ Serves emptyServer ((HttpConn.create 40000).setContext .clear)
        [getRoot.encode.take 9, getRoot.encode.drop 9] [getRoot] := by
  have hwf : ∀ r ∈ [getRoot], r.WellFormed := by
    intro r hr
    rw [List.mem_singleton.mp hr]
    exact getRoot_wellFormed
  have hne : ∀ chunk ∈ [getRoot.encode.take 9, getRoot.encode.drop 9], chunk ≠ [] := by decide
  have hstream : [getRoot.encode.take 9, getRoot.encode.drop 9].flatten = httpStream [getRoot] := by
    simp [httpStream]
  obtain ⟨hcreated, hcontext⟩ := http_served_iff emptyServer 40000 hwf hne hstream
  have hsmall : ∀ r ∈ [getRoot], r.head.length < 2 ^ 31 := by decide
  rw [hcreated, hcontext hsmall]
  exact ⟨by simp, by simp⟩

/-- A whole `GET /` from port 40000. -/
theorem http_request_throws :
    getRoot.WellFormed ∧ [getRoot.encode].flatten = httpStream [getRoot] ∧ getRoot.encode ≠ [] ∧
      (∀ steps, LTS.run (HttpConn.receive emptyServer steps) (.create 40000) [getRoot.encode] =
        .error .badCast) ∧
      ¬ Serves emptyServer (.create 40000) [getRoot.encode] [getRoot] := by
  refine ⟨getRoot_wellFormed, rfl, by decide, ?_, not_serves_created emptyServer 40000 rfl⟩
  intro steps
  rw [LTS.run_cons, HttpConn.receive_badCast rfl rfl]
  rfl

end JNet

import JNet.Lib.LTS
import JNet.Net.HttpMsg

/-! # `jnet::HttpConnPtr` and `jnet::HttpServer`

    A connection of an HTTP server (`net/http.cc`): each chunk that arrives goes
    to the end of the input buffer and `HandleRead_` is called once.  The request
    and the response being worked on are in the context of the connection, an
    `Any` that holds nothing until `SetContext`.  A handler is what it makes of
    the response before it calls `SendResponse`.  `calls` records what the
    handlers saw and how many bytes had arrived by then.  After `Close` no event
    comes.
-/

namespace JNet

open Memory Strings

/-! ## State -/

/-- `HttpConnPtr::HttpContext`. -/
structure HttpContext where
  req : HttpRequest
  rep : HttpResponse
  deriving DecidableEq, Repr

def HttpContext.clear : HttpContext where
  req := HttpRequest.clear
  rep := HttpResponse.clear

/-- A handler, by the response it leaves. -/
abbrev HttpHandler : Type := HttpContext → HttpResponse

structure HttpServer where
  /-- The handlers of `OnRequest`, by method and uri. -/
  cbs_ : Bytes → Bytes → Option HttpHandler
  defcb_ : HttpHandler

structure HttpCall where
  seen : HttpRequest
  arrived : Nat
  deriving DecidableEq, Repr

structure HttpConn where
  /-- The port of the peer. -/
  port : BitVec 16
  input_ : Bytes
  output_ : Bytes
  /-- `none` is any value that is not an `HttpContext`. -/
  ctx_ : Option HttpContext
  closed : Bool
  arrived : Nat
  calls : List HttpCall
  deriving DecidableEq, Repr

/-- The handler that is set when the server is made. -/
def HttpServer.notFound : HttpHandler := fun ctx =>
  { ctx.rep with
    status_ := 404
    statusWord_ := ascii "Not Found"
    body_ := ascii "Not Found" }

/-- The handler for a request. -/
def HttpServer.dispatch (srv : HttpServer) (ctx : HttpContext) : HttpResponse :=
  (srv.cbs_ ctx.req.method_ ctx.req.uri_).getD srv.defcb_ ctx

namespace HttpConn

/-- The connection that `TcpServer` makes. -/
def create (port : BitVec 16) : HttpConn where
  port := port
  input_ := []
  output_ := []
  ctx_ := none
  closed := false
  arrived := 0
  calls := []

def setContext (c : HttpConn) (ctx : HttpContext) : HttpConn := { c with ctx_ := some ctx }

/-- `peerAddr_.GetPort() > 0`, where `GetPort` returns a `short`. -/
def isClient (c : HttpConn) : Bool := 0 < c.port.toInt

/-! ## Operations -/

/-- `GetContext().AnyCast<HttpContext>()`. -/
def anyCast (c : HttpConn) : Except HttpFault HttpContext :=
  match c.ctx_ with
  | some ctx => .ok ctx
  | none => .error .badCast

/-- `GetInput().Consume(n)` with an `int`. -/
def consume (c : HttpConn) (n : Int) : Except HttpFault HttpConn :=
  if toSize n ≤ c.input_.length then .ok { c with input_ := c.input_.drop (toSize n) }
  else .error .outOfBounds

/-- `ClearData`; `GetByte` returns an `int`. -/
def clearData (c : HttpConn) : Except HttpFault HttpConn := do
  let ctx ← c.anyCast
  if c.isClient then
    let c ← c.consume (toInt32 ctx.rep.scanned_)
    return c.setContext { ctx with rep := HttpResponse.clear }
  else
    -- `scanned_` ends with the empty line, so the body stays.
    let c ← c.consume (toInt32 ctx.req.scanned_)
    return c.setContext { ctx with req := HttpRequest.clear }

def sendResponse (c : HttpConn) : Except HttpFault HttpConn := do
  let ctx ← c.anyCast
  let c : HttpConn := { c with output_ := c.output_ ++ ctx.rep.encode }
  c.clearData

/-- The callback of `OnHttpMsg`. -/
def callback (c : HttpConn) (srv : HttpServer) : Except HttpFault HttpConn := do
  let ctx ← c.anyCast
  let c : HttpConn := { c with calls := c.calls ++ [⟨ctx.req, c.arrived⟩] }
  (c.setContext { ctx with rep := srv.dispatch ctx }).sendResponse

def handleRead_ (c : HttpConn) (srv : HttpServer) (steps : Nat) : Except HttpFault HttpConn := do
  let ctx ← c.anyCast
  if !c.isClient then
    let (req, result) ← ctx.req.tryDecode steps c.input_
    let c := c.setContext { ctx with req }
    match result with
    | .Error => return { c with closed := true }
    | .Continue =>
      return { c with output_ := c.output_ ++ ascii "Http/1.1 100 Continue\n\r\n" }
    | .Complete => c.callback srv
    | .NotComplete => return c
  else
    let (rep, result) ← ctx.rep.tryDecode steps c.input_
    let c := c.setContext { ctx with rep }
    match result with
    | .Error => return { c with closed := true }
    | .Complete => c.callback srv
    | _ => return c

/-- A chunk arrives. -/
def receive (srv : HttpServer) (steps : Nat) (c : HttpConn) (chunk : Bytes) :
    Except HttpFault HttpConn :=
  if c.closed then .ok c
  else
    let c : HttpConn :=
      { c with input_ := c.input_ ++ chunk, arrived := c.arrived + chunk.length }
    c.handleRead_ srv steps

end HttpConn

/-! ## The contract -/

/-- A handler that sees `seen` sees the request `r`. -/
structure HttpRequest.Shows (seen r : HttpRequest) : Prop where
  method : seen.method_ = r.method_
  uri : seen.query_uri_ = r.query_uri_
  version : seen.version_ = r.version_
  headers : ∀ hd ∈ r.headers_, seen.getHeader (hd.1.map tolower) = hd.2
  body : seen.body_ = r.body_

/-- The byte stream of some requests. -/
def httpStream (rs : List HttpRequest) : Bytes := (rs.map HttpRequest.encode).flatten

/-- The handlers were called for the requests `rs`, each when it had arrived, and nothing is
    left. -/
structure HttpConn.Answered (c : HttpConn) (rs : List HttpRequest) : Prop where
  calls : List.Forall₂ (fun call r => call.seen.Shows r) c.calls rs
  arrived : ∀ n call, c.calls[n]? = some call →
    (httpStream (rs.take (n + 1))).length ≤ call.arrived
  live : c.closed = false
  empty : c.input_ = []

/-- The server answers the requests `rs` that arrive in these chunks. -/
def Serves (srv : HttpServer) (c : HttpConn) (chunks : List Bytes) (rs : List HttpRequest) : Prop :=
  ∃ steps c', LTS.run (HttpConn.receive srv steps) c chunks = .ok c' ∧ c'.Answered rs

end JNet

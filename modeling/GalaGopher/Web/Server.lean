import GalaGopher.Data.Loan
import GalaGopher.Data.Runs
import GalaGopher.Imdb.Prometheus
import Mathlib.Logic.Function.Basic

namespace GalaGopher.Web

open Data Imdb Text

/-! The web server: the callback of its requests, and the pages on their way to
the clients.

The daemon has one thread, so a call and the sending of a piece are each one
step.  The buffer of a response is persistent: the library keeps no copy. -/

def maxWebpageBufferSize : UInt32 := 8 * 1024 * 64

/-- `g_buffer` -/
structure WebpageBuffer where
  bytes : Bytes
  size : bytes.length = maxWebpageBufferSize.toNat

def WebpageBuffer.overwrite (buffer : WebpageBuffer) (front : Bytes) : WebpageBuffer where
  bytes := (front ++ buffer.bytes.drop front.length).take maxWebpageBufferSize.toNat
  size := by
    rw [List.length_take, List.length_append, List.length_drop, buffer.size]
    omega

@[simp] theorem WebpageBuffer.overwrite_bytes (buffer : WebpageBuffer) (front : Bytes) :
    (buffer.overwrite front).bytes =
      (front ++ buffer.bytes.drop front.length).take maxWebpageBufferSize.toNat := rfl

/-- The answer of the callback, `MHD_NO` or `MHD_YES`. -/
inductive Answer where
  | no
  | yes
deriving DecidableEq, Repr

/-- What the library passes to a call, and how its own functions end there. -/
structure Call where
  method : Bytes
  uploadDataSize : Nat := 0
  created : Bool := true
  headerAdded : Bool := true
  queued : Bool := true

/-- A response refers to the first `bufLen` bytes of the buffer.  `own` is the
text of the export made for it. -/
structure Response where
  bufLen : Nat
  received : Bytes
  own : Bytes

/-- `seen` is whether `*ptr` is `&dummy`. -/
structure Connection where
  seen : Bool := false
  response : Option Response := none

structure Callback where
  ret : Answer
  seen : Bool
  scrape : Option DataBaseScrape := none
  response : Option Response := none

def webRequestCallback (ctx : ScrapeContext) (tables : List Table) (seen : Bool) (call : Call) : Callback :=
  if call.method ≠ ascii "GET" then
    { ret := .no, seen }
  else if !seen then
    { ret := .yes, seen := true }
  else if call.uploadDataSize ≠ 0 then
    { ret := .no, seen := false }
  else
    let scrape := dataBase2Prometheus ctx tables maxWebpageBufferSize
    if scrape.ret < 0 then
      { ret := .no, seen := false, scrape := some scrape }
    else if !call.created then
      { ret := .no, seen := false, scrape := some scrape }
    else if !call.headerAdded then
      { ret := .no, seen := false, scrape := some scrape }
    else if !call.queued then
      { ret := .no, seen := false, scrape := some scrape }
    else
      { ret := .yes
        seen := false
        scrape := some scrape
        response := some { bufLen := scrape.bufLen, received := [], own := scrape.text } }

structure WebServer where
  tables : List Table
  gBuffer : WebpageBuffer
  connections : Nat → Connection := fun _ => {}

/-- `scrap` is what an export leaves in the buffer behind its text. -/
inductive ServerEvent where
  | call (connection : Nat) (ctx : ScrapeContext) (call : Call) (scrap : Bytes)
  | send (connection : Nat) (count : Nat)
  | close (connection : Nat)
  | store (tables : List Table)

def Response.loan (response : Response) : Loan UInt8 := { lent := response.own, taken := response.received }

def Response.sent (response : Response) : Prop := response.bufLen ≤ response.received.length

namespace WebServer

def setConnection (server : WebServer) (connection : Nat) (value : Connection) : WebServer :=
  { server with connections := Function.update server.connections connection value }

@[simp] theorem setConnection_self (server : WebServer) (connection : Nat) (value : Connection) :
    (server.setConnection connection value).connections connection = value := Function.update_self ..

theorem setConnection_other {other connection : Nat} (different : other ≠ connection) (server : WebServer)
    (value : Connection) :
    (server.setConnection connection value).connections other = server.connections other :=
  Function.update_of_ne different ..

/-- After `MHD_NO` the library closes the connection. -/
def call (server : WebServer) (connection : Nat) (ctx : ScrapeContext) (call : Call) (scrap : Bytes) : WebServer :=
  let callback := webRequestCallback ctx server.tables (server.connections connection).seen call
  let server :=
    match callback.scrape with
    | none => server
    | some scrape =>
        { server with tables := scrape.tables, gBuffer := server.gBuffer.overwrite (scrape.text ++ scrap) }
  server.setConnection connection
    (match callback.ret with
     | .no => {}
     | .yes => { seen := callback.seen, response := callback.response })

/-- A piece of the page is copied to the client. -/
def send (server : WebServer) (connection : Nat) (response : Response) (count : Nat) : WebServer :=
  let piece := ((server.gBuffer.bytes.take response.bufLen).drop response.received.length).take count
  server.setConnection connection
    { server.connections connection with
      response := some { response with received := response.received ++ piece } }

/-- An export writes nothing where no table has a record. -/
def Stored (server : WebServer) : Prop := ∃ table ∈ server.tables, table.records ≠ []

end WebServer

/-- A connection whose response is under way takes no request.  Records come
and go between the requests as the other threads have it. -/
inductive ServerStep : WebServer → ServerEvent → WebServer → Prop where
  | call {server : WebServer} {connection : Nat} {ctx : ScrapeContext} {call : Call} {scrap : Bytes}
      (idle : (server.connections connection).response = none) (scrapped : scrap ≠ [] → server.Stored) :
      ServerStep server (.call connection ctx call scrap) (server.call connection ctx call scrap)
  | send {server : WebServer} {connection : Nat} {response : Response} {count : Nat}
      (queued : (server.connections connection).response = some response) :
      ServerStep server (.send connection count) (server.send connection response count)
  | close (server : WebServer) (connection : Nat) :
      ServerStep server (.close connection) (server.setConnection connection {})
  | store (server : WebServer) (tables : List Table) :
      ServerStep server (.store tables) { server with tables }

end GalaGopher.Web

import GalaGopher.Data.Runs
import GalaGopher.Text.Resp

namespace GalaGopher.RedisClient

open GalaGopher.Text GalaGopher.Text.Resp

/-! The client that loads a redis server: one thread sends commands, one takes
the replies and measures.

A `str` is the list of its bytes.  The client passes no floats. -/

inductive Value where
  | bytes (value : Bytes)
  | int (value : Int)
  | str (value : Bytes)
deriving DecidableEq, Repr

/-- Of the values a command has here; a float has its text too, and another type
raises an error. -/
def encode : Value → Bytes
  | .bytes value => value
  | .int value => ascii (toString value)
  | .str value => value

def symStar : Bytes := [star]
def symDollar : Bytes := [dollar]
def symCrlf : Bytes := crlf
def symEmpty : Bytes := []

/-- `SYM_EMPTY.join(output)` -/
def join (output : List Bytes) : Bytes := output.foldl (· ++ symEmpty ++ ·) []

def packCommand (args : List Value) : Bytes :=
  let buff := join [symStar, ascii (toString args.length), symCrlf]
  join (buff :: (args.map encode).map fun arg =>
    join [symDollar, ascii (toString arg.length), symCrlf, arg, symCrlf])

/-- What the buffer of the redis library reads from a stream: a line, or so
many bytes, each up to its line break.  `none` is a read that still waits.  What
it makes of a line with a bare 13 or 10 inside is left open. -/
structure SocketBuffer where
  readline : Reader Bytes
  read : Int → Reader Bytes
  readline_line : ∀ text rest, 13 ∉ text → 10 ∉ text → readline (text ++ (crlf ++ rest)) = some (text, rest)
  readline_waits : readline [] = none
  read_body : ∀ text rest, read text.length (text ++ (crlf ++ rest)) = some (text, rest)

def socketBuffer : SocketBuffer where
  readline := line
  read length := body length.toNat
  readline_line _ rest free _ := line_text free rest
  readline_waits := rfl
  read_body := body_length

/-- `int(text)`, of what a server writes for a length. -/
def toInt (text : Bytes) : Option Int :=
  match text with
  | [] => none
  | sign :: digits =>
      if sign = dash then (number digits).map fun value => -(value : Int)
      else (number text).map Int.ofNat

inductive Response where
  | value (text : Bytes)
  | null
  /-- An exception, which ends the thread. -/
  | raised
deriving DecidableEq, Repr

def readResponse (buf : SocketBuffer) (stream : Bytes) : Option (Response × Bytes) :=
  (buf.readline stream).bind fun raw =>
    match raw.1 with
    | [] => some (.raised, raw.2)
    | byte :: response =>
        if byte ∉ [dash, plus, colon, dollar] then some (.raised, raw.2)
        else if byte = dollar then
          match toInt response with
          | none => some (.raised, raw.2)
          | some length =>
              if length = -1 then some (.null, raw.2)
              else (buf.read length raw.2).map fun text => (.value text.1, text.2)
        else some (.value response, raw.2)

/-- `[cmd, time.time_ns(), 0]` -/
structure Command where
  cmd : Bytes
  sent : Int
deriving DecidableEq, Repr

structure Stats where
  lastReport : Int
  sampNum : Nat
  minRtt : Int
  maxRtt : Int
  recentRtt : Int
deriving DecidableEq, Repr

def resetStats (ts : Int) : Stats where
  lastReport := ts
  sampNum := 0
  minRtt := 0
  maxRtt := 0
  recentRtt := 0

/-- What a line of the probe tells of the replies since the line before; the times
are printed divided by 1000. -/
structure Report where
  sampNum : Nat
  minRtt : Int
  maxRtt : Int
  recentRtt : Int
  sendQueueNums : Nat
deriving DecidableEq, Repr

def roundTrip (sent ts : Int) : Int :=
  let rtt := ts - sent
  if rtt < 0 then 0 else rtt

def Stats.measure (stats : Stats) (rtt : Int) : Stats :=
  let stats :=
    if stats.sampNum = 0 then { stats with minRtt := rtt, maxRtt := rtt }
    else { stats with minRtt := min rtt stats.minRtt, maxRtt := max rtt stats.maxRtt }
  { stats with recentRtt := rtt, sampNum := stats.sampNum + 1 }

def Stats.needReport (stats : Stats) (period ts : Int) : Bool := ts > stats.lastReport + period

def Stats.report (stats : Stats) (qsize : Nat) : Report where
  sampNum := stats.sampNum
  minRtt := stats.minRtt
  maxRtt := stats.maxRtt
  recentRtt := stats.recentRtt
  sendQueueNums := qsize

/-- What `recv_reply` measured and returned. -/
structure Sample where
  command : Command
  ts : Int
  resp : Response
deriving DecidableEq, Repr

def Sample.rtt (sample : Sample) : Int := roundTrip sample.command.sent sample.ts

inductive Receiver where
  | reading
  | holding (resp : Response)
  | ended
deriving DecidableEq, Repr

/-- The two threads, what is on the way in either direction, and what has been
measured and printed.  `sending` is a command sent but not queued yet. -/
structure World where
  stats : Stats
  cmdsQueue : List Command
  sending : Option Bytes
  receiver : Receiver
  toServer : Bytes
  toClient : Bytes
  samples : List Sample
  reports : List Report
deriving DecidableEq

def World.connected (lastReport : Int) : World where
  stats := resetStats lastReport
  cmdsQueue := []
  sending := none
  receiver := .reading
  toServer := []
  toClient := []
  samples := []
  reports := []

inductive Event where
  | send (cmd : Bytes) (args : List Value)
  | queue (now : Int)
  /-- The server takes a request and writes its reply. -/
  | serve (request : List Bytes) (reply : Reply)
  | read
  | measure (ts : Int)

variable (buf : SocketBuffer) (period : Int) (maxQueueSize : Nat)

/-- The end of `recv_reply`, from `cmds_queue.get()` on. -/
def World.measure (world : World) (command : Command) (rest : List Command) (resp : Response) (ts : Int) : World :=
  let stats := world.stats.measure (roundTrip command.sent ts)
  let world : World := { world with
    cmdsQueue := rest
    receiver := .reading
    samples := world.samples ++ [{ command, ts, resp }] }
  if stats.needReport period ts then
    { world with stats := resetStats ts, reports := world.reports ++ [stats.report rest.length] }
  else { world with stats }

def step (world : World) : Event → Option World
  | .send cmd args =>
      match world.sending with
      | some _ => none
      | none => some { world with
          toServer := world.toServer ++ packCommand (.str cmd :: args)
          sending := some cmd }
  | .queue now =>
      match world.sending with
      | none => none
      | some cmd =>
          if 0 < maxQueueSize ∧ maxQueueSize ≤ world.cmdsQueue.length then none
          else some { world with cmdsQueue := world.cmdsQueue ++ [{ cmd, sent := now }], sending := none }
  | .serve taken reply =>
      match request world.toServer with
      | none => none
      | some (args, rest) =>
          if args = taken ∧ reply.Simple then
            some { world with toServer := rest, toClient := world.toClient ++ replyText reply }
          else none
  | .read =>
      match world.receiver with
      | .reading =>
          (readResponse buf world.toClient).map fun read =>
            { world with
              toClient := read.2
              receiver := if read.1 = .raised then .ended else .holding read.1 }
      | _ => none
  | .measure ts =>
      match world.receiver, world.cmdsQueue with
      | .holding resp, command :: rest => some (world.measure period command rest resp ts)
      | _, _ => none

end GalaGopher.RedisClient

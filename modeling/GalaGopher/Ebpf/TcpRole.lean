import GalaGopher.Text.Options
import GalaGopher.Text.Search

namespace GalaGopher.Ebpf.TcpRole

open Text

/-! The listening ports and the established connections out of the lines of
`ss`, and which connections are those of a server. -/

def lineBufLen : Nat := 512

def taskCommLen : Nat := 16

def portLen : Nat := 11

def pidLen : Nat := 32

def fidLen : Nat := 32

def ipStrLen : Nat := 128

def portMaxNum : Nat := 65536

def ltpMaxNum : Nat := 1024

def tcpEstabMax : Nat := 1024

def tcpEstabCommMax : Nat := 32

def colon : UInt8 := 58

/-- How far the last occurrence is behind the start. -/
def strrchr : Bytes → UInt8 → Option Nat
  | [], _ => none
  | first :: rest, byte =>
      match strrchr rest byte with
      | some place => some (place + 1)
      | none => if first = byte then some 0 else none

def getNextStrOffset (s target : Bytes) : Option Nat :=
  match strstr s target with
  | some place => if 0 < place then some place else none
  | none => none

/-- Each end is searched from the start of the string. -/
def getSubStr (s : Bytes) (start finish : Option Bytes) (bufLen : Nat) : Option Bytes := do
  let p2 ← match finish with
    | none => some s.length
    | some finish => strstr s finish
  let p1 ← match start with
    | none => some 0
    | some start => (strstr s start).map (· + start.length)
  if p1 < p2 ∧ p2 - p1 < bufLen then some ((s.drop p1).take (p2 - p1)) else none

def isDigitStr (s : Bytes) : Bool := s.all isDigit

structure TcpListenPort where
  pid : UInt32
  port : UInt32
  fd : Int32
  comm : Bytes

structure TcpListenPorts where
  tlp : List TcpListenPort
  tlpHash : Nat → Bool

def getListenPort (s : Bytes) : Option UInt32 := do
  let start := if (strstr s (ascii "]:")).isSome then ascii "]:" else ascii ":"
  let portStr ← getSubStr s (some start) (some (ascii "users:")) portLen
  let portNum := (atoi portStr).toUInt32
  if isDigitStr portStr = false ∨ portNum.toNat ≥ portMaxNum then none else some portNum

def getListenComm (s : Bytes) : Option Bytes :=
  getSubStr s (some (ascii "((\"")) (some (ascii "\",pid")) taskCommLen

def getListenPid (s : Bytes) : Option UInt32 := do
  let pidStr ← getSubStr s (some (ascii "pid=")) (some (ascii ",fd=")) pidLen
  if isDigitStr pidStr then some (atoi pidStr).toUInt32 else none

def getListenFd (s : Bytes) : Option Int32 := do
  let fdStr ← getSubStr s (some (ascii "fd=")) (some (ascii "))")) fidLen
  if isDigitStr fdStr then some (atoi fdStr) else none

def newTlp (s : Bytes) : Option TcpListenPort := do
  let port ← getListenPort s
  let comm ← getListenComm s
  let pid ← getListenPid s
  let fd ← getListenFd s
  some { pid, port, fd, comm }

def newTlps : TcpListenPorts := ⟨[], fun _ => false⟩

def addTlp (tlps : TcpListenPorts) (tlp : TcpListenPort) : TcpListenPorts :=
  if tlps.tlpHash tlp.port.toNat then tlps
  else if tlps.tlp.length ≥ ltpMaxNum then tlps
  else
    { tlp := tlps.tlp ++ [tlp]
      tlpHash := fun port => if port = tlp.port.toNat then true else tlps.tlpHash port }

/-- The lines as `fgets` returns them, each with its newline. -/
def getTlps (lines : List Bytes) (tlps : TcpListenPorts) : TcpListenPorts :=
  (lines.filterMap newTlp).foldl addTlp tlps

def isListenPort (port : UInt32) (tlps : TcpListenPorts) : Bool :=
  if port.toNat ≥ portMaxNum then false else tlps.tlpHash port.toNat

def getListenPorts (lines : List Bytes) : TcpListenPorts := getTlps lines newTlps

structure IpAddr where
  ip : Bytes
  port : UInt32
  ipv4 : Bool

structure TcpEstabComm where
  comm : Bytes
  pid : UInt32
  fd : UInt32

structure TcpEstab where
  isClient : Bool := false
  localAddr : IpAddr
  remoteAddr : IpAddr
  teComm : List TcpEstabComm

def eraseSquareBrackets (s : Bytes) (bufLen : Nat) : Option Bytes := do
  let p1 ← strstr s (ascii "[")
  let p2 ← strstr s (ascii "]")
  if p2 ≤ p1 then none
  else
    let tmp ← getSubStr s (some (ascii "[")) (some (ascii "]")) lineBufLen
    if tmp.length ≥ bufLen then none else some tmp

def getEstabAddr (addrBuf : Bytes) : Option IpAddr := do
  let ipLen ← strrchr addrBuf colon
  if ipLen = 0 then none
  else
    let ip := addrBuf.take ipLen
    let portStr := addrBuf.drop (ipLen + 1)
    if portStr = [] ∨ portStr.length ≥ portLen ∨ isDigitStr portStr = false then none
    else
      let port := (atoi portStr).toUInt32
      match eraseSquareBrackets ip ipStrLen with
      | some inner => some { ip := inner, port, ipv4 := false }
      | none => some { ip, port, ipv4 := true }

def getEstabComm (tmp : Bytes) : Option TcpEstabComm := do
  let comm ← getSubStr tmp (some (ascii "(\"")) (some (ascii "\",")) taskCommLen
  let pidS ← getSubStr tmp (some (ascii "pid=")) (some (ascii ",fd")) pidLen
  let fdS ← getSubStr tmp (some (ascii ",fd=")) (some (ascii ")")) fidLen
  if isDigitStr pidS = false ∨ isDigitStr fdS = false then none
  else some { comm, pid := (atoi pidS).toUInt32, fd := (atoi fdS).toUInt32 }

/-- The loop over the users of a connection. Each turn takes a byte at least. -/
def getEstabComms : Nat → Bytes → List TcpEstabComm
  | 0, start => (getEstabComm start).toList
  | turns + 1, start =>
      match getNextStrOffset start (ascii ",(") with
      | none => (getEstabComm start).toList
      | some offset => (getEstabComm (start.take offset)).toList ++ getEstabComms turns (start.drop (offset + 1))

def getEstab (s : Bytes) : Option TcpEstab := do
  let addrStr ← getSubStr s none (some (ascii "|")) ipStrLen
  let localAddr ← getEstabAddr addrStr
  let addrStr ← getSubStr s (some (ascii "|")) (some (ascii "@")) ipStrLen
  let remoteAddr ← getEstabAddr addrStr
  let commsStr ← getSubStr s (some (ascii "@users:(")) none lineBufLen
  let comms := commsStr.dropLast
  some { localAddr, remoteAddr, teComm := (getEstabComms comms.length comms).take tcpEstabCommMax }

def getEstabs (lines : List Bytes) : List TcpEstab := (lines.filterMap getEstab).take tcpEstabMax

def getEstabTcps (tlps : TcpListenPorts) (lines : List Bytes) : List TcpEstab :=
  (getEstabs lines).map fun te => { te with isClient := !isListenPort te.localAddr.port tlps }

end GalaGopher.Ebpf.TcpRole

import GalaGopher.Ebpf.TcpRole.Reading
import Mathlib.Data.List.Dedup
import Mathlib.Data.List.Perm.Subperm

namespace GalaGopher.Ebpf.TcpRole

open Text

variable {listening : List ListenLine} {established : List Bytes} {tlps : TcpListenPorts} {tlp : TcpListenPort}

def TcpListenPorts.ports (tlps : TcpListenPorts) : List Nat := tlps.tlp.map fun tlp => tlp.port.toNat

/-- The hash tells what is in the table. -/
structure Hashed (tlps : TcpListenPorts) : Prop where
  distinct : tlps.ports.Nodup
  hash : ∀ port, tlps.tlpHash port ↔ port ∈ tlps.ports

theorem hashed_newTlps : Hashed newTlps where
  distinct := List.nodup_nil
  hash := by
    intro port
    constructor <;> intro none <;> cases none

theorem addTlp_hashed (hashed : Hashed tlps) (room : tlp.port.toNat ∉ tlps.ports → tlps.tlp.length < ltpMaxNum) :
    Hashed (addTlp tlps tlp) ∧ ∀ port, port ∈ (addTlp tlps tlp).ports ↔ port ∈ tlps.ports ∨ port = tlp.port.toNat := by
  by_cases known : tlps.tlpHash tlp.port.toNat
  · rw [addTlp, if_pos known]
    refine ⟨hashed, fun port => ⟨.inl, fun either => ?_⟩⟩
    rcases either with here | same
    · exact here
    · rw [same, ← hashed.hash]
      exact known
  · have fresh : tlp.port.toNat ∉ tlps.ports := fun here => known ((hashed.hash _).mpr here)
    rw [addTlp, if_neg known, if_neg (Nat.not_le_of_lt (room fresh))]
    have ports : ∀ hash, TcpListenPorts.ports ⟨tlps.tlp ++ [tlp], hash⟩ = tlps.ports ++ [tlp.port.toNat] := by
      intro hash
      rw [TcpListenPorts.ports, List.map_append]
      rfl
    refine ⟨⟨?_, fun port => ?_⟩, fun port => ?_⟩
    · rw [ports]
      refine List.nodup_append.mpr ⟨hashed.distinct, List.nodup_singleton _, fun port here other last => ?_⟩
      rw [List.mem_singleton.mp last]
      exact fun same => fresh (same ▸ here)
    · rw [ports, List.mem_append, List.mem_singleton, ← hashed.hash]
      dsimp only
      split
      case isTrue same => simp [same]
      case isFalse other => rw [or_iff_left other]
    · rw [ports, List.mem_append, List.mem_singleton]

/-- As long as there are no more ports than the table holds. -/
theorem foldl_hashed {bound : List Nat} (few : bound.length ≤ ltpMaxNum) (added : List TcpListenPort)
    (hashed : Hashed tlps) (inside : ∀ port ∈ tlps.ports, port ∈ bound)
    (bounded : ∀ tlp ∈ added, tlp.port.toNat ∈ bound) :
    Hashed (added.foldl addTlp tlps) ∧
      ∀ port, port ∈ (added.foldl addTlp tlps).ports ↔ port ∈ tlps.ports ∨ ∃ tlp ∈ added, tlp.port.toNat = port := by
  induction added generalizing tlps with
  | nil => exact ⟨hashed, fun port => by simp⟩
  | cons first rest ih =>
      have room : first.port.toNat ∉ tlps.ports → tlps.tlp.length < ltpMaxNum := by
        intro fresh
        have all : ∀ port ∈ first.port.toNat :: tlps.ports, port ∈ bound := by
          intro port member
          rcases List.mem_cons.mp member with same | here
          · rw [same]
            exact bounded first List.mem_cons_self
          · exact inside port here
        have fits := (List.subperm_of_subset (List.nodup_cons.mpr ⟨fresh, hashed.distinct⟩) all).length_le
        rw [List.length_cons, TcpListenPorts.ports, List.length_map] at fits
        omega
      obtain ⟨next, ports⟩ := addTlp_hashed hashed room
      have nextInside : ∀ port ∈ (addTlp tlps first).ports, port ∈ bound := by
        intro port member
        rcases (ports port).mp member with here | same
        · exact inside port here
        · rw [same]
          exact bounded first List.mem_cons_self
      obtain ⟨final, finalPorts⟩ := ih next nextInside fun tlp member => bounded tlp (List.mem_cons_of_mem _ member)
      refine ⟨final, fun port => ?_⟩
      rw [List.foldl_cons, finalPorts, ports, or_assoc]
      refine or_congr_right ?_
      simp only [List.mem_cons, exists_eq_or_imp]
      exact or_congr_left eq_comm

theorem toNat_tlp (line : ListenLine) : line.tlp.port.toNat = line.port.toNat := toNat_port line.port

theorem mem_readTlps : tlp ∈ (listening.map ListenLine.text).filterMap newTlp ↔
    ∃ line ∈ listening, line.Readable ∧ tlp = line.tlp := by
  rw [List.mem_filterMap]
  constructor
  · rintro ⟨text, member, made⟩
    obtain ⟨line, here, rfl⟩ := List.mem_map.mp member
    by_cases readable : line.Readable
    · rw [newTlp_readable readable] at made
      exact ⟨line, here, readable, (Option.some.inj made).symm⟩
    · rw [newTlp_unreadable readable] at made
      cases made
  · rintro ⟨line, here, readable, rfl⟩
    exact ⟨line.text, List.mem_map_of_mem here, newTlp_readable readable⟩

theorem isListenPort_iff (few : (listening.map (·.port)).dedup.length ≤ ltpMaxNum) (port : UInt16) :
    isListenPort (UInt32.ofNat port.toNat) (getListenPorts (listening.map ListenLine.text)) ↔
      ∃ line ∈ listening, line.Readable ∧ line.port = port := by
  have small : ¬port.toNat ≥ portMaxNum := Nat.not_le_of_lt port.toNat_lt
  have bounded : ∀ tlp ∈ (listening.map ListenLine.text).filterMap newTlp,
      tlp.port.toNat ∈ (listening.map (·.port)).dedup.map UInt16.toNat := by
    intro tlp member
    obtain ⟨line, here, _, rfl⟩ := mem_readTlps.mp member
    rw [toNat_tlp]
    exact List.mem_map_of_mem (List.mem_dedup.mpr (List.mem_map_of_mem here))
  obtain ⟨hashed, ports⟩ := foldl_hashed (by rwa [List.length_map]) _ hashed_newTlps
    (fun port none => absurd none List.not_mem_nil) bounded
  rw [isListenPort, toNat_port, if_neg small, getListenPorts, getTlps, hashed.hash, ports]
  constructor
  · rintro (none | ⟨tlp, member, same⟩)
    · cases none
    · obtain ⟨line, here, readable, rfl⟩ := mem_readTlps.mp member
      rw [toNat_tlp] at same
      exact ⟨line, here, readable, UInt16.toNat_inj.mp same⟩
  · rintro ⟨line, here, readable, rfl⟩
    exact .inr ⟨line.tlp, mem_readTlps.mpr ⟨line, here, readable, rfl⟩, toNat_tlp line⟩

/-- The line is of a connection with this local port. -/
def LocalPort (line : Bytes) (port : UInt16) : Prop :=
  ∃ address rest, line = address ++ (colon :: (decimal port.toNat ++ (bar :: rest))) ∧ bar ∉ address

theorem strrchr_none {text : Bytes} {byte : UInt8} (free : byte ∉ text) : strrchr text byte = none := by
  induction text with
  | nil => rfl
  | cons first rest ih =>
      rw [List.mem_cons, not_or] at free
      rw [strrchr, ih free.2]
      exact if_neg (Ne.symm free.1)

theorem strrchr_last {rest : Bytes} {byte : UInt8} (free : byte ∉ rest) (front : Bytes) :
    strrchr (front ++ byte :: rest) byte = some front.length := by
  induction front with
  | nil =>
      rw [List.nil_append, strrchr, strrchr_none free]
      exact if_pos rfl
  | cons first front ih =>
      rw [List.cons_append, strrchr, ih]
      rfl

theorem getEstabAddr_port {address : Bytes} {port : UInt16} {addr : IpAddr}
    (parsed : getEstabAddr (address ++ colon :: decimal port.toNat) = some addr) :
    addr.port = UInt32.ofNat port.toNat := by
  have last := strrchr_last (decimal_free colon (by decide) port.toNat) address
  have portStr : (address ++ colon :: decimal port.toNat).drop (address.length + 1) = decimal port.toNat := by
    rw [List.drop_length_add_append]
    rfl
  simp only [getEstabAddr, last, Option.bind_eq_bind, Option.bind_some, portStr, atoi_port] at parsed
  split at parsed
  case isTrue => cases parsed
  case isFalse =>
    split at parsed
    case isTrue => cases parsed
    case isFalse =>
      split at parsed <;> cases parsed <;> rfl

theorem getEstab_port {line : Bytes} {port : UInt16} {te : TcpEstab} (atPort : LocalPort line port)
    (read : getEstab line = some te) : te.localAddr.port = UInt32.ofNat port.toNat := by
  obtain ⟨address, rest, shape, free⟩ := atPort
  simp only [getEstab, Option.bind_eq_bind, Option.bind_eq_some_iff] at read
  obtain ⟨addrStr, found, localAddr, parsed, _, _, remoteAddr, _, commsStr, _, made⟩ := read
  have ends : strstr line (ascii "|") = some (address ++ (colon :: decimal port.toNat)).length := by
    have same : line = (address ++ (colon :: decimal port.toNat)) ++ ([bar] ++ rest) := by
      rw [shape]
      simp only [List.append_assoc, List.cons_append, List.nil_append]
    have inFront : bar ∉ address ++ (colon :: decimal port.toNat) := by
      rw [List.mem_append, List.mem_cons, not_or, not_or]
      exact ⟨free, by decide, decimal_free bar (by decide) _⟩
    have literal : ascii "|" = [bar] := rfl
    rw [literal, same]
    exact strstr_first (absent_of_head bar [] inFront _)
  simp only [getSubStr, ends, Option.bind_eq_bind, Option.bind_some, List.drop_zero] at found
  split at found
  case isTrue =>
    have text : line.take ((address ++ (colon :: decimal port.toNat)).length - 0) =
        address ++ (colon :: decimal port.toNat) := by
      have same : line = (address ++ (colon :: decimal port.toNat)) ++ (bar :: rest) := by
        rw [shape]
        simp only [List.append_assoc, List.cons_append]
      rw [Nat.sub_zero, same, List.take_left]
    rw [text] at found
    cases found
    cases made
    exact getEstabAddr_port parsed
  case isFalse => cases found

/-- The lines from which a connection is kept. -/
def keptLines (established : List Bytes) : List Bytes :=
  (established.filter fun line => (getEstab line).isSome).take tcpEstabMax

theorem map_keptLines (established : List Bytes) :
    (keptLines established).map getEstab = (getEstabs established).map some := by
  have all : (established.filter fun line => (getEstab line).isSome).map getEstab =
      (established.filterMap getEstab).map some := by
    induction established with
    | nil => rfl
    | cons line rest ih =>
        cases read : getEstab line with
        | none =>
            rw [List.filter_cons_of_neg (by simp [read]), List.filterMap_cons_none read, ih]
        | some te =>
            rw [List.filter_cons_of_pos (by simp [read]), List.filterMap_cons_some read, List.map_cons, List.map_cons, ih,
              read]
  rw [keptLines, getEstabs, List.map_take, List.map_take, all]

/-- Each connection that is kept is marked by the listening lines. -/
def RolesRight (listening : List ListenLine) (established : List Bytes) : Prop :=
  ∀ (place : Nat) line te port, (keptLines established)[place]? = some line →
    (getEstabTcps (getListenPorts (listening.map ListenLine.text)) established)[place]? = some te →
    LocalPort line port → (te.isClient = false ↔ ∃ listen ∈ listening, listen.port = port)

/-- The local port of a kept connection that is listened on stands on a line that
is read. -/
def ListenersRead (listening : List ListenLine) (established : List Bytes) : Prop :=
  ∀ line ∈ keptLines established, ∀ port, LocalPort line port → (∃ listen ∈ listening, listen.port = port) →
    ∃ listen ∈ listening, listen.Readable ∧ listen.port = port

theorem kept_lookup {place : Nat} {line : Bytes} (kept : (keptLines established)[place]? = some line) :
    ∃ te, getEstab line = some te ∧ (getEstabs established)[place]? = some te := by
  have column := congrArg (fun column => column[place]?) (map_keptLines established)
  simp only [List.getElem?_map] at column
  rw [kept, Option.map_some] at column
  obtain ⟨te, found, same⟩ := Option.map_eq_some_iff.mp column.symm
  exact ⟨te, same.symm, found⟩

theorem marked_iff (few : (listening.map (·.port)).dedup.length ≤ ltpMaxNum) {place : Nat} {line : Bytes} {te : TcpEstab}
    {port : UInt16} (kept : (keptLines established)[place]? = some line)
    (marked : (getEstabTcps (getListenPorts (listening.map ListenLine.text)) established)[place]? = some te)
    (atPort : LocalPort line port) :
    te.isClient = false ↔ ∃ listen ∈ listening, listen.Readable ∧ listen.port = port := by
  obtain ⟨read, same, found⟩ := kept_lookup kept
  rw [getEstabTcps, List.getElem?_map, found] at marked
  cases marked
  dsimp only
  rw [← isListenPort_iff few port, getEstab_port atPort same, Bool.not_eq_false']

/-- A connection to a listening port that is not read is taken for a client's. -/
theorem roles_right_iff (few : (listening.map (·.port)).dedup.length ≤ ltpMaxNum) :
    RolesRight listening established ↔ ListenersRead listening established := by
  constructor
  · intro right line member port atPort listened
    obtain ⟨place, kept⟩ := List.getElem?_of_mem member
    obtain ⟨te, _, found⟩ := kept_lookup kept
    have marked : ∃ te, (getEstabTcps (getListenPorts (listening.map ListenLine.text)) established)[place]? = some te := by
      rw [getEstabTcps, List.getElem?_map, found]
      exact ⟨_, rfl⟩
    obtain ⟨marked, result⟩ := marked
    exact (marked_iff few kept result atPort).mp ((right place line marked port kept result atPort).mpr listened)
  · intro read place line te port kept marked atPort
    rw [marked_iff few kept marked atPort]
    constructor
    · rintro ⟨listen, here, _, same⟩
      exact ⟨listen, here, same⟩
    · exact read line (List.mem_of_getElem? kept) port atPort

/-- A user "a" with the descriptor 3. -/
def userA (pid : UInt32) : User where
  comm := [97]
  pid
  fd := 3
  short := by decide
  plain := by
    intro byte member
    rw [List.mem_singleton.mp member]
    decide

/-- The line "1:80|2:9@users:(("a",pid=1,fd=3))". -/
def connection : Bytes :=
  [49, 58, 56, 48, 124, 50, 58, 57, 64, 117, 115, 101, 114, 115, 58, 40, 40, 34, 97, 34, 44, 112, 105, 100, 61, 49, 44,
    102, 100, 61, 51, 41, 41, 10]

theorem listen_readable (port : UInt16) (pid : UInt32) : ListenLine.Readable ⟨.any, port, userA pid, []⟩ where
  single := rfl
  named := List.cons_ne_nil _ _
  noPid := by
    change ¬[112, 105, 100, 61] <:+: [97]
    decide
  noFd := by
    change ¬[102, 100, 61] <:+: [97]
    decide
  noBracket := .inr (by
    change ¬[93, 58] <:+: [97]
    decide)

/-- Two ports are listened on; of the connections one is to each, one is this
host's to the port of another, and one line is not read. -/
theorem roles_right_mixed :
    RolesRight [⟨.any, 80, userA 1, []⟩, ⟨.any, 443, userA 2, []⟩]
      [connection, ascii "10.0.0.1:443|10.0.0.2:50000@users:((\"a\",pid=2,fd=4))\n", ascii "ESTAB\n",
        ascii "10.0.0.1:40000|10.0.0.3:80@users:((\"b\",pid=3,fd=5))\n"] := by
  refine (roles_right_iff (by decide)).mpr ?_
  intro line _ port _ listened
  obtain ⟨listen, member, same⟩ := listened
  have readable : listen.Readable := by
    simp only [List.mem_cons, List.not_mem_nil, or_false] at member
    rcases member with rfl | rfl
    · exact listen_readable 80 1
    · exact listen_readable 443 2
  exact ⟨listen, member, readable, same⟩

theorem connection_port : LocalPort connection 80 := by
  have port : decimal 80 = [56, 48] := by
    rw [decimal, printed_nat]
    decide
  refine ⟨[49], connection.drop 5, ?_, by decide⟩
  change connection = [49] ++ (colon :: (decimal 80 ++ (bar :: connection.drop 5)))
  rw [port]
  rfl

theorem connection_kept : (getEstab connection).isSome := by
  decide +kernel

/-- Two processes listen on the port 80. -/
theorem server_marked_client : ¬RolesRight [⟨.any, 80, userA 1, [userA 2]⟩] [connection] := by
  intro right
  have kept : (keptLines [connection])[0]? = some connection := by
    have all : [connection].filter (fun line => (getEstab line).isSome) = [connection] :=
      List.filter_cons_of_pos (p := fun line => (getEstab line).isSome) connection_kept
    rw [keptLines, all]
    rfl
  obtain ⟨te, _, found⟩ := kept_lookup kept
  have marked : ∃ te,
      (getEstabTcps (getListenPorts ([⟨.any, 80, userA 1, [userA 2]⟩].map ListenLine.text)) [connection])[0]? =
        some te := by
    rw [getEstabTcps, List.getElem?_map, found]
    exact ⟨_, rfl⟩
  obtain ⟨marked, result⟩ := marked
  have server := (right 0 connection marked 80 kept result connection_port).mpr ⟨_, List.mem_singleton_self _, rfl⟩
  obtain ⟨listen, member, readable, _⟩ := (marked_iff (by decide) kept result connection_port).mp server
  rw [List.mem_singleton.mp member] at readable
  exact List.cons_ne_nil _ _ readable.single

end GalaGopher.Ebpf.TcpRole

import GalaGopher.Ebpf.TcpProbe

namespace GalaGopher.Ebpf

open Data

theorem swapBytes_toNat (half : UInt16) :
    (swapBytes half).toNat = half.toNat % 256 * 256 + half.toNat / 256 := by
  have bound : half.toNat < 65536 := half.toNat_lt
  have high : half.toNat / 256 < 2 ^ 8 := by omega
  have low : half.toNat * 2 ^ 8 % 2 ^ 16 = half.toNat % 256 * 2 ^ 8 := by omega
  have joined := Nat.shiftLeft_add_eq_or_of_lt high (half.toNat % 256)
  rw [Nat.shiftLeft_eq, Nat.or_comm] at joined
  simp only [swapBytes, UInt16.toNat_or, UInt16.toNat_shiftRight, UInt16.toNat_shiftLeft,
    UInt16.reduceToNat, Nat.reduceMod, Nat.shiftRight_eq_div_pow, Nat.shiftLeft_eq, low]
  exact joined.symm

theorem swapBytes_swapBytes (half : UInt16) : swapBytes (swapBytes half) = half := by
  apply UInt16.toNat_inj.mp
  have bound : half.toNat < 65536 := half.toNat_lt
  rw [swapBytes_toNat, swapBytes_toNat]
  omega

theorem swapBytes_eq_self (half : UInt16) :
    swapBytes half = half ↔ half.toNat / 256 = half.toNat % 256 := by
  have bound : half.toNat < 65536 := half.toNat_lt
  rw [← UInt16.toNat_inj, swapBytes_toNat]
  omega

/-- A port in network order, as the hosts store the other end's. -/
def bpfHtons (host : ByteOrder) (port : UInt16) : UInt16 :=
  match host with
  | .little => swapBytes port
  | .big => port

theorem bpfNtohs_htons (host : ByteOrder) (port : UInt16) : bpfNtohs host (bpfHtons host port) = port := by
  cases host with
  | little => exact swapBytes_swapBytes port
  | big => rfl

/-- One end of an IPv4 connection. -/
structure Endpoint where
  addr : UInt32
  port : UInt16

/-- The kernel's socket for the end `own` of a connection to `peer`. -/
structure Connects (host : ByteOrder) (own peer : Endpoint) (sk : Sock) : Prop where
  family : sk.skFamily = afInet
  rcvSaddr : sk.skRcvSaddr = own.addr
  daddr : sk.skDaddr = peer.addr
  num : sk.skNum = own.port
  dport : sk.skDport = bpfHtons host peer.port

/-- The key a probe with `cport_flag` set makes of a socket it has in `role`. -/
structure Keys (probe : TcpProbe) (host : ByteOrder) (skPtr : SockPtr) (sk : Sock) (role : UInt32)
    (link : TcpLink) : Prop where
  cportFlag : probe.getCportFlag = 1
  role : ∃ info, probe.sockMap.lookup skPtr = some info ∧ info.role = role
  built : ∃ synSrtt, probe.getTcpLinkKey host skPtr sk = some (link, synSrtt)

section Built

variable {probe : TcpProbe} {host : ByteOrder} {skPtr : SockPtr} {sk : Sock} {role : UInt32} {link : TcpLink}
  {own peer : Endpoint}

theorem Keys.link_eq (keys : Keys probe host skPtr sk role link) :
    ∃ tgid, link = { TcpProbe.linkOfRole host role 1 sk with role, tgid } := by
  obtain ⟨info, found, rfl⟩ := keys.role
  obtain ⟨synSrtt, built⟩ := keys.built
  simp only [TcpProbe.getTcpLinkKey, found, keys.cportFlag] at built
  split at built
  · cases built
  · split at built
    · cases built
    · split at built
      · cases built
      · cases built
        exact ⟨info.tgid, rfl⟩

theorem Keys.client (keys : Keys probe host skPtr sk linkRoleClient link) (connects : Connects host own peer sk) :
    link.cIp = .ip own.addr ∧ link.sIp = .ip peer.addr ∧
      link.sPort = peer.port ∧ link.cPort = bpfNtohs host own.port := by
  obtain ⟨tgid, rfl⟩ := keys.link_eq
  simp [TcpProbe.linkOfRole, connects.family, connects.rcvSaddr, connects.daddr, connects.num, connects.dport,
    bpfNtohs_htons]

theorem Keys.server (keys : Keys probe host skPtr sk linkRoleServer link) (connects : Connects host own peer sk) :
    link.cIp = .ip peer.addr ∧ link.sIp = .ip own.addr ∧ link.sPort = own.port ∧ link.cPort = peer.port := by
  obtain ⟨tgid, rfl⟩ := keys.link_eq
  have other : linkRoleServer ≠ linkRoleClient := by decide
  simp [TcpProbe.linkOfRole, other, connects.family, connects.rcvSaddr, connects.daddr, connects.num,
    connects.dport, bpfNtohs_htons]

end Built

/-- The keys of the two ends name one flow. -/
def SameFlow (left right : TcpLink) : Prop :=
  left.cIp = right.cIp ∧ left.sIp = right.sIp ∧ left.cPort = right.cPort ∧ left.sPort = right.sPort

/-- The client's own port is in host order already; swapping it is harmless on
a host in network order, and on a port of two equal bytes. -/
theorem sameFlow_iff {clientHost serverHost : ByteOrder} {clientProbe serverProbe : TcpProbe}
    {clientPtr serverPtr : SockPtr} {clientSk serverSk : Sock} {clientLink serverLink : TcpLink}
    {client server : Endpoint}
    (clientSocket : Connects clientHost client server clientSk)
    (serverSocket : Connects serverHost server client serverSk)
    (clientKeys : Keys clientProbe clientHost clientPtr clientSk linkRoleClient clientLink)
    (serverKeys : Keys serverProbe serverHost serverPtr serverSk linkRoleServer serverLink) :
    SameFlow clientLink serverLink ↔
      clientHost = .big ∨ client.port.toNat / 256 = client.port.toNat % 256 := by
  obtain ⟨clientCIp, clientSIp, clientSPort, clientCPort⟩ := clientKeys.client clientSocket
  obtain ⟨serverCIp, serverSIp, serverSPort, serverCPort⟩ := serverKeys.server serverSocket
  simp only [SameFlow, clientCIp, clientSIp, clientSPort, clientCPort, serverCIp, serverSIp, serverSPort,
    serverCPort, true_and, and_true]
  cases clientHost with
  | little => simpa [bpfNtohs] using swapBytes_eq_self client.port
  | big => simp [bpfNtohs]

/-- A probe that has the socket at address 1, in `role`. -/
def probeOf (role : UInt32) : TcpProbe where
  sockMap := (BoundedMap.empty.update 1 { role, tgid := 1 }).getD .empty
  linkMap := .empty
  fdMap := .empty
  args := some { period := 5000000000, cportFlag := 1, filterByTask := 0, filterByTgid := 0 }
  tasks := fun _ => false
  output := []

/-- The socket of `own`, connected to `peer`. -/
def sockOf (host : ByteOrder) (own peer : Endpoint) : Sock :=
  { skFamily := afInet, skRcvSaddr := own.addr, skDaddr := peer.addr, skNum := own.port,
    skDport := bpfHtons host peer.port }

theorem sockOf_connects (host : ByteOrder) (own peer : Endpoint) : Connects host own peer (sockOf host own peer) :=
  ⟨rfl, rfl, rfl, rfl, rfl⟩

theorem probeOf_keys (host : ByteOrder) (role : UInt32) (sk : Sock) :
    Keys (probeOf role) host 1 sk role
      { TcpProbe.linkOfRole host role 1 sk with role, tgid := 1 } :=
  ⟨rfl, ⟨_, rfl, rfl⟩, ⟨0, rfl⟩⟩

theorem sameFlow_iff_equal_bytes :
    SameFlow
        { TcpProbe.linkOfRole .little linkRoleClient 1 (sockOf .little ⟨1, 0x8080⟩ ⟨2, 80⟩) with
          role := linkRoleClient, tgid := 1 }
        { TcpProbe.linkOfRole .little linkRoleServer 1 (sockOf .little ⟨2, 80⟩ ⟨1, 0x8080⟩) with
          role := linkRoleServer, tgid := 1 } ↔
      ByteOrder.little = .big ∨ (0x8080 : UInt16).toNat / 256 = (0x8080 : UInt16).toNat % 256 :=
  sameFlow_iff (sockOf_connects .little ⟨1, 0x8080⟩ ⟨2, 80⟩) (sockOf_connects .little ⟨2, 80⟩ ⟨1, 0x8080⟩)
    (probeOf_keys .little linkRoleClient _) (probeOf_keys .little linkRoleServer _)

theorem different_flow : ¬ ∀ (host : ByteOrder) (clientProbe serverProbe : TcpProbe)
    (clientPtr serverPtr : SockPtr) (clientSk serverSk : Sock) (clientLink serverLink : TcpLink)
    (client server : Endpoint), Connects host client server clientSk → Connects host server client serverSk →
    Keys clientProbe host clientPtr clientSk linkRoleClient clientLink →
    Keys serverProbe host serverPtr serverSk linkRoleServer serverLink → SameFlow clientLink serverLink := by
  intro same
  have flow := same .little (probeOf linkRoleClient) (probeOf linkRoleServer) 1 1 _ _ _ _
    ⟨1, 40000⟩ ⟨2, 80⟩ (sockOf_connects _ _ _) (sockOf_connects _ _ _) (probeOf_keys _ _ _) (probeOf_keys _ _ _)
  exact absurd flow.2.2.1 (by decide +kernel)

end GalaGopher.Ebpf

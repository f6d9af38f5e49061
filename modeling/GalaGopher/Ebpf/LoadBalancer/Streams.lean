import GalaGopher.Ebpf.LoadBalancer.Addresses
import GalaGopher.Ebpf.LoadBalancer.Exact

namespace GalaGopher.Ebpf.LoadBalancer

open Data Text Lvs

section Cycles

variable {κ ν μ ω : Type} {links statistics fuel : Nat} [DecidableEq κ] [DecidableEq μ]

/-- The links behind the cursor are counted, and they are all unless the cursor
is a link itself. -/
theorem pull_behind (walk : Enumeration κ ν links) (closed : ν → Bool) (group : κ × ν → μ) (add : Option ω → κ × ν → ω)
    (zeroKey : κ) {map : BoundedMap κ ν links} (room : (map.entries.map group).dedup.length ≤ statistics)
    (enough : links < fuel) :
    ∃ (last : BoundedMap κ ν links) (statistic : BoundedMap μ ω statistics) (entries : List (κ × ν)),
      pull walk closed (fun statistic key value => tallyItem group add statistic (key, value)) zeroKey fuel map .empty =
        some (last, statistic) ∧
      entries ⊆ map.entries ∧ (map.lookup zeroKey = none → map.entries ⊆ entries) ∧
      ∀ key, statistic.lookup key = tallyOf group add entries key := by
  obtain ⟨passed, rest, split, behind, _, whole⟩ := walk.exists_split map zeroKey
  have shorter : rest.length ≤ map.entries.length := by
    rw [← walk.length_order, split, List.length_append]
    exact Nat.le_add_left _ _
  obtain ⟨last, swept, _⟩ := walk.sweep_rest (.empty : BoundedMap μ ω statistics) split behind
    (Nat.lt_of_le_of_lt (Nat.le_trans shorter map.fits) enough)
  have among : Enumeration.listingOf map rest ⊆ map.entries := by
    intro entry member
    obtain ⟨key, _, found⟩ := List.mem_filterMap.mp member
    obtain ⟨value, here, rfl⟩ := Option.map_eq_some_iff.mp found
    exact (map.lookup_eq_some_iff key value).mp here
  refine ⟨last, _, _, swept, among, fun outside => ?_, lookup_tally group add _ ?_⟩
  · have absent : zeroKey ∉ walk.order map := by simp [walk.mem_order_iff, outside]
    rw [whole absent]
    exact (walk.listing_perm map).symm.subset
  · have fewer : ((Enumeration.listingOf map rest).map group).dedup ⊆ (map.entries.map group).dedup := by
      intro key member
      rw [List.mem_dedup] at member ⊢
      exact List.map_subset group among member
    exact Nat.le_trans ((List.nodup_dedup _).subperm fewer).length_le room

theorem print_behind (walk : Enumeration μ ω statistics) (line : μ → ω → Bytes) (zeroGroup : μ)
    (statistic : BoundedMap μ ω statistics) (enough : statistics < fuel) (fallback : ω) :
    ∃ last keys, print walk line zeroGroup fuel statistic =
        some (last, List.map (fun key => line key ((statistic.lookup key).getD fallback)) keys) ∧
      keys.Nodup ∧ zeroGroup ∉ keys ∧ (∀ key ∈ keys, (statistic.lookup key).isSome) ∧
      (statistic.lookup zeroGroup = none → ∀ key, (statistic.lookup key).isSome → key ∈ keys) := by
  obtain ⟨passed, rest, split, behind, unvisited, whole⟩ := walk.exists_split statistic zeroGroup
  have shorter : rest.length ≤ statistic.entries.length := by
    rw [← walk.length_order, split, List.length_append]
    exact Nat.le_add_left _ _
  obtain ⟨last, swept, _⟩ := walk.sweep_rest ([] : List Bytes) split behind
    (Nat.lt_of_le_of_lt (Nat.le_trans shorter statistic.fits) enough)
  have distinct := walk.nodup statistic
  rw [split] at distinct
  have present : ∀ key ∈ rest, (statistic.lookup key).isSome := fun key member =>
    walk.mem_order_iff.mp (split ▸ List.mem_append_right _ member)
  refine ⟨last, rest, ?_, (List.nodup_append.mp distinct).2.1, unvisited, present, fun outside key found => ?_⟩
  · rw [print, swept, Enumeration.listingOf_eq_map fallback present, List.foldl_append_eq_append, List.nil_append,
      ← List.flatMap_def, List.flatMap_map, ← List.map_eq_flatMap]
  · have absent : zeroGroup ∉ walk.order statistic := by simp [walk.mem_order_iff, outside]
    rw [whole absent]
    exact walk.mem_order_iff.mpr found

/-- Whatever a map holds, a cycle prints lines of groups it holds, one for each
at most and none for the group that is all zero; with no zero in the way it
prints them all. -/
theorem turn_lines (walkLinks : Enumeration κ ν links) (walkStatistic : Enumeration μ ω statistics) (closed : ν → Bool)
    (group : κ × ν → μ) (add : Option ω → κ × ν → ω) (line : μ → ω → Bytes) (zeroKey : κ) (zeroGroup : μ)
    {map : BoundedMap κ ν links} (room : (map.entries.map group).dedup.length ≤ statistics)
    (enough : links < fuel) (enoughStatistics : statistics < fuel) (fallback : ω) :
    ∃ (result : Cycle κ ν μ ω links statistics) (keys : List μ) (value : μ → ω),
      turn (pull walkLinks closed (fun statistic key value => tallyItem group add statistic (key, value)) zeroKey fuel
          map .empty) (print walkStatistic line zeroGroup fuel) = some result ∧
        keys.Nodup ∧ result.lines = keys.map (fun key => line key (value key)) ∧ zeroGroup ∉ keys ∧
        (∀ key ∈ keys, ∃ entry ∈ map.entries, ∃ sum, group entry = key ∧ value key = add sum entry) ∧
        (map.lookup zeroKey = none → (∀ entry ∈ map.entries, group entry ≠ zeroGroup) →
          ∀ entry ∈ map.entries, group entry ∈ keys) := by
  obtain ⟨last, statistic, entries, pulled, among, whole, tallied⟩ :=
    pull_behind walkLinks closed group add zeroKey room enough
  obtain ⟨emptied, keys, printed, distinct, unvisited, present, all⟩ :=
    print_behind walkStatistic line zeroGroup statistic enoughStatistics fallback
  refine ⟨_, keys, _, by rw [pulled, turn, printed]; rfl, distinct, rfl, unvisited, ?_, ?_⟩
  · intro key member
    obtain ⟨sum, found⟩ := Option.isSome_iff_exists.mp (present key member)
    rw [found, Option.getD_some]
    rw [tallied] at found
    obtain ⟨entry, held, before, same, left⟩ := tallyOf_last group add found
    exact ⟨entry, among held, before, same, left⟩
  · intro outside apart entry member
    have missing : statistic.lookup zeroGroup = none := by
      rw [tallied, tallyOf_eq_none_iff]
      exact fun other held => apart other (among held)
    refine all missing (group entry) ?_
    rw [tallied, Option.isSome_iff_ne_none, ne_eq, tallyOf_eq_none_iff]
    exact fun absent => absent entry (whole outside member) rfl

end Cycles

namespace Haproxy

/-- A stored socket address. `sinAddr` and `sin6Addr` are the bytes where the
two families have theirs; the port is at one place in both. -/
structure SsockaddrS where
  ssFamily : UInt16
  port : UInt16
  sinAddr : Vector UInt8 4
  sin6Addr : Ip

def SsockaddrS.address (sockAddr : SsockaddrS) : Option InetAddress :=
  if sockAddr.ssFamily = afInet then some (.inet sockAddr.sinAddr)
  else if sockAddr.ssFamily = afInet6 then some (.inet6 sockAddr.sin6Addr)
  else none

/-- What the probe follows from a stream: `src` and `dst` are those of its
session's connection, `rxAddr` is that of the listener. -/
structure Stream where
  targetAddr : SsockaddrS
  src : SsockaddrS
  dst : SsockaddrS
  rxAddr : SsockaddrS
  pid : UInt32
  mode : Int8

/-- `memcpy` of the first bytes of an address. -/
def copyFront (count : Nat) (ip source : Ip) : Ip :=
  .ofFn fun place => if place.val < count then source[place.val] else ip[place.val]

/-- The family, and what is left in the address and the port. -/
def sockToIpStr (sockAddr : SsockaddrS) (ipAddr : Ip) (port : UInt16) : UInt16 × Ip × UInt16 :=
  if sockAddr.ssFamily = afInet then (sockAddr.ssFamily, setIp4 ipAddr sockAddr.sinAddr, sockAddr.port)
  else if sockAddr.ssFamily = afInet6 then (sockAddr.ssFamily, sockAddr.sin6Addr, sockAddr.port)
  else (sockAddr.ssFamily, ipAddr, port)

/-- The listener's address, read as one of the server's family. -/
def listenerAddr (family : UInt16) (rxAddr : SsockaddrS) (key : LinkKey) : LinkKey :=
  if family = afInet then { key with pAddr := setIp4 key.pAddr rxAddr.sinAddr, pPort := rxAddr.port }
  else if family = afInet6 then
    { key with pAddr := copyFront (16 - 1) key.pAddr rxAddr.sin6Addr, pPort := rxAddr.port }
  else key

def haproxyObtainKeyValue (s : Stream) (key : LinkKey) : UInt16 × LinkKey :=
  let (family, sAddr, sPort) := sockToIpStr s.targetAddr key.sAddr key.sPort
  let key := { key with sAddr, sPort }
  let (_, cAddr, cPort) := sockToIpStr s.src key.cAddr key.cPort
  let key := listenerAddr family s.rxAddr { key with cAddr, cPort }
  let (_, pAddr, pPort) := sockToIpStr s.dst key.pAddr key.pPort
  (family, { key with pAddr, pPort })

def siStEst : UInt16 := 8

def linkValue (s : Stream) : LinkValue where
  pid := s.pid
  family := (haproxyObtainKeyValue s {}).1
  type := s.mode
  state := siStEst

def backEstablish (map : LinkMap) (s : Stream) : LinkMap :=
  let (_, key) := haproxyObtainKeyValue s {}
  (map.update key (linkValue s)).getD map

/-- A cycle over the streams that have been established. -/
def report (host : ByteOrder) (walkLinks : Enumeration LinkKey LinkValue linkMaxEntries)
    (walkCollect : Enumeration CollectKey CollectValue metricEntries) (fuel : Nat) (streams : List Stream) :
    Option (Cycle LinkKey LinkValue CollectKey CollectValue linkMaxEntries metricEntries) :=
  cycle host walkLinks walkCollect fuel (streams.foldl backEstablish .empty)

def Stream.linkKey (s : Stream) : LinkKey := (haproxyObtainKeyValue s {}).2

def Stream.collectKey (s : Stream) : CollectKey := Haproxy.collectKey s.linkKey

/-- The three addresses are of the two families. -/
def Stream.Known (s : Stream) : Prop :=
  ∀ sockAddr ∈ [s.src, s.dst, s.targetAddr], sockAddr.ssFamily = afInet ∨ sockAddr.ssFamily = afInet6

/-- What `sock_to_ip_str` leaves in an address. -/
def SsockaddrS.stored (sockAddr : SsockaddrS) (before : Ip) : Ip :=
  if sockAddr.ssFamily = afInet then setIp4 before sockAddr.sinAddr else sockAddr.sin6Addr

variable {s : Stream} {sockAddr : SsockaddrS}

theorem inet6_ne_inet : afInet6 ≠ afInet := by decide

theorem sockToIpStr_eq (known : sockAddr.ssFamily = afInet ∨ sockAddr.ssFamily = afInet6) (ipAddr : Ip) (port : UInt16) :
    sockToIpStr sockAddr ipAddr port = (sockAddr.ssFamily, sockAddr.stored ipAddr, sockAddr.port) := by
  rw [sockToIpStr, SsockaddrS.stored]
  rcases known with inet | inet6
  · rw [if_pos inet, if_pos inet]
  · have other : sockAddr.ssFamily ≠ afInet := inet6 ▸ inet6_ne_inet
    rw [if_neg other, if_pos inet6, if_neg other]

theorem obtained_eq (known : s.Known) :
    haproxyObtainKeyValue s {} =
      (s.targetAddr.ssFamily,
        { cAddr := s.src.stored .zero
          sAddr := s.targetAddr.stored .zero
          pAddr := s.dst.stored (listenerAddr s.targetAddr.ssFamily s.rxAddr {}).pAddr
          cPort := s.src.port
          sPort := s.targetAddr.port
          pPort := s.dst.port }) := by
  simp only [Stream.Known, List.forall_mem_cons] at known
  obtain ⟨srcKnown, dstKnown, targetKnown, _⟩ := known
  simp only [haproxyObtainKeyValue, sockToIpStr_eq targetKnown, sockToIpStr_eq srcKnown, sockToIpStr_eq dstKnown]
  unfold listenerAddr
  split
  · rfl
  · split <;> rfl

theorem linkValue_family (known : s.Known) : (linkValue s).family = s.targetAddr.ssFamily := by
  rw [linkValue, obtained_eq known]

theorem collectKey_eq (known : s.Known) :
    s.collectKey =
      { cAddr := s.src.stored .zero
        pAddr := s.dst.stored (listenerAddr s.targetAddr.ssFamily s.rxAddr {}).pAddr
        sAddr := s.targetAddr.stored .zero
        pPort := s.dst.port
        sPort := s.targetAddr.port } := by
  rw [Stream.collectKey, Stream.linkKey, obtained_eq known]
  rfl

/-- The text of an address in a family gives it back in its own only. -/
theorem parse_stored_iff (known : sockAddr.ssFamily = afInet ∨ sockAddr.ssFamily = afInet6) (before : Ip) (family : UInt16) :
    parseAddress (ipStr family.toNat (sockAddr.stored before)) = sockAddr.address ↔
      if family = afInet6 then sockAddr.ssFamily = afInet6 ∧ sockAddr.sin6Addr.get 12 ≠ 0 else sockAddr.ssFamily = afInet := by
  by_cases inet6 : family = afInet6
  · rw [inet6, parseAddress_inet6, if_pos rfl]
    rcases known with inet | inet6
    · have other : ¬ sockAddr.ssFamily = afInet6 := fun inet6 => inet6_ne_inet (inet6.symm.trans inet)
      rw [SsockaddrS.address, if_pos inet]
      refine iff_of_false (fun same => ?_) fun both => other both.1
      split at same <;> cases same
    · have other : sockAddr.ssFamily ≠ afInet := inet6 ▸ inet6_ne_inet
      rw [SsockaddrS.address, if_neg other, if_pos inet6, SsockaddrS.stored, if_neg other]
      by_cases zero : sockAddr.sin6Addr.get 12 = 0 <;> simp [zero, inet6]
  · have number : family.toNat ≠ afInet6.toNat := fun same => inet6 (UInt16.toNat_inj.mp same)
    rw [if_neg inet6, parseAddress_inet number]
    rcases known with inet | inet6
    · rw [SsockaddrS.address, if_pos inet, SsockaddrS.stored, if_pos inet, ip4Of_setIp4]
      exact iff_of_true rfl inet
    · have other : sockAddr.ssFamily ≠ afInet := inet6 ▸ inet6_ne_inet
      rw [SsockaddrS.address, if_neg other, if_pos inet6]
      exact iff_of_false (fun same => by cases same) other

/-- A line with the stream's own addresses and ports, behind the name of the
table. -/
structure OwnLine (host : ByteOrder) (s : Stream) (line : Bytes) : Prop where
  client : (column 2 line).bind parseAddress = s.src.address
  proxy : (column 3 line).bind parseAddress = s.dst.address
  server : (column 4 line).bind parseAddress = s.targetAddr.address
  pPort : column 5 line = some (port host s.dst.port)
  sPort : column 6 line = some (port host s.targetAddr.port)

/-- One family for the three addresses, of which the sixth pair of bytes of an
IPv6 address does not begin the quad with zero, and something that is not
zero. -/
structure Plain (s : Stream) : Prop where
  client : s.src.ssFamily = s.targetAddr.ssFamily
  proxy : s.dst.ssFamily = s.targetAddr.ssFamily
  readable : s.targetAddr.ssFamily = afInet6 →
    s.src.sin6Addr.get 12 ≠ 0 ∧ s.dst.sin6Addr.get 12 ≠ 0 ∧ s.targetAddr.sin6Addr.get 12 ≠ 0
  nonzero : s.targetAddr.ssFamily = afInet →
    ¬ (s.src.sinAddr = .replicate 4 0 ∧ s.dst.sinAddr = .replicate 4 0 ∧ s.targetAddr.sinAddr = .replicate 4 0 ∧
      s.dst.port = 0 ∧ s.targetAddr.port = 0)

theorem collectLine_columns (host : ByteOrder) (key : CollectKey) (value : CollectValue) :
    column 2 (collectLine host key value) = some (ipStr value.family.toNat key.cAddr) ∧
      column 3 (collectLine host key value) = some (ipStr value.family.toNat key.pAddr) ∧
      column 4 (collectLine host key value) = some (ipStr value.family.toNat key.sAddr) ∧
      column 5 (collectLine host key value) = some (port host key.pPort) ∧
      column 6 (collectLine host key value) = some (port host key.sPort) := by
  have nameFree : bar ∉ ascii "haproxy_link" := by decide
  have front : collectLine host key value =
      row ([ascii "haproxy_link", ipStr value.family.toNat key.cAddr, ipStr value.family.toNat key.pAddr,
        ipStr value.family.toNat key.sAddr, port host key.pPort, port host key.sPort] ++
          [decimal value.protocol.toNat, decimal value.linkCount.toNat]) := rfl
  rw [front]
  refine ⟨column_row ?_ _ (by simp), column_row ?_ _ (by simp), column_row ?_ _ (by simp), column_row ?_ _ (by simp),
    column_row ?_ _ (by simp)⟩ <;>
  · simp only [List.forall_mem_cons]
    exact ⟨nameFree, ipStr_free _ _, ipStr_free _ _, ipStr_free _ _, decimal_lacks _, decimal_lacks _, by simp⟩

theorem ownLine_iff {host : ByteOrder} (known : s.Known) (value : CollectValue) :
    OwnLine host s (collectLine host s.collectKey value) ↔
      ∀ sockAddr ∈ [s.src, s.dst, s.targetAddr],
        if value.family = afInet6 then sockAddr.ssFamily = afInet6 ∧ sockAddr.sin6Addr.get 12 ≠ 0
        else sockAddr.ssFamily = afInet := by
  obtain ⟨client, proxy, server, pPort, sPort⟩ := collectLine_columns host s.collectKey value
  simp only [Stream.Known, List.forall_mem_cons] at known
  obtain ⟨srcKnown, dstKnown, targetKnown, none⟩ := known
  rw [collectKey_eq (by simpa [Stream.Known] using ⟨srcKnown, dstKnown, targetKnown⟩)] at client proxy server pPort sPort ⊢
  simp only [List.forall_mem_cons]
  rw [← parse_stored_iff srcKnown .zero, ← parse_stored_iff dstKnown (listenerAddr s.targetAddr.ssFamily s.rxAddr {}).pAddr,
    ← parse_stored_iff targetKnown .zero]
  constructor
  · intro own
    have first := own.client
    have second := own.proxy
    have third := own.server
    rw [client] at first
    rw [proxy] at second
    rw [server] at third
    exact ⟨first, second, third, by simp⟩
  · rintro ⟨first, second, third, _⟩
    refine ⟨?_, ?_, ?_, pPort, sPort⟩
    · rw [client]
      exact first
    · rw [proxy]
      exact second
    · rw [server]
      exact third

theorem ownLine_of_plain {host : ByteOrder} (known : s.Known) (plain : Plain s) {value : CollectValue}
    (family : value.family = s.targetAddr.ssFamily) : OwnLine host s (collectLine host s.collectKey value) := by
  rw [ownLine_iff known, family]
  simp only [List.forall_mem_cons]
  have target : s.targetAddr.ssFamily = afInet ∨ s.targetAddr.ssFamily = afInet6 := known s.targetAddr (by simp)
  rcases target with inet | inet6
  · have other : s.targetAddr.ssFamily ≠ afInet6 := fun inet6 => inet6_ne_inet (inet6.symm.trans inet)
    simp only [if_neg other]
    exact ⟨plain.client.trans inet, plain.proxy.trans inet, inet, by simp⟩
  · obtain ⟨client, proxy, server⟩ := plain.readable inet6
    simp only [if_pos inet6]
    exact ⟨⟨plain.client.trans inet6, client⟩, ⟨plain.proxy.trans inet6, proxy⟩, ⟨inet6, server⟩, by simp⟩

theorem stored_inet (inet : sockAddr.ssFamily = afInet) (before : Ip) :
    sockAddr.stored before = setIp4 before sockAddr.sinAddr := by
  rw [SsockaddrS.stored, if_pos inet]

theorem setIp4_zero : setIp4 .zero (.replicate 4 0) = .zero := by decide

theorem setIp4_setIp4 (ip : Ip) (first second : Vector UInt8 4) : setIp4 (setIp4 ip first) second = setIp4 ip second := by
  refine Vector.ext fun place inside => ?_
  simp only [setIp4, Vector.getElem_ofFn]
  split <;> rfl

/-- The key of an IPv4 stream is zero where its addresses and ports are. -/
theorem collectKey_zero (known : s.Known) (plain : s.src.ssFamily = afInet ∧ s.dst.ssFamily = afInet ∧ s.targetAddr.ssFamily = afInet)
    (zero : s.src.sinAddr = .replicate 4 0 ∧ s.dst.sinAddr = .replicate 4 0 ∧ s.targetAddr.sinAddr = .replicate 4 0 ∧
      s.dst.port = 0 ∧ s.targetAddr.port = 0) : s.collectKey = {} := by
  obtain ⟨client, proxy, server⟩ := plain
  obtain ⟨clientZero, proxyZero, serverZero, pPort, sPort⟩ := zero
  rw [collectKey_eq known, stored_inet client, stored_inet proxy, stored_inet server, listenerAddr, if_pos server,
    setIp4_setIp4, clientZero, proxyZero, serverZero, pPort, sPort, setIp4_zero]

theorem plain_of_ownLine {host : ByteOrder} (known : s.Known) {value : CollectValue}
    (own : OwnLine host s (collectLine host s.collectKey value)) (filled : s.collectKey ≠ {}) : Plain s := by
  rw [ownLine_iff known] at own
  simp only [List.forall_mem_cons] at own
  obtain ⟨client, proxy, server, _⟩ := own
  by_cases inet6 : value.family = afInet6
  · rw [if_pos inet6] at client proxy server
    exact ⟨client.1.trans server.1.symm, proxy.1.trans server.1.symm, fun _ => ⟨client.2, proxy.2, server.2⟩,
      fun inet => absurd (server.1.symm.trans inet) inet6_ne_inet⟩
  · rw [if_neg inet6] at client proxy server
    refine ⟨client.trans server.symm, proxy.trans server.symm, fun inet6 => ?_, fun _ zero => ?_⟩
    · exact absurd (inet6.symm.trans server) inet6_ne_inet
    · exact filled (collectKey_zero known ⟨client, proxy, server⟩ zero)

theorem setIp4_behind (ip : Ip) (ip4 : Vector UInt8 4) : (setIp4 ip ip4).get 12 = ip.get 12 := by
  rw [get_setIp4, dif_neg (by decide)]

/-- The server's address tells the family. -/
theorem server_inet6_iff (known : s.Known) (plain : Plain s) :
    s.targetAddr.ssFamily = afInet6 ↔ s.collectKey.sAddr.get 12 ≠ 0 := by
  rw [collectKey_eq known]
  have target : s.targetAddr.ssFamily = afInet ∨ s.targetAddr.ssFamily = afInet6 := known s.targetAddr (by simp)
  rcases target with inet | inet6
  · have other : s.targetAddr.ssFamily ≠ afInet6 := fun inet6 => inet6_ne_inet (inet6.symm.trans inet)
    simp only [stored_inet inet, setIp4_behind]
    exact iff_of_false other (by decide)
  · have other : s.targetAddr.ssFamily ≠ afInet := inet6 ▸ inet6_ne_inet
    simp only [SsockaddrS.stored, if_neg other]
    exact iff_of_true inet6 (plain.readable inet6).2.2

theorem family_of_collectKey {other : Stream} (known : s.Known) (otherKnown : other.Known) (plain : Plain s)
    (otherPlain : Plain other) (same : s.collectKey = other.collectKey) :
    s.targetAddr.ssFamily = other.targetAddr.ssFamily := by
  have both : s.targetAddr.ssFamily = afInet6 ↔ other.targetAddr.ssFamily = afInet6 := by
    rw [server_inet6_iff known plain, server_inet6_iff otherKnown otherPlain, same]
  rcases known s.targetAddr (by simp) with inet | inet6
  · rcases otherKnown other.targetAddr (by simp) with otherInet | otherInet6
    · exact inet.trans otherInet.symm
    · exact absurd ((both.mpr otherInet6).symm.trans inet) inet6_ne_inet
  · exact inet6.trans (both.mp inet6).symm

theorem collectKey_nonzero (known : s.Known) (plain : Plain s) : s.collectKey ≠ {} := by
  intro zero
  rcases known s.targetAddr (by simp) with inet | inet6
  · rw [collectKey_eq known, stored_inet inet, stored_inet (plain.client.trans inet), stored_inet (plain.proxy.trans inet)] at zero
    have fourth {ip : Ip} {ip4 : Vector UInt8 4} (clear : setIp4 ip ip4 = .zero) : ip4 = .replicate 4 0 := by
      rw [← ip4Of_setIp4 ip ip4, clear]
      rfl
    simp only [CollectKey.mk.injEq] at zero
    exact plain.nonzero inet ⟨fourth zero.1, fourth zero.2.1, fourth zero.2.2.1, zero.2.2.2.1, zero.2.2.2.2⟩
  · have filled := (server_inet6_iff known plain).mp inet6
    rw [zero] at filled
    exact filled (by decide)

def establish (streams : List Stream) : LinkMap := streams.foldl backEstablish .empty

theorem lookup_establish {streams : List Stream} (room : (streams.map Stream.linkKey).dedup.length ≤ linkMaxEntries)
    (key : LinkKey) :
    (establish streams).lookup key = tallyOf Stream.linkKey (fun _ s => linkValue s) streams key :=
  lookup_tally Stream.linkKey (fun _ s => linkValue s) streams room key

theorem entry_of_stream {streams : List Stream} (room : (streams.map Stream.linkKey).dedup.length ≤ linkMaxEntries)
    (member : s ∈ streams) : ∃ entry ∈ (establish streams).entries, entry.1 = s.linkKey := by
  have present : (establish streams).lookup s.linkKey ≠ none := by
    rw [lookup_establish room, ne_eq, tallyOf_eq_none_iff]
    exact fun absent => absent s member rfl
  obtain ⟨value, found⟩ := Option.ne_none_iff_exists'.mp present
  exact ⟨(s.linkKey, value), (BoundedMap.lookup_eq_some_iff ..).mp found, rfl⟩

theorem stream_of_entry {streams : List Stream} (room : (streams.map Stream.linkKey).dedup.length ≤ linkMaxEntries)
    {entry : LinkKey × LinkValue} (held : entry ∈ (establish streams).entries) :
    ∃ s ∈ streams, entry.1 = s.linkKey ∧ entry.2 = linkValue s := by
  have found := (BoundedMap.lookup_eq_some_iff _ entry.1 entry.2).mpr held
  rw [lookup_establish room] at found
  obtain ⟨s, member, _, same, value⟩ := tallyOf_last _ _ found
  exact ⟨s, member, same.symm, value⟩

/-- What tells streams apart. -/
def Stream.ends (s : Stream) : Option InetAddress × Option InetAddress × Option InetAddress × UInt16 × UInt16 :=
  (s.src.address, s.dst.address, s.targetAddr.address, s.dst.port, s.targetAddr.port)

/-- Every stream has its own line, and one line is never that of streams with
different ends. -/
structure Shown (host : ByteOrder) (streams : List Stream) (keys : List CollectKey) (value : CollectKey → CollectValue) :
    Prop where
  own : ∀ s ∈ streams, s.collectKey ∈ keys ∧ OwnLine host s (collectLine host s.collectKey (value s.collectKey))
  apart : ∀ s ∈ streams, ∀ other ∈ streams, s.ends ≠ other.ends → s.collectKey ≠ other.collectKey

theorem ends_of_ownLine {host : ByteOrder} {other : Stream} (known : s.Known) (otherKnown : other.Known)
    (same : s.collectKey = other.collectKey) {line : Bytes} (own : OwnLine host s line)
    (otherOwn : OwnLine host other line) : s.ends = other.ends := by
  have ports := same
  rw [collectKey_eq known, collectKey_eq otherKnown] at ports
  simp only [CollectKey.mk.injEq] at ports
  rw [Stream.ends, Stream.ends, ← own.client, ← own.proxy, ← own.server, otherOwn.client, otherOwn.proxy, otherOwn.server,
    ports.2.2.2.1, ports.2.2.2.2]

/-- No link of plain streams is in the group of the first iteration. -/
theorem group_nonzero {streams : List Stream} (known : ∀ s ∈ streams, s.Known) (plain : ∀ s ∈ streams, Plain s)
    (room : (streams.map Stream.linkKey).dedup.length ≤ linkMaxEntries) :
    ∀ entry ∈ (establish streams).entries, Haproxy.collectKey entry.1 ≠ {} := by
  intro entry held
  obtain ⟨s, member, same, _⟩ := stream_of_entry room held
  rw [same]
  exact collectKey_nonzero (known s member) (plain s member)

/-- A link in the group of a stream adds its family. -/
theorem addLink_family {streams : List Stream} (known : ∀ s ∈ streams, s.Known) (plain : ∀ s ∈ streams, Plain s)
    (room : (streams.map Stream.linkKey).dedup.length ≤ linkMaxEntries) (member : s ∈ streams)
    {entry : LinkKey × LinkValue} (held : entry ∈ (establish streams).entries)
    (group : Haproxy.collectKey entry.1 = s.collectKey) (sum : Option CollectValue) :
    (addLink sum entry).family = s.targetAddr.ssFamily := by
  obtain ⟨other, among, key, value⟩ := stream_of_entry room held
  have same : s.collectKey = other.collectKey := by
    rw [← group, key]
    rfl
  rw [family_of_collectKey (known s member) (known other among) (plain s member) (plain other among) same, addLink, value]
  exact linkValue_family (known other among)

/-- The lines of a cycle are those of keys, one for each; they show the streams
exactly when every one of these is plain. -/
theorem report_shown_iff (host : ByteOrder) (walkLinks : Enumeration LinkKey LinkValue linkMaxEntries)
    (walkCollect : Enumeration CollectKey CollectValue metricEntries) {fuel : Nat} {streams : List Stream}
    (known : ∀ s ∈ streams, s.Known) (room : (streams.map Stream.linkKey).dedup.length ≤ linkMaxEntries)
    (collectRoom : (streams.map Stream.collectKey).dedup.length ≤ metricEntries) (enough : linkMaxEntries < fuel) :
    ∃ (keys : List CollectKey) (value : CollectKey → CollectValue),
      (report host walkLinks walkCollect fuel streams).map Cycle.lines =
        some (keys.map fun key => collectLine host key (value key)) ∧
      keys.Nodup ∧ (Shown host streams keys value ↔ ∀ s ∈ streams, Plain s) := by
  have groups : ((establish streams).entries.map fun entry => Haproxy.collectKey entry.1).dedup.length ≤ metricEntries := by
    refine Nat.le_trans ((List.nodup_dedup _).subperm fun key member => ?_).length_le collectRoom
    rw [List.mem_dedup] at member ⊢
    obtain ⟨entry, held, rfl⟩ := List.mem_map.mp member
    obtain ⟨s, present, same, _⟩ := stream_of_entry room held
    rw [same]
    exact List.mem_map_of_mem present
  obtain ⟨result, keys, value, reported, distinct, lines, unprinted, among, all⟩ :=
    turn_lines walkLinks walkCollect isClosed (fun entry : LinkKey × LinkValue => Haproxy.collectKey entry.1) addLink
      (collectLine host) {} {} groups enough (Nat.lt_of_le_of_lt (by decide) enough) {}
  refine ⟨keys, value, ?_, distinct, ?_⟩
  · rw [← lines]
    exact congrArg (Option.map Cycle.lines) reported
  · constructor
    · intro shown s member
      obtain ⟨printed, own⟩ := shown.own s member
      exact plain_of_ownLine (known s member) own fun zero => unprinted (zero ▸ printed)
    · intro plain
      have apart := group_nonzero known plain room
      have outside : (establish streams).lookup {} = none := by
        by_contra found
        obtain ⟨value, here⟩ := Option.ne_none_iff_exists'.mp found
        exact apart _ ((BoundedMap.lookup_eq_some_iff ..).mp here) rfl
      have own : ∀ s ∈ streams, s.collectKey ∈ keys ∧
          OwnLine host s (collectLine host s.collectKey (value s.collectKey)) := by
        intro s member
        obtain ⟨entry, held, same⟩ := entry_of_stream room member
        have printed : s.collectKey ∈ keys := by
          have there := all outside apart entry held
          rwa [same] at there
        obtain ⟨counted, countedHeld, sum, group, left⟩ := among s.collectKey printed
        refine ⟨printed, ownLine_of_plain (known s member) (plain s member) ?_⟩
        rw [left]
        exact addLink_family known plain room member countedHeld group sum
      refine ⟨own, fun s member other otherMember different same => different ?_⟩
      have otherOwn := (own other otherMember).2
      rw [← same] at otherOwn
      exact ends_of_ownLine (known s member) (known other otherMember) same (own s member).2 otherOwn

def inetAddr (last : UInt8) (port : UInt16) : SsockaddrS where
  ssFamily := afInet
  port := port
  sinAddr := #v[10, 0, 0, last]
  sin6Addr := .zero

def inet6Addr (last : UInt8) (port : UInt16) : SsockaddrS where
  ssFamily := afInet6
  port := port
  sinAddr := .replicate 4 0
  sin6Addr := #v[0x20, 0x01, 0x0d, 0xb8, 0, 0, 0, 0, 0, 0, 0, 0, 1, 0, 0, last]

def inetStream : Stream where
  targetAddr := inetAddr 7 80
  src := inetAddr 8 1000
  dst := inetAddr 9 443
  rxAddr := inetAddr 9 443
  pid := 7
  mode := 1

def inet6Stream : Stream where
  targetAddr := inet6Addr 7 80
  src := inet6Addr 8 1000
  dst := inet6Addr 9 443
  rxAddr := inet6Addr 9 443
  pid := 7
  mode := 1

theorem report_shown_two : ∃ (keys : List CollectKey) (value : CollectKey → CollectValue),
    (report .little .stored .stored 81921 [inetStream, inet6Stream]).map Cycle.lines =
      some (keys.map fun key => collectLine .little key (value key)) ∧
    keys.Nodup ∧ (Shown .little [inetStream, inet6Stream] keys value ↔ ∀ s ∈ [inetStream, inet6Stream], Plain s) :=
  report_shown_iff .little .stored .stored (by simp [Stream.Known, inetStream, inet6Stream, inetAddr, inet6Addr])
    (Nat.le_trans (List.dedup_sublist _).length_le (by decide))
    (Nat.le_trans (List.dedup_sublist _).length_le (by decide)) (by decide)

/-- An IPv4 client in front of an IPv6 server. -/
def mixedStream : Stream := { inet6Stream with src := inetAddr 8 1000 }

theorem mixed_not_shown : ¬ ∃ (keys : List CollectKey) (value : CollectKey → CollectValue),
    (report .little .stored .stored 81921 [mixedStream]).map Cycle.lines =
      some (keys.map fun key => collectLine .little key (value key)) ∧
    keys.Nodup ∧ Shown .little [mixedStream] keys value := by
  rintro ⟨keys, value, _, _, shown⟩
  have own := (shown.own mixedStream (by simp)).2
  have known : mixedStream.Known := by simp [Stream.Known, mixedStream, inet6Stream, inetAddr, inet6Addr]
  rw [ownLine_iff known] at own
  have client := own mixedStream.src (by simp)
  have server := own mixedStream.targetAddr (by simp)
  by_cases inet6 : (value mixedStream.collectKey).family = afInet6
  · rw [if_pos inet6] at client
    exact inet6_ne_inet client.1.symm
  · rw [if_neg inet6] at server
    exact inet6_ne_inet server

end Haproxy

end GalaGopher.Ebpf.LoadBalancer

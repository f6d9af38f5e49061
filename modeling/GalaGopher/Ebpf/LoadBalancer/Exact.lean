import GalaGopher.Data.Tally
import GalaGopher.Ebpf.LoadBalancer

namespace GalaGopher.Ebpf.LoadBalancer

open Data Text

section Cycles

variable {κ ν μ ω : Type} {links statistics : Nat} [DecidableEq κ] [DecidableEq μ]

/-- The links of a map that are counted under `key`. -/
def linksOf (map : BoundedMap κ ν links) (group : κ × ν → μ) (key : μ) : List (κ × ν) :=
  map.entries.filter fun entry => group entry = key

/-- A cycle prints one line for each group there is, with the number of its
links; it deletes the closed links and no others, and empties the statistics. -/
structure Exact (map : BoundedMap κ ν links) (closed : ν → Bool) (group : κ × ν → μ) (count : ω → Nat)
    (line : μ → ω → Bytes) (cycle : Cycle κ ν μ ω links statistics) : Prop where
  kept : ∀ key, cycle.links.lookup key = (map.lookup key).filter fun value => !closed value
  lines : ∃ (keys : List μ) (value : μ → ω), keys.Nodup ∧ (∀ key, key ∈ keys ↔ linksOf map group key ≠ []) ∧
    cycle.lines = keys.map (fun key => line key (value key)) ∧
    ∀ key ∈ keys, count (value key) = (linksOf map group key).length
  emptied : cycle.statistic.entries = []

variable {map : BoundedMap κ ν links} {modulus fuel : Nat} {zeroKey : κ} {zeroGroup : μ} (closed : ν → Bool)
  (group : κ × ν → μ) (add : Option ω → κ × ν → ω) (count : ω → Nat) (line : μ → ω → Bytes)

theorem pull_counts (walk : Enumeration κ ν links) (outside : map.lookup zeroKey = none)
    (room : (map.entries.map group).dedup.length ≤ statistics) (enough : map.entries.length < fuel) :
    ∃ (last : BoundedMap κ ν links) (statistic : BoundedMap μ ω statistics),
      pull walk closed (fun statistic key value => tallyItem group add statistic (key, value)) zeroKey fuel map .empty =
        some (last, statistic) ∧
      (∀ key, last.lookup key = (map.lookup key).filter fun value => !closed value) ∧
      ∃ entries : List (κ × ν), entries.Perm map.entries ∧
        ∀ key, statistic.lookup key = tallyOf group add entries key := by
  have absent : zeroKey ∉ walk.order map := by
    simp [walk.mem_order_iff, outside]
  obtain ⟨last, swept, lookups⟩ := walk.sweep_all (.empty : BoundedMap μ ω statistics) absent enough
  have permuted := walk.listing_perm map
  refine ⟨last, _, swept, lookups, _, permuted, lookup_tally group add _ ?_⟩
  rwa [((permuted.map group).dedup).length_eq]

theorem print_lines (walk : Enumeration μ ω statistics) {statistic : BoundedMap μ ω statistics}
    (outside : statistic.lookup zeroGroup = none) (enough : statistic.entries.length < fuel) (fallback : ω) :
    ∃ last, print walk line zeroGroup fuel statistic =
        some (last, (walk.order statistic).map fun key => line key ((statistic.lookup key).getD fallback)) ∧
      last.entries = [] := by
  have absent : zeroGroup ∉ walk.order statistic := by
    simp [walk.mem_order_iff, outside]
  obtain ⟨last, swept, lookups⟩ := walk.sweep_all ([] : List Bytes) absent enough
  have present : ∀ key ∈ walk.order statistic, (statistic.lookup key).isSome :=
    fun key member => walk.mem_order_iff.mp member
  refine ⟨last, ?_, last.entries_eq_nil fun key => ?_⟩
  · rw [print, swept, Enumeration.listingOf_eq_map fallback present, List.foldl_append_eq_append, List.nil_append,
      ← List.flatMap_def, List.flatMap_map, ← List.map_eq_flatMap]
  · rw [lookups]
    cases statistic.lookup key <;> rfl

/-- Both loops end, with fuel for every entry. -/
theorem cycle_exact (walkLinks : Enumeration κ ν links) (walkStatistic : Enumeration μ ω statistics)
    (outside : map.lookup zeroKey = none) (apart : ∀ entry ∈ map.entries, group entry ≠ zeroGroup)
    (room : (map.entries.map group).dedup.length ≤ statistics) (enough : map.entries.length < fuel)
    (moves : ∀ sum item, count (add sum item) = (sum.elim 0 count + 1) % modulus) (narrow : map.entries.length < modulus)
    (fallback : ω) :
    ∃ result,
      turn (pull walkLinks closed (fun statistic key value => tallyItem group add statistic (key, value)) zeroKey fuel
          map .empty) (print walkStatistic line zeroGroup fuel) = some result ∧
        Exact map closed group count line result := by
  obtain ⟨last, statistic, pulled, kept, entries, permuted, tallied⟩ :=
    pull_counts closed group add walkLinks outside room enough
  have counted (key : μ) : (entries.filter fun entry => group entry = key).length = (linksOf map group key).length :=
    (permuted.filter _).length_eq
  have missing : statistic.lookup zeroGroup = none := by
    rw [tallied, tallyOf_eq_none_iff]
    exact fun entry member => apart entry (permuted.mem_iff.mp member)
  have fewer : statistic.entries.length < fuel :=
    Nat.lt_of_le_of_lt (permuted.length_eq ▸ tally_length group add tallied) enough
  obtain ⟨emptied, printed, empty⟩ := print_lines line walkStatistic missing fewer fallback
  refine ⟨_, by rw [pulled, turn, printed]; rfl, kept, ?_, empty⟩
  refine ⟨walkStatistic.order statistic, fun key => (statistic.lookup key).getD fallback, walkStatistic.nodup statistic,
    fun key => ?_, rfl, fun key member => ?_⟩
  · rw [walkStatistic.mem_order_iff, tallied, Option.isSome_iff_ne_none, ne_eq, tallyOf_eq_none_iff, linksOf, ne_eq,
      List.filter_eq_nil_iff]
    simp [permuted.mem_iff]
  · obtain ⟨value, found⟩ := Option.isSome_iff_exists.mp (walkStatistic.mem_order_iff.mp member)
    have total := tallyOf_count group add moves entries key
    have bound : (linksOf map group key).length < modulus :=
      Nat.lt_of_le_of_lt (List.length_filter_le _ _) narrow
    rw [← tallied, found, Option.elim_some, counted, Nat.mod_eq_of_lt bound] at total
    simp only [found, Option.getD_some]
    exact total

end Cycles

namespace Nginx

/-- What `update_statistic_map` makes of an entry. -/
def addLink (sum : Option NgxStatistic) (entry : IpAddr × NgxMetric) : NgxStatistic :=
  let v := sum.getD {}
  let v := if v.linkCount = 0 then { v with ngxIp := entry.2.ngxIp } else v
  { v with linkCount := v.linkCount + 1 }

theorem addLink_count (sum : Option NgxStatistic) (entry : IpAddr × NgxMetric) :
    (addLink sum entry).linkCount.toNat = (sum.elim 0 (fun v => v.linkCount.toNat) + 1) % 2 ^ 32 := by
  simp only [addLink]
  cases sum with
  | none => rfl
  | some v => split <;> exact UInt32.toNat_add ..

theorem cycle_counts (host : ByteOrder) (walkLinks : Enumeration IpAddr NgxMetric hashItemCnts)
    (walkStatistic : Enumeration NgxStatisticKey NgxStatistic statisticMaxEntries) {map : LinkMap} {fuel : Nat}
    (outside : map.lookup {} = none) (apart : ∀ entry ∈ map.entries, statisticKey entry.2 ≠ {})
    (enough : map.entries.length < fuel) :
    ∃ result, cycle host walkLinks walkStatistic fuel map = some result ∧
      Exact map NgxMetric.isFinish (fun entry => statisticKey entry.2) (fun v => v.linkCount.toNat)
        (statisticLine host) result := by
  have fewer := (List.dedup_sublist (map.entries.map fun entry => statisticKey entry.2)).length_le
  have narrow : map.entries.length < 2 ^ 32 := Nat.lt_of_le_of_lt map.fits (by decide)
  have room : (map.entries.map fun entry => statisticKey entry.2).dedup.length ≤ statisticMaxEntries := by
    rw [List.length_map] at fewer
    exact Nat.le_trans fewer (Nat.le_trans map.fits (by decide))
  exact cycle_exact NgxMetric.isFinish (fun entry => statisticKey entry.2) addLink (fun v => v.linkCount.toNat)
    (statisticLine host) walkLinks walkStatistic outside apart room enough addLink_count narrow {}

end Nginx

namespace Haproxy

/-- What `update_haproxy_collect_map` makes of an entry. -/
def addLink (sum : Option CollectValue) (entry : LinkKey × LinkValue) : CollectValue :=
  { linkCount := (sum.getD {}).linkCount + 1, family := entry.2.family, protocol := entry.2.type.toInt16.toUInt16,
    pid := entry.2.pid }

theorem addLink_count (sum : Option CollectValue) (entry : LinkKey × LinkValue) :
    (addLink sum entry).linkCount.toNat = (sum.elim 0 (fun v => v.linkCount.toNat) + 1) % 2 ^ 64 := by
  cases sum with
  | none => rfl
  | some v => exact UInt64.toNat_add ..

theorem cycle_counts (host : ByteOrder) (walkLinks : Enumeration LinkKey LinkValue linkMaxEntries)
    (walkCollect : Enumeration CollectKey CollectValue metricEntries) {map : LinkMap} {fuel : Nat}
    (outside : map.lookup {} = none) (apart : ∀ entry ∈ map.entries, collectKey entry.1 ≠ {})
    (room : (map.entries.map fun entry => collectKey entry.1).dedup.length ≤ metricEntries)
    (enough : map.entries.length < fuel) :
    ∃ result, cycle host walkLinks walkCollect fuel map = some result ∧
      Exact map isClosed (fun entry => collectKey entry.1) (fun v => v.linkCount.toNat)
        (collectLine host) result :=
  cycle_exact isClosed (fun entry => collectKey entry.1) addLink
    (fun v => v.linkCount.toNat) (collectLine host) walkLinks walkCollect outside apart room enough addLink_count
    (Nat.lt_of_le_of_lt map.fits (by decide)) {}

end Haproxy

namespace Ipvs

open GalaGopher.Ebpf.Lvs

/-- What `update_ipvs_collect_map` makes of an entry. -/
def addLink (sum : Option CollectValue) (entry : LinkKey × LinkValue) : CollectValue :=
  { linkCount := (sum.getD {}).linkCount + 1, protocol := entry.2.protocol }

theorem addLink_count (sum : Option CollectValue) (entry : LinkKey × LinkValue) :
    (addLink sum entry).linkCount.toNat = (sum.elim 0 (fun v => v.linkCount.toNat) + 1) % 2 ^ 64 := by
  cases sum with
  | none => rfl
  | some v => exact UInt64.toNat_add ..

theorem cycle_counts (host : ByteOrder) (walkLinks : Enumeration LinkKey LinkValue ipvsMaxEntries)
    (walkCollect : Enumeration CollectKey CollectValue ipvsMaxEntries) {map : LinkMap} {fuel : Nat}
    (outside : map.lookup {} = none) (apart : ∀ entry ∈ map.entries, collectKey entry.1 entry.2.lAddr ≠ {})
    (enough : map.entries.length < fuel) :
    ∃ result, cycle host walkLinks walkCollect fuel map = some result ∧
      Exact map isClosed (fun entry => collectKey entry.1 entry.2.lAddr)
        (fun v => v.linkCount.toNat) (collectLine host) result := by
  have fewer := (List.dedup_sublist (map.entries.map fun entry => collectKey entry.1 entry.2.lAddr)).length_le
  have room : (map.entries.map fun entry => collectKey entry.1 entry.2.lAddr).dedup.length ≤ ipvsMaxEntries := by
    rw [List.length_map] at fewer
    exact Nat.le_trans fewer map.fits
  exact cycle_exact isClosed (fun entry => collectKey entry.1 entry.2.lAddr) addLink
    (fun v => v.linkCount.toNat) (collectLine host) walkLinks walkCollect outside apart room enough addLink_count
    (Nat.lt_of_le_of_lt map.fits (by decide)) {}

end Ipvs

theorem links_counted (host : ByteOrder) :
    (∀ (walkLinks : Enumeration Nginx.IpAddr Nginx.NgxMetric Nginx.hashItemCnts)
        (walkStatistic : Enumeration Nginx.NgxStatisticKey Nginx.NgxStatistic Nginx.statisticMaxEntries)
        (map : Nginx.LinkMap) (fuel : Nat), map.lookup {} = none →
      (∀ entry ∈ map.entries, Nginx.statisticKey entry.2 ≠ {}) → map.entries.length < fuel →
        ∃ result, Nginx.cycle host walkLinks walkStatistic fuel map = some result ∧
          Exact map Nginx.NgxMetric.isFinish (fun entry => Nginx.statisticKey entry.2) (fun v => v.linkCount.toNat)
            (Nginx.statisticLine host) result) ∧
    (∀ (walkLinks : Enumeration Haproxy.LinkKey Haproxy.LinkValue Haproxy.linkMaxEntries)
        (walkCollect : Enumeration Haproxy.CollectKey Haproxy.CollectValue Haproxy.metricEntries)
        (map : Haproxy.LinkMap) (fuel : Nat), map.lookup {} = none →
      (∀ entry ∈ map.entries, Haproxy.collectKey entry.1 ≠ {}) →
      (map.entries.map fun entry => Haproxy.collectKey entry.1).dedup.length ≤ Haproxy.metricEntries →
      map.entries.length < fuel →
        ∃ result, Haproxy.cycle host walkLinks walkCollect fuel map = some result ∧
          Exact map Haproxy.isClosed (fun entry => Haproxy.collectKey entry.1) (fun v => v.linkCount.toNat)
            (Haproxy.collectLine host) result) ∧
    ∀ (walkLinks : Enumeration Lvs.LinkKey Lvs.LinkValue Lvs.ipvsMaxEntries)
        (walkCollect : Enumeration Ipvs.CollectKey Ipvs.CollectValue Lvs.ipvsMaxEntries)
        (map : Ipvs.LinkMap) (fuel : Nat), map.lookup {} = none →
      (∀ entry ∈ map.entries, Ipvs.collectKey entry.1 entry.2.lAddr ≠ {}) → map.entries.length < fuel →
        ∃ result, Ipvs.cycle host walkLinks walkCollect fuel map = some result ∧
          Exact map Ipvs.isClosed (fun entry => Ipvs.collectKey entry.1 entry.2.lAddr) (fun v => v.linkCount.toNat)
            (Ipvs.collectLine host) result := by
  refine ⟨?_, ?_, ?_⟩
  · intro walkLinks walkStatistic map fuel outside apart enough
    exact Nginx.cycle_counts host walkLinks walkStatistic outside apart enough
  · intro walkLinks walkCollect map fuel outside apart room enough
    exact Haproxy.cycle_counts host walkLinks walkCollect outside apart room enough
  · intro walkLinks walkCollect map fuel outside apart enough
    exact Ipvs.cycle_counts host walkLinks walkCollect outside apart enough

def ngxMetric (port : UInt16) (isFinish : Bool) : Nginx.NgxMetric where
  srcIp := { port, family := 2 }
  ngxIp := {}
  dstIpStr := .replicate inet6Addrstrlen 0
  isL7 := true
  isFinish := isFinish

def nginxLinks : Nginx.LinkMap where
  entries := [({ port := 1 }, ngxMetric 1 true), ({ port := 2 }, ngxMetric 2 false)]
  distinct := by decide
  fits := by decide

def haproxyLinks : Haproxy.LinkMap where
  entries :=
    [({ cPort := 1, sPort := 80 }, { pid := 7, family := 2, state := 10, type := 0 }),
      ({ cPort := 2, sPort := 80 }, { pid := 7, family := 2, state := 8, type := 0 })]
  distinct := by decide
  fits := by decide

def ipvsLinks : Ipvs.LinkMap where
  entries := [({ cPort := 1, sPort := 80, family := 2 }, { state := 6 }), ({ cPort := 2, sPort := 80, family := 2 }, {})]
  distinct := by decide
  fits := by decide

theorem links_counted_two :
    (∃ result, Nginx.cycle .little .stored .stored 3 nginxLinks = some result ∧
      Exact nginxLinks Nginx.NgxMetric.isFinish (fun entry => Nginx.statisticKey entry.2)
        (fun v => v.linkCount.toNat) (Nginx.statisticLine .little) result) ∧
    (∃ result, Haproxy.cycle .little .stored .stored 3 haproxyLinks = some result ∧
      Exact haproxyLinks Haproxy.isClosed (fun entry => Haproxy.collectKey entry.1) (fun v => v.linkCount.toNat)
        (Haproxy.collectLine .little) result) ∧
    ∃ result, Ipvs.cycle .little .stored .stored 3 ipvsLinks = some result ∧
      Exact ipvsLinks Ipvs.isClosed (fun entry => Ipvs.collectKey entry.1 entry.2.lAddr)
        (fun v => v.linkCount.toNat) (Ipvs.collectLine .little) result := by
  have counted := links_counted .little
  refine ⟨?_, ?_, ?_⟩
  · exact counted.1 .stored .stored nginxLinks 3 (by decide) (by decide) (by decide)
  · exact counted.2.1 .stored .stored haproxyLinks 3 (by decide) (by decide) (by decide) (by decide)
  · exact counted.2.2 .stored .stored ipvsLinks 3 (by decide) (by decide) (by decide)

end GalaGopher.Ebpf.LoadBalancer

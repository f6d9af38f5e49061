import GalaGopher.Ebpf.Container

namespace GalaGopher.Ebpf.Container

open Data Text

/-! The container of a process, and the number of its cgroup, by its
namespaces. -/

/-- The numbers that `get_container_id_by_pid` looks for. -/
structure Numbers where
  cgroup : UInt32
  mntns : UInt32
  netns : UInt32

def pidNumbers (results : Results) (pid : UInt32) : Numbers where
  cgroup := getPidNamespace (results (.cgroup pid))
  mntns := getPidNamespace (results (.mntns pid))
  netns := getPidNamespace (results (.netns pid))

def Numbers.sharedWith (numbers : Numbers) (p : ContainerInfo) : Bool :=
  (numbers.mntns > 0 && p.mntns == numbers.mntns) || (numbers.cgroup > 0 && p.cgroup == numbers.cgroup) ||
    (numbers.netns > 0 && p.netns == numbers.netns)

def getContainerIdByPid (cstbl : List ContainerInfo) (results : Results) (pid : UInt32) : Option Bytes :=
  (cstbl.find? (pidNumbers results pid).sharedWith).map fun p => p.abbrContainerId.text

/-- The number goes through an `int`. -/
def getCgroupIdBypid (results : Results) (pid : UInt32) : Option UInt32 :=
  let cgpId := (getPidNamespace (results (.cgroup pid))).toInt32
  if cgpId > 0 then some cgpId.toUInt32 else none

inductive NamespaceLine where
  /-- There is no such process. -/
  | gone
  /-- The link is listed without its target. -/
  | unread
  | number (inum : UInt32)

def NamespaceLine.text : NamespaceLine → Option Bytes
  | gone => none
  | unread => some []
  | number inum => some (ascii (toString inum.toNat))

structure Namespaces where
  cgroup : NamespaceLine
  mntns : NamespaceLine
  netns : NamespaceLine

/-- The commands print these lines of the process. -/
structure Prints (results : Results) (pid : UInt32) (lines : Namespaces) : Prop where
  cgroup : results (.cgroup pid) = lines.cgroup.text
  mntns : results (.mntns pid) = lines.mntns.text
  netns : results (.netns pid) = lines.netns.text

theorem getPidNamespace_number (inum : UInt32) : getPidNamespace (NamespaceLine.number inum).text = inum := by
  have small : inum.toNat ≤ ulongMax := Nat.le_trans (Nat.le_of_lt inum.toNat_lt) (by decide)
  rw [NamespaceLine.text, getPidNamespace, strtoul_printed small, UInt32.ofNat_toNat]

variable {cstbl before behind : List ContainerInfo} {results : Results} {pid inum : UInt32} {p : ContainerInfo}
  {lines : Namespaces}

/-- No two containers of the table have the same id. -/
def DistinctIds (cstbl : List ContainerInfo) : Prop :=
  cstbl.Pairwise fun p q => p.abbrContainerId.text ≠ q.abbrContainerId.text

/-- The entry is of a running container that has the mount namespace of the
process. -/
structure Houses (lines : Namespaces) (inum : UInt32) (p : ContainerInfo) : Prop where
  running : p.status = .running
  mounted : lines.mntns = .number inum
  positive : 0 < inum
  own : p.mntns = inum

theorem Houses.shared (houses : Houses lines inum p) (prints : Prints results pid lines) :
    (pidNumbers results pid).sharedWith p := by
  have found : (pidNumbers results pid).mntns = inum := by
    simp only [pidNumbers]
    rw [prints.mntns, houses.mounted, getPidNamespace_number]
  have positive := houses.positive
  simp [Numbers.sharedWith, found, houses.own, positive]

/-- The first container that shares a namespace is found. -/
theorem getContainerIdByPid_own_iff (distinct : DistinctIds (before ++ p :: behind))
    (shared : (pidNumbers results pid).sharedWith p) :
    getContainerIdByPid (before ++ p :: behind) results pid = some p.abbrContainerId.text ↔
      ∀ q ∈ before, ¬(pidNumbers results pid).sharedWith q := by
  have apart := (List.pairwise_append.mp distinct).2.2
  rw [getContainerIdByPid, List.find?_append, List.find?_cons_of_pos shared]
  cases first : before.find? (pidNumbers results pid).sharedWith with
  | none =>
      rw [List.find?_eq_none] at first
      exact iff_of_true rfl first
  | some q =>
      have member := List.mem_of_find?_eq_some first
      refine iff_of_false (fun same => ?_) fun none => none q member (List.find?_some first)
      rw [Option.some_or, Option.map_some, Option.some.injEq] at same
      exact apart q member p List.mem_cons_self same

theorem getContainerIdByPid_eq_none_iff (cstbl : List ContainerInfo) (results : Results) (pid : UInt32) :
    getContainerIdByPid cstbl results pid = none ↔ ∀ p ∈ cstbl, ¬(pidNumbers results pid).sharedWith p := by
  rw [getContainerIdByPid, Option.map_eq_none_iff, List.find?_eq_none]

theorem getCgroupIdBypid_number (printed : results (.cgroup pid) = (NamespaceLine.number inum).text) :
    getCgroupIdBypid results pid = if 0 < inum.toNat ∧ inum.toNat < 2 ^ 31 then some inum else none := by
  have sign : inum.toInt32 > 0 ↔ 0 < inum.toNat ∧ inum.toNat < 2 ^ 31 := by
    have bound := inum.toNat_lt
    have value : inum.toInt32.toInt = (inum.toNat : Int).bmod (2 ^ 32) := BitVec.toInt_eq_toNat_bmod inum.toBitVec
    rw [gt_iff_lt, Int32.lt_iff_toInt_lt, value, Int.bmod_def]
    have zero : (0 : Int32).toInt = 0 := rfl
    rw [zero]
    omega
  simp only [getCgroupIdBypid]
  rw [printed, getPidNamespace_number]
  by_cases small : 0 < inum.toNat ∧ inum.toNat < 2 ^ 31
  · rw [if_pos (sign.mpr small), if_pos small, UInt32.toUInt32_toInt32]
  · rw [if_neg (mt sign.mp small), if_neg small]

theorem getCgroupIdBypid_unnumbered {line : NamespaceLine} (printed : results (.cgroup pid) = line.text)
    (unnumbered : ∀ inum, line ≠ .number inum) : getCgroupIdBypid results pid = none := by
  rw [getCgroupIdBypid, printed]
  cases line with
  | gone => decide
  | unread => decide
  | number inum => exact absurd rfl (unnumbered inum)

/-- A process is in the container with its mount namespace, and in none once it
is gone, and its cgroup has the number printed. -/
structure MapsOwn (cstbl : List ContainerInfo) (results : Results) (pid : UInt32) (lines : Namespaces) : Prop where
  housed : ∀ p ∈ cstbl, ∀ inum, Houses lines inum p →
    getContainerIdByPid cstbl results pid = some p.abbrContainerId.text
  gone : lines.mntns = .gone → getContainerIdByPid cstbl results pid = none
  cgroup : ∀ inum, 0 < inum → lines.cgroup = .number inum → getCgroupIdBypid results pid = some inum
  uncounted : (∀ inum, 0 < inum → lines.cgroup ≠ .number inum) → getCgroupIdBypid results pid = none

/-- No container that is tried first shares a namespace, nor does any hold what
a failed lookup returns, and the cgroup's number is that of an `int`. -/
structure Unshared (cstbl : List ContainerInfo) (results : Results) (pid : UInt32) (lines : Namespaces) : Prop where
  first : ∀ before p behind, cstbl = before ++ p :: behind → ∀ inum, Houses lines inum p →
    ∀ q ∈ before, ¬(pidNumbers results pid).sharedWith q
  failed : lines.mntns = .gone → ∀ p ∈ cstbl, ¬(pidNumbers results pid).sharedWith p
  small : ∀ inum, lines.cgroup = .number inum → inum.toNat < 2 ^ 31

theorem maps_own_iff (distinct : DistinctIds cstbl) (prints : Prints results pid lines) :
    MapsOwn cstbl results pid lines ↔ Unshared cstbl results pid lines := by
  constructor
  · intro maps
    refine ⟨?_, ?_, ?_⟩
    · rintro before p behind rfl inum houses
      exact (getContainerIdByPid_own_iff distinct (houses.shared prints)).mp
        (maps.housed p (List.mem_append_right _ List.mem_cons_self) inum houses)
    · intro gone
      exact (getContainerIdByPid_eq_none_iff _ _ _).mp (maps.gone gone)
    · intro inum printed
      by_contra large
      have positive : 0 < inum := by
        rw [UInt32.lt_iff_toNat_lt]
        exact Nat.lt_of_lt_of_le (by decide) (Nat.le_of_not_lt large)
      have found := maps.cgroup inum positive printed
      rw [getCgroupIdBypid_number (prints.cgroup.trans (congrArg _ printed)), if_neg fun both => large both.2] at found
      cases found
  · intro unshared
    refine ⟨?_, ?_, ?_, ?_⟩
    · intro p member inum houses
      obtain ⟨before, behind, rfl⟩ := List.append_of_mem member
      exact (getContainerIdByPid_own_iff distinct (houses.shared prints)).mpr
        (unshared.first before p behind rfl inum houses)
    · intro gone
      exact (getContainerIdByPid_eq_none_iff _ _ _).mpr (unshared.failed gone)
    · intro inum positive printed
      rw [getCgroupIdBypid_number (prints.cgroup.trans (congrArg _ printed)),
        if_pos ⟨UInt32.lt_iff_toNat_lt.mp positive, unshared.small inum printed⟩]
    · intro unnumbered
      cases printed : lines.cgroup with
      | gone => exact getCgroupIdBypid_unnumbered (prints.cgroup.trans (congrArg _ printed)) nofun
      | unread => exact getCgroupIdBypid_unnumbered (prints.cgroup.trans (congrArg _ printed)) nofun
      | number inum =>
          rw [getCgroupIdBypid_number (prints.cgroup.trans (congrArg _ printed)), if_neg]
          rintro ⟨positive, _⟩
          exact unnumbered inum (UInt32.lt_iff_toNat_lt.mpr positive) printed

def inPod (id : String) (mntns : UInt32) : ContainerInfo where
  pid := mntns - 4026532500
  netns := 4026532480
  mntns := mntns
  cgroup := 4026531835
  abbrContainerId := .ofText _ (ascii id)

def pod : List ContainerInfo := [inPod "3f4a" 4026532501, inPod "92a7" 4026532502]

def linesOf (cgroup mntns netns : NamespaceLine) : Results
  | .cgroup _ => cgroup.text
  | .mntns _ => mntns.text
  | .netns _ => netns.text
  | _ => none

theorem prints_linesOf (pid : UInt32) (cgroup mntns netns : NamespaceLine) :
    Prints (linesOf cgroup mntns netns) pid ⟨cgroup, mntns, netns⟩ := ⟨rfl, rfl, rfl⟩

theorem distinctIds_pod : DistinctIds pod := by
  unfold DistinctIds pod
  simp only [List.pairwise_cons, List.mem_singleton, forall_eq, List.not_mem_nil, false_imp_iff, implies_true,
    List.Pairwise.nil, and_true]
  decide

theorem maps_own_first :
    MapsOwn pod (linesOf .unread (.number 4026532501) .gone) 7 ⟨.unread, .number 4026532501, .gone⟩ ↔
      Unshared pod (linesOf .unread (.number 4026532501) .gone) 7 ⟨.unread, .number 4026532501, .gone⟩ :=
  maps_own_iff distinctIds_pod (prints_linesOf _ _ _ _)

/-- The second container of a pod has its processes given to the first, and the
number of their cgroup is taken for a failure. -/
theorem pod_shares_first :
    let results := linesOf (.number 4026531835) (.number 4026532502) (.number 4026532480)
    getContainerIdByPid pod results 2 = some (ascii "3f4a") ∧ getCgroupIdBypid results 2 = none ∧
      ¬MapsOwn pod results 2 ⟨.number 4026531835, .number 4026532502, .number 4026532480⟩ := by
  have first : getContainerIdByPid pod (linesOf (.number 4026531835) (.number 4026532502) (.number 4026532480)) 2 =
      some (ascii "3f4a") := by decide +kernel
  refine ⟨first, by decide +kernel, fun maps => ?_⟩
  have own := maps.housed (inPod "92a7" 4026532502) (by simp [pod]) 4026532502 ⟨rfl, rfl, by decide, rfl⟩
  rw [first] at own
  exact absurd own (by decide)

end GalaGopher.Ebpf.Container

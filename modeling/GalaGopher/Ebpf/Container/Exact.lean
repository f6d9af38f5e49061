import GalaGopher.Ebpf.Container.Kept

namespace GalaGopher.Ebpf.Container

open Data Text

variable {answers : Answers} {results : Results} {table front rest : List ContainerInfo} {p : ContainerInfo}

def withPid (results : Results) (p : ContainerInfo) : ContainerInfo := { p with pid := ownPid results p }

def withId (results : Results) (p : ContainerInfo) : ContainerInfo :=
  { withPid results p with containerId := ownId results p }

def withStatus (results : Results) (p : ContainerInfo) : ContainerInfo := { withId results p with status := .running }

def withComm (results : Results) (p : ContainerInfo) : ContainerInfo :=
  { withStatus results p with comm := ownComm results p }

def withNetns (results : Results) (p : ContainerInfo) : ContainerInfo :=
  { withComm results p with netns := ownNumber .netns results p }

def withCgroup (results : Results) (p : ContainerInfo) : ContainerInfo :=
  { withNetns results p with cgroup := ownNumber .cgroup results p }

def withMntns (results : Results) (p : ContainerInfo) : ContainerInfo :=
  { withCgroup results p with mntns := ownNumber .mntns results p }

def withPod (results : Results) (p : ContainerInfo) : ContainerInfo :=
  { withMntns results p with pod := ownPod results p }

theorem own_withPod (results : Results) (p : ContainerInfo) : Own results p (withPod results p) :=
  ⟨rfl, rfl, rfl, rfl, rfl, rfl, rfl, rfl⟩

theorem visit_withPid (known : (results (.pid p.abbrContainerId.text)).isSome) :
    visitPid results p = some (withPid results p) := by
  obtain ⟨line, answer⟩ := Option.isSome_iff_exists.mp known
  rw [visitPid, answered, answer, withPid, ownPid, answer]
  rfl

theorem visit_withId (known : (results (.fullId p.abbrContainerId.text)).isSome) :
    visitId results (withPid results p) = some (withId results p) := by
  obtain ⟨line, answer⟩ := Option.isSome_iff_exists.mp known
  have asked : results (.fullId (withPid results p).abbrContainerId.text) = some line := answer
  rw [visitId, answered, asked, withId, ownId, answer]
  rfl

theorem visit_withStatus (running : Running results p) :
    visitStatus results (withId results p) = some (withStatus results p) := by
  obtain ⟨line, answer, status⟩ := Option.map_eq_some_iff.mp running
  have asked : results (.status (withId results p).abbrContainerId.text) = some line := answer
  rw [visitStatus, answered, asked, Option.map_some, status]
  rfl

theorem visit_withComm (known : (results (.comm (ownPid results p))).isSome) :
    visitComm results (withStatus results p) = some (withComm results p) := by
  obtain ⟨line, answer⟩ := Option.isSome_iff_exists.mp known
  have asked : results (.comm (withStatus results p).pid) = some line := answer
  rw [visitComm, ifRunning_eq rfl, answered, asked, withComm, ownComm, answer]
  rfl

theorem visit_withPod (known : (results (.pod p.abbrContainerId.text)).isSome) :
    visitPod results (withMntns results p) = some (withPod results p) := by
  obtain ⟨line, answer⟩ := Option.isSome_iff_exists.mp known
  have asked : results (.pod (withMntns results p).abbrContainerId.text) = some line := answer
  rw [visitPod, ifRunning_eq rfl, answered, asked, withPod, ownPod, answer]
  rfl

/-- The number that is answered, or 0, which is there already. -/
theorem namespaced_store {query : UInt32 → Query} {store : ContainerInfo → UInt32 → ContainerInfo} {entry : ContainerInfo}
    (known : (results (query (ownPid results p))).isSome) (pid : entry.pid = ownPid results p)
    (unread : store entry 0 = entry) :
    namespaced query store results entry = some (store entry (ownNumber query results p)) := by
  obtain ⟨line, answer⟩ := Option.isSome_iff_exists.mp known
  rw [namespaced, pid, ownNumber, answer, getPidNamespace, Option.map_some, Option.getD_some]
  split
  case isTrue => rfl
  case isFalse none =>
    rw [UInt32.le_zero_iff.mp (UInt32.not_lt.mp none), unread]

theorem visit_withNetns (unread : p.netns = 0) (known : (results (.netns (ownPid results p))).isSome) :
    visitNetns results (withComm results p) = some (withNetns results p) := by
  rw [visitNetns, ifRunning_eq rfl]
  exact namespaced_store known rfl (by rw [← unread]; rfl)

theorem visit_withCgroup (unread : p.cgroup = 0) (known : (results (.cgroup (ownPid results p))).isSome) :
    visitCgroup results (withNetns results p) = some (withCgroup results p) := by
  rw [visitCgroup, ifRunning_eq rfl]
  exact namespaced_store known rfl (by rw [← unread]; rfl)

theorem visit_withMntns (unread : p.mntns = 0) (known : (results (.mntns (ownPid results p))).isSome) :
    visitMntns results (withCgroup results p) = some (withMntns results p) := by
  rw [visitMntns, ifRunning_eq rfl]
  exact namespaced_store known rfl (by rw [← unread]; rfl)

theorem attributes_steady (fresh : Fresh (front ++ rest))
    (running : ∀ (turn : Nat) p, front[turn]? = some p → Running (answers turn) p)
    (known : ∀ (turn : Nat) p, front[turn]? = some p → AllAnswered (answers turn) p) :
    ∀ (turn : Nat) p, front[turn]? = some p →
      (getAttributes answers (front ++ rest))[turn]? = some (withPod (answers turn) p) := by
  have unread : ∀ (turn : Nat) p, front[turn]? = some p → Unread p :=
    fun turn p inFront => fresh.unread (front_lookup rest inFront)
  have pids := pass_subjects (fun turn => visitPid (answers turn)) (fun _ p => p) (fun turn => withPid (answers turn))
    (fun _ _ inFront => front_lookup rest inFront) fun turn p inFront => visit_withPid (known turn p inFront).pid
  have ids := pass_subjects (fun turn => visitId (answers turn)) (fun turn => withPid (answers turn))
    (fun turn => withId (answers turn)) pids fun turn p inFront => visit_withId (known turn p inFront).fullId
  have statuses := pass_subjects (fun turn => visitStatus (answers turn)) (fun turn => withId (answers turn))
    (fun turn => withStatus (answers turn)) ids fun turn p inFront => visit_withStatus (running turn p inFront)
  have comms := pass_subjects (fun turn => visitComm (answers turn)) (fun turn => withStatus (answers turn))
    (fun turn => withComm (answers turn)) statuses fun turn p inFront => visit_withComm (known turn p inFront).comm
  have netns := pass_subjects (fun turn => visitNetns (answers turn)) (fun turn => withComm (answers turn))
    (fun turn => withNetns (answers turn)) comms fun turn p inFront =>
      visit_withNetns (unread turn p inFront).netns (known turn p inFront).netns
  have cgroups := pass_subjects (fun turn => visitCgroup (answers turn)) (fun turn => withNetns (answers turn))
    (fun turn => withCgroup (answers turn)) netns fun turn p inFront =>
      visit_withCgroup (unread turn p inFront).cgroup (known turn p inFront).cgroup
  have mntns := pass_subjects (fun turn => visitMntns (answers turn)) (fun turn => withCgroup (answers turn))
    (fun turn => withMntns (answers turn)) cgroups fun turn p inFront =>
      visit_withMntns (unread turn p inFront).mntns (known turn p inFront).mntns
  exact pass_subjects (fun turn => visitPod (answers turn)) (fun turn => withMntns (answers turn))
    (fun turn => withPod (answers turn)) mntns fun turn p inFront => visit_withPod (known turn p inFront).pod

theorem newTable_fresh {counted listed : Option (List Bytes)} (made : newTable counted listed = some table) :
    Fresh table := by
  rw [newTable] at made
  split at made
  case isTrue => cases made
  case isFalse =>
    cases listed with
    | none => cases made
    | some lines =>
        rw [getContainersId] at made
        split at made
        case isTrue => cases made
        case isFalse =>
          cases made
          intro p member
          obtain ⟨line, _, rfl⟩ := List.mem_map.mp member
          exact ⟨line, rfl⟩

/-- The containers that run are in front. -/
theorem Leading.inFront (leading : Leading answers front rest) {place : Nat} (found : (front ++ rest)[place]? = some p)
    (running : Running (answers place) p) : front[place]? = some p := by
  by_cases inside : place < front.length
  · rwa [List.getElem?_append_left inside] at found
  · rw [List.getElem?_append_right (Nat.le_of_not_lt inside)] at found
    have stopped := leading.others (place - front.length) p found
    rw [Nat.add_sub_cancel' (Nat.le_of_not_lt inside)] at stopped
    exact absurd running stopped

theorem Own.item {entry : ContainerInfo} (own : Own results p entry) : entry.item = ownItem results p := by
  rw [ContainerInfo.item, ownItem, own.containerId, own.pid, own.cgroup]

theorem Leading.kept (leading : Leading answers front rest)
    (own : ∀ (turn : Nat) p q, front[turn]? = some p → (getAttributes answers (front ++ rest))[turn]? = some q →
      Own (answers turn) p q) : Kept answers (front ++ rest) (getAttributes answers (front ++ rest)) where
  own := by
    intro place p found running
    have inFront := leading.inFront found running
    obtain ⟨inside, _⟩ := List.getElem?_eq_some_iff.mp found
    rw [← length_attributes answers] at inside
    have there := List.getElem?_eq_getElem inside
    exact ⟨_, there, own place p _ inFront there⟩
  added := by
    intro head
    rw [updateCurrentContainersInfo, added_eq leading fun turn p q inFront found => (own turn p q inFront found).item]

theorem Steady.kept (fresh : Fresh table) (steady : Steady answers table) :
    Kept answers table (getAttributes answers table) := by
  obtain ⟨front, rest, rfl, leading, known⟩ := steady
  refine leading.kept fun turn p q inFront found => ?_
  cases found.symm.trans (attributes_steady fresh leading.running known turn p inFront)
  exact own_withPod (answers turn) p

theorem exists_leading {α : Type} (test : α → Prop) [DecidablePred test] (entries : List α) :
    ∃ front rest, entries = front ++ rest ∧ (∀ entry ∈ front, test entry) ∧
      ∀ entry, rest.head? = some entry → ¬test entry := by
  induction entries with
  | nil => exact ⟨[], [], rfl, fun _ member => absurd member List.not_mem_nil, fun _ none => by cases none⟩
  | cons entry entries ih =>
      obtain ⟨front, rest, split, before, stop⟩ := ih
      by_cases passes : test entry
      · refine ⟨entry :: front, rest, by rw [split, List.cons_append], fun other member => ?_, stop⟩
        rcases List.mem_cons.mp member with same | later
        · rw [same]
          exact passes
        · exact before other later
      · refine ⟨[], entry :: entries, rfl, fun _ member => absurd member List.not_mem_nil, fun other first => ?_⟩
        cases first
        exact passes

theorem kept_iff (fresh : Fresh table) :
    Kept (fun _ => results) table (getAttributes (fun _ => results) table) ↔ InStep results table := by
  constructor
  · intro kept
    obtain ⟨front, rest, split, allRun, stopped⟩ := exists_leading (Running results) table
    rw [split] at fresh kept
    have running : ∀ (turn : Nat) p, front[turn]? = some p → Running results p :=
      fun _ p found => allRun p (List.mem_of_getElem? found)
    have added := kept.added []
    rw [updateCurrentContainersInfo, List.nil_append, List.nil_append] at added
    have leading := leading_of_added fresh running stopped added
    refine ⟨front, rest, split, leading, (own_iff fresh running).mp fun place p q inFront found => ?_⟩
    obtain ⟨other, there, own⟩ := kept.own place p (front_lookup rest inFront) (running place p inFront)
    cases found.symm.trans there
    exact own
  · rintro ⟨front, rest, rfl, leading, unbroken⟩
    exact leading.kept ((own_iff fresh leading.running).mpr unbroken)

/-- The table is read, and its attributes are kept. -/
def AllKept (counted listed : Option (List Bytes)) (answers : Answers) (table : List ContainerInfo) : Prop :=
  ∃ cstbl, getAllContainer counted listed answers = some cstbl ∧ Kept answers table cstbl

variable {counted listed : Option (List Bytes)}

theorem allKept_iff (made : newTable counted listed = some table) :
    AllKept counted listed answers table ↔ Kept answers table (getAttributes answers table) := by
  rw [AllKept, getAllContainer, made, Option.map_some]
  constructor
  · rintro ⟨cstbl, read, kept⟩
    cases read
    exact kept
  · exact fun kept => ⟨_, rfl, kept⟩

/-- Attributes stay with their containers while every query in front is answered,
whatever the commands print at each turn; and where they print the same at every
turn, exactly where nothing holds a pass back before a container that runs. -/
theorem containers_kept (made : newTable counted listed = some table) :
    (∀ answers, Steady answers table → AllKept counted listed answers table) ∧
      ∀ results, AllKept counted listed (fun _ => results) table ↔ InStep results table := by
  constructor
  · intro answers steady
    exact (allKept_iff made).mpr (steady.kept (newTable_fresh made))
  · intro results
    rw [allKept_iff made, kept_iff (newTable_fresh made)]

theorem containers_kept_three :
    (∀ answers, Steady answers [newContainer [97], newContainer [98], newContainer [99]] →
        AllKept (some [[97], [98], [99]]) (some [[97], [98], [99]]) answers
          [newContainer [97], newContainer [98], newContainer [99]]) ∧
      ∀ results, AllKept (some [[97], [98], [99]]) (some [[97], [98], [99]]) (fun _ => results)
          [newContainer [97], newContainer [98], newContainer [99]] ↔
        InStep results [newContainer [97], newContainer [98], newContainer [99]] := by
  have made : newTable (some [[97], [98], [99]]) (some [[97], [98], [99]]) =
      some [newContainer [97], newContainer [98], newContainer [99]] := rfl
  exact containers_kept made

/-- The container "a" has exited, and "b" runs. -/
def exitedFirst : Results
  | .status id => if id = [97] then some (ascii "exited") else some dockerStatsRunning
  | _ => some [55]

theorem exited_stopped : ¬Running exitedFirst (newContainer [97]) := by
  intro running
  have status : containersStatus (ascii "exited") = .running := Option.some.inj running
  have absent : ¬(strstr (ascii "exited") dockerStatsRunning).isSome := by
    rw [strstr_isSome_iff]
    intro inside
    have longer : 7 ≤ 6 := inside.length_le
    exact absurd longer (by decide)
  rw [containersStatus, if_neg absent] at status
  split at status <;> cases status

theorem running_second : Running exitedFirst (newContainer [98]) := by
  have present : (strstr dockerStatsRunning dockerStatsRunning).isSome := by
    rw [strstr_isSome_iff]
  exact congrArg some (if_pos present)

/-- The loops stay at the container that has exited, and the one that runs is
neither read nor added. -/
theorem running_container_lost :
    newTable (some [[97], [98]]) (some [[97], [98]]) = some [newContainer [97], newContainer [98]] ∧
      ¬AllKept (some [[97], [98]]) (some [[97], [98]]) (fun _ => exitedFirst) [newContainer [97], newContainer [98]] := by
  have made : newTable (some [[97], [98]]) (some [[97], [98]]) = some [newContainer [97], newContainer [98]] := rfl
  refine ⟨made, fun kept => ?_⟩
  obtain ⟨front, rest, split, leading, _⟩ := (kept_iff (newTable_fresh made)).mp ((allKept_iff made).mp kept)
  cases front with
  | nil =>
      cases split
      exact leading.others 1 _ rfl running_second
  | cons first front =>
      rw [← (List.cons.inj split).1] at leading
      exact exited_stopped (leading.running 0 _ rfl)

end GalaGopher.Ebpf.Container

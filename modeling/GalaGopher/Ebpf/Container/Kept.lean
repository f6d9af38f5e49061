import GalaGopher.Ebpf.Container.Added

namespace GalaGopher.Ebpf.Container

open Data Text

variable {answers : Answers} {results : Results} {table front rest : List ContainerInfo} {p q entry : ContainerInfo}
  {place turn : Nat}

/-- The attributes that the pass over the statuses finds unread. -/
structure Unread (p : ContainerInfo) : Prop where
  pid : p.pid = 0
  containerId : p.containerId = .ofText _ []
  status : p.status = .running
  comm : p.comm = .ofText _ []
  netns : p.netns = 0
  cgroup : p.cgroup = 0
  mntns : p.mntns = 0
  pod : p.pod = .ofText _ []

theorem Fresh.unread (fresh : Fresh table) (found : table[place]? = some p) : Unread p := by
  obtain ⟨id, rfl⟩ := fresh p (List.mem_of_getElem? found)
  exact ⟨rfl, rfl, rfl, rfl, rfl, rfl, rfl, rfl⟩

theorem isSome_answered {query : ContainerInfo → Query} {store : ContainerInfo → Bytes → ContainerInfo} :
    (answered query store results p).isSome ↔ (results (query p)).isSome := by
  rw [answered, Option.isSome_map]

theorem ifRunning_eq {visit : ContainerInfo → Option ContainerInfo} (running : entry.status = .running) :
    ifRunning visit entry = visit entry := if_pos running

/-- What is stored is the answer, or else what was there. -/
theorem field_answered {β : Type} (field : ContainerInfo → β) (read : Bytes → β) {query : ContainerInfo → Query}
    {store : ContainerInfo → Bytes → ContainerInfo} (stored : ∀ p line, field (store p line) = read line) :
    field ((answered query store results entry).getD entry) = ((results (query entry)).map read).getD (field entry) := by
  rw [answered]
  cases results (query entry) with
  | none => rfl
  | some line => exact stored entry line

/-- A query that fails leaves a number that is not the container's. -/
theorem namespaced_own {query : UInt32 → Query} {store : ContainerInfo → UInt32 → ContainerInfo}
    {field : ContainerInfo → UInt32} (stored : ∀ p number, field (store p number) = number)
    (pid : entry.pid = ownPid results p) (unread : field entry = 0) :
    ∃ written, namespaced query store results entry = some written ∧
      (field written = ownNumber query results p ↔ (results (query (ownPid results p))).isSome) := by
  refine ⟨_, rfl, ?_⟩
  rw [pid, ownNumber]
  cases results (query (ownPid results p)) with
  | none =>
      rw [getPidNamespace, if_pos (by decide), stored]
      decide
  | some line =>
      refine iff_of_true ?_ rfl
      rw [getPidNamespace, Option.map_some, Option.getD_some]
      split
      case isTrue => exact stored _ _
      case isFalse none =>
        rw [unread]
        exact (UInt32.le_zero_iff.mp (UInt32.not_lt.mp none)).symm

-- The tables on which the passes run, for queries that are answered alike at
-- every turn.

theorem pids_iff (fresh : Fresh (front ++ rest)) :
    (∀ (place : Nat) p q, front[place]? = some p → (pidTable (fun _ => results) (front ++ rest))[place]? = some q →
        q.pid = ownPid results p) ↔
      front.Pairwise fun earlier later =>
        ownPid results later ≠ 0 → (results (.pid earlier.abbrContainerId.text)).isSome := by
  refine column_iff (visitPid results) (·.pid) (ownPid results) 0 fun place p inFront => ?_
  have found := front_lookup rest inFront
  have unread := (fresh.unread found).pid
  refine ⟨p, found, isSome_answered, unread, ?_⟩
  rw [visitPid, field_answered (·.pid) (fun line => (atoi line).toUInt32) fun _ _ => rfl, unread, ownPid]

theorem ids_iff (fresh : Fresh (front ++ rest)) :
    (∀ (place : Nat) p q, front[place]? = some p → (idTable (fun _ => results) (front ++ rest))[place]? = some q →
        q.containerId = ownId results p) ↔
      front.Pairwise fun earlier later =>
        ownId results later ≠ .ofText _ [] → (results (.fullId earlier.abbrContainerId.text)).isSome := by
  refine column_iff (visitId results) (·.containerId) (ownId results) (.ofText _ []) fun place p inFront => ?_
  have found := front_lookup rest inFront
  have same : (pidTable (fun _ => results) (front ++ rest)).map (fun p => (p.abbrContainerId, p.containerId)) =
      (front ++ rest).map fun p => (p.abbrContainerId, p.containerId) := map_getContainersPid fun _ _ => rfl
  obtain ⟨entry, here, fields⟩ := lookup_of_map same found
  have abbr : entry.abbrContainerId = p.abbrContainerId := congrArg Prod.fst fields
  have unread : entry.containerId = .ofText _ [] := (congrArg Prod.snd fields).trans (fresh.unread found).containerId
  refine ⟨entry, here, ?_, unread, ?_⟩
  · rw [visitId, isSome_answered, abbr]
  · rw [visitId, field_answered (·.containerId) (.ofText _) fun _ _ => rfl, unread, abbr, ownId]

/-- The entry from which the passes after the statuses ask for the container. -/
structure Ready (results : Results) (p entry : ContainerInfo) : Prop where
  abbr : entry.abbrContainerId = p.abbrContainerId
  pid : entry.pid = ownPid results p
  status : entry.status = .running

def base (p : ContainerInfo) := (p.abbrContainerId, p.pid, p.status)

def AllReady {β : Type} (results : Results) (field : ContainerInfo → β) (initial : β)
    (front stage : List ContainerInfo) : Prop :=
  ∀ (place : Nat) p, front[place]? = some p →
    ∃ entry, stage[place]? = some entry ∧ Ready results p entry ∧ field entry = initial

theorem AllReady.of_map {β : Type} {field : ContainerInfo → β} {initial : β} {stage later : List ContainerInfo}
    (ready : AllReady results field initial front stage)
    (same : later.map (fun p => (base p, field p)) = stage.map fun p => (base p, field p)) :
    AllReady results field initial front later := by
  intro place p inFront
  obtain ⟨entry, here, ready, atFirst⟩ := ready place p inFront
  obtain ⟨other, there, fields⟩ := lookup_of_map same here
  have bases : base other = base entry := congrArg Prod.fst fields
  have abbr : other.abbrContainerId = entry.abbrContainerId := congrArg Prod.fst bases
  have pid : other.pid = entry.pid := congrArg (fun value => value.2.1) bases
  have status : other.status = entry.status := congrArg (fun value => value.2.2) bases
  exact ⟨other, there, ⟨abbr.trans ready.abbr, pid.trans ready.pid, status.trans ready.status⟩,
    (congrArg Prod.snd fields).trans atFirst⟩

theorem statusTable_unread {β : Type} {field : ContainerInfo → β}
    (kept : ∀ p pid containerId status,
      field { p with pid := pid, containerId := containerId, status := status } = field p)
    (answers : Answers) (table : List ContainerInfo) :
    (statusTable answers table).map (fun p => (p.abbrContainerId, field p)) =
      table.map fun p => (p.abbrContainerId, field p) := by
  refine (map_getContainersStatus fun p status => ?_).trans
    ((map_getContainersIds fun p containerId => ?_).trans (map_getContainersPid fun p pid => ?_))
  · exact congrArg (Prod.mk p.abbrContainerId) (kept p p.pid p.containerId status)
  · exact congrArg (Prod.mk p.abbrContainerId) (kept p p.pid containerId p.status)
  · exact congrArg (Prod.mk p.abbrContainerId) (kept p pid p.containerId p.status)

theorem statusTable_ready {β : Type} {field : ContainerInfo → β} {initial : β} (fresh : Fresh (front ++ rest))
    (running : ∀ (turn : Nat) p, front[turn]? = some p → Running results p)
    (pids : ∀ (place : Nat) p q, front[place]? = some p →
      (pidTable (fun _ => results) (front ++ rest))[place]? = some q → q.pid = ownPid results p)
    (kept : ∀ p pid containerId status,
      field { p with pid := pid, containerId := containerId, status := status } = field p)
    (unread : ∀ p, Unread p → field p = initial) :
    AllReady results field initial front (statusTable (fun _ => results) (front ++ rest)) := by
  intro place p inFront
  have found := front_lookup rest inFront
  obtain ⟨entry, here, fields⟩ := lookup_of_map (statusTable_unread kept _ _) found
  obtain ⟨other, there, status⟩ := statusTable_front rest running inFront
  cases here.symm.trans there
  have samePid : (pidTable (fun _ => results) (front ++ rest)).map (·.pid) =
      (statusTable (fun _ => results) (front ++ rest)).map (·.pid) := by
    rw [statusTable, map_getContainersStatus (fun _ _ => rfl), idTable, map_getContainersIds (fun _ _ => rfl)]
  obtain ⟨first, atPids, pid⟩ := lookup_of_map samePid here
  exact ⟨entry, here, ⟨congrArg Prod.fst fields, pid.symm.trans (pids place p first inFront atPids), status⟩,
    (congrArg Prod.snd fields).trans (unread p (fresh.unread found))⟩

theorem comms_iff (ready : AllReady results (·.comm) (.ofText _ []) front (statusTable (fun _ => results) table)) :
    (∀ (place : Nat) p q, front[place]? = some p → (commTable (fun _ => results) table)[place]? = some q →
        q.comm = ownComm results p) ↔
      front.Pairwise fun earlier later =>
        ownComm results later ≠ .ofText _ [] → (results (.comm (ownPid results earlier))).isSome := by
  refine column_iff (visitComm results) (·.comm) (ownComm results) (.ofText _ []) fun place p inFront => ?_
  obtain ⟨entry, here, ready, unread⟩ := ready place p inFront
  refine ⟨entry, here, ?_, unread, ?_⟩
  · rw [visitComm, ifRunning_eq ready.status, isSome_answered, ready.pid]
  · have none : entry.comm = .ofText _ [] := unread
    rw [visitComm, ifRunning_eq ready.status, field_answered (·.comm) (.ofText _) fun _ _ => rfl, none, ready.pid, ownComm]

theorem pods_iff (ready : AllReady results (·.pod) (.ofText _ []) front (mntnsTable (fun _ => results) table)) :
    (∀ (place : Nat) p q, front[place]? = some p → (getAttributes (fun _ => results) table)[place]? = some q →
        q.pod = ownPod results p) ↔
      front.Pairwise fun earlier later =>
        ownPod results later ≠ .ofText _ [] → (results (.pod earlier.abbrContainerId.text)).isSome := by
  refine column_iff (visitPod results) (·.pod) (ownPod results) (.ofText _ []) fun place p inFront => ?_
  obtain ⟨entry, here, ready, unread⟩ := ready place p inFront
  refine ⟨entry, here, ?_, unread, ?_⟩
  · rw [visitPod, ifRunning_eq ready.status, isSome_answered, ready.abbr]
  · have none : entry.pod = .ofText _ [] := unread
    rw [visitPod, ifRunning_eq ready.status, field_answered (·.pod) (.ofText _) fun _ _ => rfl, none, ready.abbr, ownPod]

/-- A pass over one namespace goes over all containers that run, and so it is
right where all are answered. -/
theorem numbers_iff {query : UInt32 → Query} {store : ContainerInfo → UInt32 → ContainerInfo}
    {field : ContainerInfo → UInt32} (stored : ∀ p number, field (store p number) = number)
    (ready : AllReady results field 0 front table) :
    (∀ (place : Nat) p q, front[place]? = some p →
        (pass (fun _ => ifRunning (namespaced query store results)) table)[place]? = some q →
        field q = ownNumber query results p) ↔
      ∀ p ∈ front, (results (query (ownPid results p))).isSome := by
  refine column_all_iff (ifRunning (namespaced query store results)) field (ownNumber query results)
    fun place p inFront => ?_
  obtain ⟨entry, here, ready, unread⟩ := ready place p inFront
  obtain ⟨written, visited, same⟩ := namespaced_own stored ready.pid unread
  exact ⟨entry, written, here, (ifRunning_eq ready.status).trans visited, same⟩

theorem column_congr {β : Type} {field : ContainerInfo → β} (front : List ContainerInfo) (own : ContainerInfo → β)
    {left right : List ContainerInfo} (same : left.map field = right.map field) :
    (∀ (place : Nat) p q, front[place]? = some p → left[place]? = some q → field q = own p) ↔
      ∀ (place : Nat) p q, front[place]? = some p → right[place]? = some q → field q = own p := by
  constructor
  · intro kept place p q inFront found
    obtain ⟨other, there, fields⟩ := lookup_of_map same found
    exact fields.symm.trans (kept place p other inFront there)
  · intro kept place p q inFront found
    obtain ⟨other, there, fields⟩ := lookup_of_map same.symm found
    exact fields.symm.trans (kept place p other inFront there)

theorem map_attributes_mntns (answers : Answers) (table : List ContainerInfo) :
    (getAttributes answers table).map (·.mntns) = (mntnsTable answers table).map (·.mntns) := by
  rw [getAttributes_eq, map_getContainersPod fun _ _ => rfl]

theorem map_attributes_cgroup (answers : Answers) (table : List ContainerInfo) :
    (getAttributes answers table).map (·.cgroup) = (cgroupTable answers table).map (·.cgroup) := by
  rw [getAttributes_eq, map_getContainersPod (fun _ _ => rfl), mntnsTable, map_getContainersMntns fun _ _ => rfl]

theorem map_attributes_netns (answers : Answers) (table : List ContainerInfo) :
    (getAttributes answers table).map (·.netns) = (netnsTable answers table).map (·.netns) := by
  rw [getAttributes_eq, map_getContainersPod (fun _ _ => rfl), mntnsTable, map_getContainersMntns (fun _ _ => rfl),
    cgroupTable, map_getContainersCgroup fun _ _ => rfl]

theorem map_attributes_comm (answers : Answers) (table : List ContainerInfo) :
    (getAttributes answers table).map (·.comm) = (commTable answers table).map (·.comm) := by
  rw [getAttributes_eq, map_getContainersPod (fun _ _ => rfl), mntnsTable, map_getContainersMntns (fun _ _ => rfl),
    cgroupTable, map_getContainersCgroup (fun _ _ => rfl), netnsTable, map_getContainersNetns fun _ _ => rfl]

theorem map_attributes_containerId (answers : Answers) (table : List ContainerInfo) :
    (getAttributes answers table).map (·.containerId) = (idTable answers table).map (·.containerId) := by
  rw [getAttributes_eq, map_getContainersPod (fun _ _ => rfl), mntnsTable, map_getContainersMntns (fun _ _ => rfl),
    cgroupTable, map_getContainersCgroup (fun _ _ => rfl), netnsTable, map_getContainersNetns (fun _ _ => rfl),
    commTable, map_getContainersComm (fun _ _ => rfl), statusTable, map_getContainersStatus fun _ _ => rfl]

theorem map_attributes_pid (answers : Answers) (table : List ContainerInfo) :
    (getAttributes answers table).map (·.pid) = (pidTable answers table).map (·.pid) := by
  rw [getAttributes_eq, map_getContainersPod (fun _ _ => rfl), mntnsTable, map_getContainersMntns (fun _ _ => rfl),
    cgroupTable, map_getContainersCgroup (fun _ _ => rfl), netnsTable, map_getContainersNetns (fun _ _ => rfl),
    commTable, map_getContainersComm (fun _ _ => rfl), statusTable, map_getContainersStatus (fun _ _ => rfl),
    idTable, map_getContainersIds fun _ _ => rfl]

section Behind

variable (fresh : Fresh (front ++ rest)) (running : ∀ (turn : Nat) p, front[turn]? = some p → Running results p)
  (pids : ∀ (place : Nat) p q, front[place]? = some p →
    (pidTable (fun _ => results) (front ++ rest))[place]? = some q → q.pid = ownPid results p)

include fresh running pids

theorem comm_column :
    (∀ (place : Nat) p q, front[place]? = some p →
        (getAttributes (fun _ => results) (front ++ rest))[place]? = some q → q.comm = ownComm results p) ↔
      front.Pairwise fun earlier later =>
        ownComm results later ≠ .ofText _ [] → (results (.comm (ownPid results earlier))).isSome :=
  (column_congr _ _ (map_attributes_comm _ _)).trans
    (comms_iff (statusTable_ready fresh running pids (fun _ _ _ _ => rfl) fun _ unread => unread.comm))

theorem netns_column :
    (∀ (place : Nat) p q, front[place]? = some p →
        (getAttributes (fun _ => results) (front ++ rest))[place]? = some q → q.netns = ownNumber .netns results p) ↔
      ∀ p ∈ front, (results (.netns (ownPid results p))).isSome := by
  have ready : AllReady results (·.netns) 0 front (statusTable (fun _ => results) (front ++ rest)) :=
    statusTable_ready fresh running pids (fun _ _ _ _ => rfl) fun _ unread => unread.netns
  have atPass : AllReady results (·.netns) 0 front (commTable (fun _ => results) (front ++ rest)) :=
    ready.of_map (by rw [commTable, map_getContainersComm fun _ _ => rfl])
  exact (column_congr _ _ (map_attributes_netns _ _)).trans (numbers_iff (fun _ _ => rfl) atPass)

theorem cgroup_column :
    (∀ (place : Nat) p q, front[place]? = some p →
        (getAttributes (fun _ => results) (front ++ rest))[place]? = some q → q.cgroup = ownNumber .cgroup results p) ↔
      ∀ p ∈ front, (results (.cgroup (ownPid results p))).isSome := by
  have ready : AllReady results (·.cgroup) 0 front (statusTable (fun _ => results) (front ++ rest)) :=
    statusTable_ready fresh running pids (fun _ _ _ _ => rfl) fun _ unread => unread.cgroup
  have atPass : AllReady results (·.cgroup) 0 front (netnsTable (fun _ => results) (front ++ rest)) :=
    ready.of_map (by
      rw [netnsTable, map_getContainersNetns (fun _ _ => rfl), commTable, map_getContainersComm fun _ _ => rfl])
  exact (column_congr _ _ (map_attributes_cgroup _ _)).trans (numbers_iff (fun _ _ => rfl) atPass)

theorem mntns_column :
    (∀ (place : Nat) p q, front[place]? = some p →
        (getAttributes (fun _ => results) (front ++ rest))[place]? = some q → q.mntns = ownNumber .mntns results p) ↔
      ∀ p ∈ front, (results (.mntns (ownPid results p))).isSome := by
  have ready : AllReady results (·.mntns) 0 front (statusTable (fun _ => results) (front ++ rest)) :=
    statusTable_ready fresh running pids (fun _ _ _ _ => rfl) fun _ unread => unread.mntns
  have atPass : AllReady results (·.mntns) 0 front (cgroupTable (fun _ => results) (front ++ rest)) :=
    ready.of_map (by
      rw [cgroupTable, map_getContainersCgroup (fun _ _ => rfl), netnsTable, map_getContainersNetns (fun _ _ => rfl),
        commTable, map_getContainersComm fun _ _ => rfl])
  exact (column_congr _ _ (map_attributes_mntns _ _)).trans (numbers_iff (fun _ _ => rfl) atPass)

theorem pod_column :
    (∀ (place : Nat) p q, front[place]? = some p →
        (getAttributes (fun _ => results) (front ++ rest))[place]? = some q → q.pod = ownPod results p) ↔
      front.Pairwise fun earlier later =>
        ownPod results later ≠ .ofText _ [] → (results (.pod earlier.abbrContainerId.text)).isSome := by
  have ready : AllReady results (·.pod) (.ofText _ []) front (statusTable (fun _ => results) (front ++ rest)) :=
    statusTable_ready fresh running pids (fun _ _ _ _ => rfl) fun _ unread => unread.pod
  have atPass : AllReady results (·.pod) (.ofText _ []) front (mntnsTable (fun _ => results) (front ++ rest)) :=
    ready.of_map (by
      rw [mntnsTable, map_getContainersMntns (fun _ _ => rfl), cgroupTable, map_getContainersCgroup (fun _ _ => rfl),
        netnsTable, map_getContainersNetns (fun _ _ => rfl), commTable, map_getContainersComm fun _ _ => rfl])
  exact pods_iff atPass

end Behind

/-- In a table whose first containers run, these have their own attributes if and
only if no failed query stands before one with something to tell. -/
theorem own_iff (fresh : Fresh (front ++ rest))
    (running : ∀ (turn : Nat) p, front[turn]? = some p → Running results p) :
    (∀ (place : Nat) p q, front[place]? = some p →
        (getAttributes (fun _ => results) (front ++ rest))[place]? = some q → Own results p q) ↔
      Unbroken results front := by
  have toPids := column_congr front (ownPid results) (map_attributes_pid (fun _ => results) (front ++ rest))
  constructor
  · intro own
    have pids := toPids.mp fun place p q inFront found => (own place p q inFront found).pid
    refine ⟨(pids_iff fresh).mp pids, ?_, ?_, ?_, fun p member => ⟨?_, ?_, ?_⟩⟩
    · refine (ids_iff fresh).mp ((column_congr _ _ (map_attributes_containerId _ _)).mp ?_)
      exact fun place p q inFront found => (own place p q inFront found).containerId
    · exact (comm_column fresh running pids).mp fun place p q inFront found => (own place p q inFront found).comm
    · exact (pod_column fresh running pids).mp fun place p q inFront found => (own place p q inFront found).pod
    · exact (netns_column fresh running pids).mp (fun place p q inFront found => (own place p q inFront found).netns) p member
    · exact (cgroup_column fresh running pids).mp (fun place p q inFront found => (own place p q inFront found).cgroup) p member
    · exact (mntns_column fresh running pids).mp (fun place p q inFront found => (own place p q inFront found).mntns) p member
  · intro unbroken place p q inFront found
    have pids := (pids_iff fresh).mpr unbroken.pid
    have ids := (column_congr _ _ (map_attributes_containerId _ _)).mpr ((ids_iff fresh).mpr unbroken.fullId)
    have namespaces := unbroken.namespaces
    obtain ⟨inside, _⟩ := List.getElem?_eq_some_iff.mp inFront
    exact {
      pid := toPids.mpr pids place p q inFront found
      containerId := ids place p q inFront found
      status := attributes_running running inside found
      comm := (comm_column fresh running pids).mpr unbroken.comm place p q inFront found
      netns := (netns_column fresh running pids).mpr (fun p member => (namespaces p member).netns) place p q inFront found
      cgroup := (cgroup_column fresh running pids).mpr (fun p member => (namespaces p member).cgroup) place p q inFront found
      mntns := (mntns_column fresh running pids).mpr (fun p member => (namespaces p member).mntns) place p q inFront found
      pod := (pod_column fresh running pids).mpr unbroken.pod place p q inFront found }

end GalaGopher.Ebpf.Container

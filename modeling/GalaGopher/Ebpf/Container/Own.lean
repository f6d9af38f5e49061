import GalaGopher.Ebpf.Container

namespace GalaGopher.Ebpf.Container

open Data Text

/-! Every container that runs has its own attributes, and is added, as long as
no container before it holds the loops back. -/

variable {answers : Answers} {results : Results} {table front rest : List ContainerInfo} {p q : ContainerInfo}
  {place : Nat}

def ownPid (results : Results) (p : ContainerInfo) : UInt32 :=
  ((results (.pid p.abbrContainerId.text)).map fun line => (atoi line).toUInt32).getD 0

def ownId (results : Results) (p : ContainerInfo) : CharArray (containerIdLen + 1) :=
  ((results (.fullId p.abbrContainerId.text)).map (.ofText _)).getD (.ofText _ [])

def Running (results : Results) (p : ContainerInfo) : Prop :=
  (results (.status p.abbrContainerId.text)).map containersStatus = some .running

instance : Decidable (Running results p) := inferInstanceAs (Decidable (_ = _))

def ownComm (results : Results) (p : ContainerInfo) : CharArray taskCommLen :=
  ((results (.comm (ownPid results p))).map (.ofText _)).getD (.ofText _ [])

def ownPod (results : Results) (p : ContainerInfo) : CharArray podNameLen :=
  ((results (.pod p.abbrContainerId.text)).map (.ofText _)).getD (.ofText _ [])

/-- A number of a namespace of the container's process. -/
def ownNumber (query : UInt32 → Query) (results : Results) (p : ContainerInfo) : UInt32 :=
  ((results (query (ownPid results p))).map fun line => UInt32.ofNat (strtoul line)).getD 0

/-- The entry `q` has the attributes of the container `p`. -/
structure Own (results : Results) (p q : ContainerInfo) : Prop where
  pid : q.pid = ownPid results p
  containerId : q.containerId = ownId results p
  status : q.status = .running
  comm : q.comm = ownComm results p
  netns : q.netns = ownNumber .netns results p
  cgroup : q.cgroup = ownNumber .cgroup results p
  mntns : q.mntns = ownNumber .mntns results p
  pod : q.pod = ownPod results p

def ownItem (results : Results) (p : ContainerInfo) : ContainerItem :=
  ⟨(ownId results p).text, ownPid results p, ownNumber .cgroup results p⟩

/-- The containers that run, each asked in its own turn. -/
def runningItems (answers : Answers) (table : List ContainerInfo) : List ContainerItem :=
  (table.zipIdx.filter fun entry => Running (answers entry.2) entry.1).map fun entry =>
    ownItem (answers entry.2) entry.1

/-- In what was read of the table, the containers that run have their own
attributes, and are those added. -/
structure Kept (answers : Answers) (table cstbl : List ContainerInfo) : Prop where
  own : ∀ (place : Nat) p, table[place]? = some p → Running (answers place) p →
    ∃ q, cstbl[place]? = some q ∧ Own (answers place) p q
  added : ∀ head, updateCurrentContainersInfo head (some cstbl) = head ++ runningItems answers table

/-- The containers that run stand in front, and it is known of the first other
one that it does not. -/
structure Leading (answers : Answers) (front rest : List ContainerInfo) : Prop where
  running : ∀ (turn : Nat) p, front[turn]? = some p → Running (answers turn) p
  others : ∀ (turn : Nat) p, rest[turn]? = some p → ¬Running (answers (front.length + turn)) p
  known : ∀ p, rest.head? = some p → (answers front.length (.status p.abbrContainerId.text)).isSome

structure NamespacesAnswered (results : Results) (p : ContainerInfo) : Prop where
  netns : (results (.netns (ownPid results p))).isSome
  cgroup : (results (.cgroup (ownPid results p))).isSome
  mntns : (results (.mntns (ownPid results p))).isSome

structure AllAnswered (results : Results) (p : ContainerInfo) : Prop extends NamespacesAnswered results p where
  pid : (results (.pid p.abbrContainerId.text)).isSome
  fullId : (results (.fullId p.abbrContainerId.text)).isSome
  comm : (results (.comm (ownPid results p))).isSome
  pod : (results (.pod p.abbrContainerId.text)).isSome

/-- The containers that run lead, and all their queries are answered. -/
def Steady (answers : Answers) (table : List ContainerInfo) : Prop :=
  ∃ front rest, table = front ++ rest ∧ Leading answers front rest ∧
    ∀ (turn : Nat) p, front[turn]? = some p → AllAnswered (answers turn) p

/-- No container with something to tell stands behind one whose query fails. -/
structure Unbroken (results : Results) (front : List ContainerInfo) : Prop where
  pid : front.Pairwise fun earlier later =>
    ownPid results later ≠ 0 → (results (.pid earlier.abbrContainerId.text)).isSome
  fullId : front.Pairwise fun earlier later =>
    ownId results later ≠ .ofText _ [] → (results (.fullId earlier.abbrContainerId.text)).isSome
  comm : front.Pairwise fun earlier later =>
    ownComm results later ≠ .ofText _ [] → (results (.comm (ownPid results earlier))).isSome
  pod : front.Pairwise fun earlier later =>
    ownPod results later ≠ .ofText _ [] → (results (.pod earlier.abbrContainerId.text)).isSome
  namespaces : ∀ p ∈ front, NamespacesAnswered results p

def InStep (results : Results) (table : List ContainerInfo) : Prop :=
  ∃ front rest, table = front ++ rest ∧ Leading (fun _ => results) front rest ∧ Unbroken results front

def pidTable (answers : Answers) (table : List ContainerInfo) := getContainersPid answers table
def idTable (answers : Answers) (table : List ContainerInfo) := getContainersIds answers (pidTable answers table)
def statusTable (answers : Answers) (table : List ContainerInfo) := getContainersStatus answers (idTable answers table)
def commTable (answers : Answers) (table : List ContainerInfo) := getContainersComm answers (statusTable answers table)
def netnsTable (answers : Answers) (table : List ContainerInfo) := getContainersNetns answers (commTable answers table)
def cgroupTable (answers : Answers) (table : List ContainerInfo) := getContainersCgroup answers (netnsTable answers table)
def mntnsTable (answers : Answers) (table : List ContainerInfo) := getContainersMntns answers (cgroupTable answers table)

theorem getAttributes_eq : getAttributes answers table = getContainersPod answers (mntnsTable answers table) := rfl

section Frames

variable {β : Type} {field : ContainerInfo → β} {written : ContainerInfo}

theorem answered_keeps {query : ContainerInfo → Query} {store : ContainerInfo → Bytes → ContainerInfo}
    (kept : ∀ p line, field (store p line) = field p) (visited : answered query store results p = some written) :
    field written = field p := by
  obtain ⟨line, _, rfl⟩ := Option.map_eq_some_iff.mp visited
  exact kept p line

theorem namespaced_keeps {query : UInt32 → Query} {store : ContainerInfo → UInt32 → ContainerInfo}
    (kept : ∀ p number, field (store p number) = field p) (visited : namespaced query store results p = some written) :
    field written = field p := by
  cases visited
  split
  case isTrue => exact kept p _
  case isFalse => rfl

theorem ifRunning_some {visit : ContainerInfo → Option ContainerInfo} (visited : ifRunning visit p = some written) :
    visit p = some written := by
  rw [ifRunning] at visited
  split at visited
  case isTrue => exact visited
  case isFalse => cases visited

theorem map_getContainersPid (kept : ∀ p pid, field { p with pid := pid } = field p) :
    (getContainersPid answers table).map field = table.map field :=
  map_pass (fun _ _ _ visited => answered_keeps (fun p _ => kept p _) visited) table

theorem map_getContainersIds (kept : ∀ p containerId, field { p with containerId := containerId } = field p) :
    (getContainersIds answers table).map field = table.map field :=
  map_pass (fun _ _ _ visited => answered_keeps (fun p _ => kept p _) visited) table

theorem map_getContainersStatus (kept : ∀ p status, field { p with status := status } = field p) :
    (getContainersStatus answers table).map field = table.map field :=
  map_pass (fun _ _ _ visited => answered_keeps (fun p _ => kept p _) visited) table

theorem map_getContainersComm (kept : ∀ p comm, field { p with comm := comm } = field p) :
    (getContainersComm answers table).map field = table.map field :=
  map_pass (fun _ _ _ visited => answered_keeps (fun p _ => kept p _) (ifRunning_some visited)) table

theorem map_getContainersPod (kept : ∀ p pod, field { p with pod := pod } = field p) :
    (getContainersPod answers table).map field = table.map field :=
  map_pass (fun _ _ _ visited => answered_keeps (fun p _ => kept p _) (ifRunning_some visited)) table

theorem map_getContainersNetns (kept : ∀ p netns, field { p with netns := netns } = field p) :
    (getContainersNetns answers table).map field = table.map field :=
  map_pass (fun _ _ _ visited => namespaced_keeps (fun p _ => kept p _) (ifRunning_some visited)) table

theorem map_getContainersCgroup (kept : ∀ p cgroup, field { p with cgroup := cgroup } = field p) :
    (getContainersCgroup answers table).map field = table.map field :=
  map_pass (fun _ _ _ visited => namespaced_keeps (fun p _ => kept p _) (ifRunning_some visited)) table

theorem map_getContainersMntns (kept : ∀ p mntns, field { p with mntns := mntns } = field p) :
    (getContainersMntns answers table).map field = table.map field :=
  map_pass (fun _ _ _ visited => namespaced_keeps (fun p _ => kept p _) (ifRunning_some visited)) table

end Frames

theorem lookup_of_map {α β : Type} {left right : List α} {field : α → β} {entry : α}
    (same : left.map field = right.map field) (found : right[place]? = some entry) :
    ∃ other, left[place]? = some other ∧ field other = field entry := by
  have column := congrArg (fun column => column[place]?) same
  simp only [List.getElem?_map] at column
  rw [found] at column
  exact Option.map_eq_some_iff.mp column

/-- A table whose attributes are not read yet. -/
def Fresh (table : List ContainerInfo) : Prop := ∀ p ∈ table, ∃ id, p = newContainer id

theorem visitStatus_running (same : q.abbrContainerId = p.abbrContainerId) (running : Running results p) :
    ∃ written, visitStatus results q = some written ∧ written.status = .running := by
  obtain ⟨line, answer, status⟩ := Option.map_eq_some_iff.mp running
  rw [← same] at answer
  exact ⟨_, by rw [visitStatus, answered, answer]; rfl, status⟩

theorem visitStatus_stopped (same : q.abbrContainerId = p.abbrContainerId) (stopped : ¬Running results p)
    (known : (results (.status p.abbrContainerId.text)).isSome) :
    ∃ written, visitStatus results q = some written ∧ written.status ≠ .running := by
  obtain ⟨line, answer⟩ := Option.isSome_iff_exists.mp known
  have different : containersStatus line ≠ .running := by
    intro status
    exact stopped (by rw [Running, answer, Option.map_some, status])
  rw [← same] at answer
  exact ⟨_, by rw [visitStatus, answered, answer]; rfl, different⟩

theorem idTable_unread (answers : Answers) (table : List ContainerInfo) :
    (idTable answers table).map (fun p => (p.abbrContainerId, p.status)) =
      table.map fun p => (p.abbrContainerId, p.status) := by
  rw [idTable, map_getContainersIds (fun _ _ => rfl), pidTable, map_getContainersPid (fun _ _ => rfl)]

theorem idTable_lookup (answers : Answers) (found : table[place]? = some p) :
    ∃ q, (idTable answers table)[place]? = some q ∧ q.abbrContainerId = p.abbrContainerId ∧ q.status = p.status := by
  obtain ⟨q, result, same⟩ := lookup_of_map (idTable_unread answers table) found
  exact ⟨q, result, congrArg Prod.fst same, congrArg Prod.snd same⟩

theorem front_lookup (rest : List ContainerInfo) (inFront : front[place]? = some p) : (front ++ rest)[place]? = some p := by
  obtain ⟨inside, _⟩ := List.getElem?_eq_some_iff.mp inFront
  rw [List.getElem?_append_left inside]
  exact inFront

/-- In front of the first container that does not run, every turn reads a
status. -/
theorem status_before (running : ∀ (turn : Nat) p, front[turn]? = some p → Running (answers turn) p)
    (inside : place ≤ front.length) :
    ∀ earlier < place, ∀ entry, (idTable answers (front ++ rest))[earlier]? = some entry →
      (visitStatus (answers earlier) entry).isSome := by
  intro earlier less entry found
  have here := List.getElem?_eq_getElem (Nat.lt_of_lt_of_le less inside)
  obtain ⟨same, foundSame, abbr, _⟩ := idTable_lookup answers (front_lookup rest here)
  cases found.symm.trans foundSame
  obtain ⟨written, visited, _⟩ := visitStatus_running abbr (running earlier _ here)
  rw [visited]
  rfl

theorem statusTable_front (rest : List ContainerInfo)
    (running : ∀ (turn : Nat) p, front[turn]? = some p → Running (answers turn) p)
    (inFront : front[place]? = some p) :
    ∃ q, (statusTable answers (front ++ rest))[place]? = some q ∧ q.status = .running := by
  obtain ⟨inside, _⟩ := List.getElem?_eq_some_iff.mp inFront
  obtain ⟨q, found, abbr, _⟩ := idTable_lookup answers (front_lookup rest inFront)
  obtain ⟨written, visited, status⟩ := visitStatus_running abbr (running place p inFront)
  exact ⟨written, pass_inStep (status_before running (Nat.le_of_lt inside)) found visited, status⟩

theorem head_lookup (front : List ContainerInfo) (first : rest.head? = some p) :
    (front ++ rest)[front.length]? = some p := by
  rw [List.getElem?_append_right (Nat.le_refl _), Nat.sub_self, ← List.head?_eq_getElem?]
  exact first

theorem statusTable_stopped (running : ∀ (turn : Nat) p, front[turn]? = some p → Running (answers turn) p)
    (first : rest.head? = some p) (stopped : ¬Running (answers front.length) p)
    (known : (answers front.length (.status p.abbrContainerId.text)).isSome) :
    ∃ q, (statusTable answers (front ++ rest))[front.length]? = some q ∧ q.status ≠ .running := by
  obtain ⟨q, found, abbr, _⟩ := idTable_lookup answers (head_lookup front first)
  obtain ⟨written, visited, status⟩ := visitStatus_stopped abbr stopped known
  exact ⟨written, pass_inStep (status_before running (Nat.le_refl _)) found visited, status⟩

theorem status_fresh (fresh : Fresh table) (found : table[place]? = some p) : p.status = .running := by
  obtain ⟨id, rfl⟩ := fresh p (List.mem_of_getElem? found)
  rfl

/-- Behind a container whose status is not told, all are taken to run. -/
theorem statusTable_unknown (fresh : Fresh (front ++ rest))
    (running : ∀ (turn : Nat) p, front[turn]? = some p → Running results p)
    (first : rest.head? = some p) (unknown : results (.status p.abbrContainerId.text) = none)
    (found : (statusTable (fun _ => results) (front ++ rest))[place]? = some q) : q.status = .running := by
  have before : place < front.length → q.status = .running := by
    intro inside
    obtain ⟨written, result, status⟩ := statusTable_front rest running (List.getElem?_eq_getElem inside)
    cases found.symm.trans result
    exact status
  obtain ⟨inTable, _⟩ := List.getElem?_eq_some_iff.mp found
  rw [statusTable, getContainersStatus, passOver, length_pass] at inTable
  obtain ⟨entry, here⟩ : ∃ entry, (idTable (fun _ => results) (front ++ rest))[place]? = some entry :=
    ⟨_, List.getElem?_eq_getElem inTable⟩
  obtain ⟨unread, there, same⟩ := lookup_of_map (idTable_unread _ _).symm here
  have taken : entry.status = .running := (congrArg Prod.snd same).symm.trans (status_fresh fresh there)
  obtain ⟨stuck, stuckHere, abbr, _⟩ := idTable_lookup (fun _ => results) (head_lookup front first)
  have refused : visitStatus results stuck = none := by
    rw [visitStatus, answered, abbr, unknown]
    rfl
  rcases pass_cases here found with ⟨reaches, rfl⟩ | ⟨_, rfl⟩
  · rcases Nat.lt_trichotomy place front.length with inside | same | behind
    · exact before inside
    · subst same
      cases here.symm.trans stuckHere
      rw [refused]
      exact taken
    · have moved := reaches front.length behind stuck stuckHere
      rw [refused] at moved
      cases moved
  · exact taken

theorem map_attributes_status (answers : Answers) (table : List ContainerInfo) :
    (getAttributes answers table).map (·.status) = (statusTable answers table).map (·.status) := by
  rw [getAttributes_eq, map_getContainersPod (fun _ _ => rfl), mntnsTable, map_getContainersMntns (fun _ _ => rfl),
    cgroupTable, map_getContainersCgroup (fun _ _ => rfl), netnsTable, map_getContainersNetns (fun _ _ => rfl),
    commTable, map_getContainersComm (fun _ _ => rfl)]

end GalaGopher.Ebpf.Container

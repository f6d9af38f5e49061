import GalaGopher.Meta.Load
import Mathlib.Data.List.Forall2

namespace GalaGopher.Meta

open GalaGopher.Text GalaGopher.Imdb

/-- The list `measurements` of a file; there is none where the file cannot be
read. -/
abbrev MetaFile := Option (List MeasurementConfig)

/-- The loop of `MeasurementMgrLoadSingleMeta`, with what it returns and the
manager that it leaves; no result where libconfig reads a null pointer. -/
def loadMeasurements (mgr : MeasurementMgr) : List MeasurementConfig → Option (Int × MeasurementMgr)
  | [] => some (0, mgr)
  | measurement :: rest =>
      match measurementLoad mgr measurement with
      | .error .undefined => none
      | .error .failed => some (-1, mgr)
      | .ok mm =>
          match measurementMgrAdd mgr mm with
          | none => some (-1, mgr)
          | some mgr => loadMeasurements mgr rest

def loadSingleMeta (mgr : MeasurementMgr) : MetaFile → Option (Int × MeasurementMgr)
  | none => some (-1, mgr)
  | some measurements => loadMeasurements mgr measurements

/-- The loop without the managers of the files that fail. -/
theorem measurementMgrLoadSingleMeta_ok_iff (mgr after : MeasurementMgr) (measurements : List MeasurementConfig) :
    measurementMgrLoadSingleMeta mgr measurements = .ok after ↔ loadMeasurements mgr measurements = some (0, after) := by
  induction measurements generalizing mgr with
  | nil => simp [measurementMgrLoadSingleMeta, loadMeasurements]
  | cons measurement rest ih =>
      rw [measurementMgrLoadSingleMeta, Outcome.bind_ok_iff, loadMeasurements]
      cases loaded : measurementLoad mgr measurement with
      | error fault => cases fault <;> simp
      | ok mm =>
          cases added : measurementMgrAdd mgr mm with
          | none => simp [added]
          | some next => simpa [added] using ih next

def FieldConfig.Complete (fieldConfig : FieldConfig) : Prop :=
  fieldConfig.description.isSome ∧ fieldConfig.type.isSome ∧ fieldConfig.name.isSome

def MeasurementConfig.Complete (measurement : MeasurementConfig) : Prop :=
  measurement.name.isSome ∧ ∃ fields, measurement.fields = some fields ∧ ∀ fieldConfig ∈ fields, fieldConfig.Complete

/-- The field that an element of the list describes. -/
def Filled (fieldConfig : FieldConfig) (field : Field) : Prop :=
  ∃ description type name, fieldConfig = ⟨some description, some type, some name⟩ ∧
    field = ⟨.ofText 256 description, .ofText 64 type, .ofText 64 name⟩

def Stored (measurement : MeasurementConfig) (mm : Measurement) : Prop :=
  ∃ name fields, measurement = ⟨some name, some fields⟩ ∧ mm.name = .ofText 64 name ∧
    List.Forall₂ Filled fields mm.fields

/-- What is returned, and the measurements behind those that were there. -/
structure Answer (mgr : MeasurementMgr) (file : MetaFile) (code : Int) (after : MeasurementMgr) (added : List Measurement) :
    Prop where
  appended : after.measurements = mgr.measurements ++ added
  stored : List.Forall₂ Stored ((file.getD []).take added.length) added
  zero : code = 0 → ∃ measurements, file = some measurements ∧ added.length = measurements.length
  refused : (file = none ∨ ∃ measurement ∈ file.getD [], ¬ measurement.Complete) → code = -1

/-- A file that lacks something is refused, and nothing of it is registered in
part. -/
def Refuses (mgr : MeasurementMgr) (file : MetaFile) : Prop :=
  ∃ code after added, loadSingleMeta mgr file = some (code, after) ∧ Answer mgr file code after added

/-- Behind the earlier ones the measurement is loaded and added. -/
def Accepted (mgr : MeasurementMgr) (earlier : List MeasurementConfig) (measurement : MeasurementConfig) : Prop :=
  ∃ name fields, measurement = ⟨some name, some fields⟩ ∧ fields.length ≤ mgr.fieldsNumMax ∧
    CharArray.ofText 64 name ∉ mgr.measurements.map Measurement.name ++
      earlier.filterMap (fun other => other.name.map (CharArray.ofText 64)) ∧
    mgr.measurements.length + earlier.length < mgr.measurementsCapability

/-- No measurement that is come to lacks its list only, and those that are added
lack nothing. -/
def Clean (mgr : MeasurementMgr) (measurements : List MeasurementConfig) : Prop :=
  ∀ before measurement after, measurements = before ++ measurement :: after →
    (∀ earlier other later, before = earlier ++ other :: later → Accepted mgr earlier other) →
    (measurement.name.isSome → measurement.fields.isSome) ∧ (Accepted mgr before measurement → measurement.Complete)

variable {mgr next : MeasurementMgr} {measurement : MeasurementConfig} {measurements rest : List MeasurementConfig}
  {mm : Measurement}

theorem filled_iff (fieldConfig : FieldConfig) : Filled fieldConfig (fieldLoad fieldConfig).1 ↔ fieldConfig.Complete := by
  constructor
  · rintro ⟨description, type, name, rfl, _⟩
    exact ⟨rfl, rfl, rfl⟩
  · obtain ⟨description, type, name⟩ := fieldConfig
    rintro ⟨described, typed, named⟩
    obtain ⟨description, rfl⟩ := Option.isSome_iff_exists.mp described
    obtain ⟨type, rfl⟩ := Option.isSome_iff_exists.mp typed
    obtain ⟨name, rfl⟩ := Option.isSome_iff_exists.mp named
    exact ⟨description, type, name, rfl, rfl⟩

theorem measurementMgrGet_isSome_iff (mgr : MeasurementMgr) (name : CharArray 64) :
    (measurementMgrGet mgr name).isSome ↔ name ∈ mgr.measurements.map Measurement.name := by
  rw [measurementMgrGet, List.find?_isSome, List.mem_map]
  simp only [decide_eq_true_eq]

/-- A measurement of a new name is put behind the others while there is room. -/
theorem measurementMgrAdd_cases (mgr : MeasurementMgr) (mm : Measurement) :
    ((mm.name ∉ mgr.measurements.map Measurement.name ∧ mgr.measurements.length < mgr.measurementsCapability) ∧
      ∃ next, measurementMgrAdd mgr mm = some next ∧ next.measurements = mgr.measurements ++ [mm] ∧
        next.measurementsCapability = mgr.measurementsCapability ∧ next.fieldsNumMax = mgr.fieldsNumMax) ∨
    (¬ (mm.name ∉ mgr.measurements.map Measurement.name ∧ mgr.measurements.length < mgr.measurementsCapability) ∧
      measurementMgrAdd mgr mm = none) := by
  have fits := mgr.fits
  rw [← measurementMgrGet_isSome_iff]
  unfold measurementMgrAdd
  split
  case isTrue known => exact .inr ⟨fun both => both.1 known, rfl⟩
  case isFalse absent =>
      split
      case isTrue full => exact .inr ⟨fun both => Nat.ne_of_lt both.2 full, rfl⟩
      case isFalse room => exact .inl ⟨⟨absent, Nat.lt_of_le_of_ne fits room⟩, _, rfl, rfl, rfl, rfl⟩

/-- The manager with a measurement more. -/
structure Extended (mgr : MeasurementMgr) (measurement : MeasurementConfig) (mm : Measurement) (next : MeasurementMgr) :
    Prop where
  appended : next.measurements = mgr.measurements ++ [mm]
  capability : next.measurementsCapability = mgr.measurementsCapability
  fieldsNumMax : next.fieldsNumMax = mgr.fieldsNumMax
  name : measurement.name.map (CharArray.ofText 64) = some mm.name
  stored_iff : Stored measurement mm ↔ measurement.Complete

theorem accepted_first (name : Bytes) (fields : List FieldConfig) :
    Accepted mgr [] ⟨some name, some fields⟩ ↔
      fields.length ≤ mgr.fieldsNumMax ∧ CharArray.ofText 64 name ∉ mgr.measurements.map Measurement.name ∧
        mgr.measurements.length < mgr.measurementsCapability := by
  rw [Accepted]
  constructor
  · rintro ⟨_, _, same, few, fresh, room⟩
    cases same
    exact ⟨few, by simpa using fresh, room⟩
  · rintro ⟨few, fresh, room⟩
    exact ⟨name, fields, rfl, few, by simpa using fresh, room⟩

theorem stored_loaded (name : Bytes) (fields : List FieldConfig)
    (bounded : (fields.map fun fieldConfig => (fieldLoad fieldConfig).1).length ≤ 128) :
    Stored ⟨some name, some fields⟩ ⟨.ofText 64 name, fields.map fun fieldConfig => (fieldLoad fieldConfig).1, bounded⟩ ↔
      (⟨some name, some fields⟩ : MeasurementConfig).Complete := by
  have pairs : List.Forall₂ Filled fields (fields.map fun fieldConfig => (fieldLoad fieldConfig).1) ↔
      ∀ fieldConfig ∈ fields, fieldConfig.Complete := by
    rw [List.forall₂_map_right_iff, List.forall₂_same]
    simp only [filled_iff]
  constructor
  · rintro ⟨_, _, same, _, filled⟩
    cases same
    exact ⟨rfl, fields, rfl, pairs.mp filled⟩
  · rintro ⟨_, _, same, complete⟩
    cases same
    exact ⟨name, fields, rfl, rfl, pairs.mpr complete⟩

/-- The three ways of a turn: on with a measurement more, undefined, or back. -/
theorem loadMeasurements_cons (mgr : MeasurementMgr) (measurement : MeasurementConfig) (rest : List MeasurementConfig) :
    (∃ mm next, Accepted mgr [] measurement ∧ Extended mgr measurement mm next ∧
      loadMeasurements mgr (measurement :: rest) = loadMeasurements next rest) ∨
    (measurement.name.isSome ∧ measurement.fields = none ∧ loadMeasurements mgr (measurement :: rest) = none) ∨
    ((measurement.name.isSome → measurement.fields.isSome) ∧ ¬ Accepted mgr [] measurement ∧
      loadMeasurements mgr (measurement :: rest) = some (-1, mgr)) := by
  obtain ⟨name, fields⟩ := measurement
  rw [loadMeasurements]
  cases name with
  | none =>
      refine .inr (.inr ⟨fun named => absurd named (by simp), ?_, rfl⟩)
      rintro ⟨_, _, same, _⟩
      cases same
  | some name =>
      cases fields with
      | none => exact .inr (.inl ⟨rfl, rfl, rfl⟩)
      | some fields =>
          rw [accepted_first]
          by_cases many : fields.length > mgr.fieldsNumMax
          · refine .inr (.inr ⟨fun _ => rfl, fun accepted => absurd accepted.1 (Nat.not_le.mpr many), ?_⟩)
            simp only [measurementLoad, dif_pos many]
          · simp only [measurementLoad, dif_neg many]
            rcases measurementMgrAdd_cases mgr ⟨.ofText 64 name, _, loaded_bounded many⟩ with
              ⟨both, next, added, appended, capability, most⟩ | ⟨neither, added⟩
            · refine .inl ⟨_, next, ⟨Nat.le_of_not_lt many, both⟩, ⟨appended, capability, most, rfl, ?_⟩, by rw [added]⟩
              exact stored_loaded name fields _
            · exact .inr (.inr ⟨fun _ => rfl, fun accepted => neither accepted.2, by rw [added]⟩)

theorem Extended.accepted_iff (extended : Extended mgr measurement mm next) (earlier : List MeasurementConfig)
    (other : MeasurementConfig) : Accepted mgr (measurement :: earlier) other ↔ Accepted next earlier other := by
  have names : mgr.measurements.map Measurement.name ++
      (measurement :: earlier).filterMap (fun other => other.name.map (CharArray.ofText 64)) =
      next.measurements.map Measurement.name ++ earlier.filterMap (fun other => other.name.map (CharArray.ofText 64)) := by
    rw [List.filterMap_cons, extended.name, extended.appended, List.map_append, List.append_assoc]
    rfl
  have count : mgr.measurements.length + (measurement :: earlier).length = next.measurements.length + earlier.length := by
    rw [extended.appended, List.length_append, List.length_cons, List.length_singleton]
    omega
  rw [Accepted, Accepted, names, count, extended.capability, extended.fieldsNumMax]

/-- Behind a measurement that is added, the rest is as in the next manager. -/
theorem Extended.clean_iff (extended : Extended mgr measurement mm next) (accepted : Accepted mgr [] measurement) :
    Clean mgr (measurement :: rest) ↔ measurement.Complete ∧ Clean next rest := by
  have listed : measurement.fields.isSome := by
    obtain ⟨_, _, rfl, _⟩ := accepted
    rfl
  constructor
  · intro clean
    refine ⟨(clean [] measurement rest rfl fun earlier _ _ split => by simp at split).2 accepted, ?_⟩
    intro before other after split reached
    have here := clean (measurement :: before) other after (by rw [split]; rfl) ?_
    · rwa [extended.accepted_iff] at here
    · intro earlier one later between
      cases earlier with
      | nil =>
          obtain rfl := (List.cons.inj between).1
          exact accepted
      | cons first earlier =>
          obtain ⟨rfl, tail⟩ := List.cons.inj between
          exact (extended.accepted_iff earlier one).mpr (reached earlier one later tail)
  · rintro ⟨complete, clean⟩ before other after split reached
    cases before with
    | nil =>
        obtain rfl := (List.cons.inj split).1
        exact ⟨fun _ => listed, fun _ => complete⟩
    | cons first before =>
        obtain ⟨rfl, tail⟩ := List.cons.inj split
        rw [extended.accepted_iff]
        refine clean before other after tail fun earlier one later between => ?_
        exact (extended.accepted_iff earlier one).mp (reached (measurement :: earlier) one later (by rw [between]; rfl))

/-- Behind a measurement that is not added nothing is come to. -/
theorem clean_cons_refused (refused : ¬ Accepted mgr [] measurement) :
    Clean mgr (measurement :: rest) ↔ (measurement.name.isSome → measurement.fields.isSome) := by
  constructor
  · intro clean
    exact (clean [] measurement rest rfl fun earlier _ _ split => by simp at split).1
  · intro listed before other after split reached
    cases before with
    | nil =>
        obtain rfl := (List.cons.inj split).1
        exact ⟨listed, fun accepted => absurd accepted refused⟩
    | cons first before =>
        obtain ⟨rfl, _⟩ := List.cons.inj split
        exact absurd (reached [] measurement before rfl) refused

theorem appended_loadMeasurements {code : Int} {after : MeasurementMgr}
    (loaded : loadMeasurements mgr measurements = some (code, after)) :
    ∃ added, after.measurements = mgr.measurements ++ added := by
  induction measurements generalizing mgr with
  | nil =>
      cases loaded
      exact ⟨[], (List.append_nil _).symm⟩
  | cons measurement rest ih =>
      rcases loadMeasurements_cons mgr measurement rest with
        ⟨mm, next, _, extended, same⟩ | ⟨_, _, none⟩ | ⟨_, _, back⟩
      · obtain ⟨added, appended⟩ := ih (same ▸ loaded)
        exact ⟨mm :: added, by rw [appended, extended.appended, List.append_assoc]; rfl⟩
      · rw [none] at loaded
        cases loaded
      · rw [back] at loaded
        cases loaded
        exact ⟨[], (List.append_nil _).symm⟩

theorem Extended.answer_iff (extended : Extended mgr measurement mm next) {code : Int} {after : MeasurementMgr}
    {more : List Measurement} :
    Answer mgr (some (measurement :: rest)) code after (mm :: more) ↔
      measurement.Complete ∧ Answer next (some rest) code after more := by
  have appended : next.measurements ++ more = mgr.measurements ++ (mm :: more) := by
    rw [extended.appended, List.append_assoc]
    rfl
  constructor
  · intro answer
    have stored : Stored measurement mm ∧ List.Forall₂ Stored (rest.take more.length) more :=
      List.forall₂_cons.mp answer.stored
    refine ⟨extended.stored_iff.mp stored.1, answer.appended.trans appended.symm, stored.2, fun success => ?_, ?_⟩
    · obtain ⟨_, same, length⟩ := answer.zero success
      cases same
      exact ⟨rest, rfl, Nat.succ.inj length⟩
    · rintro (none | ⟨other, member, lacks⟩)
      · cases none
      · exact answer.refused (.inr ⟨other, List.mem_cons_of_mem _ member, lacks⟩)
  · rintro ⟨complete, answer⟩
    refine ⟨answer.appended.trans appended, ?_, fun success => ?_, ?_⟩
    · exact List.Forall₂.cons (extended.stored_iff.mpr complete) answer.stored
    · obtain ⟨_, same, length⟩ := answer.zero success
      cases same
      exact ⟨measurement :: rest, rfl, congrArg Nat.succ length⟩
    · rintro (none | ⟨other, member, lacks⟩)
      · cases none
      · rcases List.mem_cons.mp member with rfl | later
        · exact absurd complete lacks
        · exact answer.refused (.inr ⟨other, later, lacks⟩)

theorem Extended.cons_refuses_iff (extended : Extended mgr measurement mm next)
    (same : loadMeasurements mgr (measurement :: rest) = loadMeasurements next rest) :
    Refuses mgr (some (measurement :: rest)) ↔ measurement.Complete ∧ Refuses next (some rest) := by
  constructor
  · rintro ⟨code, after, added, loaded, answer⟩
    have onward : loadMeasurements next rest = some (code, after) := same ▸ loaded
    obtain ⟨more, appended⟩ := appended_loadMeasurements onward
    rw [extended.appended, List.append_assoc, answer.appended] at appended
    obtain rfl := List.append_cancel_left appended
    obtain ⟨complete, later⟩ := extended.answer_iff.mp answer
    exact ⟨complete, code, after, more, onward, later⟩
  · rintro ⟨complete, code, after, more, onward, answer⟩
    exact ⟨code, after, mm :: more, same.trans onward, extended.answer_iff.mpr ⟨complete, answer⟩⟩

theorem answer_back (mgr : MeasurementMgr) (file : MetaFile) : Answer mgr file (-1) mgr [] where
  appended := (List.append_nil _).symm
  stored := .nil
  zero := fun success => by cases success
  refused := fun _ => rfl

theorem refuses_iff_clean (mgr : MeasurementMgr) (measurements : List MeasurementConfig) :
    Refuses mgr (some measurements) ↔ Clean mgr measurements := by
  induction measurements generalizing mgr with
  | nil =>
      refine iff_of_true ⟨0, mgr, [], rfl, (List.append_nil _).symm, .nil, fun _ => ⟨[], rfl, rfl⟩, ?_⟩ ?_
      · rintro (none | ⟨_, member, _⟩)
        · cases none
        · cases member
      · intro before measurement after split
        simp at split
  | cons measurement rest ih =>
      rcases loadMeasurements_cons mgr measurement rest with
        ⟨mm, next, accepted, extended, same⟩ | ⟨named, unlisted, undefined⟩ | ⟨listed, refused, back⟩
      · rw [extended.clean_iff accepted, extended.cons_refuses_iff same, ih next]
      · refine iff_of_false ?_ fun clean => ?_
        · rintro ⟨code, after, added, loaded, _⟩
          cases undefined.symm.trans loaded
        · have listed := (clean [] measurement rest rfl fun earlier _ _ split => by simp at split).1 named
          rw [unlisted] at listed
          cases listed
      · rw [clean_cons_refused refused]
        exact iff_of_true ⟨-1, mgr, [], back, answer_back mgr _⟩ listed

/-- A file is refused as it should be exactly when the measurements that are
come to lack nothing, or what makes the loop go back. -/
theorem load_refuses_iff (mgr : MeasurementMgr) (file : MetaFile) : Refuses mgr file ↔ Clean mgr (file.getD []) := by
  cases file with
  | none =>
      refine iff_of_true ⟨-1, mgr, [], rfl, answer_back mgr none⟩ ?_
      intro before measurement after split
      simp at split
  | some measurements => exact refuses_iff_clean mgr measurements

def untyped : MeasurementConfig where
  name := some (ascii "link")
  fields := some [⟨some (ascii "rx bytes"), none, some (ascii "rx_bytes")⟩]

/-- A field without a type is registered, without its name too. -/
theorem blank_type_registered :
    (∃ after, loadSingleMeta (measurementMgrCreate 16 16) (some [untyped]) = some (0, after) ∧
      after.measurements.map Measurement.fields = [[⟨.ofText 256 (ascii "rx bytes"), .ofText 64 [], .ofText 64 []⟩]]) ∧
    ¬ Refuses (measurementMgrCreate 16 16) (some [untyped]) := by
  have success : (loadSingleMeta (measurementMgrCreate 16 16) (some [untyped])).map Prod.fst = some 0 := rfl
  have lacks : ¬ untyped.Complete := by
    rintro ⟨_, fields, same, complete⟩
    cases same
    exact absurd (complete _ List.mem_cons_self).2.1 (by simp)
  refine ⟨⟨_, rfl, rfl⟩, ?_⟩
  rintro ⟨code, after, added, loaded, answer⟩
  rw [loaded, Option.map_some, answer.refused (.inr ⟨untyped, List.mem_cons_self, lacks⟩)] at success
  cases success

end GalaGopher.Meta

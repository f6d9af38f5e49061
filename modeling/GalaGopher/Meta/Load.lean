import GalaGopher.Imdb.Load
import Mathlib.Data.List.Forall2

namespace GalaGopher.Meta

open GalaGopher.Text GalaGopher.Imdb

/-! The loader of the meta files, from the settings libconfig has read.

A string setting that is missing or of another type is `none`, and so is a
missing `fields`, whose length libconfig reads through a null pointer. -/

structure FieldConfig where
  description : Option Bytes
  type : Option Bytes
  name : Option Bytes

structure MeasurementConfig where
  name : Option Bytes
  fields : Option (List FieldConfig)

/-- What is loaded: measurements of distinct names, no more than there is
room for. -/
structure MeasurementMgr where
  measurementsCapability : Nat
  fieldsNumMax : Nat
  measurements : List Measurement
  fieldsBounded : fieldsNumMax ≤ 128
  fits : measurements.length ≤ measurementsCapability
  distinct : (measurements.map Measurement.name).Nodup

def measurementMgrCreate (measurementsCapability fieldsNumMax : Nat) : MeasurementMgr where
  measurementsCapability
  fieldsNumMax := min fieldsNumMax 128
  measurements := []
  fieldsBounded := Nat.min_le_right ..
  fits := Nat.zero_le _
  distinct := List.nodup_nil

def emptyField : Field :=
  { description := .ofText 256 [], type := .ofText 64 [], name := .ofText 64 [] }

/-- A lookup that fails leaves what was copied before it. -/
def fieldLoad (fieldConfig : FieldConfig) : Field × Int :=
  match fieldConfig.description with
  | none => (emptyField, -1)
  | some token =>
      let field := { emptyField with description := .ofText 256 token }
      match fieldConfig.type with
      | none => (field, -1)
      | some token =>
          let field := { field with type := .ofText 64 token }
          match fieldConfig.name with
          | none => (field, -1)
          | some token => ({ field with name := .ofText 64 token }, 0)

theorem loaded_bounded {mgr : MeasurementMgr} {fields : List FieldConfig}
    (few : ¬ fields.length > mgr.fieldsNumMax) :
    (fields.map fun fieldConfig => (fieldLoad fieldConfig).1).length ≤ 128 := by
  rw [List.length_map]
  exact Nat.le_trans (Nat.le_of_not_lt few) mgr.fieldsBounded

/-- A field that fails to load is logged and counted all the same. -/
def measurementLoad (mgr : MeasurementMgr) (mmConfig : MeasurementConfig) : Outcome Measurement :=
  match mmConfig.name with
  | none => .error .failed
  | some name =>
      match mmConfig.fields with
      | none => .error .undefined
      | some fields =>
          if few : fields.length > mgr.fieldsNumMax then .error .failed
          else .ok {
            name := .ofText 64 name
            fields := fields.map fun fieldConfig => (fieldLoad fieldConfig).1
            bounded := loaded_bounded few }

def measurementMgrGet (mgr : MeasurementMgr) (name : CharArray 64) : Option Measurement :=
  mgr.measurements.find? fun mm => mm.name = name

theorem added_fits {mgr : MeasurementMgr} {measurement : Measurement}
    (room : mgr.measurements.length ≠ mgr.measurementsCapability) :
    (mgr.measurements ++ [measurement]).length ≤ mgr.measurementsCapability := by
  have fits := mgr.fits
  rw [List.length_append, List.length_singleton]
  omega

theorem added_distinct {mgr : MeasurementMgr} {measurement : Measurement}
    (absent : ¬ (measurementMgrGet mgr measurement.name).isSome) :
    ((mgr.measurements ++ [measurement]).map Measurement.name).Nodup := by
  rw [measurementMgrGet, Bool.not_eq_true, Option.isSome_eq_false_iff, Option.isNone_iff_eq_none,
    List.find?_eq_none] at absent
  rw [List.map_append, List.nodup_append]
  refine ⟨mgr.distinct, List.nodup_singleton _, ?_⟩
  intro name earlier other last same
  obtain ⟨mm, member, rfl⟩ := List.mem_map.mp earlier
  rw [List.map_singleton, List.mem_singleton] at last
  exact absent mm member (by simp [same, last])

def measurementMgrAdd (mgr : MeasurementMgr) (measurement : Measurement) : Option MeasurementMgr :=
  if absent : (measurementMgrGet mgr measurement.name).isSome then none
  else if room : mgr.measurements.length = mgr.measurementsCapability then none
  else some { mgr with
    measurements := mgr.measurements ++ [measurement]
    fits := added_fits room
    distinct := added_distinct absent }

def measurementMgrLoadSingleMeta (mgr : MeasurementMgr) : List MeasurementConfig → Outcome MeasurementMgr
  | [] => .ok mgr
  | measurement :: rest => do
      let mm ← measurementLoad mgr measurement
      match measurementMgrAdd mgr mm with
      | none => .error .failed
      | some mgr => measurementMgrLoadSingleMeta mgr rest

/-- The files of the meta directory, in the order they are read. -/
def measurementMgrLoad (mgr : MeasurementMgr) : List (List MeasurementConfig) → Outcome MeasurementMgr
  | [] => .ok mgr
  | file :: rest => do
      let mgr ← measurementMgrLoadSingleMeta mgr file
      measurementMgrLoad mgr rest

/-- The measurement that is made of an entry, with its fields as far as they
could be loaded. -/
structure Loads (mmConfig : MeasurementConfig) (mm : Measurement) : Prop where
  name : mmConfig.name.map (CharArray.ofText 64) = some mm.name
  fields : mmConfig.fields.map (List.map fun fieldConfig => (fieldLoad fieldConfig).1) = some mm.fields

variable {mgr after : MeasurementMgr} {mmConfig : MeasurementConfig} {mm : Measurement}

theorem measurementLoad_loads (loaded : measurementLoad mgr mmConfig = .ok mm) : Loads mmConfig mm := by
  unfold measurementLoad at loaded
  split at loaded
  · cases loaded
  · rename_i name named
    split at loaded
    · cases loaded
    · rename_i fields listed
      split at loaded
      · cases loaded
      · cases loaded
        exact ⟨by rw [named]; rfl, by rw [listed]; rfl⟩

theorem measurementMgrAdd_appended (added : measurementMgrAdd mgr mm = some after) :
    after.measurements = mgr.measurements ++ [mm] := by
  unfold measurementMgrAdd at added
  split at added
  · cases added
  · split at added
    · cases added
    · cases added
      rfl

theorem measurementMgrLoadSingleMeta_loads {file : List MeasurementConfig}
    (loaded : measurementMgrLoadSingleMeta mgr file = .ok after) :
    ∃ more, after.measurements = mgr.measurements ++ more ∧ List.Forall₂ Loads file more := by
  induction file generalizing mgr with
  | nil =>
      cases loaded
      exact ⟨[], (List.append_nil _).symm, .nil⟩
  | cons mmConfig rest ih =>
      obtain ⟨mm, first, loaded⟩ := Outcome.bind_ok_iff.mp loaded
      cases added : measurementMgrAdd mgr mm with
      | none => simp [added] at loaded
      | some next =>
          simp only [added] at loaded
          obtain ⟨more, appended, loads⟩ := ih loaded
          refine ⟨mm :: more, ?_, .cons (measurementLoad_loads first) loads⟩
          rw [appended, measurementMgrAdd_appended added, List.append_assoc, List.singleton_append]

/-- The measurements of all files, in their order. -/
theorem measurementMgrLoad_loads {files : List (List MeasurementConfig)} (loaded : measurementMgrLoad mgr files = .ok after) :
    ∃ more, after.measurements = mgr.measurements ++ more ∧ List.Forall₂ Loads files.flatten more := by
  induction files generalizing mgr with
  | nil =>
      cases loaded
      exact ⟨[], (List.append_nil _).symm, .nil⟩
  | cons file rest ih =>
      obtain ⟨next, first, loaded⟩ := Outcome.bind_ok_iff.mp loaded
      obtain ⟨here, appended, loads⟩ := measurementMgrLoadSingleMeta_loads first
      obtain ⟨more, behind, later⟩ := ih loaded
      exact ⟨here ++ more, by rw [behind, appended, List.append_assoc], List.rel_append loads later⟩

/-- Names, types and descriptions within the limits of the loader arrive
uncut. -/
theorem fieldLoad_uncut {description type name : Bytes} (descriptionShort : description.length ≤ 255)
    (typeShort : type.length ≤ 63) (nameShort : name.length ≤ 63) :
    ∃ field, fieldLoad ⟨some description, some type, some name⟩ = (field, 0) ∧
      field.description.text = description ∧ field.type.text = type ∧ field.name.text = name :=
  ⟨_, rfl, List.take_of_length_le descriptionShort, List.take_of_length_le typeShort,
    List.take_of_length_le nameShort⟩

end GalaGopher.Meta

import GalaGopher.Data.LastWrite
import GalaGopher.Ingress.Line
import GalaGopher.Text.Lines
import GalaGopher.Text.Options
import Mathlib.Data.List.TakeWhile

namespace GalaGopher.Probe.SystemMeminfo

open Text Data Ingress

/-! The one record of `/proc/meminfo`, and that of `/proc/vmstat`, which is read
in the same way. -/

def maxLineLength : Nat := 2048

def maxKeyLength : Nat := 256

def maxValLength : Nat := 2048

structure KeyedFile where
  name : Bytes
  spliter : UInt8
  keys : List Bytes

def systemMeminfo : KeyedFile where
  name := ascii "system_meminfo"
  spliter := 58
  keys := [ascii "MemTotal", ascii "MemFree", ascii "MemAvailable", ascii "Buffers", ascii "Cached", ascii "SwapCached",
    ascii "Active", ascii "Inactive"]

def systemVmstat : KeyedFile where
  name := ascii "system_vmstat"
  spliter := space
  keys := [ascii "nr_free_pages", ascii "nr_zone_inactive_anon", ascii "nr_zone_active_anon", ascii "nr_zone_active_file",
    ascii "nr_zone_unevictable", ascii "nr_zone_write_pending", ascii "nr_mlock", ascii "nr_page_table_pages"]

structure KeyedField where
  key : Bytes
  val : Bytes := []

/-- What is behind the spaces loses its last byte, which is taken for the
newline.  A key that is too long is copied past the end of its buffer, and one
without room for its terminator is no string. -/
def parseLine (spliter : UInt8) (line : Bytes) : Outcome (Bytes × Bytes) :=
  let key := line.takeWhile fun byte => byte ≠ spliter
  match line.dropWhile fun byte => byte ≠ spliter with
  | [] => .error .failed
  | _ :: behind =>
      if maxKeyLength < key.length then .error .undefined
      else
        match behind.dropWhile fun byte => byte = space with
        | [] => .error .failed
        | value => if key.length = maxKeyLength then .error .undefined else .ok (key, value.dropLast)

def setField (fields : List KeyedField) (key val : Bytes) : List KeyedField :=
  fields.map fun field => if field.key = key then { field with val := val.take (maxValLength - 1) } else field

def readLine (spliter : UInt8) (fields : List KeyedField) (line : Bytes) : Outcome (List KeyedField) := do
  let (key, val) ← parseLine spliter line
  return setField fields key val

/-- The buffer in each round.  A round behind the end of the file, which the
last line did not come to, finds that line once more. -/
def rounds (stream : Bytes) : List Bytes :=
  match (pieces newline (maxLineLength - 1) stream).getLast? with
  | none => []
  | some last =>
      if last.getLast? ≠ some newline ∧ last.length < maxLineLength - 1 then fgetsStrings maxLineLength stream
      else fgetsStrings maxLineLength stream ++ [cString last]

def printRecords (name : Bytes) (fields : List KeyedField) : Bytes := probeLine name (fields.map KeyedField.val) true

/-- `main`, with what is read of the file if it can be opened.  The buffer is not
set before the first round. -/
def probeMain (file : KeyedFile) : Option Bytes → Outcome Bytes
  | none => .error .failed
  | some stream =>
      if stream = [] then .error .undefined
      else do
        let fields ← (rounds stream).foldlM (readLine file.spliter) (file.keys.map fun key => { key })
        return printRecords file.name fields

structure Gives (spliter : UInt8) (line key value : Bytes) : Prop where
  parts : ∃ blanks close, line = key ++ spliter :: (List.replicate blanks space ++ (value ++ [close])) ∧
    (value ++ [close]).head? ≠ some space
  whole : spliter ∉ key
  short : key.length < maxKeyLength

/-- The last line of a key counts, and of one without a line nothing is told. -/
def Told (spliter : UInt8) (lines : List Bytes) (key value : Bytes) : Prop :=
  (∃ before line after, lines = before ++ line :: after ∧ Gives spliter line key value ∧
    ∀ other ∈ after, ∀ value, ¬ Gives spliter other key value) ∨
  value = [] ∧ ∀ line ∈ lines, ∀ value, ¬ Gives spliter line key value

variable {spliter : UInt8} {line key value : Bytes} {lines : List Bytes} {fields : List KeyedField}

theorem parseLine_of_gives (gives : Gives spliter line key value) : parseLine spliter line = .ok (key, value) := by
  obtain ⟨⟨blanks, close, rfl, begins⟩, whole, short⟩ := gives
  have kept : ∀ byte ∈ key, decide (byte ≠ spliter) = true := fun byte member =>
    decide_eq_true fun same => whole (same ▸ member)
  have blank : ∀ byte ∈ List.replicate blanks space, decide (byte = space) = true := fun byte member =>
    decide_eq_true (List.eq_of_mem_replicate member)
  rw [parseLine, List.takeWhile_append_of_pos kept, List.dropWhile_append_of_pos kept,
    List.takeWhile_cons_of_neg (by simp), List.dropWhile_cons_of_neg (by simp), List.append_nil]
  simp only [if_neg (Nat.not_lt.mpr (Nat.le_of_lt short)), if_neg (Nat.ne_of_lt short), List.dropWhile_append_of_pos blank]
  cases filled : value ++ [close] with
  | nil => exact absurd filled (List.concat_ne_nil close value)
  | cons first rest =>
      rw [filled, List.head?_cons, ne_eq, Option.some_inj] at begins
      rw [List.dropWhile_cons_of_neg (by simpa using begins)]
      simp only [← filled, List.dropLast_concat]

theorem gives_of_parseLine (parsed : parseLine spliter line = .ok (key, value)) : Gives spliter line key value := by
  rw [parseLine] at parsed
  have split : line.takeWhile (fun byte => byte ≠ spliter) ++ line.dropWhile (fun byte => byte ≠ spliter) = line :=
    List.takeWhile_append_dropWhile
  have boundary := List.head?_dropWhile_not (fun byte => decide (byte ≠ spliter)) line
  split at parsed
  · cases parsed
  · rename_i first behind found
    rw [found] at split boundary
    obtain rfl : first = spliter := by simpa using boundary
    split at parsed
    · cases parsed
    · rename_i notLong
      split at parsed
      · cases parsed
      · rename_i filled
        split at parsed
        · cases parsed
        · rename_i notFull
          cases parsed
          have blanks : behind.takeWhile (fun byte => byte = space) =
              List.replicate (behind.takeWhile fun byte => byte = space).length space :=
            List.eq_replicate_of_mem fun byte member => by simpa using List.mem_takeWhile_imp member
          have closed := List.dropLast_concat_getLast filled
          refine ⟨⟨(behind.takeWhile fun byte => byte = space).length,
            (behind.dropWhile fun byte => byte = space).getLast filled, ?_, ?_⟩, ?_, by omega⟩
          · rw [← blanks, closed, List.takeWhile_append_dropWhile, split]
          · intro begins
            have unspaced := List.head?_dropWhile_not (fun byte => decide (byte = space)) behind
            rw [closed] at begins
            rw [begins] at unspaced
            simp at unspaced
          · intro member
            have other := List.mem_takeWhile_imp member
            simp at other

theorem parseLine_eq_ok_iff : parseLine spliter line = .ok (key, value) ↔ Gives spliter line key value :=
  ⟨gives_of_parseLine, parseLine_of_gives⟩

/-- What a line sets the field of a key to. -/
def setTo (spliter : UInt8) (key line : Bytes) : Option Bytes :=
  match parseLine spliter line with
  | .ok (named, val) => if key = named then some (val.take (maxValLength - 1)) else none
  | .error _ => none

theorem foldlM_readLine {after : List KeyedField} :
    lines.foldlM (readLine spliter) fields = .ok after ↔
      (∀ line ∈ lines, ∃ key value, Gives spliter line key value) ∧
        after = fields.map fun field => { field with val := (lastWrite (setTo spliter field.key) lines).getD field.val } := by
  induction lines generalizing fields with
  | nil =>
      rw [List.foldlM_nil]
      constructor
      · intro same
        cases same
        exact ⟨nofun, (List.map_id _).symm⟩
      · rintro ⟨-, rfl⟩
        exact congrArg Except.ok (List.map_id _).symm
  | cons line rest ih =>
      rw [List.foldlM_cons, Outcome.bind_ok_iff, List.forall_mem_cons]
      simp only [lastWrite_cons]
      cases parsed : parseLine spliter line with
      | error fault =>
          refine iff_of_false ?_ ?_
          · rintro ⟨middle, read, -⟩
            rw [readLine, parsed] at read
            cases read
          · rintro ⟨⟨⟨key, value, gives⟩, -⟩, -⟩
            cases parsed.symm.trans (parseLine_of_gives gives)
      | ok pair =>
          obtain ⟨key, value⟩ := pair
          have read : readLine spliter fields line = .ok (setField fields key value) := by rw [readLine, parsed]; rfl
          have here : ∃ key value, Gives spliter line key value := ⟨key, value, gives_of_parseLine parsed⟩
          have set (field : KeyedField) : setTo spliter field.key line =
              if field.key = key then some (value.take (maxValLength - 1)) else none := by rw [setTo, parsed]
          rw [read]
          simp only [Except.ok.injEq, exists_eq_left', ih, here, true_and, setField, List.map_map]
          refine and_congr_right fun _ => Eq.congr_right (List.map_congr_left fun field _ => ?_)
          rw [Function.comp_apply, set]
          by_cases same : field.key = key
          · simp only [if_pos same]
            cases lastWrite (setTo spliter field.key) rest <;> rfl
          · simp only [if_neg same, Option.or_none]

theorem getLast?_fgetsStrings (stream : Bytes) :
    (fgetsStrings maxLineLength stream).getLast? =
      (pieces newline (maxLineLength - 1) stream).getLast?.map cString := List.getLast?_map

/-- The line that is found once more is the last. -/
theorem rounds_eq (stream : Bytes) :
    rounds stream = fgetsStrings maxLineLength stream ∨
      ∃ last, (fgetsStrings maxLineLength stream).getLast? = some last ∧
        rounds stream = fgetsStrings maxLineLength stream ++ [last] := by
  have last := getLast?_fgetsStrings stream
  rw [rounds]
  cases found : (pieces newline (maxLineLength - 1) stream).getLast? with
  | none =>
      rw [found, Option.map_none, List.getLast?_eq_none_iff] at last
      exact .inl last.symm
  | some piece =>
      rw [found] at last
      simp only
      split
      · exact .inl rfl
      · exact .inr ⟨cString piece, last, rfl⟩

theorem mem_rounds_iff (stream : Bytes) : line ∈ rounds stream ↔ line ∈ fgetsStrings maxLineLength stream := by
  rcases rounds_eq stream with same | ⟨last, found, again⟩
  · rw [same]
  · rw [again, List.mem_append, List.mem_singleton, or_iff_left_of_imp]
    rintro rfl
    exact List.mem_of_getLast? found

theorem lastWrite_rounds (spliter : UInt8) (key stream : Bytes) :
    lastWrite (setTo spliter key) (rounds stream) = lastWrite (setTo spliter key) (fgetsStrings maxLineLength stream) := by
  rcases rounds_eq stream with same | ⟨last, found, again⟩
  · rw [same]
  · obtain ⟨front, whole⟩ := List.getLast?_eq_some_iff.mp found
    have one : lastWrite (setTo spliter key) [last] = setTo spliter key last := by rw [lastWrite_cons]; rfl
    rw [again, whole, lastWrite_append, lastWrite_append, one]
    cases setTo spliter key last <;> rfl

theorem setTo_eq_some_iff (fits : line.length < maxValLength) :
    setTo spliter key line = some value ↔ Gives spliter line key value := by
  rw [← parseLine_eq_ok_iff, setTo]
  cases parsed : parseLine spliter line with
  | error fault => simp
  | ok pair =>
      obtain ⟨named, val⟩ := pair
      obtain ⟨⟨blanks, close, whole, -⟩, -, -⟩ := gives_of_parseLine parsed
      have short : val.length ≤ maxValLength - 1 := by
        rw [whole] at fits
        simp only [List.length_append, List.length_cons] at fits
        omega
      simp only [List.take_of_length_le short, Except.ok.injEq, Prod.mk.injEq]
      by_cases same : key = named
      · simp [same]
      · simp [same, Ne.symm same]

theorem setTo_eq_none_iff (fits : line.length < maxValLength) :
    setTo spliter key line = none ↔ ∀ value, ¬ Gives spliter line key value := by
  rw [Option.eq_none_iff_forall_ne_some]
  exact forall_congr' fun value => not_congr (setTo_eq_some_iff fits)

theorem told_iff (fits : ∀ line ∈ lines, line.length < maxValLength) :
    Told spliter lines key value ↔ (lastWrite (setTo spliter key) lines).getD [] = value := by
  constructor
  case mp =>
      rintro (⟨before, line, after, rfl, gives, silent⟩ | ⟨rfl, silent⟩)
      · have written : setTo spliter key line = some value := (setTo_eq_some_iff (fits line (by simp))).mpr gives
        have behind : ∀ other ∈ after, setTo spliter key other = none := fun other member =>
          (setTo_eq_none_iff (fits other (by simp [member]))).mpr (silent other member)
        rw [lastWrite_eq_some_iff.mpr ⟨before, line, after, rfl, written, behind⟩]
        rfl
      · rw [lastWrite_eq_none_iff.mpr fun line member => (setTo_eq_none_iff (fits line member)).mpr (silent line member)]
        rfl
  case mpr =>
      rintro rfl
      cases last : lastWrite (setTo spliter key) lines with
      | none =>
          have silent := lastWrite_eq_none_iff.mp last
          exact .inr ⟨rfl, fun line member => (setTo_eq_none_iff (fits line member)).mp (silent line member)⟩
      | some value =>
          obtain ⟨before, line, after, rfl, written, behind⟩ := lastWrite_eq_some_iff.mp last
          refine .inl ⟨before, line, after, rfl, (setTo_eq_some_iff (fits line (by simp))).mp written, fun other member => ?_⟩
          exact (setTo_eq_none_iff (fits other (by simp [member]))).mp (behind other member)

/-- The probe prints its record just when each line of the file gives something,
and then what the last line of each key gives; the line that it finds twice makes
no difference. -/
theorem probeMain_eq_ok_iff (file : KeyedFile) (stream text : Bytes) :
    probeMain file (some stream) = .ok text ↔
      stream ≠ [] ∧
        (∀ line ∈ fgetsStrings maxLineLength stream, ∃ key value, Gives file.spliter line key value) ∧
        ∃ values, List.Forall₂ (Told file.spliter (fgetsStrings maxLineLength stream)) file.keys values ∧
          text = probeLine file.name values true := by
  have fits : ∀ line ∈ fgetsStrings maxLineLength stream, line.length < maxValLength := fun line member =>
    Nat.lt_of_le_of_lt (length_le_of_mem_fgetsStrings (by decide) member).1 (by decide)
  let last (key : Bytes) : Bytes := (lastWrite (setTo file.spliter key) (fgetsStrings maxLineLength stream)).getD []
  have told (values : List Bytes) :
      List.Forall₂ (Told file.spliter (fgetsStrings maxLineLength stream)) file.keys values ↔ file.keys.map last = values := by
    rw [← List.forall₂_eq_eq_eq, List.forall₂_map_left_iff]
    exact ⟨fun each => each.imp fun _ _ => (told_iff fits).mp, fun each => each.imp fun _ _ => (told_iff fits).mpr⟩
  have printed : printRecords file.name ((file.keys.map fun key => ({ key } : KeyedField)).map fun field =>
      { field with val := (lastWrite (setTo file.spliter field.key) (rounds stream)).getD field.val }) =
        probeLine file.name (file.keys.map last) true := by
    rw [printRecords, List.map_map, List.map_map]
    refine congrArg (fun values => probeLine file.name values true) (List.map_congr_left fun key _ => ?_)
    exact congrArg (fun written => Option.getD written []) (lastWrite_rounds file.spliter key stream)
  rw [probeMain]
  by_cases empty : stream = []
  · rw [if_pos empty]
    exact iff_of_false nofun fun both => both.1 empty
  · rw [if_neg empty, Outcome.bind_ok_iff]
    simp only [foldlM_readLine, mem_rounds_iff, told, exists_eq_left', ne_eq, empty, not_false_eq_true, true_and]
    constructor
    · rintro ⟨fields, ⟨readable, rfl⟩, given⟩
      cases given
      exact ⟨readable, printed⟩
    · rintro ⟨readable, rfl⟩
      exact ⟨_, ⟨readable, rfl⟩, congrArg Except.ok printed⟩

example : probeMain systemMeminfo (some (ascii "MemTotal:  16 kB\nSlab: 3 kB\nMemFree: 5 kB\n")) =
    .ok (ascii "|system_meminfo|16 kB|5 kB|||||||\n") := by decide +kernel

end GalaGopher.Probe.SystemMeminfo

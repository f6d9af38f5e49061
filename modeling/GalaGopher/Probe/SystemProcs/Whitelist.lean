import GalaGopher.Probe.SystemProcs
import GalaGopher.Text.Lines
import GalaGopher.Text.Search

namespace GalaGopher.Probe

open GalaGopher.Text

/-- The array `proc_range`, and what is written behind it, with the number of
the place. -/
structure ProcRange where
  names : Vector Bytes 14
  beyond : List (Nat × Bytes) := []

def procRange : ProcRange where
  names := #v[ascii "go", ascii "java", ascii "python", ascii "python3", ascii "nginx", ascii "redis",
    ascii "redis-server", ascii "redis-client", ascii "redis-cli", ascii "dhclient", ascii "NetworkManager",
    ascii "dbus", ascii "rpcbind", ascii "systemd"]

def ProcRange.write (range : ProcRange) (place : Nat) (name : Bytes) : ProcRange :=
  if inside : place < 14 then { range with names := range.names.set place name }
  else { range with beyond := range.beyond ++ [(place, name)] }

/-- One turn of the loop in `system_proc_init`, with `len`. -/
def addName (state : Nat × ProcRange) (line : Bytes) : Nat × ProcRange :=
  let line := splitNewlineSymbol line
  if line.length = 0 then state
  else (state.1 + 1, state.2.write state.1 (line.take (procNameMax - 1)))

/-- No whitelist is one that is not given or cannot be opened. -/
def systemProcInit (taskWhitelist : Option Bytes) (range : ProcRange) : ProcRange :=
  match taskWhitelist with
  | none => range
  | some file => ((fgetsStrings procNameMax file).foldl addName (range.names.size, range)).2

def checkProcProbeFlag (range : ProcRange) (comm : Bytes) : Int32 :=
  if range.names.toList.any fun name => (strstr comm name).isSome then 1 else 0

theorem checkProcProbeFlag_eq_one_iff (range : ProcRange) (comm : Bytes) :
    checkProcProbeFlag range comm = 1 ↔ ∃ name ∈ range.names.toList, name <:+: comm := by
  have found : (range.names.toList.any fun name => (strstr comm name).isSome) = true ↔
      ∃ name ∈ range.names.toList, name <:+: comm := by
    simp only [List.any_eq_true, strstr_isSome_iff]
  rw [← found, checkProcProbeFlag]
  split
  case isTrue holds => exact iff_of_true rfl holds
  case isFalse fails => exact iff_of_false (by decide) fails

variable {range : ProcRange}

theorem addName_blank {line : Bytes} (blank : splitNewlineSymbol line = []) (state : Nat × ProcRange) :
    addName state line = state := by
  simp [addName, blank]

theorem addName_beyond {line : Bytes} (filled : splitNewlineSymbol line ≠ []) {place : Nat} (full : 14 ≤ place) :
    addName (place, range) line =
      (place + 1, { range with
        beyond := range.beyond ++ [(place, (splitNewlineSymbol line).take (procNameMax - 1))] }) := by
  have some : ¬(splitNewlineSymbol line).length = 0 := by simpa using filled
  simp only [addName, if_neg some, ProcRange.write, dif_neg (Nat.not_lt.mpr full)]

/-- The names in the lines, with the places from `place` on. -/
def additions (place : Nat) (lines : List Bytes) : List (Nat × Bytes) :=
  (((lines.map splitNewlineSymbol).filter fun name => name ≠ []).zipIdx place).map fun entry =>
    (entry.2, entry.1.take (procNameMax - 1))

/-- The array is full before the first line is read. -/
theorem foldl_addName (lines : List Bytes) {place : Nat} (full : 14 ≤ place) (range : ProcRange) :
    (lines.foldl addName (place, range)).2 = { range with beyond := range.beyond ++ additions place lines } := by
  induction lines generalizing place range with
  | nil =>
      rw [additions, List.map_nil, List.filter_nil, List.zipIdx_nil, List.map_nil, List.append_nil]
      rfl
  | cons line lines ih =>
      rw [List.foldl_cons]
      by_cases blank : splitNewlineSymbol line = []
      · have same : additions place (line :: lines) = additions place lines := by
          rw [additions, List.map_cons, List.filter_cons_of_neg (by simpa using blank)]
          rfl
        rw [addName_blank blank, ih full, same]
      · have more : additions place (line :: lines) =
            (place, (splitNewlineSymbol line).take (procNameMax - 1)) :: additions (place + 1) lines := by
          rw [additions, List.map_cons, List.filter_cons_of_pos (by simpa using blank), List.zipIdx_cons, List.map_cons]
          rfl
        rw [addName_beyond blank full, ih (Nat.le_succ_of_le full), more, List.append_assoc, List.singleton_append]

theorem systemProcInit_eq (file : Bytes) (range : ProcRange) :
    systemProcInit (some file) range =
      { range with beyond := range.beyond ++ additions 14 (fgetsStrings procNameMax file) } :=
  foldl_addName _ (Nat.le_refl 14) range

/-- A whitelist changes no flag. -/
theorem checkProcProbeFlag_systemProcInit (taskWhitelist : Option Bytes) (range : ProcRange) (comm : Bytes) :
    checkProcProbeFlag (systemProcInit taskWhitelist range) comm = checkProcProbeFlag range comm := by
  cases taskWhitelist with
  | none => rfl
  | some file =>
      rw [systemProcInit_eq]
      rfl

structure ListedName where
  text : Bytes
  filled : text ≠ []
  lineal : Lineal text
  short : text.length < procNameMax

/-- The newline of the last line may be missing. -/
def whitelistText (names : List ListedName) (closed : Bool) : Bytes :=
  let text := printLines (names.map ListedName.text)
  if closed then text else text.dropLast

/-- A name of 63 bytes leaves its newline to the next call. -/
theorem names_closed (name : ListedName) (rest : Bytes) :
    ((fgetsStrings procNameMax (name.text ++ newline :: rest)).map splitNewlineSymbol).filter (fun line => line ≠ []) =
      name.text :: ((fgetsStrings procNameMax rest).map splitNewlineSymbol).filter fun line => line ≠ [] := by
  have size : procNameMax - 1 = 63 := rfl
  have short := name.short
  rcases Nat.lt_or_eq_of_le (Nat.le_sub_one_of_lt short) with fits | exact
  · rw [fgetsStrings_closed name.lineal fits, List.map_cons, splitNewlineSymbol_closed,
      List.filter_cons_of_pos (by simpa using name.filled)]
  · have empty : Lineal [] := ⟨List.not_mem_nil, List.not_mem_nil⟩
    have next : fgetsStrings procNameMax (newline :: rest) = [newline] :: fgetsStrings procNameMax rest :=
      fgetsStrings_closed empty (by decide) rest
    have blank : splitNewlineSymbol [newline] = [] := splitNewlineSymbol_closed []
    rw [fgetsStrings_full name.lineal (by decide) exact, next, List.map_cons, List.map_cons,
      splitNewlineSymbol_eq name.lineal.unbroken, blank,
      List.filter_cons_of_pos (by simpa using name.filled), List.filter_cons_of_neg (by simp)]

theorem names_last (name : ListedName) :
    ((fgetsStrings procNameMax name.text).map splitNewlineSymbol).filter (fun line => line ≠ []) = [name.text] := by
  have kept : [name.text].filter (fun line => line ≠ []) = [name.text] :=
    List.filter_eq_self.mpr (by simpa using name.filled)
  rcases Nat.lt_or_eq_of_le (Nat.le_sub_one_of_lt name.short) with fits | exact
  · rw [fgetsStrings_last name.lineal name.filled fits, List.map_singleton, splitNewlineSymbol_eq name.lineal.unbroken, kept]
  · have full := fgetsStrings_full name.lineal (by decide) exact []
    rw [List.append_nil, fgetsStrings_nil] at full
    rw [full, List.map_singleton, splitNewlineSymbol_eq name.lineal.unbroken, kept]

theorem names_whitelistText (names : List ListedName) (closed : Bool) :
    ((fgetsStrings procNameMax (whitelistText names closed)).map splitNewlineSymbol).filter (fun line => line ≠ []) =
      names.map ListedName.text := by
  induction names with
  | nil => cases closed <;> rfl
  | cons name names ih =>
      cases closed with
      | true =>
          have step : whitelistText (name :: names) true = name.text ++ newline :: whitelistText names true :=
            printLines_cons _ _
          rw [step, names_closed, ih, List.map_cons]
      | false =>
          cases names with
          | nil =>
              have only : whitelistText [name] false = name.text := by
                have text : whitelistText [name] false = (name.text ++ [newline] ++ []).dropLast := rfl
                rw [text, List.append_nil, List.dropLast_concat]
              rw [only, names_last]
              rfl
          | cons next names =>
              have step : whitelistText (name :: next :: names) false =
                  name.text ++ newline :: whitelistText (next :: names) false := by
                have filled : printLines ((next :: names).map ListedName.text) ≠ [] := by
                  rw [List.map_cons, printLines_cons]
                  exact List.append_ne_nil_of_right_ne_nil _ (List.cons_ne_nil _ _)
                have text : whitelistText (name :: next :: names) false =
                    (printLines (name.text :: (next :: names).map ListedName.text)).dropLast := rfl
                rw [text, printLines_cons, List.dropLast_append_of_ne_nil (List.cons_ne_nil _ _),
                  List.dropLast_cons_of_ne_nil filled]
                rfl
              rw [step, names_closed, ih]
              rfl

/-- The flag is set for the names of both, and nothing is written outside. -/
structure Extends (range : ProcRange) (listed : List Bytes) : Prop where
  flag : ∀ comm, checkProcProbeFlag range comm = 1 ↔
    (∃ name ∈ procRange.names.toList, name <:+: comm) ∨ ∃ name ∈ listed, name <:+: comm
  inside : range.beyond = []

theorem whitelist_extends_iff (names : List ListedName) (closed : Bool) :
    Extends (systemProcInit (some (whitelistText names closed)) procRange) (names.map ListedName.text) ↔
      names = [] := by
  constructor
  · intro extended
    have outside := extended.inside
    rw [systemProcInit_eq, additions, names_whitelistText] at outside
    cases names with
    | nil => rfl
    | cons name names =>
        rw [List.map_cons, List.zipIdx_cons, List.map_cons] at outside
        exact absurd outside (List.append_ne_nil_of_right_ne_nil _ (List.cons_ne_nil _ _))
  · rintro rfl
    refine ⟨fun comm => ?_, ?_⟩
    · rw [checkProcProbeFlag_systemProcInit, checkProcProbeFlag_eq_one_iff]
      simp
    · cases closed <;> rfl

def tomcat : ListedName where
  text := ascii "tomcat"
  filled := by decide
  lineal := ⟨by decide, by decide⟩
  short := by decide

/-- The one name of a file is written behind the array, and not found. -/
theorem listed_name_unprobed :
    let range := systemProcInit (some (whitelistText [tomcat] true)) procRange
    whitelistText [tomcat] true = ascii "tomcat\n" ∧ range.beyond = [(14, ascii "tomcat")] ∧
      checkProcProbeFlag range (ascii "tomcat") = 0 ∧ ¬Extends range [ascii "tomcat"] := by
  have written : (systemProcInit (some (whitelistText [tomcat] true)) procRange).beyond = [(14, ascii "tomcat")] := by
    rw [systemProcInit_eq, additions, names_whitelistText]
    rfl
  have unset : checkProcProbeFlag procRange (ascii "tomcat") = 0 := by decide +kernel
  refine ⟨rfl, written, ?_, fun extended => ?_⟩
  · rw [checkProcProbeFlag_systemProcInit, unset]
  · rw [extended.inside] at written
    cases written

end GalaGopher.Probe

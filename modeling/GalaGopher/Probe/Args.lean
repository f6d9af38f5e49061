import GalaGopher.Text.Memory
import GalaGopher.Text.Options
import Mathlib.Data.List.TakeWhile

namespace GalaGopher.Probe

open Text

/-! The options of the probes, out of the argument vector of an extended probe
or out of the one parameter string of a native probe. -/

def outPutPeriodMax : UInt32 := 120

def outPutPeriodMin : UInt32 := 1

def maxParamLen : Nat := 128

def filterByTaskprobe : Bytes := ascii "task"

def maxPathLen : Nat := 512

def blockName : Nat := 32

def defaultPeriod : UInt32 := 5

@[ext]
structure ProbeParams where
  period : UInt32 := defaultPeriod
  latencyThr : UInt32 := 0
  jitterThr : UInt32 := 0
  offlineThr : UInt32 := 0
  dropsCountThr : UInt32 := 0
  filterPid : UInt32 := 0
  logs : Bool := false
  filterTaskProbe : Bool := false
  resPercentUpper : Int8 := 0
  resPercentLower : Int8 := 0
  cportFlag : UInt8 := 0
  filterBlock : Memory blockName := fun _ => 0
  elfPath : Memory maxPathLen := fun _ => 0
  taskWhitelist : Memory maxPathLen := fun _ => 0
  netcardList : Memory maxPathLen := fun _ => 0

/-- `__set_default_params` -/
def defaultParams : ProbeParams := {}

/-- `snprintf` with "%s"; what lies behind the terminator stays. -/
def printPath (path : Memory maxPathLen) (arg : Bytes) : Memory maxPathLen :=
  path.copyAt 0 (arg.take (maxPathLen - 1) ++ [0])

/-- `strncpy`, which fills up with zeros. -/
def copyBlock (block : Memory blockName) (arg : Bytes) : Memory blockName :=
  block.copyAt 0 ((arg ++ List.replicate (blockName - 1) 0).take (blockName - 1))

def filterArgParse (arg : Bytes) (params : ProbeParams) : ProbeParams :=
  if arg = filterByTaskprobe then { params with filterTaskProbe := true }
  else if arg.all isDigit then { params with filterPid := (atoi arg).toUInt32 }
  else { params with filterBlock := copyBlock params.filterBlock arg }

def letter (character : Char) : UInt8 := UInt8.ofNat character.toNat

/-- `__OPT_S`, in which a colon follows each of these. -/
def optS : Bytes := ['t', 'T', 'J', 'O', 'D', 'F', 'l', 'U', 'L', 'c', 'p', 'w', 'n'].map letter

/-- `char` is signed, and so is the rest that `%` leaves. -/
def percentOf (arg : Bytes) : Int8 := (atoi arg).toInt8 % 100

/-- `none` is the return of -1. -/
def periodArgParse (opt : UInt8) (arg : Bytes) (params : ProbeParams) : Option ProbeParams :=
  if opt = letter 't' then
    let interval := (atoi arg).toUInt32
    if interval < outPutPeriodMin ∨ interval > outPutPeriodMax then none
    else some { params with period := interval }
  else if opt = letter 'p' then some { params with elfPath := printPath params.elfPath arg }
  else if opt = letter 'w' then some { params with taskWhitelist := printPath params.taskWhitelist arg }
  else if opt = letter 'c' then
    let cportFlag := (atoi arg).toUInt32
    if cportFlag ≠ 0 ∧ cportFlag ≠ 1 then none
    else some { params with cportFlag := cportFlag.toUInt8 }
  else if opt = letter 'T' then some { params with latencyThr := (atoi arg).toUInt32 }
  else if opt = letter 'J' then some { params with jitterThr := (atoi arg).toUInt32 }
  else if opt = letter 'O' then some { params with offlineThr := (atoi arg).toUInt32 }
  else if opt = letter 'D' then some { params with dropsCountThr := (atoi arg).toUInt32 }
  else if opt = letter 'U' then some { params with resPercentUpper := percentOf arg }
  else if opt = letter 'L' then some { params with resPercentLower := percentOf arg }
  else if opt = letter 'F' then some (filterArgParse arg params)
  else if opt = letter 'l' then some { params with logs := true }
  else if opt = letter 'n' then some { params with netcardList := printPath params.netcardList arg }
  else none

/-- The loop of `__args_parse` over what `getopt` returns. -/
def argsLoop : List (UInt8 × Option Bytes) → ProbeParams → Option ProbeParams
  | [], params => some params
  | (_, none) :: _, _ => none
  | (ch, some optarg) :: rest, params => (periodArgParse ch optarg params).bind (argsLoop rest)

/-- `argv` is without the program. -/
def argsParse (argv : List Bytes) : Option ProbeParams := argsLoop (getopt optS argv) defaultParams

/-- What is behind the letter, without blanks. -/
def paramsValParse (p : Bytes) : Bytes :=
  (((p.drop 1).takeWhile fun byte => byte ≠ dash).filter fun byte => byte ≠ space).take maxParamLen

/-- An option as `__period_arg_parse` is given it. -/
structure ProbeOption where
  opt : UInt8
  arg : Bytes

def ProbeOption.ofToken (p : Bytes) : ProbeOption := ⟨p.headD 0, paramsValParse p⟩

/-- `__period_arg_parse` for one option after the other, up to one that fails. -/
def setOptions : List ProbeOption → ProbeParams → Option ProbeParams
  | [], params => some params
  | option :: rest, params => (periodArgParse option.opt option.arg params).bind (setOptions rest)

/-- A string that leaves no room for its terminator is copied past the end of
`temp`. -/
def paramsParse (s : Bytes) : Outcome (Option ProbeParams) :=
  if s.length < maxParamLen then .ok (setOptions ((strtok s dash).map .ofToken) defaultParams)
  else .error .undefined

def ProbeOption.elements (option : ProbeOption) : List Bytes := [[dash, option.opt], option.arg]

def argumentVector (options : List ProbeOption) : List Bytes := (options.map ProbeOption.elements).flatten

def ProbeOption.text (option : ProbeOption) : Bytes := option.opt :: space :: option.arg

def joined : List ProbeOption → Bytes
  | [] => []
  | [option] => dash :: option.text
  | option :: next :: rest => dash :: option.text ++ space :: joined (next :: rest)

/-- An option with a value of printable characters. -/
structure ProbeOption.Written (option : ProbeOption) : Prop where
  opt : option.opt ≠ dash
  filled : option.arg ≠ []
  printable : ∀ byte ∈ option.arg, 33 ≤ byte ∧ byte ≤ 126

/-- The options that stand in the joined text, where every dash begins one. -/
def cutOptions : List ProbeOption → List ProbeOption
  | [] => []
  | [option] => (strtok option.text dash).map .ofToken
  | option :: next :: rest =>
      (strtok (option.text ++ [space]) dash).map .ofToken ++ cutOptions (next :: rest)

variable {options : List ProbeOption} {option : ProbeOption} {params : ProbeParams} {opt : UInt8} {arg : Bytes}

theorem periodArgParse_unknown (unknown : opt ∉ optS) : periodArgParse opt arg params = none := by
  simp only [optS, List.map_cons, List.map_nil, List.mem_cons, List.not_mem_nil, or_false, not_or] at unknown
  simp only [periodArgParse, unknown, if_false]

theorem argsLoop_eq (written : ∀ option ∈ options, option.Written) :
    argsLoop (getopt optS (argumentVector options)) params = setOptions options params := by
  induction options generalizing params with
  | nil => rfl
  | cons option rest ih =>
      have plain := (written option List.mem_cons_self).opt
      have later : ∀ params, argsLoop (getopt optS (argumentVector rest)) params = setOptions rest params :=
        fun _ => ih fun option member => written option (List.mem_cons_of_mem _ member)
      have elements : argumentVector (option :: rest) = [dash, option.opt] :: option.arg :: argumentVector rest := rfl
      rw [elements, setOptions]
      by_cases known : option.opt ∈ optS
      · rw [getopt_known known plain, argsLoop, funext later]
      · rw [getopt_unknown known plain, periodArgParse_unknown known]
        rfl

/-- The dash in front of a text makes no token. -/
theorem strtok_dash (text : Bytes) : strtok (dash :: text) dash = strtok text dash :=
  strtok_append [] text dash

theorem joined_dash (option : ProbeOption) (rest : List ProbeOption) :
    ∃ text, joined (option :: rest) = dash :: text := by
  cases rest with
  | nil => exact ⟨_, rfl⟩
  | cons next rest => exact ⟨_, rfl⟩

theorem strtok_joined (options : List ProbeOption) :
    (strtok (joined options) dash).map .ofToken = cutOptions options := by
  induction options with
  | nil => rfl
  | cons option rest ih =>
      cases rest with
      | nil => rw [joined, strtok_dash, cutOptions]
      | cons next rest =>
          obtain ⟨text, begins⟩ := joined_dash next rest
          have same : dash :: option.text ++ space :: joined (next :: rest) =
              dash :: ((option.text ++ [space]) ++ dash :: text) := by
            rw [begins, List.append_assoc]
            rfl
          rw [joined, same, strtok_dash, strtok_append, List.map_append, cutOptions, ← ih, begins, strtok_dash]

theorem paramsParse_joined (short : (joined options).length < maxParamLen) :
    paramsParse (joined options) = .ok (setOptions (cutOptions options) defaultParams) := by
  rw [paramsParse, if_pos short, strtok_joined]

def ProbeOption.Whole (option : ProbeOption) : Prop := dash ∉ option.arg

theorem ProbeOption.Written.unspaced (written : option.Written) : ∀ byte ∈ option.arg, byte ≠ space := by
  intro byte member same
  have lower := (written.printable byte member).1
  rw [same] at lower
  exact absurd lower (by decide)

theorem ofToken_whole (blanks : Bytes) (written : option.Written) (whole : option.Whole)
    (short : option.arg.length ≤ maxParamLen) (blank : ∀ byte ∈ blanks, byte = space) :
    (strtok (option.text ++ blanks) dash).map .ofToken = [option] := by
  have undashed : ∀ byte ∈ space :: (option.arg ++ blanks), byte ≠ dash := by
    intro byte member same
    rcases List.mem_cons.mp member with first | later
    · rw [same] at first
      exact absurd first (by decide)
    · rcases List.mem_append.mp later with inArg | inBlanks
      · exact whole (same ▸ inArg)
      · exact absurd (same.symm.trans (blank byte inBlanks)) (by decide)
  have free : dash ∉ option.text ++ blanks := by
    intro member
    rcases List.mem_cons.mp member with first | later
    · exact written.opt first.symm
    · exact undashed dash later rfl
  have unblanked : blanks.filter (fun byte => byte ≠ space) = [] := by
    rw [List.filter_eq_nil_iff]
    intro byte member
    simp [blank byte member]
  have kept : option.arg.filter (fun byte => byte ≠ space) = option.arg := by
    rw [List.filter_eq_self]
    intro byte member
    simpa using written.unspaced byte member
  have value : paramsValParse (option.text ++ blanks) = option.arg := by
    have behind : (option.text ++ blanks).drop 1 = space :: (option.arg ++ blanks) := rfl
    rw [paramsValParse, behind, List.takeWhile_eq_self_iff.mpr (by simpa using undashed),
      List.filter_cons_of_neg (by simp), List.filter_append, kept, unblanked, List.append_nil,
      List.take_of_length_le short]
  rw [strtok_whole free (by simp [ProbeOption.text]), List.map_singleton, ProbeOption.ofToken, value]
  rfl

theorem length_arg_le (member : option ∈ options) : option.arg.length ≤ (joined options).length := by
  induction options with
  | nil => cases member
  | cons first rest ih =>
      cases rest with
      | nil =>
          rw [List.mem_singleton.mp member]
          simp only [joined, ProbeOption.text, List.length_cons]
          omega
      | cons next rest =>
          simp only [joined, ProbeOption.text, List.length_cons, List.length_append]
          rcases List.mem_cons.mp member with same | later
          · rw [same]
            omega
          · have inRest := ih later
            omega

theorem cutOptions_whole (written : ∀ option ∈ options, option.Written) (whole : ∀ option ∈ options, option.Whole)
    (short : ∀ option ∈ options, option.arg.length ≤ maxParamLen) : cutOptions options = options := by
  induction options with
  | nil => rfl
  | cons option rest ih =>
      have first := fun blanks => ofToken_whole blanks (written _ List.mem_cons_self)
        (whole _ List.mem_cons_self) (short _ List.mem_cons_self)
      cases rest with
      | nil =>
          have alone := first [] (by simp)
          rwa [List.append_nil] at alone
      | cons next rest =>
          have later := ih (fun option member => written option (List.mem_cons_of_mem _ member))
            (fun option member => whole option (List.mem_cons_of_mem _ member))
            (fun option member => short option (List.mem_cons_of_mem _ member))
          rw [cutOptions, first [space] (by simp), later]
          rfl

end GalaGopher.Probe

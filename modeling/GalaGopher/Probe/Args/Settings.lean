import GalaGopher.Data.LastWrite
import GalaGopher.Probe.Args

namespace GalaGopher.Probe

open Data Text

/-! What a list of options leaves in each parameter: what the last option that
sets it sets there. -/

structure ProbeOption.Accepted (option : ProbeOption) : Prop where
  known : option.opt ∈ optS
  period : option.opt = letter 't' →
    outPutPeriodMin ≤ (atoi option.arg).toUInt32 ∧ (atoi option.arg).toUInt32 ≤ outPutPeriodMax
  cportFlag : option.opt = letter 'c' → (atoi option.arg).toUInt32 = 0 ∨ (atoi option.arg).toUInt32 = 1

/-- What the option sets if its letter is `opt`. -/
def ProbeOption.given {Value : Type} (opt : UInt8) (value : Bytes → Option Value) (option : ProbeOption) :
    Option Value :=
  if option.opt = opt then value option.arg else none

def numberValue (arg : Bytes) : Option UInt32 := some (atoi arg).toUInt32

def percentValue (arg : Bytes) : Option Int8 := some (percentOf arg)

def flagValue (arg : Bytes) : Option UInt8 := some (atoi arg).toUInt32.toUInt8

def logsValue (_ : Bytes) : Option Bool := some true

def taskFilterValue (arg : Bytes) : Option Bool := if arg = filterByTaskprobe then some true else none

def pidFilterValue (arg : Bytes) : Option UInt32 :=
  if arg ≠ filterByTaskprobe ∧ arg.all isDigit then numberValue arg else none

def blockFilterValue (place : Fin blockName) (arg : Bytes) : Option UInt8 :=
  if arg ≠ filterByTaskprobe ∧ ¬arg.all isDigit then
    ((arg ++ List.replicate (blockName - 1) 0).take (blockName - 1))[place.val]?
  else none

def pathValue (place : Fin maxPathLen) (arg : Bytes) : Option UInt8 := (arg.take (maxPathLen - 1) ++ [0])[place.val]?

/-- The value of the last option with this letter. -/
def lastGiven (opt : UInt8) (options : List ProbeOption) : Option Bytes := lastWrite (ProbeOption.given opt some) options

def ProbeOption.set (params : ProbeParams) (option : ProbeOption) : ProbeParams where
  period := (option.given (letter 't') numberValue).getD params.period
  latencyThr := (option.given (letter 'T') numberValue).getD params.latencyThr
  jitterThr := (option.given (letter 'J') numberValue).getD params.jitterThr
  offlineThr := (option.given (letter 'O') numberValue).getD params.offlineThr
  dropsCountThr := (option.given (letter 'D') numberValue).getD params.dropsCountThr
  filterPid := (option.given (letter 'F') pidFilterValue).getD params.filterPid
  logs := (option.given (letter 'l') logsValue).getD params.logs
  filterTaskProbe := (option.given (letter 'F') taskFilterValue).getD params.filterTaskProbe
  resPercentUpper := (option.given (letter 'U') percentValue).getD params.resPercentUpper
  resPercentLower := (option.given (letter 'L') percentValue).getD params.resPercentLower
  cportFlag := (option.given (letter 'c') flagValue).getD params.cportFlag
  filterBlock := fun place => (option.given (letter 'F') (blockFilterValue place)).getD (params.filterBlock place)
  elfPath := fun place => (option.given (letter 'p') (pathValue place)).getD (params.elfPath place)
  taskWhitelist := fun place => (option.given (letter 'w') (pathValue place)).getD (params.taskWhitelist place)
  netcardList := fun place => (option.given (letter 'n') (pathValue place)).getD (params.netcardList place)

variable {options : List ProbeOption} {option : ProbeOption} {params result : ProbeParams}

theorem copyAt_front {size : Nat} (memory : Memory size) (data : Bytes) :
    memory.copyAt 0 data = fun place => data[place.val]?.getD (memory place) := by
  funext place
  rw [Memory.copyAt, if_pos (Nat.zero_le _), List.getD_eq_getElem?_getD, Nat.sub_zero]

theorem printPath_eq (path : Memory maxPathLen) (arg : Bytes) :
    printPath path arg = fun place => (pathValue place arg).getD (path place) :=
  copyAt_front path _

theorem copyBlock_eq (block : Memory blockName) (arg : Bytes) :
    copyBlock block arg =
      fun place => ((arg ++ List.replicate (blockName - 1) 0).take (blockName - 1))[place.val]?.getD (block place) :=
  copyAt_front block _

theorem filterArgParse_eq (arg : Bytes) (params : ProbeParams) :
    filterArgParse arg params = ProbeOption.set params ⟨letter 'F', arg⟩ := by
  rw [filterArgParse]
  by_cases task : arg = filterByTaskprobe
  · rw [if_pos task]
    simp [ProbeOption.set, ProbeOption.given, letter, taskFilterValue, pidFilterValue, blockFilterValue, task]
  · rw [if_neg task]
    by_cases digits : arg.all isDigit
    · rw [if_pos digits]
      simp [ProbeOption.set, ProbeOption.given, letter, taskFilterValue, pidFilterValue, blockFilterValue, task, digits,
        numberValue]
    · rw [if_neg digits, copyBlock_eq]
      simp [ProbeOption.set, ProbeOption.given, letter, taskFilterValue, pidFilterValue, blockFilterValue, task, digits]

theorem periodArgParse_accepted (accepted : option.Accepted) :
    periodArgParse option.opt option.arg params = some (option.set params) := by
  obtain ⟨opt, arg⟩ := option
  obtain ⟨known, period, cportFlag⟩ := accepted
  rcases eq_or_ne opt (letter 't') with rfl | otherThanPeriod
  · obtain ⟨lower, upper⟩ := period rfl
    have inside : ¬((atoi arg).toUInt32 < outPutPeriodMin ∨ (atoi arg).toUInt32 > outPutPeriodMax) := by
      rintro (below | above)
      · exact absurd lower (UInt32.not_le.mpr below)
      · exact absurd upper (UInt32.not_le.mpr above)
    simp [periodArgParse, inside, ProbeOption.set, ProbeOption.given, letter, numberValue]
  rcases eq_or_ne opt (letter 'c') with rfl | otherThanFlag
  · have binary : ¬((atoi arg).toUInt32 ≠ 0 ∧ (atoi arg).toUInt32 ≠ 1) := by
      rintro ⟨notZero, notOne⟩
      exact (cportFlag rfl).elim notZero notOne
    simp [periodArgParse, binary, ProbeOption.set, ProbeOption.given, letter, flagValue]
  rcases eq_or_ne opt (letter 'F') with rfl | otherThanFilter
  · simp [periodArgParse, filterArgParse_eq, letter]
  -- the other letters take every value
  simp only [optS, List.map_cons, List.map_nil, List.mem_cons, List.not_mem_nil, or_false] at known
  rcases known with rfl | rfl | rfl | rfl | rfl | rfl | rfl | rfl | rfl | rfl | rfl | rfl | rfl
  all_goals first
    | contradiction
    | simp [periodArgParse, printPath_eq, ProbeOption.set, ProbeOption.given, letter, numberValue, percentValue,
        logsValue]

theorem accepted_of_parsed (parsed : periodArgParse option.opt option.arg params = some result) : option.Accepted where
  known := by
    by_contra unknown
    rw [periodArgParse_unknown unknown] at parsed
    cases parsed
  period := by
    intro isPeriod
    rw [isPeriod, periodArgParse, if_pos rfl] at parsed
    by_contra outside
    have refused : (atoi option.arg).toUInt32 < outPutPeriodMin ∨ (atoi option.arg).toUInt32 > outPutPeriodMax := by
      rw [not_and_or] at outside
      exact outside.imp UInt32.not_le.mp UInt32.not_le.mp
    rw [if_pos refused] at parsed
    cases parsed
  cportFlag := by
    intro isFlag
    rw [isFlag, periodArgParse, if_neg (by decide), if_neg (by decide), if_neg (by decide), if_pos rfl] at parsed
    by_contra outside
    rw [if_pos (not_or.mp outside)] at parsed
    cases parsed

theorem periodArgParse_eq_some_iff :
    periodArgParse option.opt option.arg params = some result ↔ option.Accepted ∧ option.set params = result := by
  constructor
  · intro parsed
    have accepted := accepted_of_parsed parsed
    exact ⟨accepted, Option.some.inj ((periodArgParse_accepted accepted).symm.trans parsed)⟩
  · rintro ⟨accepted, same⟩
    rw [periodArgParse_accepted accepted, same]

theorem setOptions_eq_some_iff :
    setOptions options params = some result ↔
      (∀ option ∈ options, option.Accepted) ∧ options.foldl ProbeOption.set params = result := by
  induction options generalizing params with
  | nil => simp [setOptions]
  | cons option rest ih =>
      rw [setOptions, Option.bind_eq_some_iff, List.forall_mem_cons, List.foldl_cons]
      constructor
      · rintro ⟨next, parsed, later⟩
        obtain ⟨accepted, rfl⟩ := periodArgParse_eq_some_iff.mp parsed
        exact ⟨⟨accepted, (ih.mp later).1⟩, (ih.mp later).2⟩
      · rintro ⟨⟨accepted, others⟩, run⟩
        exact ⟨_, periodArgParse_accepted accepted, ih.mpr ⟨others, run⟩⟩

/-- What is left in a parameter after all options. -/
theorem parameter_left {Value : Type} {opt : UInt8} {value : Bytes → Option Value} (parameter : ProbeParams → Value)
    (one : ∀ params option,
      parameter (ProbeOption.set params option) = (option.given opt value).getD (parameter params))
    (options : List ProbeOption) :
    parameter (options.foldl ProbeOption.set defaultParams) =
      (lastWrite (ProbeOption.given opt value) options).getD (parameter defaultParams) :=
  lastWrite_foldl one options defaultParams

/-- A byte behind a dash begins an option. -/
theorem strtok_behind (front back : Bytes) {byte : UInt8} (other : byte ≠ dash) :
    ∃ token ∈ strtok (front ++ dash :: byte :: back) dash, token.head? = some byte := by
  suffices first : ∃ token ∈ strtok (byte :: back) dash, token.head? = some byte by
    obtain ⟨token, member, begins⟩ := first
    exact ⟨token, strtok_append front (byte :: back) dash ▸ List.mem_append_right _ member, begins⟩
  by_cases dashed : dash ∈ back
  · obtain ⟨before, after, rfl, free⟩ := List.eq_append_cons_of_mem dashed
    have whole : dash ∉ byte :: before := by simp [free, Ne.symm other]
    refine ⟨byte :: before, ?_, rfl⟩
    rw [← List.cons_append, strtok_append, strtok_whole whole (List.cons_ne_nil _ _)]
    exact List.mem_append_left _ (List.mem_singleton_self _)
  · have whole : dash ∉ byte :: back := by simp [dashed, Ne.symm other]
    refine ⟨byte :: back, ?_, rfl⟩
    rw [strtok_whole whole (List.cons_ne_nil _ _)]
    exact List.mem_singleton_self _

/-- The text of an option stands among the others with a blank behind it, unless
it is the last. -/
theorem mem_cutOptions {before after : List ProbeOption} {cut : ProbeOption}
    (member : cut ∈ (strtok (option.text ++ if after = [] then [] else [space]) dash).map .ofToken) :
    cut ∈ cutOptions (before ++ option :: after) := by
  induction before with
  | nil =>
      cases after with
      | nil => simpa [cutOptions] using member
      | cons next rest => exact List.mem_append_left _ (by simpa using member)
  | cons first before ih =>
      cases split : before ++ option :: after with
      | nil => simp at split
      | cons next rest =>
          rw [List.cons_append, split, cutOptions, ← split]
          exact List.mem_append_right _ ih

theorem known_behind {before after : List ProbeOption} {front back : Bytes} {byte : UInt8} (other : byte ≠ dash)
    (cut : ∀ piece ∈ cutOptions (before ++ option :: after), piece.Accepted)
    (text : (option.text ++ if after = [] then [] else [space]) = front ++ dash :: byte :: back) : byte ∈ optS := by
  obtain ⟨token, member, begins⟩ := strtok_behind front back other
  rw [← text] at member
  have accepted := cut _ (mem_cutOptions (List.mem_map_of_mem member))
  have letter : (ProbeOption.ofToken token).opt = byte := by
    rw [ProbeOption.ofToken, List.headD_eq_head?_getD, begins]
    rfl
  exact letter ▸ accepted.known

/-- No option that is cut out has a dash in its value. -/
theorem cutOptions_undashed (member : option ∈ cutOptions options) : dash ∉ option.arg := by
  rw [← strtok_joined] at member
  obtain ⟨token, -, rfl⟩ := List.mem_map.mp member
  intro dashed
  have within := List.mem_of_mem_filter (List.mem_of_mem_take dashed)
  simpa using List.mem_takeWhile_imp within

theorem pathValue_eq_some (place : Fin maxPathLen) {arg : Bytes} (short : arg.length < maxPathLen)
    (inside : place.val < arg.length) : pathValue place arg = some arg[place.val] := by
  rw [pathValue, List.take_of_length_le (by omega), List.getElem?_append_left inside, List.getElem?_eq_getElem inside]

theorem pathValue_undashed {place : Fin maxPathLen} {arg : Bytes} (undashed : dash ∉ arg) :
    pathValue place arg ≠ some dash := by
  intro written
  rcases List.mem_append.mp (List.mem_of_getElem? written) with front | closing
  · exact undashed (List.mem_of_mem_take front)
  · exact absurd (List.mem_singleton.mp closing) (by decide)

/-- A dash that is left in a path was not left by the options cut out. -/
theorem path_undashed {opt : UInt8} {path : ProbeParams → Memory maxPathLen}
    (one : ∀ place params option,
      path (ProbeOption.set params option) place = (option.given opt (pathValue place)).getD (path params place))
    (unset : ∀ place, path defaultParams place = 0)
    (left : (cutOptions options).foldl ProbeOption.set defaultParams = options.foldl ProbeOption.set defaultParams)
    (short : ∀ option ∈ options, option.arg.length < maxPathLen) : ∀ arg ∈ lastGiven opt options, dash ∉ arg := by
  intro arg last dashed
  obtain ⟨before, option, after, rfl, given, behind⟩ := lastWrite_eq_some_iff.mp last
  obtain ⟨here, same⟩ : option.opt = opt ∧ option.arg = arg := by
    rw [ProbeOption.given] at given
    split at given
    · rename_i here
      exact ⟨here, Option.some.inj given⟩
    · cases given
  obtain ⟨index, inside, found⟩ := List.getElem_of_mem dashed
  have fits : arg.length < maxPathLen := same ▸ short option (by simp)
  let place : Fin maxPathLen := ⟨index, Nat.lt_trans inside fits⟩
  have lasting : lastWrite (ProbeOption.given opt (pathValue place)) (before ++ option :: after) = some dash := by
    refine lastWrite_eq_some_iff.mpr ⟨before, option, after, rfl, ?_, fun other member => ?_⟩
    · rw [ProbeOption.given, if_pos here, same, pathValue_eq_some place fits inside, found]
    · have silent := behind other member
      rw [ProbeOption.given] at silent ⊢
      split
      · rename_i again
        rw [if_pos again] at silent
        cases silent
      · rfl
  have reached := congrArg (fun params => path params place) left
  rw [parameter_left (path · place) (one place), parameter_left (path · place) (one place), lasting, unset,
    Option.getD_some] at reached
  cases cut : lastWrite (ProbeOption.given opt (pathValue place)) (cutOptions (before ++ option :: after)) with
  | none =>
      rw [cut] at reached
      exact absurd reached (by decide)
  | some value =>
      rw [cut, Option.getD_some] at reached
      obtain ⟨other, member, written⟩ := exists_of_lastWrite cut
      rw [ProbeOption.given] at written
      split at written
      · exact pathValue_undashed (cutOptions_undashed member) (reached ▸ written)
      · cases written

/-- What a list with dashes in its values is bound to show if it is read alike
all the same: none ends a value before the last, none stands in front of
anything but a dash or the letter of an option, and none is left in a path. -/
structure DashesBound (options : List ProbeOption) : Prop where
  ends : ∀ before option next after, options = before ++ option :: next :: after → option.arg.getLast? ≠ some dash
  letters : ∀ option ∈ options, ∀ front byte back, option.arg = front ++ dash :: byte :: back → byte = dash ∨ byte ∈ optS
  paths : ∀ opt ∈ ['p', 'w', 'n'].map letter, ∀ arg ∈ lastGiven opt options, dash ∉ arg

theorem dashesBound_of_left (cut : ∀ option ∈ cutOptions options, option.Accepted)
    (left : (cutOptions options).foldl ProbeOption.set defaultParams = options.foldl ProbeOption.set defaultParams)
    (short : ∀ option ∈ options, option.arg.length < maxPathLen) : DashesBound options where
  ends := by
    rintro before option next after rfl ended
    obtain ⟨front, text⟩ := List.getLast?_eq_some_iff.mp ended
    have known : space ∈ optS := by
      refine known_behind (by decide) cut (show _ = (option.opt :: space :: front) ++ dash :: space :: [] from ?_)
      simp [ProbeOption.text, text]
    exact absurd known (by decide)
  letters := by
    intro option member front byte back text
    obtain ⟨before, after, rfl⟩ := List.append_of_mem member
    refine or_iff_not_imp_left.mpr fun other => ?_
    refine known_behind other cut (show _ = (option.opt :: space :: front) ++
      dash :: byte :: (back ++ if after = [] then [] else [space]) from ?_)
    simp [ProbeOption.text, text]
  paths := by
    simp only [List.map_cons, List.map_nil, List.forall_mem_cons]
    exact ⟨@path_undashed _ _ (·.elfPath) (fun _ _ _ => rfl) (fun _ => rfl) left short,
      @path_undashed _ _ (·.taskWhitelist) (fun _ _ _ => rfl) (fun _ => rfl) left short,
      @path_undashed _ _ (·.netcardList) (fun _ _ _ => rfl) (fun _ => rfl) left short, List.forall_mem_nil _⟩

/-- Both ways fill the same parameters where no value has a dash, and elsewhere
only where the dashes are bound. -/
theorem params_read_alike (written : ∀ option ∈ options, option.Written)
    (accepted : argsParse (argumentVector options) = some params)
    (short : (joined options).length < maxParamLen) :
    ((∀ option ∈ options, dash ∉ option.arg) → paramsParse (joined options) = .ok (some params)) ∧
      (paramsParse (joined options) = .ok (some params) → DashesBound options) := by
  rw [argsParse, argsLoop_eq written] at accepted
  rw [paramsParse_joined short]
  have lengths : ∀ option ∈ options, option.arg.length < maxParamLen :=
    fun _ member => Nat.lt_of_le_of_lt (length_arg_le member) short
  constructor
  · intro whole
    rw [cutOptions_whole written whole fun option member => Nat.le_of_lt (lengths option member), accepted]
  · intro alike
    obtain ⟨cut, left⟩ := setOptions_eq_some_iff.mp (Except.ok.inj alike)
    exact dashesBound_of_left cut (left.trans (setOptions_eq_some_iff.mp accepted).2.symm)
      fun option member => Nat.lt_trans (lengths option member) (by decide)

def latencyOfFive : List ProbeOption := [⟨letter 'T', [53]⟩, ⟨letter 'l', [119]⟩]

theorem written_byte {opt byte : UInt8} (plain : opt ≠ dash) (lower : 33 ≤ byte) (upper : byte ≤ 126) :
    (ProbeOption.mk opt [byte]).Written where
  opt := plain
  filled := List.cons_ne_nil _ _
  printable := by
    intro other member
    rw [List.mem_singleton.mp member]
    exact ⟨lower, upper⟩

theorem latencyOfFive_written : ∀ option ∈ latencyOfFive, option.Written := by
  intro option member
  rcases List.mem_cons.mp member with first | later
  · rw [first]
    exact written_byte (by decide) (by decide) (by decide)
  · rw [List.mem_singleton.mp later]
    exact written_byte (by decide) (by decide) (by decide)

theorem params_read_alike_latency :
    ((∀ option ∈ latencyOfFive, dash ∉ option.arg) →
        paramsParse (joined latencyOfFive) = .ok (some { latencyThr := 5, logs := true })) ∧
      (paramsParse (joined latencyOfFive) = .ok (some { latencyThr := 5, logs := true }) →
        DashesBound latencyOfFive) :=
  params_read_alike latencyOfFive_written rfl (by decide)

/-- The path "/a-b" is read as "/a" and an option "b". -/
theorem params_read_differently :
    argsParse (argumentVector [⟨letter 'p', [47, 97, 45, 98]⟩]) =
        some { elfPath := printPath (fun _ => 0) [47, 97, 45, 98] } ∧
      paramsParse (joined [⟨letter 'p', [47, 97, 45, 98]⟩]) = .ok none :=
  ⟨rfl, rfl⟩

end GalaGopher.Probe

import GalaGopher.Probe.Args.Settings

namespace GalaGopher.Probe

open Data Text

/-- The options that `getopt` finds with their values. -/
def optionsOf (found : List (UInt8 × Option Bytes)) : List ProbeOption :=
  found.filterMap fun entry => entry.2.map (ProbeOption.mk entry.1)

/-- The options of an argument vector. -/
def givenOptions (argv : List Bytes) : List ProbeOption := optionsOf (getopt optS argv)

/-- The options of a parameter string. -/
def tokenOptions (s : Bytes) : List ProbeOption := (strtok s dash).map .ofToken

/-- The percentage is one, and it is the last value given if that is one. -/
structure PercentRead (last : Option Bytes) (percent : Int8) : Prop where
  range : 0 ≤ percent.toInt ∧ percent.toInt ≤ 100
  given : ∀ arg, last = some arg → 0 ≤ strtol arg → strtol arg ≤ 100 → percent.toInt = strtol arg

structure InRange (options : List ProbeOption) (params : ProbeParams) : Prop where
  period : outPutPeriodMin ≤ params.period ∧ params.period ≤ outPutPeriodMax
  cportFlag : params.cportFlag = 0 ∨ params.cportFlag = 1
  upper : PercentRead (lastGiven (letter 'U') options) params.resPercentUpper
  lower : PercentRead (lastGiven (letter 'L') options) params.resPercentLower

/-- What a `char` and its rest by 100 leave of the value is a percentage, and it
is not 100 of which nothing is left. -/
def PercentFits (arg : Bytes) : Prop := strtol arg ≠ 100 ∧ (strtol arg % 256 < 128 ∨ strtol arg % 256 = 156)

/-- The last -U and the last -L have values that fit. -/
def PercentsFit (options : List ProbeOption) : Prop :=
  ∀ opt ∈ ['U', 'L'].map letter, ∀ arg, lastGiven opt options = some arg → PercentFits arg

variable {options : List ProbeOption} {params result : ProbeParams} {opt : UInt8}

theorem percentOf_toInt (arg : Bytes) : (percentOf arg).toInt = ((strtol arg).bmod 256).tmod 100 := by
  rw [percentOf, atoi, Int8.toInt_mod, Int32.toInt_toInt8, Int32.toInt_ofInt, Int.bmod_bmod_of_dvd (by decide)]
  rfl

theorem percent_range (value : Int) :
    0 ≤ (value.bmod 256).tmod 100 ∧ (value.bmod 256).tmod 100 ≤ 100 ↔ value % 256 < 128 ∨ value % 256 = 156 := by
  rw [Int.bmod_def]
  split
  case isTrue => rw [Int.tmod_eq_emod_of_nonneg (by omega)]; omega
  case isFalse =>
    -- the rest of a negative number is that of its absolute value, negated
    have turned : value % (256 : Nat) - (256 : Nat) = -(256 - value % 256) := by omega
    rw [turned, Int.neg_tmod, Int.tmod_eq_emod_of_nonneg (by omega)]
    omega

theorem percentRead_iff (arg : Bytes) : PercentRead (some arg) (percentOf arg) ↔ PercentFits arg := by
  have value := percentOf_toInt arg
  constructor
  · rintro ⟨range, given⟩
    rw [value, percent_range] at range
    refine ⟨fun hundred => ?_, range⟩
    have same := given arg rfl (by omega) (by omega)
    rw [value, hundred] at same
    exact absurd same (by decide)
  · rintro ⟨notHundred, fits⟩
    refine ⟨?_, ?_⟩
    · rw [value, percent_range]
      exact fits
    · rintro _ ⟨⟩ lower upper
      rw [value, Int.bmod_def, if_pos (by omega), Int.tmod_eq_emod_of_nonneg (by omega)]
      omega

theorem percentRead_none : PercentRead none 0 where
  range := by decide
  given := by
    intro arg none
    cases none

/-- A percentage is left by the last option that gives it. -/
theorem percent_left (opt : UInt8) (options : List ProbeOption) (percent : ProbeParams → Int8)
    (one : ∀ params option,
      percent (ProbeOption.set params option) = (option.given opt percentValue).getD (percent params))
    (unset : percent defaultParams = 0) :
    PercentRead (lastGiven opt options) (percent (options.foldl ProbeOption.set defaultParams)) ↔
      ∀ arg, lastGiven opt options = some arg → PercentFits arg := by
  have values : ProbeOption.given opt percentValue = fun option => (option.given opt some).map percentOf := by
    funext option
    simp only [ProbeOption.given, percentValue]
    split <;> rfl
  rw [parameter_left percent one, values, lastWrite_map, unset]
  change PercentRead (lastGiven opt options) (((lastGiven opt options).map percentOf).getD 0) ↔ _
  cases lastGiven opt options with
  | none => exact iff_of_true percentRead_none fun arg given => by cases given
  | some arg =>
      rw [Option.map_some, Option.getD_some, percentRead_iff]
      exact ⟨fun fits _ same => Option.some.inj same ▸ fits, fun fits => fits arg rfl⟩

/-- What an accepted option gives for a letter comes from one with that letter. -/
theorem given_eq_some {Value : Type} {value : Bytes → Option Value} {option : ProbeOption} {left : Value}
    (given : option.given opt value = some left) : option.opt = opt ∧ value option.arg = some left := by
  rw [ProbeOption.given] at given
  split at given
  case isTrue same => exact ⟨same, given⟩
  case isFalse => cases given

theorem period_left (accepted : ∀ option ∈ options, option.Accepted) :
    outPutPeriodMin ≤ (options.foldl ProbeOption.set defaultParams).period ∧
      (options.foldl ProbeOption.set defaultParams).period ≤ outPutPeriodMax := by
  have left : (options.foldl ProbeOption.set defaultParams).period =
      (lastWrite (ProbeOption.given (letter 't') numberValue) options).getD defaultPeriod :=
    parameter_left (·.period) (fun _ _ => rfl) options
  rw [left]
  cases last : lastWrite (ProbeOption.given (letter 't') numberValue) options with
  | none => exact ⟨by decide, by decide⟩
  | some period =>
      obtain ⟨option, member, given⟩ := exists_of_lastWrite last
      obtain ⟨isPeriod, value⟩ := given_eq_some given
      cases value
      exact (accepted option member).period isPeriod

theorem cportFlag_left (accepted : ∀ option ∈ options, option.Accepted) :
    (options.foldl ProbeOption.set defaultParams).cportFlag = 0 ∨
      (options.foldl ProbeOption.set defaultParams).cportFlag = 1 := by
  have left : (options.foldl ProbeOption.set defaultParams).cportFlag =
      (lastWrite (ProbeOption.given (letter 'c') flagValue) options).getD 0 :=
    parameter_left (·.cportFlag) (fun _ _ => rfl) options
  rw [left]
  cases last : lastWrite (ProbeOption.given (letter 'c') flagValue) options with
  | none => exact .inl rfl
  | some flag =>
      obtain ⟨option, member, given⟩ := exists_of_lastWrite last
      obtain ⟨isFlag, value⟩ := given_eq_some given
      cases value
      rcases (accepted option member).cportFlag isFlag with zero | one
      · rw [zero]
        exact .inl rfl
      · rw [one]
        exact .inr rfl

theorem inRange_iff (ran : setOptions options defaultParams = some params) :
    InRange options params ↔ PercentsFit options := by
  obtain ⟨accepted, rfl⟩ := setOptions_eq_some_iff.mp ran
  have upper := percent_left (letter 'U') options (·.resPercentUpper) (fun _ _ => rfl) rfl
  have lower := percent_left (letter 'L') options (·.resPercentLower) (fun _ _ => rfl) rfl
  simp only [PercentsFit, List.map_cons, List.map_nil, List.forall_mem_cons]
  rw [← upper, ← lower]
  exact ⟨fun inRange => ⟨inRange.upper, inRange.lower, List.forall_mem_nil _⟩,
    fun percents => ⟨period_left accepted, cportFlag_left accepted, percents.1, percents.2.1⟩⟩

/-- Up to an error, `__args_parse` sets the options that `getopt` finds. -/
theorem setOptions_of_argsLoop {found : List (UInt8 × Option Bytes)} (ran : argsLoop found params = some result) :
    setOptions (optionsOf found) params = some result := by
  induction found generalizing params with
  | nil => exact ran
  | cons entry rest ih =>
      obtain ⟨ch, optarg⟩ := entry
      cases optarg with
      | none => cases ran
      | some optarg =>
          rw [argsLoop, Option.bind_eq_some_iff] at ran
          obtain ⟨next, parsed, later⟩ := ran
          have both : optionsOf ((ch, some optarg) :: rest) = ⟨ch, optarg⟩ :: optionsOf rest := rfl
          rw [both, setOptions, Option.bind_eq_some_iff]
          exact ⟨next, parsed, ih later⟩

/-- Parsed parameters are in range unless a percentage does not fit. -/
theorem params_in_range (argv : List Bytes) (s : Bytes) (params : ProbeParams) :
    (argsParse argv = some params →
        (InRange (givenOptions argv) params ↔ PercentsFit (givenOptions argv))) ∧
      (paramsParse s = .ok (some params) →
        (InRange (tokenOptions s) params ↔ PercentsFit (tokenOptions s))) := by
  constructor
  · intro parsed
    exact inRange_iff (setOptions_of_argsLoop parsed)
  · intro parsed
    rw [paramsParse] at parsed
    split at parsed
    case isTrue => exact inRange_iff (Except.ok.inj parsed)
    case isFalse => cases parsed

theorem params_in_range_half :
    InRange (givenOptions [[dash, letter 'U'], [53, 48]]) { resPercentUpper := 50 } ↔
      PercentsFit (givenOptions [[dash, letter 'U'], [53, 48]]) :=
  (params_in_range [[dash, letter 'U'], [53, 48]] [] _).1 rfl

/-- "-U 100" sets no upper limit. -/
theorem hundred_percent_lost :
    argsParse [[dash, letter 'U'], [49, 48, 48]] = some { resPercentUpper := 0 } ∧
      ¬InRange (givenOptions [[dash, letter 'U'], [49, 48, 48]]) { resPercentUpper := 0 } := by
  refine ⟨rfl, fun inRange => ?_⟩
  have same := inRange.upper.given [49, 48, 48] rfl (by decide) (by decide)
  exact absurd same (by decide)

end GalaGopher.Probe

import GalaGopher.Text.Lines
import GalaGopher.Text.Tokens

namespace GalaGopher.Ebpf.ExecPath

open Text

def pathLen : Nat := 512

def colon : UInt8 := 58

def slash : UInt8 := 47

def defaultPathList : Bytes := ascii "/usr/local/sbin:/usr/local/bin:/usr/sbin:/usr/bin:/root/bin"

/-- One call of `get_exec_file_path`, with the files that are executable
meanwhile. -/
structure Call where
  binaryFile : Bytes
  specifiedPath : Option Bytes
  containerId : Option Bytes
  resLen : Int
  isExecFile : Bytes → Bool

def absPath (directory binaryFile : Bytes) : Bytes := directory ++ slash :: binaryFile

/-- The loop over the tokens: the paths found, and what is left in memory. -/
def pathLoop (call : Call) : Nat → Bytes → List Bytes → List Bytes × Bytes
  | 0, text, found => (found, text)
  | turns + 1, text, found =>
      match nextToken colon text with
      | none => (found, text)
      | some (token, written, rest) =>
          let path := (absPath token call.binaryFile).take (pathLen - 1)
          if call.isExecFile path then
            if call.resLen ≤ found.length then (found, written ++ rest)
            else
              let (result, memory) := pathLoop call turns rest (found ++ [path])
              (result, written ++ memory)
          else
            let (result, memory) := pathLoop call turns rest found
            (result, written ++ memory)

/-- The memory behind `getenv("PATH")`, if there is any. -/
abbrev Environment := Option Bytes

/-- The value of `PATH`. -/
def value (environment : Environment) : Option Bytes := environment.map cString

/-- The default is copied to a buffer of its own. -/
def doGetPathFromHost (call : Call) (environment : Environment) : List Bytes × Environment :=
  match environment with
  | none => ((pathLoop call defaultPathList.length defaultPathList []).1, none)
  | some memory =>
      let text := cString memory
      let (found, left) := pathLoop call text.length text []
      (found, some (left ++ memory.drop text.length))

/-- The number of paths, or -1 for none. -/
def returned (found : List Bytes) : Int := if found.length = 0 then -1 else found.length

/-- What is returned, with the paths in `res_buf`; `fromContainer` stands for
the look-up in a container. -/
def getExecFilePath (fromContainer : Call → Environment → Int × List Bytes × Environment) (call : Call)
    (environment : Environment) : Int × List Bytes × Environment :=
  if call.binaryFile = ascii "NULL" then (-1, [], environment)
  else
    match call.specifiedPath.filter fun path => path ≠ [] with
    | some path =>
        if !call.isExecFile path then (-1, [], environment)
        else (1, [path.take (pathLen - 1)], environment)
    | none =>
        if call.containerId = none ∨ call.containerId = some (ascii "NULL") then
          let (found, environment) := doGetPathFromHost call environment
          (returned found, found, environment)
        else fromContainer call environment

/-- The directories that `PATH`, or the default, names. -/
def directories (environment : Environment) : List Bytes := strtok ((value environment).getD defaultPathList) colon

/-- The executable paths, in the order of the directories. -/
def executables (call : Call) (environment : Environment) : List Bytes :=
  ((directories environment).map fun directory => absPath directory call.binaryFile).filter call.isExecFile

variable {delimiter : UInt8} {text token written rest : Bytes} {call : Call}

/-- The paths that the loop finds, as long as there is room. -/
theorem pathLoop_found {turns : Nat} (enough : text.length ≤ turns) (found : List Bytes)
    (short : ∀ directory ∈ strtok text colon, (absPath directory call.binaryFile).length < pathLen) :
    (pathLoop call turns text found).1 =
      found ++ ((((strtok text colon).map fun directory => absPath directory call.binaryFile).filter
        call.isExecFile).take (call.resLen - found.length).toNat) := by
  induction turns generalizing text found with
  | zero =>
      obtain rfl := List.eq_nil_of_length_eq_zero (Nat.le_zero.mp enough)
      simp [pathLoop, strtok]
  | succ turns ih =>
      rw [pathLoop]
      cases next : nextToken colon text with
      | none => simp [strtok_none next]
      | some parts =>
          obtain ⟨token, written, rest⟩ := parts
          obtain ⟨tokens, shorter⟩ := strtok_some next
          rw [tokens, List.forall_mem_cons] at short
          have whole : (absPath token call.binaryFile).take (pathLen - 1) = absPath token call.binaryFile :=
            List.take_of_length_le (Nat.le_pred_of_lt short.1)
          have later (found : List Bytes) := ih (by omega : rest.length ≤ turns) found short.2
          simp only [tokens, List.map_cons, whole]
          by_cases exec : call.isExecFile (absPath token call.binaryFile) = true
          · rw [if_pos exec, List.filter_cons_of_pos exec]
            by_cases full : call.resLen ≤ found.length
            · have none : (call.resLen - found.length).toNat = 0 := by omega
              rw [if_pos full, none]
              simp
            · have more : (call.resLen - found.length).toNat = (call.resLen - (found.length + 1 : Nat)).toNat + 1 := by
                omega
              rw [if_neg full, later, more, List.take_succ_cons, List.length_append, List.length_singleton,
                List.append_assoc]
              rfl
          · rw [if_neg exec, List.filter_cons_of_neg exec, later]

/-- No delimiter behind the first directory. -/
def Lone (text : Bytes) : Prop := colon ∉ text.dropWhile fun byte => byte = colon

instance (text : Bytes) : Decidable (Lone text) := inferInstanceAs (Decidable (_ ∉ _))

theorem pathLoop_nil (call : Call) (turns : Nat) (found : List Bytes) : (pathLoop call turns [] found).2 = [] := by
  cases turns <;> rfl

theorem pathLoop_written (call : Call) (turns : Nat) (found : List Bytes) (next : nextToken colon text = some (token, written, rest)) :
    ∃ later, (pathLoop call (turns + 1) text found).2 = written ++ later ∧ (rest = [] → later = []) := by
  rw [pathLoop, next]
  simp only
  split
  · split
    · exact ⟨rest, rfl, id⟩
    · exact ⟨_, rfl, fun empty => empty ▸ pathLoop_nil call turns _⟩
  · exact ⟨_, rfl, fun empty => empty ▸ pathLoop_nil call turns _⟩

theorem pathLoop_lone (turns : Nat) (found : List Bytes) (lone : Lone text) :
    (pathLoop call turns text found).2 = text := by
  cases turns with
  | zero => rfl
  | succ turns =>
      have begins := begins_nextToken colon text
      cases next : nextToken colon text with
      | none =>
          rw [pathLoop, next]
      | some parts =>
          obtain ⟨token, written, rest⟩ := parts
          obtain ⟨later, left, ended⟩ := pathLoop_written call turns found next
          rw [next] at begins
          cases begins with
          | last all filled free => rw [left, ended rfl, List.append_nil]
          | @closed passed _ _ all filled free =>
              rw [Lone, dropWhile_passed all (head?_token filled free _)] at lone
              exact absurd (List.mem_append_right _ List.mem_cons_self) lone

/-- A delimiter behind a directory is lost to a string that ends there. -/
theorem pathLoop_cut {turns : Nat} (enough : text.length ≤ turns) (found : List Bytes) (nonzero : (0 : UInt8) ∉ text)
    (several : ¬ Lone text) (behind : Bytes) : cString ((pathLoop call turns text found).2 ++ behind) ≠ text := by
  have begins := begins_nextToken colon text
  cases next : nextToken colon text with
  | none =>
      rw [next] at begins
      cases begins with
      | done all =>
          have empty := (nextToken_passed all (show ([] : Bytes).head? ≠ some colon by simp)).2
          rw [List.append_nil] at empty
          rw [Lone, empty] at several
          exact absurd List.not_mem_nil several
  | some parts =>
      obtain ⟨token, written, rest⟩ := parts
      rw [next] at begins
      cases begins with
      | @last passed _ all filled free =>
          have start := dropWhile_passed all (head?_token filled free [])
          rw [List.append_nil] at start
          rw [Lone, start] at several
          exact absurd free several
      | @closed passed _ _ all filled free =>
          obtain ⟨before, rfl⟩ : ∃ before, turns = before + 1 := by
            refine Nat.exists_eq_succ_of_ne_zero fun zero => ?_
            simp [zero] at enough
          obtain ⟨later, left, _⟩ := pathLoop_written call before found next
          have text : ∀ byte ∈ passed ++ token, decide (byte ≠ 0) = true := by
            intro byte member
            rw [← List.append_assoc, List.mem_append] at nonzero
            exact decide_eq_true fun same => nonzero (.inl (same ▸ member))
          intro same
          rw [left, List.append_assoc, List.append_assoc, cString, List.takeWhile_append_of_pos text] at same
          have lengths := congrArg List.length same
          simp at lengths

/-- What a call should return for the value of `PATH`. -/
def expected (call : Call) (environment : Environment) : Int × List Bytes :=
  let paths := (executables call environment).take call.resLen.toNat
  (returned paths, paths)

/-- The call names no path and no container. -/
structure Call.OnHost (call : Call) : Prop where
  unspecified : call.specifiedPath = none ∨ call.specifiedPath = some []
  host : call.containerId = none ∨ call.containerId = some (ascii "NULL")

/-- The buffers hold every path. -/
def Call.Fits (call : Call) (environment : Environment) : Prop :=
  ∀ directory ∈ directories environment, (absPath directory call.binaryFile).length < pathLen

section Calls

variable (fromContainer : Call → Environment → Int × List Bytes × Environment) {environment : Environment}

/-- The call returns what it should and leaves `PATH` as it was. -/
def Faithful (call : Call) (environment : Environment) : Prop :=
  ((getExecFilePath fromContainer call environment).1, (getExecFilePath fromContainer call environment).2.1) =
      expected call environment ∧
    value (getExecFilePath fromContainer call environment).2.2 = value environment

theorem getExecFilePath_host (host : call.OnHost) (named : call.binaryFile ≠ ascii "NULL") (environment : Environment) :
    getExecFilePath fromContainer call environment =
      (returned (doGetPathFromHost call environment).1, doGetPathFromHost call environment) := by
  have unspecified : call.specifiedPath.filter (fun path => path ≠ []) = none := by
    rcases host.unspecified with none | empty
    · rw [none]
      rfl
    · rw [empty]
      rfl
  simp only [getExecFilePath, if_neg named, unspecified, if_pos host.host]

theorem doGetPathFromHost_found (fits : call.Fits environment) :
    (doGetPathFromHost call environment).1 = (executables call environment).take call.resLen.toNat := by
  cases environment with
  | none =>
      have found := pathLoop_found (Nat.le_refl _) [] fits
      simpa [doGetPathFromHost, executables, directories, value] using found
  | some memory =>
      have found := pathLoop_found (Nat.le_refl _) [] fits
      simpa [doGetPathFromHost, executables, directories, value] using found

theorem doGetPathFromHost_value (call : Call) (environment : Environment) :
    value (doGetPathFromHost call environment).2 = value environment ↔ ∀ text ∈ value environment, Lone text := by
  cases environment with
  | none => simp [doGetPathFromHost, value]
  | some memory =>
      simp only [doGetPathFromHost, value, Option.map_some, Option.mem_some_iff, forall_eq', Option.some.injEq]
      by_cases lone : Lone (cString memory)
      · have whole : cString memory ++ memory.drop (cString memory).length = memory := by
          have front : cString memory <+: memory := List.takeWhile_prefix _
          calc
            _ = memory.take (cString memory).length ++ memory.drop (cString memory).length := by
              rw [← List.prefix_iff_eq_take.mp front]
            _ = memory := List.take_append_drop _ _
        rw [pathLoop_lone _ [] lone, whole]
        exact iff_of_true rfl lone
      · exact iff_of_false (pathLoop_cut (Nat.le_refl _) [] (cString_nonzero memory) lone _) lone

theorem faithful_iff (host : call.OnHost) (fits : call.Fits environment) :
    Faithful fromContainer call environment ↔
      if call.binaryFile = ascii "NULL" then (executables call environment).take call.resLen.toNat = []
      else ∀ text ∈ value environment, Lone text := by
  rw [Faithful, expected]
  by_cases named : call.binaryFile = ascii "NULL"
  · have result : getExecFilePath fromContainer call environment = (-1, [], environment) := by
      rw [getExecFilePath, if_pos named]
    rw [result, if_pos named]
    constructor
    · rintro ⟨same, _⟩
      exact (Prod.mk.inj same).2.symm
    · intro none
      rw [none]
      exact ⟨rfl, rfl⟩
  · rw [getExecFilePath_host fromContainer host named, if_neg named, ← doGetPathFromHost_value call]
    exact and_iff_right (by rw [doGetPathFromHost_found fits])

/-- Every call of the sequence does what it should. -/
def AllFaithful : List Call → Environment → Prop
  | [], _ => True
  | call :: rest, environment =>
      Faithful fromContainer call environment ∧ AllFaithful rest (getExecFilePath fromContainer call environment).2.2

/-- A file called `NULL` is not found along `PATH`, and with any other name
`PATH` is unset or has no delimiter behind its first directory. -/
structure Steady (calls : List Call) (environment : Environment) : Prop where
  unnamed : ∀ call ∈ calls, call.binaryFile = ascii "NULL" → (executables call environment).take call.resLen.toNat = []
  lone : (∃ call ∈ calls, call.binaryFile ≠ ascii "NULL") → ∀ text ∈ value environment, Lone text

theorem directories_congr {after : Environment} (same : value after = value environment) :
    directories after = directories environment := by
  rw [directories, directories, same]

theorem executables_congr {after : Environment} (same : value after = value environment) (call : Call) :
    executables call after = executables call environment := by
  rw [executables, executables, directories_congr same]

theorem steady_congr {after : Environment} (same : value after = value environment) (calls : List Call) :
    Steady calls after ↔ Steady calls environment := by
  constructor
  · rintro ⟨unnamed, lone⟩
    refine ⟨fun call member named => ?_, same ▸ lone⟩
    rw [← executables_congr same]
    exact unnamed call member named
  · rintro ⟨unnamed, lone⟩
    refine ⟨fun call member named => ?_, same ▸ lone⟩
    rw [executables_congr same]
    exact unnamed call member named

theorem steady_cons {rest : List Call} :
    Steady (call :: rest) environment ↔
      (if call.binaryFile = ascii "NULL" then (executables call environment).take call.resLen.toNat = []
        else ∀ text ∈ value environment, Lone text) ∧ Steady rest environment := by
  constructor
  · intro steady
    refine ⟨?_, fun other member => steady.unnamed other (List.mem_cons_of_mem _ member),
      fun ⟨other, member, named⟩ => steady.lone ⟨other, List.mem_cons_of_mem _ member, named⟩⟩
    split
    case isTrue unnamed => exact steady.unnamed call List.mem_cons_self unnamed
    case isFalse named => exact steady.lone ⟨call, List.mem_cons_self, named⟩
  · rintro ⟨one, steady⟩
    refine ⟨List.forall_mem_cons.mpr ⟨fun unnamed => ?_, steady.unnamed⟩, ?_⟩
    · rwa [if_pos unnamed] at one
    · rintro ⟨other, member, named⟩
      rcases List.mem_cons.mp member with rfl | later
      · rwa [if_neg named] at one
      · exact steady.lone ⟨other, later, named⟩

/-- All calls of a sequence do what they should exactly when it is steady. -/
theorem allFaithful_iff (calls : List Call) (environment : Environment) (host : ∀ call ∈ calls, call.OnHost)
    (fits : ∀ call ∈ calls, call.Fits environment) :
    AllFaithful fromContainer calls environment ↔ Steady calls environment := by
  induction calls generalizing environment with
  | nil => exact iff_of_true trivial ⟨by simp, by simp⟩
  | cons call rest ih =>
      rw [List.forall_mem_cons] at host fits
      have first := faithful_iff fromContainer host.1 fits.1
      rw [AllFaithful, steady_cons, first]
      apply and_congr_right
      intro one
      have kept := (first.mpr one).2
      rw [ih _ host.2, steady_congr kept]
      intro other member
      rw [Call.Fits, directories_congr kept]
      exact fits.2 other member

end Calls

/-- A look-up of one binary, with one file that is executable. -/
def lookUp (binaryFile file : Bytes) : Call where
  binaryFile := binaryFile
  specifiedPath := none
  containerId := none
  resLen := 1
  isExecFile := fun path => path = file

theorem lookUp_host (binaryFile file : Bytes) : (lookUp binaryFile file).OnHost := ⟨.inl rfl, .inl rfl⟩

theorem allFaithful_lone :
    AllFaithful (fun _ environment => (-1, [], environment))
        [lookUp (ascii "nginx") (ascii "/bin/nginx"), lookUp (ascii "redis") (ascii "/bin/redis")] (some (ascii ":/bin")) ↔
      Steady [lookUp (ascii "nginx") (ascii "/bin/nginx"), lookUp (ascii "redis") (ascii "/bin/redis")]
        (some (ascii ":/bin")) :=
  allFaithful_iff _ _ _ (by simp [lookUp_host]) (by simp only [Call.Fits, lookUp]; decide)

/-- The second look-up of a program in the second directory. -/
theorem second_lookUp_fails :
    ¬ AllFaithful (fun _ environment => (-1, [], environment))
        [lookUp (ascii "nginx") (ascii "/usr/bin/nginx"), lookUp (ascii "nginx") (ascii "/usr/bin/nginx")]
        (some (ascii "/bin:/usr/bin")) := by
  rintro ⟨first, _⟩
  exact absurd first.2 (by decide)

end GalaGopher.Ebpf.ExecPath

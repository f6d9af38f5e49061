import GalaGopher.Text.Memory

namespace GalaGopher.Cmd

open Text

def gopherCmdKey1 : Bytes := ascii "show"

def gopherCmdKey1Value1 : Bytes := ascii "config_path"

def cmdShowItemTbl : List Bytes := [gopherCmdKey1Value1]

/-- `GOPHER_CMD_REQUEST_STATUS_FAILED1` -/
def requestStatusFailed1 : Bytes := ascii "Failed to get the request."

/-- `GOPHER_CMD_REQUEST_STATUS_FAILED2` -/
def requestStatusFailed2 : Bytes := ascii "Failed to process the request."

/-- `GOPHER_CMD_LINE_MIN` -/
def cmdLineMin : Nat := 2

/-- `GOPHER_CMD_LINE_MAX` -/
def cmdLineMax : Nat := 3

def resultInfoLenMax : Nat := 1024

-- `struct GopherCmdRequest` as it lies in memory: the type, then the key and
-- the value of 32 bytes each.

def keyOffset : Nat := 4

def valueOffset : Nat := 36

def requestSize : Nat := 68

abbrev GopherCmdRequest := Memory requestSize

/-- `GOPHER_GET_CONFIG_PATH` is 0. -/
def gopherGetConfigPath : Bytes := [0, 0, 0, 0]

namespace GopherCmdRequest

def cmdType (request : GopherCmdRequest) : Bytes := (List.ofFn request).take keyOffset

/-- From the key on; a string that is not terminated runs into the value. -/
def cmdKey (request : GopherCmdRequest) : Bytes := request.after keyOffset

def cmdValue (request : GopherCmdRequest) : Bytes := request.after valueOffset

end GopherCmdRequest

/-- What `getopt_long` returns. -/
inductive CmdOption where
  | help
  | show (optarg : Bytes)
  | other
deriving DecidableEq

def checkShowItem (showItem : Bytes) : Bool := cmdShowItemTbl.contains showItem

/-- The loop over the options, or `none` for `GOPHER_ERR`. -/
def parseOptions : List CmdOption → GopherCmdRequest → Option GopherCmdRequest
  | [], request => some request
  | .show optarg :: rest, request =>
      let request := request.copyAt 0 gopherGetConfigPath
      let request := request.copyAt keyOffset gopherCmdKey1
      if checkShowItem optarg then parseOptions rest (request.copyAt valueOffset optarg) else none
  | .help :: _, _ => none
  | .other :: _, _ => none

/-- `argv` is without the program, and `options` is what it comes to. -/
def cmdRequestParse (argv : List Bytes) (options : List CmdOption) (cmdRequest : GopherCmdRequest) :
    Option GopherCmdRequest :=
  let argc := argv.length + 1
  if argc < cmdLineMin ∨ argc > cmdLineMax ∨
      (argc = cmdLineMin ∧ argv.head? ≠ some (ascii "-h") ∧ argv.head? ≠ some (ascii "--help")) then
    none
  else
    parseOptions options cmdRequest

/-- A read of nothing is `GOPHER_ERR`, like one that fails. -/
def getRequest (buf : GopherCmdRequest) (read : Bytes) : Option GopherCmdRequest :=
  if read = [] then none else some (buf.copyAt 0 read)

/-- What is copied to the buffer of the result. -/
def getConfig (galaConfPath : Bytes) (rcvRequest : GopherCmdRequest) : Option Bytes :=
  if strcmp rcvRequest.cmdKey gopherCmdKey1 then
    if strcmp rcvRequest.cmdValue gopherCmdKey1Value1 then some galaConfPath else none
  else
    none

def requestProcess (galaConfPath : Bytes) (rcvRequest : GopherCmdRequest) : Option Bytes :=
  if rcvRequest.cmdType = gopherGetConfigPath then getConfig galaConfPath rcvRequest else none

/-- The request that is there after the read; a failed one leaves the one before. -/
def received (rcvRequest : GopherCmdRequest) (read : Bytes) : GopherCmdRequest :=
  (getRequest rcvRequest read).getD rcvRequest

/-- What `CmdServer` copies to the result, which is clear before. -/
def resultText (galaConfPath : Bytes) (rcvRequest : GopherCmdRequest) (read : Bytes) : Bytes :=
  match getRequest rcvRequest read with
  | none => requestStatusFailed1
  | some rcvRequest => (requestProcess galaConfPath rcvRequest).getD requestStatusFailed2

/-- The string that is sent. One that leaves no byte for its terminator is read
past the end. -/
def resultOf (galaConfPath : Bytes) (rcvRequest : GopherCmdRequest) (read : Bytes) : Outcome Bytes :=
  let text := resultText galaConfPath rcvRequest read
  if text.length < resultInfoLenMax then .ok text else .error .undefined

/-- The server takes the request for the command to show the path, and answers
with it. -/
structure Understood (galaConfPath : Bytes) (rcvRequest request : GopherCmdRequest) : Prop where
  key : strcmp request.cmdKey gopherCmdKey1
  value : strcmp request.cmdValue gopherCmdKey1Value1
  answer : resultOf galaConfPath rcvRequest (List.ofFn request) = .ok galaConfPath

def built (memory : GopherCmdRequest) : GopherCmdRequest :=
  ((memory.copyAt 0 gopherGetConfigPath).copyAt keyOffset gopherCmdKey1).copyAt valueOffset gopherCmdKey1Value1

theorem key_length : gopherCmdKey1.length = 4 := rfl

theorem value_length : gopherCmdKey1Value1.length = 11 := rfl

variable {memory request : GopherCmdRequest} {place : Fin requestSize}

theorem built_type (front : place.val < 4) : built memory place = 0 := by
  have key := key_length
  have value := value_length
  rw [built, Memory.copyAt_outside (.inl (by simp only [valueOffset]; omega)),
    Memory.copyAt_outside (.inl (by simp only [keyOffset]; omega)),
    Memory.copyAt_inside (by simpa [gopherGetConfigPath] using front) (Nat.zero_le _)]
  have bytes : ∀ place < 4, ∀ inside : place < gopherGetConfigPath.length, gopherGetConfigPath[place] = 0 := by decide
  exact bytes _ front _

theorem built_key (lower : keyOffset ≤ place.val) (inside : place.val - keyOffset < gopherCmdKey1.length) :
    built memory place = gopherCmdKey1[place.val - keyOffset] := by
  have length := key_length
  rw [built, Memory.copyAt_outside (.inl (by simp only [keyOffset, valueOffset] at *; omega)),
    Memory.copyAt_inside inside lower]

theorem built_value (lower : valueOffset ≤ place.val) (inside : place.val - valueOffset < gopherCmdKey1Value1.length) :
    built memory place = gopherCmdKey1Value1[place.val - valueOffset] := by
  rw [built, Memory.copyAt_inside inside lower]

/-- The bytes that no `memcpy` of the client reaches. -/
def Unwritten (place : Nat) : Prop := (8 ≤ place ∧ place < 36) ∨ 47 ≤ place

theorem built_unwritten (unwritten : Unwritten place.val) : built memory place = memory place := by
  have key := key_length
  have value := value_length
  have type : gopherGetConfigPath.length = 4 := rfl
  rw [built, Memory.copyAt_outside, Memory.copyAt_outside, Memory.copyAt_outside]
  · exact .inr (by rcases unwritten with middle | last <;> omega)
  · exact .inr (by simp only [keyOffset]; rcases unwritten with middle | last <;> omega)
  · rcases unwritten with middle | last
    · exact .inl middle.2
    · exact .inr (by simp only [valueOffset]; omega)

theorem place_cases (place : Nat) :
    place < 4 ∨ (keyOffset ≤ place ∧ place - keyOffset < 4) ∨ (valueOffset ≤ place ∧ place - valueOffset < 11) ∨
      Unwritten place := by
  simp only [keyOffset, valueOffset, Unwritten]
  omega

theorem built_built (memory : GopherCmdRequest) : built (built memory) = built memory := by
  funext place
  rcases place_cases place.val with front | key | value | unwritten
  · rw [built_type front, built_type front]
  · have inside : place.val - keyOffset < gopherCmdKey1.length := by rw [key_length]; exact key.2
    rw [built_key key.1 inside, built_key key.1 inside]
  · have inside : place.val - valueOffset < gopherCmdKey1Value1.length := by rw [value_length]; exact value.2
    rw [built_value value.1 inside, built_value value.1 inside]
  · exact built_unwritten unwritten

theorem checkShowItem_eq {showItem : Bytes} (accepted : checkShowItem showItem) :
    showItem = gopherCmdKey1Value1 := by
  simpa [checkShowItem, cmdShowItemTbl] using accepted

/-- Any number of accepted options leave the same request. -/
theorem parseOptions_eq {options : List CmdOption} (given : options ≠ [])
    (parsed : parseOptions options memory = some request) : request = built memory := by
  induction options generalizing memory with
  | nil => exact absurd rfl given
  | cons option rest ih =>
      cases option with
      | help => cases parsed
      | other => cases parsed
      | «show» optarg =>
          rw [parseOptions] at parsed
          by_cases accepted : checkShowItem optarg
          · rw [if_pos accepted, checkShowItem_eq accepted] at parsed
            change parseOptions rest (built memory) = some request at parsed
            by_cases last : rest = []
            · subst last
              exact (Option.some.inj parsed).symm
            · rw [ih last parsed, built_built]
          · rw [if_neg accepted] at parsed
            cases parsed

def keyTerminator : Fin requestSize := ⟨8, by decide⟩

def valueTerminator : Fin requestSize := ⟨47, by decide⟩

theorem cmdType_built : (built memory).cmdType = gopherGetConfigPath := by
  have size : requestSize = 68 := rfl
  refine List.ext_getElem (by simp [GopherCmdRequest.cmdType, keyOffset, size, gopherGetConfigPath])
    fun place inside _ => ?_
  have front : place < 4 := by
    rw [GopherCmdRequest.cmdType, List.length_take] at inside
    exact lt_of_lt_of_le inside (Nat.min_le_left _ _)
  have bytes : ∀ place < 4, ∀ inside : place < gopherGetConfigPath.length, gopherGetConfigPath[place] = 0 := by decide
  rw [bytes _ front]
  simp only [GopherCmdRequest.cmdType, List.getElem_take, List.getElem_ofFn]
  exact built_type front

theorem cmdKey_built : strcmp (built memory).cmdKey gopherCmdKey1 ↔ memory keyTerminator = 0 := by
  have room : keyOffset + gopherCmdKey1.length < requestSize := by rw [key_length]; decide
  have terminator : (⟨keyOffset + gopherCmdKey1.length, room⟩ : Fin requestSize) = keyTerminator := rfl
  have unwritten : Unwritten keyTerminator.val := .inl (by decide)
  rw [GopherCmdRequest.cmdKey, strcmp_after_iff (fun _ => built_key) room, terminator, built_unwritten unwritten]

theorem cmdValue_built : strcmp (built memory).cmdValue gopherCmdKey1Value1 ↔ memory valueTerminator = 0 := by
  have room : valueOffset + gopherCmdKey1Value1.length < requestSize := by rw [value_length]; decide
  have terminator : (⟨valueOffset + gopherCmdKey1Value1.length, room⟩ : Fin requestSize) = valueTerminator := rfl
  have unwritten : Unwritten valueTerminator.val := .inr (by decide)
  rw [GopherCmdRequest.cmdValue, strcmp_after_iff (fun _ => built_value) room, terminator, built_unwritten unwritten]

/-- A request sent whole leaves nothing of the one before. -/
theorem getRequest_whole (rcvRequest request : GopherCmdRequest) :
    getRequest rcvRequest (List.ofFn request) = some request := by
  have filled : List.ofFn request ≠ [] := by
    intro empty
    have length := congrArg List.length empty
    rw [List.length_ofFn] at length
    exact absurd length (by decide)
  rw [getRequest, if_neg filled, Memory.copyAt_whole]

theorem resultText_built {galaConfPath : Bytes} {rcvRequest : GopherCmdRequest}
    (key : strcmp (built memory).cmdKey gopherCmdKey1) (value : strcmp (built memory).cmdValue gopherCmdKey1Value1) :
    resultText galaConfPath rcvRequest (List.ofFn (built memory)) = galaConfPath := by
  simp only [resultText, getRequest_whole, requestProcess, cmdType_built, getConfig, key, value, if_true,
    Option.getD_some]

/-- The bytes behind the key and the value are those of `malloc`. -/
theorem request_understood {galaConfPath : Bytes} {initial rcvRequest request : GopherCmdRequest}
    {argv : List Bytes} {options : List CmdOption} (given : options ≠ [])
    (parsed : cmdRequestParse argv options initial = some request) :
    Understood galaConfPath rcvRequest request ↔
      initial keyTerminator = 0 ∧ initial valueTerminator = 0 ∧ galaConfPath.length < resultInfoLenMax := by
  rw [cmdRequestParse] at parsed
  split at parsed
  case isTrue => cases parsed
  case isFalse =>
    rw [parseOptions_eq given parsed]
    constructor
    · intro understood
      have key := understood.key
      have value := understood.value
      refine ⟨cmdKey_built.mp key, cmdValue_built.mp value, ?_⟩
      have answer := understood.answer
      rw [resultOf, resultText_built key value] at answer
      by_contra long
      rw [if_neg long] at answer
      cases answer
    · rintro ⟨key, value, short⟩
      rw [← cmdKey_built] at key
      rw [← cmdValue_built] at value
      refine ⟨key, value, ?_⟩
      rw [resultOf, resultText_built key value, if_pos short]

theorem show_configPath (memory : GopherCmdRequest) :
    cmdRequestParse [ascii "-s", gopherCmdKey1Value1] [.show gopherCmdKey1Value1] memory = some (built memory) := by
  have accepted : checkShowItem gopherCmdKey1Value1 := by simp [checkShowItem, cmdShowItemTbl]
  rw [cmdRequestParse, if_neg (by simp [cmdLineMin, cmdLineMax]), parseOptions, if_pos accepted]
  rfl

theorem request_understood_clear :
    Understood (ascii "/opt") (fun _ => 1) (built fun _ => 0) ↔
      (0 : UInt8) = 0 ∧ (0 : UInt8) = 0 ∧ (ascii "/opt").length < resultInfoLenMax :=
  request_understood (List.cons_ne_nil _ _) (show_configPath fun _ => 0)

/-- Over memory that is not clear the key is longer than "show". -/
theorem request_mistaken :
    cmdRequestParse [ascii "-s", gopherCmdKey1Value1] [.show gopherCmdKey1Value1] (fun _ => 1) =
        some (built fun _ => 1) ∧
      ¬Understood (ascii "/opt") (fun _ => 0) (built fun _ => 1) := by
  refine ⟨show_configPath fun _ => 1, fun understood => ?_⟩
  have key := cmdKey_built.mp understood.key
  exact absurd key (by decide)

end GalaGopher.Cmd

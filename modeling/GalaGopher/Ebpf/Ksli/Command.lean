import GalaGopher.Text.Bytes

namespace GalaGopher.Ebpf.Ksli

open Text

def maxCommandReqSize : Nat := 32 - 1

/-- `char command[MAX_COMMAND_REQ_SIZE]` -/
abbrev CommandBuffer := Vector UInt8 maxCommandReqSize

inductive FindState where
  | find0MsgStart
  | find1ParmNum
  | find2CmdLen
  | find3CmdStr
  | findMsgErrStop
  | findMsgOkStop
  /-- The undeclared value 15. -/
  | other
deriving DecidableEq, Repr

def star : UInt8 := 42
def dollar : UInt8 := 36
def carriageReturn : UInt8 := 13

def isDigit (byte : UInt8) : Bool := 48 ≤ byte && byte ≤ 57

/-- The test and the subtraction for lower case.  `char` is signed: a byte from
128 on is below `'a'`. -/
def raise (byte : UInt8) : UInt8 := if 97 ≤ byte ∧ byte < 128 then byte - 32 else byte

def isCapital (byte : UInt8) : Bool := 65 ≤ byte && byte ≤ 90

/-- What the loop carries from byte to byte. -/
structure Recogniser where
  j : Nat
  command : CommandBuffer
  findState : FindState

def parseMsgToRedisCmd (state : Recogniser) (msgChar : UInt8) : Recogniser :=
  match state.findState with
  | .find0MsgStart =>
      { state with findState := if msgChar = star then .find1ParmNum else .findMsgErrStop }
  | .find1ParmNum =>
      if isDigit msgChar ∨ msgChar = carriageReturn ∨ msgChar = newline then state
      else if msgChar = dollar then { state with findState := .find2CmdLen }
      else { state with findState := .findMsgErrStop }
  | .find2CmdLen =>
      if isDigit msgChar ∨ msgChar = carriageReturn then state
      else if msgChar = newline then { state with findState := .find3CmdStr }
      else { state with findState := .findMsgErrStop }
  | .find3CmdStr =>
      let msgChar := raise msgChar
      if isCapital msgChar then
        { state with command := state.command.setIfInBounds state.j msgChar, j := state.j + 1 }
      else if msgChar = carriageReturn ∨ msgChar = newline then
        { state with findState := .findMsgOkStop }
      else
        { state with findState := .other }
  | .findMsgErrStop | .findMsgOkStop | .other => state

def identifyProtocolRedis (msg : Bytes) (command : CommandBuffer) : Bool × CommandBuffer :=
  let start : Recogniser := { j := 0, command, findState := .find0MsgStart }
  let done := (msg.take (maxCommandReqSize - 2)).foldl parseMsgToRedisCmd start
  (done.findState = .findMsgOkStop, done.command)

inductive ConnProtocol where
  | unknown
  | redis
deriving DecidableEq, Repr

def copySize (count : Nat) : Nat := if count < maxCommandReqSize then count else maxCommandReqSize - 1

/-- `msg` once the front of the data is copied into it. -/
def copiedMsg (data : Bytes) : Bytes :=
  let copied := data.take (copySize data.length &&& maxCommandReqSize)
  copied ++ List.replicate (maxCommandReqSize - copied.length) 0

/-- `data` is what the read put into the buffer, `readable` whether the probe
can copy it. -/
def parseReq (command : CommandBuffer) (data : Bytes) (readable : Bool) : ConnProtocol × CommandBuffer :=
  if !readable then
    (.unknown, command)
  else
    let (identified, command) := identifyProtocolRedis (copiedMsg data) command
    (if identified then .redis else .unknown, command)

def isLetter (byte : UInt8) : Bool := isCapital (raise byte)

/-- The bytes between `'*'` and `'$'`. -/
def inCount (byte : UInt8) : Bool := isDigit byte || byte = carriageReturn || byte = newline

/-- The bytes between `'$'` and the newline before the word. -/
def inLength (byte : UInt8) : Bool := isDigit byte || byte = carriageReturn

/-- The command word of a request, in capitals. -/
def commandWord : Bytes → Option Bytes
  | [] => none
  | first :: rest =>
      if first = star then
        match rest.dropWhile inCount with
        | [] => none
        | second :: rest =>
            if second = dollar then
              match rest.dropWhile inLength with
              | [] => none
              | third :: rest =>
                  if third = newline then
                    match rest.dropWhile isLetter with
                    | [] => none
                    | last :: _ =>
                        if last = carriageReturn ∨ last = newline then
                          some ((rest.takeWhile isLetter).map raise)
                        else
                          none
                  else
                    none
            else
              none
      else
        none

theorem raise_toNat (byte : UInt8) : (raise byte).toNat =
    if 97 ≤ byte.toNat ∧ byte.toNat < 128 then byte.toNat - 32 else byte.toNat := by
  have bounds : (97 ≤ byte ∧ byte < 128) ↔ (97 ≤ byte.toNat ∧ byte.toNat < 128) := by
    rw [UInt8.le_iff_toNat_le, UInt8.lt_iff_toNat_lt]
    rfl
  unfold raise
  by_cases lower : 97 ≤ byte ∧ byte < 128
  · have numbers := bounds.mp lower
    rw [if_pos lower, if_pos numbers, UInt8.toNat_sub_of_le _ _ (UInt8.le_iff_toNat_le.mpr (by
      have small : (32 : UInt8).toNat = 32 := rfl
      omega))]
    rfl
  · rw [if_neg lower, if_neg (mt bounds.mpr lower)]

/-- The bytes that end a word are not raised from others. -/
theorem raise_ends (byte : UInt8) :
    (raise byte = carriageReturn ∨ raise byte = newline) ↔ (byte = carriageReturn ∨ byte = newline) := by
  have number := raise_toNat byte
  have first : carriageReturn.toNat = 13 := rfl
  have second : newline.toNat = 10 := rfl
  simp only [← UInt8.toNat_inj, first, second]
  split at number <;> omega

/-- A request with its command letters, taken apart. -/
structure Request (msg letters : Bytes) (counts lengths : Bytes) (last : UInt8) (rest : Bytes) : Prop where
  parts : msg = star :: (counts ++ dollar :: (lengths ++ newline :: (letters ++ last :: rest)))
  counts : ∀ byte ∈ counts, inCount byte
  lengths : ∀ byte ∈ lengths, inLength byte
  letters : ∀ byte ∈ letters, isLetter byte
  ended : last = carriageReturn ∨ last = newline

theorem dropWhile_append_cons (test : UInt8 → Bool) {before : Bytes} (passes : ∀ byte ∈ before, test byte)
    {byte : UInt8} (stops : test byte = false) (rest : Bytes) :
    (before ++ byte :: rest).dropWhile test = byte :: rest := by
  rw [List.dropWhile_append_of_pos (by simpa using passes), List.dropWhile_cons, if_neg (by simp [stops])]

theorem takeWhile_append_cons {test : UInt8 → Bool} {before : Bytes} (passes : ∀ byte ∈ before, test byte)
    {byte : UInt8} (stops : test byte = false) (rest : Bytes) :
    (before ++ byte :: rest).takeWhile test = before := by
  rw [List.takeWhile_append_of_pos (by simpa using passes), List.takeWhile_cons, if_neg (by simp [stops])]
  exact List.append_nil before

theorem Request.commandWord {msg letters counts lengths rest : Bytes} {last : UInt8}
    (request : Request msg letters counts lengths last rest) : commandWord msg = some (letters.map raise) := by
  have notLetter : isLetter last = false := by
    rcases request.ended with rfl | rfl <;> rfl
  rw [request.parts]
  simp only [Ksli.commandWord, if_true]
  rw [dropWhile_append_cons inCount request.counts rfl]
  simp only [if_true]
  rw [dropWhile_append_cons inLength request.lengths rfl]
  simp only [if_true]
  rw [dropWhile_append_cons isLetter request.letters notLetter, takeWhile_append_cons request.letters notLetter]
  simp only [request.ended, if_true]

/-- Bytes after the word change nothing. -/
theorem Request.append {msg letters counts lengths rest : Bytes} {last : UInt8}
    (request : Request msg letters counts lengths last rest) (more : Bytes) :
    Request (msg ++ more) letters counts lengths last (rest ++ more) :=
  { request with parts := by simp [request.parts] }

/-- The letters go to successive places of the buffer. -/
def overwrite (command : CommandBuffer) (j : Nat) : Bytes → CommandBuffer
  | [] => command
  | byte :: rest => overwrite (command.setIfInBounds j byte) (j + 1) rest

/-- The states that no byte leaves. -/
def FindState.stuck : FindState → Bool
  | .findMsgErrStop | .findMsgOkStop | .other => true
  | _ => false

variable {bytes : Bytes} {j : Nat} {command : CommandBuffer}

theorem foldl_stuck {state : Recogniser} (stuck : state.findState.stuck) (bytes : Bytes) :
    bytes.foldl parseMsgToRedisCmd state = state := by
  induction bytes with
  | nil => rfl
  | cons byte rest ih =>
      have stays : parseMsgToRedisCmd state byte = state := by
        obtain ⟨j, command, findState⟩ := state
        cases findState <;> first | rfl | cases stuck
      rw [List.foldl_cons, stays, ih]

/-- Where the recogniser stops before the end, it has not accepted. -/
theorem foldl_refused {state : Recogniser} (stuck : state.findState.stuck)
    (refused : state.findState ≠ .findMsgOkStop) :
    (bytes.foldl parseMsgToRedisCmd state).findState ≠ .findMsgOkStop := by
  rw [foldl_stuck stuck]
  exact refused

theorem foldl_find3CmdStr
    (accepted : (bytes.foldl parseMsgToRedisCmd ⟨j, command, .find3CmdStr⟩).findState = .findMsgOkStop) :
    ∃ letters last rest, bytes = letters ++ last :: rest ∧ (∀ byte ∈ letters, isLetter byte) ∧
      (last = carriageReturn ∨ last = newline) ∧
      (bytes.foldl parseMsgToRedisCmd ⟨j, command, .find3CmdStr⟩).command =
        overwrite command j (letters.map raise) := by
  induction bytes generalizing j command with
  | nil => cases accepted
  | cons byte rest ih =>
      rw [List.foldl_cons] at accepted ⊢
      by_cases letter : isCapital (raise byte)
      · have step : parseMsgToRedisCmd ⟨j, command, .find3CmdStr⟩ byte =
            ⟨j + 1, command.setIfInBounds j (raise byte), .find3CmdStr⟩ := if_pos letter
        rw [step] at accepted ⊢
        obtain ⟨letters, last, after, rfl, inside, ended, buffer⟩ := ih accepted
        refine ⟨byte :: letters, last, after, rfl, ?_, ended, buffer⟩
        simpa [isLetter, letter] using inside
      · by_cases ends : raise byte = carriageReturn ∨ raise byte = newline
        · have step : parseMsgToRedisCmd ⟨j, command, .find3CmdStr⟩ byte = ⟨j, command, .findMsgOkStop⟩ := by
            simp only [parseMsgToRedisCmd]
            rw [if_neg letter, if_pos ends]
          rw [step, foldl_stuck rfl]
          exact ⟨[], byte, rest, rfl, by simp, (raise_ends byte).mp ends, rfl⟩
        · have step : parseMsgToRedisCmd ⟨j, command, .find3CmdStr⟩ byte = ⟨j, command, .other⟩ := by
            simp only [parseMsgToRedisCmd]
            rw [if_neg letter, if_neg ends]
          rw [step] at accepted
          exact absurd accepted (foldl_refused rfl nofun)

theorem foldl_find2CmdLen
    (accepted : (bytes.foldl parseMsgToRedisCmd ⟨j, command, .find2CmdLen⟩).findState = .findMsgOkStop) :
    ∃ lengths rest, bytes = lengths ++ newline :: rest ∧ (∀ byte ∈ lengths, inLength byte) ∧
      bytes.foldl parseMsgToRedisCmd ⟨j, command, .find2CmdLen⟩ =
        rest.foldl parseMsgToRedisCmd ⟨j, command, .find3CmdStr⟩ := by
  induction bytes with
  | nil => cases accepted
  | cons byte rest ih =>
      rw [List.foldl_cons] at accepted ⊢
      by_cases inside : isDigit byte ∨ byte = carriageReturn
      · have step : parseMsgToRedisCmd ⟨j, command, .find2CmdLen⟩ byte = ⟨j, command, .find2CmdLen⟩ :=
          if_pos inside
        rw [step] at accepted ⊢
        obtain ⟨lengths, after, rfl, passes, same⟩ := ih accepted
        exact ⟨byte :: lengths, after, rfl, by simpa [inLength, inside] using passes, same⟩
      · by_cases ends : byte = newline
        · have step : parseMsgToRedisCmd ⟨j, command, .find2CmdLen⟩ byte = ⟨j, command, .find3CmdStr⟩ := by
            simp only [parseMsgToRedisCmd]
            rw [if_neg inside, if_pos ends]
          rw [step]
          exact ⟨[], rest, by rw [ends]; rfl, by simp, rfl⟩
        · have step : parseMsgToRedisCmd ⟨j, command, .find2CmdLen⟩ byte = ⟨j, command, .findMsgErrStop⟩ := by
            simp only [parseMsgToRedisCmd]
            rw [if_neg inside, if_neg ends]
          rw [step] at accepted
          exact absurd accepted (foldl_refused rfl nofun)

theorem foldl_find1ParmNum
    (accepted : (bytes.foldl parseMsgToRedisCmd ⟨j, command, .find1ParmNum⟩).findState = .findMsgOkStop) :
    ∃ counts rest, bytes = counts ++ dollar :: rest ∧ (∀ byte ∈ counts, inCount byte) ∧
      bytes.foldl parseMsgToRedisCmd ⟨j, command, .find1ParmNum⟩ =
        rest.foldl parseMsgToRedisCmd ⟨j, command, .find2CmdLen⟩ := by
  induction bytes with
  | nil => cases accepted
  | cons byte rest ih =>
      rw [List.foldl_cons] at accepted ⊢
      by_cases inside : isDigit byte ∨ byte = carriageReturn ∨ byte = newline
      · have step : parseMsgToRedisCmd ⟨j, command, .find1ParmNum⟩ byte = ⟨j, command, .find1ParmNum⟩ :=
          if_pos inside
        rw [step] at accepted ⊢
        obtain ⟨counts, after, rfl, passes, same⟩ := ih accepted
        exact ⟨byte :: counts, after, rfl, by simpa [inCount, inside, or_assoc] using passes, same⟩
      · by_cases ends : byte = dollar
        · have step : parseMsgToRedisCmd ⟨j, command, .find1ParmNum⟩ byte = ⟨j, command, .find2CmdLen⟩ := by
            simp only [parseMsgToRedisCmd]
            rw [if_neg inside, if_pos ends]
          rw [step]
          exact ⟨[], rest, by rw [ends]; rfl, by simp, rfl⟩
        · have step : parseMsgToRedisCmd ⟨j, command, .find1ParmNum⟩ byte = ⟨j, command, .findMsgErrStop⟩ := by
            simp only [parseMsgToRedisCmd]
            rw [if_neg inside, if_neg ends]
          rw [step] at accepted
          exact absurd accepted (foldl_refused rfl nofun)

/-- What is accepted is a request, and its word goes to the front of the
buffer. -/
theorem identifyProtocolRedis_accepts {msg : Bytes} {command : CommandBuffer}
    (accepted : (identifyProtocolRedis msg command).1 = true) :
    ∃ letters counts lengths last rest,
      Request (msg.take (maxCommandReqSize - 2)) letters counts lengths last rest ∧
      (identifyProtocolRedis msg command).2 = overwrite command 0 (letters.map raise) := by
  simp only [identifyProtocolRedis, decide_eq_true_eq] at accepted ⊢
  generalize msg.take (maxCommandReqSize - 2) = bytes at accepted ⊢
  cases bytes with
  | nil => cases accepted
  | cons first rest =>
      rw [List.foldl_cons] at accepted ⊢
      by_cases begins : first = star
      · have step : parseMsgToRedisCmd ⟨0, command, .find0MsgStart⟩ first = ⟨0, command, .find1ParmNum⟩ := by
          simp only [parseMsgToRedisCmd, if_pos begins]
        rw [step] at accepted ⊢
        obtain ⟨counts, afterCount, rfl, countsIn, reached⟩ := foldl_find1ParmNum accepted
        rw [reached] at accepted ⊢
        obtain ⟨lengths, afterLength, rfl, lengthsIn, reached⟩ := foldl_find2CmdLen accepted
        rw [reached] at accepted ⊢
        obtain ⟨letters, last, after, rfl, lettersIn, ended, buffer⟩ := foldl_find3CmdStr accepted
        exact ⟨letters, counts, lengths, last, after, ⟨by rw [begins], countsIn, lengthsIn, lettersIn, ended⟩,
          buffer⟩
      · have step : parseMsgToRedisCmd ⟨0, command, .find0MsgStart⟩ first = ⟨0, command, .findMsgErrStop⟩ := by
          simp only [parseMsgToRedisCmd, if_neg begins]
        rw [step] at accepted
        exact absurd accepted (foldl_refused rfl nofun)

theorem inCount_nonzero {byte : UInt8} (inside : inCount byte) : byte ≠ 0 := by
  rintro rfl
  cases inside

theorem inLength_nonzero {byte : UInt8} (inside : inLength byte) : byte ≠ 0 := by
  rintro rfl
  cases inside

theorem isLetter_nonzero {byte : UInt8} (letter : isLetter byte) : byte ≠ 0 := by
  rintro rfl
  cases letter

theorem raise_nonzero {byte : UInt8} (letter : isLetter byte) : raise byte ≠ 0 := by
  intro zero
  rw [isLetter, zero] at letter
  cases letter

/-- The padding with zeros takes no part in a request. -/
theorem Request.unpad {data letters counts lengths rest : Bytes} {last : UInt8} {zeros : Nat}
    (request : Request (data ++ List.replicate zeros 0) letters counts lengths last rest) :
    ∃ after, Request data letters counts lengths last after := by
  let used := star :: (counts ++ dollar :: (lengths ++ newline :: (letters ++ [last])))
  have nonzero : (0 : UInt8) ∉ used := by
    simp only [used, List.mem_cons, List.mem_append, List.not_mem_nil, or_false, not_or]
    refine ⟨by decide, fun member => inCount_nonzero (request.counts _ member) rfl, by decide,
      fun member => inLength_nonzero (request.lengths _ member) rfl, by decide,
      fun member => isLetter_nonzero (request.letters _ member) rfl, ?_⟩
    rcases request.ended with rfl | rfl <;> decide
  have parts : data ++ List.replicate zeros 0 = used ++ rest := by simp [request.parts, used]
  rcases List.append_eq_append_iff.mp parts with ⟨excess, usedEq, zerosEq⟩ | ⟨after, dataEq, _⟩
  · have none : excess = [] := by
      apply List.eq_nil_iff_forall_not_mem.mpr
      intro byte member
      have zero : byte = 0 := by
        apply (List.mem_replicate.mp (_ : byte ∈ List.replicate zeros 0)).2
        rw [zerosEq]
        exact List.mem_append_left rest member
      exact nonzero (usedEq ▸ List.mem_append_right data (zero ▸ member))
    refine ⟨[], { request with parts := ?_ }⟩
    rw [none, List.append_nil] at usedEq
    exact usedEq.symm
  · refine ⟨after, { request with parts := ?_ }⟩
    simp [dataEq, used]

theorem Request.letters_length {msg letters counts lengths rest : Bytes} {last : UInt8}
    (request : Request msg letters counts lengths last rest) : letters.length + 4 ≤ msg.length := by
  rw [request.parts]
  simp only [List.length_cons, List.length_append]
  omega

theorem copySize_masked (count : Nat) : copySize count &&& maxCommandReqSize = copySize count := by
  have size : maxCommandReqSize = 31 := rfl
  have small : copySize count < 2 ^ 5 := by
    unfold copySize
    split <;> omega
  exact (Nat.and_two_pow_sub_one_eq_mod (copySize count) 5).trans (Nat.mod_eq_of_lt small)

theorem copiedMsg_front (data : Bytes) : (copiedMsg data).take (maxCommandReqSize - 2) =
    data.take (maxCommandReqSize - 2) ++ List.replicate (maxCommandReqSize - 2 - data.length) 0 := by
  simp only [copiedMsg, copySize_masked]
  have size : maxCommandReqSize = 31 := rfl
  by_cases short : data.length < maxCommandReqSize
  · have copied : copySize data.length = data.length := if_pos short
    rw [copied, List.take_length, List.take_append, List.take_replicate]
    congr 2
    omega
  · have copied : copySize data.length = maxCommandReqSize - 1 := if_neg short
    have none : maxCommandReqSize - 2 - data.length = 0 := by omega
    rw [copied, none, List.take_append_of_le_length (by rw [List.length_take]; omega), List.take_take,
      Nat.min_eq_left (by omega)]
    simp

theorem parseReq_redis {command : CommandBuffer} {data : Bytes} {readable : Bool}
    (accepted : (parseReq command data readable).1 = .redis) :
    ∃ word, commandWord data = some word ∧ word.length < maxCommandReqSize ∧ (0 : UInt8) ∉ word ∧
      (parseReq command data readable).2 = overwrite command 0 word := by
  unfold parseReq at accepted ⊢
  cases readable with
  | false => cases accepted
  | true =>
      simp only [Bool.not_true, Bool.false_eq_true, if_false] at accepted ⊢
      have recognised : (identifyProtocolRedis (copiedMsg data) command).1 = true := by
        by_contra refused
        rw [if_neg refused] at accepted
        cases accepted
      obtain ⟨letters, counts, lengths, last, rest, request, buffer⟩ := identifyProtocolRedis_accepts recognised
      rw [copiedMsg_front] at request
      obtain ⟨after, front⟩ := request.unpad
      have whole := front.append (data.drop (maxCommandReqSize - 2))
      rw [List.take_append_drop] at whole
      refine ⟨letters.map raise, whole.commandWord, ?_, ?_, buffer⟩
      · have cut := front.letters_length
        have room : 0 < maxCommandReqSize := by decide
        rw [List.length_take] at cut
        rw [List.length_map]
        omega
      · intro member
        obtain ⟨letter, inside, zero⟩ := List.mem_map.mp member
        exact raise_nonzero (request.letters letter inside) zero

/-- The buffer as a C string. -/
def textOf (command : CommandBuffer) : Bytes := command.toList.takeWhile fun byte => byte ≠ 0

theorem overwrite_toList (command : CommandBuffer) (j : Nat) (word : Bytes)
    (fits : j + word.length ≤ maxCommandReqSize) : (overwrite command j word).toList =
      command.toList.take j ++ word ++ command.toList.drop (j + word.length) := by
  induction word generalizing command j with
  | nil => simp [overwrite]
  | cons byte rest ih =>
      simp only [List.length_cons] at fits ⊢
      have inside : j < command.toList.length := by
        rw [Vector.length_toList]
        omega
      have front : (command.toList.take j).length = j := by
        rw [List.length_take]
        omega
      rw [overwrite, ih _ _ (by omega), Vector.toList_setIfInBounds, List.set_eq_take_append_cons_drop,
        if_pos inside, List.take_append, List.drop_append, front]
      have one : j + 1 - j = 1 := by omega
      have past : j + 1 + rest.length - j = rest.length + 1 := by omega
      have total : j + 1 + rest.length = j + (rest.length + 1) := by omega
      have before : (command.toList.take j).take (j + 1) = command.toList.take j :=
        List.take_of_length_le (by omega)
      have after : (command.toList.take j).drop (j + 1 + rest.length) = [] :=
        List.drop_of_length_le (by omega)
      rw [before, after, one, past, List.take_succ_cons, List.take_zero, List.drop_succ_cons, List.drop_drop,
        total, List.nil_append, List.append_assoc, List.append_assoc, List.append_assoc]
      rfl

/-- A word that ends on a NUL is the text of the buffer. -/
theorem textOf_overwrite {command : CommandBuffer} {word : Bytes} (fits : word.length < maxCommandReqSize)
    (nonzero : (0 : UInt8) ∉ word) (ended : command.toList[word.length]? = some 0) :
    textOf (overwrite command 0 word) = word := by
  have inside : word.length < command.toList.length := by
    rw [Vector.length_toList]
    exact fits
  rw [List.getElem?_eq_getElem inside, Option.some.injEq] at ended
  rw [textOf, overwrite_toList command 0 word (by omega), List.take_zero, List.nil_append, Nat.zero_add,
    List.drop_eq_getElem_cons inside, ended]
  have passes : ∀ byte ∈ word, decide (byte ≠ 0) = true := by
    intro byte member
    rw [decide_eq_true_eq]
    rintro rfl
    exact nonzero member
  exact takeWhile_append_cons passes (by decide) _

end GalaGopher.Ebpf.Ksli

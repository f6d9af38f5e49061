import GalaGopher.Ebpf.Ksli.Command

namespace GalaGopher.Ebpf.Ksli

open Text

variable {bytes word letters counts lengths rest : Bytes} {last : UInt8} {j : Nat} {command : CommandBuffer}

theorem foldl_inCount (passes : ∀ byte ∈ counts, inCount byte) (rest : Bytes) :
    (counts ++ dollar :: rest).foldl parseMsgToRedisCmd ⟨j, command, .find1ParmNum⟩ =
      rest.foldl parseMsgToRedisCmd ⟨j, command, .find2CmdLen⟩ := by
  induction counts with
  | nil => rfl
  | cons byte counts ih =>
      have inside := passes byte List.mem_cons_self
      have stays : parseMsgToRedisCmd ⟨j, command, .find1ParmNum⟩ byte = ⟨j, command, .find1ParmNum⟩ :=
        if_pos (by simpa [inCount, or_assoc] using inside)
      rw [List.cons_append, List.foldl_cons, stays]
      exact ih fun other member => passes other (List.mem_cons_of_mem _ member)

theorem foldl_inLength (passes : ∀ byte ∈ lengths, inLength byte) (rest : Bytes) :
    (lengths ++ newline :: rest).foldl parseMsgToRedisCmd ⟨j, command, .find2CmdLen⟩ =
      rest.foldl parseMsgToRedisCmd ⟨j, command, .find3CmdStr⟩ := by
  induction lengths with
  | nil => rfl
  | cons byte lengths ih =>
      have inside := passes byte List.mem_cons_self
      have stays : parseMsgToRedisCmd ⟨j, command, .find2CmdLen⟩ byte = ⟨j, command, .find2CmdLen⟩ :=
        if_pos (by simpa [inLength] using inside)
      rw [List.cons_append, List.foldl_cons, stays]
      exact ih fun other member => passes other (List.mem_cons_of_mem _ member)

theorem foldl_letters (passes : ∀ byte ∈ letters, isLetter byte) (ended : last = carriageReturn ∨ last = newline)
    (rest : Bytes) :
    (letters ++ last :: rest).foldl parseMsgToRedisCmd ⟨j, command, .find3CmdStr⟩ =
      ⟨j + letters.length, overwrite command j (letters.map raise), .findMsgOkStop⟩ := by
  induction letters generalizing j command with
  | nil =>
      have ends := (raise_ends last).mpr ended
      have small : ¬isCapital (raise last) = true := by
        rcases ended with rfl | rfl <;> decide
      have stops : parseMsgToRedisCmd ⟨j, command, .find3CmdStr⟩ last = ⟨j, command, .findMsgOkStop⟩ := by
        simp only [parseMsgToRedisCmd]
        rw [if_neg small, if_pos ends]
      rw [List.nil_append, List.foldl_cons, stops, foldl_stuck rfl]
      rfl
  | cons byte letters ih =>
      have capital : isCapital (raise byte) = true := passes byte List.mem_cons_self
      have step : parseMsgToRedisCmd ⟨j, command, .find3CmdStr⟩ byte =
          ⟨j + 1, command.setIfInBounds j (raise byte), .find3CmdStr⟩ := if_pos capital
      rw [List.cons_append, List.foldl_cons, step, ih fun other member => passes other (List.mem_cons_of_mem _ member),
        List.length_cons, List.map_cons, overwrite, Nat.add_right_comm, Nat.add_assoc]

theorem Request.foldl (request : Request bytes letters counts lengths last rest) (command : CommandBuffer) :
    bytes.foldl parseMsgToRedisCmd ⟨0, command, .find0MsgStart⟩ =
      ⟨letters.length, overwrite command 0 (letters.map raise), .findMsgOkStop⟩ := by
  have begins : parseMsgToRedisCmd ⟨0, command, .find0MsgStart⟩ star = ⟨0, command, .find1ParmNum⟩ := rfl
  rw [request.parts, List.foldl_cons, begins, foldl_inCount request.counts, foldl_inLength request.lengths,
    foldl_letters request.letters request.ended, Nat.zero_add]

/-- The letters written so far fill the front of the buffer, and no more of
them than bytes read. -/
structure Written (command : CommandBuffer) (read : Nat) (state : Recogniser) (word : Bytes) : Prop where
  command : state.command = overwrite command 0 word
  place : state.j = word.length
  few : word.length ≤ read

theorem overwrite_concat (command : CommandBuffer) (j : Nat) (word : Bytes) (byte : UInt8) :
    overwrite command j (word ++ [byte]) = (overwrite command j word).setIfInBounds (j + word.length) byte := by
  induction word generalizing command j with
  | nil => rfl
  | cons first word ih =>
      rw [List.cons_append, overwrite, overwrite, ih, List.length_cons, Nat.add_assoc, Nat.add_comm 1]

theorem Written.step {read : Nat} {state : Recogniser} (written : Written command read state word) (byte : UInt8) :
    ∃ word, Written command (read + 1) (parseMsgToRedisCmd state byte) word := by
  obtain ⟨j, buffer, findState⟩ := state
  have still (findState : FindState) : Written command (read + 1) ⟨j, buffer, findState⟩ word :=
    ⟨written.command, written.place, Nat.le_succ_of_le written.few⟩
  cases findState with
  | find0MsgStart => exact ⟨word, still _⟩
  | find1ParmNum =>
      simp only [parseMsgToRedisCmd]
      split
      case isTrue => exact ⟨word, still _⟩
      case isFalse => split <;> exact ⟨word, still _⟩
  | find2CmdLen =>
      simp only [parseMsgToRedisCmd]
      split
      case isTrue => exact ⟨word, still _⟩
      case isFalse => split <;> exact ⟨word, still _⟩
  | find3CmdStr =>
      simp only [parseMsgToRedisCmd]
      split
      case isTrue =>
          have place : j = word.length := written.place
          have same : buffer = overwrite command 0 word := written.command
          refine ⟨word ++ [raise byte], ?_, ?_, ?_⟩
          · rw [overwrite_concat, Nat.zero_add, ← place, ← same]
          · rw [List.length_append, List.length_singleton, ← place]
          · rw [List.length_append, List.length_singleton]
            exact Nat.succ_le_succ written.few
      case isFalse => split <;> exact ⟨word, still _⟩
  | findMsgErrStop => exact ⟨word, still _⟩
  | findMsgOkStop => exact ⟨word, still _⟩
  | other => exact ⟨word, still _⟩

theorem foldl_written {read : Nat} {state : Recogniser} (written : Written command read state word) (bytes : Bytes) :
    ∃ word, Written command (read + bytes.length) (bytes.foldl parseMsgToRedisCmd state) word := by
  induction bytes generalizing read state word with
  | nil => exact ⟨word, written⟩
  | cons byte bytes ih =>
      obtain ⟨longer, step⟩ := written.step byte
      obtain ⟨final, run⟩ := ih step
      rw [List.length_cons, Nat.add_comm bytes.length, ← Nat.add_assoc]
      exact ⟨final, run⟩

theorem identifyProtocolRedis_written (msg : Bytes) (command : CommandBuffer) :
    ∃ word, word.length ≤ maxCommandReqSize - 2 ∧ (identifyProtocolRedis msg command).2 = overwrite command 0 word := by
  have start : Written command 0 ⟨0, command, .find0MsgStart⟩ [] := ⟨rfl, rfl, Nat.le_refl _⟩
  obtain ⟨word, run⟩ := foldl_written start (msg.take (maxCommandReqSize - 2))
  refine ⟨word, Nat.le_trans run.few ?_, run.command⟩
  rw [Nat.zero_add]
  exact List.length_take_le _ _

/-- The first 29 bytes of what is searched: the data, and zeros where it is
shorter. -/
def front (data : Bytes) : Bytes :=
  data.take (maxCommandReqSize - 2) ++ List.replicate (maxCommandReqSize - 2 - data.length) 0

theorem identifyProtocolRedis_copied_iff (data : Bytes) (command : CommandBuffer) :
    (identifyProtocolRedis (copiedMsg data) command).1 = true ↔
      ∃ letters counts lengths last rest, Request (front data) letters counts lengths last rest := by
  constructor
  · intro accepted
    obtain ⟨letters, counts, lengths, last, rest, request, _⟩ := identifyProtocolRedis_accepts accepted
    rw [copiedMsg_front] at request
    exact ⟨letters, counts, lengths, last, rest, request⟩
  · rintro ⟨letters, counts, lengths, last, rest, request⟩
    simp only [identifyProtocolRedis, copiedMsg_front]
    rw [← front, request.foldl command]
    rfl

theorem identifyProtocolRedis_copied_word (request : Request (front bytes) letters counts lengths last rest)
    (command : CommandBuffer) :
    (identifyProtocolRedis (copiedMsg bytes) command).2 = overwrite command 0 (letters.map raise) := by
  simp only [identifyProtocolRedis, copiedMsg_front]
  rw [← front, request.foldl command]

theorem parseReq_eq_redis_iff (command : CommandBuffer) (data : Bytes) (readable : Bool) :
    (parseReq command data readable).1 = .redis ↔
      readable ∧ (identifyProtocolRedis (copiedMsg data) command).1 = true := by
  cases readable with
  | false => simp [parseReq]
  | true => cases found : (identifyProtocolRedis (copiedMsg data) command).1 <;> simp [parseReq, found]

theorem length_front (data : Bytes) : (front data).length = maxCommandReqSize - 2 := by
  rw [front, List.length_append, List.length_take, List.length_replicate]
  omega

/-- The word in a buffer that was clear before. -/
theorem overwrite_clear (word : Bytes) (short : word.length ≤ maxCommandReqSize) :
    (overwrite (.replicate maxCommandReqSize 0) 0 word).toList =
      word ++ List.replicate (maxCommandReqSize - word.length) 0 := by
  rw [overwrite_toList _ 0 word (by omega), List.take_zero, List.nil_append, Nat.zero_add, Vector.toList_replicate,
    List.drop_replicate]

theorem parseReq_accepts_grammar (data : Bytes) (readable : Bool) :
    let parsed := parseReq (.replicate maxCommandReqSize 0) data readable
    (parsed.1 = .redis ↔
      readable ∧ ∃ letters counts lengths last rest, Request (front data) letters counts lengths last rest) ∧
    (parsed.1 = .redis → ∀ letters counts lengths last rest, Request (front data) letters counts lengths last rest →
      letters.length < maxCommandReqSize ∧
      parsed.2.toList = letters.map raise ++ List.replicate (maxCommandReqSize - letters.length) 0) ∧
    ∀ command, ∃ word, word.length ≤ maxCommandReqSize - 1 ∧
      (parseReq command data readable).2 = overwrite command 0 word := by
  refine ⟨?_, ?_, ?_⟩
  · rw [parseReq_eq_redis_iff, identifyProtocolRedis_copied_iff]
  · intro accepted letters counts lengths last rest request
    have read := ((parseReq_eq_redis_iff _ _ _).mp accepted).1
    have short := request.letters_length
    rw [length_front] at short
    have room : letters.length < maxCommandReqSize := by omega
    subst read
    refine ⟨room, ?_⟩
    have buffer : (parseReq (.replicate maxCommandReqSize 0) data true).2 =
        overwrite (.replicate maxCommandReqSize 0) 0 (letters.map raise) :=
      identifyProtocolRedis_copied_word request _
    rw [buffer, overwrite_clear _ (by rw [List.length_map]; omega), List.length_map]
  · intro command
    cases readable with
    | false => exact ⟨[], Nat.zero_le _, rfl⟩
    | true =>
        obtain ⟨word, few, buffer⟩ := identifyProtocolRedis_written (copiedMsg data) command
        exact ⟨word, Nat.le_trans few (by decide), buffer⟩

end GalaGopher.Ebpf.Ksli

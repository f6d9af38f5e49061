import GalaGopher.Ebpf.Ksli.Grammar
import GalaGopher.RedisClient.Pairing

namespace GalaGopher.RedisClient

open GalaGopher.Text GalaGopher.Text.Resp GalaGopher.Ebpf.Ksli

variable {msg letters counts lengths rest letters' counts' lengths' rest' : Bytes} {last last' : UInt8}

theorem not_isLetter_of_ends {byte : UInt8} (ends : byte = carriageReturn ∨ byte = newline) : isLetter byte = false := by
  rcases ends with rfl | rfl <;> decide

/-- A request is taken apart in one way. -/
theorem request_unique (request : Request msg letters counts lengths last rest)
    (other : Request msg letters' counts' lengths' last' rest') :
    counts = counts' ∧ lengths = lengths' ∧ letters = letters' := by
  have whole := request.parts.symm.trans other.parts
  rw [List.cons.injEq] at whole
  have first := congrArg (List.takeWhile inCount) whole.2
  have afterCounts := congrArg (List.dropWhile inCount) whole.2
  rw [takeWhile_append_cons request.counts (by decide), takeWhile_append_cons other.counts (by decide)] at first
  rw [dropWhile_append_cons inCount request.counts (by decide), dropWhile_append_cons inCount other.counts (by decide),
    List.cons.injEq] at afterCounts
  have second := congrArg (List.takeWhile inLength) afterCounts.2
  have afterLengths := congrArg (List.dropWhile inLength) afterCounts.2
  rw [takeWhile_append_cons request.lengths (by decide), takeWhile_append_cons other.lengths (by decide)] at second
  rw [dropWhile_append_cons inLength request.lengths (by decide),
    dropWhile_append_cons inLength other.lengths (by decide), List.cons.injEq] at afterLengths
  have third := congrArg (List.takeWhile isLetter) afterLengths.2
  rw [takeWhile_append_cons request.letters (not_isLetter_of_ends request.ended),
    takeWhile_append_cons other.letters (not_isLetter_of_ends other.ended)] at third
  exact ⟨first, second, third⟩

/-- The bytes of a packed command up to the one behind its word. -/
def observedSize (cmd : Bytes) (args : List Value) : Nat :=
  (ascii (toString (args.length + 1))).length + (ascii (toString cmd.length)).length + cmd.length + 7

theorem packCommand_request {cmd : Bytes} (letters : ∀ byte ∈ cmd, isLetter byte) (args : List Value) (more : Bytes) :
    Request (packCommand (.str cmd :: args) ++ more) cmd (ascii (toString (args.length + 1)) ++ crlf)
      (ascii (toString cmd.length) ++ [carriageReturn]) carriageReturn
      (newline :: ((args.map encode).flatMap bulkText ++ more)) where
  parts := by
    rw [packCommand_eq]
    simp [requestText, countText, bulkText, encode, crlf, Resp.star, Resp.dollar, Ebpf.Ksli.star, Ebpf.Ksli.dollar,
      carriageReturn, newline]
  counts byte member := by
    rcases List.mem_append.mp member with digit | ending
    · have digit : Ebpf.Ksli.isDigit byte = true := (whole_printed (args.length + 1)).digits byte digit
      rw [inCount, digit]
      rfl
    · exact (by decide +kernel : ∀ byte ∈ crlf, inCount byte) byte ending
  lengths byte member := by
    rcases List.mem_append.mp member with digit | ending
    · have digit : Ebpf.Ksli.isDigit byte = true := (whole_printed cmd.length).digits byte digit
      rw [inLength, digit]
      rfl
    · exact (by decide +kernel : ∀ byte ∈ [carriageReturn], inLength byte) byte ending
  letters := letters
  ended := .inl rfl

theorem request_size (request : Request msg letters counts lengths last rest) :
    counts.length + lengths.length + letters.length + 4 ≤ msg.length := by
  rw [request.parts]
  simp only [List.length_cons, List.length_append]
  omega

/-- A request whose word ends inside the first bytes is one of those bytes. -/
theorem request_front {data : Bytes} (request : Request data letters counts lengths last rest)
    (inside : counts.length + lengths.length + letters.length + 4 ≤ maxCommandReqSize - 2) :
    ∃ after, Request (front data) letters counts lengths last after := by
  let word := Ebpf.Ksli.star :: (counts ++ Ebpf.Ksli.dollar :: (lengths ++ newline :: (letters ++ [last])))
  have whole : data = word ++ rest := by simp [request.parts, word]
  have size : word.length = counts.length + lengths.length + letters.length + 4 := by
    simp only [word, List.length_cons, List.length_append, List.length_nil]
    omega
  refine ⟨rest.take (maxCommandReqSize - 2 - word.length) ++ List.replicate (maxCommandReqSize - 2 - data.length) 0,
    { request with parts := ?_ }⟩
  have cut : data.take (maxCommandReqSize - 2) = word ++ rest.take (maxCommandReqSize - 2 - word.length) := by
    rw [whole, List.take_append, List.take_of_length_le (by omega)]
  rw [front, cut]
  simp [word]

/-- A command is seen exactly where the probe's copy reaches the break behind
its word, and then by its own name. -/
theorem packCommand_observed (cmd : Bytes) (letters : ∀ byte ∈ cmd, isLetter byte) (args : List Value) (more : Bytes) :
    (∀ command, (parseReq command (packCommand (.str cmd :: args) ++ more) true).1 = .redis ↔
      observedSize cmd args ≤ maxCommandReqSize - 2) ∧
    (observedSize cmd args ≤ maxCommandReqSize - 2 →
      textOf (parseReq (.replicate maxCommandReqSize 0) (packCommand (.str cmd :: args) ++ more) true).2 =
        cmd.map raise) := by
  have request := packCommand_request letters args more
  have size : (ascii (toString (args.length + 1)) ++ crlf).length +
      (ascii (toString cmd.length) ++ [carriageReturn]).length + cmd.length + 4 = observedSize cmd args := by
    rw [observedSize, List.length_append, List.length_append]
    simp only [crlf, List.length_cons, List.length_nil]
    omega
  constructor
  · intro command
    rw [parseReq_eq_redis_iff, identifyProtocolRedis_copied_iff]
    constructor
    · rintro ⟨_, word, counts, lengths, last, rest, cut⟩
      obtain ⟨after, copied⟩ := cut.unpad
      have whole := copied.append ((packCommand (.str cmd :: args) ++ more).drop (maxCommandReqSize - 2))
      rw [List.take_append_drop] at whole
      obtain ⟨rfl, rfl, rfl⟩ := request_unique request whole
      rw [← size]
      exact Nat.le_trans (request_size copied) (List.length_take_le _ _)
    · intro inside
      obtain ⟨after, copied⟩ := request_front request (size ▸ inside)
      exact ⟨rfl, _, _, _, _, _, copied⟩
  · intro inside
    obtain ⟨after, copied⟩ := request_front request (size ▸ inside)
    have buffer : (parseReq (.replicate maxCommandReqSize 0) (packCommand (.str cmd :: args) ++ more) true).2 =
        overwrite (.replicate maxCommandReqSize 0) 0 (cmd.map raise) :=
      identifyProtocolRedis_copied_word copied _
    have room : (cmd.map raise).length < maxCommandReqSize := by
      rw [List.length_map]
      rw [observedSize] at inside
      omega
    have nonzero : (0 : UInt8) ∉ cmd.map raise := by
      intro member
      obtain ⟨letter, there, zero⟩ := List.mem_map.mp member
      exact raise_nonzero (letters letter there) zero
    rw [buffer]
    apply textOf_overwrite room nonzero
    rw [Vector.toList_replicate, List.getElem?_replicate, if_pos room]

theorem packCommand_observed_get :
    (parseReq (.replicate maxCommandReqSize 0) (packCommand [.str (ascii "GET"), .int 7] ++ []) true).1 = .redis :=
  ((packCommand_observed (ascii "GET") (by decide +kernel) [.int 7] []).1 _).mpr (by decide +kernel)

end GalaGopher.RedisClient

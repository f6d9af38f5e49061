import GalaGopher.Text.Lines
import GalaGopher.Text.Options
import Mathlib.Data.List.Forall2
import Mathlib.Data.List.TakeWhile

namespace GalaGopher.Text

/-- The next token of `strtok`, the memory up to where it stopped, and the text
behind. A delimiter behind the token is overwritten with NUL. -/
def nextToken (delimiter : UInt8) (text : Bytes) : Option (Bytes × Bytes × Bytes) :=
  let passed := text.takeWhile fun byte => byte = delimiter
  let start := text.dropWhile fun byte => byte = delimiter
  if start = [] then none
  else
    let token := start.takeWhile fun byte => byte ≠ delimiter
    match start.dropWhile fun byte => byte ≠ delimiter with
    | [] => some (token, passed ++ token, [])
    | _ :: rest => some (token, passed ++ token ++ [0], rest)

variable {delimiter : UInt8} {text token written rest : Bytes}

/-- Delimiters, and what begins with another byte behind them. -/
theorem split_passed (delimiter : UInt8) (text : Bytes) :
    ∃ passed start, text = passed ++ start ∧ (∀ byte ∈ passed, byte = delimiter) ∧ start.head? ≠ some delimiter := by
  induction text with
  | nil => exact ⟨[], [], rfl, by simp, by simp⟩
  | cons byte text ih =>
      by_cases same : byte = delimiter
      · obtain ⟨passed, start, rfl, all, other⟩ := ih
        exact ⟨byte :: passed, start, rfl, List.forall_mem_cons.mpr ⟨same, all⟩, other⟩
      · exact ⟨[], byte :: text, rfl, by simp, by simpa using same⟩

theorem nextToken_passed {passed start : Bytes} (all : ∀ byte ∈ passed, byte = delimiter)
    (other : start.head? ≠ some delimiter) :
    (passed ++ start).takeWhile (fun byte => byte = delimiter) = passed ∧
      (passed ++ start).dropWhile (fun byte => byte = delimiter) = start := by
  have every : ∀ byte ∈ passed, decide (byte = delimiter) = true := by simpa using all
  rw [List.takeWhile_append_of_pos every, List.dropWhile_append_of_pos every]
  cases start with
  | nil => simp
  | cons byte rest =>
      have different : byte ≠ delimiter := by simpa using other
      simp [different]

/-- What a text holds for `strtok`: delimiters only, or a last token, or a token
and a delimiter behind it. -/
inductive Begins (delimiter : UInt8) : Bytes → Option (Bytes × Bytes × Bytes) → Prop where
  | done {passed : Bytes} (all : ∀ byte ∈ passed, byte = delimiter) : Begins delimiter passed none
  | last {passed token : Bytes} (all : ∀ byte ∈ passed, byte = delimiter) (filled : token ≠ [])
      (free : delimiter ∉ token) : Begins delimiter (passed ++ token) (some (token, passed ++ token, []))
  | closed {passed token rest : Bytes} (all : ∀ byte ∈ passed, byte = delimiter) (filled : token ≠ [])
      (free : delimiter ∉ token) :
      Begins delimiter (passed ++ (token ++ delimiter :: rest)) (some (token, passed ++ token ++ [0], rest))

theorem begins_nextToken (delimiter : UInt8) (text : Bytes) : Begins delimiter text (nextToken delimiter text) := by
  obtain ⟨passed, start, rfl, all, other⟩ := split_passed delimiter text
  obtain ⟨takes, drops⟩ := nextToken_passed all other
  simp only [nextToken, takes, drops]
  by_cases present : delimiter ∈ start
  · obtain ⟨token, rest, rfl, free⟩ := List.eq_append_cons_of_mem present
    have filled : token ≠ [] := by
      rintro rfl
      exact other rfl
    have every : ∀ byte ∈ token, decide (byte ≠ delimiter) = true := by
      intro byte member
      exact decide_eq_true fun same => free (same ▸ member)
    rw [if_neg (by simp), List.takeWhile_append_of_pos every, List.dropWhile_append_of_pos every]
    simp only [ne_eq, not_true_eq_false, decide_false, Bool.false_eq_true, not_false_eq_true, List.takeWhile_cons_of_neg,
      List.dropWhile_cons_of_neg, List.append_nil]
    exact .closed all filled free
  · by_cases empty : start = []
    · rw [if_pos empty, empty, List.append_nil]
      exact .done all
    · have every : ∀ byte ∈ start, decide (byte ≠ delimiter) = true := by
        intro byte member
        exact decide_eq_true fun same => present (same ▸ member)
      rw [if_neg empty, List.takeWhile_eq_self_iff.mpr every, List.dropWhile_eq_nil_iff.mpr every]
      exact .last all empty present

theorem strtok_passed {passed : Bytes} (all : ∀ byte ∈ passed, byte = delimiter) (text : Bytes) :
    strtok (passed ++ text) delimiter = strtok text delimiter := by
  induction passed with
  | nil => rfl
  | cons byte passed ih =>
      rw [List.forall_mem_cons] at all
      rw [all.1, List.cons_append, ← List.nil_append (delimiter :: (passed ++ text)), strtok_append, ih all.2]
      rfl

theorem strtok_none (next : nextToken delimiter text = none) : strtok text delimiter = [] := by
  have begins := begins_nextToken delimiter text
  rw [next] at begins
  cases begins with
  | done all =>
      have tokens := strtok_passed all []
      rwa [List.append_nil] at tokens

/-- A call returns the next of the tokens and leaves a shorter text. -/
theorem strtok_some (next : nextToken delimiter text = some (token, written, rest)) :
    strtok text delimiter = token :: strtok rest delimiter ∧ rest.length < text.length := by
  have begins := begins_nextToken delimiter text
  rw [next] at begins
  cases begins with
  | last all filled free =>
      refine ⟨?_, ?_⟩
      · rw [strtok_passed all, strtok_whole free filled]
        rfl
      · rw [List.length_nil, List.length_append]
        exact Nat.add_pos_right _ (List.length_pos_iff.mpr filled)
  | closed all filled free =>
      refine ⟨?_, ?_⟩
      · rw [strtok_passed all, strtok_append, strtok_whole free filled]
        rfl
      · simp only [List.length_append, List.length_cons]
        omega

theorem dropWhile_passed {passed start : Bytes} (all : ∀ byte ∈ passed, byte = delimiter)
    (other : start.head? ≠ some delimiter) : (passed ++ start).dropWhile (fun byte => byte = delimiter) = start :=
  (nextToken_passed all other).2

theorem head?_token (filled : token ≠ []) (free : delimiter ∉ token) (behind : Bytes) :
    (token ++ behind).head? ≠ some delimiter := by
  obtain ⟨first, more, rfl⟩ := List.exists_cons_of_ne_nil filled
  rw [List.cons_append, List.head?_cons, ne_eq, Option.some.injEq]
  exact fun same => free (same ▸ List.mem_cons_self)

/-- The loop that stores a pointer to each token while the table has room: the
offsets stored, and the memory. One token more is looked for. -/
def strtokInto (delimiter : UInt8) : Nat → Bytes → Nat → List Nat × Bytes
  | 0, text, _ =>
      match nextToken delimiter text with
      | none => ([], text)
      | some (_, written, rest) => ([], written ++ rest)
  | room + 1, text, offset =>
      match nextToken delimiter text with
      | none => ([], text)
      | some (_, written, rest) =>
          let (offsets, memory) := strtokInto delimiter room rest (offset + written.length)
          ((offset + (text.takeWhile fun byte => byte = delimiter).length) :: offsets, written ++ memory)

theorem length_strtokInto (delimiter : UInt8) (room : Nat) (text : Bytes) (offset : Nat) :
    (strtokInto delimiter room text offset).1.length = min room (strtok text delimiter).length := by
  induction room generalizing text offset with
  | zero =>
      rw [strtokInto, Nat.zero_min]
      split <;> rfl
  | succ room ih =>
      rw [strtokInto]
      cases next : nextToken delimiter text with
      | none => simp [strtok_none next]
      | some parts =>
          obtain ⟨token, written, rest⟩ := parts
          simp only [(strtok_some next).1, List.length_cons, ih, Nat.add_min_add_right]

theorem passed_token {passed : Bytes} (all : ∀ byte ∈ passed, byte = delimiter) (filled : token ≠ [])
    (free : delimiter ∉ token) (behind : Bytes) :
    (passed ++ (token ++ behind)).takeWhile (fun byte => byte = delimiter) = passed :=
  (nextToken_passed all (head?_token filled free behind)).1

theorem nextToken_length (next : nextToken delimiter text = some (token, written, rest)) :
    written.length + rest.length = text.length := by
  have begins := begins_nextToken delimiter text
  rw [next] at begins
  cases begins with
  | last => rfl
  | closed =>
      simp only [List.length_append, List.length_cons, List.length_nil]
      omega

theorem length_memory (delimiter : UInt8) (room : Nat) (text : Bytes) (offset : Nat) :
    (strtokInto delimiter room text offset).2.length = text.length := by
  induction room generalizing text offset with
  | zero =>
      rw [strtokInto]
      split
      case h_1 => rfl
      case h_2 token written rest next => rw [List.length_append, nextToken_length next]
  | succ room ih =>
      rw [strtokInto]
      cases next : nextToken delimiter text with
      | none => rfl
      | some parts =>
          obtain ⟨token, written, rest⟩ := parts
          rw [← nextToken_length next, List.length_append, ih]

/-- The memory about the last of the tokens that are stored: the others stand in
front of it, each with its end. -/
structure Laid (text : Bytes) (offset : Nat) (earlier : List Bytes) (last : Bytes) (places : List Nat) (front behind : Bytes) :
    Prop where
  strings : List.Forall₂ (fun place token => offset ≤ place ∧ ∃ more, front.drop (place - offset) = token ++ 0 :: more)
    places earlier
  length : earlier.flatten.length + earlier.length ≤ front.length
  ended : behind = [] ∨ behind.head? = some 0
  source : ∃ before after, text = before ++ (last ++ after) ∧ before.length = front.length ∧ after.length = behind.length

theorem strtokInto_first (offset : Nat) (next : nextToken delimiter text = some (token, written, rest)) :
    ∃ front behind, strtokInto delimiter 1 text offset = ([offset + front.length], front ++ (token ++ behind)) ∧
      Laid text offset [] token [] front behind := by
  have none : (strtokInto delimiter 0 rest (offset + written.length)).1 = [] :=
    List.eq_nil_of_length_eq_zero ((length_strtokInto _ _ _ _).trans (Nat.zero_min _))
  have length := length_memory delimiter 0 rest (offset + written.length)
  have begins := begins_nextToken delimiter text
  rw [strtokInto, next]
  simp only
  generalize strtokInto delimiter 0 rest (offset + written.length) = later at none length ⊢
  obtain ⟨offsets, memory⟩ := later
  obtain rfl : offsets = [] := none
  rw [next] at begins
  cases begins with
  | @last passed _ all filled free =>
      obtain rfl : memory = [] := List.eq_nil_of_length_eq_zero length
      have skipped := passed_token all filled free []
      rw [List.append_nil] at skipped
      refine ⟨passed, [], ?_, .nil, Nat.zero_le _, .inl rfl, passed, [], ?_, rfl, rfl⟩
      · simp only [skipped, List.append_nil]
      · rw [List.append_nil]
  | @closed passed _ _ all filled free =>
      have skipped := passed_token all filled free (delimiter :: rest)
      refine ⟨passed, 0 :: memory, ?_, .nil, Nat.zero_le _, .inr rfl, passed, delimiter :: rest, rfl, rfl,
        congrArg Nat.succ length.symm⟩
      simp only [skipped, List.append_assoc, List.singleton_append]

/-- One token more in front. -/
theorem Laid.cons {passed front behind : Bytes} {offset : Nat} {earlier : List Bytes} {last : Bytes} {places : List Nat}
    (laid : Laid rest (offset + (passed ++ token ++ [0]).length) earlier last places front behind) :
    Laid (passed ++ (token ++ delimiter :: rest)) offset (token :: earlier) last ((offset + passed.length) :: places)
      (passed ++ token ++ [0] ++ front) behind where
  strings := by
    refine .cons ⟨Nat.le_add_right _ _, front, ?_⟩ (laid.strings.imp fun place string found => ?_)
    · rw [Nat.add_sub_cancel_left, List.append_assoc, List.append_assoc, List.drop_left]
      rfl
    · obtain ⟨beyond, more, here⟩ := found
      refine ⟨Nat.le_trans (Nat.le_add_right _ _) beyond, more, ?_⟩
      have skip : place - offset =
          (passed ++ token ++ [0]).length + (place - (offset + (passed ++ token ++ [0]).length)) := by omega
      rw [skip, ← List.drop_drop, List.drop_left, here]
  length := by
    have length := laid.length
    simp only [List.flatten_cons, List.length_append, List.length_cons, List.length_nil]
    omega
  ended := laid.ended
  source := by
    obtain ⟨before, after, shape, frontLength, behindLength⟩ := laid.source
    refine ⟨passed ++ token ++ [delimiter] ++ before, after, ?_, ?_, behindLength⟩
    · rw [shape]
      simp only [List.append_assoc, List.cons_append, List.nil_append]
    · simp only [List.length_append, frontLength, List.length_singleton]

/-- Where `strtok` puts the tokens. -/
theorem strtokInto_laid {earlier more : List Bytes} {last : Bytes} (offset : Nat)
    (tokens : strtok text delimiter = earlier ++ last :: more) :
    ∃ places front behind, strtokInto delimiter (earlier.length + 1) text offset =
        (places ++ [offset + front.length], front ++ (last ++ behind)) ∧
      Laid text offset earlier last places front behind := by
  induction earlier generalizing text offset with
  | nil =>
      cases next : nextToken delimiter text with
      | none =>
          rw [strtok_none next] at tokens
          cases tokens
      | some parts =>
          obtain ⟨token, written, rest⟩ := parts
          rw [(strtok_some next).1] at tokens
          obtain rfl := (List.cons.inj tokens).1
          obtain ⟨front, behind, stored, laid⟩ := strtokInto_first offset next
          exact ⟨[], front, behind, stored, laid⟩
  | cons first earlier ih =>
      have begins := begins_nextToken delimiter text
      cases next : nextToken delimiter text with
      | none =>
          rw [strtok_none next] at tokens
          cases tokens
      | some parts =>
          obtain ⟨token, written, rest⟩ := parts
          rw [(strtok_some next).1] at tokens
          obtain ⟨rfl, following⟩ := List.cons.inj tokens
          obtain ⟨places, front, behind, stored, laid⟩ := ih (offset + written.length) following
          rw [List.length_cons, strtokInto, next]
          simp only [stored]
          rw [next] at begins
          cases begins with
          | last => exact absurd following.symm (List.append_ne_nil_of_right_ne_nil _ (List.cons_ne_nil _ _))
          | @closed passed _ _ all filled free =>
              have skipped := passed_token all filled free (delimiter :: rest)
              have total : offset + (passed ++ token ++ [0]).length + front.length =
                  offset + (passed ++ token ++ [0] ++ front).length := by
                rw [Nat.add_assoc, ← List.length_append]
              refine ⟨(offset + passed.length) :: places, passed ++ token ++ [0] ++ front, behind, ?_, laid.cons⟩
              rw [skipped, total, List.cons_append, List.append_assoc (passed ++ token ++ [0]) front]

/-- The strings at the places, whatever is behind them. -/
theorem Laid.strings_at {earlier : List Bytes} {last front behind : Bytes} {places : List Nat}
    (laid : Laid text 0 earlier last places front behind) (nonzero : ∀ token ∈ earlier, (0 : UInt8) ∉ token)
    (rest : Bytes) : places.map (fun place => cString ((front ++ rest).drop place)) = earlier := by
  have strings := laid.strings
  clear laid
  induction strings with
  | nil => rfl
  | @cons place token places tokens here _ ih =>
      obtain ⟨_, more, found⟩ := here
      rw [List.forall_mem_cons] at nonzero
      rw [Nat.sub_zero] at found
      have within : place ≤ front.length := by
        refine Nat.le_of_not_lt fun beyond => ?_
        rw [List.drop_of_length_le (Nat.le_of_lt beyond)] at found
        simp at found
      rw [List.map_cons, ih nonzero.2, List.drop_append_of_le_length within, found, List.append_assoc, List.cons_append,
        cString_before nonzero.1]

theorem mem_strtok (member : token ∈ strtok text delimiter) :
    token ≠ [] ∧ delimiter ∉ token ∧ ∀ byte ∈ token, byte ∈ text := by
  induction count : text.length using Nat.strongRecOn generalizing text with
  | ind count ih =>
      have begins := begins_nextToken delimiter text
      cases next : nextToken delimiter text with
      | none =>
          rw [strtok_none next] at member
          cases member
      | some parts =>
          obtain ⟨first, written, rest⟩ := parts
          obtain ⟨tokens, shorter⟩ := strtok_some next
          rw [next] at begins
          rcases List.mem_cons.mp (tokens ▸ member) with rfl | later
          · cases begins with
            | last _ filled free => exact ⟨filled, free, fun byte => List.mem_append_right _⟩
            | closed _ filled free =>
                exact ⟨filled, free, fun byte inside => List.mem_append_right _ (List.mem_append_left _ inside)⟩
          · obtain ⟨filled, free, within⟩ := ih _ (count ▸ shorter) later rfl
            refine ⟨filled, free, fun byte inside => ?_⟩
            cases begins with
            | last => exact absurd (within byte inside) List.not_mem_nil
            | closed =>
                exact List.mem_append_right _ (List.mem_append_right _ (List.mem_cons_of_mem _ (within byte inside)))

end GalaGopher.Text

import GalaGopher.Probe.SystemProcs
import Mathlib.Data.List.Chain

namespace GalaGopher.Probe

open GalaGopher.Text

/-- The arguments of a process, each closed by a NUL but perhaps the last. -/
def arguments (file : Bytes) : List Bytes :=
  if file = [] then []
  else if file.getLast? = some 0 then file.dropLast.splitOn 0
  else file.splitOn 0

/-- The arguments joined by blanks, as far as the buffer holds them. -/
def commandLine (file : Bytes) : Bytes := ([blank].intercalate (arguments file)).take (lineBufLen - 1)

def blanked (byte : UInt8) : UInt8 := if byte = 0 then blank else byte

/-- A byte that looks like the end of the file is not at the start and not
behind a blank. -/
def Follows (before byte : UInt8) : Prop := ¬ (before = blank ∧ byte = endOfFile)

instance : DecidableRel Follows := fun before byte => inferInstanceAs (Decidable (¬ (before = blank ∧ byte = endOfFile)))

/-- The byte before the next place, taken for a blank at the first. -/
def before (line : Bytes) : UInt8 := line.getLast?.getD blank

/-- No byte is taken for the end of the file. -/
def Clean (file : Bytes) : Prop := List.IsChain Follows (blank :: file.map blanked)

instance (file : Bytes) : Decidable (Clean file) := inferInstanceAs (Decidable (List.IsChain _ _))

variable {file front line final rest text after : Bytes} {byte : UInt8}

theorem blanked_ne_zero : blanked byte ≠ 0 := by
  rw [blanked]
  split
  case isTrue => exact (by decide : blank ≠ 0)
  case isFalse other => exact other

theorem map_blanked_of_free (free : 0 ∉ file) : file.map blanked = file := by
  have same : ∀ byte ∈ file, blanked byte = byte := by
    intro byte member
    have other : byte ≠ 0 := fun zero => free (zero ▸ member)
    rw [blanked, if_neg other]
  rw [List.map_congr_left same, List.map_id']

theorem zero_notMem_blanked (file : Bytes) : 0 ∉ file.map blanked := by
  intro member
  obtain ⟨byte, _, same⟩ := List.mem_map.mp member
  exact blanked_ne_zero same

theorem intercalate_splitOn_zero (file : Bytes) : [blank].intercalate (file.splitOn 0) = file.map blanked := by
  by_cases free : 0 ∉ file
  · rw [List.splitOn_eq_singleton free, List.intercalate_singleton, map_blanked_of_free free]
  · obtain ⟨front, rest, rfl, frontFree⟩ := List.eq_append_cons_of_mem (not_not.mp free)
    have later := intercalate_splitOn_zero rest
    rw [List.splitOn_append_cons_self_of_not_mem frontFree,
      List.intercalate_cons_of_ne_nil (List.splitOn_ne_nil 0 rest), later, List.map_append, List.map_cons,
      map_blanked_of_free frontFree, List.append_assoc]
    rfl
termination_by file.length
decreasing_by
  subst_vars
  simp only [List.length_append, List.length_cons]
  omega

theorem commandLine_closed (front : Bytes) :
    commandLine (front ++ [0]) = (front.map blanked).take (lineBufLen - 1) := by
  rw [commandLine, arguments, if_neg (by simp), if_pos (by simp), List.dropLast_concat, intercalate_splitOn_zero]

theorem commandLine_open (unclosed : file.getLast? ≠ some 0) :
    commandLine file = (file.map blanked).take (lineBufLen - 1) := by
  by_cases empty : file = []
  · subst file
    rfl
  · rw [commandLine, arguments, if_neg empty, if_neg unclosed, intercalate_splitOn_zero]

theorem commandLine_within (file : Bytes) : commandLine file <+: file.map blanked := by
  by_cases closed : file.getLast? = some 0
  · obtain ⟨front, rfl⟩ := List.getLast?_eq_some_iff.mp closed
    rw [commandLine_closed, List.map_append]
    exact (List.take_prefix _ _).trans (List.prefix_append _ _)
  · rw [commandLine_open closed]
    exact List.take_prefix _ _

theorem prefix_commandLine (inside : text ++ [blank] <+: file.map blanked) (short : text.length < lineBufLen - 1) :
    text <+: commandLine file := by
  have front : text <+: file.map blanked := (List.prefix_append text _).trans inside
  have less := inside.length_le
  apply List.prefix_of_prefix_length_le front (commandLine_within file)
  by_cases closed : file.getLast? = some 0
  · obtain ⟨front, rfl⟩ := List.getLast?_eq_some_iff.mp closed
    rw [commandLine_closed, List.length_take]
    simp only [List.length_append, List.length_map, List.length_singleton] at less ⊢
    omega
  · rw [commandLine_open closed, List.length_take]
    simp only [List.length_append, List.length_map, List.length_singleton] at less ⊢
    omega

theorem before_append (line : Bytes) (byte : UInt8) : before (line ++ [byte]) = byte := by
  rw [before, List.getLast?_concat, Option.getD_some]

/-- A byte in its place is stored as it is, with a blank for a NUL. -/
theorem storeChar_follows (follows : Follows (before line) (blanked byte)) :
    storeChar line byte = .ok (line ++ [blanked byte]) := by
  rw [storeChar, blanked] at *
  split
  case isTrue => rfl
  case isFalse other =>
      rw [if_neg other] at follows
      split
      case isTrue ends =>
          rw [before] at follows
          split
          case h_1 empty =>
              rw [empty] at follows
              exact absurd ⟨rfl, ends⟩ follows
          case h_2 last found =>
              have other : last ≠ blank := by
                intro same
                rw [found] at follows
                exact follows ⟨same, ends⟩
              rw [if_neg other]
      case isFalse => rfl

/-- Elsewhere it closes the string before the blank. -/
theorem storeChar_cut (follows : ¬ Follows (before line) (blanked byte)) (stored : storeChar line byte = .ok after) :
    ∃ front, line = front ++ [blank] ∧ after = front ++ [0, endOfFile] := by
  obtain ⟨last, ends⟩ := not_not.mp follows
  have other : byte ≠ 0 := by
    intro zero
    rw [zero] at ends
    exact absurd ends (by decide)
  rw [blanked, if_neg other] at ends
  rw [storeChar, if_neg other, if_pos ends] at stored
  split at stored
  case h_1 => cases stored
  case h_2 found =>
      rw [before, found, Option.getD_some] at last
      obtain ⟨front, rfl⟩ := List.getLast?_eq_some_iff.mp found
      rw [if_pos last, List.dropLast_concat, ends] at stored
      cases stored
      exact ⟨front, by rw [last], rfl⟩

theorem storeChar_length (stored : storeChar line byte = .ok after) : after.length = line.length + 1 := by
  by_cases follows : Follows (before line) (blanked byte)
  · rw [storeChar_follows follows] at stored
    cases stored
    exact List.length_append
  · obtain ⟨front, rfl, rfl⟩ := storeChar_cut follows stored
    simp only [List.length_append, List.length_cons, List.length_nil]

/-- `text` is the string in the places written, with more behind its NUL. -/
def Closed (text line : Bytes) : Prop := text ++ [0] <+: line ∧ text.length + 2 ≤ line.length

theorem storeChar_closed (closed : Closed text line) (stored : storeChar line byte = .ok after) :
    Closed text after := by
  obtain ⟨front, behind⟩ := closed
  have longer := storeChar_length stored
  refine ⟨?_, by omega⟩
  by_cases follows : Follows (before line) (blanked byte)
  · rw [storeChar_follows follows] at stored
    cases stored
    exact front.trans (List.prefix_append line _)
  · obtain ⟨kept, rfl, rfl⟩ := storeChar_cut follows stored
    -- the blank that is lost is not the NUL
    have inside : text ++ [0] <+: kept := by
      apply List.prefix_of_prefix_length_le front (List.prefix_append kept _)
      simp only [List.length_append, List.length_cons, List.length_nil] at behind ⊢
      omega
    exact inside.trans (List.prefix_append kept _)

theorem readCmdline_closed (closed : Closed text line) (read : readCmdline rest line = .ok final) :
    text ++ [0] <+: final := by
  induction rest generalizing line with
  | nil =>
      rw [readCmdline] at read
      split at read
      case isTrue =>
          cases read
          exact closed.1.trans (List.prefix_append line _)
      case isFalse => exact (storeChar_closed closed read).1
  | cons byte rest ih =>
      rw [readCmdline] at read
      split at read
      case isTrue =>
          cases read
          exact closed.1.trans (List.prefix_append line _)
      case isFalse =>
          obtain ⟨after, stored, later⟩ := Outcome.bind_ok_iff.mp read
          exact ih (storeChar_closed closed stored) later

theorem readCmdline_length (read : readCmdline rest line = .ok final) : line.length + 1 ≤ final.length := by
  induction rest generalizing line with
  | nil =>
      rw [readCmdline] at read
      split at read
      case isTrue =>
          cases read
          simp
      case isFalse => exact Nat.le_of_eq (storeChar_length read).symm
  | cons byte rest ih =>
      rw [readCmdline] at read
      split at read
      case isTrue =>
          cases read
          simp
      case isFalse =>
          obtain ⟨after, stored, later⟩ := Outcome.bind_ok_iff.mp read
          have longer := storeChar_length stored
          have longest := ih later
          omega

theorem copyCmdline_ok (copied : copyCmdline line = .ok text) :
    text = line.takeWhile (· ≠ 0) ∧ text.length < line.length ∧ text.length < lineBufLen - 1 := by
  rw [copyCmdline] at copied
  split at copied
  case isTrue fits =>
      cases copied
      exact ⟨rfl, fits⟩
  case isFalse => cases copied

theorem takeWhile_closed (free : 0 ∉ front) (closed : front ++ [0] <+: line) :
    line.takeWhile (· ≠ 0) = front := by
  obtain ⟨rest, rfl⟩ := closed
  have stops : ∀ byte ∈ front, decide (byte ≠ 0) = true := by
    intro byte member
    exact decide_eq_true fun zero => free (zero ▸ member)
  rw [List.append_assoc, List.takeWhile_append_of_pos stops, List.singleton_append,
    List.takeWhile_cons_of_neg (by simp), List.append_nil]

/-- Where the array is full, there is no room for a NUL in the copy. -/
theorem copyCmdline_full (free : 0 ∉ line) (full : line.length ≥ lineBufLen - 1) :
    copyCmdline (line ++ [0]) = .error .undefined := by
  rw [copyCmdline, takeWhile_closed free List.prefix_rfl, if_neg fun fits => Nat.not_lt.mpr full fits.2]

/-- Without a NUL the copy goes on behind the places written. -/
theorem copyCmdline_open (free : 0 ∉ line) : copyCmdline line = .error .undefined := by
  have whole : line.takeWhile (· ≠ 0) = line := by
    rw [List.takeWhile_eq_self_iff]
    intro byte member
    exact decide_eq_true fun zero => free (zero ▸ member)
  rw [copyCmdline, whole, if_neg fun fits => Nat.lt_irrefl _ fits.1]

theorem zero_notMem_stored (free : 0 ∉ line) : 0 ∉ line ++ [blanked byte] := by
  intro member
  rcases List.mem_append.mp member with inLine | last
  · exact free inLine
  · exact blanked_ne_zero (List.mem_singleton.mp last).symm

theorem copyCmdline_closed (free : 0 ∉ front ++ [blank]) (closed : front ++ [0] <+: final)
    (copied : copyCmdline final = .ok text) : text = front := by
  have frontFree : 0 ∉ front := fun member => free (List.mem_append_left _ member)
  rw [(copyCmdline_ok copied).1, takeWhile_closed frontFree closed]

theorem closed_cut (front : Bytes) : Closed front (front ++ [0, endOfFile]) := by
  refine ⟨(List.prefix_append_right_inj front).mpr (List.prefix_append [0] [endOfFile]), ?_⟩
  rw [List.length_append]
  exact Nat.le_refl _

/-- The string read is followed by a blank, and it is all but the last byte
only of a short file in which nothing is taken for its end. -/
theorem readCmdline_sound (free : 0 ∉ line) (read : readCmdline rest line = .ok final)
    (copied : copyCmdline final = .ok text) :
    text ++ [blank] <+: line ++ rest.map blanked ∧
      (text.length + 1 = line.length + rest.length →
        line.length + rest.length < lineBufLen - 1 ∧
          List.IsChain Follows (before line :: rest.map blanked)) := by
  induction rest generalizing line with
  | nil =>
      rw [readCmdline] at read
      split at read
      case isTrue full =>
          cases read
          rw [copyCmdline_full free full] at copied
          cases copied
      case isFalse room =>
          by_cases follows : Follows (before line) (blanked endOfFile)
          · rw [storeChar_follows follows] at read
            cases read
            rw [copyCmdline_open (zero_notMem_stored free)] at copied
            cases copied
          · obtain ⟨front, rfl, rfl⟩ := storeChar_cut follows read
            rw [copyCmdline_closed free (closed_cut front).1 copied]
            exact ⟨List.prefix_append _ _, fun _ => ⟨Nat.not_le.mp room, .singleton _⟩⟩
  | cons byte rest ih =>
      rw [readCmdline] at read
      split at read
      case isTrue full =>
          cases read
          rw [copyCmdline_full free full] at copied
          cases copied
      case isFalse room =>
          obtain ⟨after, stored, later⟩ := Outcome.bind_ok_iff.mp read
          by_cases follows : Follows (before line) (blanked byte)
          · rw [storeChar_follows follows] at stored
            cases stored
            obtain ⟨inside, exactly⟩ := ih (zero_notMem_stored free) later
            rw [List.append_assoc, List.singleton_append] at inside
            refine ⟨inside, fun all => ?_⟩
            rw [List.length_append, List.length_singleton, before_append] at exactly
            rw [List.length_cons] at all
            obtain ⟨fits, chain⟩ := exactly (by omega)
            exact ⟨by rw [List.length_cons]; omega, List.isChain_cons_cons.mpr ⟨follows, chain⟩⟩
          · -- the string is closed before the rest of the file
            obtain ⟨front, rfl, rfl⟩ := storeChar_cut follows stored
            rw [copyCmdline_closed free (readCmdline_closed (closed_cut front) later) copied]
            refine ⟨List.prefix_append _ _, fun all => ?_⟩
            simp only [List.length_append, List.length_cons, List.length_nil] at all
            omega

/-- A short file in which nothing is taken for its end is read to its last
blank. -/
theorem readCmdline_complete (shape : line ++ rest.map blanked = front ++ [blank])
    (fits : line.length + rest.length < lineBufLen - 1) (chain : List.IsChain Follows (before line :: rest.map blanked)) :
    readCmdline rest line = .ok (front ++ [0, endOfFile]) := by
  induction rest generalizing line with
  | nil =>
      rw [List.map_nil, List.append_nil] at shape
      have room : ¬ line.length ≥ lineBufLen - 1 := Nat.not_le.mpr fits
      have other : endOfFile ≠ 0 := by decide
      rw [readCmdline, if_neg room, shape, storeChar, if_neg other, if_pos rfl]
      simp
  | cons byte rest ih =>
      rw [List.map_cons, List.isChain_cons_cons] at chain
      rw [List.length_cons] at fits
      have room : ¬ line.length ≥ lineBufLen - 1 := by omega
      rw [readCmdline, if_neg room, storeChar_follows chain.1]
      apply ih
      · rw [List.append_assoc]
        exact shape
      · rw [List.length_append, List.length_singleton]
        omega
      · rw [before_append]
        exact chain.2

theorem getProcCmdline_sound {cmdline : Option Bytes} (read : getProcCmdline (some file) = .ok cmdline) :
    ∃ text, cmdline = some text ∧ text ++ [blank] <+: file.map blanked ∧ text.length < lineBufLen - 1 ∧
      (text.length + 1 = file.length → file.length < lineBufLen - 1 ∧ Clean file) := by
  obtain ⟨final, places, kept⟩ := Outcome.bind_ok_iff.mp read
  have more : ¬ final.length ≤ 1 := by
    cases file with
    | nil => cases places
    | cons byte rest =>
        obtain ⟨after, stored, later⟩ := Outcome.bind_ok_iff.mp places
        have one := storeChar_length stored
        have two := readCmdline_length later
        rw [List.length_nil] at one
        omega
  rw [if_neg more] at kept
  obtain ⟨text, copied, result⟩ := Outcome.bind_ok_iff.mp kept
  cases result
  obtain ⟨inside, exactly⟩ := readCmdline_sound List.not_mem_nil places copied
  rw [List.length_nil, Nat.zero_add] at exactly
  exact ⟨text, rfl, inside, (copyCmdline_ok copied).2.2, exactly⟩

theorem getProcCmdline_complete (fits : (front ++ [0]).length < lineBufLen - 1) (clean : Clean (front ++ [0])) :
    getProcCmdline (some (front ++ [0])) = .ok (some (front.map blanked)) := by
  have places : readCmdline (front ++ [0]) [] = .ok (front.map blanked ++ [0, endOfFile]) := by
    apply readCmdline_complete
    · rw [List.nil_append, List.map_append]
      rfl
    · rwa [List.length_nil, Nat.zero_add]
    · exact clean
  have taken := takeWhile_closed (zero_notMem_blanked front) (closed_cut (front.map blanked)).1
  have copied : copyCmdline (front.map blanked ++ [0, endOfFile]) = .ok (front.map blanked) := by
    rw [List.length_append, List.length_singleton] at fits
    have longer : (front.map blanked).length < (front.map blanked ++ [0, endOfFile]).length := by simp
    have short : (front.map blanked).length < lineBufLen - 1 := by
      rw [List.length_map]
      omega
    rw [copyCmdline, taken, if_pos ⟨longer, short⟩]
  have more : ¬ (front.map blanked ++ [0, endOfFile]).length ≤ 1 := by simp
  rw [getProcCmdline, places]
  change (if (front.map blanked ++ [0, endOfFile]).length ≤ 1 then _ else _) = _
  rw [if_neg more, copied]
  rfl

/-- The command line is read exactly when it is closed, short, and has nothing
in it that is taken for its end. -/
theorem getProcCmdline_iff :
    getProcCmdline (some file) = .ok (some (commandLine file)) ↔
      file.getLast? = some 0 ∧ file.length < lineBufLen - 1 ∧ Clean file := by
  constructor
  · intro read
    obtain ⟨text, same, inside, short, exactly⟩ := getProcCmdline_sound read
    have less := inside.length_le
    rw [List.length_append, List.length_singleton, List.length_map] at less
    have size := congrArg List.length (Option.some.inj same)
    by_cases closed : file.getLast? = some 0
    · obtain ⟨front, rfl⟩ := List.getLast?_eq_some_iff.mp closed
      rw [commandLine_closed, List.length_take, List.length_map] at size
      refine ⟨closed, exactly ?_⟩
      rw [List.length_append, List.length_singleton]
      omega
    · rw [commandLine_open closed, List.length_take, List.length_map] at size
      omega
  · intro given
    obtain ⟨closed, fits, clean⟩ := given
    obtain ⟨front, rfl⟩ := List.getLast?_eq_some_iff.mp closed
    have short : (front.map blanked).length ≤ lineBufLen - 1 := by
      rw [List.length_append, List.length_singleton] at fits
      rw [List.length_map]
      omega
    rw [commandLine_closed, List.take_of_length_le short]
    exact getProcCmdline_complete fits clean

end GalaGopher.Probe

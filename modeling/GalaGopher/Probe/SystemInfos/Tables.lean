import GalaGopher.Probe.SystemInfos
import GalaGopher.Text.Tokens

namespace GalaGopher.Probe.SystemInfos

open Text

/-! The probes of the file systems and of the block devices, which print the
columns of what `df` and `iostat` say. -/

def dataLen : Nat := 64

def metricsInodeMax : Nat := 6

def metricsIostatMax : Nat := 10

/-- What is printed in one turn, and how many of the pointers were set in it;
the others are from earlier turns. -/
structure Record where
  set : Nat
  columns : List Bytes
deriving DecidableEq

/-- The array `pp`, as far as it has been set, after a turn. -/
def renewed (offsets pp : List Nat) : List Nat := offsets ++ pp.drop offsets.length

/-- The array `line`, which was cleared before it was read into. -/
def lineBuffer (memory : Bytes) : Bytes := memory ++ List.replicate (lineBufLen - memory.length) 0

def stringAt (line : Bytes) (place : Nat) : Bytes := cString (line.drop place)

/-- `SPLIT_NEWLINE_SYMBOL` of the string at a place. -/
def splitNewlineAt (line : Bytes) (place : Nat) : Bytes :=
  let s := stringAt line place
  if s.getLast? = some newline then line.set (place + (s.length - 1)) 0 else line

/-- One turn of the loop in `system_inode_probe`; no result where it writes
through a pointer that was never set, or outside the buffer. -/
def inodeTurn (pp : List Nat) (piece : Bytes) : Option (List Nat × Option Record) :=
  let (offsets, memory) := strtokInto percent metricsInodeMax piece 0
  let pp := renewed offsets pp
  match pp[5]? with
  | none => none
  | some mounted =>
      if mounted + (dataLen - 1) < lineBufLen then
        let line := splitNewlineAt ((lineBuffer memory).set (mounted + (dataLen - 1)) 0) mounted
        some (pp, some ⟨offsets.length, [5, 0, 1, 4, 2, 3].map fun place => stringAt line (pp.getD place 0)⟩)
      else none

def passedOverDisk (piece : Bytes) : Bool := (strstr piece (ascii "Device")).isSome || (strstr piece (ascii "::")).isSome

/-- One turn of the second loop in `system_iostat_probe`; no result where it
reads through a pointer that was never set. -/
def iostatTurn (pp : List Nat) (piece : Bytes) : Option (List Nat × Option Record) :=
  if passedOverDisk piece then some (pp, none)
  else
    let (offsets, memory) := strtokInto colon metricsIostatMax (splitNewlineSymbol piece) 0
    let pp := renewed offsets pp
    if metricsIostatMax ≤ pp.length then
      some (pp, some ⟨offsets.length, (pp.take metricsIostatMax).map fun place => stringAt (lineBuffer memory) place⟩)
    else none

/-- The turns of a loop, with what each of them prints. -/
def probeLoop (turn : List Nat → Bytes → Option (List Nat × Option Record)) :
    List Nat → List Bytes → Option (List (Option Record))
  | _, [] => some []
  | pp, piece :: rest =>
      match turn pp piece with
      | none => none
      | some (pp, output) => (probeLoop turn pp rest).map (output :: ·)

/-- `df` is what the pipe gives, if it opens. -/
def systemInodeProbe (df : Option Bytes) : Option (Int × List (Option Record)) :=
  match df with
  | none => some (-1, [])
  | some stream => (probeLoop inodeTurn [] (fgetsStrings lineBufLen stream)).map (0, ·)

/-- Nothing is printed where `which` finds no iostat. -/
def systemIostatProbe (whichIostat diskstats : Option Bytes) : Option (Int × List (Option Record)) :=
  match whichIostat with
  | none | some [] => some (-1, [])
  | some (_ :: _) =>
      match diskstats with
      | none => some (-1, [])
      | some stream => (probeLoop iostatTurn [] (fgetsStrings lineBufLen stream)).map (0, ·)

/-- Six columns of `df`, of which the fifth ends with a percent sign. -/
structure InodeLine where
  fsysType : Bytes
  inodes : Bytes
  iused : Bytes
  ifree : Bytes
  iusePer : Bytes
  mounted : Bytes
  lineal : ∀ field ∈ [fsysType, inodes, iused, ifree, iusePer, mounted], Lineal field

namespace InodeLine

variable (line : InodeLine)

def fields : List Bytes := [line.fsysType, line.inodes, line.iused, line.ifree, line.iusePer, line.mounted]

/-- What stands before the last column. -/
def front : Bytes :=
  line.fsysType ++ percent :: (line.inodes ++ percent :: (line.iused ++ percent :: (line.ifree ++ percent ::
    (line.iusePer ++ [percent, percent]))))

def text : Bytes := line.front ++ line.mounted

/-- The record of the line: all its pointers are new, and every column has the
field of the line. -/
structure Own (record : Record) : Prop where
  set : record.set = metricsInodeMax
  columns : record.columns = [line.mounted, line.fsysType, line.inodes, line.iusePer, line.iused, line.ifree]
  complete : ∀ field ∈ line.fields, field ≠ []

end InodeLine

/-- The ten columns that are taken of `iostat`. -/
structure IostatLine where
  devName : Bytes
  rdSpeed : Bytes
  rdkbSpeed : Bytes
  rdAwait : Bytes
  rareqSz : Bytes
  wrSpeed : Bytes
  wrkbSpeed : Bytes
  wrAwait : Bytes
  wareqSz : Bytes
  util : Bytes
  lineal : ∀ field ∈ [devName, rdSpeed, rdkbSpeed, rdAwait, rareqSz, wrSpeed, wrkbSpeed, wrAwait, wareqSz, util],
    Lineal field

namespace IostatLine

variable (line : IostatLine)

def fields : List Bytes :=
  [line.devName, line.rdSpeed, line.rdkbSpeed, line.rdAwait, line.rareqSz, line.wrSpeed, line.wrkbSpeed, line.wrAwait,
    line.wareqSz, line.util]

def text : Bytes := [colon].intercalate line.fields

structure Own (record : Record) : Prop where
  set : record.set = metricsIostatMax
  columns : record.columns = line.fields
  complete : ∀ field ∈ line.fields, field ≠ []

end IostatLine

/-- The pieces that are read, each with the line that it is of. -/
def pieces {Line : Type} (text : Line → Bytes) (lines : List Line) : List (Line × Bytes) :=
  lines.flatMap fun line => (fgetsStrings lineBufLen (text line ++ [newline])).map fun piece => (line, piece)

/-- Every record is that of the line it was read from. -/
def OwnRecords {Line : Type} (text : Line → Bytes) (own : Line → Record → Prop) (lines : List Line)
    (outputs : List (Option Record)) : Prop :=
  List.Forall₂ (fun piece output => ∀ record, output = some record → own piece.1 record) (pieces text lines) outputs

/-- No byte is written or read astray, and every record is that of the line it
was read from. -/
def InodeRecordsOwn (lines : List InodeLine) : Prop :=
  ∃ outputs, systemInodeProbe (some (printLines (lines.map InodeLine.text))) = some (0, outputs) ∧
    OwnRecords InodeLine.text InodeLine.Own lines outputs

/-- `which` has found iostat at some path. -/
def IostatRecordsOwn (first : UInt8) (path : Bytes) (lines : List IostatLine) : Prop :=
  ∃ outputs, systemIostatProbe (some (first :: path)) (some (printLines (lines.map IostatLine.text))) = some (0, outputs) ∧
    OwnRecords IostatLine.text IostatLine.Own lines outputs

section Loop

variable {Line : Type} {text : Line → Bytes} {own : Line → Record → Prop}
  {turn : List Nat → Bytes → Option (List Nat × Option Record)}

theorem map_pieces (lines : List Line) (unbroken : ∀ line ∈ lines, newline ∉ text line) :
    (pieces text lines).map Prod.snd = fgetsStrings lineBufLen (printLines (lines.map text)) := by
  induction lines with
  | nil => rfl
  | cons line lines ih =>
      rw [List.forall_mem_cons] at unbroken
      rw [List.map_cons, printLines_cons, fgetsStrings_line (by decide) unbroken.1, ← ih unbroken.2, pieces,
        List.flatMap_cons, List.map_append, List.map_map]
      congr 1
      exact List.map_id' _

theorem probeLoop_own {items : List (Line × Bytes)}
    (each : ∀ item ∈ items, ∀ pp, ∃ next output, turn pp item.2 = some (next, output) ∧
      ∀ record, output = some record → own item.1 record) (pp : List Nat) :
    ∃ outputs, probeLoop turn pp (items.map Prod.snd) = some outputs ∧
      List.Forall₂ (fun item output => ∀ record, output = some record → own item.1 record) items outputs := by
  induction items generalizing pp with
  | nil => exact ⟨[], rfl, .nil⟩
  | cons item items ih =>
      rw [List.forall_mem_cons] at each
      obtain ⟨next, output, turned, owned⟩ := each.1 pp
      obtain ⟨outputs, later, all⟩ := ih each.2 next
      refine ⟨output :: outputs, ?_, .cons owned all⟩
      rw [List.map_cons, probeLoop, turned]
      simp only [later, Option.map_some]

theorem turn_of_probeLoop {items : List (Line × Bytes)} {outputs : List (Option Record)} {pp : List Nat}
    (looped : probeLoop turn pp (items.map Prod.snd) = some outputs)
    (all : List.Forall₂ (fun item output => ∀ record, output = some record → own item.1 record) items outputs) :
    ∀ item ∈ items, ∃ pp next output, turn pp item.2 = some (next, output) ∧
      ∀ record, output = some record → own item.1 record := by
  induction all generalizing pp with
  | nil => exact fun item member => absurd member List.not_mem_nil
  | @cons item output items outputs owned all ih =>
      rw [List.map_cons, probeLoop] at looped
      cases turned : turn pp item.2 with
      | none =>
          rw [turned] at looped
          cases looped
      | some result =>
          obtain ⟨next, here⟩ := result
          rw [turned] at looped
          obtain ⟨later, found, same⟩ := Option.map_eq_some_iff.mp looped
          cases same
          exact List.forall_mem_cons.mpr ⟨⟨pp, next, output, turned, owned⟩, ih found⟩

theorem own_iff {lines : List Line} {fits : Line → Prop} (unbroken : ∀ line, newline ∉ text line)
    (enough : ∀ line, fits line → ∀ piece ∈ fgetsStrings lineBufLen (text line ++ [newline]), ∀ pp,
      ∃ next output, turn pp piece = some (next, output) ∧ ∀ record, output = some record → own line record)
    (needed : ∀ line, (∀ piece ∈ fgetsStrings lineBufLen (text line ++ [newline]),
      ∃ pp next output, turn pp piece = some (next, output) ∧ ∀ record, output = some record → own line record) → fits line) :
    (∃ outputs, probeLoop turn [] (fgetsStrings lineBufLen (printLines (lines.map text))) = some outputs ∧
      OwnRecords text own lines outputs) ↔ ∀ line ∈ lines, fits line := by
  rw [← map_pieces lines fun line _ => unbroken line]
  constructor
  · rintro ⟨outputs, looped, all⟩ line member
    refine needed line fun piece read => turn_of_probeLoop looped all (line, piece) ?_
    exact List.mem_flatMap.mpr ⟨line, member, List.mem_map.mpr ⟨piece, read, rfl⟩⟩
  · intro every
    refine probeLoop_own (fun item member => ?_) []
    obtain ⟨line, among, cut⟩ := List.mem_flatMap.mp member
    obtain ⟨piece, read, rfl⟩ := List.mem_map.mp cut
    exact enough line (every line among) piece read

end Loop

theorem set_behind (front rest : Bytes) (place : Nat) (byte : UInt8) :
    (front ++ rest).set (front.length + place) byte = front ++ rest.set place byte := by
  rw [List.set_append_right _ _ (Nat.le_add_right _ _), Nat.add_sub_cancel_left]

theorem stringAt_behind (front rest : Bytes) : stringAt (front ++ rest) front.length = cString rest := by
  rw [stringAt, List.drop_left]

theorem splitNewlineAt_behind (front rest : Bytes) :
    ∃ edited, splitNewlineAt (front ++ rest) front.length = front ++ edited ∧
      cString edited = splitNewlineSymbol (cString rest) := by
  rw [splitNewlineAt, stringAt_behind, splitNewlineSymbol]
  split
  case isTrue last =>
      obtain ⟨s, ended⟩ := List.getLast?_eq_some_iff.mp last
      obtain ⟨tail, whole⟩ : cString rest <+: rest := List.takeWhile_prefix _
      have nonzero : (0 : UInt8) ∉ s := fun member =>
        cString_nonzero rest (ended ▸ List.mem_append_left _ member)
      have replaced : rest.set s.length 0 = s ++ 0 :: tail := by
        rw [← whole, ended, List.append_assoc]
        exact set_behind s ([newline] ++ tail) 0 0
      refine ⟨rest.set s.length 0, ?_, ?_⟩
      · rw [ended, List.length_append, List.length_singleton, Nat.add_sub_cancel, set_behind]
      · rw [replaced, cString_before nonzero, ended, List.dropLast_concat]
  case isFalse => exact ⟨rest, rfl, rfl⟩

theorem cString_cut (rest : Bytes) {place : Nat} (inside : place < rest.length) :
    cString (rest.set place 0) = (cString rest).take place := by
  have front : cString (rest.take place ++ 0 :: rest.drop (place + 1)) = cString (rest.take place) := by
    by_cases zero : (0 : UInt8) ∈ rest.take place
    · obtain ⟨before, behind, split, nonzero⟩ := List.eq_append_cons_of_mem zero
      rw [split, List.append_assoc, List.cons_append, cString_before nonzero, cString_before nonzero]
    · rw [cString_before zero, cString_eq zero]
  rw [List.set_eq_take_append_cons_drop, if_pos inside, front, cString, cString, List.take_takeWhile]

/-- What the inode probe does to the string behind `front`, it does to nothing
else. -/
theorem edited_behind (front : Bytes) {rest : Bytes} (room : dataLen - 1 < rest.length) :
    ∃ edited, splitNewlineAt ((front ++ rest).set (front.length + (dataLen - 1)) 0) front.length = front ++ edited ∧
      cString edited = splitNewlineSymbol ((cString rest).take (dataLen - 1)) := by
  rw [set_behind, ← cString_cut rest room]
  exact splitNewlineAt_behind front _

theorem cString_ended {last behind : Bytes} (nonzero : (0 : UInt8) ∉ last) (ended : behind = [] ∨ behind.head? = some 0)
    (count : Nat) : cString (last ++ behind ++ List.replicate count 0) = last := by
  rcases ended with rfl | head
  · rw [List.append_nil, cString_padded nonzero]
  · obtain ⟨more, rfl⟩ := List.head?_eq_some_iff.mp head
    rw [List.append_assoc, List.cons_append, cString_before nonzero]

theorem lineal_of_fields {mark : UInt8} {fields : List Bytes} {text : Bytes} (unbroken : mark ≠ newline) (nonzero : mark ≠ 0)
    (lineal : ∀ field ∈ fields, Lineal field) (within : ∀ byte ∈ text, byte = mark ∨ ∃ field ∈ fields, byte ∈ field) :
    Lineal text := by
  constructor
  · intro member
    rcases within newline member with same | ⟨field, among, inside⟩
    · exact unbroken same.symm
    · exact (lineal field among).unbroken inside
  · intro member
    rcases within 0 member with same | ⟨field, among, inside⟩
    · exact nonzero same.symm
    · exact (lineal field among).nonzero inside

/-- The second piece of a long line, and those behind it, hold what is left. -/
theorem pieces_long {text : Bytes} (unbroken : newline ∉ text) (long : lineBufLen - 1 ≤ text.length) :
    ∃ later, fgetsStrings lineBufLen (text ++ [newline]) = cString (text.take (lineBufLen - 1)) :: later ∧ later ≠ [] ∧
      ∀ piece ∈ later, piece.length + (lineBufLen - 1) ≤ text.length + 1 := by
  refine ⟨_, fgetsStrings_long (by decide) unbroken long [newline], ?_, fun piece member => ?_⟩
  · exact fgetsStrings_ne_nil (by decide) (List.append_ne_nil_of_right_ne_nil _ (List.cons_ne_nil _ _))
  · have within := (length_le_of_mem_fgetsStrings (by decide) member).2
    rw [List.length_append, List.length_drop, List.length_singleton] at within
    omega

theorem pieces_short {text : Bytes} (lineal : Lineal text) (short : text.length < lineBufLen - 1) :
    fgetsStrings lineBufLen (text ++ [newline]) = [text ++ [newline]] :=
  fgetsStrings_closed lineal short []

theorem whole_piece {text : Bytes} (lineal : Lineal text) (short : text.length < lineBufLen - 1) :
    text ++ [newline] ∈ fgetsStrings lineBufLen (text ++ [newline]) := by
  rw [pieces_short lineal short]
  exact List.mem_singleton_self _

theorem piece_bounds {text piece : Bytes} (member : piece ∈ fgetsStrings lineBufLen text) :
    (0 : UInt8) ∉ piece ∧ piece.length < lineBufLen := by
  refine ⟨?_, Nat.lt_of_le_of_lt (length_le_of_mem_fgetsStrings (by decide) member).1 (by decide)⟩
  obtain ⟨raw, _, rfl⟩ := List.mem_map.mp member
  exact cString_nonzero raw

variable {piece last : Bytes} {earlier more : List Bytes} {pp : List Nat}

theorem lineBuffer_laid {memory front behind : Bytes} {places : List Nat} (laid : Laid piece 0 earlier last places front behind)
    (nonzero : (0 : UInt8) ∉ last) (same : memory = front ++ (last ++ behind)) :
    ∃ rest, lineBuffer memory = front ++ rest ∧ cString rest = last := by
  refine ⟨last ++ behind ++ List.replicate (lineBufLen - memory.length) 0, ?_, cString_ended nonzero laid.ended _⟩
  rw [lineBuffer, same, List.append_assoc]

theorem inodeTurn_full (pp : List Nat) {a b c d e : Bytes} (tokens : strtok piece percent = a :: b :: c :: d :: e :: last :: more)
    (nonzero : (0 : UInt8) ∉ piece) (short : piece.length < lineBufLen) :
    ∃ front behind places, Laid piece 0 [a, b, c, d, e] last places front behind ∧
      ∃ next, inodeTurn pp piece =
        if front.length + (dataLen - 1) < lineBufLen then
          some (next, some ⟨metricsInodeMax, [splitNewlineSymbol (last.take (dataLen - 1)), a, b, e, c, d]⟩)
        else none := by
  have clean : ∀ token ∈ strtok piece percent, (0 : UInt8) ∉ token := fun token member zero =>
    nonzero ((mem_strtok member).2.2 0 zero)
  rw [tokens] at clean
  obtain ⟨places, front, behind, stored, laid⟩ :=
    @strtokInto_laid percent piece [a, b, c, d, e] more last 0 tokens
  refine ⟨front, behind, places, laid, ?_⟩
  obtain ⟨rest, line, string⟩ := lineBuffer_laid laid (clean last (by simp)) rfl
  have length : (lineBuffer (front ++ (last ++ behind))).length = lineBufLen := by
    have same : (front ++ (last ++ behind)).length = piece.length := by
      have memory := length_memory percent ([a, b, c, d, e].length + 1) piece 0
      rwa [stored] at memory
    rw [lineBuffer, List.length_append, List.length_replicate]
    omega
  obtain ⟨p0, p1, p2, p3, p4, rfl⟩ : ∃ p0 p1 p2 p3 p4, places = [p0, p1, p2, p3, p4] := by
    rcases laid.strings with _ | ⟨_, _ | ⟨_, _ | ⟨_, _ | ⟨_, _ | ⟨_, _ | _⟩⟩⟩⟩⟩
    exact ⟨_, _, _, _, _, rfl⟩
  have pointers : strtokInto percent metricsInodeMax piece 0 = ([p0, p1, p2, p3, p4, front.length], front ++ (last ++ behind)) := by
    rw [Nat.zero_add] at stored
    exact stored
  refine ⟨renewed [p0, p1, p2, p3, p4, front.length] pp, ?_⟩
  simp only [inodeTurn, pointers]
  have sixth : (renewed [p0, p1, p2, p3, p4, front.length] pp)[5]? = some front.length := rfl
  rw [sixth]
  simp only
  split
  case isFalse => rfl
  case isTrue room =>
      rw [line, List.length_append] at length
      obtain ⟨edited, split, cut⟩ := edited_behind front (show dataLen - 1 < rest.length by omega)
      have strings := laid.strings_at (fun token member => clean token (List.mem_append_left _ member)) edited
      simp only [List.map_cons, List.map_nil, List.cons.injEq] at strings
      obtain ⟨first, second, third, fourth, fifth, _⟩ := strings
      have ended : stringAt (front ++ edited) front.length = splitNewlineSymbol (last.take (dataLen - 1)) := by
        rw [stringAt_behind, cut, string]
      rw [line, split, ← ended, ← first, ← second, ← third, ← fourth, ← fifth]
      rfl

theorem inodeTurn_set {next : List Nat} {output : Option Record} (turned : inodeTurn pp piece = some (next, output)) :
    ∃ columns, output = some ⟨min metricsInodeMax (strtok piece percent).length, columns⟩ := by
  rw [← length_strtokInto percent metricsInodeMax piece 0]
  simp only [inodeTurn] at turned
  split at turned
  · cases turned
  · split at turned
    · cases turned
      exact ⟨_, rfl⟩
    · cases turned

theorem splitNewlineSymbol_subset (text : Bytes) : ∀ byte ∈ splitNewlineSymbol text, byte ∈ text := by
  intro byte member
  rw [splitNewlineSymbol] at member
  split at member
  · exact List.mem_of_mem_dropLast member
  · exact member

theorem length_splitNewlineSymbol (text : Bytes) : (splitNewlineSymbol text).length ≤ text.length := by
  rw [splitNewlineSymbol]
  split
  · rw [List.length_dropLast]
    exact Nat.sub_le _ _
  · exact Nat.le_refl _

namespace InodeLine

variable {line : InodeLine}

/-- A piece that gives the record of a line has tokens as long as its fields. -/
theorem of_own {next : List Nat} {output : Option Record} (turned : inodeTurn pp piece = some (next, output))
    (own : ∀ record, output = some record → line.Own record) (nonzero : (0 : UInt8) ∉ piece)
    (short : piece.length < lineBufLen) :
    (∀ field ∈ line.fields, field ≠ [] ∧ percent ∉ field) ∧ line.fields.flatten.length + 5 ≤ piece.length := by
  obtain ⟨columns, rfl⟩ := inodeTurn_set turned
  have enough : metricsInodeMax ≤ (strtok piece percent).length := by
    have set := (own _ rfl).set
    simp only at set
    omega
  obtain ⟨a, b, c, d, e, last, more, tokens⟩ :
      ∃ a b c d e last more, strtok piece percent = a :: b :: c :: d :: e :: last :: more := by
    match strtok piece percent, enough with
    | a :: b :: c :: d :: e :: last :: more, _ => exact ⟨a, b, c, d, e, last, more, rfl⟩
  have free : ∀ token ∈ strtok piece percent, percent ∉ token := fun token member => (mem_strtok member).2.1
  rw [tokens] at free
  obtain ⟨front, behind, places, laid, next, turn⟩ := inodeTurn_full pp tokens nonzero short
  rw [turn] at turned
  split at turned
  case isFalse => cases turned
  case isTrue room =>
      obtain ⟨_, printed, complete⟩ := own _ rfl
      simp only [Option.some.injEq, Prod.mk.injEq, Record.mk.injEq] at turned
      have columns := turned.2.2.trans printed
      simp only [List.cons.injEq] at columns
      obtain ⟨mounted, rfl, rfl, rfl, rfl, rfl, _⟩ := columns
      have shorter := length_splitNewlineSymbol (last.take (dataLen - 1))
      rw [mounted, List.length_take] at shorter
      refine ⟨fun field member => ⟨complete field member, ?_⟩, ?_⟩
      · rcases List.mem_append.mp (show field ∈ [line.fsysType, line.inodes, line.iused, line.ifree, line.iusePer] ++
            [line.mounted] from member) with earlier | last
        · exact free field (List.mem_append_left _ earlier)
        · rw [List.mem_singleton.mp last, ← mounted]
          intro inside
          exact free _ (by simp) (List.mem_of_mem_take (splitNewlineSymbol_subset _ _ inside))
      · obtain ⟨before, after, shape, width, _⟩ := laid.source
        have ahead := laid.length
        have total := congrArg List.length shape
        simp only [List.length_append] at total
        simp only [fields, List.flatten_cons, List.flatten_nil, List.length_append, List.length_cons, List.length_nil] at ahead ⊢
        omega

theorem length_text (line : InodeLine) : line.text.length = line.fields.flatten.length + 6 := by
  simp only [text, front, fields, List.flatten_cons, List.flatten_nil, List.length_append, List.length_cons, List.length_nil]
  omega

theorem mem_text {byte : UInt8} (member : byte ∈ line.text) : byte = percent ∨ ∃ field ∈ line.fields, byte ∈ field := by
  simp only [text, front, List.mem_append, List.mem_cons, List.not_mem_nil, or_false] at member
  simp only [fields, List.mem_cons, List.not_mem_nil, or_false, exists_eq_or_imp, exists_eq_left]
  tauto

theorem lineal_text (line : InodeLine) : Lineal line.text :=
  lineal_of_fields (by decide) (by decide) line.lineal fun _ => mem_text

theorem tokens_text (clean : ∀ field ∈ line.fields, field ≠ [] ∧ percent ∉ field) :
    strtok (line.text ++ [newline]) percent =
      [line.fsysType, line.inodes, line.iused, line.ifree, line.iusePer, line.mounted ++ [newline]] := by
  simp only [fields, List.forall_mem_cons] at clean
  obtain ⟨first, second, third, fourth, fifth, last, _⟩ := clean
  have ended : percent ∉ line.mounted ++ [newline] := by
    rw [List.mem_append, List.mem_singleton, not_or]
    exact ⟨last.2, by decide⟩
  have gap : strtok (percent :: (line.mounted ++ [newline])) percent = [line.mounted ++ [newline]] := by
    have skipped := strtok_append [] (line.mounted ++ [newline]) percent
    rw [List.nil_append] at skipped
    rw [skipped, strtok_whole ended (List.append_ne_nil_of_right_ne_nil _ (List.cons_ne_nil _ _))]
    rfl
  simp only [text, front, List.append_assoc, List.cons_append, List.nil_append]
  rw [strtok_append, strtok_append, strtok_append, strtok_append, strtok_append, gap, strtok_whole first.2 first.1,
    strtok_whole second.2 second.1, strtok_whole third.2 third.1, strtok_whole fourth.2 fourth.1, strtok_whole fifth.2 fifth.1]
  rfl

/-- The lines that give a record of their own. -/
structure Fits (line : InodeLine) : Prop where
  clean : ∀ field ∈ line.fields, field ≠ [] ∧ percent ∉ field
  short : line.text.length < lineBufLen - 1
  start : line.front.length + (dataLen - 1) < lineBufLen
  mounted : line.mounted.length ≤ dataLen - 1

theorem inodeTurn_text (line : InodeLine) (clean : ∀ field ∈ line.fields, field ≠ [] ∧ percent ∉ field)
    (short : line.text.length < lineBufLen - 1) (pp : List Nat) :
    ∃ next, inodeTurn pp (line.text ++ [newline]) =
      if line.front.length + (dataLen - 1) < lineBufLen then
        some (next, some ⟨metricsInodeMax, [splitNewlineSymbol ((line.mounted ++ [newline]).take (dataLen - 1)),
          line.fsysType, line.inodes, line.iusePer, line.iused, line.ifree]⟩)
      else none := by
  have read := whole_piece line.lineal_text short
  obtain ⟨nonzero, fits⟩ := piece_bounds read
  obtain ⟨front, behind, places, laid, next, turn⟩ := inodeTurn_full pp (tokens_text clean) nonzero fits
  have width : front.length = line.front.length := by
    obtain ⟨before, after, shape, same, _⟩ := laid.source
    rcases List.eq_nil_or_concat after with rfl | ⟨init, byte, rfl⟩
    · have total := congrArg List.length shape
      simp only [text, List.length_append, List.length_nil] at total
      omega
    · rw [List.concat_eq_append, ← List.append_assoc, ← List.append_assoc] at shape
      have inside : newline ∈ line.text := by
        rw [List.append_inj_left' shape rfl]
        exact List.mem_append_left _ (List.mem_append_right _ (List.mem_append_right _ (List.mem_singleton_self _)))
      exact absurd inside line.lineal_text.unbroken
  rw [← width]
  exact ⟨next, turn⟩

/-- The last column is cut to its room with the newline. -/
theorem cut_mounted_iff (line : InodeLine) :
    splitNewlineSymbol ((line.mounted ++ [newline]).take (dataLen - 1)) = line.mounted ↔
      line.mounted.length ≤ dataLen - 1 := by
  have unbroken := (line.lineal line.mounted (by simp)).unbroken
  rcases Nat.lt_trichotomy line.mounted.length (dataLen - 1) with short | exact | long
  · have whole : (line.mounted ++ [newline]).take (dataLen - 1) = line.mounted ++ [newline] := by
      refine List.take_of_length_le ?_
      rw [List.length_append]
      exact short
    rw [whole, splitNewlineSymbol_closed]
    exact iff_of_true rfl (Nat.le_of_lt short)
  · rw [← exact, List.take_left, splitNewlineSymbol_eq unbroken]
    exact iff_of_true rfl (Nat.le_refl _)
  · rw [List.take_append_of_le_length (Nat.le_of_lt long),
      splitNewlineSymbol_eq fun member => unbroken (List.mem_of_mem_take member)]
    refine iff_of_false (fun same => ?_) (Nat.not_le.mpr long)
    have cut := congrArg List.length same
    rw [List.length_take_of_le (Nat.le_of_lt long)] at cut
    exact Nat.ne_of_lt long cut

theorem fits_of_own (each : ∀ piece ∈ fgetsStrings lineBufLen (line.text ++ [newline]), ∃ pp next output,
    inodeTurn pp piece = some (next, output) ∧ ∀ record, output = some record → line.Own record) : line.Fits := by
  have found : ∀ piece ∈ fgetsStrings lineBufLen (line.text ++ [newline]),
      (∀ field ∈ line.fields, field ≠ [] ∧ percent ∉ field) ∧ line.fields.flatten.length + 5 ≤ piece.length := by
    intro piece member
    obtain ⟨pp, next, output, turned, own⟩ := each piece member
    exact of_own turned own (piece_bounds member).1 (piece_bounds member).2
  have short : line.text.length < lineBufLen - 1 := by
    refine Nat.lt_of_not_le fun long => ?_
    obtain ⟨later, all, some, bounds⟩ := pieces_long line.lineal_text.unbroken long
    obtain ⟨piece, member⟩ := List.exists_mem_of_ne_nil later some
    have room := (found piece (all ▸ List.mem_cons_of_mem _ member)).2
    have bound := bounds piece member
    rw [length_text] at bound
    have size : lineBufLen = 512 := rfl
    omega
  have read := whole_piece line.lineal_text short
  have clean := (found _ read).1
  obtain ⟨pp, next, output, turned, own⟩ := each _ read
  obtain ⟨_, turn⟩ := inodeTurn_text line clean short pp
  rw [turn] at turned
  split at turned
  case isFalse => cases turned
  case isTrue start =>
      cases turned
      have columns := (own _ rfl).columns
      simp only [List.cons.injEq, and_true] at columns
      exact ⟨clean, short, start, (cut_mounted_iff line).mp columns⟩

theorem own_iff_fits (lines : List InodeLine) : InodeRecordsOwn lines ↔ ∀ line ∈ lines, line.Fits := by
  have run : InodeRecordsOwn lines ↔
      ∃ outputs, probeLoop inodeTurn [] (fgetsStrings lineBufLen (printLines (lines.map text))) = some outputs ∧
        OwnRecords text Own lines outputs := by
    simp [InodeRecordsOwn, systemInodeProbe]
  rw [run]
  refine own_iff (fun line => line.lineal_text.unbroken) (fun line fits piece member pp => ?_) fun _ => fits_of_own
  rw [pieces_short line.lineal_text fits.short, List.mem_singleton] at member
  obtain ⟨next, turn⟩ := inodeTurn_text line fits.clean fits.short pp
  rw [if_pos fits.start, (cut_mounted_iff line).mpr fits.mounted] at turn
  refine ⟨next, _, member ▸ turn, ?_⟩
  rintro _ ⟨⟩
  exact ⟨rfl, rfl, fun field among => (fits.clean field among).1⟩

end InodeLine

theorem iostatTurn_full (pp : List Nat) (shown : passedOverDisk piece = false)
    (tokens : strtok (splitNewlineSymbol piece) colon = earlier ++ last :: more) (columns : earlier.length + 1 = metricsIostatMax)
    (nonzero : (0 : UInt8) ∉ splitNewlineSymbol piece) :
    (∃ next, iostatTurn pp piece = some (next, some ⟨metricsIostatMax, earlier ++ [last]⟩)) ∧
      earlier.flatten.length + earlier.length + last.length ≤ (splitNewlineSymbol piece).length := by
  have clean : ∀ token ∈ strtok (splitNewlineSymbol piece) colon, (0 : UInt8) ∉ token := fun token member zero =>
    nonzero ((mem_strtok member).2.2 0 zero)
  rw [tokens] at clean
  obtain ⟨places, front, behind, stored, laid⟩ := strtokInto_laid 0 tokens
  rw [columns, Nat.zero_add] at stored
  obtain ⟨rest, line, string⟩ := lineBuffer_laid laid (clean last (by simp)) rfl
  have count : (places ++ [front.length]).length = metricsIostatMax := by
    rw [List.length_append, laid.strings.length_eq, List.length_singleton, columns]
  refine ⟨⟨renewed (places ++ [front.length]) pp, ?_⟩, ?_⟩
  · have set : metricsIostatMax ≤ (renewed (places ++ [front.length]) pp).length := by
      rw [renewed, List.length_append, count]
      exact Nat.le_add_right _ _
    have strings := laid.strings_at (fun token member => clean token (List.mem_append_left _ member)) rest
    have printed : ((renewed (places ++ [front.length]) pp).take metricsIostatMax).map
        (fun place => stringAt (lineBuffer (front ++ (last ++ behind))) place) = earlier ++ [last] := by
      rw [renewed, ← count, List.take_left, List.map_append, List.map_singleton, line, stringAt_behind, string]
      exact congrArg (· ++ [last]) strings
    simp only [iostatTurn, shown, stored, if_pos set, printed, count]
    rfl
  · obtain ⟨before, after, shape, width, _⟩ := laid.source
    have ahead := laid.length
    have total := congrArg List.length shape
    simp only [List.length_append] at total
    omega

theorem iostatTurn_set {next : List Nat} {output : Option Record} (shown : passedOverDisk piece = false)
    (turned : iostatTurn pp piece = some (next, output)) :
    ∃ columns, output = some ⟨min metricsIostatMax (strtok (splitNewlineSymbol piece) colon).length, columns⟩ := by
  rw [← length_strtokInto colon metricsIostatMax (splitNewlineSymbol piece) 0]
  rw [iostatTurn, shown] at turned
  simp only [Bool.false_eq_true, if_false] at turned
  split at turned
  · cases turned
    exact ⟨_, rfl⟩
  · cases turned

theorem length_of_passedOverDisk (passed : passedOverDisk piece = true) : 2 ≤ piece.length := by
  rw [passedOverDisk, Bool.or_eq_true, strstr_isSome_iff, strstr_isSome_iff] at passed
  rcases passed with device | colons
  · exact Nat.le_trans (by decide) device.length_le
  · exact colons.length_le

theorem iostatTurn_passed (passed : passedOverDisk piece = true) (pp : List Nat) : iostatTurn pp piece = some (pp, none) := by
  rw [iostatTurn, if_pos passed]

namespace IostatLine

variable {line : IostatLine}

theorem of_own {next : List Nat} {output : Option Record} (turned : iostatTurn pp piece = some (next, output))
    (shown : passedOverDisk piece = false) (own : ∀ record, output = some record → line.Own record)
    (nonzero : (0 : UInt8) ∉ piece) :
    (∀ field ∈ line.fields, field ≠ [] ∧ colon ∉ field) ∧
      line.fields.flatten.length + 9 ≤ (splitNewlineSymbol piece).length := by
  obtain ⟨columns, rfl⟩ := iostatTurn_set shown turned
  have enough : metricsIostatMax ≤ (strtok (splitNewlineSymbol piece) colon).length := by
    have set := (own _ rfl).set
    simp only at set
    omega
  have filled : (strtok (splitNewlineSymbol piece) colon).drop (metricsIostatMax - 1) ≠ [] := by
    rw [ne_eq, List.drop_eq_nil_iff, Nat.not_le]
    exact Nat.lt_of_lt_of_le (by decide) enough
  obtain ⟨last, more, rest⟩ := List.exists_cons_of_ne_nil filled
  have tokens := List.take_append_drop (metricsIostatMax - 1) (strtok (splitNewlineSymbol piece) colon)
  rw [rest] at tokens
  have count : ((strtok (splitNewlineSymbol piece) colon).take (metricsIostatMax - 1)).length = metricsIostatMax - 1 :=
    List.length_take_of_le (Nat.le_trans (Nat.sub_le _ _) enough)
  obtain ⟨⟨_, turn⟩, length⟩ := iostatTurn_full pp shown tokens.symm (by rw [count]; rfl) fun member =>
    nonzero (splitNewlineSymbol_subset _ _ member)
  obtain ⟨_, printed, complete⟩ := own _ rfl
  rw [turn] at turned
  simp only [Option.some.injEq, Prod.mk.injEq, Record.mk.injEq] at turned
  have columns := turned.2.2.trans printed
  refine ⟨fun field member => ⟨complete field member, ?_⟩, ?_⟩
  · have among : field ∈ strtok (splitNewlineSymbol piece) colon := by
      rw [← tokens]
      rw [← columns] at member
      rcases List.mem_append.mp member with earlier | same
      · exact List.mem_append_left _ earlier
      · exact List.mem_append_right _ (List.mem_singleton.mp same ▸ List.mem_cons_self)
    exact (mem_strtok among).2.1
  · have total : metricsIostatMax - 1 = 9 := rfl
    rw [← columns, List.flatten_append, List.length_append, List.flatten_singleton]
    omega

theorem length_text (line : IostatLine) : line.text.length = line.fields.flatten.length + 9 := by
  simp only [text, fields, List.intercalate, List.intersperse, List.flatten_cons, List.flatten_nil, List.length_append,
    List.length_cons, List.length_nil]
  omega

theorem mem_intercalate {byte : UInt8} {fields : List Bytes} (member : byte ∈ [colon].intercalate fields) :
    byte = colon ∨ ∃ field ∈ fields, byte ∈ field := by
  induction fields with
  | nil => cases member
  | cons field fields ih =>
      cases fields with
      | nil =>
          rw [List.intercalate_singleton] at member
          exact .inr ⟨field, List.mem_cons_self, member⟩
      | cons next fields =>
          rw [List.intercalate_cons_cons, List.mem_append, List.mem_append, List.mem_singleton] at member
          rcases member with (here | same) | later
          · exact .inr ⟨field, List.mem_cons_self, here⟩
          · exact .inl same
          · rcases ih later with same | ⟨other, among, inside⟩
            · exact .inl same
            · exact .inr ⟨other, List.mem_cons_of_mem _ among, inside⟩

theorem mem_text {byte : UInt8} (member : byte ∈ line.text) : byte = colon ∨ ∃ field ∈ line.fields, byte ∈ field :=
  mem_intercalate member

theorem lineal_text (line : IostatLine) : Lineal line.text :=
  lineal_of_fields (by decide) (by decide) line.lineal fun _ => mem_text

theorem tokens_text (clean : ∀ field ∈ line.fields, field ≠ [] ∧ colon ∉ field) :
    strtok line.text colon = line.fields := by
  rw [strtok, text, List.splitOn_intercalate colon (fun field member => (clean field member).2) (List.cons_ne_nil _ _),
    List.filter_eq_self]
  exact fun field member => decide_eq_true (clean field member).1

/-- The lines that give a record of their own, or none. -/
def Fits (line : IostatLine) : Prop :=
  (∀ piece ∈ fgetsStrings lineBufLen (line.text ++ [newline]), passedOverDisk piece = true) ∨
    (line.text.length < lineBufLen - 1 ∧ ∀ field ∈ line.fields, field ≠ [] ∧ colon ∉ field)

theorem iostatTurn_text (line : IostatLine) (clean : ∀ field ∈ line.fields, field ≠ [] ∧ colon ∉ field)
    (shown : passedOverDisk (line.text ++ [newline]) = false) (pp : List Nat) :
    ∃ next, iostatTurn pp (line.text ++ [newline]) = some (next, some ⟨metricsIostatMax, line.fields⟩) := by
  have tokens := tokens_text clean
  rw [← splitNewlineSymbol_closed line.text] at tokens
  have nonzero : (0 : UInt8) ∉ splitNewlineSymbol (line.text ++ [newline]) := by
    rw [splitNewlineSymbol_closed]
    exact line.lineal_text.nonzero
  exact (@iostatTurn_full _ line.util line.fields.dropLast [] pp shown tokens rfl nonzero).1

/-- Where a piece is not passed over, its record shows the same, and that it is
the only one. -/
theorem fits_of_own (each : ∀ piece ∈ fgetsStrings lineBufLen (line.text ++ [newline]), ∃ pp next output,
    iostatTurn pp piece = some (next, output) ∧ ∀ record, output = some record → line.Own record) : line.Fits := by
  have found : ∀ piece ∈ fgetsStrings lineBufLen (line.text ++ [newline]), passedOverDisk piece = false →
      (∀ field ∈ line.fields, field ≠ [] ∧ colon ∉ field) ∧ line.text.length ≤ (splitNewlineSymbol piece).length := by
    intro piece member shown
    obtain ⟨pp, next, output, turned, own⟩ := each piece member
    rw [length_text]
    exact of_own turned shown own (piece_bounds member).1
  refine or_iff_not_imp_left.mpr fun some => ?_
  simp only [not_forall, Bool.not_eq_true] at some
  obtain ⟨piece, member, shown⟩ := some
  obtain ⟨clean, room⟩ := found piece member shown
  refine ⟨Nat.lt_of_not_le fun long => ?_, clean⟩
  obtain ⟨later, all, filled, bounds⟩ := pieces_long line.lineal_text.unbroken long
  have size : lineBufLen = 512 := rfl
  have within := length_splitNewlineSymbol piece
  have fits := (piece_bounds member).2
  have elsewhere : ∀ other ∈ later, passedOverDisk other = true := by
    intro other among
    refine eq_true_of_ne_false fun hidden => ?_
    have room := (found other (all ▸ List.mem_cons_of_mem _ among) hidden).2
    have within := length_splitNewlineSymbol other
    have bound := bounds other among
    omega
  rw [all] at member
  rcases List.mem_cons.mp member with rfl | among
  · -- The whole line is in the first piece, and only its newline is left.
    obtain ⟨other, among⟩ := List.exists_mem_of_ne_nil later filled
    have long := length_of_passedOverDisk (elsewhere other among)
    have bound := bounds other among
    omega
  · rw [elsewhere piece among] at shown
    cases shown

theorem own_iff_fits (first : UInt8) (path : Bytes) (lines : List IostatLine) :
    IostatRecordsOwn first path lines ↔ ∀ line ∈ lines, line.Fits := by
  have run : IostatRecordsOwn first path lines ↔
      ∃ outputs, probeLoop iostatTurn [] (fgetsStrings lineBufLen (printLines (lines.map text))) = some outputs ∧
        OwnRecords text Own lines outputs := by
    simp [IostatRecordsOwn, systemIostatProbe]
  rw [run]
  refine own_iff (fun line => line.lineal_text.unbroken) (fun line fits piece member pp => ?_) fun _ => fits_of_own
  cases shown : passedOverDisk piece with
  | true => exact ⟨pp, none, iostatTurn_passed shown pp, by simp⟩
  | false =>
      rcases fits with passed | ⟨short, clean⟩
      · rw [passed piece member] at shown
        cases shown
      · rw [pieces_short line.lineal_text short, List.mem_singleton] at member
        subst member
        obtain ⟨next, turn⟩ := iostatTurn_text line clean shown pp
        refine ⟨next, _, turn, ?_⟩
        rintro _ ⟨⟩
        exact ⟨rfl, rfl, fun field among => (clean field among).1⟩

end IostatLine

/-- The records are the lines' own exactly when every line has all its fields and
fits the buffer, or, of iostat, is passed over. -/
theorem records_own_iff (inodeLines : List InodeLine) (first : UInt8) (path : Bytes) (iostatLines : List IostatLine) :
    (InodeRecordsOwn inodeLines ↔ ∀ line ∈ inodeLines, line.Fits) ∧
      (IostatRecordsOwn first path iostatLines ↔ ∀ line ∈ iostatLines, line.Fits) :=
  ⟨InodeLine.own_iff_fits inodeLines, IostatLine.own_iff_fits first path iostatLines⟩

instance (text : Bytes) : Decidable (Lineal text) :=
  decidable_of_iff (newline ∉ text ∧ 0 ∉ text) ⟨fun both => ⟨both.1, both.2⟩, fun lineal => ⟨lineal.unbroken, lineal.nonzero⟩⟩

def vda : IostatLine where
  devName := ascii "vda"
  rdSpeed := ascii "0.28"
  rdkbSpeed := ascii "19.59"
  rdAwait := ascii "0.58"
  rareqSz := ascii "68.93"
  wrSpeed := ascii "1.69"
  wrkbSpeed := ascii "65.02"
  wrAwait := ascii "0.81"
  wareqSz := ascii "38.57"
  util := ascii "0.09"
  lineal := by decide

/-- A line without the last column. -/
def vdb : IostatLine where
  devName := ascii "vdb"
  rdSpeed := ascii "0.28"
  rdkbSpeed := ascii "119.59"
  rdAwait := ascii "10.58"
  rareqSz := ascii "168.93"
  wrSpeed := ascii "11.69"
  wrkbSpeed := ascii "165.02"
  wrAwait := ascii "10.81"
  wareqSz := ascii "138.57"
  util := []
  lineal := by decide

/-- In place of a missing column stands what is now where that of the line before
stood. -/
theorem missing_column_stale :
    systemIostatProbe (some (ascii "/usr/bin/iostat")) (some (printLines [vda.text, vdb.text])) =
      some (0, [some ⟨10, vda.fields⟩, some ⟨9, vdb.fields.dropLast ++ [vdb.wareqSz]⟩]) ∧
    ¬ ∀ (inodeLines : List InodeLine) (first : UInt8) (path : Bytes) (iostatLines : List IostatLine),
        InodeRecordsOwn inodeLines ∧ IostatRecordsOwn first path iostatLines := by
  refine ⟨by decide +kernel, fun every => ?_⟩
  have fits := (IostatLine.own_iff_fits 47 [] [vda, vdb]).mp (every [] 47 [] [vda, vdb]).2 vdb (by simp)
  rcases fits with passed | ⟨_, clean⟩
  · exact absurd (passed (vdb.text ++ [newline]) (by decide +kernel)) (by decide +kernel)
  · exact (clean [] (by decide)).1 rfl

end GalaGopher.Probe.SystemInfos

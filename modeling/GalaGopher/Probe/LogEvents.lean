import GalaGopher.Data.Runs
import GalaGopher.Text.Lines
import GalaGopher.Text.Printed

namespace GalaGopher.Probe.LogEvents

open GalaGopher.Text GalaGopher.Data

/-! The probe of the system log, which reports each line with an error code as
an event, and where it goes on from poll to poll. -/

def lenLine : Nat := 1024

/-- `code=\[[1-9][0-9]*\]` at the front of a text. -/
def startsWithCode (text : Bytes) : Bool :=
  (ascii "code=[").isPrefixOf text &&
    match text.drop 6 with
    | [] => false
    | first :: rest => 49 ≤ first && first ≤ 57 && (rest.dropWhile isDigit).head? = some 93

/-- `grep` finds the pattern somewhere in the line. -/
def abnormal (line : Bytes) : Bool := line.tails.any startsWithCode

/-- `sed -n 'first,lastp'` of a file's lines. -/
def printedLines (log : List Bytes) (first last : Nat) : List Bytes := (log.take last).drop (first - 1)

def cmdEventCodeAbnormal (log : List Bytes) (first last : Nat) : Bytes :=
  printLines ((printedLines log first last).filter abnormal)

structure EventData where
  timestamp : Nat
  body : Bytes
deriving DecidableEq, Repr

def makeEvent (now : Nat) (log : Bytes) : EventData where
  timestamp := now * 1000 * 1000 * 1000 % 2 ^ 64
  body := log

/-- The loop over the strings the line buffer comes to hold. -/
def makeEvents (now : Nat) (strings : List Bytes) : List EventData :=
  (strings.filter fun line => line ≠ []).map fun line => makeEvent now (splitNewlineSymbol line)

/-- A pipe without output leaves the buffer as it was declared.  `held` is the
string found there, `none` where no byte of it ends one. -/
def readEvents (now : Nat) (held : Option Bytes) (output : Bytes) : Option (List EventData) :=
  match fgetsStrings lenLine output with
  | [] => held.map fun held => makeEvents now [held]
  | strings => some (makeEvents now strings)

structure Answer where
  ret : Int
  nextLineNum : Nat
  events : List EventData
deriving DecidableEq, Repr

/-- `lineNum` is what `wc` counted, `none` where it could not be started; `log`
is what `sed` finds, if that could be. -/
def filterLogEvent (nextLineNum : Nat) (lineNum : Option Nat) (log : Option (List Bytes)) (now : Nat) (held : Option Bytes) :
    Option Answer :=
  match lineNum with
  | none => some { ret := -1, nextLineNum, events := [] }
  | some lineNum =>
      if lineNum < 1 then some { ret := -1, nextLineNum, events := [] }
      else
        let nextLineNum := if nextLineNum = 0 then lineNum else nextLineNum
        if nextLineNum = lineNum + 1 then some { ret := 0, nextLineNum, events := [] }
        else
          let nextLineNum := if lineNum + 1 < nextLineNum then 1 else nextLineNum
          match log with
          | none => some { ret := -1, nextLineNum, events := [] }
          | some log =>
              (readEvents now held (cmdEventCodeAbnormal log nextLineNum lineNum)).map fun events =>
                { ret := 0, nextLineNum := lineNum + 1, events }

inductive Happening where
  | append (line : Bytes)
  /-- The log goes on in an empty file. -/
  | rotate
  | poll (lineNum : Option Nat) (opened : Bool) (now : Nat) (held : Option Bytes)

/-- `log` is the current file, and `rotated` says that no poll has counted it
yet.  `journal` is all that was written from the line on at which the probe
begins, and `reports` has what each poll made of it. -/
structure Watch where
  log : List Bytes
  rotated : Bool
  nextLineNum : Nat
  journal : List Bytes
  reports : List (List EventData)
deriving DecidableEq

def Watch.start (log : List Bytes) : Watch where
  log
  rotated := false
  nextLineNum := 0
  journal := []
  reports := []

def counts (lineNum : Option Nat) : Bool := lineNum.any fun lineNum => 1 ≤ lineNum

/-- The journal begins with the last line there is. -/
def Watch.begun (watch : Watch) : Option Nat → List Bytes
  | none => watch.journal
  | some lineNum =>
      if watch.nextLineNum = 0 ∧ 1 ≤ lineNum then watch.log.drop (lineNum - 1) else watch.journal

def step (watch : Watch) : Happening → Option Watch
  | .append line =>
      some { watch with
        log := watch.log ++ [line]
        journal := if watch.nextLineNum = 0 then [] else watch.journal ++ [line] }
  | .rotate => some { watch with log := [], rotated := true }
  | .poll lineNum opened now held =>
      (filterLogEvent watch.nextLineNum lineNum (if opened then some watch.log else none) now held).map fun answer =>
        { watch with
          rotated := watch.rotated && !counts lineNum
          nextLineNum := answer.nextLineNum
          journal := watch.begun lineNum
          reports := watch.reports ++ [answer.events] }

/-- The lines of the journal no poll has read. -/
def Watch.unread (watch : Watch) : List Bytes :=
  if watch.rotated then watch.log else watch.log.drop (watch.nextLineNum - 1)

/-- Lines are texts, a file is read to its end before the log leaves it, and the
next count shows that it did. -/
def Allowed (watch : Watch) : Happening → Prop
  | .append line => Lineal line
  | .rotate => watch.nextLineNum = 0 ∨ watch.unread = []
  | .poll none _ _ _ => True
  | .poll (some lineNum) _ _ _ =>
      lineNum ≤ watch.log.length ∧ (watch.nextLineNum ≠ 0 →
        if watch.rotated then lineNum + 1 < watch.nextLineNum else watch.nextLineNum ≤ lineNum + 1)

instance (watch : Watch) : (happening : Happening) → Decidable (Allowed watch happening)
  | .append line => decidable_of_iff (newline ∉ line ∧ 0 ∉ line) ⟨fun both => ⟨both.1, both.2⟩, fun lineal => ⟨lineal.1, lineal.2⟩⟩
  | .rotate => inferInstanceAs (Decidable (_ ∨ _))
  | .poll none _ _ _ => .isTrue trivial
  | .poll (some _) _ _ _ => inferInstanceAs (Decidable (_ ∧ (_ → _)))

abbrev Step (watch : Watch) (happening : Happening) (after : Watch) : Prop :=
  Allowed watch happening ∧ step watch happening = some after

/-- The bodies a line is reported with: the line, or its parts where it is too
long for the buffer. -/
def bodies (line : Bytes) : List Bytes :=
  ((fgetsStrings lenLine (line ++ [newline])).filter fun part => part ≠ []).map splitNewlineSymbol

/-- Of the lines a poll reads it reports those that show an error code.  Where
none does, it reports whatever string it finds in the buffer. -/
def Told (report : List EventData) (lines : List Bytes) : Prop :=
  if lines.filter abnormal = [] then report.length ≤ 1 ∧ (lines = [] → report = [])
  else report.map EventData.body = (lines.filter abnormal).flatMap bodies

variable {log lines : List Bytes} {line : Bytes} {watch after : Watch} {happening : Happening} {happenings : List Happening}
  {now : Nat} {held : Option Bytes} {read : List (List Bytes)}

theorem bodies_short (lineal : Lineal line) (short : line.length < lenLine - 1) : bodies line = [line] := by
  have read : fgetsStrings lenLine (line ++ [newline]) = [line ++ [newline]] := fgetsStrings_closed lineal short []
  rw [bodies, read, List.filter_cons_of_pos (by simp), List.filter_nil, List.map_singleton, splitNewlineSymbol_closed]

theorem fgetsStrings_lines (lineal : ∀ line ∈ lines, Lineal line) :
    fgetsStrings lenLine (printLines lines) = lines.flatMap fun line => fgetsStrings lenLine (line ++ [newline]) := by
  induction lines with
  | nil => rfl
  | cons line lines ih =>
      obtain ⟨first, later⟩ := List.forall_mem_cons.mp lineal
      rw [printLines_cons, fgetsStrings_line (by decide) first.unbroken, ih later, List.flatMap_cons]

theorem makeEvents_lines (lineal : ∀ line ∈ lines, Lineal line) :
    (makeEvents now (fgetsStrings lenLine (printLines lines))).map EventData.body = lines.flatMap bodies := by
  rw [makeEvents, List.map_map, fgetsStrings_lines lineal, List.filter_flatMap, List.map_flatMap]
  rfl

theorem makeEvents_singleton (now : Nat) (text : Bytes) : (makeEvents now [text]).length ≤ 1 := by
  rw [makeEvents, List.length_map]
  exact List.length_filter_le _ _

theorem readEvents_told (lineal : ∀ line ∈ lines, Lineal line) (filled : lines ≠ []) {report : List EventData}
    (made : readEvents now held (printLines (lines.filter abnormal)) = some report) : Told report lines := by
  rw [Told]
  by_cases quiet : lines.filter abnormal = []
  · rw [if_pos quiet]
    rw [quiet] at made
    obtain ⟨held, -, rfl⟩ := Option.map_eq_some_iff.mp made
    exact ⟨makeEvents_singleton now held, fun none => absurd none filled⟩
  · rw [if_neg quiet]
    have printed : fgetsStrings lenLine (printLines (lines.filter abnormal)) ≠ [] := by
      refine fgetsStrings_ne_nil (by decide) fun none => quiet ?_
      cases shown : lines.filter abnormal with
      | nil => rfl
      | cons line rest => rw [shown, printLines_cons] at none; simp at none
    rw [readEvents] at made
    split at made
    · contradiction
    · cases made
      exact makeEvents_lines fun line member => lineal line (List.mem_of_mem_filter member)

theorem printedLines_append {first last : Nat} (begun : first ≤ last + 1) :
    log.drop (first - 1) = printedLines log first last ++ log.drop last := by
  rw [printedLines]
  conv_lhs => rw [← List.take_append_drop last log]
  by_cases within : last ≤ log.length
  · rw [List.drop_append_of_le_length (by rw [List.length_take]; omega)]
  · rw [List.drop_of_length_le (l := log) (i := last) (by omega), List.append_nil, List.append_nil]

/-- The polls share out the journal: `read` has what each of them reported on. -/
structure Reported (watch : Watch) (read : List (List Bytes)) : Prop where
  lineal : ∀ line ∈ watch.log, Lineal line
  fresh : watch.nextLineNum = 0 → watch.journal = [] ∧ read.flatten = []
  within : watch.rotated = false → watch.nextLineNum ≤ watch.log.length + 1
  journal : watch.nextLineNum ≠ 0 → watch.journal = read.flatten ++ watch.unread
  reports : List.Forall₂ Told watch.reports read

theorem start_reported (lineal : ∀ line ∈ log, Lineal line) : Reported (Watch.start log) [] where
  lineal := lineal
  fresh _ := ⟨rfl, rfl⟩
  within _ := Nat.zero_le _
  journal begun := absurd rfl begun
  reports := .nil

theorem told_nothing : Told [] [] := by simp [Told]

/-- Where a poll that counts lines reads from. -/
def firstLine (nextLineNum lineNum : Nat) : Nat :=
  if nextLineNum = 0 then lineNum else if lineNum + 1 < nextLineNum then 1 else nextLineNum

theorem filterLogEvent_counted {nextLineNum lineNum : Nat} (counted : 1 ≤ lineNum) (opened : Option (List Bytes)) :
    filterLogEvent nextLineNum (some lineNum) opened now held =
      if firstLine nextLineNum lineNum = lineNum + 1 then some { ret := 0, nextLineNum := lineNum + 1, events := [] }
      else
        match opened with
        | none => some { ret := -1, nextLineNum := firstLine nextLineNum lineNum, events := [] }
        | some log =>
            (readEvents now held (cmdEventCodeAbnormal log (firstLine nextLineNum lineNum) lineNum)).map fun events =>
              { ret := 0, nextLineNum := lineNum + 1, events } := by
  have some : ¬ lineNum < 1 := by omega
  simp only [filterLogEvent, if_neg some, firstLine]
  by_cases first : nextLineNum = 0
  · have kept : ¬ lineNum + 1 < lineNum := by omega
    have last : ¬ lineNum = lineNum + 1 := by omega
    simp only [if_pos first, if_neg kept, if_neg last]
  · by_cases rewritten : lineNum + 1 < nextLineNum
    · have other : nextLineNum ≠ lineNum + 1 := by omega
      have short : ¬ 1 = lineNum + 1 := by omega
      simp only [if_neg first, if_pos rewritten, if_neg other, if_neg short]
    · simp only [if_neg first, if_neg rewritten]
      split
      · rename_i last
        rw [last]
      · rfl

theorem Reported.append (reported : Reported watch read) (lineal : Lineal line) :
    Reported
      { watch with
        log := watch.log ++ [line]
        journal := if watch.nextLineNum = 0 then [] else watch.journal ++ [line] } read where
  lineal other member := by
    rcases List.mem_append.mp member with earlier | last
    · exact reported.lineal other earlier
    · exact List.mem_singleton.mp last ▸ lineal
  fresh unbegun := ⟨if_pos unbegun, (reported.fresh unbegun).2⟩
  within current := by
    have within := reported.within current
    simp only [List.length_append, List.length_singleton]
    omega
  journal begun := by
    have whole := reported.journal begun
    simp only [if_neg begun, whole, Watch.unread]
    split
    · rw [List.append_assoc]
    · rename_i current
      have within := reported.within (Bool.not_eq_true _ ▸ current)
      rw [List.drop_append_of_le_length (by omega), List.append_assoc]
  reports := reported.reports

/-- A poll that counts lines begins with the first unread one. -/
theorem Reported.unread_from (reported : Reported watch read) {lineNum : Nat} {opened : Bool}
    (counted : 1 ≤ lineNum) (allowed : Allowed watch (.poll (some lineNum) opened now held)) :
    firstLine watch.nextLineNum lineNum ≤ lineNum + 1 ∧ 1 ≤ firstLine watch.nextLineNum lineNum ∧
      watch.begun (some lineNum) = read.flatten ++ watch.log.drop (firstLine watch.nextLineNum lineNum - 1) := by
  obtain ⟨within, next⟩ := allowed
  rw [firstLine, Watch.begun]
  by_cases first : watch.nextLineNum = 0
  · rw [if_pos first, if_pos ⟨first, counted⟩, (reported.fresh first).2]
    exact ⟨Nat.le_succ _, counted, rfl⟩
  · have whole := reported.journal first
    have ordered := next first
    rw [if_neg first, if_neg (fun begins : watch.nextLineNum = 0 ∧ 1 ≤ lineNum => first begins.1), whole, Watch.unread]
    cases rotated : watch.rotated with
    | true =>
        rw [if_pos rotated] at ordered
        rw [if_pos ordered, if_pos rfl]
        exact ⟨by omega, Nat.le_refl _, rfl⟩
    | false =>
        rw [rotated] at ordered
        simp only [Bool.false_eq_true, if_false] at ordered
        rw [if_neg (by omega), if_neg Bool.false_ne_true]
        exact ⟨ordered, Nat.pos_of_ne_zero first, rfl⟩

/-- It reads what is unread of those lines, or nothing. -/
theorem Reported.poll (reported : Reported watch read) {lineNum : Nat} {opened : Bool}
    (counted : 1 ≤ lineNum) (allowed : Allowed watch (.poll (some lineNum) opened now held))
    (taken : step watch (.poll (some lineNum) opened now held) = some after) : ∃ more, Reported after (read ++ [more]) := by
  obtain ⟨ordered, positive, whole⟩ := reported.unread_from counted allowed
  have seen : counts (some lineNum) = true := decide_eq_true counted
  have within : lineNum ≤ watch.log.length := allowed.1
  have split : watch.log.drop (firstLine watch.nextLineNum lineNum - 1) = _ := printedLines_append ordered
  simp only [step, filterLogEvent_counted counted, seen, Bool.not_true, Bool.and_false, Option.map_eq_some_iff] at taken
  obtain ⟨answer, found, rfl⟩ := taken
  -- what the poll moves the reader past, and what it makes of it
  have moved (first : Nat) (more : List Bytes) (report : List EventData) (positive : 1 ≤ first) (bounded : first ≤ lineNum + 1)
      (rest : watch.begun (some lineNum) = read.flatten ++ (more ++ watch.log.drop (first - 1))) (told : Told report more) :
      Reported
        { log := watch.log, rotated := false, nextLineNum := first, journal := watch.begun (some lineNum),
          reports := watch.reports ++ [report] } (read ++ [more]) := {
    lineal := reported.lineal
    fresh := fun none => absurd none (Nat.ne_of_gt positive)
    within := fun _ => Nat.le_trans bounded (Nat.succ_le_succ within)
    journal := fun _ => by simp [rest, Watch.unread]
    reports := List.rel_append reported.reports (.cons told .nil) }
  by_cases done : firstLine watch.nextLineNum lineNum = lineNum + 1
  · rw [if_pos done] at found
    cases found
    exact ⟨[], moved (lineNum + 1) [] [] (by omega) (Nat.le_refl _) (by rw [whole, done, List.nil_append]) told_nothing⟩
  · rw [if_neg done] at found
    cases opened with
    | false =>
        cases found
        exact ⟨[], moved _ [] [] positive ordered (by rw [whole, List.nil_append]) told_nothing⟩
    | true =>
        simp only [if_true, Option.map_eq_some_iff] at found
        obtain ⟨report, made, rfl⟩ := found
        have filled : printedLines watch.log (firstLine watch.nextLineNum lineNum) lineNum ≠ [] := by
          rw [printedLines, Ne, List.drop_eq_nil_iff, List.length_take]
          omega
        refine ⟨_, moved (lineNum + 1) (printedLines watch.log (firstLine watch.nextLineNum lineNum) lineNum) report (by omega)
          (Nat.le_refl _) (by rw [whole, split, Nat.add_sub_cancel]) ?_⟩
        refine readEvents_told (fun line member => reported.lineal line ?_) filled made
        exact List.mem_of_mem_take (List.mem_of_mem_drop member)

theorem Reported.step (reported : Reported watch read) (taken : Step watch happening after) :
    ∃ read, Reported after read := by
  obtain ⟨allowed, taken⟩ := taken
  cases happening with
  | append line =>
      cases taken
      exact ⟨read, reported.append allowed⟩
  | rotate =>
      cases taken
      refine ⟨read, {
        lineal := fun line member => by cases member
        fresh := reported.fresh
        within := fun current => by cases current
        journal := fun begun => ?_
        reports := reported.reports }⟩
      have whole := reported.journal begun
      rw [allowed.resolve_left begun] at whole
      exact whole
  | poll lineNum opened now held =>
      by_cases counted : counts lineNum
      · cases lineNum with
        | none => cases counted
        | some lineNum =>
            obtain ⟨more, now⟩ := reported.poll (of_decide_eq_true counted) allowed taken
            exact ⟨_, now⟩
      · have nothing : filterLogEvent watch.nextLineNum lineNum (if opened then some watch.log else none) now held =
            some { ret := -1, nextLineNum := watch.nextLineNum, events := [] } ∧ watch.begun lineNum = watch.journal := by
          cases lineNum with
          | none => exact ⟨rfl, rfl⟩
          | some lineNum =>
              have none : ¬ 1 ≤ lineNum := fun some => counted (decide_eq_true some)
              have short : lineNum < 1 := by omega
              exact ⟨if_pos short, if_neg fun begins => none begins.2⟩
        have uncounted : counts lineNum = false := Bool.not_eq_true _ ▸ counted
        simp only [LogEvents.step, nothing, uncounted, Option.map_some, Option.some.injEq] at taken
        subst taken
        refine ⟨read ++ [[]], {
          lineal := reported.lineal
          fresh := ?_
          within := ?_
          journal := ?_
          reports := List.rel_append reported.reports (.cons told_nothing .nil) }⟩
        · simpa using reported.fresh
        · simpa using reported.within
        · simpa [Watch.unread] using reported.journal

/-- The lines of the journal are shared out among the polls, in order and up to
those no poll has come to, and each poll reports on its own. -/
theorem events_once (lineal : ∀ line ∈ log, Lineal line) (run : Runs Step (Watch.start log) happenings watch) :
    ∃ read, watch.journal = read.flatten ++ (if watch.nextLineNum = 0 then [] else watch.unread) ∧
      List.Forall₂ Told watch.reports read := by
  obtain ⟨read, reported⟩ := run.invariant (fun watch => ∃ read, Reported watch read) ⟨[], start_reported lineal⟩
    fun _ _ _ taken ⟨_, reported⟩ => reported.step taken
  refine ⟨read, ?_, reported.reports⟩
  split
  · rename_i unbegun
    rw [(reported.fresh unbegun).1, (reported.fresh unbegun).2, List.append_nil]
  · rename_i begun
    exact reported.journal begun

/-- The log goes on in a new file once it is read.  The first poll finds no error
code and reports what the last call left in the buffer. -/
def rotation : List Happening :=
  [.poll (some 2) true 1 (some (ascii "sda code=[5]")), .append (ascii "sdb code=[7]"), .poll none true 2 none,
    .poll (some 3) true 3 none, .rotate, .append (ascii "usb code=[0]"), .append (ascii "sdc code=[9]"),
    .poll (some 2) true 4 none, .append (ascii "sdd code=[1]")]

theorem events_once_stray :
    ∃ watch read, Runs Step (Watch.start [ascii "sda code=[5]", ascii "usb code=[0]"]) rotation watch ∧
      watch.reports.map (fun report => report.map EventData.body) =
        [[ascii "sda code=[5]"], [], [ascii "sdb code=[7]"], [ascii "sdc code=[9]"]] ∧
      watch.journal = List.flatten read ++ (if watch.nextLineNum = 0 then [] else watch.unread) ∧
      List.Forall₂ Told watch.reports read := by
  have lineal : ∀ line ∈ [ascii "sda code=[5]", ascii "usb code=[0]"], Lineal line := by
    intro line member
    rcases List.mem_cons.mp member with rfl | last
    · exact ⟨by decide +kernel, by decide +kernel⟩
    · rw [List.mem_singleton.mp last]
      exact ⟨by decide +kernel, by decide +kernel⟩
  have reaches : (rotation.foldlM (fun watch happening => if Allowed watch happening then step watch happening else none)
      (Watch.start [ascii "sda code=[5]", ascii "usb code=[0]"])).map
        (fun watch => watch.reports.map fun report => report.map EventData.body) =
      some [[ascii "sda code=[5]"], [], [ascii "sdb code=[7]"], [ascii "sdc code=[9]"]] := by
    decide +kernel
  obtain ⟨watch, reached, reports⟩ := Option.map_eq_some_iff.mp reaches
  have run : Runs Step (Watch.start [ascii "sda code=[5]", ascii "usb code=[0]"]) rotation watch := by
    refine (Runs.foldlM _ reached).mono fun before happening after taken => ?_
    split at taken
    · rename_i allowed
      exact ⟨allowed, taken⟩
    · cases taken
  obtain ⟨read, journal, told⟩ := events_once lineal run
  exact ⟨watch, read, run, reports, journal, told⟩

end GalaGopher.Probe.LogEvents

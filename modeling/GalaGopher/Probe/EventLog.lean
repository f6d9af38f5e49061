import GalaGopher.Ingress.Line
import GalaGopher.Text.Printed

namespace GalaGopher.Probe

open GalaGopher.Text GalaGopher.Ingress

inductive EvtSec where
  | info
  | warn
  | error
  | fatal
deriving DecidableEq, Repr

def EvtSec.secNumber : EvtSec → Nat
  | .info => 9
  | .warn => 13
  | .error => 17
  | .fatal => 21

def EvtSec.secText : EvtSec → Bytes
  | .info => ascii "INFO"
  | .warn => ascii "WARN"
  | .error => ascii "ERROR"
  | .fatal => ascii "FATAL"

/-- A broken-down time, with the year of the calendar as an `int`. -/
structure Tm where
  wday : Fin 7
  mon : Fin 12
  mday : Fin 32
  hour : Fin 24
  min : Fin 60
  sec : Fin 61
  year : Int
  yearInt : -2 ^ 31 ≤ year ∧ year < 2 ^ 31

def dayName : Fin 7 → Bytes
  | 0 => ascii "Sun"
  | 1 => ascii "Mon"
  | 2 => ascii "Tue"
  | 3 => ascii "Wed"
  | 4 => ascii "Thu"
  | 5 => ascii "Fri"
  | 6 => ascii "Sat"

def monthName : Fin 12 → Bytes
  | 0 => ascii "Jan"
  | 1 => ascii "Feb"
  | 2 => ascii "Mar"
  | 3 => ascii "Apr"
  | 4 => ascii "May"
  | 5 => ascii "Jun"
  | 6 => ascii "Jul"
  | 7 => ascii "Aug"
  | 8 => ascii "Sep"
  | 9 => ascii "Oct"
  | 10 => ascii "Nov"
  | 11 => ascii "Dec"

/-- A number printed with at least the given width. -/
def padded (width : Nat) (fill : UInt8) (number : Nat) : Bytes :=
  (ascii (toString number)).leftpad width fill

/-- `asctime`, up to the newline it ends with. -/
def clockText (tm : Tm) : Bytes :=
  dayName tm.wday ++ ascii " " ++ monthName tm.mon ++ padded 3 32 tm.mday ++ ascii " " ++
    padded 2 48 tm.hour ++ ascii ":" ++ padded 2 48 tm.min ++ ascii ":" ++ padded 2 48 tm.sec ++ ascii " " ++
    ascii (toString tm.year)

def asctime (tm : Tm) : Bytes := clockText tm ++ [newline]

/-- One call, with the local time it finds and what its format prints. -/
structure ReportCall where
  tm : Tm
  tblName : Bytes
  entityId : Bytes
  metrics : Bytes
  sec : EvtSec
  message : Bytes

def entityText (sec : EvtSec) (entityId : Bytes) : Bytes :=
  ascii " " ++ sec.secText ++ ascii " Entity(" ++ entityId ++ ascii ") "

/-- The 128 bytes of the body, filled by three calls of `snprintf`. -/
def eventBody (call : ReportCall) : Bytes :=
  let time := (asctime call.tm).take 127
  let headed := time ++ (entityText call.sec call.entityId).take (127 - time.length)
  headed ++ call.message.take (127 - headed.length)

def reportLogs (call : ReportCall) : Bytes :=
  ascii "|" ++ ascii "event" ++ ascii "|" ++ call.tblName ++ ascii "|" ++ call.entityId ++ ascii "|" ++
    call.metrics ++ ascii "|" ++ call.sec.secText ++ ascii "|" ++ ascii (toString call.sec.secNumber) ++ ascii "|" ++
    eventBody call ++ ascii "|" ++ [newline]

def plainByte (byte : UInt8) : Bool := byte != newline && byte != bar && byte != 0

/-- Arguments without bars and newlines; a NUL ends a C string. -/
structure CleanCall (call : ReportCall) : Prop where
  tblName : call.tblName.all plainByte
  entityId : call.entityId.all plainByte
  metrics : call.metrics.all plainByte
  message : call.message.all plainByte

variable {text : Bytes} {call : ReportCall}

theorem newline_free (plain : text.all plainByte) : newline ∉ text := by
  intro member
  have clean := List.all_eq_true.mp plain newline member
  cases clean

theorem bar_free (plain : text.all plainByte) : bar ∉ text := by
  intro member
  have clean := List.all_eq_true.mp plain bar member
  cases clean

theorem zero_free (plain : text.all plainByte) : (0 : UInt8) ∉ text := by
  intro member
  have clean := List.all_eq_true.mp plain 0 member
  cases clean

theorem printed_plain (number : Int) : (ascii (toString number)).all plainByte := by
  rw [List.all_eq_true]
  intro byte member
  have other (separator : UInt8) (neither : ¬ (separator = 45 ∨ isDigit separator)) : byte ≠ separator :=
    fun same => printed_free neither number (same ▸ member)
  rw [plainByte, Bool.and_eq_true, Bool.and_eq_true, bne_iff_ne, bne_iff_ne, bne_iff_ne]
  exact ⟨⟨other newline (by decide), other bar (by decide)⟩, other 0 (by decide)⟩

theorem number_plain (number : Nat) : (ascii (toString number)).all plainByte := printed_plain number

theorem padded_plain {width number : Nat} {fill : UInt8} (plain : plainByte fill) :
    (padded width fill number).all plainByte := by
  have digits := number_plain number
  rw [padded, List.leftpad, List.all_append, List.all_replicate, Bool.and_eq_true]
  refine ⟨?_, digits⟩
  split
  · rfl
  · exact plain

theorem padded_length {width number : Nat} {fill : UInt8} (positive : 0 < width) (small : number < 10 ^ width) :
    (padded width fill number).length = width := by
  have short := length_printed_le positive small
  rw [padded, List.leftpad, List.length_append, List.length_replicate]
  omega

theorem clockText_plain (tm : Tm) : (clockText tm).all plainByte := by
  have day : ∀ wday, (dayName wday).all plainByte := by decide
  have month : ∀ mon, (monthName mon).all plainByte := by decide
  have space : (ascii " ").all plainByte := by decide
  have colon : (ascii ":").all plainByte := by decide
  have zero : plainByte 48 := by decide
  have blank : plainByte 32 := by decide
  simp only [clockText, List.all_append, day, month, space, colon, padded_plain zero, padded_plain blank,
    printed_plain, Bool.and_self]

theorem clockText_length (tm : Tm) : (clockText tm).length ≤ 31 := by
  have day : ∀ wday, (dayName wday).length = 3 := by decide
  have month : ∀ mon, (monthName mon).length = 3 := by decide
  have space : (ascii " ").length = 1 := rfl
  have colon : (ascii ":").length = 1 := rfl
  have year := printed_int_length tm.yearInt
  have mday := @padded_length 3 tm.mday 32 (by decide) (by omega)
  have hour := @padded_length 2 tm.hour 48 (by decide) (by omega)
  have min := @padded_length 2 tm.min 48 (by decide) (by omega)
  have sec := @padded_length 2 tm.sec 48 (by decide) (by omega)
  simp only [clockText, List.length_append, day, month, space, colon, mday, hour, min, sec]
  omega

theorem secText_plain (sec : EvtSec) : sec.secText.all plainByte := by
  cases sec with
  | info => decide
  | warn => decide
  | error => decide
  | fatal => decide

theorem entityText_plain (sec : EvtSec) {entityId : Bytes} (plain : entityId.all plainByte) :
    (entityText sec entityId).all plainByte := by
  have severity := secText_plain sec
  have space : (ascii " ").all plainByte := by decide
  have opening : (ascii " Entity(").all plainByte := by decide
  have closing : (ascii ") ").all plainByte := by decide
  simp only [entityText, List.all_append, severity, space, opening, closing, plain, Bool.and_self]

theorem take_plain {count : Nat} (plain : text.all plainByte) : (text.take count).all plainByte := by
  rw [List.all_eq_true] at plain ⊢
  intro byte member
  exact plain byte (List.mem_of_mem_take member)

/-- The newline of `asctime` stands inside the body, with a blank behind it. -/
theorem eventBody_eq (clean : CleanCall call) : ∃ rest,
    eventBody call = clockText call.tm ++ newline :: 32 :: rest ∧ rest.all plainByte := by
  have short := clockText_length call.tm
  have whole : (asctime call.tm).take 127 = clockText call.tm ++ [newline] := by
    apply List.take_of_length_le
    rw [asctime, List.length_append, List.length_singleton]
    omega
  have room : 127 - (clockText call.tm ++ [newline]).length = (125 - (clockText call.tm).length) + 1 := by
    rw [List.length_append, List.length_singleton]
    omega
  obtain ⟨entity, split⟩ : ∃ entity, entityText call.sec call.entityId = 32 :: entity := ⟨_, rfl⟩
  have entityPlain : entity.all plainByte := by
    have plain := entityText_plain call.sec clean.entityId
    rw [split, List.all_cons, Bool.and_eq_true] at plain
    exact plain.2
  simp only [eventBody, whole, room, split, List.take_succ_cons]
  refine ⟨entity.take (125 - (clockText call.tm).length) ++ call.message.take (127 -
    (clockText call.tm ++ [newline] ++ 32 :: entity.take (125 - (clockText call.tm).length)).length), ?_, ?_⟩
  · simp only [List.append_assoc, List.cons_append, List.nil_append]
  · rw [List.all_append, take_plain entityPlain, take_plain clean.message]
    rfl

/-- The line as it would be written for the six values. -/
theorem reportLogs_eq (call : ReportCall) : reportLogs call =
    probeLine (ascii "event") [call.tblName, call.entityId, call.metrics, call.sec.secText,
      ascii (toString call.sec.secNumber), eventBody call] true := by
  have separator : ascii "|" = [bar] := rfl
  simp only [reportLogs, probeLine, fieldsText, List.foldr_cons, List.foldr_nil, separator, List.append_assoc,
    List.cons_append, List.nil_append, if_true]

end GalaGopher.Probe

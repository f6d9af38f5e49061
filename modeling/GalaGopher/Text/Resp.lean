import GalaGopher.Text.Options
import GalaGopher.Text.Quoted

namespace GalaGopher.Text.Resp

/-! The wire format of redis.  A request is an array of bulk strings, each with
its length in front. -/

def star : UInt8 := 42

def dollar : UInt8 := 36

def plus : UInt8 := 43

def crlf : Bytes := [13, 10]

/-- Up to the next line break. -/
def line : Reader Bytes
  | [] => none
  | byte :: rest =>
      if crlf <+: byte :: rest then some ([], rest.tail)
      else (line rest).map fun more => (byte :: more.1, more.2)

def number (text : Bytes) : Option Nat :=
  if text ≠ [] ∧ text.all isDigit then some (leadingNumber text) else none

/-- A line with a number behind its mark. -/
def counted (mark : UInt8) : Reader Nat
  | [] => none
  | byte :: rest =>
      if byte = mark then (line rest).bind fun digits => (number digits.1).map fun count => (count, digits.2)
      else none

/-- As many bytes, and the line break behind them. -/
def body (size : Nat) (text : Bytes) : Option (Bytes × Bytes) :=
  if size ≤ text.length ∧ crlf <+: text.drop size then some (text.take size, text.drop (size + 2)) else none

def bulk : Reader Bytes := fun text => (counted dollar text).bind fun size => body size.1 size.2

def times {α : Type} (item : Reader α) : Nat → Reader (List α)
  | 0, text => some ([], text)
  | count + 1, text =>
      (item text).bind fun first => (times item count first.2).map fun others => (first.1 :: others.1, others.2)

def request : Reader (List Bytes) := fun text => (counted star text).bind fun count => times bulk count.1 count.2

def countText (mark : UInt8) (count : Nat) : Bytes := mark :: (ascii (toString count) ++ crlf)

def bulkText (arg : Bytes) : Bytes := countText dollar arg.length ++ (arg ++ crlf)

def requestText (args : List Bytes) : Bytes := countText star args.length ++ args.flatMap bulkText

variable {text rest : Bytes}

theorem line_text (free : 13 ∉ text) (rest : Bytes) : line (text ++ (crlf ++ rest)) = some (text, rest) := by
  induction text with
  | nil => rfl
  | cons byte text ih =>
      rw [List.mem_cons, not_or] at free
      have visible : ¬ crlf <+: byte :: (text ++ (crlf ++ rest)) := by
        rw [crlf, List.cons_prefix_cons]
        exact fun given => free.1 given.1
      rw [List.cons_append, line, if_neg visible, ih free.2]
      rfl

theorem number_printed (count : Nat) : number (ascii (toString count)) = some count := by
  have whole := whole_printed count
  rw [number, if_pos ⟨whole.nonempty, List.all_eq_true.mpr whole.digits⟩, leadingNumber_printed]

theorem printed_unbroken (count : Nat) : 13 ∉ ascii (toString count) :=
  fun member => absurd ((whole_printed count).digits 13 member) (by decide)

theorem counted_countText (mark : UInt8) (count : Nat) (rest : Bytes) :
    counted mark (countText mark count ++ rest) = some (count, rest) := by
  rw [countText, List.cons_append, counted, if_pos rfl, List.append_assoc, line_text (printed_unbroken count),
    Option.bind_some, number_printed]
  rfl

theorem body_length (arg rest : Bytes) : body arg.length (arg ++ (crlf ++ rest)) = some (arg, rest) := by
  have front : arg.length ≤ (arg ++ (crlf ++ rest)).length := List.length_append ▸ Nat.le_add_right _ _
  have behind : crlf <+: (arg ++ (crlf ++ rest)).drop arg.length := List.drop_left ▸ List.prefix_append crlf rest
  rw [body, if_pos ⟨front, behind⟩, List.take_left, ← List.drop_drop, List.drop_left]
  rfl

theorem bulk_bulkText (arg rest : Bytes) : bulk (bulkText arg ++ rest) = some (arg, rest) := by
  rw [bulk, bulkText, List.append_assoc, counted_countText, Option.bind_some, List.append_assoc]
  exact body_length arg rest

theorem times_flatMap {α : Type} {item : Reader α} {write : α → Bytes}
    (reads : ∀ value rest, item (write value ++ rest) = some (value, rest)) (values : List α) (rest : Bytes) :
    times item values.length (values.flatMap write ++ rest) = some (values, rest) := by
  induction values with
  | nil => rfl
  | cons value values ih =>
      rw [List.length_cons, List.flatMap_cons, List.append_assoc, times, reads, Option.bind_some, ih]
      rfl

/-- A request is read off the front of a stream as it was written. -/
theorem request_requestText (args : List Bytes) (rest : Bytes) :
    request (requestText args ++ rest) = some (args, rest) := by
  rw [request, requestText, List.append_assoc, counted_countText, Option.bind_some]
  exact times_flatMap bulk_bulkText args rest

/-- One line, or a line and what it counts. -/
inductive Reply where
  | status (text : Bytes)
  | error (text : Bytes)
  | integer (number : Int)
  | bulk (text : Bytes)
  | null
  | array (count : Nat) (items : Bytes)
deriving DecidableEq, Repr

/-- The text of a simple line is without a line break, or half of one. -/
def Reply.Simple : Reply → Prop
  | .status text | .error text => 13 ∉ text ∧ 10 ∉ text
  | _ => True

instance : (reply : Reply) → Decidable reply.Simple
  | .status text | .error text => inferInstanceAs (Decidable (13 ∉ text ∧ 10 ∉ text))
  | .integer _ | .bulk _ | .null | .array _ _ => .isTrue trivial

def replyText : Reply → Bytes
  | .status text => plus :: (text ++ crlf)
  | .error text => dash :: (text ++ crlf)
  | .integer number => colon :: (ascii (toString number) ++ crlf)
  | .bulk text => bulkText text
  | .null => dollar :: (ascii "-1" ++ crlf)
  | .array count items => countText star count ++ items

end GalaGopher.Text.Resp

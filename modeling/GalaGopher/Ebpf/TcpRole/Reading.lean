import GalaGopher.Ebpf.TcpRole

namespace GalaGopher.Ebpf.TcpRole

open Text

def isHexDigit (byte : UInt8) : Bool := isDigit byte || (97 ≤ byte && byte ≤ 102) || (65 ≤ byte && byte ≤ 70)

inductive ListenAddress where
  | ipv4 (digits : Bytes) (plain : ∀ byte ∈ digits, isDigit byte ∨ byte = 46)
  | any
  | ipv6 (groups : Bytes) (plain : ∀ byte ∈ groups, isHexDigit byte ∨ byte = 58 ∨ byte = 46)

namespace ListenAddress

def text : ListenAddress → Bytes
  | ipv4 digits _ => digits
  | any => ascii "*"
  | ipv6 groups _ => ascii "[" ++ (groups ++ ascii "]")

def Bracketed : ListenAddress → Prop
  | ipv6 _ _ => True
  | _ => False

end ListenAddress

/-- One `("comm",pid=P,fd=F)`. -/
structure User where
  comm : Bytes
  pid : UInt32
  fd : UInt32
  short : comm.length ≤ 15
  plain : ∀ byte ∈ comm, byte ∉ ([34, 40, 41, 44] : Bytes)

def decimal (number : Nat) : Bytes := ascii (toString number)

def User.text (user : User) : Bytes :=
  ascii "(\"" ++ (user.comm ++ (ascii "\",pid=" ++ (decimal user.pid.toNat ++ (ascii ",fd=" ++
    (decimal user.fd.toNat ++ ascii ")")))))

/-- A listening socket with the users that hold it. -/
structure ListenLine where
  address : ListenAddress
  port : UInt16
  user : User
  others : List User

def ListenLine.text (line : ListenLine) : Bytes :=
  line.address.text ++ (ascii ":" ++ (decimal line.port.toNat ++ (ascii "users:(" ++ (line.user.text ++
    ((line.others.map fun user => ascii "," ++ user.text).flatten ++ ascii ")\n")))))

/-- The lines that `__new_tlp` makes something of. -/
structure ListenLine.Readable (line : ListenLine) : Prop where
  single : line.others = []
  named : line.user.comm ≠ []
  noPid : ¬ascii "pid=" <:+: line.user.comm
  noFd : ¬ascii "fd=" <:+: line.user.comm
  noBracket : line.address.Bracketed ∨ ¬ascii "]:" <:+: line.user.comm

theorem literal_bracket : ascii "]:" = [93, 58] := rfl
theorem literal_colon : ascii ":" = [58] := rfl
theorem literal_users : ascii "users:" = [117, 115, 101, 114, 115, 58] := rfl
theorem literal_comm : ascii "((\"" = [40, 40, 34] := rfl
theorem literal_commEnd : ascii "\",pid" = [34, 44, 112, 105, 100] := rfl
theorem literal_pid : ascii "pid=" = [112, 105, 100, 61] := rfl
theorem literal_pidEnd : ascii ",fd=" = [44, 102, 100, 61] := rfl
theorem literal_fd : ascii "fd=" = [102, 100, 61] := rfl
theorem literal_fdEnd : ascii "))" = [41, 41] := rfl

/-- The part before the name of the first user. -/
def ListenLine.opening (line : ListenLine) : Bytes :=
  line.address.text ++ (58 :: (decimal line.port.toNat ++ [117, 115, 101, 114, 115, 58, 40, 40, 34]))

/-- The part behind the first user. -/
def ListenLine.closing (line : ListenLine) : Bytes :=
  (line.others.map fun user => ascii "," ++ user.text).flatten ++ [41, 10]

variable {line : ListenLine} {byte : UInt8}

theorem text_eq (line : ListenLine) :
    line.text = line.opening ++ (line.user.comm ++ ([34, 44, 112, 105, 100, 61] ++ (decimal line.user.pid.toNat ++
      ([44, 102, 100, 61] ++ (decimal line.user.fd.toNat ++ (41 :: line.closing)))))) := by
  have colonText : ascii ":" = [58] := rfl
  have users : ascii "users:(" = [117, 115, 101, 114, 115, 58, 40] := rfl
  have quote : ascii "(\"" = [40, 34] := rfl
  have pid : ascii "\",pid=" = [34, 44, 112, 105, 100, 61] := rfl
  have fd : ascii ",fd=" = [44, 102, 100, 61] := rfl
  have close : ascii ")" = [41] := rfl
  have last : ascii ")\n" = [41, 10] := rfl
  simp only [ListenLine.text, ListenLine.opening, ListenLine.closing, User.text, colonText, users, quote, pid, fd, close,
    last, List.append_assoc, List.cons_append, List.nil_append]

theorem decimal_digits (number : Nat) : ∀ byte ∈ decimal number, isDigit byte := (whole_printed number).digits

theorem decimal_free (byte : UInt8) (other : isDigit byte = false) (number : Nat) : byte ∉ decimal number :=
  fun member => digit_ne (decimal_digits number byte member) other rfl

theorem decimal_ne_nil (number : Nat) : decimal number ≠ [] := (whole_printed number).nonempty

theorem length_decimal_le {number : Nat} (small : number < 10 ^ 10) : (decimal number).length ≤ 10 :=
  length_printed_le (by decide) small

/-- A byte that may stand in an address. -/
def inAddress (byte : UInt8) : Bool := isHexDigit byte || ([46, 42, 91, 93, 58] : Bytes).contains byte

theorem hexDigit_of_digit (digit : isDigit byte) : isHexDigit byte := by
  rw [isHexDigit, digit]
  rfl

theorem address_bytes (address : ListenAddress) : ∀ byte ∈ address.text, inAddress byte := by
  intro byte member
  rw [inAddress]
  cases address with
  | ipv4 digits plain =>
      rcases plain byte member with digit | dot
      · rw [hexDigit_of_digit digit]
        rfl
      · rw [dot]
        rfl
  | any =>
      rw [List.mem_singleton.mp member]
      rfl
  | ipv6 groups plain =>
      rcases List.mem_append.mp member with first | later
      · rw [List.mem_singleton.mp first]
        rfl
      · rcases List.mem_append.mp later with inside | last
        · rcases plain byte inside with digit | colon | dot
          · rw [digit]
            rfl
          · rw [colon]
            rfl
          · rw [dot]
            rfl
        · rw [List.mem_singleton.mp last]
          rfl

theorem address_free (byte : UInt8) (other : inAddress byte = false) (address : ListenAddress) : byte ∉ address.text := by
  intro member
  have inside := address_bytes address byte member
  rw [other] at inside
  cases inside

/-- Before the first name there are only an address, a port and "users:". -/
theorem opening_free (byte : UInt8) (outside : inAddress byte = false)
    (other : byte ∉ ([58, 117, 115, 101, 114, 40, 34] : Bytes)) : byte ∉ line.opening := by
  have notDigit : isDigit byte = false := by
    by_contra digit
    rw [Bool.not_eq_false] at digit
    rw [inAddress, hexDigit_of_digit digit] at outside
    cases outside
  have inAddress := address_free byte outside line.address
  have inPort := decimal_free byte notDigit line.port.toNat
  simp only [List.mem_cons, List.not_mem_nil, or_false, not_or] at other
  simp only [ListenLine.opening, List.mem_append, List.mem_cons, List.not_mem_nil, or_false, not_or]
  tauto

theorem comm_free (user : User) (byte : UInt8) (reserved : byte ∈ ([34, 40, 41, 44] : Bytes)) : byte ∉ user.comm :=
  fun member => user.plain byte member reserved

/-- Neither what closes a user nor what parts its fields stands before the end of the first name. -/
theorem quoted_free (line : ListenLine) (byte : UInt8) (parting : byte = 41 ∨ byte = 44) :
    byte ∉ line.opening ++ (line.user.comm ++ [34]) := by
  simp only [List.mem_append, not_or]
  rcases parting with rfl | rfl
  · exact ⟨opening_free 41 (by decide) (by decide), comm_free line.user 41 (by decide), by decide⟩
  · exact ⟨opening_free 44 (by decide) (by decide), comm_free line.user 44 (by decide), by decide⟩

theorem getSubStr_eq {s front start middle finish rest : Bytes} (bufLen : Nat)
    (shape : s = front ++ (start ++ (middle ++ (finish ++ rest))))
    (noStart : Absent start front (start ++ (middle ++ (finish ++ rest))))
    (noFinish : Absent finish (front ++ (start ++ middle)) (finish ++ rest)) :
    getSubStr s (some start) (some finish) bufLen =
      if 0 < middle.length ∧ middle.length < bufLen then some middle else none := by
  have begins : strstr s start = some front.length := by
    rw [shape]
    exact strstr_first noStart
  have ends : strstr s finish = some (front ++ (start ++ middle)).length := by
    have same : s = (front ++ (start ++ middle)) ++ (finish ++ rest) := by
      rw [shape, List.append_assoc, List.append_assoc]
    rw [same]
    exact strstr_first noFinish
  have cut : ((s.drop (front.length + start.length)).take middle.length) = middle := by
    have same : s = (front ++ start) ++ (middle ++ (finish ++ rest)) := by
      rw [shape, List.append_assoc]
    rw [same, ← List.length_append, List.drop_left, List.take_left]
  have distance : (front ++ (start ++ middle)).length - (front.length + start.length) = middle.length := by
    rw [List.length_append, List.length_append]
    omega
  have order : front.length + start.length < (front ++ (start ++ middle)).length ↔ 0 < middle.length := by
    rw [List.length_append, List.length_append]
    omega
  simp only [getSubStr, begins, ends, Option.map_some, Option.bind_eq_bind, Option.bind_some, distance, order, cut]

/-- A byte behind the start and before the finish is in what is found. -/
theorem getSubStr_mem {s start finish sub : Bytes} (place : Nat) {bufLen : Nat}
    (begins : ∃ first, strstr s start = some first ∧ first + start.length ≤ place)
    (ends : ∀ last, strstr s finish = some last → place < last) (here : s[place]? = some byte)
    (found : getSubStr s (some start) (some finish) bufLen = some sub) : byte ∈ sub := by
  obtain ⟨first, begins, lower⟩ := begins
  cases ending : strstr s finish with
  | none =>
      simp only [getSubStr, ending, Option.bind_eq_bind, Option.bind_none] at found
      cases found
  | some last =>
      have upper := ends last ending
      simp only [getSubStr, begins, ending, Option.map_some, Option.bind_eq_bind, Option.bind_some] at found
      split at found
      case isTrue bounds =>
        cases found
        have inside : ((s.drop (first + start.length)).take (last - (first + start.length)))[
            place - (first + start.length)]? = some byte := by
          rw [List.getElem?_take, if_pos (by omega), List.getElem?_drop, Nat.add_sub_cancel' lower, here]
        exact List.mem_of_getElem? inside
      case isFalse => cases found

theorem not_isDigitStr {text : Bytes} (member : byte ∈ text) (other : isDigit byte = false) : isDigitStr text = false := by
  by_contra all
  rw [Bool.not_eq_false, isDigitStr, List.all_eq_true] at all
  have digit := all byte member
  rw [other] at digit
  cases digit

theorem isDigitStr_decimal (number : Nat) : isDigitStr (decimal number) := by
  rw [isDigitStr, List.all_eq_true]
  exact decimal_digits number

/-- The quote before the name does not begin the text behind it. -/
theorem opening_quoted (line : ListenLine) : ∃ before, line.opening = before ++ [34] ∧ (34 : UInt8) ∉ before := by
  refine ⟨line.address.text ++ (58 :: (decimal line.port.toNat ++ [117, 115, 101, 114, 115, 58, 40, 40])), ?_, ?_⟩
  · simp only [ListenLine.opening, List.append_assoc, List.cons_append, List.nil_append]
  · have inAddress := address_free 34 (by decide) line.address
    have inPort := decimal_free 34 (by decide) line.port.toNat
    simp only [List.mem_append, List.mem_cons, List.not_mem_nil, or_false, not_or]
    exact ⟨inAddress, by decide, inPort, by decide⟩

theorem absent_commEnd (line : ListenLine) (rest : Bytes) :
    Absent [34, 44, 112, 105, 100] (line.opening ++ line.user.comm) (34 :: rest) := by
  obtain ⟨before, shape, free⟩ := opening_quoted line
  have inComm := comm_free line.user 34 (by decide)
  rw [shape]
  refine Absent.append (Absent.append (absent_of_head 34 _ free _) ?_) (absent_of_head 34 _ inComm _)
  cases name : line.user.comm with
  | nil => exact absent_of_next 34 44 _ 34 (by decide) rest
  | cons first more =>
      have plain := comm_free line.user 44 (by decide)
      rw [name, List.mem_cons, not_or] at plain
      exact absent_of_next 34 44 _ first (Ne.symm plain.1) _

theorem getListenComm_eq (line : ListenLine) :
    getListenComm line.text = if 0 < line.user.comm.length then some line.user.comm else none := by
  have free : (40 : UInt8) ∉ line.address.text ++ (58 :: (decimal line.port.toNat ++ [117, 115, 101, 114, 115, 58])) := by
    have inAddress := address_free 40 (by decide) line.address
    have inPort := decimal_free 40 (by decide) line.port.toNat
    simp only [List.mem_append, List.mem_cons, List.not_mem_nil, or_false, not_or]
    exact ⟨inAddress, by decide, inPort, by decide⟩
  have shape : line.text =
      (line.address.text ++ (58 :: (decimal line.port.toNat ++ [117, 115, 101, 114, 115, 58]))) ++ ([40, 40, 34] ++
        (line.user.comm ++ ([34, 44, 112, 105, 100] ++ (61 :: (decimal line.user.pid.toNat ++
          ([44, 102, 100, 61] ++ (decimal line.user.fd.toNat ++ (41 :: line.closing)))))))) := by
    rw [text_eq, ListenLine.opening]
    simp only [List.append_assoc, List.cons_append, List.nil_append]
  have front : (line.address.text ++ (58 :: (decimal line.port.toNat ++ [117, 115, 101, 114, 115, 58]))) ++
      ([40, 40, 34] ++ line.user.comm) = line.opening ++ line.user.comm := by
    rw [ListenLine.opening]
    simp only [List.append_assoc, List.cons_append, List.nil_append]
  have noEnd := absent_commEnd line ([44, 112, 105, 100] ++ (61 :: (decimal line.user.pid.toNat ++
    ([44, 102, 100, 61] ++ (decimal line.user.fd.toNat ++ (41 :: line.closing))))))
  rw [← front] at noEnd
  have short := Nat.lt_of_le_of_lt line.user.short (show 15 < taskCommLen by decide)
  rw [getListenComm, literal_comm, literal_commEnd, getSubStr_eq taskCommLen shape (absent_of_head 40 _ free _) noEnd]
  simp only [short, and_true]

/-- What stands before the pid of the first user. -/
def ListenLine.beforePid (line : ListenLine) : Bytes := line.opening ++ (line.user.comm ++ [34, 44])

theorem absent_pidEnd (line : ListenLine) (rest : Bytes) :
    Absent [44, 102, 100, 61] (line.beforePid ++ ([112, 105, 100, 61] ++ decimal line.user.pid.toNat)) rest := by
  have inPid := decimal_free 44 (by decide) line.user.pid.toNat
  have shape : line.beforePid ++ ([112, 105, 100, 61] ++ decimal line.user.pid.toNat) =
      (line.opening ++ (line.user.comm ++ [34])) ++ ([44] ++ ([112, 105, 100, 61] ++ decimal line.user.pid.toNat)) := by
    simp only [ListenLine.beforePid, List.append_assoc, List.cons_append, List.nil_append]
  have before := quoted_free line 44 (.inr rfl)
  have behind : (44 : UInt8) ∉ ([112, 105, 100, 61] : Bytes) ++ decimal line.user.pid.toNat := by
    rw [List.mem_append, not_or]
    exact ⟨by decide, inPid⟩
  rw [shape]
  refine (absent_of_head 44 _ before _).append (Absent.append ?_ (absent_of_head 44 _ behind _))
  exact absent_of_next 44 102 _ 112 (by decide) _

theorem text_pid (line : ListenLine) :
    line.text = line.beforePid ++ ([112, 105, 100, 61] ++ (decimal line.user.pid.toNat ++ ([44, 102, 100, 61] ++
      (decimal line.user.fd.toNat ++ (41 :: line.closing))))) := by
  rw [text_eq, ListenLine.beforePid]
  simp only [List.append_assoc, List.cons_append, List.nil_append]

theorem uint32_small (number : UInt32) : number.toNat < 10 ^ 10 :=
  Nat.lt_trans number.toNat_lt (by decide)

theorem atoi_uint32 (number : UInt32) : atoi (decimal number.toNat) = Int32.ofNat number.toNat := by
  have small : (number.toNat : Int) ≤ longMax := by
    have bound := number.toNat_lt
    rw [longMax]
    omega
  rw [decimal, atoi_printed small]

theorem getListenPid_some (noPid : ¬ascii "pid=" <:+: line.user.comm) :
    getListenPid line.text = some line.user.pid := by
  rw [literal_pid] at noPid
  have noStart : Absent [112, 105, 100, 61] line.beforePid ([112, 105, 100, 61] ++ (decimal line.user.pid.toNat ++
      ([44, 102, 100, 61] ++ (decimal line.user.fd.toNat ++ (41 :: line.closing))))) := by
    refine (absent_of_head 112 _ (opening_free 112 (by decide) (by decide)) _).append ?_
    exact (absent_of_outside noPid (by decide) _).append (absent_of_head 112 _ (by decide) _)
  have found := getSubStr_eq pidLen (text_pid line) noStart (absent_pidEnd line _)
  have filled := List.length_pos_iff.mpr (decimal_ne_nil line.user.pid.toNat)
  have short : (decimal line.user.pid.toNat).length < pidLen :=
    Nat.lt_of_le_of_lt (length_decimal_le (uint32_small _)) (by decide)
  rw [if_pos ⟨filled, short⟩] at found
  rw [getListenPid, literal_pid, literal_pidEnd, found, Option.bind_eq_bind, Option.bind_some,
    if_pos (isDigitStr_decimal _), atoi_uint32, Int32.toUInt32_ofNat', UInt32.ofNat_toNat]

theorem text_quoted (line : ListenLine) :
    ∃ rest, line.text = (line.opening ++ (line.user.comm ++ [34])) ++ rest := by
  refine ⟨[44, 112, 105, 100, 61] ++ (decimal line.user.pid.toNat ++ ([44, 102, 100, 61] ++
    (decimal line.user.fd.toNat ++ (41 :: line.closing)))), ?_⟩
  rw [text_eq]
  simp only [List.append_assoc, List.cons_append, List.nil_append]

/-- What starts in the name and finishes behind it has the quote in it. -/
theorem getSubStr_comm {start finish sub : Bytes} {first : UInt8} {bufLen : Nat} (inside : start <:+: line.user.comm)
    (free : first ∉ line.opening ++ (line.user.comm ++ [34]))
    (found : getSubStr line.text (some start) (some (first :: finish)) bufLen = some sub) : (34 : UInt8) ∈ sub := by
  obtain ⟨before, behind, name⟩ := inside
  obtain ⟨rest, quoted⟩ := text_quoted line
  refine getSubStr_mem (line.opening ++ line.user.comm).length ?_ ?_ ?_ found
  · have shape : line.text = (line.opening ++ before) ++ (start ++ (behind ++ ([34] ++ rest))) := by
      rw [quoted, ← name]
      simp only [List.append_assoc]
    obtain ⟨place, bound, begins⟩ := strstr_le (line.opening ++ before) start (behind ++ ([34] ++ rest))
    refine ⟨place, shape ▸ begins, ?_⟩
    rw [List.length_append] at bound ⊢
    rw [← name, List.length_append, List.length_append]
    omega
  · intro last ends
    have later := strstr_ge (absent_of_head first finish free rest) (quoted ▸ ends)
    simp only [List.length_append, List.length_singleton] at later ⊢
    omega
  · rw [quoted, ← List.append_assoc line.opening, List.append_assoc, List.getElem?_append_right (Nat.le_refl _),
      Nat.sub_self]
    rfl

/-- A name with "pid=" is taken for the pid. -/
theorem getListenPid_none (inside : ascii "pid=" <:+: line.user.comm) : getListenPid line.text = none := by
  have free := quoted_free line 44 (.inr rfl)
  rw [getListenPid, literal_pidEnd]
  cases found : getSubStr line.text (some (ascii "pid=")) (some [44, 102, 100, 61]) pidLen with
  | none => rfl
  | some sub =>
      have other := not_isDigitStr (getSubStr_comm inside free found) (by decide)
      rw [Option.bind_eq_bind, Option.bind_some, if_neg (by rw [other]; exact Bool.false_ne_true)]

/-- What stands before the descriptor of the first user. -/
def ListenLine.beforeFd (line : ListenLine) : Bytes :=
  line.beforePid ++ ([112, 105, 100, 61] ++ (decimal line.user.pid.toNat ++ [44]))

theorem text_fd (line : ListenLine) :
    line.text = line.beforeFd ++ ([102, 100, 61] ++ (decimal line.user.fd.toNat ++ (41 :: line.closing))) := by
  rw [text_pid, ListenLine.beforeFd]
  simp only [List.append_assoc, List.cons_append, List.nil_append]

theorem beforeFd_free (line : ListenLine) :
    (41 : UInt8) ∉ line.beforeFd ++ ([102, 100, 61] ++ decimal line.user.fd.toNat) := by
  have inOpening : (41 : UInt8) ∉ line.opening := opening_free 41 (by decide) (by decide)
  have inComm := comm_free line.user 41 (by decide)
  have inPid := decimal_free 41 (by decide) line.user.pid.toNat
  have inFd := decimal_free 41 (by decide) line.user.fd.toNat
  simp only [ListenLine.beforeFd, ListenLine.beforePid, List.mem_append, not_or]
  exact ⟨⟨⟨inOpening, inComm, by decide⟩, by decide, inPid, by decide⟩, by decide, inFd⟩

theorem absent_fd (noFd : ¬ascii "fd=" <:+: line.user.comm) (rest : Bytes) : Absent [102, 100, 61] line.beforeFd rest := by
  rw [literal_fd] at noFd
  have inAddress : ¬[102, 100, 61] <:+: line.address.text := by
    intro inside
    exact address_free 61 (by decide) line.address (inside.subset (by decide))
  have inPort : (102 : UInt8) ∉ decimal line.port.toNat ++ [117, 115, 101, 114, 115, 58, 40, 40, 34] := by
    rw [List.mem_append, not_or]
    exact ⟨decimal_free 102 (by decide) _, by decide⟩
  have behind : (102 : UInt8) ∉ ([112, 105, 100, 61] : Bytes) ++ (decimal line.user.pid.toNat ++ [44]) := by
    simp only [List.mem_append, not_or]
    exact ⟨by decide, decimal_free 102 (by decide) _, by decide⟩
  have opening : Absent [102, 100, 61] line.opening ((line.user.comm ++ [34, 44]) ++
      (([112, 105, 100, 61] ++ (decimal line.user.pid.toNat ++ [44])) ++ rest)) := by
    refine (absent_of_outside inAddress (by decide) _).append ?_
    exact absent_of_head 102 _ (by rw [List.mem_cons, not_or]; exact ⟨by decide, inPort⟩) _
  refine (opening.append ?_).append (absent_of_head 102 _ behind _)
  exact (absent_of_outside noFd (by decide) _).append (absent_of_head 102 _ (by decide) _)

theorem getListenFd_some (single : line.others = []) (noFd : ¬ascii "fd=" <:+: line.user.comm) :
    getListenFd line.text = some (Int32.ofNat line.user.fd.toNat) := by
  have closing : (41 : UInt8) :: line.closing = [41, 41] ++ [10] := by
    rw [ListenLine.closing, single]
    rfl
  have shape := text_fd line
  rw [closing] at shape
  have found := getSubStr_eq fidLen shape (absent_fd noFd _) (absent_of_head 41 [41] (beforeFd_free line) _)
  have filled := List.length_pos_iff.mpr (decimal_ne_nil line.user.fd.toNat)
  have short : (decimal line.user.fd.toNat).length < fidLen :=
    Nat.lt_of_le_of_lt (length_decimal_le (uint32_small _)) (by decide)
  rw [if_pos ⟨filled, short⟩] at found
  rw [getListenFd, literal_fd, literal_fdEnd, found, Option.bind_eq_bind, Option.bind_some,
    if_pos (isDigitStr_decimal _), atoi_uint32]

/-- A parenthesis or a quote is no digit. -/
theorem getListenFd_eq_none (sub : ∀ text, getSubStr line.text (some (ascii "fd=")) (some [41, 41]) fidLen = some text →
    ∃ byte ∈ text, isDigit byte = false) : getListenFd line.text = none := by
  rw [getListenFd, literal_fdEnd]
  cases found : getSubStr line.text (some (ascii "fd=")) (some [41, 41]) fidLen with
  | none => rfl
  | some text =>
      obtain ⟨byte, member, other⟩ := sub text found
      have wrong := not_isDigitStr member other
      rw [Option.bind_eq_bind, Option.bind_some, if_neg (by rw [wrong]; exact Bool.false_ne_true)]

/-- A name with "fd=" is taken for the descriptor. -/
theorem getListenFd_name (inside : ascii "fd=" <:+: line.user.comm) : getListenFd line.text = none := by
  have free := quoted_free line 41 (.inl rfl)
  exact getListenFd_eq_none fun text found => ⟨34, getSubStr_comm inside free found, by decide⟩

/-- The descriptor of the first user is searched up to the end of the last. -/
theorem getListenFd_others (more : line.others ≠ []) : getListenFd line.text = none := by
  obtain ⟨second, rest, others⟩ := List.exists_cons_of_ne_nil more
  have closing : ∃ rest, line.closing = 44 :: rest := by
    have comma : ascii "," = [44] := rfl
    rw [ListenLine.closing, others, List.map_cons, List.flatten_cons, comma]
    exact ⟨_, rfl⟩
  obtain ⟨behind, closing⟩ := closing
  have shape := text_fd line
  rw [closing] at shape
  refine getListenFd_eq_none fun text found => ⟨41, ?_, by decide⟩
  refine getSubStr_mem (line.beforeFd ++ ([102, 100, 61] ++ decimal line.user.fd.toNat)).length ?_ ?_ ?_ found
  · obtain ⟨place, bound, begins⟩ :=
      strstr_le line.beforeFd [102, 100, 61] (decimal line.user.fd.toNat ++ (41 :: 44 :: behind))
    refine ⟨place, shape ▸ begins, ?_⟩
    have length : (ascii "fd=").length = 3 := rfl
    rw [length, List.length_append, List.length_append]
    simp only [List.length_cons, List.length_nil]
    omega
  · intro last ends
    have whole : line.text =
        ((line.beforeFd ++ ([102, 100, 61] ++ decimal line.user.fd.toNat)) ++ [41]) ++ (44 :: behind) := by
      rw [shape]
      simp only [List.append_assoc, List.cons_append, List.nil_append]
    have absent :
        Absent [41, 41] ((line.beforeFd ++ ([102, 100, 61] ++ decimal line.user.fd.toNat)) ++ [41]) (44 :: behind) :=
      (absent_of_head 41 [41] (beforeFd_free line) _).append (absent_of_next 41 41 [] 44 (by decide) behind)
    have later := strstr_ge absent (whole ▸ ends)
    rw [List.length_append, List.length_singleton] at later
    exact later
  · have whole : line.text = (line.beforeFd ++ ([102, 100, 61] ++ decimal line.user.fd.toNat)) ++ (41 :: 44 :: behind) := by
      rw [shape]
      simp only [List.append_assoc]
    rw [whole, List.getElem?_append_right (Nat.le_refl _), Nat.sub_self]
    rfl

/-- What stands behind the port. -/
def ListenLine.afterPort (line : ListenLine) : Bytes :=
  [40, 40, 34] ++ (line.user.comm ++ ([34, 44, 112, 105, 100, 61] ++ (decimal line.user.pid.toNat ++
    ([44, 102, 100, 61] ++ (decimal line.user.fd.toNat ++ (41 :: line.closing))))))

theorem text_port (line : ListenLine) :
    line.text =
      line.address.text ++ ([58] ++ (decimal line.port.toNat ++ ([117, 115, 101, 114, 115, 58] ++ line.afterPort))) := by
  rw [text_eq, ListenLine.opening, ListenLine.afterPort]
  simp only [List.append_assoc, List.cons_append, List.nil_append]

theorem atoi_port (port : UInt16) : (atoi (decimal port.toNat)).toUInt32 = UInt32.ofNat port.toNat := by
  have small : (port.toNat : Int) ≤ longMax := by
    have bound := port.toNat_lt
    rw [longMax]
    omega
  rw [decimal, atoi_printed small, Int32.toUInt32_ofNat']

theorem toNat_port (port : UInt16) : (UInt32.ofNat port.toNat).toNat = port.toNat := by
  have bound := port.toNat_lt
  rw [UInt32.toNat_ofNat']
  omega

theorem getListenPort_of_found (start : Bytes)
    (chosen : start = if (strstr line.text (ascii "]:")).isSome then ascii "]:" else ascii ":")
    (found : getSubStr line.text (some start) (some (ascii "users:")) portLen = some (decimal line.port.toNat)) :
    getListenPort line.text = some (UInt32.ofNat line.port.toNat) := by
  have bound := line.port.toNat_lt
  have inRange : ¬(isDigitStr (decimal line.port.toNat) = false ∨ (UInt32.ofNat line.port.toNat).toNat ≥ portMaxNum) := by
    rw [isDigitStr_decimal, toNat_port, portMaxNum, not_or]
    exact ⟨by decide, by omega⟩
  rw [getListenPort, ← chosen]
  simp only [found, Option.bind_eq_bind, Option.bind_some, atoi_port]
  rw [if_neg inRange]

theorem port_short (line : ListenLine) :
    0 < (decimal line.port.toNat).length ∧ (decimal line.port.toNat).length < portLen := by
  have small : line.port.toNat < 10 ^ 10 := Nat.lt_trans line.port.toNat_lt (by decide)
  exact ⟨List.length_pos_iff.mpr (decimal_ne_nil _), Nat.lt_of_le_of_lt (length_decimal_le small) (by decide)⟩

theorem users_free (line : ListenLine) (between : Bytes) (free : (117 : UInt8) ∉ between) :
    (117 : UInt8) ∉ line.address.text ++ (between ++ decimal line.port.toNat) := by
  simp only [List.mem_append, not_or]
  exact ⟨address_free 117 (by decide) _, free, decimal_free 117 (by decide) _⟩

theorem getListenPort_bracketed {groups : Bytes} {plain : ∀ byte ∈ groups, isHexDigit byte ∨ byte = 58 ∨ byte = 46}
    (bracketed : line.address = .ipv6 groups plain) :
    getListenPort line.text = some (UInt32.ofNat line.port.toNat) := by
  have addressText : line.address.text = ascii "[" ++ (groups ++ ascii "]") := by
    rw [bracketed]
    rfl
  have shape : line.text = (91 :: groups) ++ ([93, 58] ++ (decimal line.port.toNat ++
      ([117, 115, 101, 114, 115, 58] ++ line.afterPort))) := by
    have opens : ascii "[" = [91] := rfl
    have close : ascii "]" = [93] := rfl
    rw [text_port, addressText, opens, close]
    simp only [List.append_assoc, List.cons_append, List.nil_append]
  have noClose : (93 : UInt8) ∉ (91 : UInt8) :: groups := by
    rw [List.mem_cons, not_or]
    refine ⟨by decide, fun member => ?_⟩
    rcases plain 93 member with digit | colon | dot
    · exact absurd digit (by decide)
    · exact absurd colon (by decide)
    · exact absurd dot (by decide)
  have noUsers : (117 : UInt8) ∉ (91 :: groups) ++ ([93, 58] ++ decimal line.port.toNat) := by
    have free := users_free line [58] (by decide)
    rw [addressText] at free
    have opens : ascii "[" = [91] := rfl
    have close : ascii "]" = [93] := rfl
    rw [opens, close] at free
    simpa only [List.append_assoc, List.cons_append, List.nil_append] using free
  have present : (strstr line.text (ascii "]:")).isSome := by
    rw [strstr_isSome_iff, literal_bracket, shape]
    exact ⟨91 :: groups, _, by rw [List.append_assoc]⟩
  refine getListenPort_of_found (ascii "]:") (if_pos present).symm ?_
  rw [literal_bracket, literal_users, getSubStr_eq portLen shape (absent_of_head 93 _ noClose _)
    (absent_of_head 117 _ noUsers _), if_pos (port_short line)]

theorem unbracketed_free (unbracketed : ¬line.address.Bracketed) {byte : UInt8} (special : byte = 58 ∨ byte = 93) :
    byte ∉ line.address.text := by
  intro member
  cases address : line.address with
  | ipv4 digits plain =>
      rw [address] at member
      rcases plain byte member with digit | dot
      · rcases special with rfl | rfl <;> exact absurd digit (by decide)
      · rcases special with rfl | rfl <;> exact absurd dot (by decide)
  | any =>
      rw [address] at member
      have star := List.mem_singleton.mp member
      rcases special with rfl | rfl <;> exact absurd star (by decide)
  | ipv6 groups plain =>
      rw [address] at unbracketed
      exact unbracketed trivial

theorem opening_unbracketed (unbracketed : ¬line.address.Bracketed) : (93 : UInt8) ∉ line.opening := by
  have inAddress := unbracketed_free unbracketed (.inr rfl)
  have inPort := decimal_free 93 (by decide) line.port.toNat
  simp only [ListenLine.opening, List.mem_append, List.mem_cons, List.not_mem_nil, or_false, not_or]
  exact ⟨inAddress, by decide, inPort, by decide⟩

theorem getListenPort_plain (unbracketed : ¬line.address.Bracketed) (single : line.others = [])
    (noBracket : ¬ascii "]:" <:+: line.user.comm) :
    getListenPort line.text = some (UInt32.ofNat line.port.toNat) := by
  rw [literal_bracket] at noBracket
  have absent : ¬(strstr line.text (ascii "]:")).isSome := by
    have behind : (93 : UInt8) ∉ ([34, 44, 112, 105, 100, 61] ++ (decimal line.user.pid.toNat ++
        ([44, 102, 100, 61] ++ (decimal line.user.fd.toNat ++ (41 :: line.closing))))) := by
      rw [ListenLine.closing, single]
      simp only [List.map_nil, List.flatten_nil, List.nil_append, List.mem_append, List.mem_cons, List.not_mem_nil,
        or_false, not_or]
      exact ⟨by decide, decimal_free 93 (by decide) _, by decide, decimal_free 93 (by decide) _, by decide⟩
    have everywhere : Absent [93, 58] line.text [] := by
      rw [text_eq]
      refine (absent_of_head 93 _ (opening_unbracketed unbracketed) _).append ?_
      exact (absent_of_outside noBracket (by decide) _).append (absent_of_head 93 _ behind _)
    rw [literal_bracket, strstr_eq_none (List.cons_ne_nil _ _) everywhere]
    exact Bool.false_ne_true
  have noColon := unbracketed_free unbracketed (.inl rfl)
  have noUsers := users_free line [58] (by decide)
  refine getListenPort_of_found (ascii ":") (if_neg absent).symm ?_
  rw [literal_colon, literal_users, getSubStr_eq portLen (text_port line) (absent_of_head 58 _ noColon _)
    (absent_of_head 117 _ noUsers _), if_pos (port_short line)]

/-- The "]:" of a name stands behind the port. -/
theorem getListenPort_name (unbracketed : ¬line.address.Bracketed) (inside : ascii "]:" <:+: line.user.comm) :
    getListenPort line.text = none := by
  obtain ⟨rest, quoted⟩ := text_quoted line
  have inText : ascii "]:" <:+: line.text := by
    refine inside.trans ⟨line.opening, [34] ++ rest, ?_⟩
    rw [quoted]
    simp only [List.append_assoc]
  have present := (strstr_isSome_iff line.text (ascii "]:")).mpr inText
  obtain ⟨place, begins⟩ := Option.isSome_iff_exists.mp present
  have lower : line.opening.length ≤ place := by
    have shape : line.text = line.opening ++ (line.user.comm ++ ([34] ++ rest)) := by
      rw [quoted]
      simp only [List.append_assoc]
    rw [literal_bracket, shape] at begins
    exact strstr_ge (absent_of_head 93 _ (opening_unbracketed unbracketed) _) begins
  have ends : strstr line.text (ascii "users:") = some (line.address.text ++ ([58] ++ decimal line.port.toNat)).length := by
    have shape : line.text = (line.address.text ++ ([58] ++ decimal line.port.toNat)) ++
        ([117, 115, 101, 114, 115, 58] ++ line.afterPort) := by
      rw [text_port]
      simp only [List.append_assoc]
    rw [literal_users, shape]
    exact strstr_first (absent_of_head 117 _ (users_free line [58] (by decide)) _)
  have behind : ¬place + (ascii "]:").length < (line.address.text ++ ([58] ++ decimal line.port.toNat)).length := by
    rw [ListenLine.opening] at lower
    simp only [List.length_append, List.length_cons, List.length_nil] at lower ⊢
    omega
  have nothing : getSubStr line.text (some (ascii "]:")) (some (ascii "users:")) portLen = none := by
    simp only [getSubStr, begins, ends, Option.map_some, Option.bind_eq_bind, Option.bind_some]
    rw [if_neg fun bounds => behind bounds.1]
  rw [getListenPort, if_pos present, nothing]
  rfl

/-- What is made of a line that is read. -/
def ListenLine.tlp (line : ListenLine) : TcpListenPort where
  pid := line.user.pid
  port := UInt32.ofNat line.port.toNat
  fd := Int32.ofNat line.user.fd.toNat
  comm := line.user.comm

theorem newTlp_readable (readable : line.Readable) : newTlp line.text = some line.tlp := by
  have port : getListenPort line.text = some (UInt32.ofNat line.port.toNat) := by
    by_cases bracketed : line.address.Bracketed
    · cases address : line.address with
      | ipv6 groups plain => exact getListenPort_bracketed address
      | ipv4 digits plain =>
          rw [address] at bracketed
          cases bracketed
      | any =>
          rw [address] at bracketed
          cases bracketed
    · exact getListenPort_plain bracketed readable.single (readable.noBracket.resolve_left bracketed)
  have comm : getListenComm line.text = some line.user.comm := by
    rw [getListenComm_eq, if_pos (List.length_pos_iff.mpr readable.named)]
  rw [newTlp, port, comm, getListenPid_some readable.noPid, getListenFd_some readable.single readable.noFd]
  rfl

theorem newTlp_eq_none {s : Bytes}
    (missing : getListenPort s = none ∨ getListenComm s = none ∨ getListenPid s = none ∨ getListenFd s = none) :
    newTlp s = none := by
  cases made : newTlp s with
  | none => rfl
  | some tlp =>
      simp only [newTlp, Option.bind_eq_bind, Option.bind_eq_some_iff] at made
      obtain ⟨port, hasPort, comm, hasComm, pid, hasPid, fd, hasFd, _⟩ := made
      simp [hasPort, hasComm, hasPid, hasFd] at missing

/-- Each of the conditions is one of the four searches. -/
theorem newTlp_unreadable (unreadable : ¬line.Readable) : newTlp line.text = none := by
  refine newTlp_eq_none ?_
  by_contra found
  rw [not_or, not_or, not_or] at found
  obtain ⟨port, comm, pid, fd⟩ := found
  refine unreadable ⟨?_, ?_, ?_, ?_, ?_⟩
  · by_contra others
    exact fd (getListenFd_others others)
  · intro unnamed
    rw [getListenComm_eq, unnamed] at comm
    exact comm rfl
  · exact fun inside => pid (getListenPid_none inside)
  · exact fun inside => fd (getListenFd_name inside)
  · by_contra neither
    rw [not_or, not_not] at neither
    exact port (getListenPort_name neither.1 neither.2)

end GalaGopher.Ebpf.TcpRole

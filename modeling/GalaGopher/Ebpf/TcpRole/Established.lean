import GalaGopher.Ebpf.TcpRole.Exact

namespace GalaGopher.Ebpf.TcpRole

open Text

inductive EstabAddress where
  | ipv4 (digits : Bytes) (filled : digits ≠ []) (plain : ∀ byte ∈ digits, isDigit byte ∨ byte = 46)
  | ipv6 (inner : Bytes) (filled : inner ≠ []) (plain : ∀ byte ∈ inner, byte ∉ ([91, 93, 124, 64] : Bytes))

namespace EstabAddress

def text : EstabAddress → Bytes
  | ipv4 digits _ _ => digits
  | ipv6 inner _ _ => 91 :: (inner ++ [93])

def bare : EstabAddress → Bytes
  | ipv4 digits _ _ => digits
  | ipv6 inner _ _ => inner

def isIpv4 : EstabAddress → Bool
  | ipv4 _ _ _ => true
  | ipv6 _ _ _ => false

end EstabAddress

structure Endpoint where
  address : EstabAddress
  port : UInt16
  short : (address.text ++ colon :: decimal port.toNat).length < ipStrLen

def Endpoint.text (endpoint : Endpoint) : Bytes := endpoint.address.text ++ colon :: decimal endpoint.port.toNat

def Endpoint.addr (endpoint : Endpoint) : IpAddr where
  ip := endpoint.address.bare
  port := UInt32.ofNat endpoint.port.toNat
  ipv4 := endpoint.address.isIpv4

structure Holder extends User where
  named : comm ≠ []
  noEquals : (61 : UInt8) ∉ comm

def Holder.estabComm (holder : Holder) : TcpEstabComm where
  comm := holder.comm
  pid := holder.pid
  fd := holder.fd

/-- The users behind the first, each with its comma. -/
def othersText (others : List Holder) : Bytes := (others.map fun holder => 44 :: holder.text).flatten

def estabText (near far : Endpoint) (holder : Holder) (others : List Holder) (newline : Bytes) : Bytes :=
  near.text ++ (ascii "|" ++ (far.text ++ (ascii "@users:(" ++ (holder.text ++ (othersText others ++ (ascii ")" ++ newline))))))

structure EstabLine where
  near : Endpoint
  far : Endpoint
  holder : Holder
  others : List Holder
  newline : Bytes
  ending : newline = [] ∨ newline = ascii "\n"
  few : others.length < tcpEstabCommMax
  short : (estabText near far holder others newline).length < lineBufLen

namespace EstabLine

def text (line : EstabLine) : Bytes := estabText line.near line.far line.holder line.others line.newline

def estab (line : EstabLine) : TcpEstab where
  localAddr := line.near.addr
  remoteAddr := line.far.addr
  teComm := (line.holder :: line.others).map Holder.estabComm

end EstabLine

variable {byte : UInt8}

theorem estabAddress_free (address : EstabAddress) (reserved : byte = 124 ∨ byte = 64) : byte ∉ address.text := by
  intro member
  cases address with
  | ipv4 digits filled plain =>
      rcases plain byte member with digit | dot
      · rcases reserved with rfl | rfl <;> exact absurd digit (by decide)
      · rcases reserved with rfl | rfl <;> exact absurd dot (by decide)
  | ipv6 inner filled plain =>
      rcases List.mem_cons.mp member with first | later
      · rcases reserved with rfl | rfl <;> exact absurd first (by decide)
      · rcases List.mem_append.mp later with inside | last
        · exact plain byte inside (by rcases reserved with rfl | rfl <;> decide)
        · rcases reserved with rfl | rfl <;> exact absurd (List.mem_singleton.mp last) (by decide)

theorem endpoint_free (endpoint : Endpoint) (reserved : byte = 124 ∨ byte = 64) : byte ∉ endpoint.text := by
  have inAddress := estabAddress_free endpoint.address reserved
  have inPort : byte ∉ decimal endpoint.port.toNat := by
    rcases reserved with rfl | rfl <;> exact decimal_free _ (by decide) _
  rw [Endpoint.text, List.mem_append, List.mem_cons, not_or, not_or]
  exact ⟨inAddress, by rcases reserved with rfl | rfl <;> decide, inPort⟩

theorem erase_ipv4 {digits : Bytes} (plain : ∀ byte ∈ digits, isDigit byte ∨ byte = 46) (bufLen : Nat) :
    eraseSquareBrackets digits bufLen = none := by
  have free : (91 : UInt8) ∉ digits := by
    intro member
    rcases plain 91 member with digit | dot
    · exact absurd digit (by decide)
    · exact absurd dot (by decide)
  have opens : strstr digits (ascii "[") = none :=
    strstr_eq_none (List.cons_ne_nil 91 []) (absent_of_head 91 [] free [])
  rw [eraseSquareBrackets, opens]
  rfl

theorem erase_ipv6 {inner : Bytes} (filled : inner ≠ []) (plain : ∀ byte ∈ inner, byte ∉ ([91, 93, 124, 64] : Bytes))
    {bufLen : Nat} (short : inner.length < bufLen) (fits : inner.length < lineBufLen) :
    eraseSquareBrackets (91 :: (inner ++ [93])) bufLen = some inner := by
  have noClose : (93 : UInt8) ∉ (91 : UInt8) :: inner := by
    rw [List.mem_cons, not_or]
    exact ⟨by decide, fun member => plain 93 member (by decide)⟩
  have opens : strstr (91 :: (inner ++ [93])) [91] = some 0 := strstr_here ⟨inner ++ [93], rfl⟩
  have closes : strstr (91 :: (inner ++ [93])) [93] = some (inner.length + 1) :=
    strstr_first (absent_of_head 93 [] noClose ([93] ++ []))
  have shape : 91 :: (inner ++ [93]) = [] ++ ([91] ++ (inner ++ ([93] ++ []))) := rfl
  have found := getSubStr_eq lineBufLen shape trivial (absent_of_head 93 [] noClose _)
  rw [if_pos ⟨List.length_pos_iff.mpr filled, fits⟩] at found
  have opening : ascii "[" = [91] := rfl
  have closing : ascii "]" = [93] := rfl
  simp only [eraseSquareBrackets, opening, closing, opens, closes, found, Option.bind_eq_bind, Option.bind_some]
  rw [if_neg (by omega), if_neg (by omega)]

theorem getEstabAddr_text (endpoint : Endpoint) : getEstabAddr endpoint.text = some endpoint.addr := by
  obtain ⟨address, port, short⟩ := endpoint
  have last := strrchr_last (decimal_free colon (by decide) port.toNat) address.text
  have portStr : (address.text ++ colon :: decimal port.toNat).drop (address.text.length + 1) = decimal port.toNat := by
    rw [List.drop_length_add_append]
    rfl
  have present : address.text.length ≠ 0 := by
    cases address with
    | ipv4 digits filled plain => exact fun empty => filled (List.eq_nil_of_length_eq_zero empty)
    | ipv6 inner filled plain => exact Nat.succ_ne_zero _
  have small : (decimal port.toNat).length < portLen :=
    Nat.lt_of_le_of_lt (length_decimal_le (Nat.lt_trans port.toNat_lt (by decide))) (by decide)
  have readable : ¬(decimal port.toNat = [] ∨ (decimal port.toNat).length ≥ portLen ∨
      isDigitStr (decimal port.toNat) = false) := by
    rw [isDigitStr_decimal, not_or, not_or]
    exact ⟨decimal_ne_nil _, Nat.not_le_of_lt small, by decide⟩
  simp only [getEstabAddr, Endpoint.text, last, Option.bind_eq_bind, Option.bind_some, portStr, atoi_port, List.take_left]
  rw [if_neg present, if_neg readable]
  cases address with
  | ipv4 digits _ plain =>
      simp only [EstabAddress.text, erase_ipv4 plain]
      rfl
  | ipv6 inner filled plain =>
      have fits : inner.length < ipStrLen := by
        simp only [EstabAddress.text, List.length_append, List.length_cons] at short
        omega
      have erased := erase_ipv6 filled plain fits (Nat.lt_trans fits (by decide))
      simp only [EstabAddress.text, erased]
      rfl

variable (holder : Holder)

def Holder.beforePid : Bytes := [40, 34] ++ (holder.comm ++ [34, 44])

def Holder.beforeFd : Bytes := holder.beforePid ++ ([112, 105, 100, 61] ++ decimal holder.pid.toNat)

theorem text_holder (rest : Bytes) :
    holder.text ++ rest = holder.beforeFd ++ ([44, 102, 100, 61] ++ (decimal holder.fd.toNat ++ ([41] ++ rest))) := by
  have quote : ascii "(\"" = [40, 34] := rfl
  have pid : ascii "\",pid=" = [34, 44] ++ [112, 105, 100, 61] := rfl
  have fd : ascii ",fd=" = [44, 102, 100, 61] := rfl
  have close : ascii ")" = [41] := rfl
  simp only [User.text, Holder.beforeFd, Holder.beforePid, quote, pid, fd, close, List.append_assoc]

/-- The comma behind the name is followed by the number of the process. -/
theorem absent_comma {needle : Bytes} {second : UInt8} (other : 112 ≠ second) (rest : Bytes) :
    Absent (44 :: second :: needle) holder.beforeFd rest := by
  have inComm := comm_free holder.toUser 44 (by decide)
  have before : (44 : UInt8) ∉ [40, 34] ++ (holder.comm ++ [34]) := by
    simp only [List.mem_append, not_or]
    exact ⟨by decide, inComm, by decide⟩
  have behind : (44 : UInt8) ∉ ([112, 105, 100, 61] : Bytes) ++ decimal holder.pid.toNat := by
    rw [List.mem_append, not_or]
    exact ⟨by decide, decimal_free 44 (by decide) _⟩
  have shape : holder.beforeFd =
      ([40, 34] ++ (holder.comm ++ [34])) ++ ([44] ++ ([112, 105, 100, 61] ++ decimal holder.pid.toNat)) := by
    simp only [Holder.beforeFd, Holder.beforePid, List.append_assoc, List.cons_append, List.nil_append]
  rw [shape]
  refine (absent_of_head 44 _ before _).append (Absent.append ?_ (absent_of_head 44 _ behind _))
  exact absent_of_next 44 second needle 112 other _

theorem getSubStr_comm_holder (rest : Bytes) :
    getSubStr (holder.text ++ rest) (some (ascii "(\"")) (some (ascii "\",")) taskCommLen = some holder.comm := by
  have opening : ascii "(\"" = [40, 34] := rfl
  have closing : ascii "\"," = [34, 44] := rfl
  have shape : holder.text ++ rest = [] ++ ([40, 34] ++ (holder.comm ++ ([34, 44] ++ ([112, 105, 100, 61] ++
      (decimal holder.pid.toNat ++ ([44, 102, 100, 61] ++ (decimal holder.fd.toNat ++ ([41] ++ rest)))))))) := by
    simp only [text_holder, Holder.beforeFd, Holder.beforePid, List.append_assoc, List.nil_append]
  have noFinish (rest : Bytes) : Absent [34, 44] ([] ++ ([40, 34] ++ holder.comm)) ([34, 44] ++ rest) := by
    obtain ⟨first, more, name⟩ := List.exists_cons_of_ne_nil holder.named
    have plain := comm_free holder.toUser 44 (by decide)
    have inComm := comm_free holder.toUser 34 (by decide)
    rw [name] at plain inComm ⊢
    rw [List.mem_cons, not_or] at plain
    have quote : Absent [34, 44] [40, 34] ((first :: more) ++ ([34, 44] ++ rest)) :=
      (absent_of_head 34 [44] (show (34 : UInt8) ∉ [40] by decide) _).append (absent_of_next 34 44 [] first (Ne.symm plain.1) _)
    exact quote.append (absent_of_head 34 [44] inComm _)
  have short := Nat.lt_of_le_of_lt holder.short (show 15 < taskCommLen by decide)
  rw [opening, closing, getSubStr_eq taskCommLen shape trivial (noFinish _),
    if_pos ⟨List.length_pos_iff.mpr holder.named, short⟩]

theorem decimal_short (number : UInt32) {bufLen : Nat} (room : 10 < bufLen) :
    0 < (decimal number.toNat).length ∧ (decimal number.toNat).length < bufLen :=
  ⟨List.length_pos_iff.mpr (decimal_ne_nil _), Nat.lt_of_le_of_lt (length_decimal_le (uint32_small _)) room⟩

theorem getSubStr_pid_holder (rest : Bytes) :
    getSubStr (holder.text ++ rest) (some (ascii "pid=")) (some (ascii ",fd")) pidLen =
      some (decimal holder.pid.toNat) := by
  have closing : ascii ",fd" = [44, 102, 100] := rfl
  have shape : holder.text ++ rest = holder.beforePid ++ ([112, 105, 100, 61] ++ (decimal holder.pid.toNat ++
      ([44, 102, 100] ++ (61 :: (decimal holder.fd.toNat ++ ([41] ++ rest)))))) := by
    simp only [text_holder, Holder.beforeFd, List.append_assoc, List.cons_append, List.nil_append]
  have noPid : ¬[112, 105, 100, 61] <:+: holder.comm := fun inside => holder.noEquals (inside.subset (by decide))
  have noStart (rest : Bytes) : Absent [112, 105, 100, 61] holder.beforePid rest := by
    refine (absent_of_head 112 _ (by decide) _).append ?_
    exact (absent_of_outside noPid (by decide) _).append (absent_of_head 112 _ (by decide) _)
  rw [literal_pid, closing, getSubStr_eq pidLen shape (noStart _) (absent_comma holder (by decide) _),
    if_pos (decimal_short holder.pid (by decide))]

theorem closing_free : (41 : UInt8) ∉ holder.beforeFd ++ ([44, 102, 100, 61] ++ decimal holder.fd.toNat) := by
  have inComm := comm_free holder.toUser 41 (by decide)
  have inPid := decimal_free 41 (by decide) holder.pid.toNat
  have inFd := decimal_free 41 (by decide) holder.fd.toNat
  simp only [Holder.beforeFd, Holder.beforePid, List.mem_append, not_or]
  exact ⟨⟨⟨by decide, inComm, by decide⟩, by decide, inPid⟩, by decide, inFd⟩

theorem getSubStr_fd_holder (rest : Bytes) :
    getSubStr (holder.text ++ rest) (some (ascii ",fd=")) (some (ascii ")")) fidLen = some (decimal holder.fd.toNat) := by
  have closing : ascii ")" = [41] := rfl
  rw [literal_pidEnd, closing, getSubStr_eq fidLen (text_holder holder rest) (absent_comma holder (by decide) _)
    (absent_of_head 41 [] (closing_free holder) _), if_pos (decimal_short holder.fd (by decide))]

/-- What follows the user does not matter. -/
theorem getEstabComm_text (rest : Bytes) : getEstabComm (holder.text ++ rest) = some holder.estabComm := by
  have digits : ¬(isDigitStr (decimal holder.pid.toNat) = false ∨ isDigitStr (decimal holder.fd.toNat) = false) := by
    rw [isDigitStr_decimal, isDigitStr_decimal]
    decide
  simp only [getEstabComm, getSubStr_comm_holder, getSubStr_pid_holder, getSubStr_fd_holder, Option.bind_eq_bind,
    Option.bind_some]
  rw [if_neg digits]
  simp only [atoi_uint32, Int32.toUInt32_ofNat', UInt32.ofNat_toNat]
  rfl

/-- No other user begins inside the text of one. -/
theorem absent_next (rest : Bytes) : Absent [44, 40] holder.text rest := by
  have behind : (44 : UInt8) ∉ ([102, 100, 61] : Bytes) ++ (decimal holder.fd.toNat ++ [41]) := by
    simp only [List.mem_append, not_or]
    exact ⟨by decide, decimal_free 44 (by decide) _, by decide⟩
  have shape : holder.text = holder.beforeFd ++ ([44] ++ ([102, 100, 61] ++ (decimal holder.fd.toNat ++ [41]))) := by
    have whole := text_holder holder []
    rw [List.append_nil] at whole
    exact whole
  rw [shape]
  refine (absent_comma holder (by decide) _).append (Absent.append ?_ (absent_of_head 44 [40] behind _))
  exact absent_of_next 44 40 [] 102 (by decide) _

theorem text_length_pos : 0 < holder.text.length := by
  have opening : ascii "(\"" = [40, 34] := rfl
  rw [User.text, opening, List.cons_append, List.length_cons]
  exact Nat.succ_pos _

theorem getNextStrOffset_next (next : Holder) (rest : Bytes) :
    getNextStrOffset (holder.text ++ 44 :: (next.text ++ rest)) (ascii ",(") = some holder.text.length := by
  obtain ⟨behind, shape⟩ : ∃ behind, next.text = 40 :: behind := ⟨_, rfl⟩
  have needle : ascii ",(" = [44, 40] := rfl
  have first : strstr (holder.text ++ 44 :: (next.text ++ rest)) [44, 40] = some holder.text.length := by
    rw [shape]
    exact strstr_first (absent_next holder _)
  rw [getNextStrOffset, needle, first]
  exact if_pos (text_length_pos holder)

theorem getNextStrOffset_last {rest : Bytes} (free : (44 : UInt8) ∉ rest) :
    getNextStrOffset (holder.text ++ rest) (ascii ",(") = none := by
  have needle : ascii ",(" = [44, 40] := rfl
  have absent : Absent [44, 40] (holder.text ++ rest) [] :=
    (absent_next holder _).append (absent_of_head 44 [40] free [])
  rw [getNextStrOffset, needle, strstr_eq_none (List.cons_ne_nil _ _) absent]

/-- The users are read one by one, whatever closes the last. -/
theorem getEstabComms_text {rest : Bytes} (free : (44 : UInt8) ∉ rest) (others : List Holder) {turns : Nat}
    (enough : others.length ≤ turns) :
    getEstabComms turns (holder.text ++ (othersText others ++ rest)) =
      (holder :: others).map Holder.estabComm := by
  induction others generalizing holder turns with
  | nil =>
      have last := getNextStrOffset_last holder free
      have read := getEstabComm_text holder rest
      change getEstabComms turns (holder.text ++ rest) = [holder.estabComm]
      cases turns with
      | zero => rw [getEstabComms, read, Option.toList_some]
      | succ turns =>
          rw [getEstabComms, last]
          exact congrArg Option.toList read
  | cons next others ih =>
      obtain ⟨turns, rfl⟩ := Nat.exists_eq_add_of_lt (Nat.lt_of_lt_of_le (Nat.succ_pos _) enough)
      rw [Nat.zero_add] at enough ⊢
      have shape : holder.text ++ (othersText (next :: others) ++ rest) =
          holder.text ++ 44 :: (next.text ++ (othersText others ++ rest)) := by
        simp only [othersText, List.map_cons, List.flatten_cons, List.append_assoc, List.cons_append]
      have read : getEstabComm holder.text = some holder.estabComm := by
        have alone := getEstabComm_text holder []
        rw [List.append_nil] at alone
        exact alone
      rw [shape, getEstabComms, getNextStrOffset_next]
      dsimp only
      rw [List.take_left, read, List.drop_length_add_append, List.drop_one, List.tail_cons,
        ih next (Nat.le_of_succ_le_succ enough)]
      rfl

theorem getSubStr_front {s middle finish rest : Bytes} {bufLen : Nat} (shape : s = middle ++ (finish ++ rest))
    (absent : Absent finish middle (finish ++ rest)) (filled : middle ≠ []) (short : middle.length < bufLen) :
    getSubStr s none (some finish) bufLen = some middle := by
  have ends : strstr s finish = some middle.length := by
    rw [shape]
    exact strstr_first absent
  have cut : (s.drop 0).take (middle.length - 0) = middle := by
    rw [shape, List.drop_zero, Nat.sub_zero, List.take_left]
  simp only [getSubStr, ends, Option.bind_eq_bind, Option.bind_some, cut]
  exact if_pos ⟨List.length_pos_iff.mpr filled, short⟩

theorem getSubStr_back {s front start middle : Bytes} {bufLen : Nat} (shape : s = front ++ (start ++ middle))
    (absent : Absent start front (start ++ middle)) (filled : middle ≠ []) (short : middle.length < bufLen) :
    getSubStr s (some start) none bufLen = some middle := by
  have begins : strstr s start = some front.length := by
    rw [shape]
    exact strstr_first absent
  have length : s.length - (front.length + start.length) = middle.length := by
    simp only [shape, List.length_append]
    omega
  have cut : (s.drop (front.length + start.length)).take middle.length = middle := by
    rw [shape, ← List.append_assoc, ← List.length_append, List.drop_left, List.take_length]
  have order : front.length + start.length < s.length := by
    have some := List.length_pos_iff.mpr filled
    simp only [shape, List.length_append]
    omega
  simp only [getSubStr, begins, Option.map_some, Option.bind_eq_bind, Option.bind_some, length, cut]
  exact if_pos ⟨order, short⟩

theorem length_othersText (others : List Holder) : others.length ≤ (othersText others).length := by
  induction others with
  | nil => exact Nat.zero_le _
  | cons next others ih =>
      simp only [othersText, List.map_cons, List.flatten_cons, List.length_append, List.length_cons] at ih ⊢
      omega

namespace EstabLine

def comms (line : EstabLine) : Bytes := line.holder.text ++ (othersText line.others ++ (41 :: line.newline))

theorem text_eq (line : EstabLine) :
    line.text = line.near.text ++ ([124] ++ (line.far.text ++ (ascii "@users:(" ++ line.comms))) := rfl

/-- The last byte is a parenthesis or the newline. -/
theorem comms_dropLast (line : EstabLine) :
    ∃ rest, (44 : UInt8) ∉ rest ∧ line.comms.dropLast = line.holder.text ++ (othersText line.others ++ rest) := by
  rcases line.ending with none | newline
  · refine ⟨[], List.not_mem_nil, ?_⟩
    rw [comms, none, ← List.append_assoc, List.dropLast_concat, List.append_nil]
  · refine ⟨[41], by decide, ?_⟩
    have closing : 41 :: ascii "\n" = [41] ++ [10] := rfl
    rw [comms, newline, closing, ← List.append_assoc, ← List.append_assoc, List.dropLast_concat, List.append_assoc]

end EstabLine

theorem endpoint_ne_nil (endpoint : Endpoint) : endpoint.text ≠ [] :=
  List.append_ne_nil_of_right_ne_nil _ (List.cons_ne_nil _ _)

/-- A line is read back to what it was printed from. -/
theorem getEstab_text (line : EstabLine) : getEstab line.text = some line.estab := by
  have noAt : (64 : UInt8) ∉ line.near.text ++ ([124] ++ line.far.text) := by
    rw [List.mem_append, List.mem_append, not_or, not_or]
    exact ⟨endpoint_free line.near (.inr rfl), by decide, endpoint_free line.far (.inr rfl)⟩
  have nearBar := absent_of_head 124 [] (endpoint_free line.near (.inl rfl))
  have users := absent_of_head 64 [117, 115, 101, 114, 115, 58, 40] noAt
  have near : getSubStr line.text none (some (ascii "|")) ipStrLen = some line.near.text :=
    getSubStr_front line.text_eq (nearBar _) (endpoint_ne_nil _) line.near.short
  have far : getSubStr line.text (some (ascii "|")) (some (ascii "@")) ipStrLen = some line.far.text := by
    have shape : line.text = line.near.text ++ ([124] ++ (line.far.text ++ ([64] ++
        ([117, 115, 101, 114, 115, 58, 40] ++ line.comms)))) := line.text_eq
    have found := getSubStr_eq ipStrLen shape (nearBar _) (absent_of_head 64 [] noAt _)
    rw [if_pos ⟨List.length_pos_iff.mpr (endpoint_ne_nil _), line.far.short⟩] at found
    exact found
  have comms : getSubStr line.text (some (ascii "@users:(")) none lineBufLen = some line.comms := by
    have short := line.short
    have shape : line.text = (line.near.text ++ ([124] ++ line.far.text)) ++ (ascii "@users:(" ++ line.comms) := by
      rw [line.text_eq, List.append_assoc, List.append_assoc]
    refine getSubStr_back shape (users _) ?_ ?_
    · exact List.append_ne_nil_of_left_ne_nil (List.ne_nil_of_length_pos (text_length_pos line.holder)) _
    · change line.text.length < lineBufLen at short
      simp only [shape, List.length_append] at short
      omega
  obtain ⟨rest, free, shape⟩ := line.comms_dropLast
  have enough : line.others.length ≤ line.comms.dropLast.length := by
    have length := length_othersText line.others
    rw [shape, List.length_append, List.length_append]
    omega
  have read : getEstabComms line.comms.dropLast.length line.comms.dropLast =
      (line.holder :: line.others).map Holder.estabComm := by
    have whole := getEstabComms_text line.holder free line.others enough
    rw [← shape] at whole
    exact whole
  have all : ((line.holder :: line.others).map Holder.estabComm).length ≤ tcpEstabCommMax := by
    rw [List.length_map]
    exact line.few
  simp only [getEstab, near, far, comms, getEstabAddr_text, read, Option.bind_eq_bind, Option.bind_some,
    List.take_of_length_le all]
  rfl

end GalaGopher.Ebpf.TcpRole

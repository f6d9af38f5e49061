import GalaGopher.Ebpf.LoadBalancer.Ip6

namespace GalaGopher.Ebpf.LoadBalancer

open Text Lvs

inductive InetAddress where
  | inet (ip : Vector UInt8 4)
  | inet6 (ip : Ip)
deriving DecidableEq

def InetAddress.family : InetAddress → UInt16
  | .inet _ => afInet
  | .inet6 _ => afInet6

/-- The address that a text stands for: a dotted quad unless it has a colon. -/
def parseAddress (text : Bytes) : Option InetAddress :=
  if colon ∈ text then (parseIp6 text).map .inet6
  else (parseQuad text).map fun quad => .inet #v[quad.1, quad.2.1, quad.2.2.1, quad.2.2.2]

/-- A write to `ip4` of the union. -/
def setIp4 (ip : Ip) (ip4 : Vector UInt8 4) : Ip :=
  .ofFn fun place => if inside : place.val < 4 then ip4[place.val] else ip[place.val]

def ip4Of (ip : Ip) : Vector UInt8 4 := .ofFn fun place => ip.get (place.castLE (by decide))

theorem get_setIp4 (ip : Ip) (ip4 : Vector UInt8 4) (place : Fin 16) :
    (setIp4 ip ip4).get place = if inside : place.val < 4 then ip4[place.val] else ip.get place := by
  show (setIp4 ip ip4)[place.val] = _
  rw [setIp4, Vector.getElem_ofFn]
  rfl

@[simp] theorem ip4Of_setIp4 (ip : Ip) (ip4 : Vector UInt8 4) : ip4Of (setIp4 ip ip4) = ip4 := by
  refine Vector.ext fun place inside => ?_
  interval_cases place <;> simp only [ip4Of, get_setIp4] <;> rfl

theorem parseQuad_dotted (a b c d : UInt8) :
    parseQuad (dotted (decimal a.toNat) (decimal b.toNat) (decimal c.toNat) (decimal d.toNat)) = some (a, b, c, d) := by
  have dotFree : isDigit dot = false := by decide
  simp only [parseQuad, splitOn_dotted (decimal_free dotFree a) (decimal_free dotFree b) (decimal_free dotFree c)
    (decimal_free dotFree d), octet_decimal, Option.bind_eq_bind, Option.bind_some]

theorem ipStr_inet {family : Nat} (other : family ≠ afInet6.toNat) (ip : Ip) :
    ipStr family ip = dotted (decimal (ip.get 0).toNat) (decimal (ip.get 1).toNat) (decimal (ip.get 2).toNat)
      (decimal (ip.get 3).toNat) := by
  rw [ipStr, if_neg other]
  simp only [dotted, List.append_assoc, List.singleton_append]
  rfl

theorem parseAddress_inet {family : Nat} (other : family ≠ afInet6.toNat) (ip : Ip) :
    parseAddress (ipStr family ip) = some (.inet (ip4Of ip)) := by
  have notDigit : isDigit colon = false := by decide
  have free := dotted_free (show colon ≠ dot by decide) (decimal_free notDigit (ip.get 0))
    (decimal_free notDigit (ip.get 1)) (decimal_free notDigit (ip.get 2)) (decimal_free notDigit (ip.get 3))
  rw [ipStr_inet other, parseAddress, if_neg free, parseQuad_dotted]
  rfl

theorem parseAddress_inet6 (ip : Ip) :
    parseAddress (ipStr afInet6.toNat ip) = if ip.get 12 = 0 then none else some (.inet6 ip) := by
  have present : colon ∈ ip6Str ip := by simp [ip6Str_eq, grouped]
  have parsed : parseIp6 (ip6Str ip) = if ip.get 12 = 0 then none else some ip := parseIp6_ip6Str ip
  rw [ipStr, if_pos rfl, parseAddress, if_pos present, parsed]
  split <;> rfl

def column (place : Nat) (line : Bytes) : Option Bytes := (line.splitOn bar)[place]?

/-- Between the bars, behind the first one, stand the columns. -/
theorem splitOn_columns {columns : List Bytes} (free : ∀ text ∈ columns, bar ∉ text) (rest : Bytes) :
    (columns.flatMap (fun text => bar :: text) ++ bar :: rest).splitOn bar = [] :: (columns ++ rest.splitOn bar) := by
  suffices behind : ∀ first : Bytes, bar ∉ first →
      (first ++ (columns.flatMap (fun text => bar :: text) ++ bar :: rest)).splitOn bar =
        first :: (columns ++ rest.splitOn bar) from
    behind [] List.not_mem_nil
  induction columns with
  | nil =>
      intro first firstFree
      exact List.splitOn_append_cons_self_of_not_mem firstFree rest
  | cons text columns ih =>
      intro first firstFree
      rw [List.forall_mem_cons] at free
      rw [List.flatMap_cons, List.cons_append, List.cons_append, List.append_assoc,
        List.splitOn_append_cons_self_of_not_mem firstFree, ih free.2 text free.1]
      rfl

/-- The columns in front are read whatever the later ones hold. -/
theorem column_row {front : List Bytes} (free : ∀ text ∈ front, bar ∉ text) (later : List Bytes) {place : Nat}
    (inside : place < front.length) : column (place + 1) (row (front ++ later)) = front[place]? := by
  have shape : ∃ rest, row (front ++ later) = front.flatMap (fun text => bar :: text) ++ bar :: rest := by
    rw [row, List.flatMap_append, List.append_assoc]
    cases later with
    | nil => exact ⟨[newline], rfl⟩
    | cons text later => exact ⟨_, rfl⟩
  obtain ⟨rest, shape⟩ := shape
  rw [column, shape, splitOn_columns free, List.getElem?_cons_succ, List.getElem?_append_left inside]

theorem ipStr_free (family : Nat) (ip : Ip) : bar ∉ ipStr family ip := by
  have notDigit : isDigit bar = false := by decide
  have notHex : isHex bar = false := by decide
  have notDot : bar ≠ dot := by decide
  have notColon : bar ≠ colon := by decide
  by_cases inet6 : family = afInet6.toNat
  · rw [ipStr, if_pos inet6, ip6Str_eq]
    simp only [grouped, quad, List.mem_append, List.mem_cons, not_or]
    simp only [shortGroup_free notHex, notColon, dotted_free notDot (firstOctet_free notDigit _)
      (decimal_free notDigit _) (decimal_free notDigit _) (decimal_free notDigit _), not_false_eq_true, and_self]
  · rw [ipStr_inet inet6]
    exact dotted_free notDot (decimal_free notDigit _) (decimal_free notDigit _) (decimal_free notDigit _)
      (decimal_free notDigit _)

theorem decimal_lacks (number : Nat) : bar ∉ decimal number :=
  printed_free (by decide) number

end GalaGopher.Ebpf.LoadBalancer

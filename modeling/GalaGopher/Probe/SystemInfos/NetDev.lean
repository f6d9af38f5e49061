import GalaGopher.Probe.SystemInfos
import Mathlib.Data.List.Forall2
import Mathlib.Data.List.Nodup
import Mathlib.Data.List.Perm.Subperm

namespace GalaGopher.Probe.SystemInfos

open Text

/-- A line of a device with this name is passed over. -/
def Passed (name : Bytes) : Prop := ascii "Inter" <:+: name ∨ ascii "face" <:+: name ∨ ascii "lo" <:+: name

instance (name : Bytes) : Decidable (Passed name) := inferInstanceAs (Decidable (_ ∨ _ ∨ _))

def visibleIn (devices : List Device) : List Device := devices.filter fun device => ¬Passed device.name

def Snapshot.visible (snapshot : Snapshot) : List Device := visibleIn snapshot.devices

/-- The devices that were at this place among the visible ones. -/
def occupants (place : Nat) (history : List Snapshot) : List Device :=
  history.filterMap fun snapshot => snapshot.visible[place]?

/-- The counters that are remembered of a place. -/
def remembered (devices : List Device) : NetCounters := (devices.getLast?.map Device.counters).getD {}

variable {device : Device} {num : Nat}

theorem columns_low (numbers : List (Nat × UInt64)) : ∀ byte ∈ columns numbers, byte < 65 := by
  intro byte member
  rcases mem_columns member with blank | digit
  · rw [blank]
    decide
  · rw [isDigit, Bool.and_eq_true, decide_eq_true_eq, decide_eq_true_eq] at digit
    exact UInt8.lt_of_le_of_lt digit.2 (by decide)

/-- What is searched can only be in the name. -/
theorem infix_line_iff (device : Device) {needle : Bytes} (filled : needle ≠ []) (letters : ∀ byte ∈ needle, 65 ≤ byte) :
    needle <:+: device.line ++ [newline] ↔ needle <:+: device.name := by
  have high {front : Bytes} (low : ∀ byte ∈ front, byte < 65) : ∀ byte ∈ needle, byte ∉ front :=
    fun byte member inside => absurd (letters byte member) (UInt8.not_le.mpr (low byte inside))
  have padding : ∀ byte ∈ List.replicate (6 - device.name.length) space, byte < 65 := by
    intro byte member
    rw [List.eq_of_mem_replicate member]
    decide
  have behind : ∀ byte ∈ colon :: (columns device.numbers ++ [newline]), byte < 65 := by
    intro byte member
    rcases List.mem_cons.mp member with first | later
    · rw [first]
      decide
    · rcases List.mem_append.mp later with inside | last
      · exact columns_low _ byte inside
      · rw [List.mem_singleton.mp last]
        decide
  have shape : device.line ++ [newline] = List.replicate (6 - device.name.length) space ++
      (device.name ++ colon :: (columns device.numbers ++ [newline])) := by
    rw [Device.line, padLeft, List.append_assoc, List.append_assoc, List.cons_append]
  rw [shape, infix_append_left_iff filled (high padding), infix_append_right_iff filled (high behind)]

theorem passedOver_line (device : Device) : passedOver (device.line ++ [newline]) ↔ Passed device.name := by
  rw [passedOver, Bool.or_eq_true, Bool.or_eq_true, strstr_isSome_iff, strstr_isSome_iff, strstr_isSome_iff,
    infix_line_iff device (by decide) (by decide +kernel), infix_line_iff device (by decide) (by decide +kernel),
    infix_line_iff device (by decide) (by decide +kernel), Passed, or_assoc]

theorem nameBytes_line (device : Device) (rest : Bytes) : nameBytes (padLeft 6 device.name ++ colon :: rest) = device.name := by
  have before : ∀ byte ∈ padLeft 6 device.name, (decide (byte ≠ colon ∧ byte ≠ 0)) = true := by
    intro byte member
    rw [decide_eq_true_eq]
    rcases List.mem_append.mp member with padding | inside
    · rw [List.eq_of_mem_replicate padding]
      decide
    · obtain ⟨notColon, nonzero, _⟩ := device.plain byte inside
      exact ⟨notColon, nonzero⟩
  have spaces : (List.replicate (6 - device.name.length) space).filter (fun byte => byte ≠ space) = [] := by
    rw [List.filter_eq_nil_iff]
    intro byte member
    simp [List.eq_of_mem_replicate member]
  have name : device.name.filter (fun byte => byte ≠ space) = device.name := by
    rw [List.filter_eq_self]
    intro byte member
    have plain := (device.plain byte member).2.2
    rw [decide_eq_true_eq]
    rintro rfl
    exact absurd plain (by decide)
  rw [nameBytes, List.takeWhile_append_of_pos before, List.takeWhile_cons_of_neg (by simp), List.append_nil, padLeft,
    List.filter_append, spaces, name, List.nil_append]

theorem scanFields_line (device : Device) :
    scanFields (device.line ++ [newline]) = device.numbers.map Prod.snd := by
  have unspaced : ∀ byte ∈ device.name ++ [colon], isSpace byte = false := by
    intro byte member
    rcases List.mem_append.mp member with inside | last
    · exact (device.plain byte inside).2.2
    · rw [List.mem_singleton.mp last]
      decide
  obtain ⟨behind, starts⟩ : ∃ behind, columns device.numbers ++ [newline] = space :: behind := ⟨_, rfl⟩
  have padding : 7 - (device.name ++ [colon]).length = 6 - device.name.length := by
    rw [List.length_append, List.length_singleton]
    omega
  have shape : device.line ++ [newline] = padLeft 7 (device.name ++ [colon]) ++ space :: behind := by
    rw [← starts, Device.line, padLeft, padLeft, padding]
    simp only [List.append_assoc, List.cons_append, List.nil_append]
  have word := scanWord_padLeft 7 (List.append_ne_nil_of_left_ne_nil device.filled [colon]) unspaced
    (by decide : isSpace space) behind
  have numbers : scanLlus device.numbers.length (columns device.numbers ++ [newline]) = device.numbers.map Prod.snd :=
    scanLlus_columns device.numbers (by decide) []
  rw [scanFields, shape, word, ← starts]
  exact numbers

/-- The place of a device once its line is read. -/
def NetDevStat.hold (stats : NetDevStat) (device : Device) : NetDevStat :=
  { device.counters with devName := stats.devName.copyAt 0 device.name }

theorem getNetdevFileds_line (device : Device) (stats : NetDevStat) :
    getNetdevFileds (device.line ++ [newline]) stats = some (stats.hold device) := by
  have name : nameBytes (device.line ++ [newline]) = device.name := by
    rw [Device.line, List.append_assoc, List.cons_append, nameBytes_line]
  have short : device.name.length ≤ netDeviceNameSize := Nat.le_succ_of_le device.short
  rw [getNetdevFileds, name, scanFields_line]
  exact if_pos short

def lineOf (stats : NetDevStat) (device : Device) : NetLine := netLine (stats.hold device) stats

/-- What one call does to a table, given the devices that it sees. -/
def probed (table : List NetDevStat) (visible : List Device) : NetResult where
  stats := List.zipWith NetDevStat.hold table visible ++ table.drop visible.length
  printed := List.zipWith lineOf table visible
  ret := if visible.length ≤ table.length then 0 else -1

/-- The loop stands at the place behind `front`. -/
theorem netLoop_devices (devices : List Device) (front table : List NetDevStat) :
    netLoop (front.length + table.length) (devices.map fun device => device.line ++ [newline]) front.length
        (front ++ table) =
      some { probed table (visibleIn devices) with stats := front ++ (probed table (visibleIn devices)).stats } := by
  induction devices generalizing front table with
  | nil => simp [netLoop, probed, visibleIn]
  | cons device devices ih =>
      rw [List.map_cons, netLoop]
      by_cases passed : Passed device.name
      · have hidden : visibleIn (device :: devices) = visibleIn devices := List.filter_cons_of_neg (by simpa using passed)
        rw [if_pos ((passedOver_line device).mpr passed), hidden]
        exact ih front table
      · have seen : visibleIn (device :: devices) = device :: visibleIn devices :=
          List.filter_cons_of_pos (by simpa using passed)
        rw [if_neg (fun passes => passed ((passedOver_line device).mp passes)), seen]
        cases table with
        | nil => simp [probed]
        | cons stats table =>
            have room : ¬front.length ≥ front.length + (stats :: table).length := by
              rw [List.length_cons]
              omega
            have here : (front ++ stats :: table)[front.length]? = some stats := by simp
            have next := ih (front ++ [stats.hold device]) table
            have length : (front ++ [stats.hold device]).length = front.length + 1 := by simp
            have total : front.length + 1 + table.length = front.length + (stats :: table).length := by
              rw [List.length_cons]
              omega
            have replaced : (front ++ stats :: table).set front.length (stats.hold device) =
                front ++ [stats.hold device] ++ table := by simp
            rw [length, total] at next
            rw [if_neg room, here]
            simp only [getNetdevFileds_line, replaced, next, Option.map_some]
            simp [probed, lineOf]

theorem ascii_of_characters {holds : Bytes → Prop} {text : String} {characters : List Char} (same : text = String.ofList characters)
    (given : holds (characters.map fun character => UInt8.ofNat character.toNat)) : holds (ascii text) := by
  rw [same, ascii_ofList]
  exact given

-- Each title is decided as a list of characters: `ascii` of a literal is slow to unfold.
theorem headers_skipped : ∀ line ∈ Snapshot.headers, passedOver (line ++ [newline]) ∧
    (newline ∉ line ∧ 0 ∉ line) ∧ line.length < lineBufLen - 1 := by
  let skipped := fun line : Bytes => passedOver (line ++ [newline]) ∧
    (newline ∉ line ∧ 0 ∉ line) ∧ line.length < lineBufLen - 1
  rw [Snapshot.headers, List.forall_mem_cons, List.forall_mem_singleton]
  constructor
  · exact @ascii_of_characters skipped _ _ rfl (by decide +kernel)
  · exact @ascii_of_characters skipped _ _ rfl (by decide +kernel)

theorem line_fits (device : Device) : Lineal device.line ∧ device.line.length < lineBufLen - 1 := by
  have free {byte : UInt8} (space : isSpace byte = true ∨ byte = 0) (notBlank : byte ≠ Text.space) (notDigit : isDigit byte = false)
      (notColon : byte ≠ colon) : byte ∉ device.line := by
    intro member
    rcases List.mem_append.mp member with front | behind
    · rcases List.mem_append.mp front with padding | inside
      · exact notBlank (List.eq_of_mem_replicate padding)
      · obtain ⟨_, nonzero, unspaced⟩ := device.plain byte inside
        rcases space with blank | zero
        · rw [unspaced] at blank
          cases blank
        · exact nonzero zero
    · rcases List.mem_cons.mp behind with first | later
      · exact notColon first
      · rcases mem_columns later with blank | digit
        · exact notBlank blank
        · rw [notDigit] at digit
          cases digit
  refine ⟨⟨free (.inl (by decide)) (by decide) (by decide) (by decide),
    free (.inr rfl) (by decide) (by decide) (by decide)⟩, ?_⟩
  have numbers : (columns device.numbers).length ≤ 21 * device.numbers.length := length_columns (by simp [Device.numbers])
  have count : device.numbers.length = 16 := rfl
  have short := device.short
  rw [Device.line, List.length_append, List.length_cons, length_padLeft, lineBufLen]
  omega

theorem netLoop_passedOver {lines : List Bytes} (passed : ∀ line ∈ lines, passedOver line) (rest : List Bytes)
    (index : Nat) (table : List NetDevStat) : netLoop num (lines ++ rest) index table = netLoop num rest index table := by
  induction lines with
  | nil => rfl
  | cons line lines ih =>
      rw [List.cons_append, netLoop, if_pos (passed line List.mem_cons_self),
        ih fun other member => passed other (List.mem_cons_of_mem _ member)]

theorem systemNetProbe_eq (snapshot : Snapshot) (table : List NetDevStat) :
    systemNetProbe table.length snapshot.file table = some (probed table snapshot.visible) := by
  have fits : ∀ line ∈ Snapshot.headers ++ snapshot.devices.map Device.line,
      Lineal line ∧ line.length < lineBufLen - 1 := by
    intro line member
    rcases List.mem_append.mp member with header | device
    · obtain ⟨_, ⟨unbroken, nonzero⟩, short⟩ := headers_skipped line header
      exact ⟨⟨unbroken, nonzero⟩, short⟩
    · obtain ⟨present, _, rfl⟩ := List.mem_map.mp device
      exact line_fits present
  have headers : ∀ line ∈ Snapshot.headers.map fun line => line ++ [newline], passedOver line := by
    intro line member
    obtain ⟨header, inside, rfl⟩ := List.mem_map.mp member
    exact (headers_skipped header inside).1
  have loop := netLoop_devices snapshot.devices [] table
  rw [List.length_nil, Nat.zero_add, List.nil_append] at loop
  rw [systemNetProbe, Snapshot.file, fgetsStrings_printLines fits, List.map_append, netLoop_passedOver headers, List.map_map]
  exact loop

variable {history : List Snapshot} {table stats : List NetDevStat} {place : Nat}

theorem probed_at (table : List NetDevStat) (visible : List Device) (place : Nat) :
    (probed table visible).stats[place]? =
      match visible[place]? with
      | some device => table[place]?.map fun stats => stats.hold device
      | none => table[place]? := by
  induction table generalizing visible place with
  | nil => cases found : visible[place]? <;> simp [probed]
  | cons stats table ih =>
      cases visible with
      | nil => simp [probed]
      | cons device visible =>
          cases place with
          | zero => simp [probed]
          | succ place => simpa [probed] using ih visible place

theorem length_probed (table : List NetDevStat) (visible : List Device) :
    (probed table visible).stats.length = table.length := by
  simp only [probed, List.length_append, List.length_zipWith, List.length_drop]
  omega

/-- A place holds what was in it before, with the devices that came to it. -/
theorem probesFrom_at (reached : probesFrom table.length (history.map Snapshot.file) table = some stats) :
    stats.length = table.length ∧
      ∀ place, stats[place]? = table[place]?.map fun held => (occupants place history).foldl NetDevStat.hold held := by
  induction history generalizing table with
  | nil =>
      obtain rfl := Option.some.inj reached
      exact ⟨rfl, fun place => by simp [occupants]⟩
  | cons snapshot history ih =>
      rw [List.map_cons, probesFrom, List.foldlM_cons, systemNetProbe_eq] at reached
      dsimp only at reached
      split at reached
      case isFalse => cases reached
      case isTrue =>
        have later : probesFrom (probed table snapshot.visible).stats.length (history.map Snapshot.file)
            (probed table snapshot.visible).stats = some stats := by
          rw [length_probed]
          exact reached
        obtain ⟨length, places⟩ := ih later
        refine ⟨length.trans (length_probed _ _), fun place => ?_⟩
        rw [places, probed_at]
        cases here : snapshot.visible[place]? with
        | none =>
            have same : occupants place (snapshot :: history) = occupants place history := by
              simp [occupants, here]
            rw [same]
        | some device =>
            have more : occupants place (snapshot :: history) = device :: occupants place history := by
              simp [occupants, here]
            rw [more, Option.map_map]
            rfl

/-- What a place holds once these devices were in it. -/
def heldOf (devices : List Device) : NetDevStat := devices.foldl NetDevStat.hold {}

theorem afterProbes_at (reached : afterProbes num (history.map Snapshot.file) = some stats) :
    stats.length = num ∧ ∀ place < num, stats[place]? = some (heldOf (occupants place history)) := by
  have length : (initialStats num).length = num := List.length_replicate
  have start : probesFrom (initialStats num).length (history.map Snapshot.file) (initialStats num) = some stats := by
    rw [length]
    exact reached
  obtain ⟨sameLength, places⟩ := probesFrom_at start
  refine ⟨sameLength.trans length, fun place inside => ?_⟩
  rw [places, initialStats, List.getElem?_replicate, if_pos inside]
  rfl

theorem counters_heldOf (devices : List Device) : (heldOf devices).toNetCounters = remembered devices := by
  rcases List.eq_nil_or_concat devices with rfl | ⟨front, last, rfl⟩
  · rfl
  · rw [List.concat_eq_append, heldOf, List.foldl_append, remembered, List.getLast?_concat]
    rfl

/-- The bytes of the longest name that was there are still set. -/
theorem devName_heldOf (devices : List Device) (index : Fin netDeviceNameSize) :
    (heldOf devices).devName index ≠ 0 ↔ ∃ device ∈ devices, index.val < device.name.length := by
  induction devices using List.reverseRecOn with
  | nil => simp [heldOf]
  | append_singleton front last ih =>
      have shape : (heldOf (front ++ [last])).devName = (heldOf front).devName.copyAt 0 last.name := by
        rw [heldOf, List.foldl_append]
        rfl
      rw [shape]
      simp only [List.mem_append, List.mem_singleton, or_and_right, exists_or, exists_eq_left]
      by_cases inside : index.val < last.name.length
      · rw [Memory.copyAt_inside (by simpa using inside) (Nat.zero_le _)]
        have nonzero := (last.plain _ (List.getElem_mem inside)).2.1
        simpa [inside] using nonzero
      · rw [Memory.copyAt_outside (.inr (by simpa using inside)), ih]
        simp [inside]

/-- The name that is printed for a device at a place where others were. -/
def shownName (devices : List Device) (device : Device) : Bytes := cString (((heldOf devices).hold device).devName.after 0)

theorem shownName_eq (devices : List Device) (device : Device) :
    ∃ behind, shownName devices device = device.name ++ behind ∧
      (behind = [] ↔ ∀ earlier ∈ devices, earlier.name.length ≤ device.name.length) := by
  let memory := ((heldOf devices).hold device).devName
  have inside : device.name.length < netDeviceNameSize := Nat.lt_succ_of_le device.short
  have front : (List.ofFn memory).take device.name.length = device.name := by
    refine List.ext_getElem (by rw [List.length_take, List.length_ofFn]; omega) fun index _ within => ?_
    have small : index < netDeviceNameSize := Nat.lt_trans within inside
    rw [List.getElem_take, List.getElem_ofFn]
    change (heldOf devices).devName.copyAt 0 device.name ⟨index, small⟩ = _
    exact Memory.copyAt_inside within (Nat.zero_le _)
  have next : (List.ofFn memory).drop device.name.length =
      (heldOf devices).devName ⟨device.name.length, inside⟩ :: (List.ofFn memory).drop (device.name.length + 1) := by
    rw [List.drop_eq_getElem_cons (by rw [List.length_ofFn]; exact inside), List.getElem_ofFn]
    refine congrArg (· :: _) ?_
    change (heldOf devices).devName.copyAt 0 device.name ⟨device.name.length, inside⟩ = _
    exact Memory.copyAt_outside (.inr (Nat.le_of_eq (Nat.zero_add _)))
  have nonzero : ∀ byte ∈ device.name, decide (byte ≠ 0) = true := by
    intro byte member
    rw [decide_eq_true_eq]
    exact (device.plain byte member).2.1
  refine ⟨cString ((List.ofFn memory).drop device.name.length), ?_, ?_⟩
  · have whole := List.take_append_drop device.name.length (List.ofFn memory)
    rw [front] at whole
    rw [shownName, Memory.after, List.drop_zero]
    change cString (List.ofFn memory) = _
    rw [← whole, cString, List.takeWhile_append_of_pos nonzero, whole]
    rfl
  · have set := devName_heldOf devices ⟨device.name.length, inside⟩
    rw [next, cString]
    by_cases clear : (heldOf devices).devName ⟨device.name.length, inside⟩ = 0
    · refine iff_of_true (List.takeWhile_cons_of_neg (by simpa using clear)) fun earlier member => ?_
      exact Nat.le_of_not_lt fun longer => set.mpr ⟨earlier, member, longer⟩ clear
    · obtain ⟨earlier, member, longer⟩ := set.mp clear
      rw [List.takeWhile_cons_of_pos (by simpa using clear)]
      exact iff_of_false (List.cons_ne_nil _ _) fun all => Nat.not_le_of_lt longer (all earlier member)

theorem shownName_eq_iff (devices : List Device) (device : Device) :
    shownName devices device = device.name ↔ ∀ earlier ∈ devices, earlier.name.length ≤ device.name.length := by
  obtain ⟨behind, shape, exact⟩ := shownName_eq devices device
  rw [shape, ← exact, List.append_right_eq_self]

/-- The line of a device that comes to a place where others were. -/
def lineAt (history : List Snapshot) (place : Nat) (device : Device) : NetLine where
  devName := shownName (occupants place history) device
  deltas := device.counters.minus (remembered (occupants place history))

theorem printed_at (reached : afterProbes num (history.map Snapshot.file) = some stats) (visible : List Device) (place : Nat) :
    (probed stats visible).printed[place]? =
      if place < num then visible[place]?.map fun device => lineAt history place device else none := by
  obtain ⟨length, places⟩ := afterProbes_at reached
  rw [probed, List.getElem?_zipWith]
  by_cases inside : place < num
  · rw [places place inside, if_pos inside]
    cases visible[place]? with
    | none => rfl
    | some device =>
        rw [Option.map_some, lineAt, ← counters_heldOf]
        rfl
  · rw [List.getElem?_eq_none (by omega), if_neg inside]

/-- What each line says of the devices of the last two snapshots. -/
structure Belongs (prev now : Snapshot) (printed : List NetLine) : Prop where
  named : ∀ line ∈ printed, ∃ device ∈ now.others, line.devName = device.name
  own : ∀ line ∈ printed, ∀ device ∈ now.others, line.devName = device.name →
    ∀ before ∈ prev.devices, before.name = device.name → line.deltas = device.counters.minus before.counters
  all : ∀ device ∈ now.others, ∃ line ∈ printed, line.devName = device.name

/-- No device is passed over, there is room for all of them, and the places at
which they are remember nothing of others. -/
structure Placed (num : Nat) (history : List Snapshot) (prev now : Snapshot) : Prop where
  seen : ∀ device ∈ now.others, ¬Passed device.name
  room : now.others.length ≤ num
  longest : ∀ place device, now.others[place]? = some device →
    ∀ earlier ∈ occupants place history, earlier.name.length ≤ device.name.length
  same : ∀ place device, now.others[place]? = some device → ∀ before ∈ prev.devices, before.name = device.name →
    remembered (occupants place history) = before.counters

theorem minus_inj {counters left right : NetCounters} : counters.minus left = counters.minus right ↔ left = right := by
  constructor
  · intro same
    simp only [NetCounters.minus, NetCounters.mk.injEq, UInt64.sub_right_inj] at same
    obtain ⟨a, b, c, d, e, f, g, h⟩ := same
    ext <;> simp [*]
  · rintro rfl
    rfl

theorem visible_eq_filter (snapshot : Snapshot) :
    snapshot.visible = snapshot.others.filter fun device => ¬Passed device.name := by
  have loopback : Passed Device.loopback := by decide
  rw [Snapshot.visible, visibleIn, Snapshot.others, List.filter_filter]
  refine List.filter_congr fun device _ => ?_
  by_cases passed : Passed device.name
  · simp [passed]
  · have other : device.name ≠ Device.loopback := fun same => passed (same ▸ loopback)
    simp [passed, other]

theorem nodup_others (snapshot : Snapshot) : (snapshot.others.map Device.name).Nodup :=
  snapshot.distinct.sublist (List.filter_sublist.map Device.name)

theorem same_device {snapshot : Snapshot} {left right : Device} (first : left ∈ snapshot.others)
    (second : right ∈ snapshot.others) (same : left.name = right.name) : left = right :=
  List.inj_on_of_nodup_map (nodup_others snapshot) first second same

theorem length_le_of_prefixes {names shown : List Bytes} (prefixes : List.Forall₂ (· <+: ·) names shown) :
    names.flatten.length ≤ shown.flatten.length := by
  induction prefixes with
  | nil => exact Nat.le_refl _
  | cons first _ ih =>
      have length := first.length_le
      simp only [List.flatten_cons, List.length_append]
      omega

/-- Prefixes that are together no shorter are the texts themselves. -/
theorem eq_of_prefixes {names shown : List Bytes} (prefixes : List.Forall₂ (· <+: ·) names shown)
    (short : shown.flatten.length ≤ names.flatten.length) : names = shown := by
  induction prefixes with
  | nil => rfl
  | cons first rest ih =>
      have others := length_le_of_prefixes rest
      have length := first.length_le
      simp only [List.flatten_cons, List.length_append] at short
      rw [first.eq_of_length (by omega), ih (by omega)]

theorem visible_eq_others {now : Snapshot} (seen : ∀ device ∈ now.others, ¬Passed device.name) : now.visible = now.others := by
  rw [visible_eq_filter, List.filter_eq_self]
  exact fun device member => decide_eq_true (seen device member)

section Shown

variable {prev now : Snapshot} {printed : List NetLine}

/-- The lines of a call after these, each from its place. -/
def Shown (num : Nat) (history : List Snapshot) (now : Snapshot) (printed : List NetLine) : Prop :=
  ∀ place, printed[place]? =
    if place < num then now.visible[place]?.map fun device => lineAt history place device else none

theorem Shown.line (shown : Shown num history now printed) (whole : now.visible = now.others)
    (room : now.others.length ≤ num) {device : Device} (found : now.others[place]? = some device) :
    printed[place]? = some (lineAt history place device) := by
  have inside : place < num := Nat.lt_of_lt_of_le (List.getElem?_eq_some_iff.mp found).1 room
  rw [shown, if_pos inside, whole, found, Option.map_some]

theorem Shown.length_le (shown : Shown num history now printed) : printed.length ≤ now.visible.length := by
  by_contra more
  have here := shown now.visible.length
  rw [List.getElem?_eq_none (Nat.le_refl _), List.getElem?_eq_getElem (Nat.lt_of_not_le more)] at here
  split at here <;> cases here

theorem belongs_of_placed (placed : Placed num history prev now) (shown : Shown num history now printed) :
    Belongs prev now printed := by
  have whole := visible_eq_others placed.seen
  -- Every line is that of the device at its place.
  have source {line : NetLine} (member : line ∈ printed) : ∃ (place : Nat) (device : Device),
      now.others[place]? = some device ∧ line = lineAt history place device ∧ line.devName = device.name := by
    obtain ⟨place, here⟩ := List.getElem?_of_mem member
    rw [shown, whole] at here
    split at here
    case isFalse => cases here
    case isTrue =>
      obtain ⟨device, found, rfl⟩ := Option.map_eq_some_iff.mp here
      exact ⟨place, device, found, rfl, (shownName_eq_iff _ device).mpr (placed.longest place device found)⟩
  refine ⟨fun line member => ?_, fun line member device inside named before earlier same => ?_, fun device member => ?_⟩
  · obtain ⟨place, device, found, _, named⟩ := source member
    exact ⟨device, List.mem_of_getElem? found, named⟩
  · obtain ⟨place, own, found, rfl, ownName⟩ := source member
    obtain rfl := same_device (List.mem_of_getElem? found) inside (ownName.symm.trans named)
    exact minus_inj.mpr (placed.same place own found before earlier same)
  · obtain ⟨place, found⟩ := List.getElem?_of_mem member
    have here := shown.line whole placed.room found
    exact ⟨_, List.mem_of_getElem? here, (shownName_eq_iff _ device).mpr (placed.longest place device found)⟩

/-- Every device has a line of its own. -/
theorem names_subperm (belongs : Belongs prev now printed) :
    List.Subperm (now.others.map Device.name) (printed.map NetLine.devName) := by
  refine List.subperm_of_subset (nodup_others now) fun name member => ?_
  obtain ⟨device, here, rfl⟩ := List.mem_map.mp member
  obtain ⟨line, printed, same⟩ := belongs.all device here
  exact List.mem_map.mpr ⟨line, printed, same⟩

theorem seen_of_lines (shown : Shown num history now printed) (enough : now.others.length ≤ printed.length) :
    ∀ device ∈ now.others, ¬Passed device.name := by
  have visible := visible_eq_filter now
  have fewer := shown.length_le
  have filtered : now.visible.length ≤ now.others.length := by
    rw [visible]
    exact List.length_filter_le _ _
  intro device member
  have all := List.length_filter_eq_length_iff.mp
    (show (now.others.filter fun device => ¬Passed device.name).length = now.others.length by rw [← visible]; omega)
  exact of_decide_eq_true (all device member)

/-- A name that is printed begins with the name of its device, so that together
they are no shorter. -/
theorem names_of_belongs (belongs : Belongs prev now printed) (same : printed.length = now.others.length)
    (lines : ∀ place device, now.others[place]? = some device → printed[place]? = some (lineAt history place device)) :
    now.others.map Device.name = printed.map NetLine.devName := by
  have lengths : (now.others.map Device.name).length = (printed.map NetLine.devName).length := by
    rw [List.length_map, List.length_map, same]
  refine eq_of_prefixes (List.forall₂_iff_get.mpr ⟨lengths, fun place first second => ?_⟩) ?_
  · rw [List.length_map] at first
    have here := lines place _ (List.getElem?_eq_getElem first)
    obtain ⟨_, line⟩ := List.getElem?_eq_some_iff.mp here
    simp only [List.get_eq_getElem, List.getElem_map, line]
    obtain ⟨behind, shape, _⟩ := shownName_eq (occupants place history) now.others[place]
    exact ⟨behind, shape.symm⟩
  · have perm := (names_subperm belongs).perm_of_length_le (Nat.le_of_eq lengths.symm)
    exact Nat.le_of_eq perm.flatten.length_eq.symm

theorem placed_of_belongs (few : printed.length ≤ num) (belongs : Belongs prev now printed)
    (shown : Shown num history now printed) : Placed num history prev now := by
  have enough := (names_subperm belongs).length_le
  rw [List.length_map, List.length_map] at enough
  have seen := seen_of_lines shown enough
  have whole := visible_eq_others seen
  have room : now.others.length ≤ num := Nat.le_trans enough few
  have lines : ∀ place device, now.others[place]? = some device → printed[place]? = some (lineAt history place device) :=
    fun place device found => shown.line whole room found
  have same : printed.length = now.others.length := Nat.le_antisymm (whole ▸ shown.length_le) enough
  have names := names_of_belongs belongs same lines
  -- The name on the line of a device.
  have named {place : Nat} {device : Device} (found : now.others[place]? = some device) :
      (lineAt history place device).devName = device.name := by
    have column := congrArg (fun column => column[place]?) names
    simp only [List.getElem?_map, found, lines place device found, Option.map_some, Option.some.injEq] at column
    exact column.symm
  refine ⟨seen, room, fun place device found => ?_, fun place device found before earlier same => ?_⟩
  · exact (shownName_eq_iff _ device).mp (named found)
  · have line := List.mem_of_getElem? (lines place device found)
    exact minus_inj.mp (belongs.own _ line device (List.mem_of_getElem? found) (named found) before earlier same)

end Shown

/-- The lines are those of their devices just when the places of the table are. -/
theorem net_belongs_iff {earlier : List Snapshot} {prev now : Snapshot}
    (reached : afterProbes num ((earlier ++ [prev]).map Snapshot.file) = some stats) :
    (∃ result, systemNetProbe num now.file stats = some result ∧ Belongs prev now result.printed) ↔
      Placed num (earlier ++ [prev]) prev now := by
  obtain ⟨length, _⟩ := afterProbes_at reached
  have shown := printed_at reached now.visible
  have few : (probed stats now.visible).printed.length ≤ num := by
    rw [probed, List.length_zipWith, ← length]
    exact Nat.min_le_left _ _
  have call : systemNetProbe num now.file stats = some (probed stats now.visible) := by
    rw [← length]
    exact systemNetProbe_eq now stats
  simp only [call, Option.some.injEq, exists_eq_left']
  exact ⟨fun belongs => placed_of_belongs few belongs shown, fun placed => belongs_of_placed placed shown⟩

/-- A device "eth0" or "eth1" with its counters all the same. -/
def eth (last : UInt8) (digit : isDigit last) (count : UInt64) : Device where
  name := ascii "eth" ++ [last]
  counters := ⟨count, count, count, count, count, count, count, count⟩
  rxOthers := .replicate 4 0
  txOthers := .replicate 4 0
  filled := List.cons_ne_nil _ _
  short := by simp [ascii]
  plain := by
    intro byte member
    have letters : ∀ byte ∈ ascii "eth", byte ≠ colon ∧ byte ≠ 0 ∧ isSpace byte = false := by decide +kernel
    rcases List.mem_append.mp member with front | rest
    · exact letters byte front
    · rw [List.mem_singleton.mp rest]
      exact ⟨digit_ne digit (by decide), digit_ne digit (by decide), digit_unspaced digit⟩

def bothUp : Snapshot where
  devices := [eth 48 (by decide) 500, eth 49 (by decide) 70]
  distinct := by decide

def firstGone : Snapshot where
  devices := [eth 49 (by decide) 90]
  distinct := by decide

def afterBoth : List NetDevStat := (probed (initialStats 3) bothUp.visible).stats

theorem afterProbes_bothUp : afterProbes 3 (([] ++ [bothUp]).map Snapshot.file) = some afterBoth := by
  have call : systemNetProbe 3 bothUp.file (initialStats 3) = some (probed (initialStats 3) bothUp.visible) :=
    systemNetProbe_eq bothUp (initialStats 3)
  have ret : (probed (initialStats 3) bothUp.visible).ret = 0 := by decide
  rw [List.nil_append, List.map_singleton, afterProbes, probesFrom, List.foldlM_cons, call]
  dsimp only
  rw [if_pos ret]
  rfl

theorem net_belongs_again :
    (∃ result, systemNetProbe 3 bothUp.file afterBoth = some result ∧ Belongs bothUp bothUp result.printed) ↔
      Placed 3 ([] ++ [bothUp]) bothUp bothUp :=
  net_belongs_iff afterProbes_bothUp

/-- The device that is left takes the place of the other, and its differences
are those to the counters of the other. -/
theorem vanished_device_shifts : ∃ stats result, afterProbes 3 ([bothUp].map Snapshot.file) = some stats ∧
    systemNetProbe 3 firstGone.file stats = some result ∧
    result.printed.map (fun line => (line.devName, line.deltas.rxBytes)) = [(ascii "eth1", 90 - 500)] ∧
    ¬Belongs bothUp firstGone result.printed := by
  have call : systemNetProbe 3 firstGone.file afterBoth = some (probed afterBoth firstGone.visible) :=
    systemNetProbe_eq firstGone afterBoth
  have lines : (probed afterBoth firstGone.visible).printed.map (fun line => (line.devName, line.deltas.rxBytes)) =
      [(ascii "eth1", 90 - 500)] := by decide +kernel
  refine ⟨afterBoth, _, afterProbes_bothUp, call, lines, fun belongs => ?_⟩
  have first : (ascii "eth1", (90 - 500 : UInt64)) ∈
      (probed afterBoth firstGone.visible).printed.map (fun line => (line.devName, line.deltas.rxBytes)) := by
    rw [lines]
    exact List.mem_singleton_self _
  obtain ⟨line, member, shape⟩ := List.mem_map.mp first
  obtain ⟨name, delta⟩ := Prod.mk.inj shape
  have present : eth 49 (by decide) 90 ∈ firstGone.others := by
    rw [Snapshot.others, List.mem_filter]
    exact ⟨List.mem_singleton_self _, by decide⟩
  have own := belongs.own line member (eth 49 (by decide) 90) present name (eth 49 (by decide) 70)
    (List.mem_cons_of_mem _ (List.mem_singleton_self _)) rfl
  rw [own] at delta
  exact absurd delta (by decide)

end GalaGopher.Probe.SystemInfos

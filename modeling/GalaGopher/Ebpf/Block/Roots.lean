import GalaGopher.Ebpf.Block.Disks

namespace GalaGopher.Ebpf.Block

open Text

/-- A name from its first lowercase letter on. -/
def stripped (name : Bytes) : Bytes := name.dropWhile fun byte => !isLowercaseLetter byte

namespace Entry

/-- The name stands behind a line of the drawing and a blank, so that it is in
no first field. -/
def cut (entry : Entry) : Bool :=
  match entry.place with
  | none => false
  | some (lasts, _) => lasts.contains false

/-- A root whose name begins with a lowercase letter. -/
def records (entry : Entry) : Bool := entry.place.isNone && (entry.device.name.head?.map isLowercaseLetter).getD false

/-- The line is taken for that of a device below a disk with this name. -/
structure ReadAs (entry : Entry) (name : Bytes) : Prop where
  whole : entry.cut = false
  unrecorded : entry.records = false
  letters : stripped entry.device.name = name
  filled : name ≠ []

end Entry

/-- The name of the last root that begins with a lowercase letter. -/
def lastDisk (entries : List Entry) : Option Bytes :=
  (entries.filter Entry.records).getLast?.map fun entry => entry.device.name

/-- The first line that is read as the name stands below the disk. -/
def FirstBelow (entries : List Entry) (name disk : Bytes) : Prop :=
  ∃ front found behind, entries = front ++ found :: behind ∧ found.ReadAs name ∧ (∀ entry ∈ front, ¬entry.ReadAs name) ∧
    lastDisk front = some disk

/-- The disks are roots, and the first lines that are read as the other names
stand below their roots. -/
structure Clear (forest : Forest) : Prop where
  disks : ∀ entry ∈ forest.entries, getBlkType entry.device.type = .disk → entry.root.name = entry.device.name
  others : ∀ entry ∈ forest.entries, getBlkType entry.device.type = .part ∨ getBlkType entry.device.type = .lvm →
    FirstBelow forest.entries entry.device.name entry.root.name

def Stored (tree : Bytes) (entry : Entry) : Prop :=
  ∃ scsi, doLoadOneBlk tree entry.device.listLine =
    some (some ⟨entry.device.bkey, ⟨getBlkType entry.device.type, entry.device.name, entry.root.name⟩, scsi⟩)

/-- Every disk, partition and LVM volume is stored with its root. -/
def Attributed (drawing : Drawing) (forest : Forest) : Prop :=
  ∀ entry ∈ forest.entries, getBlkType entry.device.type ≠ .invalid → Stored (lsblkTree drawing forest) entry

variable {drawing : Drawing} {entry : Entry} {byte : UInt8}

theorem nameByte_ne {other : UInt8} (isName : isNameByte byte) (different : isNameByte other = false) : byte ≠ other := by
  rintro rfl
  rw [different] at isName
  cases isName

theorem plain_tee (member : byte ∈ drawing.tee) :
    byte ≠ space ∧ byte ≠ newline ∧ byte ≠ 0 ∧ isLowercaseLetter byte = false :=
  drawing.plain byte (List.mem_append_left _ (List.mem_append_left _ member))

theorem plain_corner (member : byte ∈ drawing.corner) :
    byte ≠ space ∧ byte ≠ newline ∧ byte ≠ 0 ∧ isLowercaseLetter byte = false :=
  drawing.plain byte (List.mem_append_left _ (List.mem_append_right _ member))

theorem plain_line (member : byte ∈ drawing.line) :
    byte ≠ space ∧ byte ≠ newline ∧ byte ≠ 0 ∧ isLowercaseLetter byte = false :=
  drawing.plain byte (List.mem_append_right _ member)

theorem plain_branch {last : Bool} (member : byte ∈ drawing.branch last) :
    byte ≠ space ∧ byte ≠ newline ∧ byte ≠ 0 ∧ isLowercaseLetter byte = false := by
  cases last with
  | false => exact plain_tee member
  | true => exact plain_corner member

theorem branch_ne_nil (drawing : Drawing) (last : Bool) : drawing.branch last ≠ [] := by
  cases last with
  | false => exact drawing.filled.1
  | true => exact drawing.filled.2.1

def Entry.lead (drawing : Drawing) (entry : Entry) : Bytes :=
  match entry.place with
  | none => []
  | some (_, last) => drawing.branch last

theorem firstField_whole {word : Bytes} (filled : word ≠ []) (free : space ∉ word) : firstField word = word := by
  obtain ⟨first, rest, rfl⟩ := List.exists_cons_of_ne_nil filled
  have nonblank : first ≠ space := fun same => free (same ▸ List.mem_cons_self)
  have begins : (first :: rest).dropWhile (· = space) = first :: rest := List.dropWhile_cons_of_neg (by simpa using nonblank)
  rw [firstField, begins, List.takeWhile_eq_self_iff]
  intro byte member
  rw [decide_eq_true_eq]
  exact fun same => free (same ▸ member)

theorem firstField_cut {word : Bytes} (filled : word ≠ []) (free : space ∉ word) (rest : Bytes) :
    firstField (word ++ space :: rest) = word := by
  obtain ⟨first, more, rfl⟩ := List.exists_cons_of_ne_nil filled
  have first_nonblank : first ≠ space := fun same => free (same ▸ List.mem_cons_self)
  have begins : (first :: more ++ space :: rest).dropWhile (· = space) = first :: more ++ space :: rest :=
    List.dropWhile_cons_of_neg (by simpa using first_nonblank)
  have nonblank : ∀ byte ∈ first :: more, decide (byte ≠ space) = true := by
    intro byte member
    rw [decide_eq_true_eq]
    exact fun same => free (same ▸ member)
  rw [firstField, begins, List.takeWhile_append_of_pos nonblank, List.takeWhile_cons_of_neg (by simp), List.append_nil]

theorem firstField_indent (drawing : Drawing) (lasts : List Bool) {word : Bytes} (filled : word ≠ []) (free : space ∉ word) :
    firstField (drawing.indent lasts ++ word) = if lasts.contains false then drawing.line else word := by
  induction lasts with
  | nil => exact firstField_whole filled free
  | cons last lasts ih =>
      cases last with
      | true =>
          have blanks : drawing.indent (true :: lasts) = space :: space :: drawing.indent lasts := rfl
          rw [blanks]
          simpa [firstField] using ih
      | false =>
          have shape : drawing.indent (false :: lasts) ++ word = drawing.line ++ space :: (drawing.indent lasts ++ word) := by
            rw [Drawing.indent, List.flatMap_cons, if_neg Bool.false_ne_true, List.append_assoc, List.append_assoc]
            rfl
          have lineFree : space ∉ drawing.line := fun member => (plain_line member).1 rfl
          rw [shape, firstField_cut drawing.filled.2.2 lineFree]
          rfl

/-- What is left of a line of the tree. -/
theorem firstField_drawn (drawing : Drawing) (entry : Entry) :
    firstField (entry.drawn drawing) = if entry.cut then drawing.line else entry.lead drawing ++ entry.device.name := by
  have nameFree : space ∉ entry.device.name := fun member => nameByte_ne (entry.device.letters _ member) (by decide) rfl
  obtain ⟨root, device, place⟩ := entry
  cases place with
  | none => exact firstField_whole device.filled nameFree
  | some place =>
      obtain ⟨lasts, last⟩ := place
      refine firstField_indent drawing lasts (List.append_ne_nil_of_right_ne_nil _ device.filled) ?_
      rw [List.mem_append, not_or]
      exact ⟨fun member => (plain_branch member).1 rfl, nameFree⟩

theorem firstField_uncut (drawing : Drawing) {entry : Entry} (whole : entry.cut = false) :
    firstField (entry.drawn drawing) = entry.lead drawing ++ entry.device.name := by
  rw [firstField_drawn, whole, if_neg Bool.false_ne_true]

theorem plain_lead (member : byte ∈ entry.lead drawing) :
    byte ≠ space ∧ byte ≠ newline ∧ byte ≠ 0 ∧ isLowercaseLetter byte = false := by
  obtain ⟨root, device, place⟩ := entry
  cases place with
  | none => cases member
  | some place => exact plain_branch member

theorem length_lead (drawing : Drawing) (entry : Entry) : (entry.lead drawing).length ≤ 6 := by
  obtain ⟨root, device, place⟩ := entry
  cases place with
  | none => exact Nat.zero_le _
  | some place =>
      obtain ⟨lasts, last⟩ := place
      cases last with
      | false => exact drawing.short.1
      | true => exact drawing.short.2.1

theorem field_fits (drawing : Drawing) (entry : Entry) :
    Lineal (firstField (entry.drawn drawing)) ∧ (firstField (entry.drawn drawing)).length < lineBufLen - 1 := by
  have nameShort := entry.device.short
  have leadShort := length_lead drawing entry
  have lineShort := drawing.short.2.2
  rw [diskNameLen] at nameShort
  have plain : ∀ byte ∈ firstField (entry.drawn drawing), byte ≠ newline ∧ byte ≠ 0 := by
    intro byte member
    rw [firstField_drawn] at member
    split at member
    · obtain ⟨_, unbroken, nonzero, _⟩ := plain_line member
      exact ⟨unbroken, nonzero⟩
    · rcases List.mem_append.mp member with front | name
      · obtain ⟨_, unbroken, nonzero, _⟩ := plain_lead front
        exact ⟨unbroken, nonzero⟩
      · have isName := entry.device.letters byte name
        exact ⟨nameByte_ne isName (by decide), nameByte_ne isName (by decide)⟩
  refine ⟨⟨fun member => (plain _ member).1 rfl, fun member => (plain _ member).2 rfl⟩, ?_⟩
  rw [firstField_drawn, lineBufLen]
  split
  · omega
  · rw [List.length_append]
    omega

theorem drop_takeWhile (text : Bytes) (test : UInt8 → Bool) :
    text.drop (text.takeWhile test).length = text.dropWhile test := by
  have whole : text.takeWhile test ++ text.dropWhile test = text := List.takeWhile_append_dropWhile
  calc text.drop (text.takeWhile test).length
    _ = (text.takeWhile test ++ text.dropWhile test).drop (text.takeWhile test).length := by rw [whole]
    _ = text.dropWhile test := List.drop_left

theorem stripped_append {front : Bytes} (plain : ∀ byte ∈ front, isLowercaseLetter byte = false) (name : Bytes) :
    stripped (front ++ name) = stripped name := by
  rw [stripped, List.dropWhile_append_of_pos fun byte member => by rw [plain byte member]; rfl, stripped]

theorem getBlkName_eq (buf : Bytes) :
    getBlkName buf = if stripped buf = [] then none else some (buf.takeWhile fun byte => !isLowercaseLetter byte).length := by
  have whole : (buf.takeWhile fun byte => !isLowercaseLetter byte) ++ stripped buf = buf := List.takeWhile_append_dropWhile
  have length := congrArg List.length whole
  rw [List.length_append] at length
  rw [getBlkName]
  by_cases none : stripped buf = []
  · rw [none, List.length_nil] at length
    rw [if_pos none, if_neg (by omega)]
  · have some := List.length_pos_iff.mpr none
    rw [if_neg none, if_pos (by omega)]

theorem records_iff (entry : Entry) : entry.records ↔ entry.place = none ∧
    ∃ first rest, entry.device.name = first :: rest ∧ isLowercaseLetter first := by
  obtain ⟨first, rest, name⟩ := List.exists_cons_of_ne_nil entry.device.filled
  rw [Entry.records, Bool.and_eq_true, Option.isNone_iff_eq_none, name]
  simp

theorem lead_root (root : entry.place = none) : entry.lead drawing = [] := by
  rw [Entry.lead, root]

theorem cut_root (root : entry.place = none) : entry.cut = false := by
  rw [Entry.cut, root]

theorem not_lowercase_first (drawing : Drawing) (unrecorded : entry.records = false) :
    ∃ first rest, entry.lead drawing ++ entry.device.name = first :: rest ∧ isLowercaseLetter first = false := by
  cases place : entry.place with
  | none =>
      obtain ⟨first, rest, name⟩ := List.exists_cons_of_ne_nil entry.device.filled
      refine ⟨first, rest, by rw [lead_root place, List.nil_append, name], ?_⟩
      by_contra lowercase
      rw [Bool.not_eq_false] at lowercase
      rw [(records_iff entry).mpr ⟨place, first, rest, name, lowercase⟩] at unrecorded
      cases unrecorded
  | some lasts =>
      have filled : entry.lead drawing ≠ [] := by
        rw [Entry.lead, place]
        exact branch_ne_nil drawing lasts.2
      obtain ⟨first, rest, lead⟩ := List.exists_cons_of_ne_nil filled
      have inLead : first ∈ entry.lead drawing := lead ▸ List.mem_cons_self
      exact ⟨first, rest ++ entry.device.name, by rw [lead, List.cons_append], (plain_lead inLead).2.2.2⟩

section Line

variable (drawing : Drawing) (entry : Entry) (blkName : Bytes) (lines : List Bytes) (last : Option Bytes) (disk : Bytes)

theorem diskNameLoop_records (recorded : entry.records) :
    diskNameLoop blkName ((firstField (entry.drawn drawing) ++ [newline]) :: lines) last disk =
      diskNameLoop blkName lines (some entry.device.name) disk := by
  obtain ⟨root, first, rest, name, lowercase⟩ := (records_iff entry).mp recorded
  have field : firstField (entry.drawn drawing) = entry.device.name := by
    rw [firstField_uncut drawing (cut_root root), lead_root root, List.nil_append]
  have front : entry.device.name.takeWhile (fun byte => !isLowercaseLetter byte) = [] := by
    rw [name]
    exact List.takeWhile_cons_of_neg (by simpa using lowercase)
  have present : stripped entry.device.name ≠ [] := by
    rw [stripped, name, List.dropWhile_cons_of_neg (by simpa using lowercase)]
    exact List.cons_ne_nil _ _
  have copied : strncpy diskNameLen entry.device.name = some entry.device.name := if_pos entry.device.short
  simp only [diskNameLoop, splitNewlineSymbol_closed, field, getBlkName_eq, present, if_false, front, List.length_nil,
    if_true, copied]

/-- Any other line is compared without what stands in front of its first
lowercase letter. -/
theorem diskNameLoop_compares (whole : entry.cut = false) (unrecorded : entry.records = false) :
    diskNameLoop blkName ((firstField (entry.drawn drawing) ++ [newline]) :: lines) last disk =
      if stripped entry.device.name ≠ [] ∧ blkName = stripped entry.device.name then last
      else diskNameLoop blkName lines last disk := by
  obtain ⟨first, rest, shape, other⟩ := not_lowercase_first drawing unrecorded
  have behind : stripped (entry.lead drawing ++ entry.device.name) = stripped entry.device.name :=
    stripped_append (fun byte member => (plain_lead member).2.2.2) _
  have front : ((entry.lead drawing ++ entry.device.name).takeWhile fun byte => !isLowercaseLetter byte).length ≠ 0 := by
    rw [shape, List.takeWhile_cons_of_pos (by rw [other]; rfl)]
    exact Nat.succ_ne_zero _
  have left := (drop_takeWhile (entry.lead drawing ++ entry.device.name) fun byte => !isLowercaseLetter byte).trans behind
  simp only [diskNameLoop, splitNewlineSymbol_closed, firstField_uncut drawing whole, getBlkName_eq, behind]
  by_cases nothing : stripped entry.device.name = []
  · rw [if_pos nothing, if_neg (fun compared => compared.1 nothing)]
  · simp only [nothing, ne_eq, not_false_eq_true, true_and, if_false, front, left]

theorem diskNameLoop_reads (reads : entry.ReadAs blkName) :
    diskNameLoop blkName ((firstField (entry.drawn drawing) ++ [newline]) :: lines) last disk = last := by
  obtain ⟨whole, unrecorded, letters, filled⟩ := reads
  rw [diskNameLoop_compares drawing entry blkName lines last disk whole unrecorded, letters, if_pos ⟨filled, rfl⟩]

theorem diskNameLoop_passes (filled : blkName ≠ []) (unrecorded : entry.records = false) (other : ¬entry.ReadAs blkName) :
    diskNameLoop blkName ((firstField (entry.drawn drawing) ++ [newline]) :: lines) last disk =
      diskNameLoop blkName lines last disk := by
  cases whole : entry.cut with
  | true =>
      have field : firstField (entry.drawn drawing) = drawing.line := by
        rw [firstField_drawn, whole]
        rfl
      have nothing : stripped drawing.line = [] := by
        have plain : ∀ byte ∈ drawing.line, isLowercaseLetter byte = false := fun byte member => (plain_line member).2.2.2
        have all := stripped_append plain []
        rw [List.append_nil] at all
        exact all
      simp only [diskNameLoop, splitNewlineSymbol_closed, field, getBlkName_eq, nothing, if_true]
  | false =>
      rw [diskNameLoop_compares drawing entry blkName lines last disk whole unrecorded]
      refine if_neg fun compared => other ?_
      exact ⟨whole, unrecorded, compared.2.symm, filled⟩

end Line

theorem lastDisk_cons (entry : Entry) (entries : List Entry) :
    lastDisk (entry :: entries) = (lastDisk entries).or (if entry.records then some entry.device.name else none) := by
  rw [lastDisk, lastDisk]
  by_cases recorded : entry.records
  · rw [List.filter_cons_of_pos recorded, List.getLast?_cons, if_pos recorded]
    cases (entries.filter Entry.records).getLast? <;> rfl
  · rw [List.filter_cons_of_neg recorded, if_neg recorded, Option.or_none]

/-- The first line that is read as the name stands behind a record of the disk,
or there is none and it was recorded before. -/
def FoundBelow (entries : List Entry) (name : Bytes) (last : Option Bytes) (disk : Bytes) : Prop :=
  ∃ front found behind, entries = front ++ found :: behind ∧ found.ReadAs name ∧ (∀ entry ∈ front, ¬entry.ReadAs name) ∧
    (lastDisk front).or last = some disk

section FoundBelow

variable {entries : List Entry} {name disk : Bytes} {last : Option Bytes}

theorem foundBelow_none : FoundBelow entries name none disk ↔ FirstBelow entries name disk := by
  simp only [FoundBelow, FirstBelow, Option.or_none]

theorem not_foundBelow_nil : ¬FoundBelow [] name last disk := by
  rintro ⟨front, found, behind, shape, _⟩
  exact List.append_ne_nil_of_right_ne_nil front (List.cons_ne_nil found behind) shape.symm

theorem foundBelow_reads (reads : entry.ReadAs name) : FoundBelow (entry :: entries) name last disk ↔ last = some disk := by
  constructor
  · rintro ⟨front, found, behind, shape, _, unread, recorded⟩
    cases front with
    | nil => exact recorded
    | cons first front =>
        obtain ⟨rfl, _⟩ := List.cons.inj shape
        exact absurd reads (unread entry List.mem_cons_self)
  · rintro rfl
    exact ⟨[], entry, entries, rfl, reads, fun _ none => absurd none List.not_mem_nil, rfl⟩

/-- A line that is not read as the name is in front of what is found. -/
theorem foundBelow_cons (other : ¬entry.ReadAs name) :
    FoundBelow (entry :: entries) name last disk ↔
      FoundBelow entries name ((if entry.records then some entry.device.name else none).or last) disk := by
  constructor
  · rintro ⟨front, found, behind, shape, read, unread, recorded⟩
    cases front with
    | nil =>
        obtain ⟨rfl, _⟩ := List.cons.inj shape
        exact absurd read other
    | cons first front =>
        obtain ⟨rfl, rfl⟩ := List.cons.inj shape
        rw [lastDisk_cons, Option.or_assoc] at recorded
        exact ⟨front, found, behind, rfl, read, (List.forall_mem_cons.mp unread).2, recorded⟩
  · rintro ⟨front, found, behind, rfl, read, unread, recorded⟩
    refine ⟨entry :: front, found, behind, rfl, read, List.forall_mem_cons.mpr ⟨other, unread⟩, ?_⟩
    rw [lastDisk_cons, Option.or_assoc]
    exact recorded

end FoundBelow

/-- The loop finds the first line that is read as the name, with the disk that
was recorded before it. -/
theorem diskNameLoop_eq_some (drawing : Drawing) {blkName : Bytes} (filled : blkName ≠ []) (entries : List Entry)
    (last : Option Bytes) {result : Bytes} (present : result ≠ []) :
    diskNameLoop blkName (entries.map fun entry => firstField (entry.drawn drawing) ++ [newline]) last [] = some result ↔
      FoundBelow entries blkName last result := by
  induction entries generalizing last with
  | nil =>
      have nothing : diskNameLoop blkName [] last [] = some [] := rfl
      rw [List.map_nil, nothing, Option.some.injEq]
      exact iff_of_false (Ne.symm present) not_foundBelow_nil
  | cons entry entries ih =>
      rw [List.map_cons]
      by_cases reads : entry.ReadAs blkName
      · rw [diskNameLoop_reads drawing entry blkName _ last [] reads, foundBelow_reads reads]
      · rw [foundBelow_cons reads]
        cases recorded : entry.records with
        | true =>
            rw [diskNameLoop_records drawing entry blkName _ last [] recorded, ih]
            rfl
        | false =>
            rw [diskNameLoop_passes drawing entry blkName _ last [] filled recorded reads, ih]
            rfl

theorem doGetDiskName_eq_some (drawing : Drawing) (forest : Forest) {blkName result : Bytes} (filled : blkName ≠ [])
    (present : result ≠ []) :
    doGetDiskName (lsblkTree drawing forest) blkName [] = some result ↔ FirstBelow forest.entries blkName result := by
  have fits : ∀ line ∈ forest.entries.map fun entry => firstField (entry.drawn drawing),
      Lineal line ∧ line.length < lineBufLen - 1 := by
    intro line member
    obtain ⟨entry, _, rfl⟩ := List.mem_map.mp member
    exact field_fits drawing entry
  rw [doGetDiskName, lsblkTree, fgetsStrings_printLines fits, List.map_map]
  exact (diskNameLoop_eq_some drawing filled forest.entries none present).trans foundBelow_none

variable (device : BlkDevice)

theorem printed_short {number : Nat} (small : number < 2 ^ 31) : (ascii (toString number)).length < intLen :=
  Nat.lt_of_le_of_lt (length_printed_le (by decide) (Nat.lt_trans small (show 2 ^ 31 < 10 ^ 10 by decide))) (by decide)

theorem atoi_small {number : Nat} (small : number < 2 ^ 31) : atoi (ascii (toString number)) = Int32.ofNat number := by
  refine atoi_printed ?_
  rw [longMax]
  omega

theorem strtok_listLine :
    strtok device.listLine bar =
      [device.name, ascii (toString device.major) ++ colon :: ascii (toString device.minor), device.type] := by
  have nameFree : bar ∉ device.name := fun member => nameByte_ne (device.letters _ member) (by decide) rfl
  have numberFree (number : Nat) : bar ∉ ascii (toString number) :=
    fun member => digit_ne ((whole_printed number).digits _ member) (by decide) rfl
  have numbersFree : bar ∉ ascii (toString device.major) ++ colon :: ascii (toString device.minor) := by
    rw [List.mem_append, List.mem_cons, not_or, not_or]
    exact ⟨numberFree _, by decide, numberFree _⟩
  have shape : device.listLine = device.name ++
      bar :: ((ascii (toString device.major) ++ colon :: ascii (toString device.minor)) ++ bar :: device.type) := by
    rw [BlkDevice.listLine, List.append_assoc, List.cons_append]
  rw [shape, strtok_append, strtok_append, strtok_whole nameFree device.filled,
    strtok_whole numbersFree (List.append_ne_nil_of_right_ne_nil _ (List.cons_ne_nil _ _)),
    strtok_whole device.plain device.typed]
  rfl

theorem getMajAndMin_printed (key : BlockKey) :
    getMajAndMin (ascii (toString device.major) ++ colon :: ascii (toString device.minor)) key = some device.bkey := by
  have digits : ∀ byte ∈ ascii (toString device.major), decide (byte ≠ colon) = true := by
    intro byte member
    rw [decide_eq_true_eq]
    exact digit_ne ((whole_printed _).digits byte member) (by decide)
  have majS : (ascii (toString device.major) ++ colon :: ascii (toString device.minor)).takeWhile (fun byte => byte ≠ colon) =
      ascii (toString device.major) := by
    rw [List.takeWhile_append_of_pos digits, List.takeWhile_cons_of_neg (by simp), List.append_nil]
  have minor := List.length_pos_iff.mpr ((whole_printed device.minor).nonempty)
  have present : ¬(colon :: ascii (toString device.minor) = [] ∨ ascii (toString device.major) = [] ∨
      (colon :: ascii (toString device.minor)).length ≤ 1) := by
    rw [List.length_cons, not_or, not_or]
    exact ⟨List.cons_ne_nil _ _, (whole_printed _).nonempty, by omega⟩
  have fits : ¬(intLen ≤ (ascii (toString device.major)).length ∨
      intLen ≤ (colon :: ascii (toString device.minor)).length - 1) := by
    rw [List.length_cons, Nat.add_sub_cancel, not_or]
    exact ⟨Nat.not_le_of_lt (printed_short device.majorSmall), Nat.not_le_of_lt (printed_short device.minorSmall)⟩
  simp only [getMajAndMin, majS, List.drop_left]
  rw [if_neg present, if_neg fits, List.drop_one, List.tail_cons, atoi_small device.majorSmall, atoi_small device.minorSmall]
  rfl

theorem int32_ne_zero {number : Nat} (small : number < 2 ^ 31) (nonzero : number ≠ 0) : Int32.ofNat number ≠ 0 := by
  intro zero
  have value := congrArg Int32.toInt zero
  rw [Int32.toInt_ofNat_of_lt (by omega)] at value
  exact nonzero (Int.ofNat_eq_zero.mp value)

/-- A name, its numbers and its type, with the name of a disk for its own. -/
theorem loadTokens_listLine :
    (strtok device.listLine bar).foldlM loadToken ({}, {}) = some (device.bkey,
      { blkType := getBlkType device.type
        blkName := device.name
        diskName := if getBlkType device.type = .disk then device.name else [] }) := by
  have name : loadToken ({}, {}) device.name = some ({}, { blkName := device.name }) := by
    have copied : strncpy diskNameLen device.name = some device.name := if_pos device.short
    simp [loadToken, copied]
  have numbers : loadToken ({}, { blkName := device.name })
      (ascii (toString device.major) ++ colon :: ascii (toString device.minor)) =
        some (device.bkey, { blkName := device.name }) := by
    rw [loadToken, if_neg device.filled, if_pos ⟨rfl, rfl⟩, getMajAndMin_printed]
    rfl
  have keyed : ¬(device.bkey.major = 0 ∧ device.bkey.firstMinor = 0) := by
    rintro ⟨major, minor⟩
    rcases device.numbered with nonzero | nonzero
    · exact int32_ne_zero device.majorSmall nonzero major
    · exact int32_ne_zero device.minorSmall nonzero minor
  have type : loadToken (device.bkey, { blkName := device.name }) device.type = some (device.bkey,
      { blkType := getBlkType device.type
        blkName := device.name
        diskName := if getBlkType device.type = .disk then device.name else [] }) := by
    rw [loadToken, if_neg device.filled, if_neg keyed]
    rfl
  rw [strtok_listLine, List.foldlM_cons, name, Option.bind_eq_bind, Option.bind_some, List.foldlM_cons, numbers,
    Option.bind_eq_bind, Option.bind_some, List.foldlM_cons, type]
  rfl

theorem stored_disk_iff (tree : Bytes) {entry : Entry} (disk : getBlkType entry.device.type = .disk) :
    Stored tree entry ↔ entry.root.name = entry.device.name := by
  have loaded := loadTokens_listLine entry.device
  rw [disk, if_pos rfl] at loaded
  have stores : doLoadOneBlk tree entry.device.listLine = some (some ⟨entry.device.bkey,
      ⟨.disk, entry.device.name, entry.device.name⟩, isScsiBlock entry.device.name⟩) := by
    simp [doLoadOneBlk, loaded]
  rw [Stored, stores, disk]
  simp only [Option.some.injEq, LoadedBlk.mk.injEq, BlkNames.mk.injEq, true_and, exists_and_left, exists_eq', and_true]
  exact eq_comm

theorem stored_below_iff (drawing : Drawing) (forest : Forest) {entry : Entry}
    (below : getBlkType entry.device.type = .part ∨ getBlkType entry.device.type = .lvm) :
    Stored (lsblkTree drawing forest) entry ↔ FirstBelow forest.entries entry.device.name entry.root.name := by
  have loaded := loadTokens_listLine entry.device
  have notDisk : getBlkType entry.device.type ≠ .disk := by
    rcases below with part | lvm <;> simp [*]
  have valid : getBlkType entry.device.type ≠ .invalid := by
    rcases below with part | lvm <;> simp [*]
  rw [if_neg notDisk] at loaded
  have stores : doLoadOneBlk (lsblkTree drawing forest) entry.device.listLine =
      (doGetDiskName (lsblkTree drawing forest) entry.device.name []).map fun diskName =>
        some ⟨entry.device.bkey, ⟨getBlkType entry.device.type, entry.device.name, diskName⟩, false⟩ := by
    simp only [doLoadOneBlk, loaded, Option.bind_eq_bind, Option.bind_some, if_neg valid, if_neg notDisk]
    cases doGetDiskName (lsblkTree drawing forest) entry.device.name [] <;> rfl
  rw [Stored, stores, ← doGetDiskName_eq_some drawing forest entry.device.filled entry.root.filled]
  cases doGetDiskName (lsblkTree drawing forest) entry.device.name [] <;> simp

/-- The disks that are stored are the roots just when the forest is clear. -/
theorem disks_attributed_iff (drawing : Drawing) (forest : Forest) : Attributed drawing forest ↔ Clear forest := by
  constructor
  · intro attributed
    refine ⟨fun entry member disk => ?_, fun entry member below => ?_⟩
    · exact (stored_disk_iff _ disk).mp (attributed entry member (by rw [disk]; decide))
    · refine (stored_below_iff drawing forest below).mp (attributed entry member ?_)
      rcases below with part | lvm <;> simp [*]
  · intro clear entry member valid
    cases type : getBlkType entry.device.type with
    | invalid => exact absurd type valid
    | disk => exact (stored_disk_iff _ type).mpr (clear.disks entry member type)
    | part => exact (stored_below_iff drawing forest (.inl type)).mpr (clear.others entry member (.inl type))
    | lvm => exact (stored_below_iff drawing forest (.inr type)).mpr (clear.others entry member (.inr type))

def sda : BlkDevice where
  name := ascii "sda"
  major := 8
  minor := 0
  type := ascii "disk"
  filled := by decide
  short := by decide
  letters := by decide +kernel
  starts := by decide
  majorSmall := by decide
  minorSmall := by decide
  numbered := by decide
  typed := by decide
  plain := by decide

def volGroup : BlkDevice where
  name := ascii "VolGroup-root"
  major := 253
  minor := 0
  type := ascii "lvm"
  filled := by decide
  short := by decide
  letters := by decide +kernel
  starts := by decide
  majorSmall := by decide
  minorSmall := by decide
  numbered := by decide
  typed := by decide
  plain := by decide

def volumeForest : Forest := .cons sda (.cons volGroup .nil .nil) .nil

/-- The name of the volume is stripped to "olGroup-root", and no disk is stored for it. -/
theorem capital_volume_lost :
    (doLoadOneBlk (lsblkTree .utf8 volumeForest) volGroup.listLine).map (Option.map LoadedBlk.bdata) =
        some (some ⟨.lvm, ascii "VolGroup-root", []⟩) ∧
      ¬Attributed .utf8 volumeForest := by
  have stored : (doLoadOneBlk (lsblkTree .utf8 volumeForest) volGroup.listLine).map (Option.map LoadedBlk.bdata) =
      some (some ⟨.lvm, ascii "VolGroup-root", []⟩) := by decide +kernel
  refine ⟨stored, fun attributed => ?_⟩
  have member : (⟨sda, volGroup, some ([], true)⟩ : Entry) ∈ volumeForest.entries :=
    List.mem_cons_of_mem _ List.mem_cons_self
  obtain ⟨scsi, own⟩ := attributed _ member (by decide)
  rw [own] at stored
  have disk : ascii "sda" = [] := congrArg BlkNames.diskName (Option.some.inj (Option.some.inj stored))
  exact absurd disk (by decide)

end GalaGopher.Ebpf.Block

import GalaGopher.Text.Bytes

namespace GalaGopher.Ebpf.ElfReader

open Text

structure Sym where
  stName : UInt32
  stInfo : UInt8
  stValue : UInt64

/-- A block of a section; the index of an entry is an `int`, which no block in
memory outgrows. -/
structure ElfData where
  dSize : Nat
  getsym : Nat → Option Sym

structure SectionHeader where
  shType : UInt32
  shLink : UInt32
  shEntsize : UInt64

structure ElfSection where
  header : Option SectionHeader
  data : List ElfData

structure ProgramHeader where
  pType : UInt32
  pFlags : UInt32
  pVaddr : UInt64
  pOffset : UInt64
  pMemsz : UInt64

/-- A file as the library enumerates it.  What cannot be read is `none`. -/
structure ElfFile where
  eType : Option UInt16
  sections : List ElfSection
  strptr : UInt32 → UInt32 → Option Bytes
  phdrs : Option (List (Option ProgramHeader))

def etExec : UInt16 := 2

def etDyn : UInt16 := 3

def shtSymtab : UInt32 := 2

def shtDynsym : UInt32 := 11

def ptLoad : UInt32 := 1

def pfX : UInt32 := 1

/-- `BCC_SYM_ALL_TYPES` -/
def bccSymAllTypes : UInt32 := 65535

/-- `ELF_ST_TYPE` -/
def elfStType (stInfo : UInt8) : UInt32 := stInfo.toUInt32 &&& 0xf

/-- The bit of the symbol's type in the mask. -/
def allowed (useSymbolType : UInt32) (sym : Sym) : Bool := useSymbolType &&& (1 <<< elfStType sym.stInfo) ≠ 0

/-- What one turn over the entries hands to `_find_sym`, and what this keeps. -/
def symbolAt (file : ElfFile) (useSymbolType : UInt32) (symName : Bytes) (stridx : UInt32) (data : ElfData) (i : Nat) :
    Option UInt64 :=
  match data.getsym i with
  | none => none
  | some sym =>
      match file.strptr stridx sym.stName with
      | none => none
      | some name =>
          if name = [] then none
          else if sym.stValue = 0 then none
          else if !allowed useSymbolType sym then none
          else if symName = name then some sym.stValue
          else none

/-- How a list ends: with 1 and the symbol found, with -1, or with 0. -/
inductive Listed where
  | found (offset : UInt64)
  | stopped
  | finished
deriving DecidableEq

section Search

variable (file : ElfFile) (useSymbolType : UInt32) (symName : Bytes)

/-- The loop of `__list_in_scn`. -/
def listBlocks (stridx : UInt32) (symsize : Nat) : List ElfData → Listed
  | [] => .finished
  | data :: rest =>
      if data.dSize % symsize ≠ 0 then .stopped
      else
        match (List.range (data.dSize / symsize)).findSome? (symbolAt file useSymbolType symName stridx data) with
        | some offset => .found offset
        | none => listBlocks stridx symsize rest

def listInScn (stridx : UInt32) (symsize : Nat) (data : List ElfData) : Listed :=
  if symsize = 0 then .stopped else listBlocks file useSymbolType symName stridx symsize data

def listSymbols : List ElfSection → Listed
  | [] => .finished
  | section_ :: rest =>
      match section_.header with
      | none => listSymbols rest
      | some header =>
          if header.shType ≠ shtSymtab ∧ header.shType ≠ shtDynsym then listSymbols rest
          else
            match listInScn file useSymbolType symName header.shLink header.shEntsize.toNat section_.data with
            | .found offset => .found offset
            | .stopped => .stopped
            | .finished => listSymbols rest

/-- The offset that is left in `sym`; how the list ends is dropped. -/
def foreachSymCore : UInt64 :=
  match listSymbols file useSymbolType symName file.sections with
  | .found offset => offset
  | .stopped => 0
  | .finished => 0

end Search

structure LoadInfo where
  binaryVaddr : UInt64 := 0
  binaryMemsz : UInt64 := 0
  binaryOffset : UInt64 := 0

/-- The first executable segment that is loaded. -/
def loadSection : List (Option ProgramHeader) → LoadInfo
  | [] => {}
  | none :: rest => loadSection rest
  | some header :: rest =>
      if header.pType ≠ ptLoad ∨ header.pFlags &&& pfX = 0 then loadSection rest
      else { binaryVaddr := header.pVaddr, binaryMemsz := header.pMemsz, binaryOffset := header.pOffset }

/-- What is written to `sym_offset` where 0 is returned. `file` is what opens
under the path, and the option is its mask. -/
def resolveSymbolInfos (file : Option ElfFile) (symName : Bytes) (option : Option UInt32) : Option UInt64 := do
  let file ← file
  let symOffset := foreachSymCore file (option.getD bccSymAllTypes) symName
  if symOffset = 0 then none
  else
    let load ←
      if file.eType = some etExec ∨ file.eType = some etDyn then file.phdrs.map loadSection else some {}
    if symOffset ≥ load.binaryVaddr ∧ symOffset < load.binaryVaddr + load.binaryMemsz then
      some (symOffset - load.binaryVaddr + load.binaryOffset)
    else none

/-- A symbol with its name. -/
structure Entry where
  name : Option Bytes
  sym : Sym

/-- A stretch of entries; `broken` is one whose table has no size of an entry,
or that does not end with an entry. -/
structure Block where
  broken : Bool
  entries : List Entry

namespace ElfFile

variable (file : ElfFile)

def dataEntries (stridx : UInt32) (symsize : Nat) (data : ElfData) : List Entry :=
  (List.range (data.dSize / symsize)).filterMap fun i =>
    (data.getsym i).map fun sym => { name := file.strptr stridx sym.stName, sym }

def tableBlocks (header : SectionHeader) (data : List ElfData) : List Block :=
  if header.shEntsize.toNat = 0 then [{ broken := true, entries := [] }]
  else
    data.map fun data =>
      { broken := data.dSize % header.shEntsize.toNat ≠ 0
        entries := file.dataEntries header.shLink header.shEntsize.toNat data }

def sectionBlocks (section_ : ElfSection) : List Block :=
  match section_.header with
  | none => []
  | some header =>
      if header.shType = shtSymtab ∨ header.shType = shtDynsym then file.tableBlocks header section_.data else []

def blocks : List Block := file.sections.flatMap file.sectionBlocks

def entries : List Entry := file.blocks.flatMap Block.entries

/-- The entries in front of the first broken block. -/
def soundEntries : List Entry := (file.blocks.takeWhile fun block => !block.broken).flatMap Block.entries

/-- The executable segments that are loaded. -/
def executable : List ProgramHeader :=
  ((file.phdrs.getD []).filterMap id).filter fun header => header.pType = ptLoad ∧ header.pFlags &&& pfX ≠ 0

end ElfFile

/-- The value of an entry with the name, another value than 0 and an allowed
type. -/
def Entry.valueOf (useSymbolType : UInt32) (symName : Bytes) (entry : Entry) : Option UInt64 :=
  if entry.name = some symName ∧ entry.sym.stValue ≠ 0 ∧ allowed useSymbolType entry.sym then some entry.sym.stValue
  else none

def firstValue (useSymbolType : UInt32) (symName : Bytes) (entries : List Entry) : Option UInt64 :=
  entries.findSome? (Entry.valueOf useSymbolType symName)

def ProgramHeader.Holds (header : ProgramHeader) (value : UInt64) : Prop :=
  header.pVaddr.toNat ≤ value.toNat ∧ value.toNat < header.pVaddr.toNat + header.pMemsz.toNat

variable {file : ElfFile} {useSymbolType : UInt32} {symName : Bytes}

theorem symbolAt_eq (named : symName ≠ []) (stridx : UInt32) (data : ElfData) (i : Nat) :
    symbolAt file useSymbolType symName stridx data i =
      ((data.getsym i).map fun sym => ({ name := file.strptr stridx sym.stName, sym } : Entry)).bind
        (Entry.valueOf useSymbolType symName) := by
  rw [symbolAt]
  cases data.getsym i with
  | none => rfl
  | some sym =>
      simp only [Option.map_some, Option.bind_some, Entry.valueOf]
      cases file.strptr stridx sym.stName with
      | none => simp
      | some name =>
          by_cases same : symName = name
          · simp [← same, named]
            cases allowed useSymbolType sym <;> by_cases zero : sym.stValue = 0 <;> simp [zero]
          · have different : name ≠ symName := fun equal => same equal.symm
            simp [same, different]

theorem findSome?_bind {α β γ : Type} (f : α → Option β) (g : β → Option γ) (items : List α) :
    items.findSome? (fun item => (f item).bind g) = (items.filterMap f).findSome? g := by
  induction items with
  | nil => rfl
  | cons item rest ih =>
      rw [List.findSome?_cons, List.filterMap_cons]
      cases f item with
      | none => exact ih
      | some value =>
          rw [Option.bind_some, List.findSome?_cons]
          cases g value with
          | none => exact ih
          | some result => rfl

theorem symbolAt_empty (stridx : UInt32) (data : ElfData) (i : Nat) :
    symbolAt file useSymbolType [] stridx data i = none := by
  rw [symbolAt]
  cases data.getsym i with
  | none => rfl
  | some sym =>
      simp only
      cases file.strptr stridx sym.stName with
      | none => rfl
      | some name =>
          by_cases empty : name = []
          · simp [empty]
          · have different : [] ≠ name := fun equal => empty equal.symm
            simp [different]

/-- What is found among blocks, one after the other. -/
def searchBlocks (useSymbolType : UInt32) (symName : Bytes) : List Block → Listed
  | [] => .finished
  | block :: rest =>
      if block.broken then .stopped
      else
        match firstValue useSymbolType symName block.entries with
        | some offset => .found offset
        | none => searchBlocks useSymbolType symName rest

theorem searchBlocks_append (before after : List Block) :
    searchBlocks useSymbolType symName (before ++ after) =
      match searchBlocks useSymbolType symName before with
      | .found offset => .found offset
      | .stopped => .stopped
      | .finished => searchBlocks useSymbolType symName after := by
  induction before with
  | nil => rfl
  | cons block rest ih =>
      rw [List.cons_append, searchBlocks, searchBlocks]
      cases block.broken with
      | true => rfl
      | false =>
          cases firstValue useSymbolType symName block.entries with
          | some offset => rfl
          | none => exact ih

theorem range_found (named : symName ≠ []) (stridx : UInt32) (symsize : Nat) (data : ElfData) :
    (List.range (data.dSize / symsize)).findSome? (symbolAt file useSymbolType symName stridx data) =
      firstValue useSymbolType symName (file.dataEntries stridx symsize data) := by
  rw [funext (symbolAt_eq named stridx data), findSome?_bind]
  rfl

theorem listInScn_eq (named : symName ≠ []) (header : SectionHeader) (data : List ElfData) :
    listInScn file useSymbolType symName header.shLink header.shEntsize.toNat data =
      searchBlocks useSymbolType symName (file.tableBlocks header data) := by
  rw [listInScn, ElfFile.tableBlocks]
  by_cases zero : header.shEntsize.toNat = 0
  · rw [if_pos zero, if_pos zero]
    rfl
  · rw [if_neg zero, if_neg zero]
    induction data with
    | nil => rfl
    | cons data rest ih =>
        rw [listBlocks, List.map_cons, searchBlocks, range_found named]
        by_cases broken : data.dSize % header.shEntsize.toNat = 0
        · simp only [broken, ne_eq, not_true_eq_false, if_false, decide_false, Bool.false_eq_true]
          cases firstValue useSymbolType symName (file.dataEntries header.shLink header.shEntsize.toNat data) with
          | some offset => rfl
          | none => exact ih
        · simp [broken]

theorem listSymbols_eq (named : symName ≠ []) (sections : List ElfSection) :
    listSymbols file useSymbolType symName sections =
      searchBlocks useSymbolType symName (sections.flatMap file.sectionBlocks) := by
  induction sections with
  | nil => rfl
  | cons section_ rest ih =>
      rw [listSymbols, List.flatMap_cons, searchBlocks_append, ElfFile.sectionBlocks, ih]
      cases section_.header with
      | none => rfl
      | some header =>
          by_cases table : header.shType = shtSymtab ∨ header.shType = shtDynsym
          · have kept : ¬ (header.shType ≠ shtSymtab ∧ header.shType ≠ shtDynsym) := by
              rwa [not_and_or, not_not, not_not]
            simp only [if_neg kept, if_pos table, listInScn_eq named]
          · simp only [if_pos (not_or.mp table), if_neg table]
            rfl

theorem listInScn_empty (stridx : UInt32) (symsize : Nat) (data : List ElfData) (offset : UInt64) :
    listInScn file useSymbolType [] stridx symsize data ≠ .found offset := by
  rw [listInScn]
  split
  · simp
  · induction data with
    | nil => simp [listBlocks]
    | cons data rest ih =>
        have nothing : (List.range (data.dSize / symsize)).findSome? (symbolAt file useSymbolType [] stridx data) = none :=
          List.findSome?_eq_none_iff.mpr fun i _ => symbolAt_empty stridx data i
        rw [listBlocks, nothing]
        split
        · simp
        · exact ih

theorem listSymbols_empty (sections : List ElfSection) (offset : UInt64) :
    listSymbols file useSymbolType [] sections ≠ .found offset := by
  induction sections with
  | nil => simp [listSymbols]
  | cons section_ rest ih =>
      rw [listSymbols]
      cases section_.header with
      | none => exact ih
      | some header =>
          simp only
          split
          · exact ih
          · cases ended : listInScn file useSymbolType [] header.shLink header.shEntsize.toNat section_.data with
            | found found => exact absurd ended (listInScn_empty _ _ _ found)
            | stopped => simp
            | finished => exact ih

theorem firstValue_append (before after : List Entry) :
    firstValue useSymbolType symName (before ++ after) =
      (firstValue useSymbolType symName before).or (firstValue useSymbolType symName after) :=
  List.findSome?_append

theorem searchBlocks_found_iff (blocks : List Block) (offset : UInt64) :
    searchBlocks useSymbolType symName blocks = .found offset ↔
      firstValue useSymbolType symName ((blocks.takeWhile fun block => !block.broken).flatMap Block.entries) =
        some offset := by
  induction blocks with
  | nil => simp [searchBlocks, firstValue]
  | cons block rest ih =>
      rw [searchBlocks]
      cases broken : block.broken with
      | true => simp [broken, firstValue]
      | false =>
          rw [List.takeWhile_cons_of_pos (by rw [broken]; rfl), List.flatMap_cons, firstValue_append,
            if_neg Bool.false_ne_true]
          cases firstValue useSymbolType symName block.entries with
          | some first => simp
          | none => exact ih

/-- What `_find_sym` has kept in the end. -/
theorem foreachSymCore_eq (file : ElfFile) (useSymbolType : UInt32) (symName : Bytes) :
    foreachSymCore file useSymbolType symName =
      if symName = [] then 0 else (firstValue useSymbolType symName file.soundEntries).getD 0 := by
  rw [foreachSymCore]
  by_cases named : symName = []
  · rw [if_pos named, named]
    cases ended : listSymbols file useSymbolType [] file.sections with
    | found offset => exact absurd ended (listSymbols_empty _ offset)
    | stopped => rfl
    | finished => rfl
  · have found_iff (offset : UInt64) : searchBlocks useSymbolType symName file.blocks = .found offset ↔ _ :=
      searchBlocks_found_iff file.blocks offset
    rw [if_neg named, listSymbols_eq named, ElfFile.soundEntries, ← ElfFile.blocks]
    cases first : firstValue useSymbolType symName
        ((file.blocks.takeWhile fun block => !block.broken).flatMap Block.entries) with
    | some offset => rw [(found_iff offset).mpr first, Option.getD_some]
    | none =>
        cases ended : searchBlocks useSymbolType symName file.blocks with
        | found offset =>
            rw [(found_iff offset).mp ended] at first
            cases first
        | stopped => rfl
        | finished => rfl

/-- What is found first in front of a broken block is first. -/
theorem firstValue_sound {value : UInt64} (first : firstValue useSymbolType symName file.soundEntries = some value) :
    firstValue useSymbolType symName file.entries = some value := by
  have whole : file.blocks = (file.blocks.takeWhile fun block => !block.broken) ++
      file.blocks.dropWhile fun block => !block.broken := List.takeWhile_append_dropWhile.symm
  rw [ElfFile.entries, whole, List.flatMap_append, firstValue_append, ← ElfFile.soundEntries, first, Option.some_or]

theorem firstValue_nonzero {entries : List Entry} {value : UInt64}
    (first : firstValue useSymbolType symName entries = some value) : value ≠ 0 := by
  obtain ⟨before, entry, after, _, valueOf, _⟩ := List.findSome?_eq_some_iff.mp first
  rw [Entry.valueOf] at valueOf
  split at valueOf
  · rename_i matching
    rw [← Option.some.inj valueOf]
    exact matching.2.1
  · cases valueOf

theorem loadSection_eq (phdrs : List (Option ProgramHeader)) :
    loadSection phdrs =
      match ((phdrs.filterMap id).filter fun header => header.pType = ptLoad ∧ header.pFlags &&& pfX ≠ 0).head? with
      | none => {}
      | some header =>
          { binaryVaddr := header.pVaddr, binaryMemsz := header.pMemsz, binaryOffset := header.pOffset } := by
  induction phdrs with
  | nil => rfl
  | cons phdr rest ih =>
      cases phdr with
      | none => exact ih
      | some header =>
          rw [loadSection]
          by_cases other : header.pType ≠ ptLoad ∨ header.pFlags &&& pfX = 0
          · have skipped : ¬ (header.pType = ptLoad ∧ header.pFlags &&& pfX ≠ 0) := by
              rwa [not_and_or, not_not]
            rw [if_pos other, ih]
            simp [skipped]
          · have taken : header.pType = ptLoad ∧ header.pFlags &&& pfX ≠ 0 := by
              rwa [not_or, not_not] at other
            rw [if_neg other]
            simp [taken]

/-- The test on addresses of 64 bits, where the segment does not wrap. -/
theorem beyond_iff {header : ProgramHeader} (fits : header.pVaddr.toNat + header.pMemsz.toNat ≤ 2 ^ 64) (value : UInt64) :
    (value ≥ header.pVaddr ∧ value < header.pVaddr + header.pMemsz) ↔
      header.Holds value ∧ header.pVaddr.toNat + header.pMemsz.toNat < 2 ^ 64 := by
  rw [ge_iff_le, UInt64.le_iff_toNat_le, UInt64.lt_iff_toNat_lt, UInt64.toNat_add, ProgramHeader.Holds]
  rcases Nat.lt_or_eq_of_le fits with below | ends
  · rw [Nat.mod_eq_of_lt below]
    exact (and_iff_left below).symm
  · rw [ends, Nat.mod_self]
    exact iff_of_false (fun both => Nat.not_lt_zero _ both.2) fun both => Nat.lt_irrefl _ both.2

theorem resolveSymbolInfos_iff {option : Option UInt32} (type : file.eType = some etExec ∨ file.eType = some etDyn)
    (offset : UInt64) :
    resolveSymbolInfos (some file) symName option = some offset ↔
      symName ≠ [] ∧ ∃ value header, firstValue (option.getD bccSymAllTypes) symName file.soundEntries = some value ∧
        file.executable.head? = some header ∧ (value ≥ header.pVaddr ∧ value < header.pVaddr + header.pMemsz) ∧
        offset = value - header.pVaddr + header.pOffset := by
  rw [resolveSymbolInfos]
  simp only [Option.bind_eq_bind, Option.bind_some, foreachSymCore_eq, if_pos type]
  by_cases named : symName = []
  · simp [named]
  · rw [if_neg named]
    cases first : firstValue (option.getD bccSymAllTypes) symName file.soundEntries with
    | none => simp
    | some value =>
        rw [Option.getD_some, if_neg (firstValue_nonzero first), ElfFile.executable]
        cases file.phdrs with
        | none => simp
        | some phdrs =>
            rw [Option.map_some, Option.bind_some, loadSection_eq, Option.getD_some]
            cases head : ((phdrs.filterMap id).filter fun header =>
                header.pType = ptLoad ∧ header.pFlags &&& pfX ≠ 0).head? with
            | none => simp
            | some header => simp [named, eq_comm]

/-- The first symbol of the name. -/
structure Translates (file : ElfFile) (useSymbolType : UInt32) (symName : Bytes) (symOffset : Option UInt64) : Prop where
  sound : ∀ offset, symOffset = some offset → ∃ value, firstValue useSymbolType symName file.entries = some value ∧
    ∃ header ∈ file.executable, header.Holds value ∧ offset = value - header.pVaddr + header.pOffset
  complete : (∃ value, firstValue useSymbolType symName file.entries = some value ∧
    ∃ header ∈ file.executable, header.Holds value) → symOffset.isSome

/-- If the first symbol of the name lies in an executable segment, its name is
not empty, it stands in front of every broken block, and the first executable
segment holds it and ends below 2^64. -/
def Reachable (file : ElfFile) (useSymbolType : UInt32) (symName : Bytes) : Prop :=
  ∀ value, firstValue useSymbolType symName file.entries = some value →
    (∃ header ∈ file.executable, header.Holds value) →
    symName ≠ [] ∧ (firstValue useSymbolType symName file.soundEntries).isSome ∧
      ∃ header, file.executable.head? = some header ∧ header.Holds value ∧
        header.pVaddr.toNat + header.pMemsz.toNat < 2 ^ 64

theorem translates_iff_reachable (file : ElfFile) (symName : Bytes) (option : Option UInt32)
    (type : file.eType = some etExec ∨ file.eType = some etDyn)
    (fits : ∀ header ∈ file.executable, header.pVaddr.toNat + header.pMemsz.toNat ≤ 2 ^ 64) :
    Translates file (option.getD bccSymAllTypes) symName (resolveSymbolInfos (some file) symName option) ↔
      Reachable file (option.getD bccSymAllTypes) symName := by
  constructor
  · intro translates value first inside
    obtain ⟨offset, resolved⟩ := Option.isSome_iff_exists.mp (translates.complete ⟨value, first, inside⟩)
    obtain ⟨named, found, header, sound, head, within, _⟩ := (resolveSymbolInfos_iff type offset).mp resolved
    have same := firstValue_sound sound
    rw [first, Option.some.injEq] at same
    rw [← same, beyond_iff (fits header (List.mem_of_head? head))] at within
    exact ⟨named, by rw [sound]; rfl, header, head, within.1, within.2⟩
  · intro reachable
    refine ⟨fun offset resolved => ?_, ?_⟩
    · obtain ⟨_, value, header, sound, head, within, translated⟩ := (resolveSymbolInfos_iff type offset).mp resolved
      have member := List.mem_of_head? head
      rw [beyond_iff (fits header member)] at within
      exact ⟨value, firstValue_sound sound, header, member, within.1, translated⟩
    · rintro ⟨value, first, inside⟩
      obtain ⟨named, front, header, head, holds, below⟩ := reachable value first inside
      obtain ⟨found, sound⟩ := Option.isSome_iff_exists.mp front
      have same := firstValue_sound sound
      rw [first, Option.some.injEq] at same
      have within := (beyond_iff (fits header (List.mem_of_head? head)) value).mpr ⟨holds, below⟩
      rw [(resolveSymbolInfos_iff type (value - header.pVaddr + header.pOffset)).mpr
        ⟨named, value, header, same ▸ sound, head, within, rfl⟩]
      rfl

/-- `main` in a table of one entry. -/
def oneSymbol (value : UInt64) (segments : List ProgramHeader) : ElfFile where
  eType := some etDyn
  sections :=
    [{ header := some { shType := shtSymtab, shLink := 1, shEntsize := 24 }
       data := [{ dSize := 24, getsym := fun _ => some { stName := 1, stInfo := 2, stValue := value } }] }]
  strptr := fun _ _ => some (ascii "main")
  phdrs := some (segments.map some)

def text (pVaddr pOffset : UInt64) : ProgramHeader where
  pType := ptLoad
  pFlags := pfX
  pVaddr := pVaddr
  pOffset := pOffset
  pMemsz := 0x1000

/-- Behind the strings a table of `init`, an entry without a value and `main`,
and a data segment in front of the text. -/
def twoSymbols : ElfFile where
  eType := some etExec
  sections :=
    [{ header := some { shType := 3, shLink := 0, shEntsize := 0 }, data := [] },
      { header := some { shType := shtSymtab, shLink := 1, shEntsize := 24 }
        data := [
          { dSize := 24, getsym := fun _ => some { stName := 1, stInfo := 2, stValue := 0x1000 } },
          { dSize := 48, getsym := fun i => some { stName := 6, stInfo := 2, stValue := if i = 0 then 0 else 0x1040 } }] }]
  strptr := fun _ name => some (if name = 1 then ascii "init" else ascii "main")
  phdrs := some [some { text 0x4000 0x3000 with pFlags := 6 }, some (text 0x1000 0x200)]

theorem translates_two :
    resolveSymbolInfos (some twoSymbols) (ascii "main") none = some 0x240 ∧
      (Translates twoSymbols bccSymAllTypes (ascii "main") (resolveSymbolInfos (some twoSymbols) (ascii "main") none) ↔
        Reachable twoSymbols bccSymAllTypes (ascii "main")) :=
  ⟨by decide, translates_iff_reachable _ _ none (.inl rfl) (by decide)⟩

/-- A symbol in the second of two executable segments. -/
theorem second_segment_missed :
    ¬ Translates (oneSymbol 0x3040 [text 0x1000 0x200, text 0x3000 0x1200]) bccSymAllTypes (ascii "main")
        (resolveSymbolInfos (some (oneSymbol 0x3040 [text 0x1000 0x200, text 0x3000 0x1200])) (ascii "main") none) := by
  intro translates
  have resolved := translates.complete
    ⟨0x3040, by decide, text 0x3000 0x1200, by simp [oneSymbol, text, ElfFile.executable, pfX], by decide, by decide⟩
  exact absurd resolved (by decide)

end GalaGopher.Ebpf.ElfReader

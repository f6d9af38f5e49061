import GalaGopher.Text.Lines
import GalaGopher.Text.Options

namespace GalaGopher.Ebpf.Block

open Text

def diskNameLen : Nat := 32

def intLen : Nat := 32

def lineBufLen : Nat := 512

def colon : UInt8 := 58

inductive BlkType where
  | invalid
  | disk
  | part
  | lvm
deriving DecidableEq

/-- `struct block_key` -/
structure BlockKey where
  major : Int32 := 0
  firstMinor : Int32 := 0
deriving DecidableEq

/-- The fields of `struct block_data` that are loaded. -/
structure BlkNames where
  blkType : BlkType := .invalid
  blkName : Bytes := []
  diskName : Bytes := []
deriving DecidableEq

/-- A string copied to an array, with its terminator; without one it is of no
use. -/
def strncpy (size : Nat) (text : Bytes) : Option Bytes := if text.length < size then some text else none

def isLowercaseLetter (byte : UInt8) : Bool := 97 ≤ byte && byte ≤ 122

/-- Where the first lowercase letter is. -/
def getBlkName (buf : Bytes) : Option Nat :=
  let pos := (buf.takeWhile fun byte => !isLowercaseLetter byte).length
  if pos < buf.length then some pos else none

/-- The loop of `__do_get_disk_name`, with the disk name recorded last; `none`
is a name that was never set. -/
def diskNameLoop (blkName : Bytes) : List Bytes → Option Bytes → Bytes → Option Bytes
  | [], _, disk => some disk
  | line :: lines, diskName, disk =>
      let line := splitNewlineSymbol line
      match getBlkName line with
      | none => diskNameLoop blkName lines diskName disk
      | some pos =>
          if pos = 0 then diskNameLoop blkName lines (strncpy diskNameLen line) disk
          else if blkName = line.drop pos then diskName
          else diskNameLoop blkName lines diskName disk

/-- `tree` is what the tree command prints. -/
def doGetDiskName (tree blkName disk : Bytes) : Option Bytes :=
  diskNameLoop blkName (fgetsStrings lineBufLen tree) none disk

/-- `none` is a write outside of the two buffers. -/
def getMajAndMin (buf : Bytes) (key : BlockKey) : Option BlockKey :=
  let majS := buf.takeWhile fun byte => byte ≠ colon
  let rest := buf.drop majS.length
  if rest = [] ∨ majS = [] ∨ rest.length ≤ 1 then some key
  else if intLen ≤ majS.length ∨ intLen ≤ rest.length - 1 then none
  else some ⟨atoi majS, atoi (rest.drop 1)⟩

def getBlkType (buf : Bytes) : BlkType :=
  if buf = ascii "disk" then .disk
  else if buf = ascii "part" then .part
  else if buf = ascii "lvm" then .lvm
  else .invalid

/-- One turn over the tokens of a line. -/
def loadToken (state : BlockKey × BlkNames) (p : Bytes) : Option (BlockKey × BlkNames) :=
  let (bkey, bdata) := state
  if bdata.blkName = [] then (strncpy diskNameLen p).map fun name => (bkey, { bdata with blkName := name })
  else if bkey.major = 0 ∧ bkey.firstMinor = 0 then (getMajAndMin p bkey).map fun bkey => (bkey, bdata)
  else
    let blkType := if bdata.blkType = .invalid then getBlkType p else bdata.blkType
    some (bkey, { bdata with blkType, diskName := if blkType = .disk then bdata.blkName else bdata.diskName })

/-- What is stored, and whether the key is that of the SCSI block too. -/
structure LoadedBlk where
  bkey : BlockKey
  bdata : BlkNames
  scsi : Bool

def isScsiBlock (name : Bytes) : Bool := name[0]? = some 115 && name[1]? = some 100

/-- `none` is a call without a meaning, and `some none` stores nothing. -/
def doLoadOneBlk (tree buf : Bytes) : Option (Option LoadedBlk) := do
  let (bkey, bdata) ← (strtok buf bar).foldlM loadToken ({}, {})
  if bdata.blkType = .invalid then some none
  else if bdata.blkType = .disk then some (some ⟨bkey, bdata, isScsiBlock bdata.blkName⟩)
  else
    let diskName ← doGetDiskName tree bdata.blkName bdata.diskName
    some (some ⟨bkey, { bdata with diskName }, false⟩)

def isNameByte (byte : UInt8) : Bool :=
  isLowercaseLetter byte || (65 ≤ byte && byte ≤ 90) || isDigit byte || byte = dash || byte = 95

structure BlkDevice where
  name : Bytes
  major : Nat
  minor : Nat
  type : Bytes
  filled : name ≠ []
  short : name.length < diskNameLen
  letters : ∀ byte ∈ name, isNameByte byte
  starts : name.head? ≠ some dash ∧ name.head? ≠ some 95
  majorSmall : major < 2 ^ 31
  minorSmall : minor < 2 ^ 31
  numbered : major ≠ 0 ∨ minor ≠ 0
  typed : type ≠ []
  plain : bar ∉ type

namespace BlkDevice

/-- `"name|major:minor|type"` -/
def listLine (device : BlkDevice) : Bytes :=
  device.name ++ bar :: (ascii (toString device.major) ++ colon :: (ascii (toString device.minor) ++ bar :: device.type))

def bkey (device : BlkDevice) : BlockKey := ⟨Int32.ofNat device.major, Int32.ofNat device.minor⟩

end BlkDevice

/-- The first children of the devices and their siblings behind them. -/
inductive Forest where
  | nil
  | cons (device : BlkDevice) (children siblings : Forest)

def Forest.isNil : Forest → Bool
  | nil => true
  | cons _ _ _ => false

/-- A device with its root.  A device below its root has for each ancestor there,
and for itself, whether it is the last of its siblings. -/
structure Entry where
  root : BlkDevice
  device : BlkDevice
  place : Option (List Bool × Bool)

namespace Forest

def belowRoot (root : BlkDevice) : List Bool → Forest → List Entry
  | _, nil => []
  | lasts, cons device children siblings =>
      ⟨root, device, some (lasts, siblings.isNil)⟩ ::
        (belowRoot root (lasts ++ [siblings.isNil]) children ++ belowRoot root lasts siblings)

def entries : Forest → List Entry
  | nil => []
  | cons device children siblings => ⟨device, device, none⟩ :: (belowRoot device [] children ++ siblings.entries)

end Forest

structure Drawing where
  tee : Bytes
  corner : Bytes
  line : Bytes
  short : tee.length ≤ 6 ∧ corner.length ≤ 6 ∧ line.length ≤ 6
  filled : tee ≠ [] ∧ corner ≠ [] ∧ line ≠ []
  plain : ∀ byte ∈ tee ++ corner ++ line, byte ≠ space ∧ byte ≠ newline ∧ byte ≠ 0 ∧ isLowercaseLetter byte = false

namespace Drawing

def utf8 : Drawing where
  tee := [226, 148, 156, 226, 148, 128]
  corner := [226, 148, 148, 226, 148, 128]
  line := [226, 148, 130]
  short := by decide
  filled := by decide
  plain := by decide +kernel

/-- What stands below the ancestors. -/
def indent (drawing : Drawing) (lasts : List Bool) : Bytes :=
  lasts.flatMap fun last => if last then [space, space] else drawing.line ++ [space]

def branch (drawing : Drawing) (last : Bool) : Bytes := if last then drawing.corner else drawing.tee

end Drawing

/-- The name of a device as it is drawn. -/
def Entry.drawn (drawing : Drawing) (entry : Entry) : Bytes :=
  match entry.place with
  | none => entry.device.name
  | some (lasts, last) => drawing.indent lasts ++ (drawing.branch last ++ entry.device.name)

/-- `$1`; the columns behind the name are parted from it by blanks. -/
def firstField (line : Bytes) : Bytes := (line.dropWhile (· = space)).takeWhile (· ≠ space)

/-- `LSBLK_TREE_CMD` -/
def lsblkTree (drawing : Drawing) (forest : Forest) : Bytes :=
  printLines (forest.entries.map fun entry => firstField (entry.drawn drawing))

end GalaGopher.Ebpf.Block

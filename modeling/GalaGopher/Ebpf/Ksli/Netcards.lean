import GalaGopher.Text.Lines
import GalaGopher.Text.Options

namespace GalaGopher.Ebpf.Ksli

open Text

/-! The network cards that get the ingress program, and the commands that load
it. -/

def nameMax : Nat := 255

def maxCmdLen : Nat := 256 + nameMax

def maxPathLen : Nat := 512

def comma : UInt8 := 44

def colon : UInt8 := 58

/-- A format with one `%s`. -/
structure Format where
  front : Bytes
  back : Bytes

def Format.print (format : Format) (ethdev : Bytes) : CharArray maxCmdLen :=
  .ofText maxCmdLen (format.front ++ ethdev ++ format.back)

structure TcCmd where
  cmdStr : Format
  verifyRet : Bool

def enableSeq : List TcCmd :=
  [{ cmdStr := ⟨ascii "tc qdisc del dev ", ascii " clsact >/dev/null 2>&1"⟩, verifyRet := false },
    { cmdStr := ⟨ascii "tc qdisc add dev ", ascii " clsact"⟩, verifyRet := true },
    { cmdStr :=
        ⟨ascii "tc filter add dev ",
          ascii " ingress bpf direct-action obj tc_tstamp.bpf.o sec tc >/dev/null 2>&1"⟩
      verifyRet := true }]

def otherTcFormat : Format := ⟨ascii "tc filter ls dev ", ascii " ingress | grep filter >/dev/null 2>&1"⟩

def tcTstampFormat : Format :=
  ⟨ascii "tc filter ls dev ", ascii " ingress | grep tc_tstamp.bpf.o >/dev/null 2>&1"⟩

def disableFormat : Format := ⟨ascii "tc filter del dev ", ascii " ingress >/dev/null 2>&1"⟩

def formats : List Format := [otherTcFormat, tcTstampFormat, disableFormat] ++ enableSeq.map TcCmd.cmdStr

/-- What `system` makes of a command after those that have run: its exit
status, unless it cannot be started. -/
abbrev Shell := List Bytes → Bytes → Option UInt8

def system (shell : Shell) (command : Bytes) (ran : List Bytes) : Option UInt8 × List Bytes :=
  (shell ran command, ran ++ [command])

def sliOk : Int := 0

def sliErr : Int := -1

/-- A function on device names, with the state it works on. -/
abbrev NetdevCallback (σ : Type) := Bytes → σ → Int × σ

variable {σ : Type} {shell : Shell}

def excuteCmd (shell : Shell) (format : Format) : NetdevCallback (List Bytes) := fun ethdev ran =>
  let (status, ran) := system shell (format.print ethdev).text ran
  (if status = some 0 then sliOk else sliErr, ran)

def netcardEnabledOtherTc (shell : Shell) (ethdev : Bytes) (ran : List Bytes) : Bool × List Bytes :=
  let (ret, ran) := excuteCmd shell otherTcFormat ethdev ran
  (ret = sliOk, ran)

def netcardEnabledTcTstamp (shell : Shell) (ethdev : Bytes) (ran : List Bytes) : Bool × List Bytes :=
  let (ret, ran) := excuteCmd shell tcTstampFormat ethdev ran
  (ret = sliOk, ran)

def disableOneNetcard (shell : Shell) : NetdevCallback (List Bytes) := fun ethdev ran =>
  match netcardEnabledTcTstamp shell ethdev ran with
  | (false, ran) => (sliOk, ran)
  | (true, ran) => excuteCmd shell disableFormat ethdev ran

/-- The commands of `g_enableSeq`; the buffer always ends in a NUL, so that no
name is found invalid. -/
def enableLoop (shell : Shell) (ethdev : Bytes) : List TcCmd → List Bytes → Int × List Bytes
  | [], ran => (sliOk, ran)
  | cmd :: rest, ran =>
      match system shell (cmd.cmdStr.print ethdev).text ran with
      | (none, ran) => (sliErr, (disableOneNetcard shell ethdev ran).2)
      | (some status, ran) =>
          if status ≠ 0 ∧ cmd.verifyRet then (sliErr, (disableOneNetcard shell ethdev ran).2)
          else enableLoop shell ethdev rest ran

def enableOneNetcard (shell : Shell) : NetdevCallback (List Bytes) := fun ethdev ran =>
  match netcardEnabledTcTstamp shell ethdev ran with
  | (true, ran) => (sliOk, ran)
  | (false, ran) =>
      match netcardEnabledOtherTc shell ethdev ran with
      | (true, ran) => (sliErr, ran)
      | (false, ran) => enableLoop shell ethdev enableSeq ran

/-- A `char` is signed: no byte from 128 on is a letter. -/
def checkCardNameLegal (c : UInt8) : Bool :=
  (48 ≤ c && c ≤ 57) || (65 ≤ c && c ≤ 90) || (97 ≤ c && c ≤ 122) || c = dash || c = 95 || c = 64

/-- The loop over a name from its index `i` on. -/
def legalDev (i : Nat) : Bytes → Bool
  | [] => true
  | c :: rest =>
      if ¬ checkCardNameLegal c then false
      else if i = nameMax then false
      else legalDev (i + 1) rest

def oneNetcardCallback (fn : NetdevCallback σ) : NetdevCallback σ := fun buf state =>
  let start := buf.dropWhile fun byte => byte = space
  if legalDev 0 start then fn start state else (sliErr, state)

/-- The loop over the list; `segment` is what stands between `ptr_start` and the
byte that is looked at for the comma. -/
def eachSegment (fn : NetdevCallback σ) (segment : Bytes) : Bytes → σ → σ
  | [], state => if segment = [] then state else (oneNetcardCallback fn segment state).2
  | byte :: rest, state =>
      if byte = comma then eachSegment fn [] rest (oneNetcardCallback fn segment state).2
      else eachSegment fn (segment ++ [byte]) rest state

/-- The cards of `/proc/net/dev`, line by line. -/
def eachDevice (fn : NetdevCallback σ) : List Bytes → σ → σ
  | [], state => state
  | buf :: rest, state =>
      if colon ∈ buf then
        eachDevice fn rest (oneNetcardCallback fn (buf.takeWhile fun byte => byte ≠ colon) state).2
      else eachDevice fn rest state

/-- The string in the array, whose last byte is set to zero. -/
def netcardList (array : Bytes) : Bytes := cString (array.take (maxPathLen - 1))

def forEachNetcard (fn : NetdevCallback σ) (procNetDev : Option Bytes) (array : Bytes) (state : σ) : σ :=
  if netcardList array ≠ [] then eachSegment fn [] (netcardList array) state
  else
    match procNetDev with
    | none => state
    | some stream => eachDevice fn (fgetsStrings maxCmdLen stream) state

/-- The commands of `load_tc_ingress_bpf`. -/
def loadTcIngressBpf (shell : Shell) (procNetDev : Option Bytes) (array : Bytes) : List Bytes :=
  forEachNetcard (enableOneNetcard shell) procNetDev array []

/-- What the name of a card may be made of. -/
def cardCharacters : Bytes := ascii "ABCDEFGHIJKLMNOPQRSTUVWXYZabcdefghijklmnopqrstuvwxyz0123456789-_@"

structure CardName (name : Bytes) : Prop where
  short : name.length ≤ nameMax
  legal : ∀ c ∈ name, c ∈ cardCharacters

theorem mem_codes_iff {c : UInt8} {first count : Nat} (few : first + count ≤ 256) :
    c ∈ (List.range' first count).map UInt8.ofNat ↔ first ≤ c.toNat ∧ c.toNat < first + count := by
  rw [List.mem_map]
  constructor
  · rintro ⟨code, member, rfl⟩
    rw [List.mem_range'_1] at member
    rwa [UInt8.toNat_ofNat', Nat.mod_eq_of_lt (by omega)]
  · intro within
    exact ⟨c.toNat, List.mem_range'_1.mpr within, UInt8.ofNat_toNat⟩

theorem checkCardNameLegal_iff (c : UInt8) : checkCardNameLegal c = true ↔ c ∈ cardCharacters := by
  have codes : cardCharacters = (List.range' 65 26).map UInt8.ofNat ++ (List.range' 97 26).map UInt8.ofNat ++
      (List.range' 48 10).map UInt8.ofNat ++ [dash, 95, 64] := by decide +kernel
  rw [codes]
  simp only [List.mem_append, mem_codes_iff (show 65 + 26 ≤ 256 by decide), mem_codes_iff (show 97 + 26 ≤ 256 by decide),
    mem_codes_iff (show 48 + 10 ≤ 256 by decide), List.mem_cons, List.not_mem_nil, or_false, checkCardNameLegal,
    Bool.or_eq_true, Bool.and_eq_true, decide_eq_true_eq, UInt8.le_iff_toNat_le, ← UInt8.toNat_inj, dash, UInt8.reduceToNat]
  omega

theorem legalDev_iff {i : Nat} {name : Bytes} (within : i ≤ nameMax) :
    legalDev i name = true ↔ i + name.length ≤ nameMax ∧ ∀ c ∈ name, checkCardNameLegal c := by
  induction name generalizing i with
  | nil => simp [legalDev, within]
  | cons c rest ih =>
      rw [legalDev, List.forall_mem_cons, List.length_cons]
      by_cases legal : checkCardNameLegal c = true
      · rw [if_neg (not_not_intro legal)]
        by_cases last : i = nameMax
        · rw [if_pos last]
          simp only [Bool.false_eq_true, false_iff, not_and]
          intro short
          omega
        · rw [if_neg last, ih (by omega), Nat.add_assoc i 1, Nat.add_comm 1]
          exact and_congr_right fun _ => (and_iff_right legal).symm
      · rw [if_pos legal]
        simp [legal]

theorem cardName_iff {name : Bytes} : legalDev 0 name = true ↔ CardName name := by
  simp only [legalDev_iff (Nat.zero_le _), Nat.zero_add, checkCardNameLegal_iff]
  exact ⟨fun ⟨short, legal⟩ => ⟨short, legal⟩, fun named => ⟨named.short, named.legal⟩⟩

instance (name : Bytes) : Decidable (CardName name) := decidable_of_iff _ cardName_iff

/-- A command is a format with a legal name in the place of its `%s`. -/
def Clean (ran : List Bytes) : Prop :=
  ∀ command ∈ ran, ∃ format ∈ formats, ∃ name, CardName name ∧ command = format.front ++ name ++ format.back

variable {ran : List Bytes} {name : Bytes} {format : Format}

/-- No command is too long for its array. -/
theorem print_whole (named : CardName name) (known : format ∈ formats) :
    (format.print name).text = format.front ++ name ++ format.back := by
  have spare : ∀ format ∈ formats, format.front.length + format.back.length < maxCmdLen - nameMax := by
    decide +kernel
  have own := spare format known
  have short := named.short
  rw [Format.print, CharArray.ofText_text, List.take_of_length_le]
  simp only [List.length_append]
  omega

theorem clean_system (shell : Shell) (clean : Clean ran) (named : CardName name) (known : format ∈ formats) :
    Clean (system shell (format.print name).text ran).2 := by
  intro command member
  rcases List.mem_append.mp member with before | last
  · exact clean command before
  · exact ⟨format, known, name, named, (List.mem_singleton.mp last).trans (print_whole named known)⟩

theorem clean_disable (clean : Clean ran) (named : CardName name) : Clean (disableOneNetcard shell name ran).2 := by
  have listed : Clean (netcardEnabledTcTstamp shell name ran).2 :=
    clean_system shell clean named (by simp [formats])
  rw [disableOneNetcard]
  split
  · rename_i after found
    rw [found] at listed
    exact listed
  · rename_i after found
    rw [found] at listed
    exact clean_system shell listed named (by simp [formats])

theorem clean_enableLoop {cmds : List TcCmd} (clean : Clean ran) (named : CardName name)
    (known : ∀ cmd ∈ cmds, cmd.cmdStr ∈ formats) : Clean (enableLoop shell name cmds ran).2 := by
  induction cmds generalizing ran with
  | nil => exact clean
  | cons cmd rest ih =>
      have next : Clean (system shell (cmd.cmdStr.print name).text ran).2 :=
        clean_system shell clean named (known cmd List.mem_cons_self)
      rw [enableLoop]
      split
      · rename_i after found
        rw [found] at next
        exact clean_disable next named
      · rename_i status after found
        rw [found] at next
        split
        · exact clean_disable next named
        · exact ih next fun other member => known other (List.mem_cons_of_mem _ member)

theorem clean_enable (clean : Clean ran) (named : CardName name) : Clean (enableOneNetcard shell name ran).2 := by
  have tstamp : Clean (netcardEnabledTcTstamp shell name ran).2 :=
    clean_system shell clean named (by simp [formats])
  rw [enableOneNetcard]
  split
  · rename_i after found
    rw [found] at tstamp
    exact tstamp
  · rename_i after found
    rw [found] at tstamp
    have other : Clean (netcardEnabledOtherTc shell name after).2 :=
      clean_system shell tstamp named (by simp [formats])
    split
    · rename_i later enabled
      rw [enabled] at other
      exact other
    · rename_i later enabled
      rw [enabled] at other
      apply clean_enableLoop other named
      intro cmd member
      exact List.mem_append_right _ (List.mem_map_of_mem member)

/-- What the callback keeps for every legal name is kept by the loops. -/
theorem kept_oneNetcardCallback {fn : NetdevCallback σ} {Kept : σ → Prop} {state : σ} (buf : Bytes)
    (step : ∀ name state, CardName name → Kept state → Kept (fn name state).2) (kept : Kept state) :
    Kept (oneNetcardCallback fn buf state).2 := by
  rw [oneNetcardCallback]
  split
  · rename_i legal
    exact step _ _ (cardName_iff.mp legal) kept
  · exact kept

theorem kept_eachSegment {fn : NetdevCallback σ} {Kept : σ → Prop} {state : σ} (segment text : Bytes)
    (step : ∀ name state, CardName name → Kept state → Kept (fn name state).2) (kept : Kept state) :
    Kept (eachSegment fn segment text state) := by
  induction text generalizing segment state with
  | nil =>
      rw [eachSegment]
      split
      · exact kept
      · exact kept_oneNetcardCallback segment step kept
  | cons byte rest ih =>
      rw [eachSegment]
      split
      · exact ih [] (kept_oneNetcardCallback segment step kept)
      · exact ih (segment ++ [byte]) kept

theorem kept_eachDevice {fn : NetdevCallback σ} {Kept : σ → Prop} {state : σ} (lines : List Bytes)
    (step : ∀ name state, CardName name → Kept state → Kept (fn name state).2) (kept : Kept state) :
    Kept (eachDevice fn lines state) := by
  induction lines generalizing state with
  | nil => exact kept
  | cons buf rest ih =>
      rw [eachDevice]
      split
      · exact ih (kept_oneNetcardCallback _ step kept)
      · exact ih kept

theorem kept_forEachNetcard {fn : NetdevCallback σ} {Kept : σ → Prop} {state : σ} (procNetDev : Option Bytes)
    (array : Bytes) (step : ∀ name state, CardName name → Kept state → Kept (fn name state).2) (kept : Kept state) :
    Kept (forEachNetcard fn procNetDev array state) := by
  unfold forEachNetcard
  split
  · exact kept_eachSegment _ _ step kept
  · split
    · exact kept
    · exact kept_eachDevice _ step kept

theorem clean_loadTcIngressBpf (procNetDev : Option Bytes) (array : Bytes) :
    Clean (loadTcIngressBpf shell procNetDev array) := by
  apply kept_forEachNetcard procNetDev array
  · exact fun name state named clean => clean_enable clean named
  · simp [Clean]

/-- The names the list should stand for. -/
def netcards (list : Bytes) : List Bytes :=
  ((list.splitOn comma).map fun segment => segment.dropWhile fun byte => byte = space).filter
    fun name => name ≠ [] ∧ CardName name

/-- The segments that are taken up: all but an empty last one. -/
def segments (segment : Bytes) : Bytes → List Bytes
  | [] => if segment = [] then [] else [segment]
  | byte :: rest => if byte = comma then segment :: segments [] rest else segments (segment ++ [byte]) rest

/-- The names the callback gets. -/
def called (list : Bytes) : List Bytes :=
  ((segments [] list).map fun segment => segment.dropWhile fun byte => byte = space).filter fun name => CardName name

/-- A run of the callback on names. -/
def runAll (fn : NetdevCallback σ) (names : List Bytes) (state : σ) : σ :=
  names.foldl (fun state name => (fn name state).2) state

theorem eachSegment_eq (fn : NetdevCallback σ) (segment text : Bytes) (state : σ) :
    eachSegment fn segment text state =
      runAll fn (((segments segment text).map fun segment => segment.dropWhile fun byte => byte = space).filter
        fun name => CardName name) state := by
  have one : ∀ (segment : Bytes) (rest : List Bytes) (state : σ),
      runAll fn (((segment :: rest).map fun segment => segment.dropWhile fun byte => byte = space).filter
        fun name => CardName name) state =
      runAll fn ((rest.map fun segment => segment.dropWhile fun byte => byte = space).filter
        fun name => CardName name) (oneNetcardCallback fn segment state).2 := by
    intro segment rest state
    rw [List.map_cons, List.filter_cons, oneNetcardCallback]
    by_cases legal : legalDev 0 (segment.dropWhile fun byte => byte = space) = true
    · simp only [decide_eq_true_eq, if_pos (cardName_iff.mp legal), if_pos legal]
      rfl
    · simp only [decide_eq_true_eq, if_neg (mt cardName_iff.mpr legal), if_neg legal]
  induction text generalizing segment state with
  | nil =>
      rw [eachSegment, segments]
      split
      · rfl
      · rw [one]
        rfl
  | cons byte rest ih =>
      rw [eachSegment, segments]
      split
      · rw [one, ih]
      · exact ih (segment ++ [byte]) state

/-- The list falls into the segments taken up and, behind its last comma, a
last one that may be empty. -/
theorem splitOn_segments (segment text : Bytes) (free : comma ∉ segment) :
    ∃ before last, (segment ++ text).splitOn comma = before ++ [last] ∧
      segments segment text = before ++ if last = [] then [] else [last] := by
  induction text generalizing segment with
  | nil =>
      refine ⟨[], segment, ?_, rfl⟩
      rw [List.append_nil, List.splitOn_eq_singleton free]
      rfl
  | cons byte rest ih =>
      by_cases same : byte = comma
      · obtain ⟨before, last, split, handled⟩ := ih [] List.not_mem_nil
        refine ⟨segment :: before, last, ?_, ?_⟩
        · rw [same, List.splitOn_append_cons_self_of_not_mem free, ← List.nil_append rest, split]
          rfl
        · rw [segments, if_pos same, handled]
          rfl
      · obtain ⟨before, last, split, handled⟩ := ih (segment ++ [byte]) (by simp [free, Ne.symm same])
        refine ⟨before, last, ?_, ?_⟩
        · rw [← split, List.append_assoc]
          rfl
        · rw [segments, if_neg same, handled]

/-- Spaces and nothing else. -/
def Blank (segment : Bytes) : Prop := ∀ byte ∈ segment, byte = space

/-- Every segment up to the last comma holds more than spaces, and so does what
stands behind it, if anything does. -/
def Filled (list : Bytes) : Prop :=
  (∀ segment ∈ (list.splitOn comma).dropLast, ¬ Blank segment) ∧
    ∀ last ∈ (list.splitOn comma).getLast?, last ≠ [] → ¬ Blank last

instance (segment : Bytes) : Decidable (Blank segment) := inferInstanceAs (Decidable (∀ byte ∈ segment, byte = space))

instance (list : Bytes) : Decidable (Filled list) := inferInstanceAs (Decidable (_ ∧ _))

theorem blank_iff {segment : Bytes} : Blank segment ↔ (segment.dropWhile fun byte => byte = space) = [] := by
  rw [List.dropWhile_eq_nil_iff]
  simp [Blank]

theorem filled_iff {list : Bytes} : Filled list ↔ ∀ segment ∈ segments [] list, ¬ Blank segment := by
  obtain ⟨before, last, split, handled⟩ := splitOn_segments [] list List.not_mem_nil
  rw [List.nil_append] at split
  rw [Filled, split, handled, List.dropLast_concat, List.getLast?_concat, List.forall_mem_append]
  apply and_congr_right
  intro _
  by_cases empty : last = [] <;> simp [empty]

theorem netcards_eq (list : Bytes) : netcards list = (called list).filter fun name => name ≠ [] := by
  obtain ⟨before, last, split, handled⟩ := splitOn_segments [] list List.not_mem_nil
  rw [List.nil_append] at split
  have both : ∀ names : List Bytes, (names.filter fun name => name ≠ [] ∧ CardName name) =
      (names.filter fun name => CardName name).filter fun name => name ≠ [] := by
    intro names
    rw [List.filter_filter]
    simp
  rw [netcards, called, split, handled, both]
  by_cases empty : last = []
  · simp [empty]
  · rw [if_neg empty]

theorem called_eq_netcards_iff {list : Bytes} : called list = netcards list ↔ Filled list := by
  rw [netcards_eq, filled_iff, eq_comm, List.filter_eq_self]
  constructor
  · intro kept segment member blank
    have name := blank_iff.mp blank
    have present : [] ∈ called list := by
      rw [called, List.mem_filter]
      exact ⟨List.mem_map.mpr ⟨segment, member, name⟩, by decide⟩
    exact absurd (kept [] present) (by simp)
  · intro filled name present
    rw [called, List.mem_filter, List.mem_map] at present
    obtain ⟨⟨segment, member, rfl⟩, -⟩ := present
    exact decide_eq_true fun empty => filled segment member (blank_iff.mpr empty)

/-- Keeps the names it gets. -/
def record : NetdevCallback (List Bytes) := fun name names => (sliOk, names ++ [name])

theorem runAll_record (names before : List Bytes) : runAll record names before = before ++ names := by
  induction names generalizing before with
  | nil => exact (List.append_nil before).symm
  | cons name rest ih =>
      rw [runAll, List.foldl_cons, ← runAll, ih, record, List.append_assoc]
      rfl

/-- The callback runs on the cards of the list and on nothing else exactly when
the list is filled; in any case it gets legal names only, and so do the
commands. -/
theorem forEachNetcard_netcards (procNetDev : Option Bytes) (array : Bytes) (listed : netcardList array ≠ []) :
    ((∀ (σ : Type) (fn : NetdevCallback σ) (state : σ),
        forEachNetcard fn procNetDev array state = runAll fn (netcards (netcardList array)) state) ↔
      Filled (netcardList array)) ∧
    (∀ name ∈ forEachNetcard record procNetDev array [], CardName name) ∧
    ∀ shell, ∀ command ∈ loadTcIngressBpf shell procNetDev array, ∃ format ∈ formats, ∃ name,
      CardName name ∧ command = format.front ++ name ++ format.back := by
  have runs : ∀ (σ : Type) (fn : NetdevCallback σ) (state : σ),
      forEachNetcard fn procNetDev array state = runAll fn (called (netcardList array)) state := by
    intro σ fn state
    unfold forEachNetcard
    rw [if_pos listed, eachSegment_eq]
    rfl
  refine ⟨?_, ?_, fun shell => clean_loadTcIngressBpf procNetDev array⟩
  · rw [← called_eq_netcards_iff]
    constructor
    · intro exact
      have same := exact _ record []
      rw [runs, runAll_record, runAll_record] at same
      exact same
    · intro same σ fn state
      rw [runs, same]
  · intro name member
    rw [runs, runAll_record, List.nil_append, called, List.mem_filter, decide_eq_true_eq] at member
    exact member.2

theorem forEachNetcard_two :
    forEachNetcard record none (ascii "eth0, eth1") [] = runAll record [ascii "eth0", ascii "eth1"] [] :=
  (forEachNetcard_netcards none (ascii "eth0, eth1") (by decide)).1.mpr (by decide) (List Bytes) record []

/-- `,eth0` gives the callback an empty name, and a command without a device. -/
theorem forEachNetcard_empty :
    ¬ ∀ (σ : Type) (fn : NetdevCallback σ) (state : σ),
        forEachNetcard fn none (ascii ",eth0") state = runAll fn (netcards (netcardList (ascii ",eth0"))) state := by
  intro exact
  exact absurd (exact _ record []) (by decide)

end GalaGopher.Ebpf.Ksli

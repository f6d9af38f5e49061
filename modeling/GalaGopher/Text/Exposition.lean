import GalaGopher.Text.Printed
import GalaGopher.Text.Quoted
import GalaGopher.Text.Utf8

namespace GalaGopher.Text.Exposition

/-! The lines of the Prometheus text format that hold samples.  Label values
are decoded, numbers are kept as written. -/

structure Sample where
  name : Bytes
  labels : List (Bytes × Bytes)
  value : Bytes
  timestamp : Bytes
deriving DecidableEq

def isGap (byte : UInt8) : Bool := byte = 32 || byte = 9

def skipGaps (text : Bytes) : Bytes := text.dropWhile isGap

def isLetter (byte : UInt8) : Bool :=
  65 ≤ byte && byte ≤ 90 || 97 ≤ byte && byte ≤ 122 || byte = 95

def isLabelByte (byte : UInt8) : Bool := isLetter byte || isDigit byte

def isMetricLetter (byte : UInt8) : Bool := isLetter byte || byte = colon

def isMetricByte (byte : UInt8) : Bool := isMetricLetter byte || isDigit byte

def word (first later : UInt8 → Bool) : Reader Bytes
  | [] => none
  | byte :: rest =>
      if first byte then some (byte :: rest.takeWhile later, rest.dropWhile later) else none

def spelled (first later : UInt8 → Bool) : Bytes → Bool
  | [] => false
  | byte :: rest => first byte && rest.all later

def isLabelName (name : Bytes) : Bool := spelled isLetter isLabelByte name

def isMetricName (name : Bytes) : Bool := spelled isMetricLetter isMetricByte name

def escapedByte (byte : UInt8) : Option UInt8 :=
  if byte = quote ∨ byte = backslash then some byte
  else if byte = 110 then some newline
  else none

/-- Behind the opening quote. -/
def labelValue : Reader Bytes
  | [] => none
  | byte :: rest =>
      if byte = quote then some ([], rest)
      else if byte = backslash then
        match rest with
        | [] => none
        | next :: after =>
            (escapedByte next).bind fun character =>
              (labelValue after).map fun others => (character :: others.1, others.2)
      else if byte = newline then none
      else (labelValue rest).map fun others => (byte :: others.1, others.2)

def assign : UInt8 := 61

def labelText (text : Bytes) : Option (Bytes × Bytes) :=
  match skipGaps text with
  | [] => none
  | byte :: rest => if byte = quote then labelValue rest else none

def label (text : Bytes) : Option ((Bytes × Bytes) × Bytes) :=
  (word isLetter isLabelByte text).bind fun name =>
    match skipGaps name.2 with
    | [] => none
    | byte :: rest =>
        if byte = assign then
          (labelText rest).bind fun value =>
            if Utf8 value.1 then some ((name.1, value.1), value.2) else none
        else none

/-- Behind a label: a comma and more labels, or the end. -/
def afterLabel (more : Reader (List (Bytes × Bytes))) (text : Bytes) : Option (List (Bytes × Bytes) × Bytes) :=
  match skipGaps text with
  | [] => none
  | byte :: rest =>
      if byte = closeBrace then some ([], rest)
      else if byte = comma then more rest
      else none

/-- Behind the opening brace.  The last label may have a comma behind it. -/
def labels : Nat → Reader (List (Bytes × Bytes))
  | 0, _ => none
  | fuel + 1, text =>
      if (skipGaps text).head? = some closeBrace then some ([], (skipGaps text).tail)
      else
        (label (skipGaps text)).bind fun pair =>
          (afterLabel (labels fuel) pair.2).map fun others => (pair.1 :: others.1, others.2)

def labelSet (text : Bytes) : Option (List (Bytes × Bytes) × Bytes) :=
  if text.head? = some openBrace then labels text.length text.tail else some ([], text)

def lower (byte : UInt8) : UInt8 := if 65 ≤ byte ∧ byte ≤ 90 then byte + 32 else byte

def unsigned (text : Bytes) : Bytes :=
  if text.head? = some 43 ∨ text.head? = some 45 then text.tail else text

def isWhole (text : Bytes) : Bool := text ≠ [] && text.all isDigit

def isExponent : Bytes → Bool
  | [] => true
  | mark :: rest => lower mark = 101 && isWhole (unsigned rest)

/-- Digits with at most one point among them, and perhaps an exponent. -/
def isDecimal (text : Bytes) : Bool :=
  let whole := text.takeWhile isDigit
  let behind := text.dropWhile isDigit
  if behind.head? = some 46 then
    isWhole (whole ++ behind.tail.takeWhile isDigit) && isExponent (behind.tail.dropWhile isDigit)
  else isWhole whole && isExponent behind

def isNumber (text : Bytes) : Bool :=
  text.map lower = ascii "nan" || (unsigned text).map lower = ascii "inf" ||
    (unsigned text).map lower = ascii "infinity" || isDecimal (unsigned text)

def isTimestamp (text : Bytes) : Bool := isWhole (unsigned text)

def words (text : Bytes) : List Bytes := (text.splitOnP isGap).filter fun word => word ≠ []

/-- A line with a timestamp.  No name labels a sample twice. -/
def sample (line : Bytes) : Option Sample :=
  (word isMetricLetter isMetricByte (skipGaps line)).bind fun name =>
    (labelSet (skipGaps name.2)).bind fun set =>
      match words set.2 with
      | [value, timestamp] =>
          if isNumber value ∧ isTimestamp timestamp ∧ (set.1.map Prod.fst).Nodup then
            some { name := name.1, labels := set.1, value, timestamp }
          else none
      | _ => none

variable {first later : UInt8 → Bool} {name text rest suffix value : Bytes} {fuel : Nat}

theorem word_sound (read : word first later text = some (name, rest)) :
    spelled first later name ∧ text = name ++ rest := by
  cases text with
  | nil => cases read
  | cons byte text =>
      simp only [word] at read
      split at read
      · rename_i opens
        cases read
        refine ⟨?_, by rw [List.cons_append, List.takeWhile_append_dropWhile]⟩
        rw [spelled, opens, Bool.true_and]
        exact List.all_takeWhile
      · cases read

theorem word_pasted {byte : UInt8} (named : spelled first later name) (ends : later byte = false) :
    word first later (name ++ byte :: suffix) = some (name, byte :: suffix) := by
  cases name with
  | nil => cases named
  | cons letter name =>
      rw [spelled, Bool.and_eq_true, List.all_eq_true] at named
      rw [List.cons_append, word, if_pos named.1, List.takeWhile_append_of_pos named.2,
        List.dropWhile_append_of_pos named.2, List.takeWhile_cons, List.dropWhile_cons, ends]
      simp

/-- A name stands where blanks may be skipped. -/
theorem skipGaps_name (named : spelled first later name) (letters : ∀ byte, first byte → isGap byte = false)
    (text : Bytes) : skipGaps (name ++ text) = name ++ text := by
  cases name with
  | nil => cases named
  | cons letter name =>
      rw [spelled, Bool.and_eq_true] at named
      rw [skipGaps, List.cons_append, List.dropWhile_cons, letters letter named.1]
      rfl

/-- Nothing in the text needs escaping. -/
def Verbatim (text : Bytes) : Prop :=
  ∀ byte ∈ text, byte ≠ quote ∧ byte ≠ backslash ∧ byte ≠ newline

instance (text : Bytes) : Decidable (Verbatim text) := List.decidableBAll _ text

theorem escapedByte_spec {byte character : UInt8} (read : escapedByte byte = some character) :
    [byte].count quote ≤ [character].count quote := by
  unfold escapedByte at read
  split at read
  · cases read
    exact Nat.le_refl _
  · split at read
    · rename_i letter
      rw [letter]
      exact Nat.zero_le _
    · cases read

theorem labelValue_quote (rest : Bytes) : labelValue (quote :: rest) = some ([], rest) := by
  rw [labelValue.eq_def]
  exact if_pos rfl

theorem labelValue_newline (rest : Bytes) : labelValue (newline :: rest) = none := by
  rw [labelValue.eq_def]
  rfl

theorem labelValue_escape (next : UInt8) (after : Bytes) : labelValue (backslash :: next :: after) =
    (escapedByte next).bind fun character =>
      (labelValue after).map fun others => (character :: others.1, others.2) := rfl

theorem labelValue_plain {byte : UInt8} (plain : byte ≠ quote ∧ byte ≠ backslash ∧ byte ≠ newline) :
    labelValue (byte :: text) = (labelValue text).map fun others => (byte :: others.1, others.2) := by
  rw [labelValue.eq_def]
  simp only
  rw [if_neg plain.1, if_neg plain.2.1, if_neg plain.2.2]

/-- What a label value was read from. -/
theorem labelValue_spec (read : labelValue text = some (value, rest)) :
    ∃ consumed, text = consumed ++ quote :: rest ∧ value.length ≤ consumed.length ∧
      consumed.count quote ≤ value.count quote ∧
      (value.length = consumed.length → Verbatim value) := by
  induction text using labelValue.induct generalizing value with
  | case1 => cases read
  | case2 text =>
      rw [labelValue_quote] at read
      cases read
      exact ⟨[], rfl, Nat.le_refl _, Nat.le_refl _, fun _ => by simp [Verbatim]⟩
  | case3 => cases read
  | case4 next after _ ih =>
      rw [labelValue_escape, Option.bind_eq_some_iff] at read
      obtain ⟨character, escaped, read⟩ := read
      rw [Option.map_eq_some_iff] at read
      obtain ⟨⟨others, last⟩, later, same⟩ := read
      simp only [Prod.mk.injEq] at same
      obtain ⟨rfl, rfl⟩ := same
      obtain ⟨consumed, rfl, length, count, -⟩ := ih later
      refine ⟨backslash :: next :: consumed, rfl, ?_, ?_, ?_⟩
      · simp only [List.length_cons]
        omega
      · have kept := escapedByte_spec escaped
        rw [List.count_cons_of_ne (by decide), List.count_cons, List.count_cons]
        rw [List.count_cons, List.count_cons] at kept
        simp only [List.count_nil] at kept
        omega
      · simp only [List.length_cons]
        omega
  | case5 =>
      rw [labelValue_newline] at read
      cases read
  | case6 byte text closed escaped broken ih =>
      have plain : byte ≠ quote ∧ byte ≠ backslash ∧ byte ≠ newline := ⟨closed, escaped, broken⟩
      rw [labelValue_plain plain, Option.map_eq_some_iff] at read
      obtain ⟨⟨others, last⟩, later, same⟩ := read
      simp only [Prod.mk.injEq] at same
      obtain ⟨rfl, rfl⟩ := same
      obtain ⟨consumed, rfl, length, count, exact⟩ := ih later
      refine ⟨byte :: consumed, rfl, Nat.succ_le_succ length, ?_, ?_⟩
      · rw [List.count_cons_of_ne closed, List.count_cons_of_ne closed]
        exact count
      · rw [List.length_cons, List.length_cons, Nat.add_right_cancel_iff]
        intro same
        exact List.forall_mem_cons.mpr ⟨plain, exact same⟩

theorem labelValue_verbatim (verbatim : Verbatim value) (suffix : Bytes) :
    labelValue (value ++ quote :: suffix) = some (value, suffix) := by
  induction value with
  | nil => exact labelValue_quote suffix
  | cons byte value ih =>
      obtain ⟨plain, later⟩ := List.forall_mem_cons.mp verbatim
      rw [List.cons_append, labelValue_plain plain, ih later]
      rfl

theorem labelValue_pasted :
    labelValue (value ++ quote :: suffix) = some (value, rest) ↔ Verbatim value ∧ rest = suffix := by
  constructor
  · intro read
    obtain ⟨consumed, split, length, count, exact⟩ := labelValue_spec read
    obtain ⟨rfl, rfl⟩ := pasted_unique split length count
    exact ⟨exact rfl, rfl⟩
  · intro given
    obtain ⟨verbatim, rfl⟩ := given
    exact labelValue_verbatim verbatim _

def pairText (pair : Bytes × Bytes) : Bytes := pair.1 ++ assign :: quote :: (pair.2 ++ [quote])

/-- The label is read back from its text. -/
structure Plain (pair : Bytes × Bytes) : Prop where
  name : isLabelName pair.1
  verbatim : Verbatim pair.2
  utf8 : Utf8 pair.2

theorem label_name {pair : Bytes × Bytes} (read : label text = some (pair, rest)) : isLabelName pair.1 := by
  rw [label, Option.bind_eq_some_iff] at read
  obtain ⟨⟨name, after⟩, named, read⟩ := read
  simp only at read
  split at read
  · cases read
  · split at read
    · rw [Option.bind_eq_some_iff] at read
      obtain ⟨⟨value, last⟩, -, read⟩ := read
      split at read
      · cases read
        exact (word_sound named).1
      · cases read
    · cases read

theorem label_pasted {pair : Bytes × Bytes} :
    label (pairText pair ++ suffix) = some (pair, rest) ↔ Plain pair ∧ rest = suffix := by
  have split : pairText pair ++ suffix = pair.1 ++ assign :: quote :: (pair.2 ++ quote :: suffix) := by
    simp only [pairText, List.append_assoc, List.cons_append, List.nil_append]
  have reached (named : isLabelName pair.1) : label (pairText pair ++ suffix) =
      (labelValue (pair.2 ++ quote :: suffix)).bind fun value =>
        if Utf8 value.1 then some ((pair.1, value.1), value.2) else none := by
    rw [split, label, word_pasted named (by decide)]
    rfl
  constructor
  · intro read
    have named := label_name read
    rw [reached named, Option.bind_eq_some_iff] at read
    obtain ⟨⟨value, last⟩, valued, read⟩ := read
    split at read
    · rename_i characters
      simp only [Option.some.injEq, Prod.mk.injEq] at read
      obtain ⟨same, rfl⟩ := read
      rw [show value = pair.2 from congrArg Prod.snd same] at valued characters
      obtain ⟨verbatim, rfl⟩ := labelValue_pasted.mp valued
      exact ⟨⟨named, verbatim, characters⟩, rfl⟩
    · cases read
  · intro given
    obtain ⟨plain, rfl⟩ := given
    rw [reached plain.name, labelValue_pasted.mpr ⟨plain.verbatim, rfl⟩, Option.bind_some, if_pos plain.utf8]

/-- What stands behind the first label. -/
def laterText (others : List (Bytes × Bytes)) (suffix : Bytes) : Bytes :=
  others.flatMap (fun pair => comma :: pairText pair) ++ closeBrace :: suffix

theorem laterText_length (others : List (Bytes × Bytes)) (suffix : Bytes) :
    others.length ≤ (laterText others suffix).length := by
  induction others with
  | nil => exact Nat.zero_le _
  | cons pair others ih =>
      rw [laterText, List.flatMap_cons, List.append_assoc, List.length_append, List.length_cons, List.length_cons]
      rw [laterText] at ih
      omega

theorem gapless_of_kind {kind : UInt8 → Bool} {byte : UInt8} (member : kind byte)
    (blanks : kind 32 = false ∧ kind 9 = false) : isGap byte = false := by
  by_contra gap
  rw [Bool.not_eq_false, isGap, Bool.or_eq_true, decide_eq_true_eq, decide_eq_true_eq] at gap
  rcases gap with space | tab
  · rw [space, blanks.1] at member
    cases member
  · rw [tab, blanks.2] at member
    cases member

theorem letter_gapless (byte : UInt8) (letter : isLetter byte) : isGap byte = false :=
  gapless_of_kind letter ⟨rfl, rfl⟩

/-- A label's text starts with a letter. -/
theorem pairText_opens {pair : Bytes × Bytes} (named : isLabelName pair.1) (suffix : Bytes) :
    skipGaps (pairText pair ++ suffix) = pairText pair ++ suffix ∧
      (pairText pair ++ suffix).head? ≠ some closeBrace := by
  rw [pairText, List.append_assoc]
  refine ⟨skipGaps_name named letter_gapless _, ?_⟩
  cases shape : pair.1 with
  | nil =>
      rw [shape] at named
      cases named
  | cons letter name =>
      rw [shape, isLabelName, spelled, Bool.and_eq_true] at named
      intro closed
      rw [List.cons_append, List.head?_cons, Option.some.injEq] at closed
      rw [closed] at named
      cases named.1

theorem labels_cons_iff {pair : Bytes × Bytes} {others : List (Bytes × Bytes)} :
    labels (fuel + 1) (pairText pair ++ suffix) = some (pair :: others, rest) ↔
      Plain pair ∧ afterLabel (labels fuel) suffix = some (others, rest) := by
  constructor
  · intro read
    rw [labels] at read
    split at read
    · cases read
    · obtain ⟨after, opened, later⟩ := read_cons_iff.mp read
      rw [(pairText_opens (label_name opened) suffix).1] at opened
      obtain ⟨plain, rfl⟩ := label_pasted.mp opened
      exact ⟨plain, later⟩
  · intro given
    obtain ⟨plain, later⟩ := given
    obtain ⟨gapless, opens⟩ := pairText_opens plain.name suffix
    rw [labels, gapless, if_neg opens]
    exact read_cons_iff.mpr ⟨suffix, label_pasted.mpr ⟨plain, rfl⟩, later⟩

/-- Labels with commas between them are read back exactly when each is. -/
theorem labels_pasted {pair : Bytes × Bytes} {others : List (Bytes × Bytes)} (enough : others.length < fuel) :
    labels fuel (pairText pair ++ laterText others suffix) = some (pair :: others, rest) ↔
      (∀ other ∈ pair :: others, Plain other) ∧ rest = suffix := by
  induction others generalizing pair fuel with
  | nil =>
      obtain ⟨fuel, rfl⟩ := Nat.exists_eq_add_one_of_ne_zero (Nat.ne_of_gt enough)
      have closed : afterLabel (labels fuel) (laterText [] suffix) = some ([], suffix) := rfl
      rw [labels_cons_iff, closed]
      simp [eq_comm]
  | cons second others ih =>
      obtain ⟨fuel, rfl⟩ := Nat.exists_eq_add_one_of_ne_zero (Nat.ne_of_gt (Nat.zero_lt_of_lt enough))
      have more : afterLabel (labels fuel) (laterText (second :: others) suffix) =
          labels fuel (pairText second ++ laterText others suffix) := by
        rw [laterText, laterText, List.flatMap_cons, List.append_assoc]
        rfl
      rw [labels_cons_iff, more, ih (Nat.lt_of_succ_lt_succ enough), @List.forall_mem_cons _ _ pair, and_assoc]

theorem words_append_gap (before after : Bytes) : words (before ++ 32 :: after) = words before ++ words after := by
  rw [words, List.splitOnP_append_cons _ _ rfl, List.filter_append]
  rfl

theorem words_of_gapless (nonempty : text ≠ []) (gapless : ∀ byte ∈ text, isGap byte = false) :
    words text = [text] := by
  rw [words, List.splitOnP_eq_singleton gapless, List.filter_singleton, decide_eq_true nonempty]
  rfl

theorem isTimestamp_printed (number : Int) : isTimestamp (ascii (toString number)) := by
  obtain ⟨whole, shape, printed⟩ := printed_whole number
  have digits : isWhole whole := by
    rw [isWhole, Bool.and_eq_true, decide_eq_true_eq, List.all_eq_true]
    exact ⟨shape.nonempty, shape.digits⟩
  rcases printed with plain | negative
  · obtain ⟨first, rest, split⟩ := List.exists_cons_of_ne_nil shape.nonempty
    have digit := shape.digits first (by rw [split]; exact List.mem_cons_self)
    rw [plain, isTimestamp, unsigned, if_neg]
    · exact digits
    · rw [split, List.head?_cons, Option.some.injEq, Option.some.injEq]
      intro sign
      rcases sign with plus | minus
      · rw [plus] at digit
        cases digit
      · rw [minus] at digit
        cases digit
  · rw [negative, isTimestamp, unsigned, if_pos (.inr rfl)]
    exact digits

theorem printed_gapless (number : Int) : ∀ byte ∈ ascii (toString number), isGap byte = false := by
  intro byte member
  rcases printed_bytes member with sign | digit
  · rw [sign]
    rfl
  · exact gapless_of_kind digit ⟨rfl, rfl⟩

/-- The text is one number, perhaps between blanks. -/
def Numeric (text : Bytes) : Prop := ∃ number, words text = [number] ∧ isNumber number

/-- The sample a line is meant to be. -/
def IsSample (line name : Bytes) (pairs : List (Bytes × Bytes)) (time : Int) : Prop :=
  ∃ value, sample line = some { name, labels := pairs, value, timestamp := ascii (toString time) }

/-- What a line can be pasted from. -/
structure Spells (name : Bytes) (pairs : List (Bytes × Bytes)) (value : Bytes) : Prop where
  name : isMetricName name
  labels : ∀ pair ∈ pairs, Plain pair
  distinct : (pairs.map Prod.fst).Nodup
  numeric : Numeric value

variable {line : Bytes} {pairs : List (Bytes × Bytes)} {time : Int}

theorem metricLetter_gapless (byte : UInt8) (letter : isMetricLetter byte) : isGap byte = false :=
  gapless_of_kind letter ⟨rfl, rfl⟩

/-- Behind the name. -/
theorem sample_named (named : isMetricName name) (text : Bytes) :
    sample (name ++ openBrace :: text) = (labels (text.length + 1) text).bind fun set =>
      match words set.2 with
      | [value, timestamp] =>
          if isNumber value ∧ isTimestamp timestamp ∧ (set.1.map Prod.fst).Nodup then
            some { name, labels := set.1, value, timestamp }
          else none
      | _ => none := by
  rw [sample, skipGaps_name named metricLetter_gapless, word_pasted named (by decide)]
  rfl

theorem isSample_named (reads : IsSample (name ++ openBrace :: text) name pairs time) : isMetricName name := by
  obtain ⟨value, reads⟩ := reads
  rw [sample, Option.bind_eq_some_iff] at reads
  obtain ⟨⟨found, after⟩, named, reads⟩ := reads
  rw [Option.bind_eq_some_iff] at reads
  obtain ⟨set, -, reads⟩ := reads
  split at reads
  · split at reads
    · cases reads
      exact (word_sound named).1
    · cases reads
  · cases reads

/-- No label stands before the first comma. -/
theorem leading_comma : ¬ IsSample (name ++ openBrace :: comma :: text) name pairs time := by
  intro reads
  have named := isSample_named reads
  obtain ⟨value, reads⟩ := reads
  rw [sample_named named] at reads
  cases reads

theorem words_behind (value : Bytes) (time : Int) :
    words (32 :: (value ++ 32 :: ascii (toString time))) = words value ++ [ascii (toString time)] := by
  have front := words_append_gap [] (value ++ 32 :: ascii (toString time))
  rw [words_append_gap value, words_of_gapless (printed_ne_nil time) (printed_gapless time)] at front
  exact front

theorem enough_fuel (pair : Bytes × Bytes) (others : List (Bytes × Bytes)) (suffix : Bytes) :
    others.length < (pairText pair ++ laterText others suffix).length + 1 := by
  have counted := laterText_length others suffix
  rw [List.length_append]
  omega

theorem sample_spelled {pair : Bytes × Bytes} {others : List (Bytes × Bytes)} {number : Bytes}
    (spells : Spells name (pair :: others) value) (one : words value = [number]) :
    sample (name ++ openBrace :: (pairText pair ++ laterText others (32 :: (value ++ 32 :: ascii (toString time))))) =
      some { name, labels := pair :: others, value := number, timestamp := ascii (toString time) } := by
  obtain ⟨same, found, numeric⟩ := spells.numeric
  rw [one, List.singleton_inj] at found
  subst same
  rw [sample_named spells.name, (labels_pasted (enough_fuel pair others _)).mpr ⟨spells.labels, rfl⟩, Option.bind_some]
  simp only [words_behind, one, List.singleton_append]
  rw [if_pos ⟨numeric, isTimestamp_printed time, spells.distinct⟩]

/-- A pasted line is its sample exactly when its parts need no escaping. -/
theorem sample_pasted {pair : Bytes × Bytes} {others : List (Bytes × Bytes)} :
    IsSample (name ++ openBrace :: (pairText pair ++ laterText others
        (32 :: (value ++ 32 :: ascii (toString time))))) name (pair :: others) time ↔
      Spells name (pair :: others) value := by
  constructor
  · intro reads
    have named := isSample_named reads
    obtain ⟨number, reads⟩ := reads
    rw [sample_named named, Option.bind_eq_some_iff] at reads
    obtain ⟨⟨found, after⟩, read, reads⟩ := reads
    split at reads
    · rename_i number timestamp same
      split at reads
      · rename_i valid
        cases reads
        obtain ⟨plain, rfl⟩ := (labels_pasted (enough_fuel pair others _)).mp read
        rw [words_behind] at same
        have one : words value = [number] :=
          List.append_cancel_right (same : _ = [number] ++ [ascii (toString time)])
        exact ⟨named, plain, valid.2.2, number, one, valid.1⟩
      · cases reads
    · cases reads
  · intro spells
    obtain ⟨number, one, _⟩ := spells.numeric
    exact ⟨number, sample_spelled spells one⟩

theorem spelled_free {byte : UInt8} (named : spelled first later name) (neither : first byte = false ∧ later byte = false) :
    byte ∉ name := by
  cases name with
  | nil => exact List.not_mem_nil
  | cons letter name =>
      rw [spelled, Bool.and_eq_true, List.all_eq_true] at named
      intro member
      rcases List.mem_cons.mp member with same | present
      · rw [← same, neither.1] at named
        cases named.1
      · have allowed := named.2 byte present
        rw [neither.2] at allowed
        cases allowed

theorem pairText_free {pair : Bytes × Bytes} (plain : Plain pair) : newline ∉ pairText pair := by
  have name : newline ∉ pair.1 := spelled_free plain.name ⟨rfl, rfl⟩
  have value : newline ∉ pair.2 := fun member => (plain.verbatim newline member).2.2 rfl
  simp only [pairText, List.mem_append, List.mem_cons, List.not_mem_nil, not_or]
  exact ⟨name, by decide, by decide, value, by decide, id⟩

/-- A line pasted from such parts is one line. -/
theorem pasted_free {pair : Bytes × Bytes} {others : List (Bytes × Bytes)} (spells : Spells name (pair :: others) value)
    (unbroken : newline ∉ value) :
    newline ∉ name ++ openBrace :: (pairText pair ++ laterText others (32 :: (value ++ 32 :: ascii (toString time)))) := by
  have named : newline ∉ name := spelled_free spells.name ⟨rfl, rfl⟩
  have first := pairText_free (spells.labels pair List.mem_cons_self)
  have rest : newline ∉ others.flatMap fun pair => comma :: pairText pair := by
    intro member
    obtain ⟨other, present, within⟩ := List.mem_flatMap.mp member
    have free := pairText_free (spells.labels other (List.mem_cons_of_mem _ present))
    exact free ((List.mem_cons.mp within).resolve_left (by decide))
  have stamp := printed_free (by decide : ¬ (newline = 45 ∨ isDigit newline)) time
  simp only [laterText, List.mem_append, List.mem_cons, not_or]
  exact ⟨named, by decide, first, rest, by decide, by decide, unbroken, by decide, stamp⟩

/-- The lines that are not empty. -/
def pageLines (page : Bytes) : List Bytes := (page.splitOn newline).filter fun line => line ≠ []

theorem pageLines_append (before after : Bytes) :
    pageLines (before ++ newline :: after) = pageLines before ++ pageLines after := by
  rw [pageLines, List.splitOn_append_cons_self, List.filter_append]
  rfl

theorem pageLines_closed (bodies : List Bytes) (after : Bytes) :
    pageLines ((bodies.map fun body => body ++ [newline]).flatten ++ after) =
      bodies.flatMap pageLines ++ pageLines after := by
  induction bodies with
  | nil => rfl
  | cons body bodies ih =>
      rw [List.map_cons, List.flatten_cons, List.append_assoc, List.append_assoc, List.singleton_append,
        pageLines_append, ih, List.flatMap_cons, List.append_assoc]

theorem pageLines_of_free (nonempty : text ≠ []) (free : newline ∉ text) : pageLines text = [text] := by
  rw [pageLines, List.splitOn_eq_singleton free, List.filter_singleton, decide_eq_true nonempty]
  rfl

theorem pageLines_ne_nil {byte : UInt8} (member : byte ∈ text) (visible : byte ≠ newline) : pageLines text ≠ [] := by
  induction text with
  | nil => cases member
  | cons head text ih =>
      by_cases breaks : head = newline
      · subst head
        have skipped := pageLines_append [] text
        rw [List.nil_append] at skipped
        rw [skipped]
        exact ih ((List.mem_cons.mp member).resolve_left visible)
      · obtain ⟨line, lines, split⟩ := List.exists_cons_of_ne_nil (List.splitOn_ne_nil newline text)
        rw [pageLines, List.splitOn_cons_eq_if_modifyHead, if_neg (by simpa using breaks), split,
          List.modifyHead_cons, List.filter_cons_of_pos (by simp)]
        exact List.cons_ne_nil _ _

/-- A text that neither starts nor ends with a line break is one line only if
it holds none. -/
theorem pageLines_single_iff {opening closing : UInt8} (opens : text.head? = some opening)
    (closes : text.getLast? = some closing) (visible : opening ≠ newline ∧ closing ≠ newline) :
    pageLines text = [line] ↔ newline ∉ text ∧ line = text := by
  have nonempty : text ≠ [] := by
    intro empty
    rw [empty] at opens
    cases opens
  constructor
  · intro single
    have free : newline ∉ text := by
      intro breaks
      obtain ⟨before, after, rfl⟩ := List.append_of_mem breaks
      have front : pageLines before ≠ [] := by
        cases before with
        | nil => exact absurd (Option.some.inj opens).symm visible.1
        | cons byte before =>
            exact pageLines_ne_nil List.mem_cons_self (Option.some.inj opens ▸ visible.1)
      have back : pageLines after ≠ [] := by
        rw [List.append_cons] at closes
        by_cases last : after = []
        · rw [last, List.append_nil, List.getLast?_concat] at closes
          exact absurd (Option.some.inj closes).symm visible.2
        · rw [List.getLast?_append_of_ne_nil _ last] at closes
          exact pageLines_ne_nil (List.mem_of_getLast? closes) visible.2
      have lengths := congrArg List.length single
      rw [pageLines_append, List.length_append, List.length_singleton] at lengths
      have frontPositive := List.length_pos_of_ne_nil front
      have backPositive := List.length_pos_of_ne_nil back
      omega
    rw [pageLines_of_free nonempty free] at single
    exact ⟨free, (List.singleton_inj.mp single).symm⟩
  · intro given
    rw [given.2]
    exact pageLines_of_free nonempty given.1

def setText (labels : List (Bytes × Bytes)) : Bytes :=
  openBrace :: ((labels.flatMap fun pair => comma :: pairText pair).tail ++ [closeBrace])

def sampleText (sample : Sample) : Bytes :=
  sample.name ++ (setText sample.labels ++ 32 :: (sample.value ++ 32 :: sample.timestamp))

def samplesText (samples : List Sample) : Bytes := (samples.map fun sample => sampleText sample ++ [newline]).flatten

/-- A sample that is read back from its text. -/
structure Readable (sample : Sample) : Prop where
  labelled : sample.labels ≠ []
  spells : Spells sample.name sample.labels sample.value
  one : words sample.value = [sample.value]
  unbroken : newline ∉ sample.value
  stamped : ∃ time : Int, sample.timestamp = ascii (toString time)

theorem sampleText_pasted {read : Sample} {pair : Bytes × Bytes} {others : List (Bytes × Bytes)}
    (labels : read.labels = pair :: others) : sampleText read =
      read.name ++ openBrace :: (pairText pair ++ laterText others (32 :: (read.value ++ 32 :: read.timestamp))) := by
  rw [sampleText, labels, setText, List.flatMap_cons, laterText]
  simp only [List.cons_append, List.append_assoc, List.nil_append, List.tail_cons]

theorem Readable.reads {written : Sample} (readable : Readable written) :
    newline ∉ sampleText written ∧ sample (sampleText written) = some written := by
  obtain ⟨time, stamp⟩ := readable.stamped
  obtain ⟨pair, others, labels⟩ := List.exists_cons_of_ne_nil readable.labelled
  have spells := labels ▸ readable.spells
  rw [sampleText_pasted labels, stamp]
  refine ⟨pasted_free spells readable.unbroken, ?_⟩
  rw [sample_spelled spells readable.one, ← labels, ← stamp]

theorem lines_readable {samples : List Sample} (readable : ∀ written ∈ samples, Readable written) :
    ((samples.map sampleText).flatMap pageLines).map sample = samples.map some := by
  induction samples with
  | nil => rfl
  | cons first rest ih =>
      obtain ⟨here, later⟩ := List.forall_mem_cons.mp readable
      obtain ⟨free, reads⟩ := here.reads
      have shown : sampleText first ≠ [] := List.append_ne_nil_of_right_ne_nil _ (List.cons_ne_nil _ _)
      rw [List.map_cons, List.flatMap_cons, List.map_append, pageLines_of_free shown free, List.map_singleton, reads,
        ih later]
      rfl

/-- A page of readable samples is read as those samples. -/
theorem pageLines_samplesText {samples : List Sample} (readable : ∀ written ∈ samples, Readable written) (after : Bytes) :
    (pageLines (samplesText samples ++ after)).map sample = samples.map some ++ (pageLines after).map sample := by
  have bodies : samplesText samples = ((samples.map sampleText).map fun body => body ++ [newline]).flatten := by
    rw [List.map_map]
    rfl
  rw [bodies, pageLines_closed, List.map_append, lines_readable readable]

end GalaGopher.Text.Exposition

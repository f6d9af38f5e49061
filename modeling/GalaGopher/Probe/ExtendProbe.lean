import GalaGopher.Data.Pieces
import GalaGopher.Text.Bytes
import Mathlib.Data.List.TakeWhile

namespace GalaGopher.Probe

open GalaGopher.Text GalaGopher.Data

def maxDataStrLen : Nat := 2048

theorem maxDataStrLen_pos : 0 < maxDataStrLen := by decide

/-- How the hand-over of one string ends: `FifoPut` finds room and the write to
`triggerFd` succeeds, the FIFO is full, or the string is stored and the write
fails. -/
inductive PutOutcome where
  | sent
  | full
  | untriggered
deriving DecidableEq, Repr

structure Put where
  text : Bytes
  outcome : PutOutcome
deriving DecidableEq, Repr

/-- `dataStr` with the bytes written to it, whose number is `index`, and the
calls of `FifoPut` so far. -/
structure ProbeState where
  dataStr : Option Bytes
  puts : List Put
deriving DecidableEq, Repr

def ProbeState.start : ProbeState where
  dataStr := none
  puts := []

def ProbeState.offered (state : ProbeState) : List Bytes :=
  state.puts.map Put.text

def strlen (buffer : Bytes) : Nat :=
  (buffer.takeWhile (· ≠ 0)).length

/-- The loop over the bytes of one buffer; `none` where it writes past the end
of `dataStr`. -/
def feedBytes (outcomes : Nat → PutOutcome) : Bytes → ProbeState → Option ProbeState
  | [], state => some state
  | byte :: rest, state =>
      let dataStr := state.dataStr.getD []
      if dataStr.length ≥ maxDataStrLen then none
      else if byte = newline then
        let outcome := outcomes state.puts.length
        let puts := state.puts ++ [{ text := dataStr, outcome }]
        match outcome with
        | .full => some { dataStr := none, puts }
        -- the string stays in the buffer although the FIFO has it
        | .untriggered => some { dataStr := some dataStr, puts }
        | .sent => feedBytes outcomes rest { dataStr := none, puts }
      else feedBytes outcomes rest { state with dataStr := some (dataStr ++ [byte]) }

/-- The body of the reading loop after `fgets` has filled the buffer. -/
def feedBuffer (outcomes : Nat → PutOutcome) (state : ProbeState) (buffer : Bytes) : Option ProbeState :=
  if buffer.head? ≠ some bar then some state
  else if strlen buffer ≥ maxDataStrLen then some state
  else feedBytes outcomes (buffer.take (strlen buffer)) state

/-- What successive calls of `fgets` with the 2048 bytes of the buffer leave in
it: one byte is kept for the terminator. -/
def fgetsAll (stream : Bytes) : List Bytes :=
  pieces newline (maxDataStrLen - 1) stream

/-- The run over all a probe ever writes.  `outcomes` tells how each call of
`FifoPut` ends. -/
def runExtendProbe (outcomes : Nat → PutOutcome) (stream : Bytes) : Option ProbeState :=
  (fgetsAll stream).foldlM (feedBuffer outcomes) .start

variable {outcomes : Nat → PutOutcome} {state : ProbeState} {puts : List Put} {held body text buffer rest stream : Bytes}

theorem feedBytes_text (free : newline ∉ text) (room : held.length + text.length ≤ maxDataStrLen) :
    feedBytes outcomes (text ++ rest) { dataStr := some held, puts } =
      feedBytes outcomes rest { dataStr := some (held ++ text), puts } := by
  induction text generalizing held with
  | nil => simp
  | cons byte text ih =>
      simp only [List.mem_cons, not_or] at free
      simp only [List.length_cons] at room
      have inside : ¬ held.length ≥ maxDataStrLen := by omega
      have later : (held ++ [byte]).length + text.length ≤ maxDataStrLen := by
        simp only [List.length_append, List.length_singleton]
        omega
      rw [List.cons_append, feedBytes]
      simp only [Option.getD_some, inside, if_false, Ne.symm free.1]
      rw [ih free.2 later, List.append_assoc, List.singleton_append]

/-- A buffer is allocated for the first byte. -/
theorem feedBytes_fresh (nonempty : text ≠ []) :
    feedBytes outcomes text { dataStr := none, puts } = feedBytes outcomes text { dataStr := some [], puts } := by
  cases text with
  | nil => contradiction
  | cons byte rest => rfl

theorem strlen_of_free (free : 0 ∉ buffer) : strlen buffer = buffer.length := by
  rw [strlen, List.takeWhile_eq_self_iff.mpr]
  intro byte member
  apply decide_eq_true
  intro same
  subst same
  exact free member

theorem feedBuffer_other (other : buffer.head? ≠ some bar) : feedBuffer outcomes state buffer = some state :=
  if_pos other

theorem feedBuffer_opened (opened : buffer.head? = some bar) (terminated : 0 ∉ buffer)
    (short : buffer.length < maxDataStrLen) : feedBuffer outcomes state buffer = feedBytes outcomes buffer state := by
  have length := strlen_of_free terminated
  rw [feedBuffer, if_neg (by simpa using opened), length, if_neg (by omega), List.take_length]

/-- A whole line goes out and leaves no buffer behind. -/
theorem feedBuffer_line (triggers : ∀ number, outcomes number ≠ .untriggered) (opened : body.head? = some bar)
    (free : newline ∉ body) (terminated : 0 ∉ body) (short : body.length < maxDataStrLen - 1) :
    feedBuffer outcomes { dataStr := none, puts } (body ++ [newline]) =
      some { dataStr := none, puts := puts ++ [{ text := body, outcome := outcomes puts.length }] } := by
  have differ : bar ≠ newline := by decide
  have terminatedLine : (0 : UInt8) ∉ body ++ [newline] := by
    simp only [List.mem_append, terminated, List.mem_singleton, false_or]
    decide
  have shortLine : (body ++ [newline]).length < maxDataStrLen := by
    simp only [List.length_append, List.length_singleton]
    omega
  have inside : ¬ body.length ≥ maxDataStrLen := by omega
  rw [feedBuffer_opened ((head?_closed differ).mpr opened) terminatedLine shortLine, feedBytes_fresh (by simp),
    feedBytes_text free (by simp only [List.length_nil]; omega), List.nil_append]
  have certain := triggers puts.length
  simp only [feedBytes, Option.getD_some, inside, if_false, if_true]
  cases outcome : outcomes puts.length with
  | sent => rfl
  | full => rfl
  | untriggered => contradiction

/-- The front of a line stays in the buffer. -/
theorem feedBuffer_front (opened : text.head? = some bar) (free : newline ∉ text) (terminated : 0 ∉ text)
    (short : text.length < maxDataStrLen) :
    feedBuffer outcomes { dataStr := none, puts } text = some { dataStr := some text, puts } := by
  have nonempty : text ≠ [] := by
    intro same
    subst same
    contradiction
  have written : feedBytes outcomes (text ++ []) { dataStr := some [], puts } = _ :=
    feedBytes_text free (by simp only [List.length_nil]; omega)
  rw [List.append_nil] at written
  rw [feedBuffer_opened opened terminated short, feedBytes_fresh nonempty, written]
  rfl

/-- The write position has reached the end of the buffer, or has passed it. -/
def Overrun (result : Option ProbeState) : Prop :=
  ∀ state, result = some state → ∃ held, state.dataStr = some held ∧ maxDataStrLen ≤ held.length

theorem feedBuffer_overrun (opened : buffer.head? = some bar) (terminated : 0 ∉ buffer)
    (short : buffer.length < maxDataStrLen) (filled : maxDataStrLen - 1 ≤ held.length) :
    Overrun (feedBuffer outcomes { dataStr := some held, puts } buffer) := by
  rw [feedBuffer_opened opened terminated short]
  obtain ⟨rest, rfl⟩ := List.head?_eq_some_iff.mp opened
  have differ : bar ≠ newline := by decide
  intro last run
  simp only [feedBytes, Option.getD_some, differ, if_false] at run
  split at run
  · contradiction
  · have reached : maxDataStrLen ≤ (held ++ [bar]).length := by
      rw [List.length_append, List.length_singleton]
      omega
    cases rest with
    | nil =>
        simp only [feedBytes, Option.some.injEq] at run
        subst last
        exact ⟨_, rfl, reached⟩
    | cons byte rest =>
        simp only [feedBytes, Option.getD_some, ge_iff_le, reached, if_true] at run
        contradiction

/-- A full front overruns with the first later buffer that begins with a bar. -/
theorem fold_filled {buffers : List Bytes} (terminated : ∀ buffer ∈ buffers, 0 ∉ buffer)
    (short : ∀ buffer ∈ buffers, buffer.length < maxDataStrLen) (filled : maxDataStrLen - 1 ≤ held.length)
    (spills : maxDataStrLen ≤ held.length ∨ ∃ buffer ∈ buffers, buffer.head? = some bar) :
    Overrun (buffers.foldlM (feedBuffer outcomes) { dataStr := some held, puts }) := by
  induction buffers generalizing held puts with
  | nil =>
      intro last run
      simp only [List.foldlM_nil, pure, Option.some.injEq] at run
      subst last
      rcases spills with reached | ⟨buffer, member, -⟩
      · exact ⟨held, rfl, reached⟩
      · simp at member
  | cons buffer buffers ih =>
      obtain ⟨bufferTerminated, terminated⟩ := List.forall_mem_cons.mp terminated
      obtain ⟨bufferShort, short⟩ := List.forall_mem_cons.mp short
      rw [List.foldlM_cons]
      by_cases opened : buffer.head? = some bar
      · have overrun : Overrun (feedBuffer outcomes { dataStr := some held, puts } buffer) :=
          feedBuffer_overrun opened bufferTerminated bufferShort filled
        cases fed : feedBuffer outcomes { dataStr := some held, puts } buffer with
        | none =>
            intro last run
            contradiction
        | some state =>
            obtain ⟨held, keeps, reached⟩ := overrun state fed
            obtain ⟨dataStr, puts⟩ := state
            cases keeps
            exact ih terminated short (by omega) (.inl reached)
      · rw [feedBuffer_other opened]
        refine ih terminated short filled (spills.imp_right ?_)
        intro given
        obtain ⟨other, member, otherOpened⟩ := given
        rcases List.mem_cons.mp member with rfl | later
        · contradiction
        · exact ⟨other, later, otherOpened⟩

theorem fold_skipped {buffers : List Bytes} (skipped : ∀ buffer ∈ buffers, buffer.head? ≠ some bar) :
    buffers.foldlM (feedBuffer outcomes) state = some state := by
  induction buffers with
  | nil => rfl
  | cons buffer buffers ih =>
      obtain ⟨other, skipped⟩ := List.forall_mem_cons.mp skipped
      rw [List.foldlM_cons, feedBuffer_other other]
      exact ih skipped

/-- After the front of a line that begins with a bar no piece begins with one. -/
def Settled (buffers : List Bytes) : Prop :=
  buffers.Pairwise fun earlier later => earlier.head? = some bar → newline ∉ earlier → later.head? ≠ some bar

instance (buffers : List Bytes) : Decidable (Settled buffers) :=
  inferInstanceAs (Decidable (List.Pairwise _ _))

theorem settled_cons {buffers : List Bytes} (passed : buffer.head? = some bar → newline ∈ buffer) :
    Settled (buffer :: buffers) ↔ Settled buffers := by
  refine List.pairwise_cons.trans (and_iff_right ?_)
  intro later member opened free
  exact absurd (passed opened) free

/-- Where the pieces are settled, the lines offered do not depend on the FIFO
and the write position stays inside the buffer; elsewhere it does not. -/
theorem fold_cut {buffers : List Bytes} (cut : Cut newline (maxDataStrLen - 1) stream buffers)
    (terminated : 0 ∉ stream) (triggers : ∀ number, outcomes number ≠ .untriggered) :
    (Settled buffers →
      ∃ state, buffers.foldlM (feedBuffer outcomes) { dataStr := none, puts } = some state ∧
        state.offered = puts.map Put.text ++ taken newline bar buffers ∧
        ∀ held, state.dataStr = some held → held.length < maxDataStrLen) ∧
      (¬ Settled buffers → Overrun (buffers.foldlM (feedBuffer outcomes) { dataStr := none, puts })) := by
  have differ : bar ≠ newline := by decide
  have positive := maxDataStrLen_pos
  induction cut generalizing puts with
  | done =>
      refine ⟨fun _ => ⟨_, rfl, by simp [ProbeState.offered, taken], by simp⟩, fun unsettled => ?_⟩
      exact absurd List.Pairwise.nil unsettled
  | @last text free nonempty short =>
      rw [List.foldlM_cons, taken_open free]
      refine ⟨fun _ => ?_, fun unsettled => absurd (List.pairwise_singleton _ _) unsettled⟩
      by_cases opened : text.head? = some bar
      · rw [feedBuffer_front opened free terminated (by omega)]
        exact ⟨_, rfl, by simp [ProbeState.offered, taken], by simp; omega⟩
      · rw [feedBuffer_other opened]
        exact ⟨_, rfl, by simp [ProbeState.offered, taken], by simp⟩
  | @closed body rest buffers free short tail ih =>
      simp only [List.mem_append, List.mem_cons, not_or] at terminated
      obtain ⟨bodyTerminated, -, restTerminated⟩ := terminated
      rw [settled_cons fun _ => by simp, List.foldlM_cons, taken_closed differ]
      split
      · rename_i opened
        rw [feedBuffer_line triggers opened free bodyTerminated short]
        obtain ⟨framed, overrun⟩ := @ih (puts ++ [_]) restTerminated
        refine ⟨fun settled => ?_, overrun⟩
        obtain ⟨state, run, offered, inside⟩ := framed settled
        exact ⟨state, run, by rw [offered]; simp, inside⟩
      · rename_i other
        rw [feedBuffer_other (mt (head?_closed differ).mp other)]
        exact ih restTerminated
  | @full text rest buffers free exact tail ih =>
      simp only [List.mem_append, not_or] at terminated
      obtain ⟨textTerminated, restTerminated⟩ := terminated
      rw [List.foldlM_cons, taken_open free]
      by_cases opened : text.head? = some bar
      · -- the front fills the buffer: nothing more is put, and any later bar overruns
        rw [feedBuffer_front opened free textTerminated (by omega)]
        by_cases spills : ∃ buffer ∈ buffers, buffer.head? = some bar
        · have buffersTerminated : ∀ buffer ∈ buffers, (0 : UInt8) ∉ buffer := by
            intro buffer member zero
            rw [← tail.flatten] at restTerminated
            exact restTerminated (List.mem_flatten.mpr ⟨buffer, member, zero⟩)
          have buffersShort : ∀ buffer ∈ buffers, buffer.length < maxDataStrLen := by
            intro buffer member
            have bounded := tail.length_le buffer member
            omega
          refine ⟨fun settled => ?_, fun _ =>
            fold_filled buffersTerminated buffersShort (Nat.le_of_eq exact.symm) (.inr spills)⟩
          obtain ⟨later, member, barred⟩ := spills
          exact absurd barred ((List.pairwise_cons.mp settled).1 later member opened free)
        · simp only [not_exists, not_and] at spills
          have settled : Settled (text :: buffers) := by
            refine List.pairwise_cons.mpr ⟨fun later member _ _ => spills later member, ?_⟩
            exact List.pairwise_of_forall_mem_list fun earlier _ later member _ _ => spills later member
          have nothing : taken newline bar buffers = [] := by
            rw [taken, List.filter_eq_nil_iff.mpr, List.map_nil]
            intro later member
            simp [spills later member]
          rw [nothing, List.append_nil]
          exact ⟨fun _ => ⟨_, fold_skipped spills, rfl, by simp; omega⟩, fun unsettled => absurd settled unsettled⟩
      · rw [feedBuffer_other opened, settled_cons fun barred => absurd barred opened]
        exact ih restTerminated

theorem cut_fgetsAll (stream : Bytes) : Cut newline (maxDataStrLen - 1) stream (fgetsAll stream) :=
  cut_pieces (by decide) stream

theorem runExtendProbe_settled (terminated : 0 ∉ stream) (triggers : ∀ number, outcomes number ≠ .untriggered)
    (settled : Settled (fgetsAll stream)) :
    ∃ state, runExtendProbe outcomes stream = some state ∧ state.offered = taken newline bar (fgetsAll stream) ∧
      ∀ held, state.dataStr = some held → held.length < maxDataStrLen :=
  (fold_cut (cut_fgetsAll stream) terminated triggers).1 settled

example : (runExtendProbe (fun _ => .sent) (ascii "|a|" ++ newline :: (ascii "b" ++ newline :: ascii "|c"))).map
    ProbeState.offered = some [ascii "|a|"] := rfl

/-- The run never writes outside `dataStr`, and what it offers to the FIFO are
lines of the stream that begin with a bar, each at most once and in order; a
full FIFO costs no line but the one it refuses.  Only a put sets the write
position back, and it needs room for the terminator, so that the last position
is below the bound only if all were. -/
def Framed (outcomes : Nat → PutOutcome) (stream : Bytes) : Prop :=
  ∃ state unhindered, runExtendProbe outcomes stream = some state ∧
    runExtendProbe (fun _ => .sent) stream = some unhindered ∧
    state.offered = unhindered.offered ∧
    state.offered.Sublist (openedLines newline bar stream) ∧
    ∀ held, state.dataStr = some held → held.length < maxDataStrLen

theorem Framed.settled (framed : Framed outcomes stream) (terminated : 0 ∉ stream)
    (triggers : ∀ number, outcomes number ≠ .untriggered) : Settled (fgetsAll stream) := by
  obtain ⟨state, -, run, -, -, -, inside⟩ := framed
  by_contra unsettled
  have overrun : Overrun (runExtendProbe outcomes stream) :=
    (fold_cut (cut_fgetsAll stream) terminated triggers).2 unsettled
  obtain ⟨held, keeps, reached⟩ := overrun state run
  exact absurd (inside held keeps) (Nat.not_lt_of_le reached)

theorem Framed.headed (framed : Framed outcomes stream) (terminated : 0 ∉ stream)
    (triggers : ∀ number, outcomes number ≠ .untriggered) : Headed newline bar (fgetsAll stream) := by
  have settled := framed.settled terminated triggers
  obtain ⟨state, -, run, -, -, sublist, -⟩ := framed
  obtain ⟨same, sameRun, offered, -⟩ := runExtendProbe_settled terminated triggers settled
  rw [run, Option.some.injEq] at sameRun
  subst same
  rw [offered] at sublist
  exact ((cut_fgetsAll stream).taken_sublist_iff (by decide)).mp sublist

theorem framed_of_settled (terminated : 0 ∉ stream) (triggers : ∀ number, outcomes number ≠ .untriggered)
    (headed : Headed newline bar (fgetsAll stream)) (settled : Settled (fgetsAll stream)) :
    Framed outcomes stream := by
  obtain ⟨state, run, offered, inside⟩ := runExtendProbe_settled terminated triggers settled
  have certain : ∀ number : Nat, PutOutcome.sent ≠ .untriggered := fun _ => by decide
  obtain ⟨unhindered, unhinderedRun, unhinderedOffered, -⟩ := runExtendProbe_settled terminated certain settled
  refine ⟨state, unhindered, run, unhinderedRun, by rw [offered, unhinderedOffered], ?_, inside⟩
  rw [offered]
  exact ((cut_fgetsAll stream).taken_sublist_iff (by decide)).mpr headed

/-- A probe that keeps its lines short enough for the buffer is framed. -/
theorem framed_of_short_lines (terminated : 0 ∉ stream) (triggers : ∀ number, outcomes number ≠ .untriggered)
    (short : ∀ line ∈ stream.splitOn newline, line.length < maxDataStrLen - 1) : Framed outcomes stream := by
  have closed := (cut_fgetsAll stream).closed_of_short short
  apply framed_of_settled terminated triggers
  · exact (closed.imp fun ended _ _ => ended).isChain
  · exact closed.imp fun ended _ free => absurd ended free

/-- Lines are framed exactly when no piece `fgets` cuts from an over-long line
begins with a bar and closes it, and no piece begins with a bar after one that
began with a bar and did not reach the end of its line. -/
theorem runExtendProbe_framed_iff (terminated : 0 ∉ stream) (triggers : ∀ number, outcomes number ≠ .untriggered) :
    Framed outcomes stream ↔ Headed newline bar (fgetsAll stream) ∧ Settled (fgetsAll stream) := by
  constructor
  · intro framed
    exact ⟨framed.headed terminated triggers, framed.settled terminated triggers⟩
  · intro given
    obtain ⟨headed, settled⟩ := given
    exact framed_of_settled terminated triggers headed settled

theorem runExtendProbe_framed_two :
    Framed (fun number => if number = 0 then .full else .sent)
      (ascii "|link|7|" ++ newline :: (ascii "started" ++ newline :: (ascii "|link|8|" ++ [newline]))) := by
  refine (runExtendProbe_framed_iff (by decide) ?_).mpr (by decide +kernel)
  intro number
  split <;> decide

/-- A line too long for the buffer, and a short one after it. -/
def overlongOutput : Bytes :=
  bar :: (List.replicate 2047 120 ++ [newline, bar, newline])

theorem runExtendProbe_overruns : ¬ Framed (fun _ => .sent) overlongOutput := by
  intro framed
  exact absurd (framed.settled (by decide +kernel) fun _ => by decide) (by decide +kernel)

end GalaGopher.Probe

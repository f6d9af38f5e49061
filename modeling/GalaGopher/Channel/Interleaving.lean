import GalaGopher.Data.Runs
import GalaGopher.Channel.Ring

namespace GalaGopher.Channel

open Data

/-! One producer and one consumer on a ring, in any order of their steps.

Each call is cut at its two barriers.  Between them a side works with the room
or the length it read at the start of the call. -/

variable {α : Type}

inductive Producer (α : Type) where
  | idle
  | roomy (element : α) (len : UInt32)
  | written (element : α) (len : UInt32)

inductive Consumer (α : Type) where
  | idle
  | counted (elements : α) (len : UInt32)
  | copied (elements : α) (len : UInt32)

/-- The ring with both program counters.  An element counts as put when its
counter is published, and as obtained as soon as it is copied. -/
structure Shared (α : Type) where
  fifo : Fifo α
  producer : Producer α
  consumer : Consumer α
  puts : List α
  gets : List α

def Shared.start (fifo : Fifo α) : Shared α :=
  { fifo, producer := .idle, consumer := .idle, puts := [], gets := [] }

inductive Move (α : Type) where
  | readOut (element : α)
  | write
  | publishIn
  | readIn (elements : α)
  | copy
  | publishOut

/-- What a copied or published length of zero or one adds. -/
def counting (len : UInt32) (element : α) : List α :=
  if len = 0 then [] else [element]

inductive Step : Shared α → Move α → Shared α → Prop where
  | readOut {state : Shared α} {element : α} (idle : state.producer = .idle) :
      Step state (.readOut element) { state with producer := .roomy element (putRoom state.fifo) }
  | write {state : Shared α} {element : α} {len : UInt32} {buffer : List α}
      (roomy : state.producer = .roomy element len) (copied : putCopy state.fifo element len = some buffer) :
      Step state .write
        { state with fifo := { state.fifo with buffer }, producer := .written element len }
  | publishIn {state : Shared α} {element : α} {len : UInt32} (written : state.producer = .written element len) :
      Step state .publishIn
        { state with
          fifo := { state.fifo with «in» := state.fifo.in + len }
          producer := .idle
          puts := state.puts ++ counting len element }
  | readIn {state : Shared α} {elements : α} (idle : state.consumer = .idle) :
      Step state (.readIn elements) { state with consumer := .counted elements (getLength state.fifo) }
  | copy {state : Shared α} {elements obtained : α} {len : UInt32}
      (counted : state.consumer = .counted elements len) (copied : getCopy state.fifo elements len = some obtained) :
      Step state .copy
        { state with consumer := .copied obtained len, gets := state.gets ++ counting len obtained }
  | publishOut {state : Shared α} {elements : α} {len : UInt32} (copied : state.consumer = .copied elements len) :
      Step state .publishOut
        { state with fifo := { state.fifo with out := state.fifo.out + len }, consumer := .idle }

/-- A call that no step of the other side interrupts is the call of the ring. -/
theorem fifoPut_steps {state : Shared α} {element : α} {after : Fifo α} {ret : UInt32}
    (idle : state.producer = .idle) (put : fifoPut state.fifo element = some (after, ret)) :
    ∃ last, Runs Step state [.readOut element, .write, .publishIn] last ∧ last.fifo = after ∧
      last.producer = .idle ∧ last.consumer = state.consumer := by
  unfold fifoPut at put
  simp only [Option.bind_eq_bind, Option.bind_eq_some_iff, Option.pure_def, Option.some.injEq, Prod.mk.injEq] at put
  obtain ⟨buffer, copied, rfl, -⟩ := put
  have first : Runs Step state [.readOut element] _ := .next .start (.readOut idle)
  have second := Runs.next first (.write rfl copied)
  exact ⟨_, .next second (.publishIn rfl), rfl, rfl, rfl⟩

theorem fifoGet_steps {state : Shared α} {elements obtained : α} {after : Fifo α} {ret : UInt32}
    (idle : state.consumer = .idle) (got : fifoGet state.fifo elements = some (after, obtained, ret)) :
    ∃ last, Runs Step state [.readIn elements, .copy, .publishOut] last ∧ last.fifo = after ∧
      last.producer = state.producer ∧ last.consumer = .idle := by
  unfold fifoGet at got
  simp only [Option.bind_eq_bind, Option.bind_eq_some_iff, Option.pure_def, Option.some.injEq, Prod.mk.injEq] at got
  obtain ⟨copy, copied, rfl, -, -⟩ := got
  have first : Runs Step state [.readIn elements] _ := .next .start (.readIn idle)
  have second := Runs.next first (.copy rfl copied)
  exact ⟨_, .next second (.publishOut rfl), rfl, rfl, rfl⟩

namespace Producer

/-- The places a call still needs behind what is published. -/
def claims : Producer α → Nat
  | idle => 0
  | roomy _ len | written _ len => len.toNat

/-- What lies in the buffer but is not published. -/
def laid : Producer α → List α
  | written element len => counting len element
  | _ => []

end Producer

namespace Consumer

/-- The elements a call has counted on and not copied. -/
def awaits : Consumer α → Nat
  | counted _ len => len.toNat
  | _ => 0

/-- The elements copied whose slots are not released. -/
def inHand : Consumer α → Nat
  | copied _ len => len.toNat
  | _ => 0

end Consumer

@[simp] theorem counting_zero (element : α) : counting 0 element = [] := rfl

@[simp] theorem counting_one (element : α) : counting 1 element = [element] := rfl

theorem counting_length {len : UInt32} (short : len.toNat ≤ 1) (element : α) :
    (counting len element).length = len.toNat := by
  unfold counting
  split
  · rename_i zero
    rw [zero]
    rfl
  · rename_i nonzero
    have : len.toNat ≠ 0 := fun none => nonzero (UInt32.toNat_inj.mp none)
    rw [List.length_singleton]
    omega

theorem len_cases {len : UInt32} (short : len.toNat ≤ 1) : len = 0 ∨ len = 1 := by
  rcases Nat.le_one_iff_eq_zero_or_eq_one.mp short with zero | one
  · exact .inl (UInt32.toNat_inj.mp zero)
  · exact .inr (UInt32.toNat_inj.mp one)

/-- `taken` slots have been released since the start.  The counters are the
true counts modulo `2 ^ 32`, and what a side read of the other can only have
grown in its favour since. -/
structure SafeAt (state : Shared α) (taken : Nat) : Prop where
  sound : Sound state.fifo
  published : state.fifo.in.toNat = state.puts.length % 2 ^ 32
  released : state.fifo.out.toNat = taken % 2 ^ 32
  held : taken + state.consumer.inHand = state.gets.length
  behind : state.gets.length + state.consumer.awaits ≤ state.puts.length
  roomy : state.puts.length + state.producer.claims ≤ taken + state.fifo.size.toNat
  placed : Holds state.fifo.buffer taken (state.puts.drop taken ++ state.producer.laid)
  ordered : state.gets = state.puts.take state.gets.length
  oneClaimed : state.producer.claims ≤ 1
  oneAwaited : state.consumer.awaits + state.consumer.inHand ≤ 1

def Safe (state : Shared α) : Prop := ∃ taken, SafeAt state taken

namespace SafeAt

variable {state after : Shared α} {taken : Nat}

theorem between (safe : SafeAt state taken) :
    (state.fifo.in - state.fifo.out).toNat = state.puts.length - taken := by
  have held := safe.held
  have behind := safe.behind
  have roomy := safe.roomy
  have small : state.fifo.size.toNat < 2 ^ 32 := state.fifo.size.toNat_lt
  rw [UInt32.toNat_sub, safe.published, safe.released]
  omega

theorem start {null : α} {size : UInt32} {fifo : Fifo α} (created : fifoCreate null size = some fifo) :
    SafeAt (Shared.start fifo) 0 := by
  obtain ⟨inZero, outZero⟩ := fifoCreate_counters created
  constructor
  · exact (fifoCreate_represents created).2.toSound
  · show fifo.in.toNat = 0
    rw [inZero]
    rfl
  · show fifo.out.toNat = 0
    rw [outZero]
    rfl
  · rfl
  · exact Nat.le_refl 0
  · exact Nat.zero_le _
  · exact Holds.nil _ _
  · rfl
  · exact Nat.zero_le 1
  · exact Nat.zero_le 1

theorem readOut (safe : SafeAt state taken) (idle : state.producer = .idle) (element : α) :
    SafeAt { state with producer := .roomy element (putRoom state.fifo) } taken := by
  have between := safe.between
  obtain ⟨sound, published, released, held, behind, roomy, placed, ordered, -, oneAwaited⟩ := safe
  rw [idle] at roomy placed
  have claimed : (putRoom state.fifo).toNat ≤ 1 ∧
      state.puts.length + (putRoom state.fifo).toNat ≤ taken + state.fifo.size.toNat := by
    rw [putRoom_eq]
    split
    · exact ⟨Nat.zero_le 1, roomy⟩
    · rename_i notFull
      have apart : state.puts.length - taken ≠ state.fifo.size.toNat := by
        intro full
        exact notFull (UInt32.toNat_inj.mp (between.trans full))
      have one : (1 : UInt32).toNat = 1 := rfl
      have none : (Producer.idle : Producer α).claims = 0 := rfl
      omega
  exact ⟨sound, published, released, held, behind, claimed.2, placed, ordered, claimed.1, oneAwaited⟩

/-- The slot a producer writes is the first behind what is published. -/
theorem next_slot (safe : SafeAt state taken) :
    state.fifo.in.toNat % state.fifo.size.toNat =
      (taken + (state.puts.drop taken).length) % state.fifo.buffer.length := by
  have held := safe.held
  have behind := safe.behind
  have through : taken + (state.puts.drop taken).length = state.puts.length := by
    rw [List.length_drop]
    omega
  rw [through, safe.published, safe.sound.cells, Nat.mod_mod_of_dvd _ (size_dvd safe.sound.power)]

theorem write (safe : SafeAt state taken) {element : α} {len : UInt32} {buffer : List α}
    (roomy : state.producer = .roomy element len) (copied : putCopy state.fifo element len = some buffer) :
    SafeAt { state with fifo := { state.fifo with buffer }, producer := .written element len } taken := by
  have slot := next_slot safe
  obtain ⟨sound, published, released, held, behind, room, placed, ordered, oneClaimed, oneAwaited⟩ := safe
  rw [roomy] at room placed oneClaimed
  have unlaid : state.puts.drop taken ++ (Producer.roomy element len).laid = state.puts.drop taken :=
    List.append_nil _
  rw [unlaid] at placed
  rcases len_cases oneClaimed with zero | one
  · subst zero
    rw [sound.putCopy_zero] at copied
    cases copied
    refine ⟨sound, published, released, held, behind, room, ?_, ordered, oneClaimed, oneAwaited⟩
    show Holds state.fifo.buffer taken (state.puts.drop taken ++ [])
    rw [List.append_nil]
    exact placed
  · subst one
    rw [sound.putCopy_one] at copied
    cases copied
    have cells : (state.fifo.buffer.set (state.fifo.in.toNat % state.fifo.size.toNat) element).length =
        state.fifo.size.toNat := (List.length_set ..).trans sound.cells
    refine ⟨⟨sound.power, cells⟩, published, released, held, behind, room, ?_, ordered, oneClaimed, oneAwaited⟩
    show Holds (state.fifo.buffer.set (state.fifo.in.toNat % state.fifo.size.toNat) element) taken
      (state.puts.drop taken ++ [element])
    rw [slot]
    refine placed.append ?_ element
    have one : (Producer.roomy element 1).claims = 1 := rfl
    rw [List.length_drop, sound.cells]
    omega

theorem publishIn (safe : SafeAt state taken) {element : α} {len : UInt32}
    (written : state.producer = .written element len) :
    SafeAt
      { state with
        fifo := { state.fifo with «in» := state.fifo.in + len }
        producer := .idle
        puts := state.puts ++ counting len element } taken := by
  obtain ⟨sound, published, released, held, behind, room, placed, ordered, oneClaimed, oneAwaited⟩ := safe
  rw [written] at room placed oneClaimed
  have added := counting_length oneClaimed element
  have length : (state.puts ++ counting len element).length = state.puts.length + len.toNat := by
    rw [List.length_append, added]
  have claims : (Producer.written element len).claims = len.toNat := rfl
  have reached : taken ≤ state.puts.length := by omega
  refine ⟨⟨sound.power, sound.cells⟩, ?_, released, held, ?_, ?_, ?_, ?_, Nat.zero_le 1, oneAwaited⟩
  · show (state.fifo.in + len).toNat = (state.puts ++ counting len element).length % 2 ^ 32
    rw [UInt32.toNat_add, published, length, Nat.mod_add_mod]
  · show state.gets.length + state.consumer.awaits ≤ (state.puts ++ counting len element).length
    omega
  · show (state.puts ++ counting len element).length + 0 ≤ taken + state.fifo.size.toNat
    omega
  · show Holds state.fifo.buffer taken ((state.puts ++ counting len element).drop taken ++ [])
    rw [List.append_nil, List.drop_append_of_le_length reached]
    exact placed
  · show state.gets = (state.puts ++ counting len element).take state.gets.length
    rw [List.take_append_of_le_length (by omega)]
    exact ordered

theorem readIn (safe : SafeAt state taken) (idle : state.consumer = .idle) (elements : α) :
    SafeAt { state with consumer := .counted elements (getLength state.fifo) } taken := by
  have between := safe.between
  obtain ⟨sound, published, released, held, behind, roomy, placed, ordered, oneClaimed, -⟩ := safe
  rw [idle] at held behind
  have allHeld : taken = state.gets.length := held
  have waiting : (getLength state.fifo).toNat ≤ 1 ∧
      state.gets.length + (getLength state.fifo).toNat ≤ state.puts.length := by
    rw [getLength_eq]
    split
    · exact ⟨Nat.zero_le 1, behind⟩
    · rename_i notEmpty
      have apart : state.puts.length - taken ≠ 0 := by
        intro none
        exact notEmpty (UInt32.toNat_inj.mp (between.trans none))
      have one : (1 : UInt32).toNat = 1 := rfl
      omega
  exact ⟨sound, published, released, held, waiting.2, roomy, placed, ordered, oneClaimed, waiting.1⟩

/-- The slot a consumer reads holds the first element not yet obtained. -/
theorem oldest (safe : SafeAt state taken) {element : α} {items : List α}
    (next : state.puts.drop taken = element :: items) :
    state.fifo.buffer[state.fifo.out.toNat % state.fifo.size.toNat]? = some element := by
  have placed := safe.placed
  rw [next, List.cons_append] at placed
  have slot : state.fifo.out.toNat % state.fifo.size.toNat = taken % state.fifo.buffer.length := by
    rw [safe.released, safe.sound.cells, Nat.mod_mod_of_dvd _ (size_dvd safe.sound.power)]
  rw [slot]
  exact placed.head

theorem copy (safe : SafeAt state taken) {elements obtained : α} {len : UInt32}
    (counted : state.consumer = .counted elements len) (copied : getCopy state.fifo elements len = some obtained) :
    SafeAt { state with consumer := .copied obtained len, gets := state.gets ++ counting len obtained } taken := by
  have first := @oldest _ _ _ safe
  obtain ⟨sound, published, released, held, behind, roomy, placed, ordered, oneClaimed, oneAwaited⟩ := safe
  rw [counted] at held behind oneAwaited
  have allHeld : taken = state.gets.length := held
  have short : len.toNat ≤ 1 := oneAwaited
  have within : state.gets.length + len.toNat ≤ state.puts.length := behind
  have length : (state.gets ++ counting len obtained).length = state.gets.length + len.toNat := by
    rw [List.length_append, counting_length short]
  refine ⟨sound, published, released, ?_, ?_, roomy, placed, ?_, oneClaimed, ?_⟩
  · show taken + len.toNat = (state.gets ++ counting len obtained).length
    rw [length, allHeld]
  · show (state.gets ++ counting len obtained).length + 0 ≤ state.puts.length
    rw [length]
    exact within
  · show state.gets ++ counting len obtained = state.puts.take (state.gets ++ counting len obtained).length
    rw [length]
    rcases len_cases short with zero | one
    · subst zero
      rw [counting_zero, List.append_nil]
      exact ordered
    · subst one
      have inside : taken < state.puts.length := by
        have : (1 : UInt32).toNat = 1 := rfl
        omega
      have next : state.puts.drop taken = state.puts[taken] :: state.puts.drop (taken + 1) :=
        List.drop_eq_getElem_cons inside
      rw [sound.getCopy_one, first next] at copied
      cases copied
      subst allHeld
      show state.gets ++ [state.puts[state.gets.length]] = state.puts.take (state.gets.length + 1)
      rw [List.take_succ_eq_append_getElem inside, ← ordered]
  · show 0 + len.toNat ≤ 1
    omega

theorem publishOut (safe : SafeAt state taken) {elements : α} {len : UInt32}
    (copied : state.consumer = .copied elements len) :
    SafeAt { state with fifo := { state.fifo with out := state.fifo.out + len }, consumer := .idle }
      (taken + len.toNat) := by
  obtain ⟨sound, published, released, held, behind, roomy, placed, ordered, oneClaimed, oneAwaited⟩ := safe
  rw [copied] at held behind
  have allHeld : taken + len.toNat = state.gets.length := held
  have within : state.gets.length ≤ state.puts.length := behind
  refine ⟨⟨sound.power, sound.cells⟩, published, ?_, allHeld, within, ?_, ?_, ordered, oneClaimed,
    Nat.zero_le 1⟩
  · show (state.fifo.out + len).toNat = (taken + len.toNat) % 2 ^ 32
    rw [UInt32.toNat_add, released, Nat.mod_add_mod]
  · show state.puts.length + state.producer.claims ≤ taken + len.toNat + state.fifo.size.toNat
    omega
  · show Holds state.fifo.buffer (taken + len.toNat) (state.puts.drop (taken + len.toNat) ++ state.producer.laid)
    have dropped := placed.drop len.toNat
    rw [List.drop_append_of_le_length (by rw [List.length_drop]; omega), List.drop_drop] at dropped
    exact dropped

end SafeAt

theorem Step.safe {state after : Shared α} {move : Move α} (step : Step state move after) (safe : Safe state) :
    Safe after := by
  obtain ⟨taken, safe⟩ := safe
  cases step with
  | readOut idle => exact ⟨taken, safe.readOut idle _⟩
  | write roomy copied => exact ⟨taken, safe.write roomy copied⟩
  | publishIn written => exact ⟨taken, safe.publishIn written⟩
  | readIn idle => exact ⟨taken, safe.readIn idle _⟩
  | copy counted copied => exact ⟨taken, safe.copy counted copied⟩
  | publishOut copied => exact ⟨_, safe.publishOut copied⟩

/-- No copy leaves the buffer, whatever the other side did meanwhile. -/
structure Defined (state : Shared α) : Prop where
  write : ∀ element len, state.producer = .roomy element len →
    ∃ buffer, putCopy state.fifo element len = some buffer
  copy : ∀ elements len, state.consumer = .counted elements len →
    ∃ obtained, getCopy state.fifo elements len = some obtained

theorem SafeAt.defined {state : Shared α} {taken : Nat} (safe : SafeAt state taken) : Defined state where
  write := by
    intro element len roomy
    have short := safe.oneClaimed
    rw [roomy] at short
    rcases len_cases short with zero | one
    · exact ⟨_, zero ▸ safe.sound.putCopy_zero element⟩
    · exact ⟨_, one ▸ safe.sound.putCopy_one element⟩
  copy := by
    intro elements len counted
    have short := safe.oneAwaited
    have held := safe.held
    have within := safe.behind
    rw [counted] at short held within
    rcases len_cases short with zero | one
    · exact ⟨_, zero ▸ safe.sound.getCopy_zero elements⟩
    · subst one
      have inside : taken < state.puts.length := by
        have allHeld : taken = state.gets.length := held
        have oneMore : state.gets.length + 1 ≤ state.puts.length := within
        omega
      exact ⟨_, (safe.sound.getCopy_one elements).trans (safe.oldest (List.drop_eq_getElem_cons inside))⟩

theorem gets_prefix_puts {null : α} {size : UInt32} {fifo : Fifo α} {moves : List (Move α)} {last : Shared α}
    (created : fifoCreate null size = some fifo) (run : Runs Step (Shared.start fifo) moves last) :
    last.gets <+: last.puts ∧ Defined last := by
  have safe : Safe last :=
    run.invariant Safe ⟨0, SafeAt.start created⟩ fun _ _ _ step safe => step.safe safe
  obtain ⟨taken, safe⟩ := safe
  refine ⟨?_, safe.defined⟩
  rw [safe.ordered]
  exact List.take_prefix _ _

/-- The consumer reads the counter of the producer before it is published,
finds nothing, and obtains the element on its second call. -/
theorem gets_prefix_puts_stale_read :
    [7] <+: [7] ∧ Defined
      { fifo := { buffer := [7, 0], size := 2, «in» := 1, out := 1 }
        producer := .idle, consumer := .idle, puts := [7], gets := [7] : Shared Nat } := by
  have waits : Runs Step (Shared.start { buffer := [0, 0], size := 2, «in» := 0, out := 0 })
      [.readOut 7, .readIn 0, .write]
      { fifo := { buffer := [7, 0], size := 2, «in» := 0, out := 0 }
        producer := .written 7 1, consumer := .counted 0 0, puts := [], gets := [] } :=
    .next (.next (.next .start (.readOut rfl)) (.readIn rfl)) (.write rfl rfl)
  have misses := Runs.next (.next (.next waits (.copy rfl rfl)) (.publishIn rfl)) (.publishOut rfl)
  have obtains := Runs.next (.next (.next misses (@Step.readIn _ _ 0 rfl)) (.copy rfl rfl)) (.publishOut rfl)
  exact @gets_prefix_puts _ 0 2 _ _ _ rfl obtains

end GalaGopher.Channel

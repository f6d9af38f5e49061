import GalaGopher.Data.BoundedQueue
import Mathlib.Algebra.Group.Nat.Defs

namespace GalaGopher.Channel

open Data

/-! The ring of `fifo.c`.  Its counters run freely through all of `uint32_t`
and are masked where a slot is meant.  A copy that would leave the buffer, or
that would read more than the one element passed, has no value here. -/

variable {α : Type}

structure Fifo (α : Type) where
  buffer : List α
  size : UInt32
  «in» : UInt32
  out : UInt32
deriving DecidableEq

def isPowerOfTwo (n : UInt32) : Bool :=
  n ≠ 0 && n &&& (n - 1) = 0

def fifoMin (x1 x2 : UInt32) : UInt32 :=
  if x1 < x2 then x1 else x2

def fifoCreate (null : α) (size : UInt32) : Option (Fifo α) :=
  if isPowerOfTwo size then
    some { buffer := List.replicate size.toNat null, size, «in» := 0, out := 0 }
  else none

/-- `memcpy(buffer + index, &element, sizeof(void *) * count)` -/
def copyIn (buffer : List α) (index count : UInt32) (element : α) : Option (List α) :=
  if count = 0 then some buffer
  else if count = 1 ∧ index.toNat < buffer.length then some (buffer.set index.toNat element)
  else none

/-- `memcpy(elements, buffer + index, sizeof(void *) * count)` -/
def copyOut (elements : α) (buffer : List α) (index count : UInt32) : Option α :=
  if count = 0 then some elements
  else if count = 1 then buffer[index.toNat]?
  else none

/-- The first step of `FifoPut`, up to its first barrier. -/
def putRoom (fifo : Fifo α) : UInt32 :=
  fifoMin 1 (fifo.size - fifo.in + fifo.out)

/-- The copies of `FifoPut`, between its barriers. -/
def putCopy (fifo : Fifo α) (element : α) (len : UInt32) : Option (List α) := do
  let len2 := fifoMin len (fifo.size - (fifo.in &&& (fifo.size - 1)))
  let buffer ← copyIn fifo.buffer (fifo.in &&& (fifo.size - 1)) len2 element
  copyIn buffer 0 (len - len2) element

def fifoPut (fifo : Fifo α) (element : α) : Option (Fifo α × UInt32) := do
  let len := putRoom fifo
  let buffer ← putCopy fifo element len
  pure ({ fifo with buffer, «in» := fifo.in + len }, if len = 0 then -1 else 0)

/-- The first step of `FifoGet`, up to its first barrier. -/
def getLength (fifo : Fifo α) : UInt32 :=
  fifoMin 1 (fifo.in - fifo.out)

/-- The copies of `FifoGet`, between its barriers. -/
def getCopy (fifo : Fifo α) (elements : α) (len : UInt32) : Option α := do
  let len2 := fifoMin len (fifo.size - (fifo.out &&& (fifo.size - 1)))
  let elements ← copyOut elements fifo.buffer (fifo.out &&& (fifo.size - 1)) len2
  copyOut elements fifo.buffer 0 (len - len2)

def fifoGet (fifo : Fifo α) (elements : α) : Option (Fifo α × α × UInt32) := do
  let len := getLength fifo
  let elements ← getCopy fifo elements len
  pure ({ fifo with out := fifo.out + len }, elements, if len = 0 then -1 else 0)

/-- One call as its caller sees it: only the sign of the return code is read,
and `null` is what the variable passed to `FifoGet` holds before. -/
def fifoAnswer (null : α) (fifo : Fifo α) : QueueCall α → Option (Fifo α × QueueReply α)
  | .put element => do
      let (after, ret) ← fifoPut fifo element
      pure (after, if ret = 0 then .stored else .full)
  | .get => do
      let (after, dataStr, ret) ← fifoGet fifo null
      pure (after, if ret = 0 then .obtained dataStr else .empty)

def fifoRun (null : α) (fifo : Fifo α) : List (QueueCall α) → Option (Fifo α × List (QueueReply α))
  | [] => some (fifo, [])
  | call :: calls => do
      let (after, reply) ← fifoAnswer null fifo call
      let (last, replies) ← fifoRun null after calls
      pure (last, reply :: replies)

theorem isPowerOfTwo_iff {n : UInt32} : isPowerOfTwo n = true ↔ n.toNat.isPowerOfTwo := by
  have positive : n ≠ 0 → (n - 1).toNat = n.toNat - 1 := by
    intro nonzero
    rw [UInt32.toNat_sub_of_le]
    · rfl
    · rw [UInt32.le_iff_toNat_le]
      have : n.toNat ≠ 0 := fun zero => nonzero (UInt32.toNat_inj.mp zero)
      exact Nat.pos_of_ne_zero this
  rw [← Nat.ne_zero_and_sub_one_eq_zero_iff_isPowerOfTwo]
  simp only [isPowerOfTwo, ne_eq, Bool.and_eq_true, decide_eq_true_eq]
  constructor
  · rintro ⟨nonzero, masked⟩
    refine ⟨fun zero => nonzero (UInt32.toNat_inj.mp zero), ?_⟩
    rw [← positive nonzero, ← UInt32.toNat_and, masked]
    rfl
  · rintro ⟨nonzero, masked⟩
    have nonzero32 : n ≠ 0 := fun zero => nonzero (by rw [zero]; rfl)
    refine ⟨nonzero32, UInt32.toNat_inj.mp ?_⟩
    rw [UInt32.toNat_and, positive nonzero32, masked]
    rfl

theorem size_dvd {size : UInt32} (power : size.toNat.isPowerOfTwo) : size.toNat ∣ 2 ^ 32 := by
  obtain ⟨exponent, equal⟩ := power
  have bounded : 2 ^ exponent < 2 ^ 32 := by
    rw [← equal]
    exact size.toNat_lt
  rw [equal]
  exact Nat.pow_dvd_pow 2 (Nat.le_of_lt ((Nat.pow_lt_pow_iff_right (by omega)).mp bounded))

theorem size_pos {size : UInt32} (power : size.toNat.isPowerOfTwo) : 0 < size.toNat :=
  Nat.pos_of_isPowerOfTwo power

theorem slot_toNat {size : UInt32} (power : size.toNat.isPowerOfTwo) (counter : UInt32) :
    (counter &&& (size - 1)).toNat = counter.toNat % size.toNat := by
  have positive := size_pos power
  have predecessor : (size - 1).toNat = size.toNat - 1 :=
    UInt32.toNat_sub_of_le _ _ (UInt32.le_iff_toNat_le.mpr positive)
  rw [UInt32.toNat_and, predecessor]
  obtain ⟨exponent, equal⟩ := power
  rw [equal, Nat.and_two_pow_sub_one_eq_mod]

theorem fifoMin_one (x : UInt32) : fifoMin 1 x = if x = 0 then 0 else 1 := by
  unfold fifoMin
  by_cases zero : x = 0
  · subst x
    rfl
  · have positive : x.toNat ≠ 0 := fun none => zero (UInt32.toNat_inj.mp none)
    rw [if_neg zero]
    split
    · rfl
    · rename_i small
      rw [UInt32.lt_iff_toNat_lt] at small
      apply UInt32.toNat_inj.mp
      have one : (1 : UInt32).toNat = 1 := rfl
      omega

/-- A length of at most one never reaches the end of the buffer. -/
theorem fifoMin_room {size len : UInt32} (power : size.toNat.isPowerOfTwo) (short : len.toNat ≤ 1)
    (counter : UInt32) : fifoMin len (size - (counter &&& (size - 1))) = len := by
  have inside : (counter &&& (size - 1)).toNat < size.toNat := by
    rw [slot_toNat power]
    exact Nat.mod_lt _ (size_pos power)
  have room : (size - (counter &&& (size - 1))).toNat = size.toNat - (counter &&& (size - 1)).toNat :=
    UInt32.toNat_sub_of_le _ _ (UInt32.le_iff_toNat_le.mpr (Nat.le_of_lt inside))
  unfold fifoMin
  split
  · rfl
  · rename_i reached
    rw [UInt32.lt_iff_toNat_lt] at reached
    apply UInt32.toNat_inj.mp
    omega

/-- A counter behind another by less than a full turn of `uint32_t`. -/
theorem counter_add {ahead behind : UInt32} {apart : Nat} (counted : (ahead - behind).toNat = apart) :
    ahead.toNat = (behind.toNat + apart) % 2 ^ 32 := by
  have rebuilt : behind + (ahead - behind) = ahead := by
    rw [UInt32.add_comm, UInt32.sub_add_cancel]
  rw [← counted, ← UInt32.toNat_add, rebuilt]

structure Sound (fifo : Fifo α) : Prop where
  power : fifo.size.toNat.isPowerOfTwo
  cells : fifo.buffer.length = fifo.size.toNat

structure Represents (fifo : Fifo α) (items : List α) : Prop extends Sound fifo where
  counted : (fifo.in - fifo.out).toNat = items.length
  fits : items.length ≤ fifo.size.toNat
  placed : Holds fifo.buffer fifo.out.toNat items

variable {fifo : Fifo α} {items : List α}

theorem Sound.slot_lt (sound : Sound fifo) (counter : UInt32) :
    (counter &&& (fifo.size - 1)).toNat < fifo.buffer.length := by
  rw [slot_toNat sound.power, sound.cells]
  exact Nat.mod_lt _ (size_pos sound.power)

theorem Sound.putCopy_zero (sound : Sound fifo) (element : α) : putCopy fifo element 0 = some fifo.buffer := by
  unfold putCopy
  rw [@fifoMin_room fifo.size 0 sound.power (Nat.zero_le 1)]
  rfl

theorem Sound.putCopy_one (sound : Sound fifo) (element : α) :
    putCopy fifo element 1 = some (fifo.buffer.set (fifo.in.toNat % fifo.size.toNat) element) := by
  have inside := sound.slot_lt fifo.in
  unfold putCopy
  rw [@fifoMin_room fifo.size 1 sound.power (Nat.le_refl 1)]
  rw [slot_toNat sound.power] at inside
  simp [copyIn, slot_toNat sound.power, inside]

theorem Sound.getCopy_zero (sound : Sound fifo) (elements : α) : getCopy fifo elements 0 = some elements := by
  unfold getCopy
  rw [@fifoMin_room fifo.size 0 sound.power (Nat.zero_le 1)]
  rfl

theorem Sound.getCopy_one (sound : Sound fifo) (elements : α) :
    getCopy fifo elements 1 = fifo.buffer[fifo.out.toNat % fifo.size.toNat]? := by
  unfold getCopy
  rw [@fifoMin_room fifo.size 1 sound.power (Nat.le_refl 1)]
  simp only [copyOut, slot_toNat sound.power]
  cases fifo.buffer[fifo.out.toNat % fifo.size.toNat]? <;> rfl

theorem putRoom_eq (fifo : Fifo α) :
    putRoom fifo = if fifo.in - fifo.out = fifo.size then 0 else 1 := by
  have sameRoom : fifo.size - fifo.in + fifo.out = 0 ↔ fifo.in - fifo.out = fifo.size := by
    constructor <;> intro equal <;> grind
  unfold putRoom
  rw [fifoMin_one]
  simp only [sameRoom]

theorem getLength_eq (fifo : Fifo α) :
    getLength fifo = if fifo.in - fifo.out = 0 then 0 else 1 := by
  unfold getLength
  rw [fifoMin_one]

theorem Represents.full_iff (represents : Represents fifo items) :
    fifo.in - fifo.out = fifo.size ↔ items.length = fifo.size.toNat := by
  rw [← UInt32.toNat_inj, represents.counted]

theorem Represents.empty_iff (represents : Represents fifo items) :
    fifo.in - fifo.out = 0 ↔ items = [] := by
  rw [← UInt32.toNat_inj, represents.counted]
  exact List.length_eq_zero_iff

theorem fifoPut_full (represents : Represents fifo items) (full : items.length = fifo.size.toNat)
    (element : α) : fifoPut fifo element = some (fifo, -1) := by
  simp [fifoPut, putRoom_eq, represents.full_iff.mpr full, represents.putCopy_zero]

theorem fifoPut_stored (represents : Represents fifo items) (room : items.length < fifo.size.toNat)
    (element : α) :
    ∃ after, fifoPut fifo element = some (after, 0) ∧ after.size = fifo.size ∧
      Represents after (items ++ [element]) := by
  have notFull : ¬ fifo.in - fifo.out = fifo.size := by
    rw [represents.full_iff]
    omega
  let after : Fifo α :=
    { fifo with
      buffer := fifo.buffer.set (fifo.in.toNat % fifo.size.toNat) element
      «in» := fifo.in + 1 }
  have stored : fifoPut fifo element = some (after, 0) := by
    simp [fifoPut, putRoom_eq, notFull, represents.putCopy_one, after]
  have slot : fifo.in.toNat % fifo.size.toNat =
      (fifo.out.toNat + items.length) % fifo.buffer.length := by
    rw [counter_add represents.counted, represents.cells, Nat.mod_mod_of_dvd _ (size_dvd represents.power)]
  refine ⟨after, stored, rfl, ?_⟩
  constructor
  · constructor
    · exact represents.power
    · exact (List.length_set ..).trans represents.cells
  · have next : fifo.in + 1 - fifo.out = fifo.in - fifo.out + 1 := by grind
    have small : fifo.size.toNat < 2 ^ 32 := fifo.size.toNat_lt
    show (fifo.in + 1 - fifo.out).toNat = (items ++ [element]).length
    rw [next, UInt32.toNat_add, represents.counted, List.length_append]
    exact Nat.mod_eq_of_lt (Nat.lt_of_le_of_lt room small)
  · rw [List.length_append]
    exact room
  · show Holds (fifo.buffer.set (fifo.in.toNat % fifo.size.toNat) element) fifo.out.toNat (items ++ [element])
    rw [slot]
    exact represents.placed.append (by rw [represents.cells]; exact room) element

theorem fifoGet_empty (represents : Represents fifo []) (elements : α) :
    fifoGet fifo elements = some (fifo, elements, -1) := by
  simp [fifoGet, getLength_eq, represents.empty_iff.mpr rfl, represents.getCopy_zero]

theorem fifoGet_obtained {element : α} (represents : Represents fifo (element :: items)) (elements : α) :
    ∃ after, fifoGet fifo elements = some (after, element, 0) ∧ after.size = fifo.size ∧
      Represents after items := by
  have notEmpty : ¬ fifo.in - fifo.out = 0 := by
    rw [represents.empty_iff]
    exact List.cons_ne_nil element items
  have oldest : fifo.buffer[fifo.out.toNat % fifo.size.toNat]? = some element := by
    rw [← represents.cells]
    exact represents.placed.head
  let after : Fifo α := { fifo with out := fifo.out + 1 }
  have obtained : fifoGet fifo elements = some (after, element, 0) := by
    simp [fifoGet, getLength_eq, notEmpty, represents.getCopy_one, oldest, after]
  have counted := represents.counted
  rw [List.length_cons] at counted
  refine ⟨after, obtained, rfl, ?_⟩
  constructor
  · constructor
    · exact represents.power
    · exact represents.cells
  · have previous : fifo.in - (fifo.out + 1) = fifo.in - fifo.out - 1 := by grind
    show (fifo.in - (fifo.out + 1)).toNat = items.length
    rw [previous, UInt32.toNat_sub_of_le, counted]
    · exact Nat.add_sub_cancel ..
    · rw [UInt32.le_iff_toNat_le, counted]
      exact Nat.le_add_left ..
  · have fits := represents.fits
    rw [List.length_cons] at fits
    exact Nat.le_of_succ_le fits
  · have wrapped : fifo.out.toNat + 1 ≡ (fifo.out + 1).toNat [MOD fifo.buffer.length] := by
      have whole : fifo.buffer.length ∣ 2 ^ 32 := by
        rw [represents.cells]
        exact size_dvd represents.power
      have sum : (fifo.out + 1).toNat = (fifo.out.toNat + 1) % 2 ^ 32 := UInt32.toNat_add ..
      rw [Nat.ModEq, sum, Nat.mod_mod_of_dvd _ whole]
    exact represents.placed.tail.congr wrapped

theorem fifoCreate_isSome_iff (null : α) (size : UInt32) :
    (fifoCreate null size).isSome ↔ ∃ exponent ≤ 31, size.toNat = 2 ^ exponent := by
  have accepted : (fifoCreate null size).isSome ↔ size.toNat.isPowerOfTwo := by
    rw [← isPowerOfTwo_iff]
    unfold fifoCreate
    cases isPowerOfTwo size <;> simp
  rw [accepted]
  constructor
  · intro power
    obtain ⟨exponent, equal⟩ := power
    have bounded : 2 ^ exponent < 2 ^ 32 := by
      rw [← equal]
      exact size.toNat_lt
    have below := (Nat.pow_lt_pow_iff_right (by omega)).mp bounded
    exact ⟨exponent, Nat.le_of_lt_succ below, equal⟩
  · intro given
    obtain ⟨exponent, -, equal⟩ := given
    exact ⟨exponent, equal⟩

theorem fifoCreate_represents {null : α} {size : UInt32} (created : fifoCreate null size = some fifo) :
    fifo.size = size ∧ Represents fifo [] := by
  unfold fifoCreate at created
  split at created
  · rename_i accepted
    cases created
    refine ⟨rfl, ?_⟩
    constructor
    · constructor
      · exact isPowerOfTwo_iff.mp accepted
      · exact List.length_replicate
    · exact congrArg UInt32.toNat (UInt32.sub_self (a := 0))
    · exact Nat.zero_le _
    · exact Holds.nil _ _
  · cases created

theorem fifoCreate_counters {null : α} {size : UInt32} (created : fifoCreate null size = some fifo) :
    fifo.in = 0 ∧ fifo.out = 0 := by
  unfold fifoCreate at created
  split at created
  · cases created
    exact ⟨rfl, rfl⟩
  · cases created

/-- One call answers as the queue does and leaves a ring that represents the
queue afterwards. -/
theorem fifoAnswer_refines (null : α) {capacity : Nat} {queue : BoundedQueue α capacity}
    (size : fifo.size.toNat = capacity) (represents : Represents fifo queue.items) (call : QueueCall α) :
    ∃ after, fifoAnswer null fifo call = some (after, (queue.answer call).2) ∧
      after.size = fifo.size ∧ Represents after (queue.answer call).1.items := by
  cases call with
  | put element =>
      rcases Nat.lt_or_ge queue.items.length capacity with room | noRoom
      · obtain ⟨after, stored, sameSize, next⟩ := fifoPut_stored represents (by omega) element
        refine ⟨after, ?_, sameSize, ?_⟩
        · simp only [fifoAnswer, stored, BoundedQueue.answer, BoundedQueue.put_stored room]
          rfl
        · simp only [BoundedQueue.answer, BoundedQueue.put_stored room]
          exact next
      · have full := Nat.le_antisymm queue.fits noRoom
        have refused := fifoPut_full represents (by omega) element
        refine ⟨fifo, ?_, rfl, ?_⟩
        · simp only [fifoAnswer, refused, BoundedQueue.answer, BoundedQueue.put_full full]
          rfl
        · simp only [BoundedQueue.answer, BoundedQueue.put_full full]
          exact represents
  | get =>
      cases items : queue.items with
      | nil =>
          have nothing := fifoGet_empty (items ▸ represents) null
          refine ⟨fifo, ?_, rfl, ?_⟩
          · simp only [fifoAnswer, nothing, BoundedQueue.answer, BoundedQueue.get_empty items]
            rfl
          · simp only [BoundedQueue.answer, BoundedQueue.get_empty items]
            exact represents
      | cons element rest =>
          obtain ⟨after, obtained, sameSize, next⟩ := fifoGet_obtained (items ▸ represents) null
          have fits : rest.length ≤ capacity := size ▸ sameSize ▸ next.fits
          refine ⟨after, ?_, sameSize, ?_⟩
          · simp only [fifoAnswer, obtained, BoundedQueue.answer, BoundedQueue.get_obtained items fits]
            rfl
          · simp only [BoundedQueue.answer, BoundedQueue.get_obtained items fits]
            exact next

theorem fifoRun_refines (null : α) {capacity : Nat} {queue : BoundedQueue α capacity}
    (size : fifo.size.toNat = capacity) (represents : Represents fifo queue.items)
    (calls : List (QueueCall α)) :
    ∃ last, fifoRun null fifo calls = some (last, (queue.run calls).2) ∧
      last.size = fifo.size ∧ Represents last (queue.run calls).1.items := by
  induction calls generalizing fifo queue with
  | nil => exact ⟨fifo, rfl, rfl, represents⟩
  | cons call calls ih =>
      obtain ⟨after, answered, sameSize, next⟩ := fifoAnswer_refines null size represents call
      obtain ⟨last, ran, lastSize, final⟩ := ih (by rw [sameSize]; exact size) next
      refine ⟨last, ?_, lastSize.trans sameSize, final⟩
      simp only [fifoRun, answered, Option.bind_eq_bind, Option.bind_some, ran]
      rfl

/-- A call that fails does so for want of room or of elements, and leaves
the ring as it was. -/
structure Answers (fifo : Fifo α) (items : List α) : Prop where
  put : ∀ element, ∃ after ret, fifoPut fifo element = some (after, ret) ∧
    (ret ≠ 0 ↔ items.length = fifo.size.toNat) ∧ (ret ≠ 0 → after = fifo)
  get : ∀ elements, ∃ after obtained ret, fifoGet fifo elements = some (after, obtained, ret) ∧
    (ret ≠ 0 ↔ items = []) ∧ (ret ≠ 0 → after = fifo ∧ obtained = elements) ∧
    (ret = 0 → items.head? = some obtained)

theorem Represents.answers (represents : Represents fifo items) : Answers fifo items where
  put := by
    intro element
    rcases Nat.lt_or_ge items.length fifo.size.toNat with room | noRoom
    · obtain ⟨after, stored, -, -⟩ := fifoPut_stored represents room element
      exact ⟨after, 0, stored, by simp; omega, by simp⟩
    · have full := Nat.le_antisymm represents.fits noRoom
      exact ⟨fifo, -1, fifoPut_full represents full element, by simp [full], by simp⟩
  get := by
    intro elements
    cases items with
    | nil => exact ⟨fifo, elements, -1, fifoGet_empty represents elements, by simp, by simp, by simp⟩
    | cons element rest =>
        obtain ⟨after, obtained, -, -⟩ := fifoGet_obtained represents elements
        exact ⟨after, element, 0, obtained, by simp, by simp, by simp⟩

theorem fifo_refines_bounded_queue (null : α) {size : UInt32} (created : fifoCreate null size = some fifo)
    (calls : List (QueueCall α)) :
    let (queue, replies) := (BoundedQueue.empty : BoundedQueue α size.toNat).run calls
    ∃ last, fifoRun null fifo calls = some (last, replies) ∧
      last.size = size ∧ last.buffer.length = size.toNat ∧ Answers last queue.items ∧
      BoundedQueue.returned replies ++ queue.items = BoundedQueue.accepted calls replies := by
  obtain ⟨sameSize, represents⟩ := fifoCreate_represents created
  have conserved := (BoundedQueue.empty : BoundedQueue α size.toNat).run_conserves calls
  obtain ⟨last, ran, lastSize, final⟩ :=
    @fifoRun_refines _ _ null _ BoundedQueue.empty (congrArg UInt32.toNat sameSize) represents calls
  refine ⟨last, ran, lastSize.trans sameSize, ?_, final.answers, conserved⟩
  rw [final.cells, lastSize, sameSize]

theorem fifo_refines_bounded_queue_two :
    ∃ last, fifoRun 0 { buffer := [0, 0], size := 2, «in» := 0, out := 0 }
        [.get, .put 7, .put 8, .put 9, .get] = some (last, [.empty, .stored, .stored, .full, .obtained 7]) := by
  obtain ⟨last, ran, -⟩ := @fifo_refines_bounded_queue Nat _ 0 2 rfl [.get, .put 7, .put 8, .put 9, .get]
  exact ⟨last, ran⟩

end GalaGopher.Channel

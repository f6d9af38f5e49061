import GalaGopher.Data.KeyedList
import Mathlib.Data.List.Range
import Mathlib.Data.List.Perm.Basic

namespace GalaGopher.Data

/-! The life of the values put into a keyed queue that is drained from its
front.  Every put makes a new version; the ledger says where each one went. -/

structure Version (α : Type) where
  number : Nat
  value : α

/-- The versions still stored, the batches drained with the occasion of each,
the versions replaced with their successors, and those found stale by a drain. -/
structure Ledger (τ α : Type) where
  next : Nat
  stored : List (Version α)
  emitted : List (τ × List (Version α))
  replaced : List (Version α × Version α)
  lapsed : List (Version α × τ)

namespace Ledger

variable {τ α κ : Type} [DecidableEq κ] (key : α → κ) (live : τ → α → Bool)

def empty : Ledger τ α :=
  { next := 0, stored := [], emitted := [], replaced := [], lapsed := [] }

def put (ledger : Ledger τ α) (value : α) : Ledger τ α :=
  let version : Version α := { number := ledger.next, value }
  { ledger with
    next := ledger.next + 1
    stored := ledger.stored.filter (fun other => key other.value ≠ key value) ++ [version]
    replaced := ledger.replaced ++
      (ledger.stored.filter fun other => key other.value = key value).map (·, version) }

/-- The first `count` versions leave: the live ones as a batch, the others as
stale. -/
def drain (ledger : Ledger τ α) (time : τ) (count : Nat) : Ledger τ α :=
  let gone := ledger.stored.take count
  { ledger with
    stored := ledger.stored.drop count
    emitted := ledger.emitted ++ [(time, gone.filter fun version => live time version.value)]
    lapsed := ledger.lapsed ++ (gone.filter fun version => !live time version.value).map (·, time) }

def values (ledger : Ledger τ α) : List α := ledger.stored.map Version.value

def batches (ledger : Ledger τ α) : List (Version α) := ledger.emitted.flatMap Prod.snd

/-- Where every version is. -/
def whereabouts (ledger : Ledger τ α) : List (Version α) :=
  ledger.stored ++ ledger.batches ++ ledger.replaced.map Prod.fst ++ ledger.lapsed.map Prod.fst

/-- Each version is in exactly one place; batches leave in the order of the
puts, ahead of all that is stored; a version replaced has a later successor
under its key, and one dropped as stale was so. -/
structure Sound (ledger : Ledger τ α) : Prop where
  accounted : (ledger.whereabouts.map Version.number).Perm (List.range ledger.next)
  ordered : ((ledger.batches ++ ledger.stored).map Version.number).Pairwise (· < ·)
  succeeded : ∀ pair ∈ ledger.replaced,
    key pair.1.value = key pair.2.value ∧ pair.1.number < pair.2.number
  stale : ∀ pair ∈ ledger.lapsed, live pair.2 pair.1.value = false

variable {key live} {ledger : Ledger τ α}

omit [DecidableEq κ] in
theorem empty_sound : (empty : Ledger τ α).Sound key live where
  accounted := .refl _
  ordered := .nil
  succeeded := by simp [empty]
  stale := by simp [empty]

omit [DecidableEq κ] in
theorem Sound.number_lt (sound : ledger.Sound key live) {version : Version α}
    (member : version ∈ ledger.whereabouts) : version.number < ledger.next :=
  List.mem_range.mp (sound.accounted.subset (List.mem_map_of_mem member))

/-- Splitting versions by a test moves none of their numbers. -/
theorem filter_number_count (test : Version α → Bool) (versions : List (Version α)) (number : Nat) :
    ((versions.filter test).map Version.number).count number +
        ((versions.filter fun version => !test version).map Version.number).count number =
      (versions.map Version.number).count number := by
  have perm := (List.filter_append_perm test versions).map Version.number
  rw [← perm.count_eq, List.map_append, List.count_append]

omit [DecidableEq κ] in
theorem map_pair_fst {β : Type} (versions : List α) (mark : β) :
    (versions.map (·, mark)).map Prod.fst = versions := by
  simp [Function.comp_def]

theorem put_sound (sound : ledger.Sound key live) (value : α) : (ledger.put key value).Sound key live where
  accounted := by
    apply List.perm_iff_count.mpr
    intro number
    have before := sound.accounted.count_eq number
    have split := filter_number_count (fun other => decide (key other.value ≠ key value)) ledger.stored number
    simp only [decide_not, Bool.not_not] at split
    simp only [whereabouts, batches, put, List.map_append, List.count_append, map_pair_fst,
      List.range_succ, decide_not, List.map_cons, List.map_nil] at before ⊢
    omega
  ordered := by
    have order := sound.ordered
    simp only [put, batches, List.map_append, ← List.append_assoc] at order ⊢
    refine List.pairwise_append.mpr ⟨order.sublist ?_, by simp, ?_⟩
    · exact (List.Sublist.refl _).append (List.filter_sublist.map _)
    · intro earlier member last lastMember
      rw [List.map_cons, List.map_nil, List.mem_singleton] at lastMember
      subst last
      rw [← List.map_append] at member
      obtain ⟨version, versionMember, rfl⟩ := List.mem_map.mp member
      apply sound.number_lt
      simp only [whereabouts, List.mem_append]
      rcases List.mem_append.mp versionMember with emitted | stored
      · exact .inl (.inl (.inr emitted))
      · exact .inl (.inl (.inl (List.mem_filter.mp stored).1))
  succeeded := by
    intro pair member
    rcases List.mem_append.mp member with earlier | later
    · exact sound.succeeded pair earlier
    · obtain ⟨version, versionMember, rfl⟩ := List.mem_map.mp later
      obtain ⟨stored, same⟩ := List.mem_filter.mp versionMember
      refine ⟨by simpa using same, sound.number_lt ?_⟩
      simp only [whereabouts, List.mem_append]
      exact .inl (.inl (.inl stored))
  stale := sound.stale

omit [DecidableEq κ] in
theorem drain_sound (sound : ledger.Sound key live) (time : τ) (count : Nat) :
    (ledger.drain live time count).Sound key live where
  accounted := by
    apply List.perm_iff_count.mpr
    intro number
    have before := sound.accounted.count_eq number
    have split := filter_number_count (fun version => live time version.value)
      (ledger.stored.take count) number
    have whole : (ledger.stored.map Version.number).count number =
        ((ledger.stored.take count).map Version.number).count number +
          ((ledger.stored.drop count).map Version.number).count number := by
      rw [← List.count_append, ← List.map_append, List.take_append_drop]
    simp only [whereabouts, batches, drain, List.map_append, List.count_append, map_pair_fst,
      List.flatMap_append, List.flatMap_cons, List.flatMap_nil, List.append_nil] at before ⊢
    omega
  ordered := by
    refine sound.ordered.sublist (List.Sublist.map _ ?_)
    simp only [batches, drain, List.flatMap_append, List.flatMap_cons, List.flatMap_nil,
      List.append_nil, List.append_assoc]
    apply (List.Sublist.refl _).append
    have part := (List.filter_sublist (p := fun version => live time version.value)
      (l := ledger.stored.take count)).append (List.Sublist.refl (ledger.stored.drop count))
    rwa [List.take_append_drop] at part
  succeeded := sound.succeeded
  stale := by
    intro pair member
    rcases List.mem_append.mp member with earlier | later
    · exact sound.stale pair earlier
    · obtain ⟨version, versionMember, rfl⟩ := List.mem_map.mp later
      simpa using (List.mem_filter.mp versionMember).2

/-- On its values, a put of the ledger is a put of the keyed list. -/
theorem put_values (distinct : KeyedList.Distinct key ledger.values) (value : α) :
    (ledger.put key value).values = KeyedList.put key value ledger.values := by
  rw [KeyedList.put, KeyedList.remove_eq_filter distinct]
  simp [values, put, List.filter_map, Function.comp_def]

omit [DecidableEq κ] in
theorem drain_values (time : τ) (count : Nat) :
    (ledger.drain live time count).values = ledger.values.drop count := by
  simp [values, drain, List.map_drop]

/-- A drain whose live part is a quota of the live values takes the oldest
live versions and leaves the rest. -/
theorem drain_quota (live : τ → α → Bool) (ledger : Ledger τ α) {time : τ} {count quota : Nat}
    (exact : (ledger.values.take count).filter (live time) = (ledger.values.filter (live time)).take quota) :
    let due := ledger.stored.filter fun version => live time version.value
    (ledger.stored.take count).filter (fun version => live time version.value) = due.take quota ∧
      (ledger.drain live time count).stored.filter (fun version => live time version.value) =
        due.drop quota := by
  intro due
  have whole : due = (ledger.stored.take count).filter (fun version => live time version.value) ++
      (ledger.stored.drop count).filter fun version => live time version.value := by
    rw [← List.filter_append, List.take_append_drop]
  have length := congrArg List.length exact
  simp only [values, ← List.map_take, List.filter_map, List.length_map, List.length_take,
    Function.comp_def] at length
  have oldest : (ledger.stored.take count).filter (fun version => live time version.value) =
      due.take quota := by
    have front := List.prefix_iff_eq_take.mp ⟨_, whole.symm⟩
    rw [front, length, ← List.take_eq_take_min]
  refine ⟨oldest, ?_⟩
  have rest := List.take_append_drop quota due
  rw [← oldest] at rest
  exact (List.append_cancel_left (rest.trans whole)).symm

/-- The version with this number has left the store, one way or another. -/
def Gone (ledger : Ledger τ α) (number : Nat) : Prop :=
  number ∈ (ledger.batches ++ ledger.replaced.map Prod.fst ++ ledger.lapsed.map Prod.fst).map Version.number

omit [DecidableEq κ] in
theorem Sound.not_gone (sound : ledger.Sound key live) {version : Version α}
    (stored : version ∈ ledger.stored) : ¬ ledger.Gone version.number := by
  intro gone
  have distinct := sound.accounted.nodup_iff.mpr List.nodup_range
  rw [whereabouts, List.append_assoc, List.append_assoc, List.map_append, ← List.append_assoc] at distinct
  exact (List.nodup_append.mp distinct).2.2 _ (List.mem_map_of_mem stored) _ gone rfl

theorem gone_of_drain {time : τ} {count : Nat} {version : Version α}
    (member : version ∈ ledger.stored.take count) : (ledger.drain live time count).Gone version.number := by
  simp only [Gone, List.map_append, List.mem_append, drain, batches, List.flatMap_append,
    List.flatMap_singleton, map_pair_fst]
  cases fresh : live time version.value with
  | true => exact .inl (.inl (.inr (List.mem_map_of_mem (List.mem_filter.mpr ⟨member, fresh⟩))))
  | false =>
      exact .inr (.inr (List.mem_map_of_mem (List.mem_filter.mpr ⟨member, by simp [fresh]⟩)))

end Ledger

end GalaGopher.Data

import GalaGopher.Ebpf.Block.Periods
import Mathlib.Logic.Function.Basic

namespace GalaGopher.Ebpf

open Data

inductive BlockEvent where
  | sample (sample : Sample)
  | error (hook : ErrorHook) (time : UInt64)

/-- The samples in each category's statistics and the errors in the counters. -/
structure Contributions where
  samples : Category → List Sample
  errors : List (ErrorHook × UInt64)

namespace Contributions

def empty : Contributions := { samples := fun _ => [], errors := [] }

/-- `INIT_LATENCY_STATS` drops what its own category had, and the `memset`s at
a rollover what everything had. -/
def accept (contributions : Contributions) (sample : Sample) : Phase → Contributions
  | .idle | .late => contributions
  | .opening =>
      { contributions with
        samples := Function.update contributions.samples sample.category [sample] }
  | .within =>
      { contributions with
        samples := Function.update contributions.samples sample.category
          (contributions.samples sample.category ++ [sample]) }
  | .rollover => { empty with samples := Function.update empty.samples sample.category [sample] }

/-- An event without a counter leaves no trace. -/
def countError (contributions : Contributions) (hook : ErrorHook) (time : UInt64) : Contributions :=
  if hook.counted then
    { contributions with errors := contributions.errors ++ [(hook, time)] }
  else
    contributions

/-- The times of all that contributes. -/
def Includes (contributions : Contributions) (time : UInt64) : Prop :=
  (∃ category, ∃ sample ∈ contributions.samples category, sample.ts = time) ∨
    ∃ error ∈ contributions.errors, error.2 = time

/-- All that contributes fits one interval. -/
def OneWindow (contributions : Contributions) : Prop :=
  ∀ first second, contributions.Includes first → contributions.Includes second →
    Nat.dist first.toNat second.toNat ≤ blockprobeIntervalNs.toNat

end Contributions

structure TracedBlock where
  bdata : BlockData
  contributions : Contributions

namespace TracedBlock

def fresh : TracedBlock := { bdata := {}, contributions := .empty }

def step (traced : TracedBlock) : BlockEvent → TracedBlock
  | .sample sample =>
      { bdata := traced.bdata.accept sample
        contributions := traced.contributions.accept sample (traced.bdata.phase sample) }
  | .error hook time =>
      { bdata := traced.bdata.countError hook
        contributions := traced.contributions.countError hook time }

def after (events : List BlockEvent) : TracedBlock := events.foldl step fresh

@[simp] theorem after_concat (events : List BlockEvent) (event : BlockEvent) :
    after (events ++ [event]) = (after events).step event := by
  simp [after]

/-- The block itself runs as it does untraced. -/
theorem after_samples (samples : List Sample) :
    (after (samples.map .sample)).bdata = BlockData.afterSamples samples := by
  induction samples using List.reverseRecOn with
  | nil => rfl
  | append_singleton samples sample ih =>
      rw [List.map_append, List.map_singleton, after_concat, BlockData.afterSamples_concat, ← ih]
      rfl

/-- What the block holds is what the contributions amount to. -/
structure Accounts (traced : TracedBlock) : Prop where
  statistics : ∀ category, (traced.bdata.latencyStats category).Summarises
    ((traced.contributions.samples category).map Sample.value)
  errors : ∀ hook : ErrorHook, hook.counted → (traced.bdata.errorCount hook).toNat =
    (traced.contributions.errors.map Prod.fst).count hook % 2 ^ 64

variable {traced : TracedBlock}

theorem fresh_accounts : fresh.Accounts where
  statistics category := by cases category <;> exact LatencyStats.summarises_empty
  errors hook _ := by
    cases hook with
    | iscsiConnErrorEvent err =>
        simp only [fresh, BlockData.errorCount, Vector.getElem?_replicate]
        split <;> rfl
    | _ => rfl

theorem Accounts.sample (accounts : traced.Accounts) (sample : Sample) :
    (traced.step (.sample sample)).Accounts where
  statistics category := by
    simp only [step, BlockData.accept_latencyStats]
    by_cases own : category = sample.category
    · subst own
      cases traced.bdata.phase sample with
      | idle | late => exact accounts.statistics sample.category
      | opening | rollover =>
          simp only [Contributions.accept, Function.update_self, if_true]
          exact LatencyStats.summarises_init (sample.delta >>> 3)
      | within =>
          simp only [Contributions.accept, Function.update_self, if_true, List.map_append]
          exact (accounts.statistics sample.category).calc (sample.delta >>> 3)
    · cases traced.bdata.phase sample with
      | idle | late => exact accounts.statistics category
      | opening | within => simpa [Contributions.accept, own] using accounts.statistics category
      | rollover =>
          simp only [Contributions.accept, Function.update_of_ne own, if_neg own]
          exact LatencyStats.summarises_empty
  errors hook counts := by
    simp only [step, BlockData.accept_errorCount]
    cases phase : traced.bdata.phase sample with
    | rollover => exact fresh_accounts.errors hook counts
    | _ => exact accounts.errors hook counts

theorem Accounts.error (accounts : traced.Accounts) (hook : ErrorHook) (time : UInt64) :
    (traced.step (.error hook time)).Accounts where
  statistics category := by
    simp only [step, BlockData.countError_latencyStats, Contributions.countError]
    split <;> exact accounts.statistics category
  errors counter counts := by
    have before := accounts.errors counter counts
    simp only [step, BlockData.countError_errorCount _ hook counter counts, Contributions.countError]
    by_cases same : counter = hook
    · subst same
      simp only [counts, if_true, UInt64.toNat_add, before, List.map_append, List.count_append]
      simp
    · rw [if_neg same, before]
      split
      case isTrue => simp [Ne.symm same]
      case isFalse => rfl

/-- The block finds a sample later than the opening it holds, and an error
inside the open interval. -/
def InOrder (bdata : BlockData) : BlockEvent → Prop
  | .sample sample => sample.delta ≠ 0 → bdata.ts < sample.ts
  | .error hook time =>
      hook.counted → bdata.ts ≠ 0 ∧ bdata.ts ≤ time ∧ time - bdata.ts < blockprobeIntervalNs

/-- All that contributes lies in the open interval. -/
def Confined (traced : TracedBlock) : Prop :=
  ∀ time, traced.contributions.Includes time →
    traced.bdata.ts ≠ 0 ∧ traced.bdata.ts ≤ time ∧ time - traced.bdata.ts < blockprobeIntervalNs

theorem Confined.oneWindow (confined : traced.Confined) : traced.contributions.OneWindow := by
  intro first second firstIn secondIn
  obtain ⟨_, fromFirst, firstWithin⟩ := confined first firstIn
  obtain ⟨_, fromSecond, secondWithin⟩ := confined second secondIn
  rw [UInt64.lt_iff_toNat_lt, UInt64.toNat_sub_of_le _ _ fromFirst] at firstWithin
  rw [UInt64.lt_iff_toNat_lt, UInt64.toNat_sub_of_le _ _ fromSecond] at secondWithin
  rw [UInt64.le_iff_toNat_le] at fromFirst fromSecond
  simp only [Nat.dist]
  omega

theorem includes_accept {contributions : Contributions} {sample : Sample} {phase : Phase} {time : UInt64}
    (included : (contributions.accept sample phase).Includes time) :
    (contributions.Includes time ∧ phase ≠ .rollover) ∨
      (time = sample.ts ∧ phase ≠ .idle ∧ phase ≠ .late) := by
  have updated : ∀ (before : Category → List Sample) (own : List Sample) (category : Category) (member : Sample),
      member ∈ Function.update before sample.category own category →
        member ∈ before category ∨ member ∈ own := by
    intro before own category member inside
    by_cases same : category = sample.category
    · rw [same, Function.update_self] at inside
      exact .inr inside
    · rw [Function.update_of_ne same] at inside
      exact .inl inside
  cases phase with
  | idle | late => exact .inl ⟨included, by decide⟩
  | opening =>
      rcases included with ⟨category, member, inside, rfl⟩ | error
      · rcases updated _ _ _ _ inside with kept | new
        · exact .inl ⟨.inl ⟨category, member, kept, rfl⟩, by decide⟩
        · exact .inr ⟨by rw [List.mem_singleton.mp new], by decide, by decide⟩
      · exact .inl ⟨.inr error, by decide⟩
  | within =>
      rcases included with ⟨category, member, inside, rfl⟩ | error
      · rcases updated _ _ _ _ inside with kept | own
        · exact .inl ⟨.inl ⟨category, member, kept, rfl⟩, by decide⟩
        · rcases List.mem_append.mp own with kept | new
          · exact .inl ⟨.inl ⟨_, member, kept, rfl⟩, by decide⟩
          · exact .inr ⟨by rw [List.mem_singleton.mp new], by decide, by decide⟩
      · exact .inl ⟨.inr error, by decide⟩
  | rollover =>
      rcases included with ⟨category, member, inside, rfl⟩ | ⟨error, inside, _⟩
      · rcases updated _ _ _ _ inside with kept | new
        · simp [Contributions.empty] at kept
        · exact .inr ⟨by rw [List.mem_singleton.mp new], by decide, by decide⟩
      · simp [Contributions.accept, Contributions.empty] at inside

theorem fresh_confined : fresh.Confined := by
  rintro time (⟨category, sample, member, _⟩ | ⟨error, member, _⟩) <;>
    simp [fresh, Contributions.empty] at member

theorem Confined.sample (confined : traced.Confined) (sample : Sample)
    (inOrder : InOrder traced.bdata (.sample sample)) : (traced.step (.sample sample)).Confined := by
  intro time included
  have ts := traced.bdata.accept_ts sample
  have spec := traced.bdata.phase_spec sample
  have arrived := includes_accept included
  have opens : sample.ts ≠ 0 → sample.ts ≠ 0 ∧ sample.ts ≤ sample.ts ∧
      sample.ts - sample.ts < blockprobeIntervalNs := by
    intro nonzero
    exact ⟨nonzero, UInt64.le_refl _, by rw [UInt64.sub_self]; decide⟩
  simp only [step]
  cases phase : traced.bdata.phase sample with
  | idle =>
      simp only [phase] at ts spec arrived
      rw [ts]
      rcases arrived with ⟨before, _⟩ | ⟨_, timed, _⟩
      · exact confined time before
      · contradiction
  | opening =>
      simp only [phase] at ts spec arrived
      rw [ts]
      rcases arrived with ⟨before, _⟩ | ⟨rfl, _⟩
      · exact absurd spec.2 (confined time before).1
      · have later := inOrder spec.1
        rw [spec.2] at later
        exact opens (UInt64.ne_of_lt later).symm
  | within =>
      simp only [phase] at ts spec arrived
      rw [ts]
      rcases arrived with ⟨before, _⟩ | ⟨rfl, _⟩
      · exact confined time before
      · exact ⟨spec.2.1, UInt64.le_of_lt spec.2.2.1, spec.2.2.2⟩
  | rollover =>
      simp only [phase] at ts spec arrived
      rw [ts]
      rcases arrived with ⟨_, kept⟩ | ⟨rfl, _⟩
      · contradiction
      · apply opens
        rintro zero
        rw [zero] at spec
        exact UInt64.not_lt_zero spec.2.2.1
  | late =>
      simp only [phase] at spec
      exact absurd (inOrder spec.1) spec.2.2

theorem Confined.error (confined : traced.Confined) (hook : ErrorHook) (time : UInt64)
    (inOrder : InOrder traced.bdata (.error hook time)) : (traced.step (.error hook time)).Confined := by
  intro moment included
  simp only [step, BlockData.countError_ts]
  simp only [step, Contributions.countError] at included
  split at included
  case isTrue counts =>
      rcases included with samples | ⟨error, member, rfl⟩
      · exact confined moment (.inl samples)
      · rcases List.mem_append.mp member with kept | new
        · exact confined error.2 (.inr ⟨error, kept, rfl⟩)
        · rw [List.mem_singleton.mp new]
          exact inOrder counts
  case isFalse => exact confined moment included

/-- Every event of a run in order: `InOrder` of the block as the event finds it. -/
def RunsInOrder (events : List BlockEvent) : Prop :=
  ∀ earlier event, earlier ++ [event] <+: events → InOrder (after earlier).bdata event

theorem after_confined {events : List BlockEvent} (inOrder : RunsInOrder events) :
    (after events).Confined := by
  induction events using List.reverseRecOn with
  | nil => exact fresh_confined
  | append_singleton events event ih =>
      have before := ih fun earlier last part =>
        inOrder earlier last (part.trans (List.prefix_append events [event]))
      have fits := inOrder events event List.prefix_rfl
      rw [after_concat]
      cases event with
      | sample sample => exact before.sample sample fits
      | error hook time => exact before.error hook time fits

theorem contributions_oneWindow {events : List BlockEvent} (inOrder : RunsInOrder events)
    (earlier : List BlockEvent) (part : earlier <+: events) : (after earlier).contributions.OneWindow :=
  (after_confined fun first event inner => inOrder first event (inner.trans part)).oneWindow

instance (bdata : BlockData) : (event : BlockEvent) → Decidable (InOrder bdata event)
  | .sample sample => inferInstanceAs (Decidable (sample.delta ≠ 0 → bdata.ts < sample.ts))
  | .error hook time =>
      inferInstanceAs (Decidable (hook.counted = true → bdata.ts ≠ 0 ∧ bdata.ts ≤ time ∧ time - bdata.ts < blockprobeIntervalNs))

theorem runsInOrder_of_each {events : List BlockEvent}
    (each : ∀ place : Fin events.length, InOrder (after (events.take place)).bdata (events.get place)) :
    RunsInOrder events := by
  rintro earlier event ⟨later, rfl⟩
  have here := each ⟨earlier.length, by simp⟩
  simpa using here

/-- Two categories and a counted error in one period, and the next one begun. -/
def mixedEvents : List BlockEvent :=
  [.sample { category := .req, delta := 8, ts := 1 }, .error .scsiDispatchCmdTimeout 5,
    .sample { category := .drv, delta := 16, ts := 7 }, .sample { category := .dev, delta := 0, ts := 8 },
    .error (.iscsiConnErrorEvent 1003) 9, .sample { category := .req, delta := 80, ts := 6000000000 },
    .error .sasTaskAbort 6000000001]

theorem contributions_oneWindow_rollover :
    (after (mixedEvents.take 5)).contributions.errors =
        [(.scsiDispatchCmdTimeout, 5), (.iscsiConnErrorEvent 1003, 9)] ∧
      (after (mixedEvents.take 5)).contributions.OneWindow ∧ (after mixedEvents).contributions.OneWindow := by
  have inOrder : RunsInOrder mixedEvents := runsInOrder_of_each (by decide +kernel)
  exact ⟨by decide +kernel, contributions_oneWindow inOrder _ (List.take_prefix 5 _),
    contributions_oneWindow inOrder _ List.prefix_rfl⟩

theorem contributions_oneWindow_late : ¬ ∀ samples : List Sample, (∀ sample ∈ samples, 0 < sample.delta) →
    ∀ earlier, earlier <+: samples → (after (earlier.map .sample)).contributions.OneWindow := by
  intro oneWindow
  let samples : List Sample :=
    [{ category := .drv, delta := 8, ts := 1 }, { category := .req, delta := 8, ts := 1 },
      { category := .req, delta := 8, ts := 10000000000 }]
  have window := oneWindow samples (by decide) samples List.prefix_rfl
  have early : (after (samples.map .sample)).contributions.Includes 1 :=
    .inl ⟨.drv, { category := .drv, delta := 8, ts := 1 }, by decide +kernel, rfl⟩
  have last : (after (samples.map .sample)).contributions.Includes 10000000000 :=
    .inl ⟨.req, { category := .req, delta := 8, ts := 10000000000 }, by decide +kernel, rfl⟩
  exact absurd (window 1 10000000000 early last) (by decide)

end TracedBlock

end GalaGopher.Ebpf

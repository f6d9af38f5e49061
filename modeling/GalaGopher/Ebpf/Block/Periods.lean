import GalaGopher.Ebpf.Block

namespace GalaGopher.Ebpf

open Data

/-- A delta as the statistics take it. -/
def Sample.value (sample : Sample) : Nat := (sample.delta >>> 3).toNat

theorem Sample.value_eq (sample : Sample) : sample.value = sample.delta.toNat / 8 := by
  simp [value, Nat.shiftRight_eq_div_pow]

/-- The samples of the current period: those with a latency, since the one
that opened it. -/
def period (samples : List Sample) : List Sample :=
  openWindow (fun sample : Sample => sample.ts.toNat) blockprobeIntervalNs.toNat
    (samples.filter fun sample => sample.delta ≠ 0)

theorem period_concat (samples : List Sample) (sample : Sample) : period (samples ++ [sample]) =
    if sample.delta = 0 then period samples
    else enterWindow (fun sample : Sample => sample.ts.toNat) blockprobeIntervalNs.toNat (period samples) sample := by
  by_cases timed : sample.delta = 0 <;> simp [period, timed]

def valuesOf (category : Category) (samples : List Sample) : List Nat :=
  (samples.filter fun sample => sample.category = category).map Sample.value

/-- Samples as the completions of requests follow one another. -/
structure Ordered (samples : List Sample) : Prop where
  positive : ∀ sample ∈ samples, 0 < sample.ts
  increasing : samples.Pairwise fun earlier later => earlier.ts < later.ts

theorem Ordered.initial {earlier samples : List Sample} (ordered : Ordered samples)
    (part : earlier <+: samples) : Ordered earlier where
  positive sample member := ordered.positive sample (part.subset member)
  increasing := ordered.increasing.sublist part.sublist

theorem toNat_larger (left right : UInt64) :
    (if left > right then left else right).toNat = max left.toNat right.toNat := by
  split
  case isTrue larger =>
      have := UInt64.lt_iff_toNat_lt.mp larger
      omega
  case isFalse larger =>
      have := mt UInt64.lt_iff_toNat_lt.mpr larger
      omega

namespace LatencyStats

variable {stats : LatencyStats} {values : List Nat}

/-- All but the jitter. -/
structure Summarises (stats : LatencyStats) (values : List Nat) : Prop where
  maximum : stats.latencyMax.toNat = values.foldr max 0
  last : stats.latencyLast.toNat = values.getLast?.getD 0
  sum : stats.latencySum.toNat = values.sum % 2 ^ 64
  count : stats.countLatency.toNat = values.length % 2 ^ 32

theorem summarises_empty : ({} : LatencyStats).Summarises [] := ⟨rfl, rfl, rfl, rfl⟩

theorem summarises_init (delta : UInt64) : (init delta).Summarises [delta.toNat] where
  maximum := by simp [init]
  last := by simp [init]
  sum := by simp [init]
  count := rfl

theorem Summarises.calc (summary : stats.Summarises values) (delta : UInt64) :
    (stats.calc delta).Summarises (values ++ [delta.toNat]) where
  maximum := by
    rw [foldr_max_concat, ← summary.maximum]
    exact toNat_larger stats.latencyMax delta
  last := by simp [LatencyStats.calc]
  sum := by
    have before := summary.sum
    simp only [LatencyStats.calc, UInt64.toNat_add, before, List.sum_append, List.sum_singleton]
    omega
  count := by
    have before := summary.count
    simp only [LatencyStats.calc, UInt32.toNat_add, before, List.length_append, List.length_singleton]
    simp

theorem calc_jitter (delta : UInt64) : (stats.calc delta).latencyJitter.toNat =
    max stats.latencyJitter.toNat (Nat.dist stats.latencyLast.toNat delta.toNat) := by
  have step : (if stats.latencyLast > delta then stats.latencyLast - delta
      else delta - stats.latencyLast).toNat = Nat.dist stats.latencyLast.toNat delta.toNat := by
    split
    case isTrue larger =>
        have bound := UInt64.lt_iff_toNat_lt.mp larger
        rw [UInt64.toNat_sub_of_le _ _ (UInt64.le_of_lt larger), Nat.dist_comm, Nat.dist_eq_sub_of_le bound.le]
    case isFalse larger =>
        have bound := UInt64.not_lt.mp larger
        rw [UInt64.toNat_sub_of_le _ _ bound, Nat.dist_eq_sub_of_le (UInt64.le_iff_toNat_le.mp bound)]
  rw [← step, Nat.max_comm]
  exact toNat_larger _ _

end LatencyStats

section Values

variable (category : Category) (window : List Sample) (sample : Sample)

@[simp] theorem valuesOf_nil : valuesOf category [] = [] := rfl

theorem valuesOf_concat : valuesOf category (window ++ [sample]) =
    if category = sample.category then valuesOf category window ++ [sample.value]
    else valuesOf category window := by
  simp only [valuesOf, List.filter_append, List.map_append, List.filter_cons, List.filter_nil]
  by_cases same : category = sample.category
  · simp [same]
  · simp [same, Ne.symm same]

theorem valuesOf_singleton :
    valuesOf category [sample] = if category = sample.category then [sample.value] else [] :=
  valuesOf_concat category [] sample

/-- The values the jitter of a category is taken over: those of its samples,
behind the zero of the cleared record unless the category opened the period. -/
def jitterValues (category : Category) (window : List Sample) : List Nat :=
  if window.head?.map Sample.category = some category then valuesOf category window
  else 0 :: valuesOf category window

theorem jitterValues_last :
    (jitterValues category window).getLast? = some ((valuesOf category window).getLast?.getD 0) := by
  unfold jitterValues
  split
  case isTrue opens =>
      cases window with
      | nil => simp at opens
      | cons opener rest =>
          have same : opener.category = category := by simpa using opens
          have filled : valuesOf category (opener :: rest) ≠ [] := by simp [valuesOf, same]
          rw [List.getLast?_eq_getLast_of_ne_nil filled, Option.getD_some]
  case isFalse => rw [List.getLast?_cons]

theorem jitterValues_concat (nonempty : window ≠ []) : jitterValues category (window ++ [sample]) =
    if category = sample.category then jitterValues category window ++ [sample.value]
    else jitterValues category window := by
  simp only [jitterValues, List.head?_append_of_ne_nil _ nonempty, valuesOf_concat]
  split <;> split <;> rfl

theorem spread_jitterValues_singleton : spread (jitterValues category [sample]) = 0 := by
  unfold jitterValues
  rw [valuesOf_singleton]
  by_cases same : category = sample.category
  · simp [same]
  · simp [same, Ne.symm same]

end Values

/-- The block holds the statistics of `window`, opened by its first sample. -/
structure Tracks (bdata : BlockData) (window : List Sample) : Prop where
  opened : bdata.ts = (window.head?.map Sample.ts).getD 0
  statistics : ∀ category, (bdata.latencyStats category).Summarises (valuesOf category window)
  jitter : ∀ category,
    (bdata.latencyStats category).latencyJitter.toNat = spread (jitterValues category window)

variable {bdata : BlockData} {samples window : List Sample} {sample : Sample}

theorem Tracks.fresh : Tracks {} [] where
  opened := rfl
  statistics category := by cases category <;> exact LatencyStats.summarises_empty
  jitter category := by cases category <;> rfl

/-- The phases of a block cut the samples as the periods do. -/
theorem Tracks.enter (tracks : Tracks bdata window)
    (timed : sample.delta ≠ 0) (positive : ∀ earlier ∈ window, 0 < earlier.ts)
    (later : ∀ earlier ∈ window, earlier.ts < sample.ts) :
    let entered := enterWindow (fun sample : Sample => sample.ts.toNat) blockprobeIntervalNs.toNat window sample
    (bdata.phase sample = .within ∧ window ≠ [] ∧ entered = window ++ [sample]) ∨
    (bdata.phase sample = .opening ∧ window = [] ∧ entered = [sample]) ∨
    (bdata.phase sample = .rollover ∧ entered = [sample]) := by
  have opened := tracks.opened
  cases window with
  | nil => simp_all [BlockData.phase, enterWindow]
  | cons opener rest =>
      have nonzero := (UInt64.ne_of_lt (positive opener (by simp))).symm
      have order := later opener (by simp)
      have elapsed : sample.ts - opener.ts < blockprobeIntervalNs ↔
          sample.ts.toNat - opener.ts.toNat < blockprobeIntervalNs.toNat := by
        rw [UInt64.lt_iff_toNat_lt, UInt64.toNat_sub_of_le _ _ (UInt64.le_of_lt order)]
      simp only [List.head?_cons, Option.map_some, Option.getD_some] at opened
      simp only [BlockData.phase, timed, opened, nonzero, order, elapsed, enterWindow, if_false, if_true]
      split <;> simp_all

theorem Tracks.extended (tracks : Tracks bdata window) (nonempty : window ≠ [])
    (phase : bdata.phase sample = .within) : Tracks (bdata.accept sample) (window ++ [sample]) where
  opened := by rw [BlockData.accept_ts, phase, tracks.opened, List.head?_append_of_ne_nil _ nonempty]
  statistics category := by
    simp only [BlockData.accept_latencyStats, phase, valuesOf_concat]
    by_cases same : category = sample.category
    · subst same
      rw [if_pos rfl, if_pos rfl]
      exact (tracks.statistics sample.category).calc (sample.delta >>> 3)
    · rw [if_neg same, if_neg same]
      exact tracks.statistics category
  jitter category := by
    simp only [BlockData.accept_latencyStats, phase, jitterValues_concat category window sample nonempty]
    by_cases same : category = sample.category
    · subst same
      rw [if_pos rfl, if_pos rfl, spread_concat (jitterValues_last sample.category window),
        LatencyStats.calc_jitter, tracks.jitter, (tracks.statistics sample.category).last]
      rfl
    · rw [if_neg same, if_neg same]
      exact tracks.jitter category

theorem Tracks.restarted (opened : bdata.ts = sample.ts)
    (own : bdata.latencyStats sample.category = .init (sample.delta >>> 3))
    (others : ∀ category, category ≠ sample.category →
      (bdata.latencyStats category).Summarises [] ∧ (bdata.latencyStats category).latencyJitter = 0) :
    Tracks bdata [sample] where
  opened := opened
  statistics category := by
    rw [valuesOf_singleton]
    by_cases same : category = sample.category
    · rw [if_pos same, same, own]
      exact LatencyStats.summarises_init (sample.delta >>> 3)
    · rw [if_neg same]
      exact (others category same).1
  jitter category := by
    rw [spread_jitterValues_singleton]
    by_cases same : category = sample.category
    · rw [same, own]
      rfl
    · rw [(others category same).2]
      rfl

theorem Tracks.accept (tracks : Tracks bdata window)
    (timed : sample.delta ≠ 0) (positive : ∀ earlier ∈ window, 0 < earlier.ts)
    (later : ∀ earlier ∈ window, earlier.ts < sample.ts) :
    Tracks (bdata.accept sample)
      (enterWindow (fun sample : Sample => sample.ts.toNat) blockprobeIntervalNs.toNat window sample) := by
  rcases tracks.enter timed positive later with
    ⟨phase, nonempty, entered⟩ | ⟨phase, empty, entered⟩ | ⟨phase, entered⟩
  · rw [entered]
    exact tracks.extended nonempty phase
  · rw [entered]
    subst empty
    refine .restarted ?_ ?_ ?_
    · rw [BlockData.accept_ts, phase]
    · simp only [BlockData.accept_latencyStats, phase, if_true]
    · intro category other
      simp only [BlockData.accept_latencyStats, phase, if_neg other]
      refine ⟨tracks.statistics category, UInt64.toNat_inj.mp ?_⟩
      simpa [jitterValues, spread] using tracks.jitter category
  · rw [entered]
    refine .restarted ?_ ?_ ?_
    · rw [BlockData.accept_ts, phase]
    · simp only [BlockData.accept_latencyStats, phase, if_true]
    · intro category other
      have cleared := bdata.accept_latencyStats sample category
      simp only [phase, if_neg other] at cleared
      rw [cleared]
      exact ⟨LatencyStats.summarises_empty, rfl⟩

theorem afterSamples_tracks (ordered : Ordered samples) :
    Tracks (BlockData.afterSamples samples) (period samples) := by
  induction samples using List.reverseRecOn with
  | nil => exact .fresh
  | append_singleton samples sample ih =>
      have before := ih (ordered.initial (List.prefix_append samples [sample]))
      have included : ∀ earlier ∈ period samples, earlier ∈ samples := fun earlier member =>
        (List.mem_filter.mp ((openWindow_suffix _ _ _).subset member)).1
      rw [BlockData.afterSamples_concat]
      by_cases timed : sample.delta = 0
      · rw [period_concat, if_pos timed, BlockData.accept, BlockData.calcLatency, if_pos timed]
        exact before
      · rw [period_concat, if_neg timed]
        apply before.accept timed
        · exact fun earlier member => ordered.positive earlier (by simp [included earlier member])
        · intro earlier member
          exact (List.pairwise_append.mp ordered.increasing).2.2 earlier (included earlier member)
            sample (by simp)

theorem calcLatency_statistics (ordered : Ordered samples)
    (earlier : List Sample) (part : earlier <+: samples) (category : Category) :
    ((BlockData.afterSamples earlier).latencyStats category).Summarises (valuesOf category (period earlier)) :=
  (afterSamples_tracks (ordered.initial part)).statistics category

/-- Three categories, one with an unknown latency, and after a period requests
again. -/
def mixedSamples : List Sample :=
  [{ category := .req, delta := 80, ts := 1 }, { category := .drv, delta := 7, ts := 2 },
    { category := .dev, delta := 0, ts := 3 }, { category := .req, delta := 24, ts := 10 },
    { category := .req, delta := 160, ts := 5000000001 }, { category := .flush, delta := 5, ts := 5000000002 }]

theorem mixedSamples_ordered : Ordered mixedSamples := ⟨by decide, by decide⟩

theorem calcLatency_statistics_rollover :
    ((BlockData.afterSamples (mixedSamples.take 4)).latencyStats .req).Summarises [10, 3] ∧
      ((BlockData.afterSamples mixedSamples).latencyStats .req).Summarises [20] ∧
      ((BlockData.afterSamples mixedSamples).latencyStats .drv).Summarises [] := by
  have early : valuesOf .req (period (mixedSamples.take 4)) = [10, 3] := by decide +kernel
  have late : valuesOf .req (period mixedSamples) = [20] := by decide +kernel
  have dropped : valuesOf .drv (period mixedSamples) = [] := by decide +kernel
  refine ⟨?_, ?_, ?_⟩
  · rw [← early]
    exact calcLatency_statistics mixedSamples_ordered _ (List.take_prefix 4 _) .req
  · rw [← late]
    exact calcLatency_statistics mixedSamples_ordered _ List.prefix_rfl .req
  · rw [← dropped]
    exact calcLatency_statistics mixedSamples_ordered _ List.prefix_rfl .drv

/-- The period with the samples left in that have no latency. -/
def wholePeriod (samples : List Sample) : List Sample :=
  samples.foldl (fun window sample =>
    if sample.delta = 0 then
      if window = [] then [] else window ++ [sample]
    else
      enterWindow (fun sample : Sample => sample.ts.toNat) blockprobeIntervalNs.toNat window sample) []

theorem calcLatency_statistics_untimed : ¬ ∀ samples, Ordered samples →
    ∀ earlier, earlier <+: samples → ∀ category,
      ((BlockData.afterSamples earlier).latencyStats category).Summarises
        (valuesOf category (wholePeriod earlier)) := by
  intro counted
  let samples : List Sample :=
    [{ category := .req, delta := 8, ts := 1 }, { category := .req, delta := 0, ts := 2 }]
  have ordered : Ordered samples := ⟨by decide, by decide⟩
  have count := (counted samples ordered samples List.prefix_rfl .req).count
  exact absurd count (by decide +kernel)

/-- Every sample that opens no period and is the first of its category in its
own counts as 0. -/
def JoinShort (samples : List Sample) : Prop :=
  ∀ earlier, earlier <+: samples → ∀ opener middle sample,
    period earlier = opener :: middle ++ [sample] →
    (∀ other ∈ opener :: middle, other.category ≠ sample.category) → sample.delta < 8

/-- The jitter of every category is that of its samples in the period. -/
def JitterExact (samples : List Sample) : Prop :=
  ∀ earlier, earlier <+: samples → ∀ category,
    ((BlockData.afterSamples earlier).latencyStats category).latencyJitter.toNat =
      spread (valuesOf category (period earlier))

theorem Sample.value_eq_zero : sample.value = 0 ↔ sample.delta < 8 := by
  rw [Sample.value_eq, UInt64.lt_iff_toNat_lt]
  simp only [UInt64.reduceToNat]
  omega

theorem period_concat_cases (samples : List Sample) (sample : Sample) :
    (period (samples ++ [sample]) = period samples) ∨
    (period (samples ++ [sample]) = [sample]) ∨
    (∃ opener rest, period samples = opener :: rest ∧
      period (samples ++ [sample]) = opener :: rest ++ [sample]) := by
  rw [period_concat]
  split
  case isTrue => exact .inl rfl
  case isFalse =>
      cases window : period samples with
      | nil => exact .inr (.inl rfl)
      | cons opener rest =>
          simp only [enterWindow]
          split
          · exact .inr (.inr ⟨opener, rest, rfl, rfl⟩)
          · exact .inr (.inl rfl)

/-- The samples that join a period bring their category in at 0. -/
theorem JoinShort.starts (short : JoinShort samples) (category : Category) (value : Nat)
    (joined : (period samples).head?.map Sample.category ≠ some category)
    (first : (valuesOf category (period samples)).head? = some value) : value = 0 := by
  induction samples using List.reverseRecOn with
  | nil => simp [period] at first
  | append_singleton samples sample ih =>
      have before : JoinShort samples := fun earlier part =>
        short earlier (part.trans (List.prefix_append samples [sample]))
      rcases period_concat_cases samples sample with same | restarted | ⟨opener, rest, window, extended⟩
      · rw [same] at joined first
        exact ih before joined first
      · rw [restarted] at joined first
        simp only [List.head?_cons, Option.map_some, ne_eq, Option.some.injEq] at joined
        simp [valuesOf_singleton, Ne.symm joined] at first
      · rw [extended] at joined first
        cases already : valuesOf category (opener :: rest) with
        | nil =>
            rw [valuesOf_concat, already] at first
            by_cases same : category = sample.category
            · simp only [if_pos same, List.nil_append, List.head?_cons, Option.some.injEq] at first
              rw [← first, Sample.value_eq_zero]
              apply short _ List.prefix_rfl opener rest sample extended
              intro other member equal
              have counted : other.value ∈ valuesOf category (opener :: rest) :=
                List.mem_map_of_mem (List.mem_filter.mpr ⟨member, by simp [equal, same]⟩)
              simp [already] at counted
            · simp [same] at first
        | cons earliest others =>
            apply ih before
            · simpa [window] using joined
            · rw [window, already, ← first, valuesOf_concat, already]
              split <;> rfl

theorem calcLatency_jitter (ordered : Ordered samples) : JitterExact samples ↔ JoinShort samples := by
  constructor
  · intro exactly earlier part opener middle sample window joins
    have jitter := (afterSamples_tracks (ordered.initial part)).jitter sample.category
    have alone : valuesOf sample.category (opener :: middle ++ [sample]) = [sample.value] := by
      have none : valuesOf sample.category (opener :: middle) = [] := by
        rw [valuesOf, List.filter_eq_nil_iff.mpr (by simpa using joins), List.map_nil]
      rw [valuesOf_concat, none, if_pos rfl, List.nil_append]
    have opens : (opener :: middle ++ [sample]).head?.map Sample.category ≠ some sample.category := by
      simpa using joins opener (by simp)
    rw [exactly earlier part, window, jitterValues, if_neg opens, alone] at jitter
    rw [← Sample.value_eq_zero]
    simpa [spread, Nat.dist] using jitter.symm
  · intro short earlier part category
    rw [(afterSamples_tracks (ordered.initial part)).jitter category, jitterValues]
    split
    case isTrue => rfl
    case isFalse joined =>
        cases values : valuesOf category (period earlier) with
        | nil => rfl
        | cons value rest =>
            have before : JoinShort earlier := fun first inner => short first (inner.trans part)
            have zero := before.starts category value joined (by rw [values, List.head?_cons])
            subst zero
            simp [spread, Nat.dist]

theorem calcLatency_jitter_mixed : JitterExact mixedSamples ↔ JoinShort mixedSamples :=
  calcLatency_jitter mixedSamples_ordered

theorem calcLatency_jitter_joined : ¬ ∀ samples, Ordered samples →
    (∀ sample ∈ samples, 0 < sample.delta) → JitterExact samples := by
  intro exactly
  let samples : List Sample :=
    [{ category := .req, delta := 80, ts := 1 }, { category := .drv, delta := 80, ts := 2 }]
  have jitter := exactly samples ⟨by decide, by decide⟩ (by decide) samples List.prefix_rfl .drv
  exact absurd jitter (by decide +kernel)

end GalaGopher.Ebpf

import GalaGopher.Ebpf.Alarms
import GalaGopher.Ebpf.Block.Contributions

namespace GalaGopher.Ebpf

open Data Text Probe LoadBalancer

/-! The latencies that the block and the TCP probe log, against the thresholds
of their options. -/

/-- The categories of `blk_stats`. -/
inductive BlkOperation where
  | req
  | flush
deriving DecidableEq

def BlkOperation.category : BlkOperation → Category
  | .req => .req
  | .flush => .flush

inductive Measure where
  | latency
  | jitter
deriving DecidableEq

/-- The pairs of neighbouring latencies that a jitter is taken of, beside what
contributes to the other statistics. -/
structure TimedBlock where
  traced : TracedBlock := TracedBlock.fresh
  jumps : Category → List (Nat × Nat) := fun _ => []

namespace TimedBlock

/-- The latency that `latency_last` was set from. -/
def lastDelta (timed : TimedBlock) (category : Category) : Nat :=
  ((timed.traced.contributions.samples category).getLast?.map fun sample => sample.delta.toNat).getD 0

def jumpsAfter (timed : TimedBlock) (sample : Sample) : Phase → Category → List (Nat × Nat)
  | .idle | .late => timed.jumps
  | .opening => Function.update timed.jumps sample.category []
  | .within =>
      Function.update timed.jumps sample.category
        (timed.jumps sample.category ++ [(timed.lastDelta sample.category, sample.delta.toNat)])
  | .rollover => fun _ => []

def step (timed : TimedBlock) (event : BlockEvent) : TimedBlock where
  traced := timed.traced.step event
  jumps :=
    match event with
    | .sample sample => timed.jumpsAfter sample (timed.traced.bdata.phase sample)
    | .error .. => timed.jumps

def after (events : List BlockEvent) : TimedBlock := events.foldl step {}

/-- One entry of a measure: in nanoseconds, and as the statistics take it. -/
structure Reading where
  ns : Nat
  eighths : Nat

/-- What `calc_latency` recorded in the period. -/
def readings (timed : TimedBlock) (category : Category) : Measure → List Reading
  | .latency => (timed.traced.contributions.samples category).map fun sample =>
      { ns := sample.delta.toNat, eighths := sample.delta.toNat / 8 }
  | .jitter => (timed.jumps category).map fun jump =>
      { ns := Nat.dist jump.1 jump.2, eighths := Nat.dist (jump.1 / 8) (jump.2 / 8) }

variable {timed : TimedBlock} {category : Category}

theorem after_concat (events : List BlockEvent) (event : BlockEvent) :
    after (events ++ [event]) = (after events).step event := by
  rw [after, List.foldl_append]
  rfl

/-- The greatest entry of a measure, as the statistics take it. -/
def greatest (timed : TimedBlock) (category : Category) (measure : Measure) : Nat :=
  ((timed.readings category measure).map Reading.eighths).foldr max 0

end TimedBlock

def measured (stats : LatencyStats) : Measure → UInt64
  | .latency => stats.latencyMax
  | .jitter => stats.latencyJitter

namespace TcpProbe

end TcpProbe

end GalaGopher.Ebpf

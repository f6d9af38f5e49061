import GalaGopher.Data.Window
import Mathlib.Data.List.Basic

namespace GalaGopher.Ebpf

structure LatencyStats where
  latencyMax : UInt64 := 0
  latencyLast : UInt64 := 0
  latencySum : UInt64 := 0
  latencyJitter : UInt64 := 0
  countLatency : UInt32 := 0
deriving DecidableEq, Repr

/-- `CALC_LATENCY_STATS` -/
def LatencyStats.calc (stats : LatencyStats) (delta : UInt64) : LatencyStats :=
  let jitter :=
    if stats.latencyLast > delta then stats.latencyLast - delta else delta - stats.latencyLast
  { latencyMax := if stats.latencyMax > delta then stats.latencyMax else delta
    latencySum := stats.latencySum + delta
    latencyJitter := if jitter > stats.latencyJitter then jitter else stats.latencyJitter
    countLatency := stats.countLatency + 1
    latencyLast := delta }

/-- `INIT_LATENCY_STATS` -/
def LatencyStats.init (delta : UInt64) : LatencyStats :=
  { latencyMax := delta, latencyLast := delta, latencySum := delta, latencyJitter := 0, countLatency := 1 }

structure BlkStats where
  req : LatencyStats := {}
  flush : LatencyStats := {}
deriving DecidableEq

structure IscsiErrStats where
  countIscsiTmout : UInt64 := 0
  countIscsiErr : UInt64 := 0
deriving DecidableEq

def iscsiErrBase : UInt32 := 1000

def iscsiErrMax : Nat := 23

structure IscsiConnStats where
  connErr : Vector UInt64 iscsiErrMax := Vector.replicate iscsiErrMax 0
deriving DecidableEq

structure BlkSasStats where
  countSasAbort : UInt64 := 0
deriving DecidableEq

def blockprobeIntervalNs : UInt64 := 5000000000

structure BlockData where
  ts : UInt64 := 0
  blkStats : BlkStats := {}
  blkDrvStats : LatencyStats := {}
  blkDevStats : LatencyStats := {}
  iscsiErrStats : IscsiErrStats := {}
  connStats : IscsiConnStats := {}
  sasStats : BlkSasStats := {}
deriving DecidableEq

/-- Which statistics of the block `latency_stats` points to. -/
inductive Category where
  | req
  | flush
  | drv
  | dev
deriving DecidableEq, Repr

namespace BlockData

def latencyStats (bdata : BlockData) : Category → LatencyStats
  | .req => bdata.blkStats.req
  | .flush => bdata.blkStats.flush
  | .drv => bdata.blkDrvStats
  | .dev => bdata.blkDevStats

def setLatencyStats (bdata : BlockData) (category : Category) (stats : LatencyStats) : BlockData :=
  match category with
  | .req => { bdata with blkStats := { bdata.blkStats with req := stats } }
  | .flush => { bdata with blkStats := { bdata.blkStats with flush := stats } }
  | .drv => { bdata with blkDrvStats := stats }
  | .dev => { bdata with blkDevStats := stats }

def calcLatency (bdata : BlockData) (category : Category) (delta ts : UInt64) : BlockData :=
  if delta = 0 then
    bdata
  else
    let us := delta >>> 3
    if bdata.ts = 0 then
      { bdata.setLatencyStats category (.init us) with ts }
    else if ts > bdata.ts then
      if ts - bdata.ts < blockprobeIntervalNs then
        bdata.setLatencyStats category ((bdata.latencyStats category).calc us)
      else
        let cleared := { bdata with ts, blkStats := {}, blkDrvStats := {}, blkDevStats := {} }
        { cleared.setLatencyStats category (.init us) with
          iscsiErrStats := {}, connStats := {}, sasStats := {} }
    else
      { bdata with ts := 0 }

end BlockData

/-- The hooks that time a request; `scsi_dispatch_cmd_done` stands in for
`blk_mq_complete_request` on iSCSI. -/
inductive TimingHook where
  | mqFlushDataEndIo
  | blkAccountIoDone
  | blockRqIssue
  | blkMqCompleteRequest
  | scsiDispatchCmdDone

def TimingHook.category : TimingHook → Category
  | .mqFlushDataEndIo => .flush
  | .blkAccountIoDone => .req
  | .blockRqIssue => .drv
  | .blkMqCompleteRequest | .scsiDispatchCmdDone => .dev

def getDeltaTimeNs (startTimeNs ts : UInt64) : UInt64 :=
  if startTimeNs ≠ 0 ∧ ts > startTimeNs then ts - startTimeNs else 0

structure Sample where
  category : Category
  delta : UInt64
  ts : UInt64
deriving DecidableEq, Repr

/-- What a hook passes on at time `ts` for a request begun at `startTimeNs`. -/
def TimingHook.sample (hook : TimingHook) (startTimeNs ts : UInt64) : Sample :=
  { category := hook.category, delta := getDeltaTimeNs startTimeNs ts, ts }

/-- The hooks that count an error. -/
inductive ErrorHook where
  | scsiDispatchCmdTimeout
  | scsiDispatchCmdError
  | iscsiConnErrorEvent (err : UInt32)
  | sasTaskAbort
deriving DecidableEq, Repr

/-- Whether the event has a counter. -/
def ErrorHook.counted : ErrorHook → Bool
  | .iscsiConnErrorEvent err => err > iscsiErrBase && (err - iscsiErrBase).toNat < iscsiErrMax
  | _ => true

namespace BlockData

def countError (bdata : BlockData) : ErrorHook → BlockData
  | .scsiDispatchCmdTimeout =>
      { bdata with iscsiErrStats.countIscsiTmout := bdata.iscsiErrStats.countIscsiTmout + 1 }
  | .scsiDispatchCmdError =>
      { bdata with iscsiErrStats.countIscsiErr := bdata.iscsiErrStats.countIscsiErr + 1 }
  | .iscsiConnErrorEvent err =>
      if err > iscsiErrBase ∧ (err - iscsiErrBase).toNat < iscsiErrMax then
        let slot := (err - iscsiErrBase).toNat
        let connErr := bdata.connStats.connErr
        { bdata with connStats.connErr := connErr.setIfInBounds slot (connErr[slot]?.getD 0 + 1) }
      else
        bdata
  | .sasTaskAbort => { bdata with sasStats.countSasAbort := bdata.sasStats.countSasAbort + 1 }

/-- The counter an error event goes to. -/
def errorCount (bdata : BlockData) : ErrorHook → UInt64
  | .scsiDispatchCmdTimeout => bdata.iscsiErrStats.countIscsiTmout
  | .scsiDispatchCmdError => bdata.iscsiErrStats.countIscsiErr
  | .iscsiConnErrorEvent err => bdata.connStats.connErr[(err - iscsiErrBase).toNat]?.getD 0
  | .sasTaskAbort => bdata.sasStats.countSasAbort

def accept (bdata : BlockData) (sample : Sample) : BlockData :=
  bdata.calcLatency sample.category sample.delta sample.ts

/-- A block created fresh, after `samples`. -/
def afterSamples (samples : List Sample) : BlockData := samples.foldl accept {}

@[simp] theorem afterSamples_concat (samples : List Sample) (sample : Sample) :
    afterSamples (samples ++ [sample]) = (afterSamples samples).accept sample := by
  simp [afterSamples]

variable (bdata : BlockData) (category other : Category) (stats : LatencyStats)

theorem latencyStats_set : (bdata.setLatencyStats category stats).latencyStats other =
    if other = category then stats else bdata.latencyStats other := by
  cases category <;> cases other <;> rfl

theorem latencyStats_ts (ts : UInt64) : ({ bdata with ts } : BlockData).latencyStats other =
    bdata.latencyStats other := by
  cases other <;> rfl

theorem latencyStats_empty : ({} : BlockData).latencyStats other = {} := by
  cases other <;> rfl

@[simp] theorem ts_set : (bdata.setLatencyStats category stats).ts = bdata.ts := by
  cases category <;> rfl

end BlockData

/-- What a sample does to the block it arrives at. -/
inductive Phase where
  | idle
  | opening
  | within
  | rollover
  | late
deriving DecidableEq, Repr

namespace BlockData

variable (bdata : BlockData) (sample : Sample)

def phase : Phase :=
  if sample.delta = 0 then .idle
  else if bdata.ts = 0 then .opening
  else if bdata.ts < sample.ts then
    if sample.ts - bdata.ts < blockprobeIntervalNs then .within else .rollover
  else .late

theorem phase_spec :
    match bdata.phase sample with
    | .idle => sample.delta = 0
    | .opening => sample.delta ≠ 0 ∧ bdata.ts = 0
    | .within => sample.delta ≠ 0 ∧ bdata.ts ≠ 0 ∧ bdata.ts < sample.ts ∧
        sample.ts - bdata.ts < blockprobeIntervalNs
    | .rollover => sample.delta ≠ 0 ∧ bdata.ts ≠ 0 ∧ bdata.ts < sample.ts ∧
        ¬ sample.ts - bdata.ts < blockprobeIntervalNs
    | .late => sample.delta ≠ 0 ∧ bdata.ts ≠ 0 ∧ ¬ bdata.ts < sample.ts := by
  by_cases untimed : sample.delta = 0
  · simp [phase, untimed]
  by_cases unopened : bdata.ts = 0
  · simp [phase, untimed, unopened]
  by_cases later : bdata.ts < sample.ts
  · by_cases early : sample.ts - bdata.ts < blockprobeIntervalNs <;>
      simp [phase, untimed, unopened, later, early]
  · simp [phase, untimed, unopened, later]

theorem accept_eq : bdata.accept sample =
    match bdata.phase sample with
    | .idle => bdata
    | .opening =>
        { bdata.setLatencyStats sample.category (.init (sample.delta >>> 3)) with ts := sample.ts }
    | .within =>
        bdata.setLatencyStats sample.category
          ((bdata.latencyStats sample.category).calc (sample.delta >>> 3))
    | .rollover =>
        { ({} : BlockData).setLatencyStats sample.category (.init (sample.delta >>> 3)) with
          ts := sample.ts }
    | .late => { bdata with ts := 0 } := by
  simp only [accept, calcLatency, phase]
  by_cases untimed : sample.delta = 0
  · simp only [if_pos untimed]
  by_cases unopened : bdata.ts = 0
  · simp only [if_neg untimed, if_pos unopened]
  by_cases later : bdata.ts < sample.ts
  · by_cases early : sample.ts - bdata.ts < blockprobeIntervalNs
    · simp only [if_neg untimed, if_neg unopened, if_pos later, if_pos early]
    · simp only [if_neg untimed, if_neg unopened, if_pos later, if_neg early]
      cases sample.category <;> rfl
  · simp only [if_neg untimed, if_neg unopened, if_neg later]

theorem accept_ts : (bdata.accept sample).ts =
    match bdata.phase sample with
    | .idle | .within => bdata.ts
    | .opening | .rollover => sample.ts
    | .late => 0 := by
  rw [accept_eq]
  cases bdata.phase sample <;> simp only [ts_set]

theorem accept_latencyStats (category : Category) : (bdata.accept sample).latencyStats category =
    match bdata.phase sample with
    | .idle | .late => bdata.latencyStats category
    | .opening =>
        if category = sample.category then .init (sample.delta >>> 3) else bdata.latencyStats category
    | .within =>
        if category = sample.category then (bdata.latencyStats sample.category).calc (sample.delta >>> 3)
        else bdata.latencyStats category
    | .rollover => if category = sample.category then .init (sample.delta >>> 3) else {} := by
  rw [accept_eq]
  cases bdata.phase sample with
  | idle => rfl
  | opening => rw [latencyStats_ts, latencyStats_set]
  | within => rw [latencyStats_set]
  | rollover => rw [latencyStats_ts, latencyStats_set, latencyStats_empty]
  | late => rw [latencyStats_ts]

theorem accept_errorCount (hook : ErrorHook) : (bdata.accept sample).errorCount hook =
    if bdata.phase sample = .rollover then ({} : BlockData).errorCount hook else bdata.errorCount hook := by
  rw [accept_eq]
  cases bdata.phase sample <;> cases sample.category <;> rfl

theorem countError_ts (hook : ErrorHook) : (bdata.countError hook).ts = bdata.ts := by
  cases hook with
  | iscsiConnErrorEvent err =>
      simp only [countError]
      split <;> rfl
  | _ => rfl

theorem countError_latencyStats (hook : ErrorHook) :
    (bdata.countError hook).latencyStats other = bdata.latencyStats other := by
  cases hook with
  | iscsiConnErrorEvent err =>
      simp only [countError]
      split <;> cases other <;> rfl
  | _ => cases other <;> rfl

theorem countError_errorCount (hook counter : ErrorHook) (counts : counter.counted) :
    (bdata.countError hook).errorCount counter =
      if counter = hook then bdata.errorCount counter + 1 else bdata.errorCount counter := by
  cases hook with
  | iscsiConnErrorEvent err =>
      simp only [countError]
      split
      case isTrue inRange =>
          cases counter with
          | iscsiConnErrorEvent other =>
              have bounds : other > iscsiErrBase ∧ (other - iscsiErrBase).toNat < iscsiErrMax := by
                simpa [ErrorHook.counted] using counts
              by_cases same : other = err
              · subst same
                simp [errorCount, bounds.2]
              · have slots : (err - iscsiErrBase).toNat ≠ (other - iscsiErrBase).toNat := by
                  intro equal
                  have shifted := UInt32.toNat_inj.mp equal
                  exact same (by simpa using (congrArg (· + iscsiErrBase) shifted).symm)
                simp [errorCount, same, Vector.getElem?_setIfInBounds_ne slots]
          | _ => rfl
      case isFalse outOfRange =>
          have differ : counter ≠ .iscsiConnErrorEvent err := by
            rintro rfl
            simp [ErrorHook.counted] at counts
            exact outOfRange counts
          rw [if_neg differ]
  | _ => cases counter <;> simp [countError, errorCount]

end BlockData

end GalaGopher.Ebpf

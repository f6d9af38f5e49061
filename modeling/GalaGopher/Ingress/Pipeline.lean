import GalaGopher.Channel.Ring
import GalaGopher.Data.Heap
import GalaGopher.Data.Lanes
import GalaGopher.Data.Runs
import GalaGopher.Imdb.Json
import GalaGopher.Ingress.Line

namespace GalaGopher.Ingress

open GalaGopher.Text GalaGopher.Data GalaGopher.Channel GalaGopher.Imdb

/-! From the native probes to Kafka: strings on the heap, handed from thread to
thread through the rings. -/

def maxFifoSize : UInt32 := 1024

def maxJsonStrLen : Nat := 2048

/-- What `IngressData2Egress` is to send of a line. -/
inductive Forwarding where
  | skipped
  | failed
  | json (jsonStr : Bytes)
deriving DecidableEq

/-- The conversion at the front of `IngressData2Egress`. -/
def convertRecord (mgr : DataBaseMgr) (position : Nat) (record : Option Record) (content : Bytes) (clock : Int) :
    Option Forwarding :=
  match mgr.tables[position]? with
  | none => none
  | some table =>
      match rec2Json mgr.nodeInfo table record content maxJsonStrLen clock with
      | .ok jsonStr => some (.json jsonStr)
      | .error .failed => some .failed
      | .error .undefined => none

/-- One pass of the loop of `IngressDataProcesssInput` between `FifoGet` and
`FifoPut`: the insert into the database and the conversion. -/
def processData (mgr : DataBaseMgr) (kafkaOn : Bool) (dataStr : Bytes) (now clock : Int) : Option (DataBaseMgr × Forwarding) :=
  match getTableNameAndContent dataStr 32 with
  | none => some (mgr, .skipped)
  | some (name, content) =>
      match dataBaseMgrFindTable mgr name with
      | none => some (mgr, .skipped)
      | some position =>
          match mgr.tables[position]? with
          | none => none
          | some table =>
              if table.recordKeySize > 0 ∧ mgr.webServerOn then
                match dataBaseMgrCreateRec mgr position content now with
                | none => none
                | some (none, mgr) => some (mgr, .skipped)
                | some (some record, mgr) =>
                    if kafkaOn then (convertRecord mgr position (some record) content clock).map ((mgr, ·))
                    else some (mgr, .skipped)
              else if kafkaOn then (convertRecord mgr position none content clock).map ((mgr, ·))
              else some (mgr, .skipped)

/-- What `rd_kafka_produce` answers. -/
inductive ProduceAnswer where
  | accepted
  | queueFull
  | refused

def retryMax : Nat := 3

/-- The attempts of `KafkaMsgProduce` from one on.  The answer says whether
librdkafka has taken the payload over. -/
def kafkaMsgProduce (answers : Nat → ProduceAnswer) : (attempts retryIndex : Nat) → Bool
  | 0, _ => false
  | attempts + 1, retryIndex =>
      match answers retryIndex with
      | .accepted => true
      | .refused => false
      | .queueFull => kafkaMsgProduce answers attempts (retryIndex + 1)

/-- Where the ingress thread stands in its loop, and what it holds there. -/
inductive IngressAt (α : Type) where
  | waiting
  | got (dataStr : α)
  | converted (dataStr jsonStr : α)
  | done (dataStr : α)

namespace IngressAt

variable {α β : Type}

def map (f : α → β) : IngressAt α → IngressAt β
  | waiting => waiting
  | got dataStr => got (f dataStr)
  | converted dataStr jsonStr => converted (f dataStr) (f jsonStr)
  | done dataStr => done (f dataStr)

def held : IngressAt α → List α
  | waiting => []
  | got dataStr => [dataStr]
  | converted dataStr jsonStr => [dataStr, jsonStr]
  | done dataStr => [dataStr]

/-- The JSON that waits to be sent on. -/
def ready : IngressAt α → List α
  | converted _ jsonStr => [jsonStr]
  | _ => []

/-- What is still to come to Kafka. -/
def carried : IngressAt α → List α
  | got dataStr => [dataStr]
  | at_ => at_.ready

end IngressAt

/-- `broker` has the payloads librdkafka has not freed yet, `produced` the texts
of all it was given. -/
structure Pipeline where
  heap : Heap Bytes
  mgr : DataBaseMgr
  kafkaOn : Bool
  probes : List (Fifo Nat)
  ingress : IngressAt Nat
  egress : Fifo Nat
  dataStr : Option Nat
  broker : List Nat
  produced : List Bytes

inductive PipelineEvent where
  /-- A native probe's call of `__wrap_fprintf`, from its `malloc` to its
  `FifoPut`. -/
  | emit (probe : Nat) (line : Bytes)
  | get (probe : Nat)
  | process (now clock : Int)
  | put
  | release
  | scrape (ctx : ScrapeContext) (maxLen : UInt32)
  | fetch
  | produce (answers : Nat → ProduceAnswer)
  /-- librdkafka frees a payload. -/
  | deliver (place : Nat)

/-- A string is given to a queue, or freed where the queue is full. -/
def putOrFree (heap : Heap Bytes) (fifo : Fifo Nat) (string : Nat) : Option (Heap Bytes × Fifo Nat) :=
  match fifoPut fifo string with
  | none => none
  | some (fifo, ret) => if ret = 0 then some (heap, fifo) else (heap.free string).map fun heap => (heap, fifo)

def scraped (mgr : DataBaseMgr) (ctx : ScrapeContext) (maxLen : UInt32) : DataBaseMgr :=
  { mgr with tables := (dataBase2Prometheus ctx mgr.tables maxLen).tables }

/-- `none` where the thread is not there, or where what it does has no meaning. -/
def Pipeline.step (pipeline : Pipeline) : PipelineEvent → Option Pipeline
  | .emit probe line =>
      match pipeline.probes[probe]? with
      | none => none
      | some fifo =>
          (putOrFree (pipeline.heap.malloc line) fifo pipeline.heap.next).map fun (heap, fifo) =>
            { pipeline with heap, probes := pipeline.probes.set probe fifo }
  | .get probe =>
      match pipeline.ingress, pipeline.probes[probe]? with
      | .waiting, some fifo =>
          match fifoGet fifo 0 with
          | none => none
          | some (fifo, dataStr, ret) =>
              let ingress := if ret = 0 ∧ dataStr ≠ 0 then .got dataStr else .waiting
              some { pipeline with probes := pipeline.probes.set probe fifo, ingress }
      | _, _ => none
  | .process now clock =>
      match pipeline.ingress with
      | .got dataStr =>
          match pipeline.heap.content dataStr with
          | none => none
          | some line =>
              match processData pipeline.mgr pipeline.kafkaOn line now clock with
              | none => none
              | some (mgr, .skipped) => some { pipeline with mgr, ingress := .done dataStr }
              | some (mgr, .failed) =>
                  ((pipeline.heap.malloc []).free pipeline.heap.next).map fun heap =>
                    { pipeline with heap, mgr, ingress := .done dataStr }
              | some (mgr, .json jsonStr) =>
                  some { pipeline with
                    heap := pipeline.heap.malloc jsonStr
                    mgr
                    ingress := .converted dataStr pipeline.heap.next }
      | _ => none
  | .put =>
      match pipeline.ingress with
      | .converted dataStr jsonStr =>
          (putOrFree pipeline.heap pipeline.egress jsonStr).map fun (heap, egress) =>
            { pipeline with heap, egress, ingress := .done dataStr }
      | _ => none
  | .release =>
      match pipeline.ingress with
      | .done dataStr => (pipeline.heap.free dataStr).map fun heap => { pipeline with heap, ingress := .waiting }
      | _ => none
  | .scrape ctx maxLen => some { pipeline with mgr := scraped pipeline.mgr ctx maxLen }
  | .fetch =>
      match pipeline.dataStr with
      | some _ => none
      | none =>
          match fifoGet pipeline.egress 0 with
          | none => none
          | some (egress, dataStr, ret) =>
              some { pipeline with egress, dataStr := if ret = 0 then some dataStr else none }
  | .produce answers =>
      match pipeline.dataStr with
      | none => none
      | some dataStr =>
          if pipeline.kafkaOn then
            match pipeline.heap.content dataStr with
            | none => none
            | some payload =>
                if kafkaMsgProduce answers retryMax 0 then
                  some { pipeline with
                    dataStr := none
                    broker := pipeline.broker ++ [dataStr]
                    produced := pipeline.produced ++ [payload] }
                else (pipeline.heap.free dataStr).map fun heap => { pipeline with heap, dataStr := none }
          else some { pipeline with dataStr := none }
  | .deliver place =>
      match pipeline.broker[place]? with
      | none => none
      | some payload =>
          (pipeline.heap.free payload).map fun heap =>
            { pipeline with heap, broker := pipeline.broker.eraseIdx place }

def Pipeline.start (mgr : DataBaseMgr) (kafkaOn : Bool) (probes : List (Fifo Nat)) (egress : Fifo Nat) : Pipeline where
  heap := .empty
  mgr
  kafkaOn
  probes
  ingress := .waiting
  egress
  dataStr := none
  broker := []
  produced := []

end GalaGopher.Ingress

import GalaGopher.Data.Ledger
import GalaGopher.Imdb.Prometheus.Page
import GalaGopher.Imdb.Store
import GalaGopher.Ingress.Line

namespace GalaGopher.Ingress

open GalaGopher.Text GalaGopher.Data GalaGopher.Imdb

/-! The ingress thread and the web server around one database.

A record handle is the number of the record's version in the ledger of its
table; it is destroyed once its version is gone from the store. -/

/-- What `IngressData2Egress` is called with, between the insert and the
conversion.  `rec` is NULL for a table that keeps no records. -/
structure Conversion where
  position : Nat
  handle : Option Nat
  content : Bytes
deriving DecidableEq, Repr

structure Threads where
  mgr : DataBaseMgr
  ledgers : List (Ledger ScrapeContext Record)
  kafkaOn : Bool
  pending : Option Conversion
  misused : List Conversion

def Threads.start (mgr : DataBaseMgr) (kafkaOn : Bool) : Threads where
  mgr
  ledgers := mgr.tables.map fun _ => .empty
  kafkaOn
  pending := none
  misused := []

inductive ThreadEvent where
  | ingest (dataStr : Bytes) (now : Int)
  | request (ctx : ScrapeContext) (maxLen : UInt32)
  | convert

def Threads.awaiting (threads : Threads) (conversion : Conversion) : Threads :=
  { threads with pending := if threads.kafkaOn then some conversion else none }

/-- One pass of the loop of `IngressDataProcesssInput` up to the end of the
locked section; `none` where it cannot be taken or has no meaning. -/
def ingestLine (threads : Threads) (dataStr : Bytes) (now : Int) : Option Threads :=
  if threads.pending ≠ none then none
  else
    match getTableNameAndContent dataStr 32 with
    | none => some threads
    | some (name, content) =>
        match dataBaseMgrFindTable threads.mgr name with
        | none => some threads
        | some position =>
            match threads.mgr.tables[position]?, threads.ledgers[position]? with
            | some table, some ledger =>
                if table.recordKeySize > 0 ∧ threads.mgr.webServerOn then
                  match dataBaseMgrCreateRec threads.mgr position content now with
                  | none => none
                  | some (none, mgr) => some { threads with mgr }
                  | some (some record, mgr) =>
                      let ledgers := threads.ledgers.set position (ledger.put Record.key record)
                      some ({ threads with mgr, ledgers }.awaiting
                        { position, handle := some ledger.next, content })
                else some (threads.awaiting { position, handle := none, content })
            | _, _ => none

/-- The locked section of one web request. -/
def serveRequest (threads : Threads) (ctx : ScrapeContext) (maxLen : UInt32) : Threads :=
  let tables := (dataBase2Prometheus ctx threads.mgr.tables maxLen).tables
  let counts := (threads.mgr.tables.zip tables).map fun pair =>
    pair.1.records.length - pair.2.records.length
  { threads with
    mgr := { threads.mgr with tables }
    ledgers := (threads.ledgers.zip counts).map fun pair => pair.1.drain live ctx pair.2 }

def Threads.Destroyed (threads : Threads) (conversion : Conversion) : Prop :=
  ∃ ledger number, threads.ledgers[conversion.position]? = some ledger ∧
    conversion.handle = some number ∧ ledger.Gone number

/-- `IMDB_Rec2Json` is given the handle, destroyed or not. -/
inductive ThreadStep : Threads → ThreadEvent → Threads → Prop where
  | ingest {threads after : Threads} {dataStr : Bytes} {now : Int}
      (stored : ingestLine threads dataStr now = some after) :
      ThreadStep threads (.ingest dataStr now) after
  | request (threads : Threads) (ctx : ScrapeContext) (maxLen : UInt32) :
      ThreadStep threads (.request ctx maxLen) (serveRequest threads ctx maxLen)
  | convert {threads : Threads} {conversion : Conversion} (pending : threads.pending = some conversion)
      (alive : ¬ threads.Destroyed conversion) :
      ThreadStep threads .convert { threads with pending := none }
  | misuse {threads : Threads} {conversion : Conversion} (pending : threads.pending = some conversion)
      (destroyed : threads.Destroyed conversion) :
      ThreadStep threads .convert
        { threads with pending := none, misused := threads.misused ++ [conversion] }

/-- The walk over the tables reaches a table and drains it. -/
def DrainsTable (ctx : ScrapeContext) : List Table → (room position : Nat) → Prop
  | [], _, _ => False
  | table :: _, room, 0 => Drains ctx table.name.text table.records room 0
  | table :: rest, room, position + 1 =>
      let scrape := tbl2Prometheus ctx table room
      ¬ (scrape.ret < 0 ∨ scrape.ret ≥ room) ∧
        DrainsTable ctx rest (room - scrape.ret.toNat) position

/-- A request in the window between insert and conversion must not drain the
table of the record handed out, in which it stands last. -/
def Spares (threads : Threads) : ThreadEvent → Prop
  | .request ctx maxLen => ∀ conversion, threads.pending = some conversion → conversion.handle ≠ none →
      ¬ DrainsTable ctx threads.mgr.tables maxLen.toNat conversion.position
  | _ => True

variable {threads after : Threads} {event : ThreadEvent} {events : List ThreadEvent} {ctx : ScrapeContext}
  {tables : List Table} {table : Table} {room position : Nat} {maxLen : UInt32} {conversion : Conversion}

theorem exportTables_at (found : tables[position]? = some table) :
    ∃ kept, (exportTables ctx tables room).tables[position]? = some (table.withRecords kept) ∧
      kept <:+ table.records ∧ (table.records ≠ [] → (kept = [] ↔ DrainsTable ctx tables room position)) := by
  induction tables generalizing room position with
  | nil => simp at found
  | cons head rest ih =>
      cases position with
      | zero =>
          simp only [List.getElem?_cons_zero, Option.some.injEq] at found
          subst head
          obtain ⟨kept, drained, part⟩ := tbl2Prometheus_kept ctx table room
          refine ⟨kept, ?_, part, ?_⟩
          · simp only [exportTables]
            split
            · simp [drained]
            · simp [drained]
          · intro filled
            have walked := congrArg Table.records drained
            have counted : ¬ table.records.length = 0 := fun zero => filled (List.eq_nil_of_length_eq_zero zero)
            rw [Table.withRecords_records] at walked
            rw [DrainsTable, ← exportRecords_drains_iff, ← walked]
            simp only [tbl2Prometheus, hashRecordCount, counted, if_false]
            split
            · rfl
            · rfl
      | succ position =>
          simp only [List.getElem?_cons_succ] at found
          simp only [exportTables, DrainsTable]
          split
          · rename_i rejected
            refine ⟨table.records, by rw [List.getElem?_cons_succ]; exact found, List.suffix_rfl, ?_⟩
            intro filled
            simp [filled, rejected]
          · rename_i accepted
            obtain ⟨kept, drained, part, emptied⟩ :=
              @ih (room - (tbl2Prometheus ctx head room).ret.toNat) position found
            refine ⟨kept, by simpa using drained, part, ?_⟩
            intro filled
            rw [emptied filled, and_iff_right accepted]

theorem exportTables_length (ctx : ScrapeContext) (tables : List Table) (room : Nat) :
    (exportTables ctx tables room).tables.length = tables.length := by
  induction tables generalizing room with
  | nil => rfl
  | cons table rest ih =>
      simp only [exportTables]
      split
      · rfl
      · simp [ih]

/-- Ledgers mirror the tables, and a handle handed out is that of the newest
record of its table. -/
structure Threads.Sound (threads : Threads) : Prop where
  loaded : threads.mgr.Loaded
  aligned : threads.ledgers.length = threads.mgr.tables.length
  mirrored : ∀ (position : Nat) (table : Table) (ledger : Ledger ScrapeContext Record),
    threads.mgr.tables[position]? = some table → threads.ledgers[position]? = some ledger →
      ledger.values = table.records ∧ ledger.Sound Record.key live
  newest : ∀ (conversion : Conversion) (number : Nat), threads.pending = some conversion → conversion.handle = some number →
    ∃ ledger version, threads.ledgers[conversion.position]? = some ledger ∧
      ledger.stored.getLast? = some version ∧ version.number = number

/-- The table and the ledger of a handle: as many versions as records, the one
handed out the last of them. -/
theorem Threads.Sound.newest_at (sound : threads.Sound) {number : Nat} (pending : threads.pending = some conversion)
    (handle : conversion.handle = some number) :
    ∃ table ledger version, threads.mgr.tables[conversion.position]? = some table ∧
      threads.ledgers[conversion.position]? = some ledger ∧ ledger.stored.getLast? = some version ∧
      version.number = number ∧ ledger.stored.length = table.records.length ∧ table.records ≠ [] := by
  obtain ⟨ledger, version, ledgerFound, last, same⟩ := sound.newest conversion number pending handle
  have bound : conversion.position < threads.mgr.tables.length :=
    sound.aligned ▸ (List.getElem?_eq_some_iff.mp ledgerFound).1
  have found := List.getElem?_eq_getElem bound
  obtain ⟨values, -⟩ := sound.mirrored _ _ ledger found ledgerFound
  have length := congrArg List.length values
  rw [Ledger.values, List.length_map] at length
  have stored := List.length_pos_of_mem (List.mem_of_getLast? last)
  exact ⟨_, ledger, version, found, ledgerFound, last, same, length, List.length_pos_iff.mp (length ▸ stored)⟩

theorem Threads.Sound.alive (sound : threads.Sound) (pending : threads.pending = some conversion) :
    ¬ threads.Destroyed conversion := by
  intro given
  obtain ⟨ledger, number, found, handle, gone⟩ := given
  obtain ⟨table, other, version, tableFound, otherFound, last, rfl, -⟩ := sound.newest_at pending handle
  rw [found, Option.some.injEq] at otherFound
  subst other
  have mirror := (sound.mirrored _ table ledger tableFound found).2
  exact mirror.not_gone (List.mem_of_getLast? last) gone

theorem Threads.Sound.await (sound : threads.Sound) {content : Bytes} :
    (threads.awaiting { position, handle := none, content }).Sound where
  loaded := sound.loaded
  aligned := sound.aligned
  mirrored := sound.mirrored
  newest := by
    intro conversion number pending handle
    simp only [Threads.awaiting] at pending
    split at pending
    · simp only [Option.some.injEq] at pending
      rw [← pending] at handle
      contradiction
    · contradiction

/-- The insert of a record, seen from the ledgers. -/
theorem Threads.Sound.put (sound : threads.Sound) {ledger : Ledger ScrapeContext Record} {record : Record}
    {mgr : DataBaseMgr} {content : Bytes} (found : threads.mgr.tables[position]? = some table)
    (ledgerFound : threads.ledgers[position]? = some ledger) (loaded : mgr.Loaded)
    (stored : mgr = threads.mgr.setTable position
      (table.withRecords (KeyedList.put Record.key record table.records))) :
    ({ threads with mgr, ledgers := threads.ledgers.set position (ledger.put Record.key record) }.awaiting
      { position, handle := some ledger.next, content }).Sound where
  loaded := loaded
  aligned := by
    simp only [Threads.awaiting, stored, DataBaseMgr.setTable, List.length_set, sound.aligned]
  mirrored := by
    intro other otherTable otherLedger tableAt ledgerAt
    simp only [Threads.awaiting, stored, DataBaseMgr.setTable] at tableAt ledgerAt
    by_cases same : position = other
    · subst other
      have tableBound := (List.getElem?_eq_some_iff.mp found).1
      have ledgerBound := (List.getElem?_eq_some_iff.mp ledgerFound).1
      rw [List.getElem?_set_self tableBound, Option.some.injEq] at tableAt
      rw [List.getElem?_set_self ledgerBound, Option.some.injEq] at ledgerAt
      obtain ⟨values, before⟩ := sound.mirrored position table ledger found ledgerFound
      obtain ⟨metaRecord, tableLoaded⟩ := sound.loaded table (List.mem_of_getElem? found)
      have distinct : KeyedList.Distinct Record.key ledger.values := by
        rw [values]
        exact tableLoaded.consistent.distinct
      rw [← tableAt, ← ledgerAt, Ledger.put_values distinct, values]
      exact ⟨rfl, Ledger.put_sound before record⟩
    · rw [List.getElem?_set_ne same] at tableAt ledgerAt
      exact sound.mirrored other otherTable otherLedger tableAt ledgerAt
  newest := by
    intro conversion number pending handle
    simp only [Threads.awaiting] at pending
    split at pending
    · simp only [Option.some.injEq] at pending
      subst conversion
      simp only [Option.some.injEq] at handle
      have ledgerBound := (List.getElem?_eq_some_iff.mp ledgerFound).1
      exact ⟨_, { number := ledger.next, value := record }, List.getElem?_set_self ledgerBound,
        by simp [Ledger.put], handle⟩
    · contradiction

theorem Threads.Sound.ingest (sound : threads.Sound) {dataStr : Bytes} {now : Int}
    (stored : ingestLine threads dataStr now = some after) :
    after.Sound ∧ after.misused = threads.misused := by
  simp only [ingestLine] at stored
  split at stored
  · contradiction
  · rename_i idle
    split at stored
    · simp only [Option.some.injEq] at stored
      exact stored ▸ ⟨sound, rfl⟩
    · rename_i name content _
      split at stored
      · simp only [Option.some.injEq] at stored
        exact stored ▸ ⟨sound, rfl⟩
      · rename_i position _
        split at stored
        · rename_i table ledger found ledgerFound
          split at stored
          · rename_i kept
            obtain ⟨metaRecord, tableLoaded⟩ := sound.loaded table (List.mem_of_getElem? found)
            rw [dataBaseMgrCreateRec_eq found tableLoaded (by omega)] at stored
            split at stored
            · contradiction
            · rename_i mgr inserted
              have unchanged := (insertValues_kept sound.loaded tableLoaded inserted).2 rfl
              simp only [Option.some.injEq] at stored
              rw [← stored, show mgr = threads.mgr from unchanged]
              exact ⟨sound, rfl⟩
            · rename_i record mgr inserted
              have loaded := (insertValues_kept sound.loaded tableLoaded inserted).1
              simp only [Option.some.injEq] at stored
              rw [← stored]
              exact ⟨sound.put found ledgerFound loaded (insertValues_stored inserted), rfl⟩
          · simp only [Option.some.injEq] at stored
            exact stored ▸ ⟨sound.await, rfl⟩
        · contradiction

/-- A request, seen from one table and its ledger. -/
theorem serveRequest_at {ledger : Ledger ScrapeContext Record} (ctx : ScrapeContext) (maxLen : UInt32)
    (found : threads.mgr.tables[position]? = some table)
    (ledgerFound : threads.ledgers[position]? = some ledger) :
    ∃ kept, (serveRequest threads ctx maxLen).mgr.tables[position]? = some (table.withRecords kept) ∧
      (serveRequest threads ctx maxLen).ledgers[position]? =
        some (ledger.drain live ctx (table.records.length - kept.length)) ∧
      kept <:+ table.records ∧
      (table.records ≠ [] → (kept = [] ↔ DrainsTable ctx threads.mgr.tables maxLen.toNat position)) := by
  obtain ⟨kept, drained, part, emptied⟩ := @exportTables_at ctx threads.mgr.tables table maxLen.toNat position found
  refine ⟨kept, drained, ?_, part, emptied⟩
  simp only [serveRequest, dataBase2Prometheus, List.getElem?_map, Option.map_eq_some_iff]
  refine ⟨(ledger, table.records.length - kept.length), ?_, rfl⟩
  refine List.getElem?_zip_eq_some.mpr ⟨ledgerFound, ?_⟩
  rw [List.getElem?_map, Option.map_eq_some_iff]
  exact ⟨(table, table.withRecords kept), List.getElem?_zip_eq_some.mpr ⟨found, drained⟩, rfl⟩

theorem Threads.Sound.request (sound : threads.Sound) (spared : Spares threads (.request ctx maxLen)) :
    (serveRequest threads ctx maxLen).Sound where
  loaded := by
    intro other member
    obtain ⟨position, bound, rfl⟩ := List.getElem_of_mem member
    have before : position < threads.mgr.tables.length := by
      have length := exportTables_length ctx threads.mgr.tables maxLen.toNat
      simp only [serveRequest, dataBase2Prometheus] at bound
      omega
    obtain ⟨kept, drained, part, -⟩ := @exportTables_at ctx threads.mgr.tables _ maxLen.toNat position
      (List.getElem?_eq_getElem before)
    obtain ⟨metaRecord, loaded⟩ := sound.loaded _ (List.getElem_mem before)
    have same := (List.getElem?_eq_some_iff.mp drained).2
    refine ⟨metaRecord, ?_⟩
    rw [show (serveRequest threads ctx maxLen).mgr.tables[position] = _ from same]
    exact {
      described := loaded.described
      full := loaded.full
      positive := loaded.positive
      keySize := loaded.keySize
      small := loaded.small
      consistent := loaded.consistent.drop part.sublist }
  aligned := by
    simp only [serveRequest, dataBase2Prometheus, List.length_map, List.length_zip, exportTables_length,
      sound.aligned, Nat.min_self]
  mirrored := by
    intro position otherTable otherLedger tableAt ledgerAt
    have ledgerBound : position < threads.ledgers.length := by
      have bound := (List.getElem?_eq_some_iff.mp ledgerAt).1
      simp only [serveRequest, List.length_map, List.length_zip] at bound
      omega
    have tableBound : position < threads.mgr.tables.length := sound.aligned ▸ ledgerBound
    have found := List.getElem?_eq_getElem tableBound
    have ledgerFound := List.getElem?_eq_getElem ledgerBound
    obtain ⟨kept, drained, left, part, -⟩ := serveRequest_at ctx maxLen found ledgerFound
    rw [drained, Option.some.injEq] at tableAt
    rw [left, Option.some.injEq] at ledgerAt
    obtain ⟨values, before⟩ := sound.mirrored position _ _ found ledgerFound
    rw [← tableAt, ← ledgerAt, Ledger.drain_values, values, Table.withRecords_records]
    exact ⟨(List.suffix_iff_eq_drop.mp part).symm, Ledger.drain_sound before ctx _⟩
  newest := by
    intro conversion number pending handle
    obtain ⟨table, ledger, version, found, ledgerFound, last, same, length, filled⟩ := sound.newest_at pending handle
    obtain ⟨kept, drained, left, part, emptied⟩ := serveRequest_at ctx maxLen found ledgerFound
    have spares := spared conversion pending (by rw [handle]; simp)
    have some := List.length_pos_of_ne_nil (mt (emptied filled).mp spares)
    have fewer := part.length_le
    refine ⟨_, version, left, ?_, same⟩
    simp only [Ledger.drain]
    rw [List.getLast?_drop, if_neg (by omega), last]

/-- A step in which no request drains the table of a pending record. -/
def SparingStep (threads : Threads) (event : ThreadEvent) (after : Threads) : Prop :=
  ThreadStep threads event after ∧ Spares threads event

theorem Threads.Sound.step (sound : threads.Sound) (taken : SparingStep threads event after) :
    after.Sound ∧ after.misused = threads.misused := by
  obtain ⟨step, spares⟩ := taken
  cases step with
  | ingest stored => exact sound.ingest stored
  | request ctx maxLen => exact ⟨sound.request spares, rfl⟩
  | convert pending alive =>
      exact ⟨⟨sound.loaded, sound.aligned, sound.mirrored, by simp⟩, rfl⟩
  | misuse pending destroyed => exact absurd destroyed (sound.alive pending)

theorem start_sound {mgr : DataBaseMgr} (loaded : mgr.Loaded) (empty : ∀ table ∈ mgr.tables, table.records = [])
    (kafkaOn : Bool) : (Threads.start mgr kafkaOn).Sound where
  loaded := loaded
  aligned := by simp [Threads.start]
  mirrored := by
    intro position table ledger found ledgerFound
    simp only [Threads.start, List.getElem?_map] at found ledgerFound
    obtain ⟨-, -, rfl⟩ := Option.map_eq_some_iff.mp ledgerFound
    exact ⟨(empty table (List.mem_of_getElem? found)).symm, Ledger.empty_sound⟩
  newest := by simp [Threads.start]

/-- What a request that drains the table of a pending record leads to. -/
theorem Threads.Sound.drained (sound : threads.Sound) (pending : threads.pending = some conversion)
    (handed : conversion.handle ≠ none)
    (drains : DrainsTable ctx threads.mgr.tables maxLen.toNat conversion.position) :
    (serveRequest threads ctx maxLen).Destroyed conversion := by
  obtain ⟨number, handle⟩ := Option.ne_none_iff_exists'.mp handed
  obtain ⟨table, ledger, version, found, ledgerFound, last, same, length, filled⟩ := sound.newest_at pending handle
  obtain ⟨kept, drained, left, -, emptied⟩ := serveRequest_at ctx maxLen found ledgerFound
  have none := (emptied filled).mpr drains
  refine ⟨_, number, left, handle, ?_⟩
  rw [← same]
  apply Ledger.gone_of_drain
  rw [none, List.length_nil, List.take_of_length_le (by omega)]
  exact List.mem_of_getLast? last

/-- Where no request drains the table of a record between its insert and its
conversion, no handle is converted after its record was destroyed.  From any
point of such a run, a request that does drain it makes the next conversion
use a destroyed record. -/
theorem threads_never_misuse {mgr : DataBaseMgr} (loaded : mgr.Loaded)
    (empty : ∀ table ∈ mgr.tables, table.records = []) {kafkaOn : Bool}
    (run : Runs SparingStep (Threads.start mgr kafkaOn) events threads) :
    threads.misused = [] ∧
    ∀ (ctx : ScrapeContext) (maxLen : UInt32) (conversion : Conversion),
      threads.pending = some conversion → conversion.handle ≠ none →
      DrainsTable ctx threads.mgr.tables maxLen.toNat conversion.position →
      ∃ last, Runs ThreadStep threads [.request ctx maxLen, .convert] last ∧ last.misused = [conversion] := by
  have kept : threads.Sound ∧ threads.misused = [] := by
    apply Runs.invariant (fun threads => threads.Sound ∧ threads.misused = []) run
    · exact ⟨start_sound loaded empty kafkaOn, rfl⟩
    · intro state event after taken before
      obtain ⟨sound, same⟩ := before.1.step taken
      exact ⟨sound, same.trans before.2⟩
  obtain ⟨sound, unused⟩ := kept
  refine ⟨unused, ?_⟩
  intro ctx maxLen conversion pending handed drains
  have destroyed := sound.drained pending handed drains
  have misused : ThreadStep (serveRequest threads ctx maxLen) .convert _ := .misuse pending destroyed
  refine ⟨_, .next (.next .start (.request threads ctx maxLen)) misused, ?_⟩
  change threads.misused ++ [conversion] = [conversion]
  rw [unused, List.nil_append]

/-- Insert, scrape, convert: the record is exported and destroyed in between. -/
theorem threads_misuse_exported :
    ∃ threads, Runs ThreadStep (Threads.start sampleMgr true)
      [.ingest (ascii "|link|eth0|7|") 0, .request sampleContext 512, .convert] threads ∧
        threads.misused ≠ [] := by
  have empty : ∀ table ∈ sampleMgr.tables, table.records = [] := by decide
  have summary : (ingestLine (Threads.start sampleMgr true) (ascii "|link|eth0|7|") 0).map
      (fun threads => (threads.pending, (exportTables sampleContext threads.mgr.tables 512).tables.map
        Table.records)) =
      some (some { position := 0, handle := some 0, content := ascii "|eth0|7|" }, [[]]) := by
    decide +kernel
  obtain ⟨stored, taken, shape⟩ := Option.map_eq_some_iff.mp summary
  obtain ⟨pending, drained⟩ := Prod.mk.inj shape
  have sound := ((start_sound sampleMgr_loaded empty true).ingest taken).1
  obtain ⟨ledger, version, ledgerFound, last, same⟩ := sound.newest _ 0 pending rfl
  have bound : 0 < stored.mgr.tables.length := sound.aligned ▸ (List.getElem?_eq_some_iff.mp ledgerFound).1
  obtain ⟨kept, left, -, emptied⟩ := @exportTables_at sampleContext stored.mgr.tables _ 512 0
    (List.getElem?_eq_getElem bound)
  have none : kept = [] := by
    have first := congrArg (fun records => records[0]?) drained
    simp only [List.getElem?_map, left] at first
    simpa using first
  have filled : (stored.mgr.tables[0]).records ≠ [] := by
    intro empty
    have values := (sound.mirrored 0 _ ledger (List.getElem?_eq_getElem bound) ledgerFound).1
    rw [empty, Ledger.values, List.map_eq_nil_iff] at values
    simp [values] at last
  have drains : DrainsTable sampleContext stored.mgr.tables (512 : UInt32).toNat 0 := (emptied filled).mp none
  have destroyed : (serveRequest stored sampleContext 512).Destroyed _ := sound.drained pending (by simp) drains
  have misused : ThreadStep (serveRequest stored sampleContext 512) .convert _ := .misuse pending destroyed
  exact ⟨_, .next (.next (.next .start (.ingest taken)) (.request stored sampleContext 512)) misused, by simp⟩

/-- Two lines, with a request before the second is converted that has room for
the record of the first only. -/
theorem threads_never_misuse_stored :
    ∃ threads, Runs SparingStep (Threads.start sampleMgr true)
      [.ingest (ascii "|link|eth0|7|") 0, .convert, .ingest (ascii "|link|eth1|9|") 0, .request sampleContext 80,
        .convert] threads ∧
      threads.misused = [] ∧ (threads.mgr.tables.map fun table => table.records.length) = [1] := by
  have empty : ∀ table ∈ sampleMgr.tables, table.records = [] := by decide
  have summary : (ingestLine (Threads.start sampleMgr true) (ascii "|link|eth0|7|") 0).bind (fun first =>
      (ingestLine { first with pending := none } (ascii "|link|eth1|9|") 0).map fun second =>
        (first.pending, second.pending, (exportTables sampleContext second.mgr.tables 80).tables.map
          fun table => table.records.length)) =
      some (some { position := 0, handle := some 0, content := ascii "|eth0|7|" },
        some { position := 0, handle := some 1, content := ascii "|eth1|9|" }, [1]) := by
    decide +kernel
  obtain ⟨first, firstTaken, later⟩ := Option.bind_eq_some_iff.mp summary
  obtain ⟨second, secondTaken, shape⟩ := Option.map_eq_some_iff.mp later
  obtain ⟨firstPending, rest⟩ := Prod.mk.inj shape
  obtain ⟨secondPending, left⟩ := Prod.mk.inj rest
  have ingested := (start_sound sampleMgr_loaded empty true).step ⟨.ingest firstTaken, trivial⟩
  have converted := ingested.1.step ⟨.convert firstPending (ingested.1.alive firstPending), trivial⟩
  have stored := converted.1.step ⟨.ingest secondTaken, trivial⟩
  -- the request leaves a record, so it does not drain the table
  have spared : Spares second (.request sampleContext 80) := by
    intro conversion pending handed drains
    obtain ⟨number, handle⟩ := Option.ne_none_iff_exists'.mp handed
    obtain ⟨table, ledger, version, found, -, -, -, -, filled⟩ := stored.1.newest_at pending handle
    obtain ⟨kept, drained, -, emptied⟩ := @exportTables_at sampleContext second.mgr.tables _ (80 : UInt32).toNat _ found
    have position : conversion.position = 0 := by
      rw [secondPending, Option.some.injEq] at pending
      rw [← pending]
    have count := congrArg (fun counts => counts[0]?) left
    rw [position] at drained
    simp only [List.getElem?_map] at count
    rw [show (exportTables sampleContext second.mgr.tables 80).tables[0]? = _ from drained,
      (emptied filled).mpr drains] at count
    cases count
  have request : SparingStep second (.request sampleContext 80) (serveRequest second sampleContext 80) :=
    ⟨.request second sampleContext 80, spared⟩
  have alive := (stored.1.step request).1.alive secondPending
  have run := Runs.next (.next (.next (.next (.next .start ⟨.ingest firstTaken, trivial⟩)
    ⟨.convert firstPending (ingested.1.alive firstPending), trivial⟩) ⟨.ingest secondTaken, trivial⟩) request)
    ⟨.convert secondPending alive, trivial⟩
  exact ⟨_, run, (threads_never_misuse sampleMgr_loaded empty run).1, left⟩

end GalaGopher.Ingress

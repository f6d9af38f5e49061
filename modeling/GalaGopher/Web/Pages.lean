import GalaGopher.Imdb.Prometheus.Conformance
import GalaGopher.Web.Server

namespace GalaGopher.Web

open Data Imdb Text

variable {server after : WebServer} {connection : Nat} {ctx : ScrapeContext} {call : Call} {scrap : Bytes}
  {response : Response} {tables : List Table} {event : ServerEvent} {events : List ServerEvent}

/-- Every client has received a front of its own page, and the page once all
is sent. -/
def WebServer.PagesOwn (server : WebServer) : Prop :=
  ∀ connection response, (server.connections connection).response = some response →
    response.received <+: response.own ∧ (response.sent → response.received = response.own)

/-- The call runs an export. -/
structure Exports (server : WebServer) (connection : Nat) (call : Call) : Prop where
  method : call.method = ascii "GET"
  seen : (server.connections connection).seen = true
  empty : call.uploadDataSize = 0

def WebServer.AllSent (server : WebServer) : Prop :=
  ∀ connection response, (server.connections connection).response = some response → response.sent

/-- A page is made only when all earlier ones are sent. -/
def Alone (server : WebServer) : ServerEvent → Prop
  | .call connection _ call _ => Exports server connection call → server.Stored → server.AllSent
  | _ => True

theorem webRequestCallback_idle (refused : ¬ Exports server connection call) :
    (webRequestCallback ctx tables (server.connections connection).seen call).scrape = none ∧
      (webRequestCallback ctx tables (server.connections connection).seen call).response = none := by
  unfold webRequestCallback
  split
  case isTrue => exact ⟨rfl, rfl⟩
  case isFalse method =>
      split
      case isTrue => exact ⟨rfl, rfl⟩
      case isFalse seen =>
          split
          case isTrue => exact ⟨rfl, rfl⟩
          case isFalse empty =>
              exact absurd ⟨not_not.mp method, by simpa using seen, not_not.mp empty⟩ refused

theorem webRequestCallback_exports (exports : Exports server connection call) :
    (webRequestCallback ctx tables (server.connections connection).seen call).scrape =
        some (dataBase2Prometheus ctx tables maxWebpageBufferSize) ∧
      ∀ response, (webRequestCallback ctx tables (server.connections connection).seen call).response = some response →
        (dataBase2Prometheus ctx tables maxWebpageBufferSize).ret = 0 ∧
          response = { bufLen := (dataBase2Prometheus ctx tables maxWebpageBufferSize).bufLen, received := [],
                       own := (dataBase2Prometheus ctx tables maxWebpageBufferSize).text } := by
  unfold webRequestCallback
  rw [if_neg (not_not.mpr exports.method), exports.seen, if_neg (by decide), if_neg (not_not.mpr exports.empty)]
  simp only
  split_ifs with failed created added queued
  · exact ⟨rfl, fun response queued => by cases queued⟩
  · exact ⟨rfl, fun response queued => by cases queued⟩
  · exact ⟨rfl, fun response queued => by cases queued⟩
  · exact ⟨rfl, fun response queued => by cases queued⟩
  · refine ⟨rfl, fun response queued => ⟨?_, (Option.some.inj queued).symm⟩⟩
    rcases exportTables_ret ctx tables maxWebpageBufferSize.toNat with zero | minus
    · exact zero
    · exact absurd (minus ▸ (by decide) : (dataBase2Prometheus ctx tables _).ret < 0) failed

theorem overwrite_front {buffer : WebpageBuffer} {text : Bytes} (fits : text.length ≤ maxWebpageBufferSize.toNat)
    (scrap : Bytes) : text <+: (buffer.overwrite (text ++ scrap)).bytes := by
  rw [WebpageBuffer.overwrite_bytes, List.append_assoc]
  exact List.prefix_take_iff.mpr ⟨List.prefix_append _ _, fits⟩

theorem overwrite_nil (buffer : WebpageBuffer) : (buffer.overwrite []).bytes = buffer.bytes := by
  rw [WebpageBuffer.overwrite_bytes, List.nil_append, List.length_nil, List.drop_zero]
  exact List.take_of_length_le (Nat.le_of_eq buffer.size)

theorem exportTables_unstored (empty : ∀ table ∈ tables, table.records = []) (room : Nat) :
    (exportTables ctx tables room).text = [] := by
  induction tables generalizing room with
  | nil => rfl
  | cons table rest ih =>
      have none : tbl2Prometheus ctx table room = { ret := 0, text := [], exported := [], table } := by
        rw [tbl2Prometheus, hashRecordCount, empty table List.mem_cons_self]
        rfl
      simp only [exportTables, none]
      split
      case isTrue => rfl
      case isFalse => exact ih (fun other member => empty other (List.mem_cons_of_mem table member)) _

theorem dataBase2Prometheus_fits (succeeded : (dataBase2Prometheus ctx tables maxWebpageBufferSize).ret = 0) :
    (dataBase2Prometheus ctx tables maxWebpageBufferSize).text.length ≤ maxWebpageBufferSize.toNat := by
  obtain ⟨_, _, _, short⟩ := exportTables_success succeeded
  cases tables with
  | nil => exact Nat.zero_le _
  | cons table rest => exact Nat.le_of_lt (short (List.cons_ne_nil table rest))

def WebServer.Lends (server : WebServer) : Prop :=
  ∀ connection response, (server.connections connection).response = some response →
    response.bufLen = response.own.length ∧ response.loan.Kept server.gBuffer.bytes

theorem WebServer.Lends.pagesOwn (lends : server.Lends) : server.PagesOwn := by
  intro connection response queued
  obtain ⟨length, kept⟩ := lends connection response queued
  refine ⟨kept.taken, fun sent => kept.whole ?_⟩
  rw [Response.sent, length] at sent
  exact sent

theorem WebServer.Lends.settled (lends : server.Lends)
    (queued : (server.connections connection).response = some response) (sent : response.sent) :
    response.loan.Settled := by
  rw [Response.sent, (lends connection response queued).1] at sent
  exact sent

theorem WebServer.Lends.setConnection (lends : server.Lends) {value : Connection}
    (own : ∀ response, value.response = some response →
      response.bufLen = response.own.length ∧ response.loan.Kept server.gBuffer.bytes) :
    (server.setConnection connection value).Lends := by
  intro other response queued
  by_cases same : other = connection
  · subst other
    rw [WebServer.setConnection_self] at queued
    exact own response queued
  · rw [WebServer.setConnection_other same] at queued
    exact lends other response queued

theorem WebServer.Lends.send (lends : server.Lends)
    (queued : (server.connections connection).response = some response) (count : Nat) :
    (server.send connection response count).Lends := by
  obtain ⟨length, kept⟩ := lends connection response queued
  apply lends.setConnection
  intro later same
  cases same
  refine ⟨length, ?_⟩
  rw [length]
  exact kept.advance count

theorem WebServer.Lends.called (lends : server.Lends) (scrapped : scrap ≠ [] → server.Stored)
    (alone : Alone server (.call connection ctx call scrap)) :
    (server.call connection ctx call scrap).Lends := by
  by_cases exports : Exports server connection call
  · obtain ⟨scrape, made⟩ := @webRequestCallback_exports server connection ctx call server.tables exports
    simp only [WebServer.call, scrape]
    have others : WebServer.Lends
        { server with
          tables := (dataBase2Prometheus ctx server.tables maxWebpageBufferSize).tables
          gBuffer := server.gBuffer.overwrite
            ((dataBase2Prometheus ctx server.tables maxWebpageBufferSize).text ++ scrap) } := by
      intro other response queued
      obtain ⟨length, kept⟩ := lends other response queued
      refine ⟨length, ?_⟩
      by_cases stored : server.Stored
      · exact kept.write (lends.settled queued (alone exports stored other response queued)) _
      · have empty : ∀ table ∈ server.tables, table.records = [] := by
          simpa [WebServer.Stored] using stored
        have text : (dataBase2Prometheus ctx server.tables maxWebpageBufferSize).text = [] :=
          exportTables_unstored empty _
        rw [text, not_not.mp (mt scrapped stored), List.append_nil, overwrite_nil]
        exact kept
    apply others.setConnection
    intro response queued
    cases ret : (webRequestCallback ctx server.tables (server.connections connection).seen call).ret with
    | no =>
        rw [ret] at queued
        cases queued
    | yes =>
        rw [ret] at queued
        obtain ⟨succeeded, rfl⟩ := made response queued
        exact ⟨(exportTables_success succeeded).1, .fresh (overwrite_front (dataBase2Prometheus_fits succeeded) scrap)⟩
  · obtain ⟨scrape, none⟩ := @webRequestCallback_idle server connection ctx call server.tables exports
    simp only [WebServer.call, scrape, none]
    apply lends.setConnection
    intro response queued
    cases ret : (webRequestCallback ctx server.tables (server.connections connection).seen call).ret with
    | no =>
        rw [ret] at queued
        cases queued
    | yes =>
        rw [ret] at queued
        cases queued

/-- A step at which a page is made only when the earlier ones are sent. -/
def AloneStep (server : WebServer) (event : ServerEvent) (after : WebServer) : Prop :=
  ServerStep server event after ∧ Alone server event

theorem WebServer.Lends.step (lends : server.Lends) (taken : AloneStep server event after) : after.Lends := by
  obtain ⟨step, alone⟩ := taken
  cases step with
  | call idle scrapped => exact lends.called scrapped alone
  | send queued => exact lends.send queued _
  | close connection => exact lends.setConnection nofun
  | store tables => exact lends

def WebServer.start (tables : List Table) (gBuffer : WebpageBuffer) : WebServer := { tables, gBuffer }

theorem pages_own {gBuffer : WebpageBuffer} (run : Runs AloneStep (.start tables gBuffer) events server) :
    server.PagesOwn := by
  have lends : server.Lends := by
    refine run.invariant WebServer.Lends ?_ ?_
    · intro connection response queued
      cases queued
    · intro state event after taken lends
      exact lends.step taken
  exact lends.pagesOwn

def get : Call := { method := ascii "GET" }

def pageOf (tables : List Table) : DataBaseScrape := dataBase2Prometheus sampleContext tables maxWebpageBufferSize

def WebServer.begun (server : WebServer) (connection : Nat) : WebServer :=
  server.setConnection connection { seen := true }

/-- `connection` has its page in the buffer. -/
def WebServer.served (server : WebServer) (connection : Nat) : WebServer :=
  let page := pageOf server.tables
  { server with
    tables := page.tables
    gBuffer := server.gBuffer.overwrite (page.text ++ []) }.setConnection connection
      { response := some { bufLen := page.bufLen, received := [], own := page.text } }

theorem call_begins (fresh : (server.connections connection).seen = false) :
    server.call connection sampleContext get [] = server.begun connection := by
  have begins : webRequestCallback sampleContext server.tables false get = { ret := .yes, seen := true } := rfl
  rw [WebServer.call, fresh, begins]
  rfl

theorem call_serves (seen : (server.connections connection).seen = true)
    (succeeded : (pageOf server.tables).ret = 0) :
    server.call connection sampleContext get [] = server.served connection := by
  have serves : webRequestCallback sampleContext server.tables true get =
      { ret := .yes, seen := false, scrape := some (pageOf server.tables),
        response := some { bufLen := (pageOf server.tables).bufLen, received := [],
                           own := (pageOf server.tables).text } } := by
    have positive : ¬ (pageOf server.tables).ret < 0 := by
      rw [succeeded]
      exact Int.lt_irrefl 0
    exact if_neg positive
  rw [WebServer.call, seen, serves]
  rfl

theorem step_begins (fresh : server.connections connection = {}) :
    ServerStep server (.call connection sampleContext get []) (server.begun connection) := by
  rw [← @call_begins server connection (by rw [fresh])]
  exact .call (by rw [fresh]) fun nothing => absurd rfl nothing

theorem step_serves (begun : server.connections connection = { seen := true })
    (succeeded : (pageOf server.tables).ret = 0) :
    ServerStep server (.call connection sampleContext get []) (server.served connection) := by
  rw [← @call_serves server connection (by rw [begun]) succeeded]
  exact .call (by rw [begun]) fun nothing => absurd rfl nothing

/-- What the client of an unsent response gets is what the buffer holds then. -/
theorem send_front {text : Bytes} (front : text <+: server.gBuffer.bytes) (length : response.bufLen = text.length)
    (unsent : response.received = []) (count : Nat) :
    ((server.send connection response count).connections connection).response =
      some { response with received := text.take count } := by
  have piece : server.gBuffer.bytes.take response.bufLen = text := by
    rw [length]
    exact (List.prefix_iff_eq_take.mp front).symm
  rw [WebServer.send, WebServer.setConnection_self, piece, unsent]
  rfl

theorem served_front (succeeded : (pageOf server.tables).ret = 0) :
    (pageOf server.tables).text <+: (server.served connection).gBuffer.bytes :=
  overwrite_front (dataBase2Prometheus_fits succeeded) []

theorem WebServer.AllSent.setConnection {value : Connection}
    (others : ∀ other response, other ≠ connection → (server.connections other).response = some response →
      response.sent)
    (own : ∀ response, value.response = some response → response.sent) :
    (server.setConnection connection value).AllSent := by
  intro other response queued
  by_cases same : other = connection
  · subst other
    rw [WebServer.setConnection_self] at queued
    exact own response queued
  · rw [WebServer.setConnection_other same] at queued
    exact others other response same queued

theorem WebServer.AllSent.begun (sent : server.AllSent) (connection : Nat) : (server.begun connection).AllSent :=
  .setConnection (fun other response _ queued => sent other response queued) fun _ queued => by cases queued

section Pages

variable (first second : List Table) (gBuffer : WebpageBuffer)

def responseOf (tables : List Table) : Response :=
  { bufLen := (pageOf tables).bufLen, received := [], own := (pageOf tables).text }

/-- The first page, for client 0. -/
def firstPage : WebServer := ((WebServer.start first gBuffer).begun 0).served 0

/-- It is sent whole. -/
def readOut : WebServer := (firstPage first gBuffer).send 0 (responseOf first) (pageOf first).text.length

/-- Another page, for client 1 and from what is stored later. -/
def nextPage (server : WebServer) : WebServer := ({ server with tables := second }.begun 1).served 1

variable {first second}

theorem firstPage_front (succeeds : (pageOf first).ret = 0) :
    (pageOf first).text <+: (firstPage first gBuffer).gBuffer.bytes :=
  @served_front ((WebServer.start first gBuffer).begun 0) 0 succeeds

theorem nextPage_front (succeeds : (pageOf second).ret = 0) (server : WebServer) :
    (pageOf second).text <+: (nextPage second server).gBuffer.bytes :=
  @served_front ({ server with tables := second }.begun 1) 1 succeeds

theorem firstPage_queued : ((firstPage first gBuffer).connections 0).response = some (responseOf first) := by
  rw [firstPage, WebServer.served, WebServer.setConnection_self]
  rfl

theorem firstPage_others {other : Nat} (different : other ≠ 0) :
    (firstPage first gBuffer).connections other = {} := by
  rw [firstPage, WebServer.served, WebServer.setConnection_other different]
  exact WebServer.setConnection_other different _ _

theorem nextPage_others {server : WebServer} {other : Nat} (different : other ≠ 1) :
    (nextPage second server).connections other = server.connections other := by
  rw [nextPage, WebServer.served, WebServer.setConnection_other different]
  exact WebServer.setConnection_other different _ _

/-- A page in the place of an unsent one of its length reaches that one's client. -/
theorem nextPage_overtakes (succeeds : (pageOf second).ret = 0)
    (sameLength : (pageOf first).bufLen = (pageOf second).text.length) :
    (((nextPage second (firstPage first gBuffer)).send 0 (responseOf first)
        (pageOf second).text.length).connections 0).response =
      some { responseOf first with received := (pageOf second).text } := by
  rw [send_front (nextPage_front succeeds _) sameLength rfl, List.take_length]

theorem readOut_received (succeeds : (pageOf first).ret = 0) :
    ((readOut first gBuffer).connections 0).response =
      some { responseOf first with received := (pageOf first).text } := by
  have length : (responseOf first).bufLen = (pageOf first).text.length := (exportTables_success succeeds).1
  rw [readOut, send_front (firstPage_front gBuffer succeeds) length rfl, List.take_length]

theorem readOut_allSent (succeeds : (pageOf first).ret = 0) : (readOut first gBuffer).AllSent := by
  intro other response queued
  by_cases same : other = 0
  · subst other
    rw [readOut_received gBuffer succeeds] at queued
    cases queued
    exact Nat.le_of_eq (exportTables_success succeeds).1
  · rw [readOut, WebServer.send, WebServer.setConnection_other same, firstPage_others gBuffer same] at queued
    cases queued

theorem firstPage_run (succeeds : (pageOf first).ret = 0) :
    ∃ events, Runs AloneStep (.start first gBuffer) events (firstPage first gBuffer) := by
  have none : (WebServer.start first gBuffer).AllSent := fun _ _ queued => by cases queued
  have begun : Runs AloneStep (.start first gBuffer) _ ((WebServer.start first gBuffer).begun 0) :=
    Runs.start.next ⟨step_begins rfl, fun _ _ => none⟩
  exact ⟨_, begun.next ⟨step_serves (WebServer.setConnection_self ..) succeeds, fun _ _ => none.begun 0⟩⟩

theorem nextPage_run (firstSucceeds : (pageOf first).ret = 0) (secondSucceeds : (pageOf second).ret = 0) :
    ∃ events, Runs ServerStep (.start first gBuffer) events (nextPage second (firstPage first gBuffer)) := by
  obtain ⟨events, made⟩ := firstPage_run gBuffer firstSucceeds
  have stored := (made.mono fun _ _ _ taken => taken.1).next (.store _ second)
  have begun := stored.next (step_begins (firstPage_others gBuffer Nat.one_ne_zero))
  exact ⟨_, begun.next (step_serves (WebServer.setConnection_self ..) secondSucceeds)⟩

theorem readOut_run (firstSucceeds : (pageOf first).ret = 0) (secondSucceeds : (pageOf second).ret = 0) :
    ∃ events, Runs AloneStep (.start first gBuffer) events (nextPage second (readOut first gBuffer)) := by
  obtain ⟨events, made⟩ := firstPage_run gBuffer firstSucceeds
  have sent : Runs AloneStep _ (events ++ [.send 0 _]) (readOut first gBuffer) :=
    made.next ⟨.send (firstPage_queued gBuffer), trivial⟩
  have stored := sent.next ⟨.store _ second, trivial⟩
  have all := readOut_allSent gBuffer firstSucceeds
  have fresh : (readOut first gBuffer).connections 1 = {} := by
    rw [readOut, WebServer.send, WebServer.setConnection_other Nat.one_ne_zero]
    exact firstPage_others gBuffer Nat.one_ne_zero
  have begun := stored.next ⟨@step_begins { readOut first gBuffer with tables := second } 1 fresh, fun _ _ => all⟩
  exact ⟨_, begun.next ⟨step_serves (WebServer.setConnection_self ..) secondSucceeds, fun _ _ => all.begun 1⟩⟩

end Pages

def blank : WebpageBuffer := ⟨List.replicate maxWebpageBufferSize.toNat 0, List.length_replicate⟩

def seven : List Table := samplePage [ascii "10.0.0.1", ascii "7"]
def eight : List Table := samplePage [ascii "10.0.0.1", ascii "8"]

theorem seven_succeeds : (pageOf seven).ret = 0 := by decide +kernel
theorem eight_succeeds : (pageOf eight).ret = 0 := by decide +kernel

/-- The first client reads the page of the second. -/
theorem pages_overtaken : ¬ ∀ tables gBuffer events server,
    Runs ServerStep (.start tables gBuffer) events server → server.PagesOwn := by
  intro own
  obtain ⟨events, run⟩ := nextPage_run blank seven_succeeds eight_succeeds
  have queued : ((nextPage eight (firstPage seven blank)).connections 0).response = some (responseOf seven) := by
    rw [nextPage_others Nat.zero_ne_one]
    exact firstPage_queued blank
  have sameLength : (pageOf seven).bufLen = (pageOf eight).text.length := by decide +kernel
  obtain ⟨mixed, _⟩ := own _ _ _ _ (run.next (.send queued)) 0 _
    (nextPage_overtakes blank eight_succeeds sameLength)
  exact absurd mixed (by decide +kernel)

/-- The second page is made once the first is sent. -/
theorem pages_own_inTurn : (nextPage eight (readOut seven blank)).PagesOwn := by
  obtain ⟨events, run⟩ := readOut_run blank seven_succeeds eight_succeeds
  exact pages_own run

end GalaGopher.Web

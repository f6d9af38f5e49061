import GalaGopher.Imdb.Load
import GalaGopher.Imdb.Json
import GalaGopher.Text.Json

namespace GalaGopher.Imdb

open GalaGopher.Text

/-- The six fields of an event, set. -/
structure EventValues where
  tblName : Bytes
  entityId : Bytes
  metrics : Bytes
  secTxt : Bytes
  secNum : Bytes
  body : Bytes

def eventValues (record : Record) : Option EventValues := do
  let tblName ← getEvtVal record (ascii "tblName")
  let entityId ← getEvtVal record (ascii "EntityID")
  let metrics ← getEvtVal record (ascii "metrics")
  let secTxt ← getEvtVal record (ascii "SeverityText")
  let secNum ← getEvtVal record (ascii "SeverityNumber")
  let body ← getEvtVal record (ascii "Body")
  return { tblName, entityId, metrics, secTxt, secNum, body }

structure PlainEvent (values : EventValues) : Prop where
  tblName : Unescaped values.tblName
  entityId : Unescaped values.entityId
  metrics : Unescaped values.metrics
  secTxt : Unescaped values.secTxt
  secNum : jsonNumber values.secNum = some (values.secNum, [])
  body : Unescaped values.body

def eventObject (nodeInfo : NodeInfo) (values : EventValues) (now : Int) : Json :=
  .object [(ascii "Timestamp", .string (decimal (now * 1000))),
    (ascii "Attributes", .object [(ascii "Entity ID",
      .string (entityIdText nodeInfo values.tblName values.entityId))]),
    (ascii "Resource", .object [(ascii "metrics", .string (buildMetrics values.tblName values.metrics))]),
    (ascii "SeverityText", .string values.secTxt),
    (ascii "SeverityNumber", .number values.secNum),
    (ascii "Body", .string values.body)]

def entityPiece (nodeInfo : NodeInfo) (tblName entityId : Option Bytes) : Outcome Bytes :=
  match tblName, entityId with
  | some tblName, some entityId => .ok (entityIdText nodeInfo tblName entityId)
  | _, _ => .error .failed

def metricsPiece (tblName metricsName : Option Bytes) : Outcome Bytes :=
  match tblName, metricsName with
  | some tblName, some metricsName => .ok (buildMetrics tblName metricsName)
  | _, _ => .error .failed

def textPiece (before : Bytes) (argument : Option Bytes) (after : Bytes) : Outcome Bytes :=
  match argument with
  | some text => .ok (before ++ text ++ after)
  | none => .error .undefined

def eventPieces (nodeInfo : NodeInfo) (record : Record) (now : Int) : List (Outcome Bytes) :=
  [.ok (ascii "\x7b"),
    .ok (ascii "\"Timestamp\": \"" ++ decimal (now * 1000) ++ ascii "\""),
    .ok (ascii ", \"Attributes\": \x7b \"Entity ID\": \""),
    entityPiece nodeInfo (getEvtVal record (ascii "tblName")) (getEvtVal record (ascii "EntityID")),
    .ok (ascii "\",\x7d, \"Resource\": \x7b \"metrics\": \""),
    metricsPiece (getEvtVal record (ascii "tblName")) (getEvtVal record (ascii "metrics")),
    textPiece (ascii "\",\x7d, \"SeverityText\": \"") (getEvtVal record (ascii "SeverityText")) (ascii "\","),
    textPiece (ascii "\"SeverityNumber\": ") (getEvtVal record (ascii "SeverityNumber")) (ascii ","),
    textPiece (ascii "\"Body\": \"") (getEvtVal record (ascii "Body")) (ascii "\"\x7d")]

/-- The texts in front of the first fault. -/
def frontText : List (Outcome Bytes) → Bytes
  | [] => []
  | .ok text :: rest => text ++ frontText rest
  | .error _ :: _ => []

def firstFault : List (Outcome Bytes) → Option Fault
  | [] => none
  | .ok _ :: rest => firstFault rest
  | .error fault :: _ => some fault

/-- Append piece by piece while the text stays below the limit. -/
def appendPieces (limit : Nat) : List (Outcome Bytes) → Bytes → Outcome Bytes
  | [], done => .ok done
  | .error fault :: _, _ => .error fault
  | .ok text :: rest, done =>
      if (done ++ text).length < limit then appendPieces limit rest (done ++ text) else .error .failed

variable {nodeInfo : NodeInfo} {record : Record} {now : Int} {limit : Nat} {done text : Bytes}
  {pieces : List (Outcome Bytes)} {values : EventValues}

theorem appendPieces_eq (room : done.length < limit) :
    appendPieces limit pieces done =
      if (done ++ frontText pieces).length < limit then
        match firstFault pieces with
        | none => .ok (done ++ frontText pieces)
        | some fault => .error fault
      else .error .failed := by
  induction pieces generalizing done with
  | nil =>
      rw [frontText, List.append_nil, if_pos room]
      rfl
  | cons piece rest ih =>
      cases piece with
      | error fault =>
          rw [frontText, List.append_nil, if_pos room]
          rfl
      | ok text =>
          rw [appendPieces, frontText, firstFault, ← List.append_assoc]
          by_cases fits : (done ++ text).length < limit
          · rw [if_pos fits, ih fits]
          · have more : ¬ (done ++ text ++ frontText rest).length < limit := by
              rw [List.length_append]
              omega
            rw [if_neg fits, if_neg more]

def eventCursor (limit : Nat) (done : Bytes) : JsonCursor where
  text := done
  maxLen := limit - done.length

theorem eventAppend_eventCursor (text : Bytes) :
    eventAppend (eventCursor limit done) text =
      if (done ++ text).length < limit then .ok (eventCursor limit (done ++ text)) else .error .failed := by
  have size : (done ++ text).length = done.length + text.length := List.length_append
  have left : (eventCursor limit done).maxLen = limit - done.length := rfl
  unfold eventAppend cursorSnprintf
  rw [left, size]
  by_cases fits : done.length + text.length < limit
  · have maxLen : (limit : Int) - done.length - text.length = (eventCursor limit (done ++ text)).maxLen := by
      simp only [eventCursor, size]
      omega
    rw [if_neg (by omega), if_neg (by omega), if_pos fits, maxLen]
    rfl
  · by_cases empty : (limit : Int) - done.length ≤ 0
    · rw [if_pos empty, if_neg fits]
    · rw [if_neg empty, if_pos (by omega), if_neg fits]

theorem readdress_eventCursor (small : limit < 2 ^ 31) (room : done.length < limit) :
    readdress limit (eventCursor limit done) = eventCursor limit done := by
  have shown : (limit + (2 ^ 32 - done.length % 2 ^ 32)) % 2 ^ 32 = limit - done.length := by omega
  have value : toInt32 (limit - done.length) = limit - done.length := by
    rw [toInt32, if_pos (by omega)]
    omega
  simp only [readdress, eventCursor]
  rw [shown, value]

variable {next : JsonCursor → Outcome Bytes} {piece : Outcome Bytes} {rest : List (Outcome Bytes)}

/-- What follows an append that had room goes on with the other pieces. -/
def Continues (limit : Nat) (next : JsonCursor → Outcome Bytes) (rest : List (Outcome Bytes)) : Prop :=
  ∀ done, done.length < limit → next (eventCursor limit done) = appendPieces limit rest done

theorem Continues.appendPiece (continues : Continues limit next rest) (done : Bytes) :
    (piece >>= eventAppend (eventCursor limit done)) >>= next = appendPieces limit (piece :: rest) done := by
  cases piece with
  | error fault => rfl
  | ok text =>
      show eventAppend (eventCursor limit done) text >>= next = _
      rw [eventAppend_eventCursor, appendPieces]
      by_cases fits : (done ++ text).length < limit
      · rw [if_pos fits, if_pos fits]
        exact continues _ fits
      · rw [if_neg fits, if_neg fits]
        rfl

theorem Continues.appendText (continues : Continues limit next rest) (done text : Bytes) :
    eventAppend (eventCursor limit done) text >>= next = appendPieces limit (.ok text :: rest) done :=
  @Continues.appendPiece limit next (.ok text) rest continues done

theorem Continues.appendArgument (continues : Continues limit next rest) (room : done.length < limit)
    (before : Bytes) (argument : Option Bytes) (after : Bytes) :
    eventAppendText (eventCursor limit done) before argument after >>= next =
      appendPieces limit (textPiece before argument after :: rest) done := by
  have positive : ¬ (eventCursor limit done).maxLen ≤ 0 := by
    simp only [eventCursor]
    omega
  have read : eventAppendText (eventCursor limit done) before argument after =
      textPiece before argument after >>= eventAppend (eventCursor limit done) := by
    unfold eventAppendText
    rw [if_neg positive]
    cases argument with
    | none => rfl
    | some text => rfl
  rw [read]
  exact continues.appendPiece done

theorem buildEntityId_eq (tblName entityId : Option Bytes) (cursor : JsonCursor) :
    buildEntityId nodeInfo tblName entityId cursor =
      entityPiece nodeInfo tblName entityId >>= eventAppend cursor := by
  cases tblName with
  | none => rfl
  | some tblName =>
      cases entityId with
      | none => rfl
      | some entityId => rfl

theorem buildEventMetrics_eq (tblName metricsName : Option Bytes) (cursor : JsonCursor) :
    buildEventMetrics tblName metricsName cursor = metricsPiece tblName metricsName >>= eventAppend cursor := by
  cases tblName with
  | none => rfl
  | some tblName =>
      cases metricsName with
      | none => rfl
      | some metricsName => rfl

theorem evt2Json_pieces (small : limit < 2 ^ 31) :
    evt2Json nodeInfo record limit now = appendPieces limit (eventPieces nodeInfo record now) [] := by
  have start : ({ text := [], maxLen := toInt32 limit } : JsonCursor) = eventCursor limit [] := by
    rw [toInt32, if_pos small, eventCursor, List.length_nil, Int.natCast_zero, Int.sub_zero]
  have final : Continues limit (fun cursor => Except.ok cursor.text) [] := fun done room => rfl
  unfold evt2Json eventPieces
  simp only [start, buildEntityId_eq, buildEventMetrics_eq]
  apply Continues.appendText
  intro done room
  apply Continues.appendText
  intro done room
  beta_reduce
  rw [readdress_eventCursor small room]
  apply Continues.appendText
  intro done room
  apply Continues.appendPiece
  intro done room
  beta_reduce
  rw [readdress_eventCursor small room]
  apply Continues.appendText
  intro done room
  apply Continues.appendPiece
  intro done room
  beta_reduce
  rw [readdress_eventCursor small room]
  refine Continues.appendArgument ?_ room _ _ _
  intro done room
  refine Continues.appendArgument ?_ room _ _ _
  intro done room
  exact final.appendArgument room _ _ _

/-- A size from 2 ^ 31 on arrives as a negative one. -/
theorem evt2Json_large (large : 2 ^ 31 ≤ limit) (bound : limit < 2 ^ 32) :
    evt2Json nodeInfo record limit now = .error .failed := by
  have negative : cursorSnprintf (toInt32 limit) (ascii "\x7b") = none := by
    rw [toInt32, if_neg (Nat.not_lt.mpr large), cursorSnprintf, if_pos (by omega)]
  unfold evt2Json eventAppend
  simp only [negative]
  rfl

theorem evt2Json_eq (small : limit < 2 ^ 31) :
    evt2Json nodeInfo record limit now =
      if (frontText (eventPieces nodeInfo record now)).length < limit then
        match firstFault (eventPieces nodeInfo record now) with
        | none => .ok (frontText (eventPieces nodeInfo record now))
        | some fault => .error fault
      else .error .failed := by
  rw [evt2Json_pieces small]
  by_cases room : ([] : Bytes).length < limit
  · rw [appendPieces_eq room, List.nil_append]
  · rw [List.length_nil] at room
    rw [if_neg (by omega), eventPieces, appendPieces, if_neg (by omega)]

/-- The text of an event all of whose fields are set. -/
def eventText (nodeInfo : NodeInfo) (values : EventValues) (now : Int) : Bytes :=
  [ascii "\x7b",
    ascii "\"Timestamp\": \"" ++ decimal (now * 1000) ++ ascii "\"",
    ascii ", \"Attributes\": \x7b \"Entity ID\": \"",
    entityIdText nodeInfo values.tblName values.entityId,
    ascii "\",\x7d, \"Resource\": \x7b \"metrics\": \"",
    buildMetrics values.tblName values.metrics,
    ascii "\",\x7d, \"SeverityText\": \"" ++ values.secTxt ++ ascii "\",",
    ascii "\"SeverityNumber\": " ++ values.secNum ++ ascii ",",
    ascii "\"Body\": \"" ++ values.body ++ ascii "\"\x7d"].flatten

/-- One of the fields the source tests for NULL is missing. -/
def Unnamed (record : Record) : Prop :=
  getEvtVal record (ascii "tblName") = none ∨ getEvtVal record (ascii "EntityID") = none ∨
    getEvtVal record (ascii "metrics") = none

instance (record : Record) : Decidable (Unnamed record) := inferInstanceAs (Decidable (_ ∨ _ ∨ _))

theorem eventPieces_complete (complete : eventValues record = some values) :
    firstFault (eventPieces nodeInfo record now) = none ∧
      frontText (eventPieces nodeInfo record now) = eventText nodeInfo values now := by
  simp only [eventValues, bind, Option.bind_eq_some_iff] at complete
  obtain ⟨tblName, first, entityId, second, metrics, third, secTxt, fourth, secNum, fifth, body, sixth, same⟩ :=
    complete
  cases same
  rw [eventPieces, first, second, third, fourth, fifth, sixth]
  exact ⟨rfl, rfl⟩

theorem eventPieces_incomplete (incomplete : eventValues record = none) :
    firstFault (eventPieces nodeInfo record now) =
      if Unnamed record then some .failed else some .undefined := by
  unfold eventPieces
  cases first : getEvtVal record (ascii "tblName") with
  | none =>
      rw [if_pos (show Unnamed record from .inl first)]
      rfl
  | some tblName =>
      cases second : getEvtVal record (ascii "EntityID") with
      | none =>
          rw [if_pos (show Unnamed record from .inr (.inl second))]
          rfl
      | some entityId =>
          cases third : getEvtVal record (ascii "metrics") with
          | none =>
              rw [if_pos (show Unnamed record from .inr (.inr third))]
              rfl
          | some metrics =>
              have named : ¬ Unnamed record := by simp [Unnamed, first, second, third]
              rw [if_neg named]
              cases fourth : getEvtVal record (ascii "SeverityText") with
              | none => rfl
              | some secTxt =>
                  cases fifth : getEvtVal record (ascii "SeverityNumber") with
                  | none => rfl
                  | some secNum =>
                      cases sixth : getEvtVal record (ascii "Body") with
                      | none => rfl
                      | some body =>
                          rw [eventValues, first, second, third, fourth, fifth, sixth] at incomplete
                          cases incomplete

theorem eventText_eq (nodeInfo : NodeInfo) (values : EventValues) (now : Int) : ∃ rest,
    eventText nodeInfo values now =
      openBrace :: quote :: (ascii "Timestamp" ++ quote :: colon :: 32 :: quote :: (decimal (now * 1000) ++
        quote :: comma :: 32 :: quote :: (ascii "Attributes" ++ quote :: colon :: 32 :: openBrace :: 32 ::
          quote :: (ascii "Entity ID" ++ quote :: colon :: 32 :: quote ::
            (entityIdText nodeInfo values.tblName values.entityId ++ quote :: comma :: closeBrace :: rest))))) := by
  have stamp : ascii "\"Timestamp\": \"" = quote :: (ascii "Timestamp" ++ [quote, colon, 32, quote]) := rfl
  have attributes : ascii ", \"Attributes\": \x7b \"Entity ID\": \"" =
      comma :: 32 :: quote :: (ascii "Attributes" ++ quote :: colon :: 32 :: openBrace :: 32 ::
        quote :: (ascii "Entity ID" ++ [quote, colon, 32, quote])) := rfl
  have resource : ascii "\",\x7d, \"Resource\": \x7b \"metrics\": \"" =
      quote :: comma :: closeBrace :: ascii ", \"Resource\": \x7b \"metrics\": \"" := rfl
  have first : ascii "\x7b" = [openBrace] := rfl
  have closed : ascii "\"" = [quote] := rfl
  rw [eventText, stamp, attributes, resource, first, closed]
  simp only [List.flatten_cons, List.append_assoc, List.cons_append, List.nil_append]
  exact ⟨_, rfl⟩

theorem json_eventText (nodeInfo : NodeInfo) (values : EventValues) (now : Int) :
    json (eventText nodeInfo values now) ≠ some (eventObject nodeInfo values now) := by
  obtain ⟨rest, split⟩ := eventText_eq nodeInfo values now
  intro decoded
  rw [json] at decoded
  split at decoded
  · rw [Option.bind_eq_some_iff] at decoded
    obtain ⟨⟨value, final⟩, read, ended⟩ := decoded
    split at ended
    · cases ended
      have long : 2 ≤ (eventText nodeInfo values now).length := by
        rw [split]
        exact Nat.le_add_left 2 _
      obtain ⟨depth, deep⟩ := Nat.exists_eq_add_of_le' long
      rw [deep, split, jsonValue_object, Option.map_eq_some_iff] at read
      obtain ⟨⟨members, behind⟩, read, same⟩ := read
      simp only [Prod.mk.injEq, Json.object.injEq] at same
      obtain ⟨rfl, rfl⟩ := same
      obtain ⟨after, member, later⟩ := (items_cons_iff (quote_opens _)).mp read
      obtain ⟨-, valued⟩ := (jsonMember_pasted _).mp member
      rw [jsonValue_blank] at valued
      obtain ⟨-, rfl⟩ := jsonValue_string.mp valued
      obtain ⟨after, member, -⟩ := laterItems_cons_iff.mp later
      rw [jsonMember_blank] at member
      obtain ⟨-, valued⟩ := (jsonMember_pasted _).mp member
      rw [jsonValue_blank, jsonValue_object, Option.map_eq_some_iff] at valued
      obtain ⟨⟨entries, behind⟩, entry, same⟩ := valued
      simp only [Prod.mk.injEq, Json.object.injEq] at same
      obtain ⟨rfl, rfl⟩ := same
      exact items_trailing_comma entry
    · cases ended
  · cases decoded

/-- A plain event is converted whenever its text fits, any other buffer is
refused, and so is an event with a field missing. -/
structure FaithfulEvent (nodeInfo : NodeInfo) (record : Record) (jsonStrLen : Nat) (now : Int) : Prop where
  converted : ∀ values, eventValues record = some values → PlainEvent values →
    (eventText nodeInfo values now).length < jsonStrLen →
      ∃ text, evt2Json nodeInfo record jsonStrLen now = .ok text ∧ json text = some (eventObject nodeInfo values now)
  refused : ∀ values, eventValues record = some values → jsonStrLen ≤ (eventText nodeInfo values now).length →
    evt2Json nodeInfo record jsonStrLen now = .error .failed
  incomplete : eventValues record = none → evt2Json nodeInfo record jsonStrLen now = .error .failed

/-- The buffer is too small for a plain event, and an event with a field
missing is stopped before the first missing field is printed. -/
structure StopsEvent (nodeInfo : NodeInfo) (record : Record) (jsonStrLen : Nat) (now : Int) : Prop where
  plain : ∀ values, eventValues record = some values → PlainEvent values →
    jsonStrLen ≤ (eventText nodeInfo values now).length
  incomplete : eventValues record = none → Unnamed record ∨
    jsonStrLen ≤ (frontText (eventPieces nodeInfo record now)).length ∨ 2 ^ 31 ≤ jsonStrLen

theorem evt2Json_complete (complete : eventValues record = some values) (small : limit < 2 ^ 31) :
    evt2Json nodeInfo record limit now =
      if (eventText nodeInfo values now).length < limit then .ok (eventText nodeInfo values now)
      else .error .failed := by
  obtain ⟨whole, text⟩ := @eventPieces_complete nodeInfo record now values complete
  rw [evt2Json_eq small, whole, text]

/-- No plain event is converted into its object. -/
theorem FaithfulEvent.too_small (faithful : FaithfulEvent nodeInfo record limit now)
    (complete : eventValues record = some values) (plain : PlainEvent values) (bound : limit < 2 ^ 32) :
    limit ≤ (eventText nodeInfo values now).length := by
  apply Nat.le_of_not_lt
  intro fits
  obtain ⟨text, converted, decoded⟩ := faithful.converted values complete plain fits
  by_cases small : limit < 2 ^ 31
  · rw [evt2Json_complete complete small, if_pos fits] at converted
    cases converted
    exact json_eventText nodeInfo values now decoded
  · rw [evt2Json_large (Nat.le_of_not_lt small) bound] at converted
    cases converted

theorem evt2Json_faithful_iff (nodeInfo : NodeInfo) (record : Record) (jsonStrLen : UInt32) (now : Int) :
    FaithfulEvent nodeInfo record jsonStrLen.toNat now ↔ StopsEvent nodeInfo record jsonStrLen.toNat now := by
  have bound := jsonStrLen.toNat_lt
  generalize jsonStrLen.toNat = limit at bound
  constructor
  · intro faithful
    refine ⟨fun values complete plain => faithful.too_small complete plain bound, ?_⟩
    intro incomplete
    have failed := faithful.incomplete incomplete
    by_cases small : limit < 2 ^ 31
    · rw [evt2Json_eq small] at failed
      by_cases named : Unnamed record
      · exact .inl named
      · rw [eventPieces_incomplete incomplete, if_neg named] at failed
        split at failed
        · cases failed
        · rename_i full
          exact .inr (.inl (Nat.le_of_not_lt full))
    · exact .inr (.inr (Nat.le_of_not_lt small))
  · intro stops
    refine ⟨?_, ?_, ?_⟩
    · intro values complete plain fits
      exact absurd (stops.plain values complete plain) (Nat.not_le.mpr fits)
    · intro values complete short
      by_cases small : limit < 2 ^ 31
      · rw [evt2Json_complete complete small, if_neg (Nat.not_lt.mpr short)]
      · exact evt2Json_large (Nat.le_of_not_lt small) bound
    · intro incomplete
      by_cases small : limit < 2 ^ 31
      · rw [evt2Json_eq small, eventPieces_incomplete incomplete]
        rcases stops.incomplete incomplete with named | full | large
        · rw [if_pos named]
          split
          · rfl
          · rfl
        · rw [if_neg (Nat.not_lt.mpr full)]
        · exact absurd small (Nat.not_lt.mpr large)
      · exact evt2Json_large (Nat.le_of_not_lt small) bound

def sampleEvent : Record :=
  sampleRecord "" [sampleMetric "label" "tblName" "tcp", sampleMetric "key" "EntityID" "1",
    sampleMetric "label" "metrics" "rx", sampleMetric "label" "SeverityText" "WARN",
    sampleMetric "label" "SeverityNumber" "13", sampleMetric "label" "Body" "slow"]

/-- The text answered for a plain event is no JSON. -/
theorem evt2Json_trailing_comma : ¬ FaithfulEvent sampleMgr.nodeInfo sampleEvent 1024 1 := by
  have complete : eventValues sampleEvent = some {
      tblName := ascii "tcp", entityId := ascii "1", metrics := ascii "rx", secTxt := ascii "WARN"
      secNum := ascii "13", body := ascii "slow" } := rfl
  have plain : PlainEvent {
      tblName := ascii "tcp", entityId := ascii "1", metrics := ascii "rx", secTxt := ascii "WARN"
      secNum := ascii "13", body := ascii "slow" } :=
    ⟨by decide, by decide, by decide, by decide, by decide, by decide⟩
  intro faithful
  exact absurd (faithful.too_small complete plain (by decide)) (by decide +kernel)

end GalaGopher.Imdb

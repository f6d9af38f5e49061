import GalaGopher.RedisClient

namespace GalaGopher.RedisClient

open GalaGopher.Text GalaGopher.Text.Resp GalaGopher.Data

/-! Replies come back in the order of the commands, and each is measured
against its own. -/

variable {buf : SocketBuffer} {period lastReport : Int} {maxQueueSize : Nat} {past events : List Event} {event : Event}
  {world after : World}

abbrev Step (buf : SocketBuffer) (period : Int) (maxQueueSize : Nat) (world : World) (event : Event) (after : World) : Prop :=
  step buf period maxQueueSize world event = some after

/-- What a command is on the wire. -/
def wireArgs (request : Bytes × List Value) : List Bytes := (.str request.1 :: request.2 : List Value).map encode

def Event.sends : Event → List (Bytes × List Value)
  | .send cmd args => [(cmd, args)]
  | _ => []

def Event.queuings : Event → List Int
  | .queue now => [now]
  | _ => []

def Event.serves : Event → List (List Bytes × Reply)
  | .serve request reply => [(request, reply)]
  | _ => []

def Event.measures : Event → List Int
  | .measure ts => [ts]
  | _ => []

def sends (events : List Event) : List (Bytes × List Value) := events.flatMap Event.sends
def queuings (events : List Event) : List Int := events.flatMap Event.queuings
def serves (events : List Event) : List (List Bytes × Reply) := events.flatMap Event.serves
def measures (events : List Event) : List Int := events.flatMap Event.measures

/-- What the client takes a reply for. -/
def responseOf : Reply → Response
  | .status text | .error text | .bulk text => .value text
  | .integer number => .value (ascii (toString number))
  | .null => .null
  | .array _ _ => .raised

/-- The sample is of the command and the reply at its own place. -/
def OfPlace (events : List Event) (place : Nat) (sample : Sample) : Prop :=
  ∃ request reply, (sends events)[place]? = some request ∧ (serves events)[place]? = some (wireArgs request, reply) ∧
    (queuings events)[place]? = some sample.command.sent ∧ (measures events)[place]? = some sample.ts ∧
    sample.command.cmd = request.1 ∧ sample.resp = responseOf reply

theorem packCommand_eq (args : List Value) : packCommand args = requestText (args.map encode) := by
  have joined (output : List Bytes) : join output = output.flatten := by
    have shifted (sofar : Bytes) : output.foldl (· ++ symEmpty ++ ·) sofar = sofar ++ output.flatten := by
      induction output generalizing sofar with
      | nil => simp
      | cons first rest ih =>
          rw [List.foldl_cons, ih, symEmpty]
          simp
    rw [join, shifted, List.nil_append]
  have bulks : ((args.map encode).map fun arg =>
      join [symDollar, ascii (toString arg.length), symCrlf, arg, symCrlf]) = (args.map encode).map bulkText := by
    apply List.map_congr_left
    intro arg _
    rw [joined]
    simp [symDollar, symCrlf, bulkText, countText]
  rw [packCommand, bulks, joined, joined, requestText, List.length_map]
  simp [symStar, symCrlf, countText, List.flatMap_def]

theorem counted_unbroken {byte mark : UInt8} (other : byte ≠ mark) (plain : isDigit byte = false) {count : Nat} :
    byte ∉ mark :: ascii (toString count) := by
  rw [List.mem_cons, not_or]
  refine ⟨other, fun member => ?_⟩
  have digit := (whole_printed count).digits byte member
  rw [plain] at digit
  cases digit

theorem readResponse_line (buf : SocketBuffer) {mark : UInt8} (marked : mark ∈ [dash, plus, colon]) {text : Bytes}
    (free : 13 ∉ text ∧ 10 ∉ text) (rest : Bytes) :
    readResponse buf (mark :: (text ++ crlf) ++ rest) = some (.value text, rest) := by
  have visible : 13 ∉ mark :: text ∧ 10 ∉ mark :: text := by
    rw [List.mem_cons, not_or, List.mem_cons, not_or]
    refine ⟨⟨?_, free.1⟩, ?_, free.2⟩
    · rintro rfl
      exact absurd marked (by decide)
    · rintro rfl
      exact absurd marked (by decide)
  have read := buf.readline_line (mark :: text) rest visible.1 visible.2
  have known : ¬ mark ∉ [dash, plus, colon, dollar] :=
    not_not.mpr (List.mem_append_left [dollar] marked)
  have other : mark ≠ dollar := by
    rintro rfl
    exact absurd marked (by decide)
  rw [List.cons_append, List.append_assoc, ← List.cons_append, readResponse, read, Option.bind_some]
  simp only [if_neg known, if_neg other]

theorem readResponse_null (buf : SocketBuffer) (rest : Bytes) :
    readResponse buf (replyText .null ++ rest) = some (.null, rest) := by
  have read := buf.readline_line (dollar :: ascii "-1") rest (by decide) (by decide)
  have known : ¬ dollar ∉ [dash, plus, colon, dollar] := by decide
  have length : toInt (ascii "-1") = some (-1) := by decide
  rw [replyText, List.cons_append, List.append_assoc, ← List.cons_append, readResponse, read, Option.bind_some]
  simp only [if_neg known, length, if_true]

theorem readResponse_bulk (buf : SocketBuffer) (text rest : Bytes) :
    readResponse buf (bulkText text ++ rest) = some (.value text, rest) := by
  have read := buf.readline_line (dollar :: ascii (toString text.length)) (text ++ (crlf ++ rest))
    (counted_unbroken (by decide) (by decide)) (counted_unbroken (by decide) (by decide))
  have known : ¬ dollar ∉ [dash, plus, colon, dollar] := by decide
  have length : toInt (ascii (toString text.length)) = some (text.length : Int) := by
    have whole := whole_printed text.length
    cases shown : ascii (toString text.length) with
    | nil => exact absurd shown whole.nonempty
    | cons first digits =>
        have plain : first ≠ dash := by
          rintro rfl
          exact absurd (whole.digits dash (shown ▸ List.mem_cons_self)) (by decide)
        rw [toInt, if_neg plain, ← shown, number_printed]
        rfl
  have present : ¬ (text.length : Int) = -1 := by omega
  rw [bulkText, countText, List.cons_append, List.append_assoc, List.cons_append, List.append_assoc,
    List.append_assoc, List.append_assoc, ← List.cons_append, readResponse, read, Option.bind_some]
  simp only [if_neg known, if_true, length, if_neg present]
  rw [buf.read_body, Option.map_some]

/-- A reply at the front of the stream is read as what it is. -/
theorem readResponse_replyText (buf : SocketBuffer) {reply : Reply} (simple : reply.Simple) (rest : Bytes) :
    ∃ behind, readResponse buf (replyText reply ++ rest) = some (responseOf reply, behind) ∧
      (responseOf reply ≠ .raised → behind = rest) := by
  cases reply with
  | status text => exact ⟨rest, readResponse_line buf (by decide) simple rest, fun _ => rfl⟩
  | error text => exact ⟨rest, readResponse_line buf (by decide) simple rest, fun _ => rfl⟩
  | integer number => exact ⟨rest, readResponse_line buf (by decide) ⟨printed_free (by decide) number, printed_free (by decide) number⟩ rest, fun _ => rfl⟩
  | bulk text => exact ⟨rest, readResponse_bulk buf text rest, fun _ => rfl⟩
  | null => exact ⟨rest, readResponse_null buf rest, fun _ => rfl⟩
  | array count items =>
      have read := buf.readline_line (star :: ascii (toString count)) (items ++ rest)
        (counted_unbroken (by decide) (by decide)) (counted_unbroken (by decide) (by decide))
      have unknown : star ∉ [dash, plus, colon, dollar] := by decide
      refine ⟨items ++ rest, ?_, fun value => absurd rfl value⟩
      rw [replyText, countText, List.cons_append, List.append_assoc, List.cons_append, List.append_assoc, List.append_assoc,
        ← List.cons_append, readResponse, read, Option.bind_some]
      simp only [if_pos unknown, responseOf]

theorem getElem?_append_some {α : Type} {values : List α} {place : Nat} {value : α} (found : values[place]? = some value)
    (more : List α) : (values ++ more)[place]? = some value := by
  rw [List.getElem?_append_left (List.getElem?_eq_some_iff.mp found).1]
  exact found

theorem flatMap_concat {α β : Type} (each : α → List β) (past : List α) (event : α) :
    (past ++ [event]).flatMap each = past.flatMap each ++ each event := by
  rw [List.flatMap_append, List.flatMap_singleton]

theorem OfPlace.concat {place : Nat} {sample : Sample} (known : OfPlace past place sample) (event : Event) :
    OfPlace (past ++ [event]) place sample := by
  obtain ⟨request, reply, sent, served, queued, measured, same, resp⟩ := known
  refine ⟨request, reply, ?_, ?_, ?_, ?_, same, resp⟩
  · rw [sends, flatMap_concat]
    exact getElem?_append_some sent _
  · rw [serves, flatMap_concat]
    exact getElem?_append_some served _
  · rw [queuings, flatMap_concat]
    exact getElem?_append_some queued _
  · rw [measures, flatMap_concat]
    exact getElem?_append_some measured _

/-- How many replies have been read: those measured, and the one held. -/
def World.taken (world : World) : Nat :=
  world.samples.length + match world.receiver with
    | .holding _ => 1
    | _ => 0

/-- The queue and both streams are what has been sent, served and taken. -/
structure Paired (past : List Event) (world : World) : Prop where
  sending : (world.sending = none ∧ (sends past).length = (queuings past).length) ∨
    ∃ earlier request, world.sending = some request.1 ∧ sends past = earlier ++ [request] ∧
      earlier.length = (queuings past).length
  measured : world.samples.length = (measures past).length
  queued : world.samples.length + world.cmdsQueue.length = (queuings past).length
  queue : ∀ place command, world.cmdsQueue[place]? = some command →
    ∃ request, (sends past)[world.samples.length + place]? = some request ∧
      (queuings past)[world.samples.length + place]? = some command.sent ∧ command.cmd = request.1
  served : (serves past).map Prod.fst = ((sends past).take (serves past).length).map wireArgs
  ahead : (serves past).length ≤ (sends past).length
  toServer : world.toServer = ((sends past).drop (serves past).length).flatMap fun request => requestText (wireArgs request)
  simple : ∀ reply ∈ serves past, reply.2.Simple
  taken : world.taken ≤ (serves past).length
  toClient : world.receiver ≠ .ended →
    world.toClient = ((serves past).drop world.taken).flatMap fun reply => replyText reply.2
  holding : ∀ resp, world.receiver = .holding resp →
    ∃ reply, (serves past)[world.samples.length]? = some reply ∧ resp = responseOf reply.2
  samples : ∀ place sample, world.samples[place]? = some sample → OfPlace past place sample

theorem connected_paired (lastReport : Int) : Paired [] (World.connected lastReport) where
  sending := .inl ⟨rfl, rfl⟩
  measured := rfl
  queued := rfl
  queue place command found := by simp [World.connected] at found
  served := rfl
  ahead := Nat.le_refl _
  toServer := rfl
  simple reply member := by simp [serves] at member
  taken := Nat.le_refl _
  toClient _ := rfl
  holding resp held := by cases held
  samples place sample found := by simp [World.connected] at found

theorem Paired.send (paired : Paired past world) (idle : world.sending = none) (cmd : Bytes) (args : List Value) :
    Paired (past ++ [.send cmd args])
      { world with toServer := world.toServer ++ packCommand (.str cmd :: args), sending := some cmd } := by
  have sent : sends (past ++ [.send cmd args]) = sends past ++ [(cmd, args)] := flatMap_concat _ _ _
  have queuings_same : queuings (past ++ [.send cmd args]) = queuings past :=
    (flatMap_concat _ _ _).trans (List.append_nil _)
  have serves_same : serves (past ++ [.send cmd args]) = serves past :=
    (flatMap_concat _ _ _).trans (List.append_nil _)
  have measures_same : measures (past ++ [.send cmd args]) = measures past :=
    (flatMap_concat _ _ _).trans (List.append_nil _)
  have counts : (sends past).length = (queuings past).length := by
    rcases paired.sending with ⟨_, counts⟩ | ⟨_, _, busy, _⟩
    · exact counts
    · rw [idle] at busy
      cases busy
  refine {
    sending := .inr ⟨sends past, (cmd, args), rfl, sent, queuings_same ▸ counts⟩
    measured := measures_same ▸ paired.measured
    queued := queuings_same ▸ paired.queued
    queue := ?_
    served := ?_
    ahead := ?_
    toServer := ?_
    simple := serves_same ▸ paired.simple
    taken := serves_same ▸ paired.taken
    toClient := serves_same ▸ paired.toClient
    holding := serves_same ▸ paired.holding
    samples := fun place sample found => (paired.samples place sample found).concat _ }
  · intro place command found
    obtain ⟨request, known, queued, same⟩ := paired.queue place command found
    exact ⟨request, sent ▸ getElem?_append_some known _, queuings_same ▸ queued, same⟩
  · rw [serves_same, sent, List.take_append_of_le_length paired.ahead]
    exact paired.served
  · rw [serves_same, sent, List.length_append]
    exact Nat.le_add_right_of_le paired.ahead
  · rw [serves_same, sent, List.drop_append_of_le_length paired.ahead, List.flatMap_append, ← paired.toServer,
      List.flatMap_singleton, packCommand_eq]
    rfl

theorem Paired.queue_step (paired : Paired past world) {cmd : Bytes} (busy : world.sending = some cmd) (now : Int) :
    Paired (past ++ [.queue now])
      { world with cmdsQueue := world.cmdsQueue ++ [{ cmd, sent := now }], sending := none } := by
  have sends_same : sends (past ++ [.queue now]) = sends past := (flatMap_concat _ _ _).trans (List.append_nil _)
  have queuedNow : queuings (past ++ [.queue now]) = queuings past ++ [now] := flatMap_concat _ _ _
  have serves_same : serves (past ++ [.queue now]) = serves past := (flatMap_concat _ _ _).trans (List.append_nil _)
  have measures_same : measures (past ++ [.queue now]) = measures past :=
    (flatMap_concat _ _ _).trans (List.append_nil _)
  obtain ⟨earlier, request, same, split, counts⟩ : ∃ earlier request, cmd = request.1 ∧
      sends past = earlier ++ [request] ∧ earlier.length = (queuings past).length := by
    rcases paired.sending with ⟨idle, _⟩ | ⟨earlier, request, named, split, counts⟩
    · rw [busy] at idle
      cases idle
    · rw [busy] at named
      exact ⟨earlier, request, Option.some.inj named, split, counts⟩
  refine {
    sending := .inl ⟨rfl, ?_⟩
    measured := measures_same ▸ paired.measured
    queued := ?_
    queue := ?_
    served := serves_same ▸ sends_same ▸ paired.served
    ahead := serves_same ▸ sends_same ▸ paired.ahead
    toServer := serves_same ▸ sends_same ▸ paired.toServer
    simple := serves_same ▸ paired.simple
    taken := serves_same ▸ paired.taken
    toClient := serves_same ▸ paired.toClient
    holding := serves_same ▸ paired.holding
    samples := fun place sample found => (paired.samples place sample found).concat _ }
  · rw [sends_same, queuedNow, split, List.length_append, List.length_append, counts]
    rfl
  · rw [queuedNow, List.length_append, List.length_append, ← paired.queued, Nat.add_assoc]
    rfl
  · intro place command found
    rw [sends_same, queuedNow]
    by_cases earlierPlace : place < world.cmdsQueue.length
    · rw [List.getElem?_append_left earlierPlace] at found
      obtain ⟨known, there, queued, named⟩ := paired.queue place command found
      exact ⟨known, there, getElem?_append_some queued _, named⟩
    · have last : place = world.cmdsQueue.length := by
        have bound := (List.getElem?_eq_some_iff.mp found).1
        rw [List.length_append, List.length_singleton] at bound
        omega
      subst place
      rw [List.getElem?_concat_length, Option.some.injEq] at found
      subst command
      rw [paired.queued]
      refine ⟨request, ?_, List.getElem?_concat_length, same⟩
      rw [split, ← counts]
      exact List.getElem?_concat_length

/-- The server takes the first request it has not answered yet. -/
theorem Paired.next_request (paired : Paired past world) {args : List Bytes} {rest : Bytes}
    (read : request world.toServer = some (args, rest)) :
    ∃ sent, (sends past)[(serves past).length]? = some sent ∧ args = wireArgs sent ∧
      rest = ((sends past).drop ((serves past).length + 1)).flatMap fun request => requestText (wireArgs request) := by
  cases unanswered : (sends past).drop (serves past).length with
  | nil =>
      rw [paired.toServer, unanswered] at read
      cases read
  | cons sent later =>
      have here : ((sends past).drop (serves past).length)[0]? = (sends past)[(serves past).length]? := List.getElem?_drop
      have behind : (sends past).drop ((serves past).length + 1) = later := by
        rw [← List.drop_drop, unanswered]
        rfl
      rw [paired.toServer, unanswered, List.flatMap_cons, request_requestText] at read
      cases read
      rw [unanswered] at here
      exact ⟨sent, here.symm, rfl, by rw [behind]⟩

theorem Paired.serve (paired : Paired past world) {args : List Bytes} {rest : Bytes}
    (read : request world.toServer = some (args, rest)) {reply : Reply} (simple : reply.Simple) :
    Paired (past ++ [.serve args reply])
      { world with toServer := rest, toClient := world.toClient ++ replyText reply } := by
  have sends_same : sends (past ++ [.serve args reply]) = sends past := (flatMap_concat _ _ _).trans (List.append_nil _)
  have queuings_same : queuings (past ++ [.serve args reply]) = queuings past :=
    (flatMap_concat _ _ _).trans (List.append_nil _)
  have servedNow : serves (past ++ [.serve args reply]) = serves past ++ [(args, reply)] := flatMap_concat _ _ _
  have measures_same : measures (past ++ [.serve args reply]) = measures past :=
    (flatMap_concat _ _ _).trans (List.append_nil _)
  obtain ⟨sent, here, same, behind⟩ := paired.next_request read
  have longer : (serves (past ++ [.serve args reply])).length = (serves past).length + 1 := by
    rw [servedNow, List.length_append]
    rfl
  refine {
    sending := by simpa only [sends_same, queuings_same] using paired.sending
    measured := measures_same ▸ paired.measured
    queued := queuings_same ▸ paired.queued
    queue := by simpa only [sends_same, queuings_same] using paired.queue
    served := ?_
    ahead := ?_
    toServer := ?_
    simple := ?_
    taken := ?_
    toClient := ?_
    holding := ?_
    samples := fun place sample found => (paired.samples place sample found).concat _ }
  · rw [longer, sends_same, servedNow, List.map_append, paired.served, List.take_add_one, here, List.map_append, same]
    rfl
  · rw [longer, sends_same]
    exact (List.getElem?_eq_some_iff.mp here).1
  · rw [longer, sends_same]
    exact behind
  · intro other member
    rw [servedNow, List.mem_append, List.mem_singleton] at member
    rcases member with earlier | rfl
    · exact paired.simple other earlier
    · exact simple
  · rw [longer]
    exact Nat.le_succ_of_le paired.taken
  · intro running
    have held : world.taken ≤ (serves past).length := paired.taken
    rw [servedNow]
    change world.toClient ++ _ = ((serves past ++ [(args, reply)]).drop world.taken).flatMap _
    rw [List.drop_append_of_le_length held, List.flatMap_append, ← paired.toClient running, List.flatMap_singleton]
  · intro resp held
    obtain ⟨known, there, said⟩ := paired.holding resp held
    exact ⟨known, servedNow ▸ getElem?_append_some there _, said⟩

/-- The client reads the first reply it has not taken yet. -/
theorem Paired.next_reply (paired : Paired past world) (reading : world.receiver = .reading) {resp : Response} {rest : Bytes}
    (read : readResponse buf world.toClient = some (resp, rest)) :
    ∃ reply, (serves past)[world.samples.length]? = some reply ∧ resp = responseOf reply.2 ∧
      (resp ≠ .raised → rest = ((serves past).drop (world.samples.length + 1)).flatMap fun reply => replyText reply.2) := by
  have taken : world.taken = world.samples.length := by rw [World.taken, reading, Nat.add_zero]
  have stream := paired.toClient (by rw [reading]; exact Receiver.noConfusion)
  rw [taken] at stream
  cases waiting : (serves past).drop world.samples.length with
  | nil =>
      rw [stream, waiting, List.flatMap_nil, readResponse, buf.readline_waits] at read
      cases read
  | cons reply later =>
      have here : ((serves past).drop world.samples.length)[0]? = (serves past)[world.samples.length]? := List.getElem?_drop
      have tail : (serves past).drop (world.samples.length + 1) = later := by
        rw [← List.drop_drop, waiting]
        rfl
      rw [waiting] at here
      have simple := paired.simple reply (List.mem_of_mem_drop (waiting ▸ List.mem_cons_self))
      obtain ⟨left, reads, exact_rest⟩ := readResponse_replyText buf simple (later.flatMap fun reply => replyText reply.2)
      rw [stream, waiting, List.flatMap_cons, reads, Option.some.injEq, Prod.mk.injEq] at read
      obtain ⟨rfl, rfl⟩ := read
      exact ⟨reply, here.symm, rfl, fun whole => by rw [tail, exact_rest whole]⟩

theorem Paired.read (paired : Paired past world) (reading : world.receiver = .reading) {resp : Response} {rest : Bytes}
    (read : readResponse buf world.toClient = some (resp, rest)) :
    Paired (past ++ [.read])
      { world with toClient := rest, receiver := if resp = .raised then .ended else .holding resp } := by
  have sends_same : sends (past ++ [.read]) = sends past := (flatMap_concat _ _ _).trans (List.append_nil _)
  have queuings_same : queuings (past ++ [.read]) = queuings past := (flatMap_concat _ _ _).trans (List.append_nil _)
  have serves_same : serves (past ++ [.read]) = serves past := (flatMap_concat _ _ _).trans (List.append_nil _)
  have measures_same : measures (past ++ [.read]) = measures past := (flatMap_concat _ _ _).trans (List.append_nil _)
  obtain ⟨reply, here, said, behind⟩ := paired.next_reply reading read
  have counted : world.samples.length < (serves past).length := (List.getElem?_eq_some_iff.mp here).1
  refine {
    sending := by simpa only [sends_same, queuings_same] using paired.sending
    measured := measures_same ▸ paired.measured
    queued := queuings_same ▸ paired.queued
    queue := by simpa only [sends_same, queuings_same] using paired.queue
    served := by simpa only [sends_same, serves_same] using paired.served
    ahead := by simpa only [sends_same, serves_same] using paired.ahead
    toServer := by simpa only [sends_same, serves_same] using paired.toServer
    simple := serves_same ▸ paired.simple
    taken := ?_
    toClient := ?_
    holding := ?_
    samples := fun place sample found => (paired.samples place sample found).concat _ }
  · rw [serves_same, World.taken]
    by_cases raised : resp = .raised
    · simp only [if_pos raised]
      exact Nat.le_of_lt counted
    · simp only [if_neg raised]
      exact counted
  · by_cases raised : resp = .raised
    · intro running
      simp only [if_pos raised] at running
      exact absurd rfl running
    · intro _
      rw [serves_same, World.taken]
      simp only [if_neg raised]
      exact behind raised
  · intro held given
    by_cases raised : resp = .raised
    · simp only [if_pos raised] at given
      cases given
    · simp only [if_neg raised] at given
      cases given
      exact ⟨reply, serves_same ▸ here, said⟩

theorem Paired.measure (paired : Paired past world) {resp : Response} (holding : world.receiver = .holding resp)
    {command : Command} {rest : List Command} (first : world.cmdsQueue = command :: rest) (ts : Int) (stats : Stats)
    (reports : List Report) :
    Paired (past ++ [.measure ts])
      { world with
        cmdsQueue := rest
        receiver := .reading
        samples := world.samples ++ [{ command, ts, resp }]
        stats
        reports } := by
  have sends_same : sends (past ++ [.measure ts]) = sends past := (flatMap_concat _ _ _).trans (List.append_nil _)
  have queuings_same : queuings (past ++ [.measure ts]) = queuings past :=
    (flatMap_concat _ _ _).trans (List.append_nil _)
  have serves_same : serves (past ++ [.measure ts]) = serves past := (flatMap_concat _ _ _).trans (List.append_nil _)
  have measuredNow : measures (past ++ [.measure ts]) = measures past ++ [ts] := flatMap_concat _ _ _
  have taken : world.taken = world.samples.length + 1 := by rw [World.taken, holding]
  have longer : (world.samples ++ [Sample.mk command ts resp]).length = world.samples.length + 1 := by
    rw [List.length_append]
    rfl
  have whole := paired.queued
  rw [first, List.length_cons] at whole
  have after : World.taken { world with
      cmdsQueue := rest, receiver := .reading, samples := world.samples ++ [⟨command, ts, resp⟩], stats, reports } =
        world.taken := by
    rw [taken, World.taken]
    exact longer
  refine {
    sending := by simpa only [sends_same, queuings_same] using paired.sending
    measured := ?_
    queued := ?_
    queue := ?_
    served := by simpa only [sends_same, serves_same] using paired.served
    ahead := by simpa only [sends_same, serves_same] using paired.ahead
    toServer := by simpa only [sends_same, serves_same] using paired.toServer
    simple := serves_same ▸ paired.simple
    taken := ?_
    toClient := ?_
    holding := fun held given => by cases given
    samples := ?_ }
  · rw [measuredNow, longer, List.length_append, paired.measured]
    rfl
  · rw [longer, queuings_same, ← whole, Nat.add_assoc, Nat.add_comm 1]
  · intro place other found
    obtain ⟨request, there, queued, named⟩ := paired.queue (place + 1) other (first ▸ found)
    refine ⟨request, ?_, ?_, named⟩
    · rw [longer, sends_same, Nat.add_assoc, Nat.add_comm 1]
      exact there
    · rw [longer, queuings_same, Nat.add_assoc, Nat.add_comm 1]
      exact queued
  · rw [after, serves_same]
    exact paired.taken
  · intro _
    rw [after, serves_same]
    exact paired.toClient (by rw [holding]; exact Receiver.noConfusion)
  · intro place sample found
    by_cases earlier : place < world.samples.length
    · rw [List.getElem?_append_left earlier] at found
      exact (paired.samples place sample found).concat _
    · have last : place = world.samples.length := by
        have bound : place < (world.samples ++ [Sample.mk command ts resp]).length := (List.getElem?_eq_some_iff.mp found).1
        omega
      subst place
      rw [List.getElem?_concat_length, Option.some.injEq] at found
      subst sample
      obtain ⟨reply, served, said⟩ := paired.holding resp holding
      obtain ⟨request, sent, queued, named⟩ := paired.queue 0 command (first ▸ rfl)
      rw [Nat.add_zero] at sent queued
      -- the server's first part at this place is what was sent there
      have part : reply.1 = wireArgs request := by
        have inside := (List.getElem?_eq_some_iff.mp served).1
        have front := congrArg (·[world.samples.length]?) paired.served
        simp only [List.getElem?_map, served, List.getElem?_take_of_lt inside, sent, Option.map_some,
          Option.some.injEq] at front
        exact front
      refine ⟨request, reply.2, sends_same ▸ sent, ?_, queuings_same ▸ queued, ?_, named, said⟩
      · rw [serves_same, served, ← part]
      · rw [measuredNow, paired.measured]
        exact List.getElem?_concat_length

theorem Step.paired (taken : Step buf period maxQueueSize world event after) (paired : Paired past world) :
    Paired (past ++ [event]) after := by
  cases event with
  | send cmd args =>
      simp only [Step, step] at taken
      split at taken
      · cases taken
      · rename_i idle
        cases taken
        exact paired.send idle cmd args
  | queue now =>
      simp only [Step, step] at taken
      split at taken
      · cases taken
      · rename_i busy
        split at taken
        · cases taken
        · cases taken
          exact paired.queue_step busy now
  | serve request reply =>
      simp only [Step, step] at taken
      split at taken
      · cases taken
      · rename_i args rest read
        split at taken
        · rename_i given
          cases taken
          rw [← given.1]
          exact paired.serve read given.2
        · cases taken
  | read =>
      simp only [Step, step] at taken
      split at taken
      · rename_i reading
        rw [Option.map_eq_some_iff] at taken
        obtain ⟨read, response, rfl⟩ := taken
        exact paired.read reading response
      · cases taken
  | measure ts =>
      simp only [Step, step] at taken
      split at taken
      · rename_i holding first
        cases taken
        rw [World.measure]
        split
        · exact paired.measure holding first ts _ _
        · exact paired.measure holding first ts _ _
      · cases taken

/-- In every order of the two threads and the server, the requests the server
decodes are the commands in the order they were sent, and each sample is of a
command, its own time, the reply to it and the time that one was read. -/
theorem replies_pair (run : Data.Runs (Step buf period maxQueueSize) (World.connected lastReport) events world) :
    (serves events).map Prod.fst <+: (sends events).map wireArgs ∧ world.samples.length = (measures events).length ∧
      ∀ place sample, world.samples[place]? = some sample → OfPlace events place sample := by
  have paired : Paired events world :=
    run.history Paired (connected_paired lastReport) fun _ _ _ _ taken paired => Step.paired taken paired
  refine ⟨?_, paired.measured, paired.samples⟩
  rw [paired.served, List.map_take]
  exact List.take_prefix _ _

/-- Three commands; the queue has room for one, so that the second waits until
the reply to the first is measured. -/
def getReplied : List Event :=
  [.send (ascii "GET") [.int 5], .queue 10, .serve [ascii "GET", ascii "5"] (.bulk (ascii "12")),
    .send (ascii "SET") [.int 6, .str (ascii "x")], .read, .measure 30, .queue 31,
    .serve [ascii "SET", ascii "6", ascii "x"] (.status (ascii "OK")), .send (ascii "GET") [.int 8], .read, .measure 33,
    .queue 34, .serve [ascii "GET", ascii "8"] .null, .read, .measure 40]

def replied : World where
  stats := resetStats 40
  cmdsQueue := []
  sending := none
  receiver := .reading
  toServer := []
  toClient := []
  samples :=
    [⟨⟨ascii "GET", 10⟩, 30, .value (ascii "12")⟩, ⟨⟨ascii "SET", 31⟩, 33, .value (ascii "OK")⟩,
      ⟨⟨ascii "GET", 34⟩, 40, .null⟩]
  reports := [⟨1, 20, 20, 20, 0⟩, ⟨2, 2, 6, 6, 0⟩]

theorem getReplied_run : Runs (Step socketBuffer 5 1) (World.connected 0) getReplied replied :=
  Runs.foldlM (step socketBuffer 5 1) (by decide +kernel)

theorem replies_pair_get :
    OfPlace getReplied 0 ⟨⟨ascii "GET", 10⟩, 30, .value (ascii "12")⟩ ∧
      OfPlace getReplied 1 ⟨⟨ascii "SET", 31⟩, 33, .value (ascii "OK")⟩ ∧
      OfPlace getReplied 2 ⟨⟨ascii "GET", 34⟩, 40, .null⟩ := by
  obtain ⟨-, -, ofPlace⟩ := replies_pair getReplied_run
  exact ⟨ofPlace 0 _ rfl, ofPlace 1 _ rfl, ofPlace 2 _ rfl⟩

end GalaGopher.RedisClient

import GalaGopher.RedisClient.Pairing
import Mathlib.Data.List.Forall2

namespace GalaGopher.RedisClient

open GalaGopher.Text GalaGopher.Text.Resp GalaGopher.Data

/-! The reports split what has been measured into spans, and no sent command
stays without a reply for the client's sake. -/

variable {buf : SocketBuffer} {period lastReport since : Int} {maxQueueSize : Nat} {past events : List Event} {event : Event}
  {world after : World} {spans : List (List Sample)} {opened : List Sample}

/-- What the statistics say of the round trips they count. -/
structure Sums (samples : List Sample) (sampNum : Nat) (minRtt maxRtt recentRtt : Int) : Prop where
  sampNum : sampNum = samples.length
  minRtt : minRtt = ((samples.map Sample.rtt).min?).getD 0
  maxRtt : maxRtt = ((samples.map Sample.rtt).max?).getD 0
  recentRtt : recentRtt = ((samples.map Sample.rtt).getLast?).getD 0

abbrev Stats.Sums (stats : Stats) (samples : List Sample) : Prop :=
  RedisClient.Sums samples stats.sampNum stats.minRtt stats.maxRtt stats.recentRtt

abbrev Report.Sums (report : Report) (samples : List Sample) : Prop :=
  RedisClient.Sums samples report.sampNum report.minRtt report.maxRtt report.recentRtt

/-- A span ends with the first reply that comes more than a period after the
span before it ended. -/
inductive Spans (period start : Int) : List (List Sample) → Int → Prop where
  | none : Spans period start [] start
  | more {earlier : List (List Sample)} {since : Int} {front : List Sample} {last : Sample}
      (before : Spans period start earlier since) (early : ∀ sample ∈ front, sample.ts ≤ since + period)
      (late : since + period < last.ts) :
      Spans period start (earlier ++ [front ++ [last]]) last.ts

theorem Spans.nonempty (split : Spans period lastReport spans since) : ∀ span ∈ spans, span ≠ [] := by
  induction split with
  | none => simp
  | more before early late ih =>
      intro span member
      rcases List.mem_append.mp member with earlier | last
      · exact ih span earlier
      · rw [List.mem_singleton.mp last]
        exact List.append_ne_nil_of_right_ne_nil _ (List.cons_ne_nil _ _)

theorem resetStats_sums (ts : Int) : (resetStats ts).Sums [] where
  sampNum := rfl
  minRtt := rfl
  maxRtt := rfl
  recentRtt := rfl

theorem min?_concat (values : List Int) (value : Int) :
    (values ++ [value]).min? = some (values.min?.elim value (min value)) := by
  cases values with
  | nil => rfl
  | cons first rest =>
      simp only [List.cons_append, List.min?_cons', List.foldl_append, List.foldl_cons, List.foldl_nil, Option.elim]
      rw [Int.min_comm]

theorem max?_concat (values : List Int) (value : Int) :
    (values ++ [value]).max? = some (values.max?.elim value (max value)) := by
  cases values with
  | nil => rfl
  | cons first rest =>
      simp only [List.cons_append, List.max?_cons', List.foldl_append, List.foldl_cons, List.foldl_nil, Option.elim]
      rw [Int.max_comm]

theorem Stats.Sums.measure {stats : Stats} (sums : stats.Sums opened) (sample : Sample) :
    (stats.measure sample.rtt).Sums (opened ++ [sample]) := by
  have counted : (stats.measure sample.rtt).sampNum = opened.length + 1 := by
    rw [Stats.measure, ← sums.sampNum]
    split
    · rfl
    · rfl
  cases opened with
  | nil =>
      have first : stats.sampNum = 0 := sums.sampNum
      refine ⟨counted, ?_, ?_, ?_⟩
      · simp [Stats.measure, first]
      · simp [Stats.measure, first]
      · simp [Stats.measure]
  | cons first rest =>
      have more : stats.sampNum ≠ 0 := by
        rw [sums.sampNum]
        exact Nat.succ_ne_zero _
      refine ⟨?_, ?_, ?_, ?_⟩
      · rw [counted, List.length_append]
        rfl
      · rw [List.map_append, List.map_singleton, min?_concat, Stats.measure, if_neg more, sums.minRtt]
        rfl
      · rw [List.map_append, List.map_singleton, max?_concat, Stats.measure, if_neg more, sums.maxRtt]
        rfl
      · rw [List.map_append, List.map_singleton, List.getLast?_concat]
        rfl

/-- What has been measured is the spans reported and the one still open. -/
structure Reported (period start : Int) (world : World) (spans : List (List Sample)) (opened : List Sample) : Prop where
  samples : world.samples = spans.flatten ++ opened
  split : Spans period start spans world.stats.lastReport
  early : ∀ sample ∈ opened, sample.ts ≤ world.stats.lastReport + period
  sums : world.stats.Sums opened
  reports : List.Forall₂ (fun span report => Report.Sums report span) spans world.reports

theorem connected_reported (period lastReport : Int) : Reported period lastReport (World.connected lastReport) [] [] where
  samples := rfl
  split := .none
  early sample member := by cases member
  sums := resetStats_sums lastReport
  reports := .nil

theorem Stats.measure_lastReport (stats : Stats) (rtt : Int) : (stats.measure rtt).lastReport = stats.lastReport := by
  rw [Stats.measure]
  split
  · rfl
  · rfl

theorem Reported.measure (reported : Reported period lastReport world spans opened) (command : Command) (rest : List Command)
    (resp : Response) (ts : Int) :
    ∃ spans opened, Reported period lastReport (world.measure period command rest resp ts) spans opened := by
  have sums := reported.sums.measure ⟨command, ts, resp⟩
  have last := world.stats.measure_lastReport (Sample.mk command ts resp).rtt
  by_cases due : world.stats.lastReport + period < ts
  · have report : (world.stats.measure (roundTrip command.sent ts)).needReport period ts = true :=
      decide_eq_true (last.symm ▸ due)
    refine ⟨spans ++ [opened ++ [⟨command, ts, resp⟩]], [], ?_⟩
    rw [World.measure]
    simp only [report, if_true]
    exact {
      samples := by simp [reported.samples]
      split := .more reported.split reported.early due
      early := fun sample member => by cases member
      sums := resetStats_sums ts
      reports := List.rel_append reported.reports (.cons sums .nil) }
  · have none : (world.stats.measure (roundTrip command.sent ts)).needReport period ts = false :=
      decide_eq_false (last.symm ▸ due)
    refine ⟨spans, opened ++ [⟨command, ts, resp⟩], ?_⟩
    rw [World.measure]
    simp only [none, Bool.false_eq_true, if_false]
    exact {
      samples := by simp [reported.samples]
      split := last.symm ▸ reported.split
      early := by
        intro sample member
        rcases List.mem_append.mp member with earlier | now
        · exact last.symm ▸ reported.early sample earlier
        · rw [List.mem_singleton.mp now]
          exact last.symm ▸ Int.not_lt.mp due
      sums := sums
      reports := reported.reports }

/-- Only a measurement touches what is measured and reported. -/
theorem Step.measured (taken : Step buf period maxQueueSize world event after) :
    (after.samples = world.samples ∧ after.stats = world.stats ∧ after.reports = world.reports) ∨
      ∃ command rest resp ts, after = world.measure period command rest resp ts := by
  cases event with
  | send cmd args =>
      simp only [Step, step] at taken
      split at taken
      · cases taken
      · cases taken
        exact .inl ⟨rfl, rfl, rfl⟩
  | queue now =>
      simp only [Step, step] at taken
      split at taken
      · cases taken
      · split at taken
        · cases taken
        · cases taken
          exact .inl ⟨rfl, rfl, rfl⟩
  | serve request reply =>
      simp only [Step, step] at taken
      split at taken
      · cases taken
      · split at taken
        · cases taken
          exact .inl ⟨rfl, rfl, rfl⟩
        · cases taken
  | read =>
      simp only [Step, step] at taken
      split at taken
      · rw [Option.map_eq_some_iff] at taken
        obtain ⟨read, _, rfl⟩ := taken
        exact .inl ⟨rfl, rfl, rfl⟩
      · cases taken
  | measure ts =>
      simp only [Step, step] at taken
      split at taken
      · cases taken
        exact .inr ⟨_, _, _, ts, rfl⟩
      · cases taken

theorem Step.reported (taken : Step buf period maxQueueSize world event after)
    (reported : Reported period lastReport world spans opened) :
    ∃ spans opened, Reported period lastReport after spans opened := by
  rcases taken.measured with ⟨samples, stats, reports⟩ | ⟨command, rest, resp, ts, rfl⟩
  · exact ⟨spans, opened, {
      samples := samples ▸ reported.samples
      split := stats ▸ reported.split
      early := stats ▸ reported.early
      sums := stats ▸ reported.sums
      reports := reports ▸ reported.reports }⟩
  · exact reported.measure command rest resp ts

/-- Every reply measured is counted by one report, or by none yet. -/
theorem reports_cover (run : Runs (Step buf period maxQueueSize) (World.connected lastReport) events world) :
    ∃ spans opened, Reported period lastReport world spans opened :=
  run.invariant (fun world => ∃ spans opened, Reported period lastReport world spans opened)
    ⟨[], [], connected_reported period lastReport⟩ fun _ _ _ taken ⟨_, _, reported⟩ => taken.reported reported

theorem reports_cover_get : replied.reports.length = 2 ∧ ∃ spans opened, Reported 5 0 replied spans opened :=
  ⟨rfl, reports_cover getReplied_run⟩

-- The reader waits for what is on the way, the sender for a full queue.  A
-- command is on the way before it is queued, so neither waits for the other.

/-- No reply so far ends the receiver. -/
structure Alive (past : List Event) (world : World) : Prop where
  paired : Paired past world
  plain : ∀ reply ∈ serves past, responseOf reply.2 ≠ .raised
  running : world.receiver ≠ .ended

theorem Step.alive (taken : Step buf period maxQueueSize world event after) (alive : Alive past world)
    (plain : ∀ reply ∈ event.serves, responseOf reply.2 ≠ .raised) : Alive (past ++ [event]) after where
  paired := taken.paired alive.paired
  plain reply member := by
    rw [serves, flatMap_concat] at member
    rcases List.mem_append.mp member with earlier | now
    · exact alive.plain reply earlier
    · exact plain reply now
  running := by
    cases event with
    | send cmd args =>
        simp only [Step, step] at taken
        split at taken
        · cases taken
        · cases taken
          exact alive.running
    | queue now =>
        simp only [Step, step] at taken
        split at taken
        · cases taken
        · split at taken
          · cases taken
          · cases taken
            exact alive.running
    | serve request reply =>
        simp only [Step, step] at taken
        split at taken
        · cases taken
        · split at taken
          · cases taken
            exact alive.running
          · cases taken
    | read =>
        simp only [Step, step] at taken
        split at taken
        · rename_i reading
          rw [Option.map_eq_some_iff] at taken
          obtain ⟨read, response, rfl⟩ := taken
          obtain ⟨reply, here, said, _⟩ := alive.paired.next_reply reading response
          have whole : read.1 ≠ .raised := said ▸ alive.plain reply (List.mem_of_getElem? here)
          simp [whole]
        · cases taken
    | measure ts =>
        simp only [Step, step] at taken
        split at taken
        · cases taken
          rw [World.measure]
          split
          · simp
          · simp
        · cases taken

theorem alive_run {more : List Event} (run : Runs (Step buf period maxQueueSize) world more after) (alive : Alive past world)
    (plain : ∀ reply ∈ serves more, responseOf reply.2 ≠ .raised) : Alive (past ++ more) after := by
  induction run with
  | start => rwa [List.append_nil]
  | next earlier taken ih =>
      rw [serves, flatMap_concat] at plain
      rw [← List.append_assoc]
      exact taken.alive (ih fun reply member => plain reply (List.mem_append_left _ member))
        fun reply member => plain reply (List.mem_append_right _ member)

/-- Steps to come without a new command, by which `count` more replies are
measured. -/
def Gains (buf : SocketBuffer) (period : Int) (maxQueueSize : Nat) (past : List Event) (world : World) (count : Nat) : Prop :=
  ∃ more after, sends more = [] ∧ Data.Runs (Step buf period maxQueueSize) world more after ∧ Alive (past ++ more) after ∧
    after.samples.length = world.samples.length + count

theorem Gains.preceded {count : Nat} (taken : Step buf period maxQueueSize world event after)
    (quiet : event.sends = []) (same : after.samples.length = world.samples.length)
    (gains : Gains buf period maxQueueSize (past ++ [event]) after count) : Gains buf period maxQueueSize past world count := by
  obtain ⟨more, last, silent, run, alive, counted⟩ := gains
  refine ⟨event :: more, last, ?_, (Runs.next .start taken).trans run, ?_, same ▸ counted⟩
  · rw [sends, List.flatMap_cons, quiet]
    exact silent
  · rw [List.append_cons]
    exact alive

theorem Alive.measures (alive : Alive past world) {resp : Response} (holding : world.receiver = .holding resp)
    (queued : world.cmdsQueue ≠ []) : Gains buf period maxQueueSize past world 1 := by
  obtain ⟨command, rest, first⟩ := List.exists_cons_of_ne_nil queued
  have taken : Step buf period maxQueueSize world (.measure 0) (world.measure period command rest resp 0) := by
    simp only [Step, step, holding, first]
  refine ⟨[.measure 0], _, rfl, Runs.next .start taken, taken.alive alive (by simp [Event.serves]), ?_⟩
  rw [World.measure]
  split
  · simp
  · simp

/-- A reply that has been read was to a command that is queued, or that the
sender can queue since nothing else is. -/
theorem Alive.takes (alive : Alive past world) {resp : Response} (holding : world.receiver = .holding resp) :
    Gains buf period maxQueueSize past world 1 := by
  by_cases queued : world.cmdsQueue = []
  · obtain ⟨reply, here, _⟩ := alive.paired.holding resp holding
    have served := (List.getElem?_eq_some_iff.mp here).1
    have ahead := alive.paired.ahead
    have all := alive.paired.queued
    rw [queued, List.length_nil, Nat.add_zero] at all
    rcases alive.paired.sending with ⟨_, counts⟩ | ⟨_, request, busy, _, _⟩
    · omega
    · have taken : Step buf period maxQueueSize world (.queue 0)
          { world with cmdsQueue := world.cmdsQueue ++ [{ cmd := request.1, sent := 0 }], sending := none } := by
        simp only [Step, step, busy, queued, List.length_nil]
        rw [if_neg (by omega)]
      have next := taken.alive alive (by simp [Event.serves])
      exact Gains.preceded taken rfl rfl (next.measures holding (by simp))
  · exact alive.measures holding queued

theorem Alive.reads (alive : Alive past world) (reading : world.receiver = .reading)
    (waiting : world.samples.length < (serves past).length) : Gains buf period maxQueueSize past world 1 := by
  have taken : world.taken = world.samples.length := by rw [World.taken, reading, Nat.add_zero]
  have stream := alive.paired.toClient alive.running
  rw [taken, List.drop_eq_getElem_cons waiting, List.flatMap_cons] at stream
  have member := List.getElem_mem waiting
  obtain ⟨rest, read, _⟩ := readResponse_replyText buf (alive.paired.simple _ member)
    (((serves past).drop (world.samples.length + 1)).flatMap fun reply => replyText reply.2)
  rw [← stream] at read
  have plain := alive.plain _ member
  have done : Step buf period maxQueueSize world .read
      { world with toClient := rest, receiver := .holding (responseOf (serves past)[world.samples.length].2) } := by
    simp only [Step, step, reading, read, Option.map_some, if_neg plain]
  exact Gains.preceded done rfl rfl ((done.alive alive (by simp [Event.serves])).takes rfl)

/-- A command without a measured reply yet can get one. -/
theorem Alive.gains (alive : Alive past world) (outstanding : world.samples.length < (sends past).length) :
    Gains buf period maxQueueSize past world 1 := by
  cases receiver : world.receiver with
  | ended => exact absurd receiver alive.running
  | holding resp => exact alive.takes receiver
  | reading =>
      by_cases waiting : world.samples.length < (serves past).length
      · exact alive.reads receiver waiting
      · have unserved : (serves past).length < (sends past).length := by omega
        have stream := alive.paired.toServer
        rw [List.drop_eq_getElem_cons unserved, List.flatMap_cons] at stream
        have done : Step buf period maxQueueSize world
            (.serve (wireArgs (sends past)[(serves past).length]) .null)
            { world with
              toServer := ((sends past).drop ((serves past).length + 1)).flatMap fun request => requestText (wireArgs request)
              toClient := world.toClient ++ replyText .null } := by
          simp only [Step, step, stream, request_requestText, Reply.Simple, and_self, if_true]
        have next := done.alive alive (by simp [Event.serves, responseOf])
        refine Gains.preceded done rfl rfl (next.reads receiver ?_)
        have longer : (serves (past ++ [.serve (wireArgs (sends past)[(serves past).length]) .null])).length =
            (serves past).length + 1 := by
          rw [serves, flatMap_concat, List.length_append]
          rfl
        change world.samples.length < _
        rw [longer]
        have served := alive.paired.taken
        rw [World.taken, receiver] at served
        exact Nat.lt_succ_of_le served

/-- All commands without a measured reply yet can get theirs. -/
theorem Alive.drains {missing : Nat} (alive : Alive past world)
    (counted : (sends past).length = world.samples.length + missing) :
    Gains buf period maxQueueSize past world missing := by
  induction missing generalizing past world with
  | zero => exact ⟨[], world, rfl, .start, (List.append_nil past).symm ▸ alive, rfl⟩
  | succ missing ih =>
      have gains : Gains buf period maxQueueSize past world 1 := alive.gains (by omega)
      obtain ⟨more, middle, quiet, run, next, one⟩ := gains
      have same : sends (past ++ more) = sends past := by
        rw [sends, List.flatMap_append]
        exact (congrArg (sends past ++ ·) quiet).trans (List.append_nil _)
      obtain ⟨later, last, silent, ending, final, rest⟩ := ih next (by rw [same, one]; omega)
      refine ⟨more ++ later, last, ?_, run.trans ending, ?_, by omega⟩
      · rw [sends, List.flatMap_append]
        exact List.append_eq_nil_iff.mpr ⟨quiet, silent⟩
      · rw [← List.append_assoc]
        exact final

theorem connected_alive (lastReport : Int) : Alive [] (World.connected lastReport) where
  paired := connected_paired lastReport
  plain reply member := by cases member
  running := Receiver.noConfusion

theorem Paired.samples_le (paired : Paired past world) : world.samples.length ≤ (sends past).length := by
  have queued := paired.queued
  rcases paired.sending with ⟨_, counts⟩ | ⟨earlier, _, _, split, counts⟩
  · omega
  · rw [split, List.length_append]
    omega

/-- Wherever the threads are, with the queue full or not, the commands sent so
far can all still get their replies measured before another one is sent. -/
theorem replies_outstanding_drain (run : Runs (Step buf period maxQueueSize) (World.connected lastReport) events world)
    (plain : ∀ reply ∈ serves events, responseOf reply.2 ≠ .raised) :
    ∃ more after, sends more = [] ∧ Runs (Step buf period maxQueueSize) world more after ∧
      after.samples.length = (sends events).length := by
  have alive : Alive events world := alive_run run (connected_alive lastReport) plain
  obtain ⟨missing, counted⟩ := Nat.exists_eq_add_of_le alive.paired.samples_le
  have gains : Gains buf period maxQueueSize events world missing := alive.drains counted
  obtain ⟨more, after, quiet, run, _, gained⟩ := gains
  exact ⟨more, after, quiet, run, gained.trans counted.symm⟩

/-- The queue is full, its command is without its reply, and another that has
been sent waits for room. -/
def fullQueue : List Event :=
  [.send (ascii "GET") [.int 5], .queue 10, .send (ascii "SET") [.int 6, .str (ascii "x")],
    .serve [ascii "GET", ascii "5"] (.bulk (ascii "12"))]

theorem replies_outstanding_drain_get :
    ∃ world, Runs (Step socketBuffer 5 1) (World.connected 0) fullQueue world ∧
      world.cmdsQueue.length = 1 ∧ world.sending = some (ascii "SET") ∧ world.samples = [] ∧
      step socketBuffer 5 1 world (.queue 11) = none ∧
      ∃ more after, sends more = [] ∧ Runs (Step socketBuffer 5 1) world more after ∧ after.samples.length = 2 := by
  have reaches : (fullQueue.foldlM (step socketBuffer 5 1) (World.connected 0)).map (fun world =>
      (world.cmdsQueue.length, world.sending, world.samples, step socketBuffer 5 1 world (.queue 11))) =
      some (1, some (ascii "SET"), [], none) := by
    decide +kernel
  obtain ⟨world, reached, shape⟩ := Option.map_eq_some_iff.mp reaches
  obtain ⟨queued, sending, samples, full⟩ : world.cmdsQueue.length = 1 ∧ world.sending = some (ascii "SET") ∧
      world.samples = [] ∧ step socketBuffer 5 1 world (.queue 11) = none := by
    simpa only [Prod.mk.injEq] using shape
  have run : Runs (Step socketBuffer 5 1) (World.connected 0) fullQueue world := Runs.foldlM (step socketBuffer 5 1) reached
  exact ⟨world, run, queued, sending, samples, full, replies_outstanding_drain run (by decide)⟩

end GalaGopher.RedisClient

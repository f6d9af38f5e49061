import GalaGopher.Imdb.Insertion
import GalaGopher.Ingress.Pipeline
import Mathlib.Data.List.Perm.Basic

namespace GalaGopher.Ingress

open GalaGopher.Text GalaGopher.Data GalaGopher.Channel GalaGopher.Imdb

/-! Every string of the pipeline is in one place, and what comes to Kafka of a
probe is of its lines, in their order. -/

/-- A text on its way, with the probe and the line it comes from. -/
structure Carried where
  probe : Nat
  line : Bytes
  text : Bytes

def textBlock (string : Nat × Carried) : Nat × Bytes := (string.1, string.2.text)

/-- Where the strings are, each a pointer and what it points to. -/
structure Places where
  queues : List (List (Nat × Bytes))
  ingress : IngressAt (Nat × Carried)
  egress : List (Nat × Carried)
  dataStr : Option (Nat × Carried)
  broker : List (Nat × Bytes)
  produced : List Carried

namespace Places

def blocks (places : Places) : List (Nat × Bytes) :=
  places.queues.flatten ++
    (places.ingress.held ++ places.egress ++ places.dataStr.toList).map textBlock ++ places.broker

/-- All that has left the queues, the oldest first. -/
def ahead (places : Places) : List Carried :=
  places.produced ++ (places.dataStr.toList ++ places.egress ++ places.ingress.carried).map Prod.snd

/-- All that has been converted. -/
def messages (places : Places) : List Carried :=
  places.produced ++ (places.dataStr.toList ++ places.egress ++ places.ingress.ready).map Prod.snd

def lanes (places : Places) : Lanes Nat Bytes where
  pending probe := (places.queues.getD probe []).map Prod.snd
  taken := places.ahead.map fun carried => (carried.probe, carried.line)

def start (probes : Nat) : Places where
  queues := List.replicate probes []
  ingress := .waiting
  egress := []
  dataStr := none
  broker := []
  produced := []

end Places

/-- A ring of the size all rings have, with these strings in it. -/
structure Queues (fifo : Fifo Nat) (strings : List Nat) : Prop where
  size : fifo.size = maxFifoSize
  represents : Represents fifo strings

/-- `good` is what the database is throughout, and `conveys` what a message is to
its line. -/
structure Carries (good : DataBaseMgr → Prop) (conveys : Bytes → Bytes → Prop) (pipeline : Pipeline) (places : Places)
    (given : List (Nat × Bytes)) : Prop where
  good : good pipeline.mgr
  probes : List.Forall₂ (fun fifo queue => Queues fifo (queue.map Prod.fst)) pipeline.probes places.queues
  ingress : pipeline.ingress = places.ingress.map Prod.fst
  egress : Queues pipeline.egress (places.egress.map Prod.fst)
  dataStr : pipeline.dataStr = places.dataStr.map Prod.fst
  broker : pipeline.broker = places.broker.map Prod.fst
  produced : pipeline.produced = places.produced.map Carried.text
  owned : pipeline.heap.Owned places.blocks
  trails : places.lanes.Trails given
  raw : ∀ pointer carried, places.ingress = .got (pointer, carried) → carried.text = carried.line
  conveys : ∀ carried ∈ places.messages, conveys carried.line carried.text
  off : pipeline.kafkaOn = false → places.messages = []

/-- What the database and the lines have to be, and what the messages then are. -/
structure Converts (good : DataBaseMgr → Prop) (admitted : Bytes → Prop) (conveys : Bytes → Bytes → Prop) :
    Prop where
  scraped : ∀ mgr ctx maxLen, good mgr → good (scraped mgr ctx maxLen)
  processed : ∀ mgr kafkaOn line now clock after forwarding, good mgr → admitted line →
    processData mgr kafkaOn line now clock = some (after, forwarding) →
      good after ∧ ∀ jsonStr, forwarding = .json jsonStr → conveys line jsonStr

def PipelineEvent.emissions : PipelineEvent → List (Nat × Bytes)
  | .emit probe line => [(probe, line)]
  | _ => []

def emissions (events : List PipelineEvent) : List (Nat × Bytes) := events.flatMap PipelineEvent.emissions

variable {α : Type} {pipeline after : Pipeline} {places : Places} {given : List (Nat × Bytes)} {fifo : Fifo Nat}
  {strings : List Nat} {event : PipelineEvent} {events : List PipelineEvent} {heap : Heap Bytes} {string : Nat}

theorem flatten_put_perm {queues : List (List α)} {place : Nat} {queue : List α} (found : queues[place]? = some queue)
    (item : α) : (queues.set place (queue ++ [item])).flatten.Perm (item :: queues.flatten) := by
  obtain ⟨bound, rfl⟩ := List.getElem?_eq_some_iff.mp found
  have after := (List.set_perm_cons_eraseIdx bound (queues[place] ++ [item])).flatten
  have before := (List.getElem_cons_eraseIdx_perm bound).flatten
  rw [List.flatten_cons] at after before
  refine after.trans (.trans ?_ (before.cons item))
  rw [List.append_assoc]
  exact List.perm_middle

theorem flatten_get_perm {queues : List (List α)} {place : Nat} {item : α} {rest : List α}
    (found : queues[place]? = some (item :: rest)) : queues.flatten.Perm (item :: (queues.set place rest).flatten) := by
  obtain ⟨bound, here⟩ := List.getElem?_eq_some_iff.mp found
  have after := (List.set_perm_cons_eraseIdx bound rest).flatten
  have before := (List.getElem_cons_eraseIdx_perm bound).flatten
  rw [here, List.flatten_cons] at before
  exact before.symm.trans (after.symm.cons item)

theorem forall₂_set {β : Type} {related : α → β → Prop} {lefts : List α} {rights : List β} {left : α} {right : β}
    (each : List.Forall₂ related lefts rights) (place : Nat) (here : related left right) :
    List.Forall₂ related (lefts.set place left) (rights.set place right) := by
  induction each generalizing place with
  | nil => exact .nil
  | cons first later ih =>
      cases place with
      | zero => exact .cons here later
      | succ place => exact .cons first (ih place)

/-- A string put into a ring is in it, or freed. -/
theorem Queues.putOrFree (queues : Queues fifo strings) {value : Bytes} {held : List (Nat × Bytes)}
    (owned : heap.Owned ((string, value) :: held)) :
    (∃ after, putOrFree heap fifo string = some (heap, after) ∧ Queues after (strings ++ [string])) ∨
      ∃ freed, Ingress.putOrFree heap fifo string = some (freed, fifo) ∧ freed.Owned held := by
  rcases Nat.lt_or_ge strings.length fifo.size.toNat with room | full
  · obtain ⟨after, put, size, represents⟩ := fifoPut_stored queues.represents room string
    refine .inl ⟨after, ?_, size.trans queues.size, represents⟩
    rw [Ingress.putOrFree, put]
    rfl
  · have exact := Nat.le_antisymm queues.represents.fits full
    obtain ⟨freed, free, left⟩ := owned.free
    refine .inr ⟨freed, ?_, left⟩
    rw [Ingress.putOrFree, fifoPut_full queues.represents exact string]
    simp [free]

theorem Places.pending_set {queues : List (List (Nat × Bytes))} {probe : Nat} (bound : probe < queues.length)
    (queue : List (Nat × Bytes)) :
    (fun lane => ((queues.set probe queue).getD lane []).map Prod.snd) =
      Function.update (fun lane => (queues.getD lane []).map Prod.snd) probe (queue.map Prod.snd) := by
  funext lane
  by_cases same : lane = probe
  · subst same
    rw [Function.update_self, List.getD_eq_getElem?_getD, List.getElem?_set_self bound, Option.getD_some]
  · rw [Function.update_of_ne same, List.getD_eq_getElem?_getD, List.getElem?_set_ne (Ne.symm same),
      ← List.getD_eq_getElem?_getD]

theorem IngressAt.of_map_got {β : Type} {f : β → α} {ingress : IngressAt β} {dataStr : α}
    (stands : ingress.map f = .got dataStr) : ∃ string, ingress = .got string ∧ f string = dataStr := by
  cases ingress with
  | got string => cases stands; exact ⟨string, rfl, rfl⟩
  | waiting => cases stands
  | converted _ _ => cases stands
  | done _ => cases stands

theorem IngressAt.of_map_converted {β : Type} {f : β → α} {ingress : IngressAt β} {dataStr jsonStr : α}
    (stands : ingress.map f = .converted dataStr jsonStr) :
    ∃ string message, ingress = .converted string message ∧ f string = dataStr ∧ f message = jsonStr := by
  cases ingress with
  | converted string message => cases stands; exact ⟨string, message, rfl, rfl, rfl⟩
  | waiting => cases stands
  | got _ => cases stands
  | done _ => cases stands

theorem IngressAt.of_map_done {β : Type} {f : β → α} {ingress : IngressAt β} {dataStr : α}
    (stands : ingress.map f = .done dataStr) : ∃ string, ingress = .done string ∧ f string = dataStr := by
  cases ingress with
  | done string => cases stands; exact ⟨string, rfl, rfl⟩
  | waiting => cases stands
  | got _ => cases stands
  | converted _ _ => cases stands

variable {good : DataBaseMgr → Prop} {admitted : Bytes → Prop} {conveys : Bytes → Bytes → Prop}

/-- The queue of a probe, and what waits in it. -/
theorem Carries.queue {probe : Nat} (carries : Carries good conveys pipeline places given)
    (found : pipeline.probes[probe]? = some fifo) :
    ∃ queue, places.queues[probe]? = some queue ∧ probe < places.queues.length ∧ Queues fifo (queue.map Prod.fst) ∧
      places.lanes.pending probe = queue.map Prod.snd := by
  obtain ⟨bound, rfl⟩ := List.getElem?_eq_some_iff.mp found
  have bounded : probe < places.queues.length := carries.probes.length_eq ▸ bound
  have there := List.getElem?_eq_getElem bounded
  refine ⟨places.queues[probe], there, bounded, carries.probes.get bound bounded, ?_⟩
  change (places.queues.getD probe []).map Prod.snd = _
  rw [List.getD_eq_getElem?_getD, there, Option.getD_some]

/-- What moves ahead of the queues, or is lost there. -/
theorem Carries.moved (carries : Carries good conveys pipeline places given) (moved : Places)
    (queues : moved.queues = places.queues) (ahead : moved.ahead.Sublist places.ahead)
    (messages : moved.messages.Sublist places.messages) :
    moved.lanes.Trails given ∧ (∀ carried ∈ moved.messages, conveys carried.line carried.text) ∧
      (pipeline.kafkaOn = false → moved.messages = []) := by
  refine ⟨?_, fun carried member => carries.conveys carried (messages.subset member), fun off => ?_⟩
  · have trails := carries.trails.lose (ahead.map fun carried => (carried.probe, carried.line))
    rw [Places.lanes, queues]
    exact trails
  · exact List.sublist_nil.mp (carries.off off ▸ messages)

theorem Places.ahead_ingress {ingress : IngressAt (Nat × Carried)} (carried : ingress.carried.Sublist places.ingress.carried) :
    Places.ahead { places with ingress } |>.Sublist places.ahead :=
  ((carried.append_left _).map _).append_left _

theorem Places.messages_ingress {ingress : IngressAt (Nat × Carried)} (ready : ingress.ready.Sublist places.ingress.ready) :
    Places.messages { places with ingress } |>.Sublist places.messages :=
  ((ready.append_left _).map _).append_left _

theorem set_found {place : Nat} {items : List α} {item : α} (found : items[place]? = some item) :
    items.set place item = items := by
  obtain ⟨bound, rfl⟩ := List.getElem?_eq_some_iff.mp found
  exact List.set_getElem_self bound

theorem Carries.emit {probe : Nat} {line : Bytes} (carries : Carries good conveys pipeline places given)
    (taken : pipeline.step (.emit probe line) = some after) :
    ∃ places, Carries good conveys after places (given ++ [(probe, line)]) := by
  simp only [Pipeline.step] at taken
  split at taken
  · cases taken
  · rename_i fifo found
    obtain ⟨queue, there, bounded, queues, pending⟩ := carries.queue found
    have owned := carries.owned.malloc line
    rcases queues.putOrFree owned with ⟨ring, put, filled⟩ | ⟨freed, put, left⟩
    · rw [put] at taken
      cases taken
      refine ⟨{ places with queues := places.queues.set probe (queue ++ [(pipeline.heap.next, line)]) }, {
        carries with
        probes := forall₂_set carries.probes probe (by rw [List.map_append]; exact filled)
        owned := owned.perm (((flatten_put_perm there _).append_right _).append_right _).symm
        trails := ?_ }⟩
      have given := carries.trails.give probe line
      rw [Lanes.give, pending] at given
      rw [Places.lanes, Places.pending_set bounded, List.map_append]
      exact given
    · simp only [put, Option.map_some, set_found found, Option.some.injEq] at taken
      subst taken
      exact ⟨places, { carries with owned := left, trails := carries.trails.refuse _ }⟩

theorem Carries.get {probe : Nat} (carries : Carries good conveys pipeline places given)
    (taken : pipeline.step (.get probe) = some after) : ∃ places, Carries good conveys after places given := by
  simp only [Pipeline.step, carries.ingress] at taken
  cases stands : places.ingress with
  | waiting =>
      rw [stands] at taken
      simp only [IngressAt.map] at taken
      split at taken
      · rename_i fifo _ found
        obtain ⟨queue, there, bounded, queues, pending⟩ := carries.queue found
        cases queue with
        | nil =>
            have empty : ¬ ((-1 : UInt32) = 0 ∧ (0 : Nat) ≠ 0) := fun both => both.2 rfl
            simp only [fifoGet_empty queues.represents, set_found found, if_neg empty, Option.some.injEq] at taken
            subst taken
            exact ⟨places, { carries with ingress := by rw [stands]; rfl }⟩
        | cons string rest =>
            obtain ⟨ring, got, size, represents⟩ := fifoGet_obtained queues.represents 0
            have member : string ∈ places.queues.flatten :=
              List.mem_flatten.mpr ⟨_, List.mem_of_getElem? there, List.mem_cons_self⟩
            have real : string.1 ≠ 0 := Nat.ne_of_gt
              (carries.owned.issued string (List.mem_append_left _ (List.mem_append_left _ member))).1
            simp only [got, ne_eq, real, not_false_eq_true, and_self, if_true, Option.some.injEq] at taken
            subst taken
            refine ⟨{ places with
                queues := places.queues.set probe rest
                ingress := .got (string.1, ⟨probe, string.2, string.2⟩) }, {
              carries with
              probes := forall₂_set carries.probes probe ⟨size.trans queues.size, represents⟩
              ingress := rfl
              owned := carries.owned.perm ?_
              trails := ?_
              raw := fun _ _ same => by cases same; rfl
              conveys := by simpa [Places.messages, stands, IngressAt.ready] using carries.conveys
              off := by simpa [Places.messages, stands, IngressAt.ready] using carries.off }⟩
            · have whole := flatten_get_perm there
              simp only [Places.blocks, stands, IngressAt.held, List.nil_append, List.map_append, List.map_cons, List.map_nil,
                List.append_assoc]
              exact (whole.append_right _).trans List.perm_middle.symm
            · have trails := carries.trails.take (pending.trans (List.map_cons ..))
              rw [Places.lanes, Places.pending_set bounded]
              simpa [Places.lanes, Places.ahead, stands, IngressAt.carried, IngressAt.ready] using trails
      · cases taken
  | got _ => rw [stands] at taken; cases taken
  | converted _ _ => rw [stands] at taken; cases taken
  | done _ => rw [stands] at taken; cases taken

/-- Without Kafka nothing is converted. -/
theorem processData_off {mgr stored : DataBaseMgr} {line : Bytes} {now clock : Int} {forwarding : Forwarding}
    (processed : processData mgr false line now clock = some (stored, forwarding)) : forwarding = .skipped := by
  simp only [processData, Bool.false_eq_true, if_false] at processed
  repeat' split at processed
  all_goals first | cases processed; rfl | cases processed

/-- What the ingress thread turns a line into comes from that line. -/
theorem Carries.process {now clock : Int} (carries : Carries good conveys pipeline places given)
    (converts : Converts good admitted conveys) (lines : ∀ item ∈ given, admitted item.2)
    (taken : pipeline.step (.process now clock) = some after) : ∃ places, Carries good conveys after places given := by
  simp only [Pipeline.step] at taken
  split at taken
  · rename_i dataStr got
    obtain ⟨⟨pointer, carried⟩, stands, rfl⟩ := IngressAt.of_map_got (carries.ingress.symm.trans got)
    have text := carries.raw pointer carried stands
    have member : (pointer, carried.text) ∈ places.blocks := by
      simp [Places.blocks, stands, IngressAt.held, textBlock]
    have line : admitted carried.line := by
      refine lines (carried.probe, carried.line) (carries.trails.mem_taken ?_)
      refine List.mem_map.mpr ⟨carried, ?_, rfl⟩
      simp [Places.ahead, stands, IngressAt.carried]
    simp only [(carries.owned.content pointer carried.text).mpr member] at taken
    have dropped (heap : Heap Bytes) (mgr : DataBaseMgr) (kept : good mgr) (owned : heap.Owned places.blocks) :
        Carries good conveys { pipeline with heap, mgr, ingress := .done pointer }
          { places with ingress := .done (pointer, carried) } given := by
      obtain ⟨trails, spoken, off⟩ := carries.moved { places with ingress := .done (pointer, carried) } rfl
        (Places.ahead_ingress (List.nil_sublist _)) (Places.messages_ingress (List.nil_sublist _))
      refine { carries with
        good := kept
        ingress := rfl
        owned := ?_
        trails := trails
        raw := nofun
        conveys := spoken
        off := off }
      rw [Places.blocks, stands] at owned
      exact owned
    split at taken
    · cases taken
    · rename_i mgr processed
      cases taken
      exact ⟨_, dropped pipeline.heap mgr (converts.processed _ _ _ _ _ _ _ carries.good line (text ▸ processed)).1
        carries.owned⟩
    · rename_i mgr processed
      obtain ⟨freed, free, owned⟩ := (carries.owned.malloc []).free
      rw [free] at taken
      cases taken
      exact ⟨_, dropped freed mgr (converts.processed _ _ _ _ _ _ _ carries.good line (text ▸ processed)).1 owned⟩
    · rename_i mgr jsonStr processed
      cases taken
      obtain ⟨kept, spoken⟩ := converts.processed _ _ _ _ _ _ _ carries.good line (text ▸ processed)
      let message : Nat × Carried := (pipeline.heap.next, { carried with text := jsonStr })
      refine ⟨{ places with ingress := .converted (pointer, carried) message }, {
        carries with
        good := kept
        ingress := rfl
        owned := (carries.owned.malloc jsonStr).perm ?_
        trails := ?_
        raw := nofun
        conveys := ?_
        off := ?_ }⟩
      · have placed : (places.queues.flatten ++ [(pointer, carried.text)] ++ (pipeline.heap.next, jsonStr) ::
            ((places.egress ++ places.dataStr.toList).map textBlock ++ places.broker)).Perm _ := List.perm_middle
        simpa [Places.blocks, stands, IngressAt.held, textBlock, message] using placed.symm
      · have same : Places.lanes { places with ingress := .converted (pointer, carried) message } = places.lanes := by
          simp [Places.lanes, Places.ahead, stands, IngressAt.carried, IngressAt.ready, message]
        exact same ▸ carries.trails
      · have more : Places.messages { places with ingress := .converted (pointer, carried) message } =
            places.messages ++ [message.2] := by
          simp [Places.messages, stands, IngressAt.ready]
        intro other member
        rw [more] at member
        rcases List.mem_append.mp member with earlier | last
        · exact carries.conveys other earlier
        · exact List.mem_singleton.mp last ▸ spoken jsonStr rfl
      · intro off
        have forwarding := processData_off (off ▸ processed)
        cases forwarding
  · cases taken

/-- The message of a conversion, taken out of the blocks. -/
theorem Places.blocks_converted {string message : Nat × Carried} (stands : places.ingress = .converted string message) :
    places.blocks.Perm (textBlock message :: Places.blocks { places with ingress := .done string }) := by
  have placed : (places.queues.flatten ++ [textBlock string] ++ textBlock message ::
      ((places.egress ++ places.dataStr.toList).map textBlock ++ places.broker)).Perm _ := List.perm_middle
  simpa [Places.blocks, stands, IngressAt.held] using placed

theorem Carries.put (carries : Carries good conveys pipeline places given) (taken : pipeline.step .put = some after) :
    ∃ places, Carries good conveys after places given := by
  simp only [Pipeline.step] at taken
  split at taken
  · rename_i dataStr jsonStr converted
    obtain ⟨string, message, stands, rfl, rfl⟩ := IngressAt.of_map_converted (carries.ingress.symm.trans converted)
    have apart := Places.blocks_converted stands
    rcases carries.egress.putOrFree (carries.owned.perm apart) with ⟨ring, put, filled⟩ | ⟨freed, put, left⟩
    · simp only [put, Option.map_some, Option.some.injEq] at taken
      subst taken
      let moved : Places := { places with ingress := .done string, egress := places.egress ++ [message] }
      obtain ⟨trails, spoken, off⟩ := carries.moved moved rfl
        (by simp [moved, Places.ahead, stands, IngressAt.carried, IngressAt.ready])
        (by simp [moved, Places.messages, stands, IngressAt.ready])
      refine ⟨moved, {
        carries with
        ingress := rfl
        egress := by rw [List.map_append]; exact filled
        owned := carries.owned.perm (apart.trans ?_)
        trails := trails
        raw := nofun
        conveys := spoken
        off := off }⟩
      have placed : (places.queues.flatten ++ [textBlock string] ++ places.egress.map textBlock ++ textBlock message ::
          (places.dataStr.toList.map textBlock ++ places.broker)).Perm _ := List.perm_middle
      simpa [moved, Places.blocks, IngressAt.held] using placed.symm
    · simp only [put, Option.map_some, Option.some.injEq] at taken
      subst taken
      obtain ⟨trails, spoken, off⟩ := carries.moved { places with ingress := .done string } rfl
        (Places.ahead_ingress (List.nil_sublist _)) (Places.messages_ingress (List.nil_sublist _))
      exact ⟨{ places with ingress := .done string }, {
        carries with
        ingress := rfl
        owned := left
        trails := trails
        raw := nofun
        conveys := spoken
        off := off }⟩
  · cases taken

theorem Carries.release (carries : Carries good conveys pipeline places given) (taken : pipeline.step .release = some after) :
    ∃ places, Carries good conveys after places given := by
  simp only [Pipeline.step] at taken
  split at taken
  · rename_i dataStr done
    obtain ⟨string, stands, rfl⟩ := IngressAt.of_map_done (carries.ingress.symm.trans done)
    have apart : places.blocks.Perm (textBlock string :: Places.blocks { places with ingress := .waiting }) := by
      simp [Places.blocks, stands, IngressAt.held]
    obtain ⟨freed, free, left⟩ := (carries.owned.perm apart).free
    simp only [free, Option.map_some, Option.some.injEq] at taken
    subst taken
    obtain ⟨trails, spoken, off⟩ := carries.moved { places with ingress := .waiting } rfl
      (Places.ahead_ingress (List.nil_sublist _)) (Places.messages_ingress (List.nil_sublist _))
    exact ⟨{ places with ingress := .waiting }, {
      carries with
      ingress := rfl
      owned := left
      trails := trails
      raw := nofun
      conveys := spoken
      off := off }⟩
  · cases taken

theorem Carries.fetch (carries : Carries good conveys pipeline places given) (taken : pipeline.step .fetch = some after) :
    ∃ places, Carries good conveys after places given := by
  simp only [Pipeline.step, carries.dataStr] at taken
  cases empty : places.dataStr with
  | some _ => rw [empty] at taken; cases taken
  | none =>
      simp only [empty, Option.map_none] at taken
      have queues := carries.egress
      cases waiting : places.egress with
      | nil =>
          rw [waiting] at queues
          have none : ¬ ((-1 : UInt32) = 0) := by decide
          simp only [fifoGet_empty queues.represents, if_neg none, Option.some.injEq] at taken
          subst taken
          exact ⟨places, { carries with dataStr := by rw [empty]; rfl }⟩
      | cons message rest =>
          rw [waiting] at queues
          obtain ⟨ring, got, size, represents⟩ := fifoGet_obtained queues.represents 0
          simp only [got, if_true, Option.some.injEq] at taken
          subst taken
          let moved : Places := { places with egress := rest, dataStr := some message }
          obtain ⟨trails, spoken, off⟩ := carries.moved moved rfl
            (by simp [moved, Places.ahead, empty, waiting]) (by simp [moved, Places.messages, empty, waiting])
          refine ⟨moved, {
            carries with
            egress := ⟨size.trans queues.size, represents⟩
            dataStr := rfl
            owned := carries.owned.perm ?_
            trails := trails
            conveys := spoken
            off := off }⟩
          have placed : (places.queues.flatten ++ places.ingress.held.map textBlock ++ textBlock message ::
              (rest.map textBlock ++ places.broker)).Perm _ := List.perm_middle
          have later : (places.queues.flatten ++ places.ingress.held.map textBlock ++ rest.map textBlock ++ textBlock message ::
              places.broker).Perm _ := List.perm_middle
          simpa [moved, Places.blocks, empty, waiting] using placed.trans (by simpa using later.symm)

theorem Carries.produce {answers : Nat → ProduceAnswer} (carries : Carries good conveys pipeline places given)
    (taken : pipeline.step (.produce answers) = some after) : ∃ places, Carries good conveys after places given := by
  simp only [Pipeline.step, carries.dataStr] at taken
  cases holds : places.dataStr with
  | none => rw [holds] at taken; cases taken
  | some message =>
      have on : pipeline.kafkaOn = true := by
        cases off : pipeline.kafkaOn with
        | true => rfl
        | false => simpa [Places.messages, holds] using carries.off off
      have apart : places.blocks.Perm (textBlock message :: Places.blocks { places with dataStr := none }) := by
        have placed : (places.queues.flatten ++ (places.ingress.held ++ places.egress).map textBlock ++ textBlock message ::
            places.broker).Perm _ := List.perm_middle
        simpa [Places.blocks, holds] using placed
      have owned := carries.owned.perm apart
      simp only [holds, Option.map_some, on, if_true, show pipeline.heap.content message.1 = some _ from owned.read] at taken
      split at taken
      · cases taken
        let moved : Places := { places with
          dataStr := none
          broker := places.broker ++ [textBlock message]
          produced := places.produced ++ [message.2] }
        obtain ⟨trails, spoken, off⟩ := carries.moved moved rfl
          (by simp [moved, Places.ahead, holds]) (by simp [moved, Places.messages, holds])
        refine ⟨moved, {
          carries with
          dataStr := rfl
          broker := by rw [List.map_append, ← carries.broker]; rfl
          produced := by rw [List.map_append, ← carries.produced]; rfl
          owned := owned.perm ?_
          trails := trails
          conveys := spoken
          off := nofun }⟩
        have last : ((places.queues.flatten ++ (places.ingress.held ++ places.egress).map textBlock ++ places.broker) ++
            [textBlock message]).Perm _ := List.perm_append_singleton _ _
        simpa [moved, Places.blocks] using last.symm
      · obtain ⟨freed, free, left⟩ := owned.free
        simp only [free, Option.map_some, Option.some.injEq] at taken
        subst taken
        obtain ⟨trails, spoken, _⟩ := carries.moved { places with dataStr := none } rfl
          (((((List.nil_sublist _).append_right _).append_right _).map _).append_left _)
          (((((List.nil_sublist _).append_right _).append_right _).map _).append_left _)
        exact ⟨{ places with dataStr := none }, {
          carries with
          dataStr := rfl
          owned := left
          trails := trails
          conveys := spoken
          off := nofun }⟩

theorem Carries.deliver {place : Nat} (carries : Carries good conveys pipeline places given)
    (taken : pipeline.step (.deliver place) = some after) : ∃ places, Carries good conveys after places given := by
  simp only [Pipeline.step, carries.broker, List.getElem?_map] at taken
  cases found : places.broker[place]? with
  | none => rw [found] at taken; cases taken
  | some payload =>
      have apart : places.blocks.Perm (payload :: Places.blocks { places with broker := places.broker.eraseIdx place }) := by
        obtain ⟨bound, rfl⟩ := List.getElem?_eq_some_iff.mp found
        exact ((List.getElem_cons_eraseIdx_perm bound).symm.append_left _).trans List.perm_middle
      obtain ⟨freed, free, left⟩ := (carries.owned.perm apart).free
      simp only [found, Option.map_some, free, Option.some.injEq] at taken
      subst taken
      exact ⟨{ places with broker := places.broker.eraseIdx place }, {
        carries with
        broker := by rw [List.eraseIdx_map]
        owned := left }⟩

theorem Carries.step (carries : Carries good conveys pipeline places given)
    (converts : Converts good admitted conveys) (lines : ∀ item ∈ given ++ event.emissions, admitted item.2)
    (taken : pipeline.step event = some after) : ∃ places, Carries good conveys after places (given ++ event.emissions) := by
  cases event with
  | emit probe line => exact carries.emit taken
  | get probe => exact (List.append_nil given).symm ▸ carries.get taken
  | process now clock =>
      simp only [PipelineEvent.emissions, List.append_nil] at lines ⊢
      exact carries.process converts lines taken
  | put => exact (List.append_nil given).symm ▸ carries.put taken
  | release => exact (List.append_nil given).symm ▸ carries.release taken
  | scrape ctx maxLen =>
      cases taken
      simp only [PipelineEvent.emissions, List.append_nil]
      exact ⟨places, { carries with good := converts.scraped _ _ _ carries.good }⟩
  | fetch => exact (List.append_nil given).symm ▸ carries.fetch taken
  | produce answers => exact (List.append_nil given).symm ▸ carries.produce taken
  | deliver place => exact (List.append_nil given).symm ▸ carries.deliver taken

/-- The thread that takes the step is there. -/
def Pipeline.Enabled (pipeline : Pipeline) : PipelineEvent → Prop
  | .emit probe _ => probe < pipeline.probes.length
  | .get probe => pipeline.ingress = .waiting ∧ probe < pipeline.probes.length
  | .process now clock => ∃ dataStr, pipeline.ingress = .got dataStr ∧
      ∀ line, pipeline.heap.content dataStr = some line → (processData pipeline.mgr pipeline.kafkaOn line now clock).isSome
  | .put => ∃ dataStr jsonStr, pipeline.ingress = .converted dataStr jsonStr
  | .release => ∃ dataStr, pipeline.ingress = .done dataStr
  | .scrape _ _ => True
  | .fetch => pipeline.dataStr = none
  | .produce _ => pipeline.dataStr ≠ none
  | .deliver place => place < pipeline.broker.length

theorem Carries.content (carries : Carries good conveys pipeline places given) (string : Nat × Bytes)
    (member : string ∈ places.blocks) : pipeline.heap.content string.1 = some string.2 :=
  (carries.owned.content string.1 string.2).mpr member

theorem Carries.frees (carries : Carries good conveys pipeline places given) (string : Nat × Bytes)
    (member : string ∈ places.blocks) : (pipeline.heap.free string.1).isSome := by
  rw [Heap.free, carries.content string member]
  rfl

/-- No step reads, frees or queues what it does not hold. -/
theorem Carries.defined (carries : Carries good conveys pipeline places given) (enabled : pipeline.Enabled event) :
    (pipeline.step event).isSome := by
  have ingress := carries.ingress
  cases event with
  | emit probe line =>
      have found := List.getElem?_eq_getElem (l := pipeline.probes) enabled
      obtain ⟨queue, _, _, queues, _⟩ := carries.queue found
      simp only [Pipeline.step, found]
      rcases queues.putOrFree (carries.owned.malloc line) with ⟨_, put, _⟩ | ⟨_, put, _⟩
      · simp [put]
      · simp [put]
  | get probe =>
      obtain ⟨waiting, bound⟩ := enabled
      have found := List.getElem?_eq_getElem bound
      obtain ⟨queue, _, _, queues, _⟩ := carries.queue found
      simp only [Pipeline.step, waiting, found]
      cases queue with
      | nil => simp [fifoGet_empty queues.represents]
      | cons string rest =>
          obtain ⟨ring, got, _⟩ := fifoGet_obtained queues.represents 0
          simp [got]
  | process now clock =>
      obtain ⟨dataStr, got, known⟩ := enabled
      obtain ⟨string, stands, rfl⟩ := IngressAt.of_map_got (ingress.symm.trans got)
      have content := carries.content (textBlock string) (by simp [Places.blocks, stands, IngressAt.held])
      have processed := known _ content
      rw [textBlock] at content processed
      simp only [Pipeline.step, got, content]
      split
      · simp_all
      · rfl
      · obtain ⟨freed, free, _⟩ := (carries.owned.malloc []).free
        rw [free]
        rfl
      · rfl
  | put =>
      obtain ⟨dataStr, jsonStr, converted⟩ := enabled
      obtain ⟨string, message, stands, rfl, rfl⟩ := IngressAt.of_map_converted (ingress.symm.trans converted)
      simp only [Pipeline.step, converted]
      rcases carries.egress.putOrFree (carries.owned.perm (Places.blocks_converted stands)) with ⟨_, put, _⟩ | ⟨_, put, _⟩
      · simp [put]
      · simp [put]
  | release =>
      obtain ⟨dataStr, done⟩ := enabled
      obtain ⟨string, stands, rfl⟩ := IngressAt.of_map_done (ingress.symm.trans done)
      have frees := carries.frees (textBlock string) (by simp [Places.blocks, stands, IngressAt.held])
      rw [textBlock] at frees
      simpa [Pipeline.step, done] using frees
  | scrape ctx maxLen => rfl
  | fetch =>
      have queues := carries.egress
      simp only [Pipeline.step, show pipeline.dataStr = none from enabled]
      cases waiting : places.egress with
      | nil =>
          rw [waiting] at queues
          simp [fifoGet_empty queues.represents]
      | cons message rest =>
          rw [waiting] at queues
          obtain ⟨ring, got, _⟩ := fifoGet_obtained queues.represents 0
          simp [got]
  | produce answers =>
      have egress := carries.dataStr
      cases holds : places.dataStr with
      | none =>
          rw [holds] at egress
          exact absurd egress enabled
      | some message =>
          rw [holds] at egress
          have member : textBlock message ∈ places.blocks := by simp [Places.blocks, holds]
          have content := carries.content (textBlock message) member
          have frees := carries.frees (textBlock message) member
          rw [textBlock] at content frees
          simp only [Pipeline.step, egress, Option.map_some, content]
          split
          · split
            · rfl
            · simpa using frees
          · rfl
  | deliver place =>
      have bound : place < places.broker.length := by
        have same := congrArg List.length carries.broker
        rw [List.length_map] at same
        exact same ▸ enabled
      have frees := carries.frees places.broker[place] (List.mem_append_right _ (List.getElem_mem bound))
      simpa [Pipeline.step, carries.broker, List.getElem?_eq_getElem bound] using frees

end GalaGopher.Ingress

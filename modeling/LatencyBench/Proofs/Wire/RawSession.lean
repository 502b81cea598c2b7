/-
What an armed reader hears over raw TCP.

However the bytes arrive and whenever the receiving task reads them, a session
has heard whole blocks of what has come in; at the end of the stream what is
left over is dropped and the connection is reported closed.  A connection that
is called off is heard until its receive loop notices: a turn of the loop may
come first, and may even find the end of the stream.
-/

import LatencyBench.Proofs.Wire.BlockReader

namespace LatencyBench

open Net

namespace Endpoint

/-! ### What is heard -/

variable {endpoint after : Endpoint} {served : Served} {inflow : Inflow}
  {armed calledOff : Bool} {heard : List Event}

/-- How a receive loop over raw TCP can stand after it has been heard: it goes
on, it has met the end of the stream, or it has been called off before. -/
inductive HearsBlocks (inflow : Inflow) (armed calledOff : Bool)
    (heard : List Event) (endpoint : Endpoint) : Prop where
  | goes (served : Served) (read : List UInt8)
      (serves : endpoint.Serves served)
      (attends : served.Attends inflow armed calledOff read)
      (told : heard = blockEvents read)
  | ended (deaf : endpoint.Deaf) (finished : inflow.finished = true)
      (told : heard = inflow.announced)
  | stopped (deaf : endpoint.Deaf) (called : calledOff = true)
      (read : List UInt8) (part : read <+: inflow.bytes)
      (told : heard = blockEvents read)

theorem Serves.deaf (serves : endpoint.Serves served)
    (ended : served.link.receiving = .ended) : endpoint.Deaf := by
  refine ⟨serves.accepted, ?_⟩
  intro link linked
  rw [serves.linked] at linked
  cases linked
  exact ended

theorem HearsBlocks.told_within
    (hearsBlocks : endpoint.HearsBlocks inflow armed calledOff heard) :
    heard <+: inflow.announced := by
  have part {read : List UInt8} (seen : read <+: inflow.bytes) :
      blockEvents read <+: inflow.announced := by
    obtain ⟨rest, whole⟩ := seen
    rw [Inflow.announced, ← whole]
    exact (blockEvents_within read rest).trans (List.prefix_append ..)
  cases hearsBlocks with
  | goes served read _ attends told =>
      rw [told]
      exact part ⟨_, attends.reads.waiting.symm⟩
  | ended _ _ told => exact told ▸ List.prefix_rfl
  | stopped _ _ read seen told =>
      rw [told]
      exact part seen

theorem hears_nothing {incident : Incident}
    (unread : incident.isReceive = false) : endpoint.hears incident = [] := by
  rw [hears, unread]
  rfl

theorem hears_all {incident : Incident} (reads : incident.isReceive = true) :
    endpoint.hears incident = (endpoint.meet incident).2 := by
  rw [hears, reads]
  rfl

/-- The step lemma. -/
theorem HearsBlocks.meet
    (hearsBlocks : endpoint.HearsBlocks inflow armed calledOff heard)
    (incident : Incident) (fair : incident.Fair) :
    (endpoint.meet incident).1.HearsBlocks (inflow.onward incident)
      (armed || incident.arms endpoint.connection)
      (calledOff || incident.callsOff endpoint.connection)
      (heard ++ (endpoint.hears incident).map Event.undated) := by
  cases hearsBlocks with
  | ended deaf finished told =>
      rw [deaf.hears, List.map_nil, List.append_nil,
        Inflow.onward_finished finished]
      exact .ended (deaf.meet incident) finished told
  | stopped deaf called read part told =>
      rw [deaf.hears, List.map_nil, List.append_nil, called, Bool.true_or]
      exact .stopped (deaf.meet incident) rfl read
        (part.trans (inflow.onward_bytes incident)) told
  | goes served read serves attends told =>
      obtain ⟨next, events⟩ := serves.meet incident
      cases unread : incident.isReceive with
      | false =>
          rw [hears_nothing unread, List.map_nil, List.append_nil]
          rcases attends.meet endpoint.connection incident fair unread with
            attends | ⟨ended, called⟩
          · exact .goes _ read next attends told
          · refine .stopped (next.deaf ended) called read ?_ told
            exact List.IsPrefix.trans ⟨_, attends.reads.waiting.symm⟩
              (inflow.onward_bytes incident)
      | true =>
          match incident, unread with
          | .turn now (.receive most), _ =>
              rw [hears_all rfl, events]
              rw [← Bool.or_false armed, ← Bool.or_false calledOff] at attends
              cases attends.receive most now with
              | reads more attends tells _ =>
                  exact .goes _ _ next attends (told ▸ tells.symm)
              | ends ended finished tells =>
                  exact .ended (next.deaf ended) finished (told ▸ tells.symm)

theorem HearsBlocks.course
    (hearsBlocks : endpoint.HearsBlocks inflow armed calledOff heard)
    (incidents : List Incident)
    (fair : ∀ incident ∈ incidents, incident.Fair) :
    (endpoint.course incidents).1.HearsBlocks (inflow.along incidents)
      (armed || incidents.any (Incident.arms endpoint.connection))
      (calledOff || incidents.any (Incident.callsOff endpoint.connection))
      (heard ++ (endpoint.heard incidents).map Event.undated) := by
  induction incidents generalizing endpoint inflow armed calledOff heard with
  | nil =>
      simp only [Endpoint.heard, List.any_nil, Bool.or_false, List.map_nil,
        List.append_nil]
      exact hearsBlocks
  | cons incident rest inductionHypothesis =>
      rw [List.forall_mem_cons] at fair
      have later := inductionHypothesis
        (hearsBlocks.meet incident fair.1) fair.2
      rw [meet_connection] at later
      simp only [Endpoint.heard, Endpoint.course, List.any_cons,
        List.map_append, ← Bool.or_assoc, ← List.append_assoc]
      exact later

/-- With room for everything that waits, an armed reader that nobody has
called off has reported everything there is. -/
theorem HearsBlocks.drain
    (hearsBlocks : endpoint.HearsBlocks inflow true false heard)
    (now : Instant) {most : Nat} (room : endpoint.backlog ≤ most) :
    heard ++ (endpoint.hears (.turn now (.receive most))).map
        Event.undated = inflow.announced ∧
      (inflow.finished = true →
        (endpoint.meet (.turn now (.receive most))).1.Deaf) := by
  cases hearsBlocks with
  | ended deaf finished told =>
      rw [deaf.hears, List.map_nil, List.append_nil]
      exact ⟨told, fun _ => deaf.meet _⟩
  | stopped _ called => cases called
  | goes served read serves attends told =>
      obtain ⟨next, events⟩ := serves.meet (.turn now (.receive most))
      rw [hears_all rfl, events, told]
      have waits : served.socket.inbound.length ≤ most := by
        rw [backlog, serves.connected] at room
        exact room
      cases attends.receive most now with
      | ends ended finished tells =>
          exact ⟨tells.symm, fun _ => next.deaf ended⟩
      | reads more attends tells drained =>
          obtain ⟨whole, going⟩ := drained ⟨rfl, rfl, waits⟩
          constructor
          · rw [Inflow.announced_open going, whole]
            exact tells.symm
          · intro finished
            rw [going] at finished
            cases finished

/-! ### From the beginning -/

def listens (endpoint : Endpoint) : Prop :=
  ∃ link, endpoint.link = some link ∧ link.receiving ≠ .ended

theorem Deaf.not_listens (deaf : endpoint.Deaf) : ¬ endpoint.listens := by
  rintro ⟨link, linked, going⟩
  exact going (deaf.silent link linked)

theorem Serves.listens {read : List UInt8} (serves : endpoint.Serves served)
    (attends : served.Attends inflow armed calledOff read) :
    endpoint.listens := by
  refine ⟨_, serves.linked, ?_⟩
  rw [attends.receiving]
  split <;> exact nofun

theorem HearsBlocks.deaf_or_listens
    (hearsBlocks : endpoint.HearsBlocks inflow armed calledOff heard) :
    endpoint.Deaf ∨ endpoint.listens := by
  cases hearsBlocks with
  | ended deaf => exact .inl deaf
  | stopped deaf => exact .inl deaf
  | goes served read serves attends => exact .inr (serves.listens attends)

theorem meet_called {incident : Incident} {connection : Connection}
    (free : incident.callsOff connection = false) :
    (endpoint.meet incident).1.sessionCancelled =
      endpoint.sessionCancelled := by
  cases incident with
  | turn now step =>
      cases step with
      | reset => rfl
      | _ =>
          refine (endpoint.turn_soothes now _ ?_).called
          exact trivial
  | farEnd change => rfl
  | call made => exact (endpoint.perform_soothes made).called
  | cancelAccept => rfl
  | cancelSession => cases free
  | halt => rfl

theorem course_called {incidents : List Incident} {connection : Connection}
    (free : ∀ incident ∈ incidents, incident.callsOff connection = false) :
    (endpoint.course incidents).1.sessionCancelled =
      endpoint.sessionCancelled := by
  induction incidents generalizing endpoint with
  | nil => rfl
  | cons incident rest inductionHypothesis =>
      rw [List.forall_mem_cons] at free
      exact (inductionHypothesis free.2).trans (meet_called free.1)

/-- A connection that is handed over on an untouched socket has a receive loop
that has read nothing yet of what has come in. -/
theorem hearsBlocks_start {socket : Socket} {calledOff : Bool}
    (untouched : socket.Untouched)
    (serves : endpoint.Serves (.begin .rawTcp calledOff socket)) :
    endpoint.HearsBlocks endpoint.inflow false calledOff [] := by
  refine .goes _ [] serves ?_ rfl
  have inflow : endpoint.inflow =
      { bytes := socket.inbound
        finished := socket.ending.isSome } := by
    rw [Endpoint.inflow, serves.connected]
    rfl
  rw [inflow]
  exact
    { reads :=
        { intake := rfl
          waiting := rfl
          ending := by
            change socket.ending.map StreamEnd.fault = _
            cases ending : socket.ending with
            | none => rfl
            | some last => exact congrArg some (untouched.closes last ending) }
      opened := rfl
      receiving := rfl
      free := fun free => ⟨free, rfl⟩ }

/-- A receive loop that ends otherwise than in a turn of its own has reported
whole blocks only, and is not heard again. -/
theorem HearsBlocks.stop {incident : Incident}
    (hearsBlocks : endpoint.HearsBlocks inflow armed calledOff heard)
    (fair : incident.Fair) (unread : incident.isReceive = false)
    (listens : endpoint.listens)
    (stopped : ¬ (endpoint.meet incident).1.listens) :
    (endpoint.meet incident).1.Deaf ∧ heard <+: blockEvents inflow.bytes := by
  cases hearsBlocks with
  | ended deaf => exact absurd listens deaf.not_listens
  | stopped deaf => exact absurd listens deaf.not_listens
  | goes served read serves attends told =>
      have next := (serves.meet incident).1
      rcases attends.meet endpoint.connection incident fair unread with
        attends | ⟨ended, _⟩
      · exact absurd (next.listens attends) stopped
      · refine ⟨next.deaf ended, ?_⟩
        rw [told]
        exact attends.reads.waiting ▸ blockEvents_within read _

/-- The connection is reported closed only in a turn of a receive loop that
goes on, at the end of the stream and behind everything that came before. -/
theorem HearsBlocks.faults {incident : Incident}
    (hearsBlocks : endpoint.HearsBlocks inflow armed calledOff heard)
    (fault : .failed .closed ∈ endpoint.hears incident) :
    incident.isReceive = true ∧ endpoint.listens ∧ inflow.finished = true ∧
      heard ++ (endpoint.hears incident).map Event.undated =
        inflow.announced ∧
      (endpoint.meet incident).1.Deaf := by
  have silent (deaf : endpoint.Deaf) : False := by
    rw [deaf.hears] at fault
    cases fault
  cases hearsBlocks with
  | ended deaf => exact (silent deaf).elim
  | stopped deaf => exact (silent deaf).elim
  | goes served read serves attends told =>
      have listens : endpoint.listens := serves.listens attends
      obtain ⟨next, events⟩ := serves.meet incident
      match incident, fault with
      | .turn now (.receive most), fault =>
          rw [hears_all rfl, events] at fault ⊢
          cases attends.receive most now with
          | ends ended finished tells =>
              exact ⟨rfl, listens, finished, told ▸ tells.symm,
                next.deaf ended⟩
          | reads more _ tells _ =>
              -- What a loop that reads on has reported are blocks.
              have member : .failed .closed ∈ blockEvents (read ++ more) := by
                rw [tells]
                exact List.mem_append_right _ (List.mem_map_of_mem fault)
              obtain ⟨block, _, isBlock⟩ := List.mem_map.mp member
              cases isBlock

theorem heard_onward (endpoint : Endpoint) (first : List Incident)
    (incident : Incident) (rest : List Incident) :
    endpoint.heard (first ++ incident :: rest) =
      endpoint.heard first ++ (endpoint.course first).1.hears incident ++
        ((endpoint.course first).1.meet incident).1.heard rest := by
  rw [heard_append, List.append_assoc]
  rfl

theorem heard_last (endpoint : Endpoint) (earlier : List Incident)
    (incident : Incident) :
    endpoint.heard (earlier ++ [incident]) =
      endpoint.heard earlier ++ (endpoint.course earlier).1.hears incident := by
  rw [heard_onward]
  exact List.append_nil _

theorem HearsBlocks.heard_drained {earlier : List Incident}
    (hears : (endpoint.course earlier).1.HearsBlocks inflow true false
      ((endpoint.heard earlier).map Event.undated))
    (now : Instant) {most : Nat}
    (room : (endpoint.course earlier).1.backlog ≤ most) :
    (endpoint.heard (earlier ++ [.turn now (.receive most)])).map
        Event.undated = inflow.announced ∧
      (inflow.finished = true → ∀ rest,
        endpoint.heard (earlier ++ [.turn now (.receive most)] ++ rest) =
          endpoint.heard (earlier ++ [.turn now (.receive most)])) := by
  obtain ⟨told, deaf⟩ := hears.drain now room
  constructor
  · rw [heard_last, ← told, List.map_append]
  · intro finished rest
    rw [heard_last, List.append_assoc, List.singleton_append, heard_onward,
      (deaf finished).heard, List.append_nil]

theorem HearsBlocks.heard_stopped {earlier : List Incident}
    {incident : Incident}
    (hears : (endpoint.course earlier).1.HearsBlocks inflow armed calledOff
      ((endpoint.heard earlier).map Event.undated))
    (fair : incident.Fair) (unread : incident.isReceive = false)
    (listens : (endpoint.course earlier).1.listens)
    (stopped : ¬ ((endpoint.course earlier).1.meet incident).1.listens)
    (rest : List Incident) :
    endpoint.heard (earlier ++ incident :: rest) = endpoint.heard earlier ∧
      (endpoint.heard earlier).map Event.undated <+:
        blockEvents inflow.bytes := by
  obtain ⟨deaf, told⟩ := hears.stop fair unread listens stopped
  refine ⟨?_, told⟩
  rw [heard_onward, hears_nothing unread, deaf.heard, List.append_nil,
    List.append_nil]

theorem mem_heard {event : Event} {incidents : List Incident}
    (member : event ∈ endpoint.heard incidents) :
    ∃ before incident after, incidents = before ++ incident :: after ∧
      event ∈ (endpoint.course before).1.hears incident := by
  induction incidents generalizing endpoint with
  | nil => cases member
  | cons incident rest inductionHypothesis =>
      rcases List.mem_append.mp member with here | later
      · exact ⟨[], incident, rest, rfl, here⟩
      · obtain ⟨before, other, after, rfl, heard⟩ := inductionHypothesis later
        exact ⟨incident :: before, other, after, rfl, heard⟩

/-- What a session hears over raw TCP on a connection, from the moment it is
handed over.  `inflow` is what has come in by then and since. -/
structure HearsRaw (endpoint : Endpoint) (connection : Connection)
    (opening later : List Incident) (inflow : Inflow) : Prop where
  within : (endpoint.heard later).map Event.undated <+: inflow.announced
  whole : (wholeBlocks inflow.bytes).flatten =
    inflow.bytes.take (inflow.bytes.length / 8 * 8)
  ofEight : ∀ block ∈ wholeBlocks inflow.bytes, block.length = 8
  drained :
    (∀ incident ∈ opening ++ later, incident.callsOff connection = false) →
    .call (connection.does .arm) ∈ later →
    ∀ now most, (endpoint.course later).1.backlog ≤ most →
      (endpoint.heard (later ++ [.turn now (.receive most)])).map
          Event.undated = inflow.announced ∧
        (inflow.finished = true → ∀ rest,
          endpoint.heard (later ++ [.turn now (.receive most)] ++ rest) =
            endpoint.heard (later ++ [.turn now (.receive most)]))
  silent : ∀ earlier rest, later = earlier ++ rest →
    ¬ (endpoint.course earlier).1.listens →
    endpoint.heard later = endpoint.heard earlier
  stopped : ∀ earlier stop rest, later = earlier ++ stop :: rest →
    stop.isReceive = false →
    (endpoint.course earlier).1.listens →
    ¬ (endpoint.course (earlier ++ [stop])).1.listens →
    endpoint.heard later = endpoint.heard earlier ∧
      (endpoint.heard later).map Event.undated <+: blockEvents inflow.bytes
  calledOff : ∀ earlier call rest, later = earlier ++ call :: rest →
    call.callsOff connection = true →
    .failed .closed ∉ endpoint.heard earlier →
    .failed .closed ∈ endpoint.heard later →
    ∃ between now most after,
      rest = between ++ .turn now (.receive most) :: after ∧
        let reached := earlier ++ call :: between
        (endpoint.course reached).1.listens ∧
          (endpoint.inflow.along reached).finished = true ∧
          (endpoint.heard (reached ++ [.turn now (.receive most)])).map
              Event.undated = (endpoint.inflow.along reached).announced ∧
          endpoint.heard later =
            endpoint.heard (reached ++ [.turn now (.receive most)])

/-- A fault that is not heard before a connection is called off is heard in a
turn of the receive loop that comes before the loop has noticed. -/
theorem heard_calledOff {earlier rest : List Incident} {call : Incident}
    (hears : ∀ reached incident after,
      earlier ++ call :: rest = reached ++ incident :: after →
      ∃ armed calledOff,
        (endpoint.course reached).1.HearsBlocks
          (endpoint.inflow.along reached) armed calledOff
          ((endpoint.heard reached).map Event.undated))
    (callsOff : call.isReceive = false)
    (before : .failed .closed ∉ endpoint.heard earlier)
    (fault : .failed .closed ∈ endpoint.heard (earlier ++ call :: rest)) :
    ∃ between now most after,
      rest = between ++ .turn now (.receive most) :: after ∧
        let reached := earlier ++ call :: between
        (endpoint.course reached).1.listens ∧
          (endpoint.inflow.along reached).finished = true ∧
          (endpoint.heard (reached ++ [.turn now (.receive most)])).map
              Event.undated = (endpoint.inflow.along reached).announced ∧
          endpoint.heard (earlier ++ call :: rest) =
            endpoint.heard (reached ++ [.turn now (.receive most)]) := by
  obtain ⟨reached, incident, after, whole, heardThere⟩ := mem_heard fault
  obtain ⟨armed, calledOff, hearsBlocks⟩ := hears reached incident after whole
  obtain ⟨reads, listens, finished, told, deaf⟩ :=
    hearsBlocks.faults heardThere
  have other : incident ≠ call := by
    rintro rfl
    rw [callsOff] at reads
    cases reads
  -- The turn can stand neither before the call nor in its place.
  obtain ⟨between, rfl, rfl⟩ : ∃ between,
      reached = earlier ++ call :: between ∧
        rest = between ++ incident :: after := by
    rcases List.append_eq_append_iff.mp whole with
      ⟨more, rfl, split⟩ | ⟨more, rfl, split⟩
    · cases more with
      | nil =>
          cases split
          exact absurd rfl other
      | cons head between =>
          cases split
          exact ⟨between, rfl, rfl⟩
    · cases more with
      | nil =>
          cases split
          exact absurd rfl other
      | cons head between =>
          cases split
          refine absurd ?_ before
          rw [heard_onward]
          exact List.mem_append_left _ (List.mem_append_right _ heardThere)
  match incident, reads with
  | .turn now (.receive most), _ =>
      refine ⟨between, now, most, after, rfl, listens, finished, ?_, ?_⟩
      · rw [heard_last, List.map_append, told]
      · rw [whole, heard_onward, deaf.heard, List.append_nil, heard_last]

/-- A connection over raw TCP is handed over; then anything may happen.  What
has been heard is always a first part of what there is to report of the bytes
that have come in, however they have: their whole blocks of eight bytes, and
the end of the stream if it has come, with what is left over dropped.  An
armed reader that nobody calls off has reported all of that once it has read
everything, and nothing more after the end.  If its receive loop is ended
otherwise than in a turn of its own, then it is not heard again, and it has
reported whole blocks only.  If the connection is called off, the end of the
stream is still reported only by a loop that has not noticed, in a turn that
has nothing left to read. -/
theorem raw_session_hears_blocks {opening later : List Incident}
    {endpoint : Endpoint} {handedAt : Instant} {step : EndpointStep}
    {connection : Connection} {inflow : Inflow}
    (before : ∀ incident ∈ opening, incident.Fair)
    (handed : ((start .rawTcp).course opening).1.turn handedAt step =
      (endpoint, [.established connection]))
    (fair : ∀ incident ∈ later, incident.Fair)
    (cameIn : inflow = endpoint.inflow.along later) :
    endpoint.HearsRaw connection opening later inflow := by
  obtain ⟨own, socket, untouched, serves⟩ :=
    handed_over_untouched before handed
  have first := hearsBlocks_start untouched serves
  have along (reached : List Incident)
      (fair : ∀ incident ∈ reached, incident.Fair) :=
    first.course reached fair
  simp only [List.nil_append] at along
  have hears := along later fair
  rw [← cameIn] at hears
  exact
    { within := hears.told_within
      whole := flatten_wholeBlocks_eq inflow.bytes
      ofEight := fun block => length_of_mem_wholeBlocks
      drained := by
        intro free armed now most room
        rw [List.forall_mem_append] at free
        have going : ((start .rawTcp).course opening).1.sessionCancelled =
            false := course_called free.1
        have isArmed :
            later.any (Incident.arms endpoint.connection) = true :=
          List.any_eq_true.mpr ⟨_, armed, decide_eq_true (own ▸ rfl)⟩
        have isFree :
            later.any (Incident.callsOff endpoint.connection) = false := by
          rw [List.any_eq_false, ← own]
          exact fun incident member =>
            ne_true_of_eq_false (free.2 incident member)
        rw [isArmed, isFree, going, Bool.or_true, Bool.or_false] at hears
        exact hears.heard_drained now room
      silent := by
        rintro earlier rest rfl deaf
        rw [List.forall_mem_append] at fair
        have silent := (along earlier fair.1).deaf_or_listens.resolve_right deaf
        rw [heard_append, silent.heard, List.append_nil]
      stopped := by
        rintro earlier stop rest rfl unread listens stopped
        rw [List.forall_mem_append, List.forall_mem_cons] at fair
        rw [course_append] at stopped
        obtain ⟨same, told⟩ := (along earlier fair.1).heard_stopped fair.2.1
          unread listens stopped rest
        refine ⟨same, ?_⟩
        rw [same, cameIn, Inflow.along_append]
        obtain ⟨more, whole⟩ :=
          (endpoint.inflow.along earlier).along_bytes (stop :: rest)
        rw [← whole]
        exact told.trans (blockEvents_within _ more)
      calledOff := by
        rintro earlier call rest rfl callsOff
        apply heard_calledOff
        · intro reached incident after whole
          rw [whole, List.forall_mem_append] at fair
          exact ⟨_, _, along reached fair.1⟩
        · exact Incident.not_receive_of_callsOff callsOff }

/-! ### Bytes in three segments

A block is cut in two, and half a block is left over at the end. -/

def segments : List Incident :=
  [.turn 2 (.arrive [1, 2, 3, 4, 5]),
   .call ((start .rawTcp).connection.does .arm),
   .turn 3 (.receive 3),
   .turn 4 (.arrive [6, 7]),
   .turn 5 (.receive 100),
   .turn 6 (.arrive [8, 9, 10, 11, 12]),
   .turn 7 .finish]

theorem segments_heard :
    (acceptance.1.heard (segments ++ [.turn 8 (.receive 100)])).map
        Event.undated =
      [.received [1, 2, 3, 4, 5, 6, 7, 8] 0, .failed .closed] := by
  have handed : acceptance =
      (acceptance.1, [.established (start .rawTcp).connection]) :=
    Prod.ext rfl (by decide)
  have hears :=
    @raw_session_hears_blocks [.turn 0 (.connect true)] segments _ 1 .accept _
      _ (by simp [Incident.Fair]) handed
      (by simp [segments, Incident.Fair]) rfl
  have free : ∀ incident ∈ [.turn 0 (.connect true)] ++ segments,
      incident.callsOff (start .rawTcp).connection = false := by
    simp [segments, Incident.callsOff, Incident.releases, Connection.does]
  obtain ⟨heard, _⟩ :=
    hears.drained free (by simp [segments]) 8 100 (by decide)
  exact heard.trans (by decide)

/-! ### A fault after the calling-off, and reports after the fault

The stream ends behind a calling-off that the loop has not noticed yet; and a
peer that sends no more can still be written to. -/

def calledOffFirst : List Incident :=
  [.turn 4 .finish,
   .turn 5 (.receive 8)]

def writtenAfterwards : List Incident :=
  [.call ((start .rawTcp).connection.does .arm),
   .turn 2 .finish,
   .turn 3 (.receive 8),
   .call ((start .rawTcp).connection.does (.send [0x78])),
   .turn 4 (.send 8)]

theorem raw_session_reports_more :
    ¬ (∀ earlier call rest,
      (∀ incident ∈ earlier ++ call :: rest, incident.Fair) →
      call.callsOff (start .rawTcp).connection = true →
      .failed .closed ∉ acceptance.1.heard earlier →
      .failed .closed ∉ acceptance.1.heard (earlier ++ call :: rest)) ∧
    ¬ (∀ later, (∀ incident ∈ later, incident.Fair) →
      .failed .closed ∈ acceptance.1.heard later →
      (acceptance.1.course later).2.getLast? = some (.failed .closed)) := by
  constructor
  · intro claimed
    have silent := claimed
      [.call ((start .rawTcp).connection.does .arm)] .cancelSession
      calledOffFirst (by simp [calledOffFirst, Incident.Fair]) rfl (by decide)
    exact silent (by decide)
  · intro claimed
    have last := claimed writtenAfterwards
      (by simp [writtenAfterwards, Incident.Fair]) (by decide)
    exact absurd last (by decide)

end Endpoint

end LatencyBench

/-
Messages from before their command.

A tick applies the queued presses before the queued events, and stamps a press
with the moment at which it is applied.  So a message that was received before
the press and still waits completes the measurement that the press begins, and
the time from the command to its answer, which would be negative, counts as
none.

Such a completion is shown on one run, and the ticks that bring one about are
described exactly.
-/

import LatencyBench.Frontend.Scripted
import LatencyBench.Proofs.Run.Stamps

namespace LatencyBench

variable {ω σ φ : Type}

/-- Whether a moment completes a measurement with a message that was received
before the command of that measurement was issued. -/
def Moment.CompletesEarly (moment : Moment ω) : Prop :=
  ∃ payload issuedAt receivedAt,
    moment.step = .event (.received payload receivedAt) ∧
    moment.machine.measurement.issuedAt = some issuedAt ∧
    (moment.machine.after moment.step).stats.samples =
      moment.machine.stats.samples + 1 ∧
    receivedAt < issuedAt

/-- When the first message of a queue arrived, unless a fault stands before
it. -/
def firstArrival? : List Event → Option Instant
  | [] => none
  | .received _ receivedAt :: _ => some receivedAt
  | .failed _ :: _ => none
  | _ :: rest => firstArrival? rest

/-- Whether the next tick of an engine applies a press though a message that
was received before this moment waits to be the next to be applied. -/
structure Engine.Hasty (around : Surroundings ω σ) (view : Frontend φ)
    (frontend : φ) (engine : Engine) (world : ω) : Prop where
  running : engine.running = true
  wanted : engine.stopRequested = false
  shown : view.closeRequested frontend = false
  connected : engine.machine.phase.isConnected = true
  idle : engine.machine.measurement.pending = false
  pressed : engine.intents.toList ≠ []
  waiting : ∃ receivedAt,
    firstArrival? engine.events.toList = some receivedAt ∧
      receivedAt < around.clock world

/-! ### A run that has one -/

/-- Steps of a session over raw TCP: a caller connects and says an
acknowledgment, which is received; a millisecond later the send control is
pressed. -/
def unaskedAcknowledgment : List (RunStep WireStep) :=
  [.beside (.endpoint (.connect true)),
   .beside (.endpoint .accept),
   .tick [],
   .beside (.endpoint (.arrive acknowledgment)),
   .beside (.endpoint (.receive acknowledgment.length)),
   .beside (.pass nanosPerMillisecond),
   .press [.sendCommand],
   .tick []]

theorem unaskedAcknowledgment_completesEarly :
    ∃ moment ∈
      (Run.start (.forTransport .rawTcp) (Wire.start .rawTcp)
        Scripted.start).moments Wire.surroundings Scripted.frontend
        unaskedAcknowledgment,
      moment.CompletesEarly := by
  refine ⟨List.get _ ⟨2, ?_⟩, List.get_mem _ _, acknowledgment,
    nanosPerMillisecond, 0, rfl, rfl, rfl, ?_⟩
  · decide
  · decide

/-! ### Single events -/

theorem Moment.completesEarly_of_silent {moment : Moment ω}
    (silent : moment.step.carried = []) : ¬ moment.CompletesEarly := by
  rintro ⟨payload, issuedAt, receivedAt, step, _⟩
  rw [step] at silent
  cases silent

/-! ### Queues of events -/

/-- Whether a machine waits for an answer, and the first message of a queue
was received before its command was issued. -/
def Machine.ExpectsEarlier (machine : Machine) (events : List Event) :
    Prop :=
  machine.measurement.pending = true ∧
    ∃ issuedAt receivedAt,
      machine.measurement.issuedAt = some issuedAt ∧
      firstArrival? events = some receivedAt ∧
      receivedAt < issuedAt

theorem Machine.expectsEarlier_quiet (machine : Machine) (world : ω)
    {event : Event} {rest : List Event} (consistent : machine.Consistent)
    (quiet : event.arrival? = none)
    (harmless : ∀ fault, event ≠ .failed fault)
    (same : firstArrival? (event :: rest) = firstArrival? rest) :
    (Moment.CompletesEarly
        { machine := machine
          step := .event event
          world := world : Moment ω } ∨
      (machine.after (.event event)).ExpectsEarlier rest) ↔
      machine.ExpectsEarlier (event :: rest) := by
  unfold ExpectsEarlier
  rw [machine.after_quiet_measurement event consistent quiet harmless, same]
  constructor
  · rintro (⟨payload, issuedAt, receivedAt, step, _⟩ | waits)
    · cases step
      cases quiet
    · exact waits
  · exact Or.inr

/-- Among the moments of a queue one completes a measurement early exactly if
the machine waits for an answer, and the first message came too soon. -/
theorem Machine.events_completeEarly (around : Surroundings ω σ)
    (machine : Machine) (world : ω) (events : List Event)
    (consistent : machine.Consistent) :
    (∃ moment ∈ machine.moments around world (events.map .event),
        moment.CompletesEarly) ↔
      machine.ExpectsEarlier events := by
  induction events generalizing machine world with
  | nil =>
      constructor
      · rintro ⟨moment, member, _⟩
        cases member
      · rintro ⟨_, issuedAt, receivedAt, _, arrival, _⟩
        cases arrival
  | cons event rest inductionHypothesis =>
      have later := inductionHypothesis (machine.after (.event event))
        (around.callAll world (machine.react (.event event)).calls).1
        (after_consistent machine (.event event) consistent)
      rw [List.map_cons, Machine.moments]
      simp only [List.mem_cons, exists_eq_or_imp]
      rw [later]
      -- After a message or a fault nothing is outstanding, so only the first
      -- of them matters.
      cases event with
      | established connection =>
          exact machine.expectsEarlier_quiet world consistent rfl (by simp) rfl
      | sent length =>
          exact machine.expectsEarlier_quiet world consistent rfl (by simp) rfl
      | cancelled =>
          exact machine.expectsEarlier_quiet world consistent rfl (by simp) rfl
      | failed fault =>
          have idle := machine.after_loud_idle (.failed fault) consistent
            (.inr ⟨fault, rfl⟩)
          constructor
          · rintro (⟨payload, issuedAt, receivedAt, step, _⟩ | ⟨pending, _⟩)
            · cases step
            · rw [idle] at pending
              cases pending
          · rintro ⟨_, issuedAt, receivedAt, _, arrival, _⟩
            cases arrival
      | received payload receivedAt =>
          have idle := machine.after_loud_idle (.received payload receivedAt)
            consistent (.inl (by simp [Event.arrival?]))
          have completes := machine.after_received_samples payload receivedAt
            consistent
          constructor
          · rintro (⟨_, issuedAt, arrival, step, stamped, more, early⟩ |
              ⟨pending, _⟩)
            · cases step
              exact ⟨completes.mp more, issuedAt, receivedAt, stamped, rfl,
                early⟩
            · rw [idle] at pending
              cases pending
          · rintro ⟨pending, issuedAt, arrival, stamped, first, early⟩
            cases first
            exact .inl ⟨payload, issuedAt, receivedAt, rfl, stamped,
              completes.mpr pending, early⟩

theorem firstArrival?_append_of_some {events : List Event}
    {receivedAt : Instant} (found : firstArrival? events = some receivedAt)
    (more : List Event) :
    firstArrival? (events ++ more) = some receivedAt := by
  induction events with
  | nil => cases found
  | cons event rest inductionHypothesis =>
      cases event with
      | received _ _ => exact found
      | failed _ => cases found
      | established _ => exact inductionHypothesis found
      | sent _ => exact inductionHypothesis found
      | cancelled => exact inductionHypothesis found

/-- The first message of a longer queue is that of the queue before, or one of
the events that were added. -/
theorem firstArrival?_append {events more : List Event}
    {receivedAt : Instant}
    (found : firstArrival? (events ++ more) = some receivedAt) :
    firstArrival? events = some receivedAt ∨
      ∃ payload, Event.received payload receivedAt ∈ more := by
  induction events with
  | nil =>
      right
      rw [List.nil_append] at found
      induction more with
      | nil => cases found
      | cons event rest inductionHypothesis =>
          have deeper (here : firstArrival? rest = some receivedAt) :
              ∃ payload, Event.received payload receivedAt ∈ event :: rest := by
            obtain ⟨payload, member⟩ := inductionHypothesis here
            exact ⟨payload, List.mem_cons_of_mem event member⟩
          cases event with
          | received payload _ =>
              cases found
              exact ⟨payload, List.mem_cons_self⟩
          | failed _ => cases found
          | established _ => exact deeper found
          | sent _ => exact deeper found
          | cancelled => exact deeper found
  | cons event rest inductionHypothesis =>
      cases event with
      | received _ _ => exact .inl found
      | failed _ => cases found
      | established _ => exact inductionHypothesis found
      | sent _ => exact inductionHypothesis found
      | cancelled => exact inductionHypothesis found

theorem mem_of_firstArrival? {events : List Event} {receivedAt : Instant}
    (found : firstArrival? events = some receivedAt) :
    ∃ payload, Event.received payload receivedAt ∈ events := by
  have added := @firstArrival?_append [] events receivedAt found
  rcases added with nothing | present
  · cases nothing
  · exact present

/-! ### Ticks -/

variable {around : Surroundings ω σ}

theorem Driven.moments_silent (driven : Driven ω)
    (steps : List Machine.Step)
    (silent : ∀ step ∈ steps, step.carried = []) {moment : Moment ω}
    (member : moment ∈ driven.moments around steps) :
    ¬ moment.CompletesEarly :=
  Moment.completesEarly_of_silent
    (silent moment.step (Machine.moments_step_mem _ _ steps member))

theorem Driven.shutdown_silent (driven : Driven ω) (reason : Termination)
    {moment : Moment ω}
    (member : moment ∈ driven.moments around [.shutdown reason]) :
    ¬ moment.CompletesEarly :=
  driven.moments_silent [.shutdown reason]
    (fun step inside => by rw [List.mem_singleton.mp inside]; rfl) member

theorem Engine.frame_completesEarly (meanwhile : List σ)
    (driven : Driven ω) :
    (∃ moment ∈ frameMoments around meanwhile driven,
        moment.CompletesEarly) ↔
      ∃ moment ∈ (goOn around (takeIntents around driven)
          meanwhile).moments around
          (eventSteps (goOn around (takeIntents around driven) meanwhile)),
        moment.CompletesEarly := by
  constructor
  · rintro ⟨moment, member, early⟩
    refine ⟨moment, ?_, early⟩
    unfold frameMoments at member
    rcases List.mem_append.mp member with before | closing
    · rcases List.mem_append.mp before with pressed | taken
      · refine absurd early (driven.moments_silent _ ?_ pressed)
        intro step inside
        obtain ⟨intent, _, same⟩ := List.mem_map.mp inside
        rw [← same]
        rfl
      · exact taken
    · unfold closingMoments at closing
      split at closing
      · cases closing
      · exact absurd early (Driven.shutdown_silent _ _ closing)
  · rintro ⟨moment, member, early⟩
    exact ⟨moment,
      List.mem_append_left _ (List.mem_append_right _ member), early⟩

/-- What has joined the queue by the time a frame takes its events is not
older than the frame. -/
theorem Engine.ready_events (punctual : around.Punctual)
    (meanwhile : List σ) (driven : Driven ω) :
    ∃ more, (goOn around (takeIntents around driven)
          meanwhile).engine.events.toList =
        driven.engine.events.toList ++ more ∧
      ∀ payload receivedAt, Event.received payload receivedAt ∈ more →
        around.clock driven.world ≤ receivedAt := by
  generalize made : driven.engine.machine.callsOf
    (intentSteps around driven) = calls
  generalize reached : (takeIntents around driven).world = world
  have clock : around.clock world = around.clock driven.world := by
    rw [← reached]
    unfold takeIntents feed
    rw [punctual.notice_clock,
      Surroundings.callAll_clock punctual.call_clock]
  refine ⟨(around.callAll driven.world calls).2 ++
    (around.stepAll world meanwhile).2, ?_, ?_⟩
  · rw [← List.append_assoc, ← made, ← reached]
    unfold goOn complete
    dsimp only
    rw [Queue.toList_pushAll]
    unfold takeIntents feed complete
    dsimp only
    rw [Queue.toList_pushAll]
    rfl
  · intro payload receivedAt member
    rcases List.mem_append.mp member with called | came
    · exact absurd called (punctual.callAll_quiet _ _ payload receivedAt)
    · rw [← clock]
      exact punctual.stepAll_stamp world meanwhile payload receivedAt came

/-- A command that is issued at a moment waits for an older message exactly if
one was there before all that has been received since. -/
theorem Machine.issued_expectsEarlier (machine : Machine)
    {events more : List Event} {now : Instant}
    (fresh : ∀ payload receivedAt, Event.received payload receivedAt ∈ more →
      now ≤ receivedAt) :
    (machine.issued now).ExpectsEarlier (events ++ more) ↔
      ∃ receivedAt, firstArrival? events = some receivedAt ∧
        receivedAt < now := by
  constructor
  · rintro ⟨_, issuedAt, receivedAt, stamp, first, early⟩
    cases stamp
    refine ⟨receivedAt, ?_, early⟩
    rcases firstArrival?_append first with waiting | ⟨payload, came⟩
    · exact waiting
    · have late := fresh payload receivedAt came
      exact absurd early (Nat.not_lt.mpr late)
  · rintro ⟨receivedAt, first, early⟩
    exact ⟨rfl, now, receivedAt, rfl, firstArrival?_append_of_some first more,
      early⟩

theorem Timely.not_expectsEarlier {machine : Machine} {world : ω}
    {events more : List Event}
    (timely : Timely around machine world events)
    (settled : Settled machine events)
    (fresh : ∀ payload receivedAt, Event.received payload receivedAt ∈ more →
      around.clock world ≤ receivedAt) :
    ¬ machine.ExpectsEarlier (events ++ more) := by
  rintro ⟨pending, issuedAt, receivedAt, stamp, first, early⟩
  rcases firstArrival?_append first with waiting | ⟨payload, came⟩
  · obtain ⟨payload, member⟩ := mem_of_firstArrival? waiting
    have late := settled pending issuedAt stamp payload receivedAt member
    exact absurd early (Nat.not_lt.mpr late)
  · have late := fresh payload receivedAt came
    have past := timely.issued issuedAt stamp
    exact absurd early (Nat.not_lt.mpr (Nat.le_trans past late))

theorem Driven.run_intents_ignored (driven : Driven ω)
    (begins : ¬ (driven.engine.machine.phase.isConnected = true ∧
      driven.engine.machine.measurement.pending = false ∧
      driven.engine.intents.toList ≠ [])) :
    driven.engine.machine.run (Engine.intentSteps around driven) =
      driven.engine.machine := by
  cases intents : driven.engine.intents.toList with
  | nil =>
      unfold Engine.intentSteps
      rw [intents]
      rfl
  | cons intent rest =>
      apply Machine.run_presses_ignored
      cases connected : driven.engine.machine.phase.isConnected with
      | false => exact .inl rfl
      | true =>
          right
          cases waits : driven.engine.machine.measurement.pending with
          | true => rfl
          | false =>
              refine absurd ⟨connected, waits, ?_⟩ begins
              rw [intents]
              exact List.cons_ne_nil intent rest

/-- A frame completes a measurement early exactly if it begins one though an
older message waits to be the next to be applied. -/
theorem Engine.frame_hasty (punctual : around.Punctual) (meanwhile : List σ)
    (driven : Driven ω)
    (timely : Timely around driven.engine.machine driven.world
      driven.engine.events.toList)
    (settled : Settled driven.engine.machine
      driven.engine.events.toList) :
    (∃ moment ∈ frameMoments around meanwhile driven,
        moment.CompletesEarly) ↔
      driven.engine.machine.phase.isConnected = true ∧
        driven.engine.machine.measurement.pending = false ∧
        driven.engine.intents.toList ≠ [] ∧
        ∃ receivedAt,
          firstArrival? driven.engine.events.toList = some receivedAt ∧
          receivedAt < around.clock driven.world := by
  obtain ⟨more, events, fresh⟩ := ready_events punctual meanwhile driven
  have machine : (goOn around (takeIntents around driven)
      meanwhile).engine.machine =
        driven.engine.machine.run (intentSteps around driven) := rfl
  have consistent : (driven.engine.machine.run
      (intentSteps around driven)).Consistent :=
    Machine.run_keeps Machine.Consistent Machine.after_consistent _
      timely.consistent _
  refine Iff.trans (frame_completesEarly meanwhile driven) ?_
  unfold Driven.moments eventSteps
  rw [machine, Machine.events_completeEarly around _ _ _ consistent, events]
  by_cases begins : driven.engine.machine.phase.isConnected = true ∧
      driven.engine.machine.measurement.pending = false ∧
      driven.engine.intents.toList ≠ []
  · obtain ⟨connected, idle, pressed⟩ := begins
    have issued : driven.engine.machine.run (intentSteps around driven) =
        driven.engine.machine.issued (around.clock driven.world) :=
      Machine.run_presses_issued _ _ _ timely.consistent connected idle
        pressed
    rw [issued, Machine.issued_expectsEarlier _ fresh]
    constructor
    · intro waiting
      exact ⟨connected, idle, pressed, waiting⟩
    · rintro ⟨_, _, _, waiting⟩
      exact waiting
  · rw [driven.run_intents_ignored begins]
    constructor
    · intro early
      exact absurd early (timely.not_expectsEarlier settled fresh)
    · rintro ⟨connected, idle, pressed, _⟩
      exact absurd ⟨connected, idle, pressed⟩ begins

/-- Among the moments of a tick one completes a measurement early exactly if
the tick is hasty. -/
theorem Engine.tick_completesEarly (punctual : around.Punctual)
    (view : Frontend φ) (frontend : φ) (meanwhile : List σ) (engine : Engine)
    (world : ω)
    (timely : Timely around engine.machine world engine.events.toList)
    (settled : Settled engine.machine engine.events.toList) :
    (∃ moment ∈ engine.tickMoments around view frontend meanwhile world,
        moment.CompletesEarly) ↔
      engine.Hasty around view frontend world := by
  have never (reason : Termination) :
      ¬ ∃ moment ∈ (Driven.mk engine world []).moments around
          [.shutdown reason], moment.CompletesEarly := by
    rintro ⟨moment, member, early⟩
    exact Driven.shutdown_silent _ reason member early
  unfold tickMoments
  cases running : engine.running with
  | false =>
      refine ⟨fun early => ?_, fun hasty => ?_⟩
      · obtain ⟨moment, member, _⟩ := early
        cases member
      · exact absurd hasty.running (by rw [running]; decide)
  | true =>
      cases stopping : engine.stopRequested with
      | true =>
          refine ⟨fun early => absurd early (never .stopped),
            fun hasty => ?_⟩
          exact absurd hasty.wanted (by rw [stopping]; decide)
      | false =>
          cases closing : view.closeRequested frontend with
          | true =>
              refine ⟨fun early => absurd early (never .windowClosed),
                fun hasty => ?_⟩
              exact absurd hasty.shown (by rw [closing]; decide)
          | false =>
              refine Iff.trans (frame_hasty punctual meanwhile
                { engine := engine
                  world := world } timely settled) ?_
              constructor
              · rintro ⟨connected, idle, pressed, waiting⟩
                exact
                  { running := running
                    wanted := stopping
                    shown := closing
                    connected := connected
                    idle := idle
                    pressed := pressed
                    waiting := waiting }
              · intro hasty
                exact ⟨hasty.connected, hasty.idle, hasty.pressed,
                  hasty.waiting⟩

/-! ### Runs -/

namespace Run

theorem step_completesEarly (punctual : around.Punctual) (view : Frontend φ)
    (run : Run ω φ) (step : RunStep σ) (holds : run.Punctual around) :
    (∃ moment ∈ run.stepMoments around view step, moment.CompletesEarly) ↔
      ∃ meanwhile, step = .tick meanwhile ∧
        run.engine.Hasty around view run.frontend run.world := by
  -- Outside of ticks no event is taken, so no measurement is completed.
  have quiet (never : ∀ moment ∈ run.stepMoments around view step,
        ¬ moment.CompletesEarly)
      (other : ∀ meanwhile, step ≠ .tick meanwhile) :
      (∃ moment ∈ run.stepMoments around view step,
          moment.CompletesEarly) ↔
        ∃ meanwhile, step = .tick meanwhile ∧
          run.engine.Hasty around view run.frontend run.world := by
    constructor
    · rintro ⟨moment, member, early⟩
      exact absurd early (never moment member)
    · rintro ⟨meanwhile, same, _⟩
      exact absurd same (other meanwhile)
  have none : ∀ moment ∈ ([] : List (Moment ω)),
      ¬ moment.CompletesEarly := by
    intro moment member
    cases member
  cases step with
  | tick meanwhile =>
      refine Iff.trans (Engine.tick_completesEarly punctual view run.frontend
        meanwhile run.engine run.world holds.sound.holds holds.settled) ?_
      constructor
      · intro hasty
        exact ⟨meanwhile, rfl, hasty⟩
      · rintro ⟨_, _, hasty⟩
        exact hasty
  | release =>
      refine quiet ?_ nofun
      intro moment member
      unfold stepMoments Engine.releaseMoments at member
      dsimp only at member
      split at member
      · exact Driven.shutdown_silent _ _ member
      · cases member
  | press intents => exact quiet none nofun
  | beside step => exact quiet none nofun
  | requestStop => exact quiet none nofun

theorem moments_completesEarly (punctual : around.Punctual)
    (view : Frontend φ) (run : Run ω φ) (all : List (RunStep σ))
    (holds : run.Punctual around) :
    (∃ moment ∈ run.moments around view all, moment.CompletesEarly) ↔
      ∃ before meanwhile later, all = before ++ .tick meanwhile :: later ∧
        (run.steps around view before).engine.Hasty around view
          (run.steps around view before).frontend
          (run.steps around view before).world := by
  induction all generalizing run with
  | nil =>
      constructor
      · rintro ⟨moment, member, _⟩
        cases member
      · rintro ⟨before, meanwhile, later, split, _⟩
        cases before <;> cases split
  | cons step rest inductionHypothesis =>
      have here := step_completesEarly punctual view run step holds
      have onward := inductionHypothesis (run.step around view step)
        (step_punctual punctual view run step holds)
      constructor
      · rintro ⟨moment, member, early⟩
        rcases List.mem_append.mp member with now | afterwards
        · obtain ⟨meanwhile, same, hasty⟩ := here.mp ⟨moment, now, early⟩
          exact ⟨[], meanwhile, rest, by rw [same]; rfl, hasty⟩
        · obtain ⟨before, meanwhile, later, split, hasty⟩ :=
            onward.mp ⟨moment, afterwards, early⟩
          exact ⟨step :: before, meanwhile, later, by rw [split]; rfl, hasty⟩
      · rintro ⟨before, meanwhile, later, split, hasty⟩
        cases before with
        | nil =>
            cases split
            obtain ⟨moment, member, early⟩ :=
              here.mpr ⟨meanwhile, rfl, hasty⟩
            exact ⟨moment, List.mem_append_left _ member, early⟩
        | cons first before =>
            cases split
            obtain ⟨moment, member, early⟩ :=
              onward.mpr ⟨before, meanwhile, later, rfl, hasty⟩
            exact ⟨moment, List.mem_append_right _ member, early⟩

end Run

/-- In every session a measurement is completed by a message from before its
command exactly if some tick is hasty: it applies a press on an idle
connection while an older message waits to be the next to be applied. -/
theorem session_completesEarly_iff_hasty (config : Config)
    (view : Frontend φ) (frontend : φ) (all : List (RunStep WireStep)) :
    (∃ moment ∈
        (Run.start config (Wire.start config.transport) frontend).moments
          Wire.surroundings view all,
        moment.CompletesEarly) ↔
      ∃ before meanwhile later reached,
        all = before ++ .tick meanwhile :: later ∧
        reached =
          (Run.start config (Wire.start config.transport) frontend).steps
            Wire.surroundings view before ∧
        reached.engine.Hasty Wire.surroundings view reached.frontend
          reached.world := by
  have begins : (Run.start config (Wire.start config.transport)
      frontend).Punctual Wire.surroundings :=
    { sound :=
        { holds :=
            { consistent := Machine.start_consistent config.transport true
              issued := by
                intro issuedAt stamp
                cases stamp
              received := by
                intro payload receivedAt member
                cases member }
          cancelled := rfl
          runtime := rfl }
      settled := by
        intro pending
        cases pending }
  refine Iff.trans (Run.moments_completesEarly Wire.surroundings_punctual
    view _ all begins) ?_
  constructor
  · rintro ⟨before, meanwhile, later, split, hasty⟩
    exact ⟨before, meanwhile, later, _, split, rfl, hasty⟩
  · rintro ⟨before, meanwhile, later, reached, split, rfl, hasty⟩
    exact ⟨before, meanwhile, later, split, hasty⟩

end LatencyBench

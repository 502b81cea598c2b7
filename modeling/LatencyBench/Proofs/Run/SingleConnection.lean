/-
One connection for each session.

Since accepting has one outcome, and that is the first event of all, no event
reaches a machine before the outcome does.  So a connection always finds a
machine that waits for it, and so does a cancellation, unless the session is
over.
-/

import LatencyBench.Proofs.Run.Queued
import LatencyBench.Proofs.Wire.Accepting
import LatencyBench.Wire

namespace LatencyBench

variable {ω φ : Type}

/-! ### What a machine did not expect -/

namespace Machine

variable {machine : Machine} {step : Step}

def Says (machine : Machine) (step : Step) (message : String) : Prop :=
  ∃ record ∈ (machine.react step).log, record.message = message

def refusalMessage : String := "extra connection refused"

/-- The message about a cancellation when nothing waits. -/
def strayMessage : String := "stray cancellation ignored"

/-- Whether a record is neither of the two. -/
def Expected (record : LogRecord) : Prop :=
  record.message ≠ refusalMessage ∧ record.message ≠ strayMessage

@[simp] theorem expected_iff (record : LogRecord) :
    Expected record ↔ record.message ≠ "extra connection refused" ∧
      record.message ≠ "stray cancellation ignored" := Iff.rfl

theorem sendCommand_expected (now : Instant) :
    ∀ record ∈ (machine.sendCommand now).log, Expected record := by
  unfold sendCommand
  split
  · simp
  · split
    · simp
    · split <;> simp

theorem payloadWarning_expected (payload : Payload) :
    ∀ record ∈ payloadWarning payload, Expected record := by
  unfold payloadWarning
  split <;> simp

theorem acknowledge_expected (payload : Payload) (receivedAt : Instant) :
    ∀ record ∈ (machine.acknowledge payload receivedAt).log,
      Expected record := by
  have warning := payloadWarning_expected payload
  unfold acknowledge
  split
  · rw [List.forall_mem_append]
    exact ⟨warning, by simp⟩
  · split
    · exact warning
    · rw [List.forall_mem_append]
      exact ⟨warning, by simp⟩

theorem terminate_expected (reason : Termination) :
    ∀ record ∈ (machine.terminate reason).log, Expected record := by
  simp [terminate]

theorem noteFault_expected (fault : Fault) :
    ∀ record ∈ (machine.noteFault fault).log, Expected record := by
  simp [noteFault, afterLogging, terminate]

/-- The two messages come from nowhere else than the two branches. -/
theorem expected_or_unexpected (machine : Machine) (step : Step) :
    (∀ record ∈ (machine.react step).log, Expected record) ∨
      (∃ connection, step = .event (.established connection)) ∧
        machine.phase ≠ .terminated ∧
        (machine.phase ≠ .awaitingConnection ∨
          machine.connection.isSome = true) ∨
      step = .event .cancelled ∧ machine.phase ≠ .terminated ∧
        machine.phase ≠ .awaitingConnection := by
  cases step with
  | intent intent now =>
      cases intent
      exact .inl (sendCommand_expected now)
  | shutdown reason =>
      left
      simp only [react, shutdown]
      split
      · simp
      · exact terminate_expected reason
  | event event =>
      by_cases ended : machine.phase = .terminated
      · left
        simp [react, applyEvent, ended, ignoreEvent]
      · simp only [react, applyEvent, if_neg ended]
        cases event with
        | established connection =>
            by_cases refused : machine.phase ≠ .awaitingConnection ∨
                machine.connection.isSome = true
            · exact .inr (.inl ⟨⟨connection, rfl⟩, ended, refused⟩)
            · left
              simp [adopt, if_neg refused]
        | received payload receivedAt =>
            exact .inl (acknowledge_expected payload receivedAt)
        | sent length =>
            left
            simp [noteSent]
        | cancelled =>
            by_cases waiting : machine.phase = .awaitingConnection
            · left
              simp [noteCancelled, waiting, afterLogging, terminate]
            · exact .inr (.inr ⟨rfl, ended, waiting⟩)
        | failed fault => exact .inl (noteFault_expected fault)

/-- Whether a machine has met no event yet, or is past all of them. -/
def Untouched (machine : Machine) : Prop :=
  machine.phase = .awaitingConnection ∧ machine.connection = none ∨
    machine.phase = .terminated

theorem Untouched.after (untouched : machine.Untouched)
    (silent : step.carried = []) : (machine.after step).Untouched := by
  obtain ⟨reached, calls, next, taken⟩ := machine.exists_transition step
  rw [next]
  cases taken with
  | adopt => cases silent
  | issue now connection connected _ _ =>
      rcases untouched with ⟨waiting, _⟩ | finished
      · simp [waiting, Phase.isConnected] at connected
      · simp [finished, Phase.isConnected] at connected
  | write => cases silent
  | answer => cases silent
  | cancel => cases silent
  | fail => cases silent
  | shut reason _ => exact .inr rfl
  | ignore _ _ => exact untouched

theorem Untouched.expected (untouched : machine.Untouched) :
    ∀ record ∈ (machine.react step).log, Expected record := by
  rcases machine.expected_or_unexpected step with expected | extra | stray
  · exact expected
  · obtain ⟨_, going, taken⟩ := extra
    rcases untouched with ⟨waiting, free⟩ | finished
    · simp [waiting, free] at taken
    · exact absurd finished going
  · obtain ⟨_, going, left⟩ := stray
    rcases untouched with ⟨waiting, _⟩ | finished
    · exact absurd waiting left
    · exact absurd finished going

end Machine

theorem Leads.untouched {first last : Machine} {moments : List (Moment ω)}
    (leads : Leads first moments last) (untouched : first.Untouched)
    (silent : eventsTaken moments = []) : last.Untouched := by
  induction leads with
  | stay machine => exact untouched
  | take moment rest last _ inductionHypothesis =>
      rw [eventsTaken_cons, List.append_eq_nil_iff] at silent
      exact inductionHypothesis (untouched.after silent.1) silent.2

theorem Leads.earlier {first last : Machine} {earlier : List (Moment ω)}
    {moment : Moment ω} {later : List (Moment ω)}
    (leads : Leads first (earlier ++ moment :: later) last) :
    Leads first earlier moment.machine := by
  induction earlier generalizing first with
  | nil =>
      cases leads with
      | take _ _ _ _ => exact .stay moment.machine
  | cons head rest inductionHypothesis =>
      cases leads with
      | take _ _ _ onward => exact .take head rest _ (inductionHypothesis onward)

/-! ### The surroundings of a session -/

namespace Wire

open Net

/-- Whether a wire has come about, from a new transport, in the course of some
incidents that completed some events. -/
def CameAbout (transport : Transport) (wire : Wire) (events : List Event) :
    Prop :=
  ∃ incidents,
    (Endpoint.start transport).course incidents = (wire.endpoint, events)

theorem CameAbout.more {transport : Transport} {wire next : Wire}
    {events more : List Event} (came : wire.CameAbout transport events)
    (incidents : List Incident)
    (met : wire.endpoint.course incidents = (next.endpoint, more)) :
    next.CameAbout transport (events ++ more) := by
  obtain ⟨earlier, came⟩ := came
  refine ⟨earlier ++ incidents, ?_⟩
  rw [Endpoint.course_append, came, met]

theorem CameAbout.still {transport : Transport} {wire next : Wire}
    {events : List Event} (came : wire.CameAbout transport events)
    (incidents : List Incident)
    (met : wire.endpoint.course incidents = (next.endpoint, [])) :
    next.CameAbout transport events := by
  have last := came.more incidents met
  rw [List.append_nil] at last
  exact last

theorem between_course (wire : Wire)
    (change : Peer → Socket → Peer × Socket) :
    ∃ incidents, wire.endpoint.course incidents =
      ((wire.between change).endpoint, []) := by
  unfold between
  split
  case h_1 peer socket _ there =>
      refine ⟨[.farEnd fun _ => (change peer socket).2], ?_⟩
      simp [Endpoint.course, Endpoint.meet, Endpoint.onSocket, there]
  case h_2 => exact ⟨[], rfl⟩

/-- Every step of a wire is some incidents of its transport. -/
theorem step_course (wire : Wire) (step : WireStep) :
    ∃ incidents, wire.endpoint.course incidents =
      ((wire.step step).1.endpoint, (wire.step step).2) := by
  cases step with
  | pass span => exact ⟨[], rfl⟩
  | endpoint step =>
      refine ⟨[.turn wire.now step], ?_⟩
      simp [Endpoint.course, Endpoint.meet, Wire.step]
  | peerJoins choices =>
      simp only [Wire.step, peerJoins]
      split
      · exact ⟨[.turn 0 (.connect true)], rfl⟩
      · exact ⟨[], rfl⟩
  | peerReads most => exact wire.between_course _
  | peerReaches most => exact wire.between_course _
  | peerMeetsEnd =>
      simp only [Wire.step, peerMeetsEnd]
      split
      · exact wire.between_course _
      · exact ⟨[], rfl⟩
  | peerLeaves => exact wire.between_course _

theorem notice_course (wire : Wire) (engine : Engine) :
    ∃ incidents,
      wire.endpoint.course incidents = ((wire.notice engine).endpoint, []) := by
  refine ⟨(if engine.machine.listening then [] else [.cancelAccept]) ++
    (if engine.cancelled then [.cancelSession] else []) ++
    (if engine.ownsRuntime then [] else [.halt]), ?_⟩
  simp only [notice]
  split <;> split <;> split <;> rfl

theorem surroundings_remember (transport : Transport) :
    surroundings.Remembers (CameAbout transport) where
  call wire made events came := by
    apply came.more [.call made]
    simp [Endpoint.course, Endpoint.meet, surroundings]
  step wire step events came := by
    obtain ⟨incidents, met⟩ := wire.step_course step
    exact came.more incidents met
  notice wire engine events came := by
    obtain ⟨incidents, met⟩ := wire.notice_course engine
    exact came.still incidents met

theorem CameAbout.reported {transport : Transport} {wire : Wire}
    {events : List Event} (came : wire.CameAbout transport events) :
    wire.endpoint.Reported events := by
  obtain ⟨incidents, met⟩ := came
  have reported := Endpoint.course_reported transport incidents
  rw [met] at reported
  exact reported

theorem CameAbout.transport {transport : Transport} {wire : Wire}
    {events : List Event} (came : wire.CameAbout transport events) :
    wire.endpoint.transport = transport := by
  obtain ⟨incidents, met⟩ := came
  have same :=
    Endpoint.course_transport (Endpoint.start transport) incidents
  rw [met] at same
  exact same

end Wire

/-! ### Sessions -/

namespace Run

/-- Whether a session has one connection at most, of the kind that it was
configured with, and meets nothing that it does not expect. -/
structure ConnectsOnce (view : Frontend φ) (run : Run Wire φ)
    (all : List (RunStep WireStep)) : Prop where
  outcomes :
    (run.queued Wire.surroundings view all).countP Event.isOutcome ≤ 1
  connections :
    (run.queued Wire.surroundings view all).countP Event.isEstablished ≤ 1
  configured : ∀ connection,
    .established connection ∈ run.queued Wire.surroundings view all →
      connection.transport = run.engine.config.transport
  ordered :
    Endpoint.ConnectionFirst (run.queued Wire.surroundings view all)
  untouched : ∀ moment ∈ run.moments Wire.surroundings view all,
    ∀ event, moment.step = .event event → event.isOutcome = true →
      moment.machine.Untouched
  noneRefused : ∀ moment ∈ run.moments Wire.surroundings view all,
    ¬ moment.machine.Says moment.step Machine.refusalMessage
  noneStray : ∀ moment ∈ run.moments Wire.surroundings view all,
    ¬ moment.machine.Says moment.step Machine.strayMessage

theorem queued_cameAbout (config : Config) (view : Frontend φ)
    (frontend : φ) (all : List (RunStep WireStep)) :
    ((start config (Wire.start config.transport) frontend).steps
        Wire.surroundings view all).world.CameAbout config.transport
      ((start config (Wire.start config.transport) frontend).queued
        Wire.surroundings view all) := by
  have begins : (Wire.start config.transport).CameAbout config.transport [] :=
    ⟨[], rfl⟩
  exact steps_remember (Wire.surroundings_remember config.transport) view
    (start config (Wire.start config.transport) frontend) all [] begins

section Session

variable (config : Config) (view : Frontend φ) (frontend : φ)
  (all : List (RunStep WireStep)) {moment : Moment Wire}
  (member : moment ∈
    (start config (Wire.start config.transport) frontend).moments
      Wire.surroundings view all)

include member

theorem outcome_meets_untouched {event : Event}
    (taken : moment.step = .event event)
    (outcome : event.isOutcome = true) : moment.machine.Untouched := by
  have reported := (queued_cameAbout config view frontend all).reported
  have leads := steps_lead Wire.surroundings view
    (start config (Wire.start config.transport) frontend) all
  obtain ⟨earlier, later, parts⟩ := List.append_of_mem member
  rw [queued, parts, eventsTaken_append, eventsTaken_cons, taken,
    Machine.Step.carried, List.append_assoc] at reported
  rw [parts] at leads
  -- The outcome is the first event of all, so no event was taken before it.
  have silent := reported.first rfl outcome
  exact leads.earlier.untouched (.inl ⟨rfl, rfl⟩) silent

theorem moment_expected :
    ∀ record ∈ (moment.machine.react moment.step).log,
      Machine.Expected record := by
  rcases moment.machine.expected_or_unexpected moment.step with
    expected | ⟨⟨connection, taken⟩, _⟩ | ⟨taken, _⟩
  · exact expected
  · exact (outcome_meets_untouched config view frontend all member taken
      rfl).expected
  · exact (outcome_meets_untouched config view frontend all member taken
      rfl).expected

end Session

/-- Accepting has one outcome, whatever happens to a transport; so a session
has one connection at most, and its machine meets nothing unexpected. -/
theorem session_connects_once (transport : Transport)
    (incidents : List Incident) (config : Config) (view : Frontend φ)
    (frontend : φ) (all : List (RunStep WireStep)) :
    Endpoint.ReportsOnce transport incidents ∧
      ConnectsOnce view
        (start config (Wire.start config.transport) frontend) all := by
  have came := queued_cameAbout config view frontend all
  refine ⟨Endpoint.course_reportsOnce transport incidents, ?_⟩
  exact
    { outcomes := came.reported.outcomes_le
      connections := by
        apply Nat.le_trans _ came.reported.outcomes_le
        apply List.countP_mono_left
        intro event _ established
        simp [Event.isOutcome, established]
      configured := by
        intro connection member
        rw [came.reported.connection member]
        exact came.transport
      ordered := came.reported.connectionFirst
      untouched := by
        intro moment member event taken outcome
        exact outcome_meets_untouched config view frontend all member taken
          outcome
      noneRefused := by
        rintro moment member ⟨record, logged, same⟩
        exact (moment_expected config view frontend all member record
          logged).1 same
      noneStray := by
        rintro moment member ⟨record, logged, same⟩
        exact (moment_expected config view frontend all member record
          logged).2 same }

end Run

end LatencyBench

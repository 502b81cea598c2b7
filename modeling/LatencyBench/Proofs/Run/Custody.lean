/-
Who holds the connection of a session.

A connection is made by the accepting task, waits in the event queue, and is
then held by the machine until the machine parts with it.  At the end of a
session the machine closes what it holds, but nobody takes what still waits in
the queue.  So a stopped engine has released its connection exactly if the
event that hands it over has been taken; as long as the engine is kept, a
connection that waits keeps its socket.
-/

import LatencyBench.Frontend.Scripted
import LatencyBench.Proofs.Run.Shown
import LatencyBench.Proofs.Run.SingleConnection
import LatencyBench.Proofs.Wire.Clock
import LatencyBench.Proofs.Wire.Release

namespace LatencyBench

variable {φ : Type}

/-- In whose hands the connection of a session is: there is none yet, it waits
in the queue, the machine holds it, or it has been closed. -/
inductive Custody (machine : Machine) (endpoint : Endpoint)
    (waiting : List Connection) : Prop where
  | unmet (bare : endpoint.link = none) (nothing : waiting = [])
      (free : machine.connection = none)
  | queued (link : Link) (made : endpoint.link = some link)
      (accepted : endpoint.accepting = .ended) (unused : link.Unused)
      (waits : waiting = [endpoint.connection])
      (free : machine.connection = none)
  | held (link : Link) (made : endpoint.link = some link)
      (accepted : endpoint.accepting = .ended) (opened : link.closed = false)
      (nothing : waiting = [])
      (holds : machine.connection = some endpoint.connection)
  | parted (link : Link) (made : endpoint.link = some link)
      (accepted : endpoint.accepting = .ended) (released : link.Released)
      (nothing : waiting = []) (free : machine.connection = none)

section Custody

variable {machine next : Machine} {endpoint after : Endpoint}
  {waiting : List Connection}

theorem Custody.same (custody : Custody machine endpoint waiting)
    (same : next.connection = machine.connection) :
    Custody next endpoint waiting := by
  cases custody with
  | unmet bare nothing free => exact .unmet bare nothing (same.trans free)
  | queued link made accepted unused waits free =>
      exact .queued link made accepted unused waits (same.trans free)
  | held link made accepted opened nothing holds =>
      exact .held link made accepted opened nothing (same.trans holds)
  | parted link made accepted released nothing free =>
      exact .parted link made accepted released nothing (same.trans free)

/-- Without a call a connection changes hands only from the accepting task to
the queue. -/
theorem Custody.passes (custody : Custody machine endpoint waiting)
    {events : List Event} (passes : endpoint.Passes after events) :
    Custody machine after (waiting ++ connectionsIn events) := by
  cases passes with
  | goes same accepting none bare linked =>
      rw [none, List.append_nil]
      cases custody with
      | unmet alone nothing free => exact .unmet (bare alone) nothing free
      | queued link made accepted unused waits free =>
          obtain ⟨later, linked, goes⟩ := linked link made
          exact .queued later linked (accepting accepted) (goes.unused unused)
            (by rw [same]; exact waits) free
      | held link made accepted opened nothing holds =>
          obtain ⟨later, linked, goes⟩ := linked link made
          exact .held later linked (accepting accepted)
            (goes.closed.trans opened) nothing (by rw [same]; exact holds)
      | parted link made accepted released nothing free =>
          obtain ⟨later, linked, goes⟩ := linked link made
          exact .parted later linked (accepting accepted)
            (goes.released released) nothing free
  | hands same going ended one link made unused =>
      cases custody with
      | unmet bare nothing free =>
          refine .queued link made ended unused ?_ free
          rw [nothing, one, same]
          rfl
      | queued _ _ accepted _ _ _ => exact absurd accepted going
      | held _ _ accepted _ _ _ => exact absurd accepted going
      | parted _ _ accepted _ _ _ => exact absurd accepted going

end Custody

/-! ### Calls on the connection -/

namespace Wire

variable {wire : Wire} {link : Link}

def withLink (wire : Wire) (link : Link) : Wire :=
  { wire with endpoint := { wire.endpoint with link := some link } }

theorem callAll_own (made : wire.endpoint.link = some link) (call : Call) :
    surroundings.callAll wire [wire.endpoint.connection.does call] =
      (wire.withLink (link.perform call).1, (link.perform call).2) := by
  simp [Surroundings.callAll, surroundings, Endpoint.perform, made,
    Connection.does, withLink]

theorem callAll_parting (made : wire.endpoint.link = some link)
    (opened : link.closed = false) :
    surroundings.callAll wire
        ([.close, .drop].map wire.endpoint.connection.does) =
      (wire.withLink link.close, []) := by
  have again := link.close.close_of_closed (link.close_released opened).1
  simp [Surroundings.callAll, surroundings, Endpoint.perform, made,
    Connection.does, withLink, Link.perform, Endpoint.connection, again]

end Wire

section Calls

variable {machine next : Machine} {wire : Wire} {events : List Event}
  {step : Machine.Step} {calls : List ConnectionCall}

/-- What holds after calls, given who holds the connection then. -/
abbrev Custody.After (machine : Machine) (wire : Wire)
    (waiting : List Connection) (calls : List ConnectionCall) : Prop :=
  Custody machine (Wire.surroundings.callAll wire calls).1.endpoint
    (waiting ++ connectionsIn (Wire.surroundings.callAll wire calls).2)

variable {waiting : List Connection}

theorem Custody.uncalled (custody : Custody machine wire.endpoint waiting) :
    Custody.After machine wire waiting [] := by
  change Custody machine wire.endpoint (waiting ++ [])
  rw [List.append_nil]
  exact custody

theorem Custody.works {link : Link} (call : Call)
    (made : wire.endpoint.link = some link)
    (accepted : wire.endpoint.accepting = .ended)
    (opened : (link.perform call).1.closed = false)
    (holds : machine.connection = some wire.endpoint.connection) :
    Custody.After machine wire []
      [wire.endpoint.connection.does call] := by
  rw [Custody.After, Wire.callAll_own made]
  have reported := link.perform_ofConnection 0 call
  exact .held (link.perform call).1 rfl accepted opened
    (connectionsIn_ofConnection reported) holds

/-- A machine that ends parts with what it holds, and only with that. -/
theorem Custody.ended (custody : Custody machine wire.endpoint waiting)
    (reason : Termination) :
    Custody.After (machine.ended reason) wire waiting
      (machine.callsOnHeld [.close, .drop]) := by
  have idle (free : machine.connection = none) :
      machine.callsOnHeld [.close, .drop] = [] := by
    rw [Machine.callsOnHeld, free]
  cases custody with
  | unmet bare nothing free =>
      rw [idle free]
      exact uncalled (.unmet bare nothing rfl)
  | queued link made accepted unused waits free =>
      rw [idle free]
      exact uncalled (.queued link made accepted unused waits rfl)
  | parted link made accepted released nothing free =>
      rw [idle free]
      exact uncalled (.parted link made accepted released nothing rfl)
  | held link made accepted opened nothing holds =>
      have calls : machine.callsOnHeld [.close, .drop] =
          [.close, .drop].map wire.endpoint.connection.does := by
        rw [Machine.callsOnHeld, holds]
      rw [calls, Custody.After, Wire.callAll_parting made opened, nothing]
      exact .parted link.close rfl accepted (link.close_released opened).2
        rfl rfl

theorem Custody.refused
    (custody : Custody machine wire.endpoint
      (wire.endpoint.connection :: waiting)) :
    Custody.After machine wire waiting
      (machine.refusal (.event (.established wire.endpoint.connection))) := by
  cases custody with
  | unmet _ nothing _ => cases nothing
  | held _ _ _ _ nothing _ => cases nothing
  | parted _ _ _ _ nothing _ => cases nothing
  | queued link made accepted unused waits free =>
      have nothing : waiting = [] := List.tail_eq_of_cons_eq waits
      have released := (link.close_released unused.closed).2
      simp only [Machine.refusal, nothing]
      split
      · rw [Custody.After, Wire.callAll_own made]
        exact .parted link.close rfl accepted released rfl free
      · rw [Custody.After]
        have parting := Wire.callAll_parting made unused.closed
        rw [List.map_cons, List.map_singleton] at parting
        rw [parting]
        exact .parted link.close rfl accepted released rfl free

theorem Custody.delivered {connection : Connection}
    (custody : Custody machine endpoint (connection :: waiting)) :
    connection = endpoint.connection := by
  cases custody with
  | unmet _ nothing _ => cases nothing
  | held _ _ _ _ nothing _ => cases nothing
  | parted _ _ _ _ nothing _ => cases nothing
  | queued _ _ _ _ waits _ =>
      cases waits
      rfl

/-- The step lemma for the steps of a machine. -/
theorem Custody.taken
    (custody : Custody machine wire.endpoint
      (connectionsIn step.carried ++ waiting))
    (taken : machine.Transition step next calls) :
    Custody.After next wire waiting calls := by
  cases taken with
  | adopt connection awaits free =>
      have own : connection = wire.endpoint.connection := custody.delivered
      subst own
      cases custody with
      | unmet _ nothing _ => cases nothing
      | held _ _ _ _ nothing _ => cases nothing
      | parted _ _ _ _ nothing _ => cases nothing
      | queued link made accepted unused waits _ =>
          have nothing : waiting = [] := List.tail_eq_of_cons_eq waits
          rw [nothing]
          exact works .arm made accepted
            (link.arm_closed.trans unused.closed) rfl
  | issue now connection _ _ holds =>
      cases custody with
      | unmet _ _ free => cases free.symm.trans holds
      | queued _ _ _ _ _ free => cases free.symm.trans holds
      | parted _ _ _ _ _ free => cases free.symm.trans holds
      | held link made accepted opened nothing own =>
          cases own.symm.trans holds
          have none : waiting = [] := nothing
          rw [none]
          exact works (.send command) made accepted
            ((link.post_closed command).trans opened) own
  | write length _ => exact uncalled (custody.same rfl)
  | answer payload issuedAt receivedAt _ _ _ =>
      cases custody with
      | unmet bare nothing free =>
          rw [Machine.callsOnHeld, free]
          exact uncalled (.unmet bare nothing free)
      | queued link made accepted unused waits free =>
          rw [Machine.callsOnHeld, free]
          exact uncalled (.queued link made accepted unused waits free)
      | parted link made accepted released nothing free =>
          rw [Machine.callsOnHeld, free]
          exact uncalled (.parted link made accepted released nothing free)
      | held link made accepted opened nothing holds =>
          have none : waiting = [] := nothing
          rw [Machine.callsOnHeld, holds, none]
          exact works .arm made accepted (link.arm_closed.trans opened) holds
  | cancel _ => exact custody.ended .cancelled
  | fail fault _ => exact custody.ended (.fault fault)
  | shut reason _ => exact custody.ended reason
  | ignore _ _ =>
      cases step with
      | intent intent now => exact uncalled custody
      | shutdown reason => exact uncalled custody
      | event event =>
          cases event with
          | established connection =>
              have own : connection = wire.endpoint.connection :=
                custody.delivered
              subst own
              exact custody.refused
          | received payload receivedAt => exact uncalled custody
          | sent length => exact uncalled custody
          | cancelled => exact uncalled custody
          | failed fault => exact uncalled custody

end Calls

/-! ### Surroundings -/

namespace Wire

theorem between_passes (wire : Wire)
    (change : Peer → Net.Socket → Peer × Net.Socket) :
    wire.endpoint.Passes (wire.between change).endpoint [] := by
  unfold between
  split
  · exact Endpoint.passes_quietly rfl id rfl
  · exact wire.endpoint.passes_nothing

theorem step_passes (wire : Wire) (step : WireStep) :
    wire.endpoint.Passes (wire.step step).1.endpoint (wire.step step).2 := by
  cases step with
  | pass span => exact wire.endpoint.passes_nothing
  | endpoint step => exact wire.endpoint.turn_passes wire.now step
  | peerJoins choices =>
      simp only [step, peerJoins]
      split
      · exact wire.endpoint.connect_passes true
      · exact wire.endpoint.passes_nothing
  | peerReads most => exact wire.between_passes _
  | peerReaches most => exact wire.between_passes _
  | peerMeetsEnd =>
      simp only [step, peerMeetsEnd]
      split
      · exact wire.between_passes _
      · exact wire.endpoint.passes_nothing
  | peerLeaves => exact wire.between_passes _

end Wire

theorem Custody.notice {machine : Machine} {wire : Wire}
    {waiting : List Connection} (engine : Engine)
    (custody : Custody machine wire.endpoint waiting) :
    Custody machine (wire.notice engine).endpoint waiting := by
  have quietly {before after : Endpoint}
      (custody : Custody machine before waiting)
      (passes : before.Passes after []) : Custody machine after waiting := by
    have next := custody.passes passes
    rw [show connectionsIn [] = [] from rfl, List.append_nil] at next
    exact next
  have listener : Custody machine
      (if engine.machine.listening then wire.endpoint
        else wire.endpoint.cancelAccept) waiting := by
    split
    · exact custody
    · exact quietly custody (Endpoint.passes_quietly rfl id rfl)
  simp only [Wire.notice]
  generalize (if engine.machine.listening then wire.endpoint
    else wire.endpoint.cancelAccept) = unheard at listener ⊢
  have token : Custody machine
      (if engine.cancelled then unheard.cancelSession else unheard)
      waiting := by
    split
    · exact quietly listener unheard.cancelSession_passes
    · exact listener
  generalize (if engine.cancelled then unheard.cancelSession
    else unheard) = called at token ⊢
  split
  · exact token
  · exact quietly token called.halt_passes

/-- Everything that can happen to a session keeps account of who holds its
connection. -/
theorem custody_keeps :
    Wire.surroundings.Keeps (fun _ => True) fun machine wire events =>
      Custody machine wire.endpoint (connectionsIn events) where
  instant := Wire.surroundings_punctual.call_clock
  taking machine wire step events _ custody := by
    rw [connectionsIn_append] at custody ⊢
    exact custody.taken (machine.transition step)
  beside machine wire step events _ custody := by
    rw [connectionsIn_append]
    exact custody.passes (wire.step_passes step)
  noticing machine wire events engine _ _ _ custody := custody.notice engine
  lettingGo machine wire events engine _ _ _ _ custody :=
    custody.notice engine

/-! ### Sessions -/

def RunStep.keepsEngine {σ : Type} : RunStep σ → Bool
  | .release => false
  | _ => true

theorem RunStep.allows_all {σ : Type} (step : RunStep σ) :
    step.Allows fun _ => True := by
  cases step with
  | beside step => trivial
  | tick meanwhile => exact fun _ _ => trivial
  | _ => trivial

theorem Engine.InStep.free_of_stopped {engine : Engine}
    (inStep : engine.InStep) (stopped : engine.running = false) :
    engine.machine.connection = none := by
  have terminated : engine.machine.phase = .terminated := by
    refine Decidable.not_not.mp fun going => ?_
    rw [inStep.machine.mpr going] at stopped
    cases stopped
  cases holds : engine.machine.connection with
  | none => rfl
  | some connection =>
      exact absurd terminated (inStep.consistent.going_of_held holds)

namespace Run

theorem steps_inStep {ω σ : Type} (around : Surroundings ω σ)
    (view : Frontend φ) {run : Run ω φ} (inStep : run.engine.InStep)
    (all : List (RunStep σ)) :
    (run.steps around view all).engine.InStep := by
  induction all generalizing run with
  | nil => exact inStep
  | cons step rest inductionHypothesis =>
      exact inductionHypothesis (step_inStep around view inStep step)

theorem steps_told {ω σ : Type} (around : Surroundings ω σ)
    (view : Frontend φ) {run : Run ω φ} (inStep : run.engine.InStep)
    (told : Told run.engine run.outcomes) (all : List (RunStep σ))
    (kept : ∀ step ∈ all, step.keepsEngine = true) :
    Told (run.steps around view all).engine
      (run.steps around view all).outcomes := by
  induction all generalizing run with
  | nil => exact told
  | cons step rest inductionHypothesis =>
      rw [List.forall_mem_cons] at kept
      refine inductionHypothesis (step_inStep around view inStep step) ?_
        kept.2
      cases step with
      | press intents => exact told.same rfl rfl
      | beside step => exact told.same rfl rfl
      | requestStop => exact told.same rfl rfl
      | tick meanwhile =>
          exact told.tick inStep around view run.frontend meanwhile run.world
      | release => cases kept.1

/-- Whether a session has let go of its connection as far as it has been given
one. -/
structure LetsGo (run : Run Wire φ) : Prop where
  held : run.engine.machine.connection = none
  released : ∀ link, run.world.endpoint.link = some link →
    (link.Released ↔
      ∀ connection,
        .established connection ∉ run.engine.events.toList)
  drained : run.engine.machine.EndedByEvent →
    ∀ connection, .established connection ∉ run.engine.events.toList

/-- An event that ended a session came after the connection in the queue, or
instead of it, so no connection waits any more. -/
theorem none_waits (config : Config) (view : Frontend φ) (frontend : φ)
    (all : List (RunStep WireStep))
    (ended : ((start config (Wire.start config.transport) frontend).steps
      Wire.surroundings view all).engine.machine.EndedByEvent)
    (connection : Connection) :
    .established connection ∉
      ((start config (Wire.start config.transport) frontend).steps
        Wire.surroundings view all).engine.events.toList := by
  intro waits
  have inStep : (start config (Wire.start config.transport)
      frontend).engine.InStep := Engine.start_inStep config
  have leads := (start config (Wire.start config.transport)
    frontend).steps_lead Wire.surroundings view all
  have orderly := moments_orderly Wire.surroundings view inStep all
  obtain ⟨moment, member, ends⟩ := (leads.endedByEvent_iff inStep.consistent
    (by exact nofun) orderly).mp ended
  obtain ⟨event, taken⟩ := ends.event
  have reported := (queued_cameAbout config view frontend all).reported
  obtain ⟨earlier, later, parts⟩ := List.append_of_mem waits
  rw [queued, parts, ← List.append_assoc] at reported
  have nothing := (List.append_eq_nil_iff.mp (reported.first rfl rfl)).1
  have carried : event ∈ eventsTaken ((start config
      (Wire.start config.transport) frontend).moments
        Wire.surroundings view all) := by
    refine List.mem_flatMap.mpr ⟨moment, member, ?_⟩
    rw [taken]
    exact List.mem_singleton_self event
  rw [nothing] at carried
  cases carried

/-- A session that was stopped while its engine is kept holds no connection,
and the connection that its transport has made is released exactly if it does
not wait in the event queue.  After an end that came from an event none waits
there. -/
theorem stopped_session_releases_iff (config : Config) (view : Frontend φ)
    (frontend : φ) (all : List (RunStep WireStep))
    (kept : ∀ step ∈ all, step.keepsEngine = true) (reason : Termination)
    (stopped : .stop reason ∈
      ((start config (Wire.start config.transport) frontend).steps
        Wire.surroundings view all).outcomes) :
    ((start config (Wire.start config.transport) frontend).steps
      Wire.surroundings view all).LetsGo := by
  have begins : (start config (Wire.start config.transport)
      frontend).engine.InStep := Engine.start_inStep config
  have told := steps_told Wire.surroundings view begins (.going 0 rfl) all
    kept
  have inStep := steps_inStep Wire.surroundings view begins all
  have custody := (steps_keep custody_keeps view
    (start config (Wire.start config.transport) frontend) all
    (fun step _ => step.allows_all)
    { holds := .unmet rfl rfl rfl
      cancelled := rfl
      runtime := rfl }).1.holds
  have drained := none_waits config view frontend all
  generalize (start config (Wire.start config.transport) frontend).steps
    Wire.surroundings view all = run at *
  have free := inStep.free_of_stopped (told.reported stopped).1
  refine
    { held := free
      released := ?_
      drained := drained }
  intro link linked
  have waits (connection : Connection) :
      .established connection ∈ run.engine.events.toList ↔
        connection ∈ connectionsIn run.engine.events.toList :=
    mem_connectionsIn.symm
  cases custody with
  | unmet bare _ _ => cases bare.symm.trans linked
  | held _ _ _ _ _ holds => cases free.symm.trans holds
  | queued made same _ unused waiting _ =>
      cases same.symm.trans linked
      constructor
      · exact fun released => absurd released unused.not_released
      · intro none
        refine absurd ?_ (none run.world.endpoint.connection)
        rw [waits, waiting]
        exact List.mem_singleton_self _
  | parted made same _ released nothing _ =>
      cases same.symm.trans linked
      refine ⟨fun _ connection => ?_, fun _ => released⟩
      rw [waits, nothing]
      exact List.not_mem_nil

/-- Steps of a session over raw TCP that is stopped while its connection is
held by the machine. -/
def stoppedWhileHeld : List (RunStep WireStep) :=
  [.beside (.endpoint (.connect true)),
   .beside (.endpoint .accept),
   .tick [],
   .requestStop,
   .tick []]

theorem stoppedWhileHeld_releases :
    ((start (.forTransport .rawTcp) (Wire.start .rawTcp)
        Scripted.start).steps Wire.surroundings Scripted.frontend
        stoppedWhileHeld).LetsGo ∧
      ∃ link,
        ((start (.forTransport .rawTcp) (Wire.start .rawTcp)
          Scripted.start).steps Wire.surroundings Scripted.frontend
          stoppedWhileHeld).world.endpoint.link = some link ∧
        link.Released := by
  have letsGo := stopped_session_releases_iff (.forTransport .rawTcp)
    Scripted.frontend Scripted.start stoppedWhileHeld (by decide) .stopped
    (by decide)
  refine ⟨letsGo, _, rfl, (letsGo.released _ rfl).mpr ?_⟩
  intro connection waits
  cases waits

/-- Steps of a session over raw TCP whose peer is accepted after a stop was
asked for and before a tick honours it. -/
def stoppedWhileQueued : List (RunStep WireStep) :=
  [.beside (.endpoint (.connect true)),
   .requestStop,
   .beside (.endpoint .accept),
   .tick []]

theorem stoppedWhileQueued_keepsSocket :
    ∃ link,
      ((start (.forTransport .rawTcp) (Wire.start .rawTcp)
        Scripted.start).steps Wire.surroundings Scripted.frontend
        stoppedWhileQueued).outcomes = [.stop .stopped] ∧
      ((start (.forTransport .rawTcp) (Wire.start .rawTcp)
        Scripted.start).steps Wire.surroundings Scripted.frontend
        stoppedWhileQueued).world.endpoint.link = some link ∧
      link.closed = false ∧ link.receiving = .parked ∧ ¬ link.Released := by
  refine ⟨_, rfl, rfl, rfl, rfl, ?_⟩
  exact Link.Unused.not_released ⟨rfl, rfl⟩

end Run

end LatencyBench

/-
No sample is lost on its way to the log.

A tick sends one command at most and takes one sample at most, however many
presses and events it finds: a press comes before every event of its tick, and
a second sample would need a second press.  So the headless front-end, which
compares two counters once per frame, reports every round trip that the machine
records, once and in order, those of the last frame included.
-/

import LatencyBench.Proofs.Run.Quota
import LatencyBench.Proofs.Run.RoundTrips
import Mathlib.Data.List.Basic

namespace LatencyBench

variable {ω σ φ : Type}

/-! ### What one tick counts -/

structure Machine.CountsOn (before after : Machine) : Prop where
  sends : before.sends ≤ after.sends ∧ after.sends ≤ before.sends + 1
  samples : before.stats.samples ≤ after.stats.samples ∧
    after.stats.samples ≤ before.stats.samples + 1

namespace Engine

variable {around : Surroundings ω σ} {view : Frontend φ} {frontend : φ}
  {meanwhile : List σ} {engine : Engine} {world : ω}

theorem tick_answered (answered : engine.machine.Answered) :
    (engine.tick around view frontend meanwhile
      world).engine.machine.Answered :=
  (tick_leads around view frontend meanwhile engine world).keeps
    Machine.after_answered answered

/-- A frame takes one sample at most: if it sends a command, nothing was
outstanding before, and else at most what was outstanding is answered. -/
theorem InStep.framed_samples (inStep : engine.InStep)
    (answered : engine.machine.Answered) :
    (engine.framedMachine around meanwhile world).stats.samples ≤
      engine.machine.stats.samples + 1 := by
  have framed : (engine.framedMachine around meanwhile world).Answered := by
    apply Machine.run_keeps _ Machine.after_answered
    exact Machine.run_keeps _ Machine.after_answered _ answered _
  have fewer := framed.2
  rw [inStep.framed_sends around meanwhile world] at fewer
  have lost := answered.1.lost
  split at fewer
  · rename_i pressed
    have enabled := pressed.1
    simp only [snapshot, Snapshot.canSend, Snapshot.ofMachine,
      Machine.isConnected, Bool.and_eq_true, Bool.not_eq_true'] at enabled
    have even := answered.1.going (Machine.going_of_connected enabled.1)
    rw [Machine.outstanding_of_idle enabled.2] at even
    omega
  · omega

/-- A tick adds one at most to each of the two counters. -/
theorem InStep.tick_countsOn (inStep : engine.InStep)
    (answered : engine.machine.Answered) (around : Surroundings ω σ)
    (view : Frontend φ) (frontend : φ) (meanwhile : List σ) (world : ω) :
    engine.machine.CountsOn
      (engine.tick around view frontend meanwhile world).engine.machine := by
  have grown :=
    (tick_leads around view frontend meanwhile engine world).counters
  have bounded :
      (engine.tick around view frontend meanwhile
          world).engine.machine.sends ≤ engine.machine.sends + 1 ∧
        (engine.tick around view frontend meanwhile
            world).engine.machine.stats.samples ≤
          engine.machine.stats.samples + 1 := by
    cases inStep.ticked around view frontend meanwhile world with
    | idle _ same =>
        rw [same]
        exact ⟨Nat.le_succ _, Nat.le_succ _⟩
    | stopped _ _ halted =>
        rw [halted.machine]
        exact ⟨Nat.le_succ _, Nat.le_succ _⟩
    | closed _ _ _ halted =>
        rw [halted.machine]
        exact ⟨Nat.le_succ _, Nat.le_succ _⟩
    | framed _ _ _ framed =>
        have sends := inStep.framed_sends around meanwhile world
        rw [framed.machine]
        refine ⟨?_, inStep.framed_samples answered⟩
        split at sends <;> omega
  exact
    { sends := ⟨grown.1, bounded.1⟩
      samples := ⟨grown.2, bounded.2⟩ }

end Engine

/-! ### Reports of samples in the log -/

def LogRecord.isReport (record : LogRecord) : Bool :=
  record.source == .headless && record.message == "round trip"

/-- The reports of some round trips, numbered from one. -/
def Auto.reports (trips : List Float) : List LogRecord :=
  trips.mapIdx fun index trip => sampleRecord (index + 1) trip

/-- The reports among some records, in order. -/
def reportsIn (log : List LogRecord) : List LogRecord :=
  log.filter LogRecord.isReport

theorem reportsIn_append (first later : List LogRecord) :
    reportsIn (first ++ later) = reportsIn first ++ reportsIn later :=
  List.filter_append ..

theorem reportsIn_others {log : List LogRecord}
    (others : ∀ record ∈ log, record.source ≠ .headless) :
    reportsIn log = [] := by
  apply List.filter_eq_nil_iff.mpr
  intro record member
  simp [LogRecord.isReport, others record member]

/-- What a machine logs is its own. -/
theorem Machine.react_source (machine : Machine) (step : Machine.Step) :
    ∀ record ∈ (machine.react step).log, record.source = .machine := by
  have warned (payload : Payload) :
      ∀ record ∈ payloadWarning payload, record.source = .machine := by
    unfold payloadWarning
    split <;> simp
  cases step with
  | intent intent now =>
      cases intent
      simp only [react, applyIntent, sendCommand]
      split
      · simp
      · split
        · simp
        · split <;> simp
  | shutdown reason =>
      simp only [react, shutdown]
      split <;> simp [terminate]
  | event event =>
      by_cases ended : machine.phase = .terminated
      · simp [react, applyEvent, ended, ignoreEvent]
      · simp only [react, applyEvent, if_neg ended]
        cases event with
        | established connection =>
            simp only [adopt]
            split <;> simp
        | received payload receivedAt =>
            simp only [acknowledge]
            split
            · rw [List.forall_mem_append]
              exact ⟨warned payload, by simp⟩
            · split
              · exact warned payload
              · rw [List.forall_mem_append]
                exact ⟨warned payload, by simp⟩
        | sent length => simp [noteSent]
        | cancelled =>
            simp only [noteCancelled]
            split <;> simp [afterLogging, terminate]
        | failed fault => simp [noteFault, afterLogging, terminate]

theorem Machine.reactions_source (machine : Machine)
    (steps : List Machine.Step) :
    ∀ record ∈ (machine.reactions steps).flatMap Reaction.log,
      record.source = .machine := by
  induction steps generalizing machine with
  | nil => simp [reactions]
  | cons step rest inductionHypothesis =>
      simp only [reactions, List.flatMap_cons, List.forall_mem_append]
      exact ⟨machine.react_source step, inductionHypothesis _⟩

namespace Engine

variable (around : Surroundings ω σ)

theorem feed_reports (driven : Driven ω) (steps : List Machine.Step) :
    reportsIn (feed around driven steps).log = reportsIn driven.log := by
  have nothing : reportsIn
      ((driven.engine.machine.reactions steps).flatMap Reaction.log) = [] := by
    apply reportsIn_others
    intro record member
    rw [driven.engine.machine.reactions_source steps record member]
    decide
  change reportsIn (driven.log ++ _) = _
  rw [reportsIn_append, nothing, List.append_nil]

theorem endTick_reports (reason : Termination) (frontend : φ)
    (shown : Option Snapshot) (driven : Driven ω) :
    reportsIn (endTick around reason frontend shown driven).log =
      reportsIn driven.log := by
  have fed := feed_reports around driven [.shutdown reason]
  have nothing (engine : Engine) : reportsIn [engine.endRecord] = [] :=
    rfl
  change reportsIn ((feed around driven [.shutdown reason]).log ++ _) = _
  rw [reportsIn_append, fed, nothing, List.append_nil]

theorem frame_reports (view : Frontend φ) (frontend : φ)
    (meanwhile : List σ) (engine : Engine) (world : ω) :
    reportsIn (frame around view frontend meanwhile
        { engine := engine
          world := world }).log =
      reportsIn
        (engine.rendering around view frontend meanwhile world).log := by
  have applied :
      reportsIn (takeEvents around (engine.midway around meanwhile world)).log =
        [] :=
    (feed_reports around _ _).trans (feed_reports around _ _)
  rw [frame_eq]
  dsimp only
  split
  · rw [endTick_reports, reportsIn_append, applied, List.nil_append]
  · rw [reportsIn_append, applied, List.nil_append]

theorem tick_reports (view : Frontend φ) (frontend : φ)
    (meanwhile : List σ) (engine : Engine) (world : ω) :
    reportsIn (engine.tick around view frontend meanwhile world).log =
      if engine.running = true ∧ engine.stopRequested = false ∧
          view.closeRequested frontend = false then
        reportsIn (engine.rendering around view frontend meanwhile world).log
      else [] := by
  unfold tick
  cases running : engine.running with
  | false => rfl
  | true =>
      cases stopping : engine.stopRequested with
      | true => exact endTick_reports around _ _ _ _
      | false =>
          cases closing : view.closeRequested frontend with
          | true => exact endTick_reports around _ _ _ _
          | false => exact frame_reports around view frontend meanwhile _ _

theorem release_reports (engine : Engine) (world : ω) :
    reportsIn (engine.release around world).log = [] := by
  unfold release
  split
  · exact endTick_reports around .stopped () none
      { engine := engine
        world := world }
  · rfl

end Engine

namespace Auto

variable {auto : Auto} {snapshot : Snapshot} {now : Instant}

@[simp] theorem sampleRecord_isReport (sample : Nat) (trip : Float) :
    (sampleRecord sample trip).isReport = true := by
  simp [LogRecord.isReport, sampleRecord]

theorem render_reports :
    reportsIn (auto.render snapshot now).log =
      if auto.logged < snapshot.stats.samples then
        [sampleRecord snapshot.stats.samples snapshot.lastRoundTrip]
      else [] := by
  have log : (auto.render snapshot now).log =
      if auto.logged < snapshot.stats.samples then
        [sampleRecord (max auto.logged snapshot.stats.samples)
          snapshot.lastRoundTrip]
      else [] := by
    unfold render
    grind
  rw [log]
  split
  · rename_i new
    rw [Nat.max_eq_right (Nat.le_of_lt new)]
    simp [reportsIn]
  · rfl

theorem reports_concat (trips : List Float) (trip : Float) :
    reports (trips ++ [trip]) =
      reports trips ++ [sampleRecord (trips.length + 1) trip] :=
  List.mapIdx_concat

end Auto

/-! ### What the front-end and the machine keep together -/

namespace Run

variable {around : Surroundings ω σ} {run : Run ω Auto} {trips : List Float}

/-- Whether a session has recorded some round trips, which its headless
front-end has reported. -/
structure Reporting (run : Run ω Auto) (trips : List Float) : Prop where
  inStep : run.engine.InStep
  answered : run.engine.machine.Answered
  stats : run.engine.machine.stats = Aggregate.empty.recordAll trips
  logged : run.frontend.logged = trips.length
  log : reportsIn run.log = Auto.reports trips

theorem Reporting.samples (reporting : run.Reporting trips) :
    run.engine.machine.stats.samples = trips.length := by
  rw [reporting.stats, Aggregate.recordAll_samples]
  exact Nat.zero_add _

theorem Reporting.quiet {later : Run ω Auto} {new : List Float}
    (reporting : run.Reporting trips)
    (records : Machine.Records run.engine.machine later.engine.machine new)
    (stats : later.engine.machine.stats = run.engine.machine.stats)
    (inStep : later.engine.InStep) (answered : later.engine.machine.Answered)
    (frontend : later.frontend = run.frontend)
    (log : reportsIn later.log = reportsIn run.log) :
    later.Reporting (trips ++ new) := by
  rw [records.nothing stats, List.append_nil]
  exact
    { inStep := inStep
      answered := answered
      stats := stats.trans reporting.stats
      logged := by rw [frontend]; exact reporting.logged
      log := log.trans reporting.log }

/-- A frame that takes a sample reports it under the next number. -/
theorem Reporting.framed {new : List Float} {last : Machine} {frame : Nat}
    {now : Instant} {rendering : Rendering Auto}
    (reporting : run.Reporting trips)
    (records : Machine.Records run.engine.machine last new)
    (few : new.length ≤ 1)
    (rendered : rendering = run.frontend.render (.ofMachine last frame) now) :
    rendering.state.logged = (trips ++ new).length ∧
      reportsIn run.log ++ reportsIn rendering.log =
        Auto.reports (trips ++ new) := by
  have samples := records.samples
  rw [reporting.samples] at samples
  rw [rendered, Auto.render_logged, reporting.log, Auto.render_reports,
    reporting.logged]
  simp only [Snapshot.ofMachine, samples, List.length_append]
  refine ⟨Nat.max_eq_right (Nat.le_add_right _ _), ?_⟩
  cases new with
  | nil => rw [if_neg (by simp), List.append_nil, List.append_nil]
  | cons trip rest =>
      have single : rest = [] := by
        rw [List.length_cons] at few
        exact List.eq_nil_of_length_eq_zero (by omega)
      subst single
      have newest : last.measurement.lastRoundTrip = trip := records.last
      rw [if_pos (by simp), newest, Auto.reports_concat]
      rfl

/-- The step lemma for ticks. -/
theorem Reporting.tick (reporting : run.Reporting trips)
    (around : Surroundings ω σ) (meanwhile : List σ) :
    (run.tick around Auto.frontend meanwhile).Reporting
      (trips ++ roundTripsAt (run.engine.tickMoments around Auto.frontend
        run.frontend meanwhile run.world)) := by
  have inStep := reporting.inStep
  have next := inStep.tick around Auto.frontend run.frontend meanwhile
    run.world
  have answered :
      (run.tick around Auto.frontend meanwhile).engine.machine.Answered :=
    Engine.tick_answered reporting.answered
  have records := (Engine.tick_leads around Auto.frontend run.frontend
    meanwhile run.engine run.world).records inStep.consistent
  have log := Engine.tick_reports around Auto.frontend run.frontend meanwhile
    run.engine run.world
  have quietly (quiet : reportsIn (run.engine.tick around Auto.frontend
        run.frontend meanwhile run.world).log = []) :
      reportsIn (run.tick around Auto.frontend meanwhile).log =
        reportsIn run.log := by
    change reportsIn (run.log ++ _) = _
    rw [reportsIn_append, quiet, List.append_nil]
  cases inStep.ticked around Auto.frontend run.frontend meanwhile
      run.world with
  | idle _ same =>
      refine reporting.quiet records ?_ next answered ?_ (quietly ?_)
      · exact congrArg (fun tick => tick.engine.machine.stats) same
      · exact congrArg Tick.frontend same
      · rw [same]
        rfl
  | stopped _ wanted halted =>
      refine reporting.quiet records ?_ next answered halted.frontend
        (quietly ?_)
      · exact halted.measured.1
      · rw [log, if_neg (by simp [wanted])]
  | closed _ _ left halted =>
      refine reporting.quiet records ?_ next answered halted.frontend
        (quietly ?_)
      · exact halted.measured.1
      · rw [log, if_neg (by simp [left])]
  | framed running wanted shown framed =>
      have few := (inStep.tick_countsOn reporting.answered around
        Auto.frontend run.frontend meanwhile run.world).samples.2
      rw [records.samples, Nat.add_le_add_iff_left] at few
      rw [if_pos ⟨running, wanted, shown⟩] at log
      have rendered :
          run.engine.rendering around Auto.frontend run.frontend meanwhile
              run.world =
            run.frontend.render
              (.ofMachine (run.engine.tick around Auto.frontend run.frontend
                meanwhile run.world).engine.machine run.engine.frames)
              (around.clock (Engine.takeEvents around
                (run.engine.midway around meanwhile run.world)).world) := by
        rw [framed.machine]
        rfl
      obtain ⟨logged, all⟩ := reporting.framed records few rendered
      exact
        { inStep := next
          answered := answered
          stats := by
            rw [Aggregate.recordAll_append, ← reporting.stats]
            exact records.stats
          logged := (congrArg Auto.logged framed.frontend).trans logged
          log := by
            rw [← all, ← log]
            exact reportsIn_append _ _ }

theorem Reporting.step (reporting : run.Reporting trips)
    (around : Surroundings ω σ) (step : RunStep σ) :
    (run.step around Auto.frontend step).Reporting
      (trips ++ roundTripsAt
        (run.stepMoments around Auto.frontend step)) := by
  have inStep := reporting.inStep
  have leads := run.step_leads around Auto.frontend step
  have records := leads.records inStep.consistent
  have answered := leads.keeps Machine.after_answered reporting.answered
  cases step with
  | press intents =>
      exact reporting.quiet records rfl { inStep with } answered rfl rfl
  | beside step =>
      exact reporting.quiet records rfl { inStep with } answered rfl rfl
  | requestStop =>
      exact reporting.quiet records rfl { inStep with } answered rfl rfl
  | tick meanwhile => exact reporting.tick around meanwhile
  | release =>
      refine reporting.quiet records ?_ (inStep.release around run.world)
        answered rfl ?_
      · exact (inStep.release_measured around run.world).1
      · change reportsIn (run.log ++ _) = _
        rw [reportsIn_append, Engine.release_reports, List.append_nil]

/-- The run lemma. -/
theorem Reporting.steps (reporting : run.Reporting trips)
    (around : Surroundings ω σ) (all : List (RunStep σ)) :
    (run.steps around Auto.frontend all).Reporting
      (trips ++ roundTripsAt (run.moments around Auto.frontend all)) := by
  induction all generalizing run trips with
  | nil =>
      rw [show roundTripsAt (run.moments around Auto.frontend []) = [] from
        rfl, List.append_nil]
      exact reporting
  | cons step rest inductionHypothesis =>
      have last := inductionHypothesis (reporting.step around step)
      rw [List.append_assoc, ← roundTripsAt_append] at last
      exact last

/-- Ticking until the session ends reports what is recorded on the way. -/
theorem Reporting.untilStop (reporting : run.Reporting trips)
    (around : Surroundings ω σ) (settle : ω → ω × List Event)
    (count : Nat) :
    ∃ more, (run.untilStop around Auto.frontend settle count).1.Reporting
      (trips ++ more) := by
  refine untilStop_keeps (fun run => ∃ more, run.Reporting (trips ++ more))
    ?_ ?_ count run ⟨[], ?_⟩
  · rintro run ⟨more, reporting⟩
    have next := reporting.tick around []
    rw [List.append_assoc] at next
    exact ⟨_, next⟩
  · rintro run ⟨more, reporting⟩
    exact ⟨more, { reporting with inStep := { reporting.inStep with } }⟩
  · rw [List.append_nil]
    exact reporting

end Run

theorem Usage.tick_countsOn (around : Surroundings ω σ) (config : Config)
    (world : ω) (uses : List (EngineUse σ)) {φ : Type} (view : Frontend φ)
    (frontend : φ) (meanwhile : List σ) :
    let usage := (start config world).run around uses
    usage.engine.machine.CountsOn
      (usage.engine.tick around view frontend meanwhile
        usage.world).engine.machine := by
  have both := run_keeps around
    (fun usage => usage.engine.InStep ∧ usage.engine.machine.Answered)
    (fun usage use holds => by
      refine ⟨after_inStep around usage use holds.1, ?_⟩
      cases use with
      | tick view frontend meanwhile => exact Engine.tick_answered holds.2
      | press intents => exact holds.2
      | requestStop => exact holds.2
      | beside step => exact holds.2)
    (start config world)
    ⟨Engine.start_inStep config,
      Machine.start_answered config.transport true⟩ uses
  exact both.1.tick_countsOn both.2 around view frontend meanwhile _

end LatencyBench

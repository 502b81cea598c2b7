/-
Engine and machine stop together.

The end of a session is recorded twice, by the engine and by its machine.
Between two uses of an engine the records agree.  The first tick that stops
tells why: a stop request goes before a closed front-end, and that before the
end of the machine itself.  All later ticks repeat its answer and do nothing.
-/

import LatencyBench.Frontend.Scripted
import LatencyBench.Proofs.Run.Usage
import LatencyBench.Wire

namespace LatencyBench

variable {ω σ φ : Type}

/-- The reason that an event gives for the end of a session. -/
def Event.ending? : Event → Option Termination
  | .cancelled => some .cancelled
  | .failed fault => some (.fault fault)
  | _ => none

/-- A machine that events bring to its end has the reason from the first event
that ends it. -/
theorem Machine.run_events_ending {machine : Machine} {events : List Event}
    {reason : Termination} (consistent : machine.Consistent)
    (going : machine.phase ≠ .terminated)
    (finished : (machine.run (events.map .event)).termination =
      some reason) :
    ∃ before event later, events = before ++ event :: later ∧
      (machine.run (before.map .event)).phase ≠ .terminated ∧
      event.ending? = some reason ∧
      (machine.run (before.map .event)).after (.event event) =
        (machine.run (before.map .event)).ended reason := by
  induction events generalizing machine with
  | nil =>
      have ended := consistent.reported.mp (by
        rw [List.map_nil, run_nil] at finished
        rw [finished]
        rfl)
      exact absurd ended going
  | cons event rest inductionHypothesis =>
      rw [List.map_cons, run_cons] at finished
      by_cases ended : (machine.after (.event event)).phase = .terminated
      · rw [run_of_terminated _ _ ended] at finished
        refine ⟨[], event, rest, rfl, going, ?_⟩
        rw [List.map_nil, run_nil]
        obtain ⟨reached, calls, next, taken⟩ :=
          machine.exists_transition (.event event)
        rw [next] at finished ended ⊢
        cases taken with
        | adopt _ _ _ => cases ended
        | write _ _ => cases ended
        | answer _ _ _ _ _ _ => cases ended
        | cancel _ =>
            cases finished
            exact ⟨rfl, rfl⟩
        | fail _ _ =>
            cases finished
            exact ⟨rfl, rfl⟩
        | ignore _ _ => exact absurd ended going
      · obtain ⟨before, last, later, split, lasting, ending⟩ :=
          inductionHypothesis (machine.after_consistent _ consistent) ended
            finished
        exact ⟨event :: before, last, later, by rw [split]; rfl, lasting,
          ending⟩

namespace Engine

/-- Why a running engine stops in a tick, and what the tick did before. -/
inductive StopsFor (around : Surroundings ω σ) (view : Frontend φ)
    (frontend : φ) (meanwhile : List σ) (engine : Engine) (world : ω) :
    Termination → Prop where
  | stopped (wanted : engine.stopRequested = true)
      (halted : Halted frontend engine .stopped
        (engine.tick around view frontend meanwhile world))
      (applied : engine.tickMoments around view frontend meanwhile world =
        [{ machine := engine.machine
           step := .shutdown .stopped
           world := world }]) :
      StopsFor around view frontend meanwhile engine world .stopped
  | closed (wanted : engine.stopRequested = false)
      (left : view.closeRequested frontend = true)
      (halted : Halted frontend engine .windowClosed
        (engine.tick around view frontend meanwhile world))
      (applied : engine.tickMoments around view frontend meanwhile world =
        [{ machine := engine.machine
           step := .shutdown .windowClosed
           world := world }]) :
      StopsFor around view frontend meanwhile engine world .windowClosed
  | ended (reason : Termination) (wanted : engine.stopRequested = false)
      (shown : view.closeRequested frontend = false)
      (before : List Event) (event : Event) (later : List Event)
      (drained : (engine.midway around meanwhile world).engine.events.toList =
        before ++ event :: later)
      (going : ((engine.midway around meanwhile world).engine.machine.run
        (before.map .event)).phase ≠ .terminated)
      (ending : event.ending? = some reason)
      (ends : ((engine.midway around meanwhile world).engine.machine.run
          (before.map .event)).after (.event event) =
        ((engine.midway around meanwhile world).engine.machine.run
          (before.map .event)).ended reason)
      (reported : (engine.tick around view frontend meanwhile
        world).engine.machine.termination = some reason) :
      StopsFor around view frontend meanwhile engine world reason

variable {around : Surroundings ω σ} {view : Frontend φ} {frontend : φ}
  {meanwhile : List σ} {engine : Engine} {world : ω} {reason : Termination}

theorem InStep.stopsFor (inStep : engine.InStep)
    (running : engine.running = true)
    (stops : (engine.tick around view frontend meanwhile world).outcome =
      .stop reason) :
    engine.StopsFor around view frontend meanwhile world reason := by
  cases inStep.ticked around view frontend meanwhile world with
  | idle stopped _ =>
      rw [stopped] at running
      cases running
  | stopped _ wanted halted =>
      cases halted.outcome.symm.trans stops
      refine .stopped wanted halted ?_
      simp [tickMoments, running, wanted, Driven.moments, Machine.moments]
  | closed _ wanted left halted =>
      cases halted.outcome.symm.trans stops
      refine .closed wanted left halted ?_
      simp [tickMoments, running, wanted, left, Driven.moments,
        Machine.moments]
  | framed _ wanted shown framed =>
      cases finished :
          (engine.framedMachine around meanwhile world).termination with
      | none =>
          have proceeds := (framed.proceeds finished).1
          cases proceeds.symm.trans stops
      | some first =>
          cases (framed.ends first finished).1.symm.trans stops
          obtain ⟨before, event, later, drained, going, ending, ends⟩ :=
            Machine.run_events_ending inStep.midway_consistent
              (inStep.midway_going (inStep.machine.mp running)) finished
          refine .ended reason wanted shown before event later drained going
            ending ends ?_
          rw [framed.machine]
          exact finished

end Engine

/-! ### What ticks have answered -/

/-- The answers of an engine's ticks: they went on for some time, and since
the engine has stopped they give one and the same reason. -/
inductive Told (engine : Engine) : List Outcome → Prop where
  | going (count : Nat) (running : engine.running = true) :
      Told engine (List.replicate count .proceed)
  | ended (count again : Nat) (reason : Termination)
      (stopped : engine.running = false)
      (reported : engine.machine.termination = some reason) :
      Told engine
        (List.replicate count .proceed ++
          List.replicate (again + 1) (.stop reason))

section Told

variable {engine : Engine} {outcomes : List Outcome} {reason : Termination}

theorem Told.running_iff (told : Told engine outcomes) :
    engine.running = true ↔ ∀ outcome ∈ outcomes, outcome = .proceed := by
  cases told with
  | going count running =>
      exact ⟨fun _ _ member => List.eq_of_mem_replicate member,
        fun _ => running⟩
  | ended count again reason stopped _ =>
      constructor
      · intro running
        rw [stopped] at running
        cases running
      · intro all
        have last := all (.stop reason) (by simp)
        cases last

theorem Told.reported (told : Told engine outcomes)
    (stops : .stop reason ∈ outcomes) :
    engine.running = false ∧ engine.machine.termination = some reason := by
  cases told with
  | going count _ => cases List.eq_of_mem_replicate stops
  | ended count again first stopped reported =>
      rcases List.mem_append.mp stops with early | late
      · cases List.eq_of_mem_replicate early
      · cases List.eq_of_mem_replicate late
        exact ⟨stopped, reported⟩

theorem Told.same {later : Engine} (told : Told engine outcomes)
    (running : later.running = engine.running)
    (machine : later.machine = engine.machine) : Told later outcomes := by
  cases told with
  | going count goes => exact .going count (running.trans goes)
  | ended count again reason stopped reported =>
      refine .ended count again reason (running.trans stopped) ?_
      rw [machine]
      exact reported

theorem Told.tick (told : Told engine outcomes) (inStep : engine.InStep)
    (around : Surroundings ω σ) (view : Frontend φ) (frontend : φ)
    (meanwhile : List σ) (world : ω) :
    Told (engine.tick around view frontend meanwhile world).engine
      (outcomes ++
        [(engine.tick around view frontend meanwhile world).outcome]) := by
  -- While the engine runs, all answers were to go on.
  have first (running : engine.running = true) :
      ∃ count, outcomes = List.replicate count .proceed := by
    cases told with
    | going count _ => exact ⟨count, rfl⟩
    | ended _ _ _ stopped _ =>
        rw [stopped] at running
        cases running
  cases inStep.ticked around view frontend meanwhile world with
  | idle stopped same =>
      rw [same]
      cases told with
      | going _ running =>
          rw [stopped] at running
          cases running
      | ended count again reason _ reported =>
          have answer : engine.termination = reason := by
            rw [Engine.termination, reported]
            rfl
          rw [answer, List.append_assoc, ← List.replicate_succ']
          exact .ended count (again + 1) reason stopped reported
  | stopped running _ halted =>
      obtain ⟨count, rfl⟩ := first running
      rw [halted.outcome]
      refine .ended count 0 .stopped halted.running ?_
      rw [halted.machine]
      rfl
  | closed running _ _ halted =>
      obtain ⟨count, rfl⟩ := first running
      rw [halted.outcome]
      refine .ended count 0 .windowClosed halted.running ?_
      rw [halted.machine]
      rfl
  | framed running _ _ framed =>
      obtain ⟨count, rfl⟩ := first running
      cases finished :
          (engine.framedMachine around meanwhile world).termination with
      | none =>
          obtain ⟨proceeds, going, _⟩ := framed.proceeds finished
          rw [proceeds, ← List.replicate_succ']
          exact .going (count + 1) (going.trans running)
      | some reason =>
          obtain ⟨stops, stopped, _⟩ := framed.ends reason finished
          rw [stops]
          refine .ended count 0 reason stopped ?_
          rw [framed.machine]
          exact finished

end Told

/-! ### Ticking until the end -/

/-- What is done to an engine without ticking it or letting go of it. -/
def RunStep.isAside : RunStep σ → Bool
  | .tick _ => false
  | .release => false
  | _ => true

namespace Run

variable {around : Surroundings ω σ} {view : Frontend φ}
  {settle : ω → ω × List Event} {limit : Nat}

/-- Whether ticks that were to go on until the end of a session, at most
`limit` of them, all went on, or all but the last, which gave the answer. -/
inductive Answers (before after : Run ω φ) (limit : Nat) :
    Option Termination → Prop where
  | unfinished
      (outcomes : after.outcomes =
        before.outcomes ++ List.replicate limit .proceed) :
      Answers before after limit none
  | finished (count : Nat) (reason : Termination) (within : count < limit)
      (outcomes : after.outcomes =
        before.outcomes ++ List.replicate count .proceed ++ [.stop reason]) :
      Answers before after limit (some reason)

theorem Answers.later {before between after : Run ω φ}
    {answer : Option Termination} (answers : Answers between after limit answer)
    (proceeds : between.outcomes = before.outcomes ++ [.proceed]) :
    Answers before after (limit + 1) answer := by
  have more (count : Nat) (rest : List Outcome) :
      between.outcomes ++ List.replicate count .proceed ++ rest =
        before.outcomes ++ List.replicate (count + 1) .proceed ++ rest := by
    rw [proceeds, List.replicate_succ, List.append_assoc before.outcomes]
    rfl
  cases answers with
  | unfinished outcomes =>
      refine .unfinished ?_
      have longer := more limit []
      rw [List.append_nil, List.append_nil] at longer
      rw [outcomes, longer]
  | finished count reason within outcomes =>
      refine .finished (count + 1) reason (by omega) ?_
      rw [outcomes, more]

theorem Answers.stops {before after : Run ω φ} {reason : Termination}
    (outcomes : after.outcomes = before.outcomes ++ [.stop reason]) :
    Answers before after (limit + 1) (some reason) := by
  refine .finished 0 reason (Nat.succ_pos limit) ?_
  rw [List.replicate_zero, List.append_nil, outcomes]

theorem untilStop_answers (run : Run ω φ) :
    Answers run (run.untilStop around view settle limit).1 limit
      (run.untilStop around view settle limit).2 := by
  induction limit generalizing run with
  | zero => exact .unfinished (List.append_nil _).symm
  | succ limit inductionHypothesis =>
      have last : (run.tick around view []).outcomes.getLast? =
          some (run.engine.tick around view run.frontend [] run.world).outcome :=
        List.getLast?_concat
      rw [untilStop, last]
      cases outcome :
          (run.engine.tick around view run.frontend [] run.world).outcome with
      | stop reason =>
          apply Answers.stops
          exact congrArg (fun answer => run.outcomes ++ [answer]) outcome
      | proceed =>
          apply (inductionHypothesis _).later
          exact congrArg (fun answer => run.outcomes ++ [answer]) outcome

theorem untilStop_keeps (kept : Run ω φ → Prop)
    (ticks : ∀ run, kept run → kept (run.tick around view []))
    (rests : ∀ run, kept run → kept (run.rest settle)) (limit : Nat)
    (run : Run ω φ) (holds : kept run) :
    kept (run.untilStop around view settle limit).1 := by
  induction limit generalizing run with
  | zero => exact holds
  | succ limit inductionHypothesis =>
      have ticked := ticks run holds
      rw [untilStop]
      split
      · exact ticked
      · exact inductionHypothesis _ (rests _ ticked)

theorem untilStop_told (run : Run ω φ) (inStep : run.engine.InStep)
    (told : Told run.engine run.outcomes) :
    Told (run.untilStop around view settle limit).1.engine
      (run.untilStop around view settle limit).1.outcomes := by
  refine (untilStop_keeps
    (fun run => run.engine.InStep ∧ Told run.engine run.outcomes) ?_ ?_ limit
    run ⟨inStep, told⟩).2
  · rintro run ⟨inStep, told⟩
    exact ⟨inStep.tick around view run.frontend [] run.world,
      told.tick inStep around view run.frontend [] run.world⟩
  · rintro run ⟨inStep, told⟩
    exact ⟨{ inStep with }, told.same rfl rfl⟩

/-! ### Ticking amid others -/

/-- Ticks until the session has ended while others use the engine.  A turn is
what they do before a tick, and what the surroundings do in the middle of
it. -/
def untilStopAmid (around : Surroundings ω σ) (view : Frontend φ) :
    List (List (RunStep σ) × List σ) → Run ω φ → Run ω φ × Option Termination
  | [], run => (run, none)
  | (others, meanwhile) :: rest, run =>
      let ticked := (run.steps around view others).tick around view meanwhile
      match ticked.outcomes.getLast? with
      | some (.stop reason) => (ticked, some reason)
      | _ => untilStopAmid around view rest ticked

/-- Others change neither the answers nor what is recorded of the end. -/
structure Undecided (before after : Run ω φ) : Prop where
  outcomes : after.outcomes = before.outcomes
  machine : after.engine.machine = before.engine.machine
  running : after.engine.running = before.engine.running
  inStep : before.engine.InStep → after.engine.InStep

theorem undecided_step (run : Run ω φ) {step : RunStep σ}
    (aside : step.isAside = true) :
    Undecided run (run.step around view step) := by
  cases step with
  | tick meanwhile => cases aside
  | release => cases aside
  | press intents => exact ⟨rfl, rfl, rfl, fun inStep => { inStep with }⟩
  | beside step => exact ⟨rfl, rfl, rfl, fun inStep => { inStep with }⟩
  | requestStop => exact ⟨rfl, rfl, rfl, fun inStep => { inStep with }⟩

theorem undecided_steps (run : Run ω φ) {others : List (RunStep σ)}
    (aside : ∀ step ∈ others, step.isAside = true) :
    Undecided run (run.steps around view others) := by
  induction others generalizing run with
  | nil => exact ⟨rfl, rfl, rfl, id⟩
  | cons step rest inductionHypothesis =>
      have first : Undecided run (run.step around view step) :=
        run.undecided_step (aside step List.mem_cons_self)
      have later := inductionHypothesis (run.step around view step)
        fun other member => aside other (List.mem_cons_of_mem step member)
      exact
        { outcomes := later.outcomes.trans first.outcomes
          machine := later.machine.trans first.machine
          running := later.running.trans first.running
          inStep := fun inStep => later.inStep (first.inStep inStep) }

section Amid

variable {turns : List (List (RunStep σ) × List σ)}
  (quiet : ∀ turn ∈ turns, ∀ step ∈ turn.1, step.isAside = true)

include quiet

theorem untilStopAmid_answers (run : Run ω φ) :
    Answers run (run.untilStopAmid around view turns).1 turns.length
      (run.untilStopAmid around view turns).2 := by
  induction turns generalizing run with
  | nil => exact .unfinished (List.append_nil _).symm
  | cons turn rest inductionHypothesis =>
      rw [List.forall_mem_cons] at quiet
      let ready := run.steps around view turn.1
      have undecided : Undecided run ready := run.undecided_steps quiet.1
      have last : (ready.tick around view turn.2).outcomes.getLast? =
          some (ready.engine.tick around view ready.frontend turn.2
            ready.world).outcome := List.getLast?_concat
      have longer : (ready.tick around view turn.2).outcomes =
          run.outcomes ++ [(ready.engine.tick around view ready.frontend turn.2
            ready.world).outcome] := by
        rw [← undecided.outcomes]
        rfl
      rw [untilStopAmid, last]
      cases outcome : (ready.engine.tick around view ready.frontend turn.2
          ready.world).outcome with
      | stop reason =>
          rw [outcome] at longer
          exact .stops longer
      | proceed =>
          rw [outcome] at longer
          exact (inductionHypothesis quiet.2 _).later longer

theorem untilStopAmid_told (run : Run ω φ) (inStep : run.engine.InStep)
    (told : Told run.engine run.outcomes) :
    Told (run.untilStopAmid around view turns).1.engine
      (run.untilStopAmid around view turns).1.outcomes := by
  induction turns generalizing run with
  | nil => exact told
  | cons turn rest inductionHypothesis =>
      rw [List.forall_mem_cons] at quiet
      let ready := run.steps around view turn.1
      have undecided : Undecided run ready := run.undecided_steps quiet.1
      have inStep := undecided.inStep inStep
      have told : Told ready.engine ready.outcomes := by
        rw [undecided.outcomes]
        exact told.same undecided.running undecided.machine
      have ticked := told.tick inStep around view ready.frontend turn.2
        ready.world
      rw [untilStopAmid]
      split
      · exact ticked
      · exact inductionHypothesis quiet.2 _
          (inStep.tick around view ready.frontend turn.2 ready.world) ticked

end Amid

end Run

namespace Usage

def shownTo (usage : Usage ω) (frontend : φ) : Run ω φ :=
  { engine := usage.engine
    world := usage.world
    frontend := frontend
    shown := usage.shown
    outcomes := usage.outcomes
    log := [] }

/-- How a session stops: its records of the end agree, the first tick that
stops tells why, and every later one repeats that and does nothing. -/
structure StopsOnce (around : Surroundings ω σ) (usage : Usage ω) :
    Prop where
  inStep : usage.engine.InStep
  told : Told usage.engine usage.outcomes
  first : ∀ {φ : Type} (view : Frontend φ) (frontend : φ)
    (meanwhile : List σ) (reason : Termination),
    (∀ outcome ∈ usage.outcomes, outcome = .proceed) →
    (usage.engine.tick around view frontend meanwhile usage.world).outcome =
      .stop reason →
    usage.engine.StopsFor around view frontend meanwhile usage.world reason
  later : ∀ {φ : Type} (view : Frontend φ) (frontend : φ)
    (meanwhile : List σ) (reason : Termination),
    .stop reason ∈ usage.outcomes →
    usage.engine.tick around view frontend meanwhile usage.world =
      { engine := usage.engine
        world := usage.world
        frontend := frontend
        outcome := .stop reason }
  run : ∀ {φ : Type} (view : Frontend φ) (frontend : φ)
    (settle : ω → ω × List Event) (limit : Nat),
    let ended :=
      (usage.shownTo frontend).untilStop around view settle limit
    Run.Answers (usage.shownTo frontend) ended.1 limit ended.2 ∧
      Told ended.1.engine ended.1.outcomes
  amid : ∀ {φ : Type} (view : Frontend φ) (frontend : φ)
    (turns : List (List (RunStep σ) × List σ)),
    (∀ turn ∈ turns, ∀ step ∈ turn.1, step.isAside = true) →
    let ended := (usage.shownTo frontend).untilStopAmid around view turns
    Run.Answers (usage.shownTo frontend) ended.1 turns.length ended.2 ∧
      Told ended.1.engine ended.1.outcomes

variable {around : Surroundings ω σ} {usage : Usage ω}

theorem after_told (use : EngineUse σ) (inStep : usage.engine.InStep)
    (told : Told usage.engine usage.outcomes) :
    Told (usage.after around use).engine (usage.after around use).outcomes := by
  cases use with
  | press intents => exact told.same rfl rfl
  | requestStop => exact told.same rfl rfl
  | beside step => exact told.same rfl rfl
  | tick view frontend meanwhile =>
      exact told.tick inStep around view frontend meanwhile usage.world

/-- In every state that an engine can reach between two uses it runs exactly
as long as its machine goes on, owns its runtime and has not called off what
waits; and it stops once, for one reason. -/
theorem session_stops_in_lockstep (around : Surroundings ω σ)
    (config : Config) (world : ω) (uses : List (EngineUse σ)) :
    ((start config world).run around uses).StopsOnce around := by
  have inStep := run_inStep around config world uses
  have both := run_keeps around
    (fun usage => usage.engine.InStep ∧ Told usage.engine usage.outcomes)
    (fun usage use holds =>
      ⟨after_inStep around usage use holds.1, after_told use holds.1 holds.2⟩)
    (start config world)
    ⟨Engine.start_inStep config, .going 0 rfl⟩ uses
  have told := both.2
  exact
    { inStep := inStep
      told := told
      first := by
        intro φ view frontend meanwhile reason all stops
        exact inStep.stopsFor (told.running_iff.mpr all) stops
      later := by
        intro φ view frontend meanwhile reason stops
        obtain ⟨stopped, reported⟩ := told.reported stops
        rw [Engine.tick_over stopped, Engine.termination, reported]
        rfl
      run := by
        intro φ view frontend settle limit
        exact ⟨Run.untilStop_answers _,
          Run.untilStop_told _ inStep told⟩
      amid := by
        intro φ view frontend turns quiet
        exact ⟨Run.untilStopAmid_answers quiet _,
          Run.untilStopAmid_told quiet _ inStep told⟩ }

/-! A session that others press and then stop while it is ticked, and one
whose listener fails. -/

def stoppedByOthers : List (List (RunStep WireStep) × List WireStep) :=
  [([.press [.sendCommand]], []),
   ([.press [.sendCommand], .requestStop], []),
   ([], [])]

def listenerFails : List (EngineUse WireStep) :=
  [.beside (.endpoint (.acceptFails
    { kind := .other
      text := "too many open files" }))]

def rawAfter (uses : List (EngineUse WireStep)) : Usage Wire :=
  (start (.forTransport .rawTcp) (.start .rawTcp)).run Wire.surroundings uses

theorem stoppedByOthers_stops :
    let ended := ((rawAfter []).shownTo Scripted.start).untilStopAmid
      Wire.surroundings Scripted.frontend stoppedByOthers
    let failed := rawAfter listenerFails
    ended.2 = some .stopped ∧ Told ended.1.engine [.proceed, .stop .stopped] ∧
    (failed.engine.tick Wire.surroundings Scripted.frontend Scripted.start []
      failed.world).outcome =
        .stop (.fault (.accept "too many open files")) ∧
    failed.engine.StopsFor Wire.surroundings Scripted.frontend Scripted.start
      [] failed.world (.fault (.accept "too many open files")) := by
  intro ended failed
  have stops := session_stops_in_lockstep Wire.surroundings
    (.forTransport .rawTcp) (.start .rawTcp)
  have quiet : ∀ turn ∈ stoppedByOthers, ∀ step ∈ turn.1,
      step.isAside = true := by
    decide
  have told := ((stops []).amid Scripted.frontend Scripted.start
    stoppedByOthers quiet).2
  have stopped : (failed.engine.tick Wire.surroundings Scripted.frontend
      Scripted.start [] failed.world).outcome =
        .stop (.fault (.accept "too many open files")) := rfl
  exact ⟨rfl, told, stopped,
    (stops listenerFails).first Scripted.frontend Scripted.start [] _
      nofun stopped⟩

end Usage

end LatencyBench

/-
Where one frame of a session ends and the next one begins does not matter.

A tick takes what waits in the two queues, the intents before the events.  As
long as nobody asks for a stop and no tick meets a closed front-end, a session
is its machine, stepped with what the ticks find.  What is found after the end
has no effect, whether the engine applies it or leaves it in the queue; so a
list of events has the same outcome however it is cut into frames.
-/

import LatencyBench.Proofs.Run.Lockstep
import LatencyBench.Wire

namespace LatencyBench

variable {ω σ φ : Type}

/-! ### What ticks find -/

/-- A use that leaves the end of a session to the machine. -/
def EngineUse.LetsGoOn : EngineUse σ → Prop
  | .press _ => True
  | .requestStop => False
  | .beside _ => True
  | .tick view frontend _ => view.closeRequested frontend = false

/-- What a tick finds in the queues: the intents that wait at its start, with
the time at which they are applied, and the events that wait once they have
been.  An engine that has stopped leaves both where they are. -/
def Engine.batch (around : Surroundings ω σ) (meanwhile : List σ)
    (engine : Engine) (world : ω) : List Machine.Step :=
  let begun : Driven ω :=
    { engine := engine
      world := world }
  if engine.running then
    intentSteps around begun ++
      eventSteps (engine.midway around meanwhile world)
  else intentSteps around begun ++ eventSteps begun

namespace Usage

def batch (around : Surroundings ω σ) (usage : Usage ω) :
    EngineUse σ → List Machine.Step
  | .tick _ _ meanwhile => usage.engine.batch around meanwhile usage.world
  | _ => []

def found (around : Surroundings ω σ) (usage : Usage ω) :
    List (EngineUse σ) → List Machine.Step
  | [] => []
  | use :: rest =>
      usage.batch around use ++ (usage.after around use).found around rest

structure Free (usage : Usage ω) : Prop where
  inStep : usage.engine.InStep
  wanted : usage.engine.stopRequested = false

/-- How a session that is left to itself comes about: its machine is the first
one, stepped with what the ticks found, and nothing has an effect that was
found behind the end. -/
structure Folds (around : Surroundings ω σ) (config : Config) (world : ω)
    (uses : List (EngineUse σ)) : Prop where
  machine : ((start config world).run around uses).engine.machine =
    (Machine.start config.transport true).run
      ((start config world).found around uses)
  running : ((start config world).run around uses).engine.running = true ↔
    ((Machine.start config.transport true).run
      ((start config world).found around uses)).phase ≠ .terminated
  ignored : ∀ earlier step later,
    (start config world).found around uses = earlier ++ step :: later →
    ((Machine.start config.transport true).run
      (earlier ++ [step])).phase = .terminated →
    ((start config world).run around uses).engine.machine =
      (Machine.start config.transport true).run (earlier ++ [step])

end Usage

/-! ### A tick and what it finds -/

section Found

variable (around : Surroundings ω σ) {view : Frontend φ} {frontend : φ}
  {engine : Engine} {usage : Usage ω} {use : EngineUse σ}

theorem Engine.InStep.free_ticked (inStep : engine.InStep)
    (wanted : engine.stopRequested = false)
    (shown : view.closeRequested frontend = false) (meanwhile : List σ)
    (world : ω) :
    (engine.machine.phase = .terminated ∧
        (engine.tick around view frontend meanwhile world).engine = engine) ∨
      (engine.running = true ∧
        Framed engine (engine.framedMachine around meanwhile world)
          (engine.rendering around view frontend meanwhile world)
          (engine.tick around view frontend meanwhile world)) := by
  cases inStep.ticked around view frontend meanwhile world with
  | idle stopped same =>
      have finished : engine.machine.phase = .terminated := by
        simpa [stopped] using inStep.machine
      exact .inl ⟨finished, by rw [same]⟩
  | stopped _ asked _ =>
      rw [wanted] at asked
      cases asked
  | closed _ _ left _ =>
      rw [shown] at left
      cases left
  | framed running _ _ framed => exact .inr ⟨running, framed⟩

theorem Engine.InStep.tick_batch (inStep : engine.InStep)
    (wanted : engine.stopRequested = false)
    (shown : view.closeRequested frontend = false) (meanwhile : List σ)
    (world : ω) :
    (engine.tick around view frontend meanwhile world).engine.machine =
      engine.machine.run (engine.batch around meanwhile world) := by
  rcases inStep.free_ticked around wanted shown meanwhile world with
    ⟨finished, same⟩ | ⟨running, framed⟩
  · rw [same, Machine.run_of_terminated _ _ finished]
  · rw [framed.machine, batch, if_pos running, Machine.run_append]
    rfl

namespace Usage

theorem start_free (config : Config) (world : ω) :
    (start config world).Free :=
  { inStep := Engine.start_inStep config
    wanted := rfl }

theorem Free.after (free : usage.Free) (goesOn : use.LetsGoOn) :
    (usage.after around use).Free := by
  refine { inStep := after_inStep around usage use free.inStep, wanted := ?_ }
  cases use with
  | press intents => exact free.wanted
  | requestStop => exact goesOn.elim
  | beside step => exact free.wanted
  | tick view frontend meanwhile =>
      exact Engine.tick_wanted.trans free.wanted

theorem Free.after_machine (free : usage.Free) (goesOn : use.LetsGoOn) :
    (usage.after around use).engine.machine =
      usage.engine.machine.run (usage.batch around use) := by
  cases use with
  | press intents => rfl
  | requestStop => rfl
  | beside step => rfl
  | tick view frontend meanwhile =>
      exact free.inStep.tick_batch around free.wanted goesOn meanwhile
        usage.world

theorem Free.run_machine (free : usage.Free) (uses : List (EngineUse σ))
    (goOn : ∀ use ∈ uses, use.LetsGoOn) :
    (usage.run around uses).engine.machine =
      usage.engine.machine.run (usage.found around uses) := by
  induction uses generalizing usage with
  | nil => rfl
  | cons use rest inductionHypothesis =>
      have first := goOn use List.mem_cons_self
      have later := inductionHypothesis (free.after around first)
        fun other member => goOn other (List.mem_cons_of_mem use member)
      calc (usage.run around (use :: rest)).engine.machine
          = (usage.after around use).engine.machine.run
              ((usage.after around use).found around rest) := later
        _ = (usage.engine.machine.run (usage.batch around use)).run
              ((usage.after around use).found around rest) := by
            rw [free.after_machine around first]
        _ = usage.engine.machine.run (usage.found around (use :: rest)) := by
            rw [found, Machine.run_append]

theorem folds (config : Config) (world : ω) (uses : List (EngineUse σ))
    (goOn : ∀ use ∈ uses, use.LetsGoOn) : Folds around config world uses := by
  have machine := (start_free config world).run_machine around uses goOn
  have inStep := run_inStep around config world uses
  refine
    { machine := machine
      running := ?_
      ignored := ?_ }
  · rw [inStep.machine, machine]
    rfl
  · intro earlier step later split finished
    rw [machine, split, List.append_cons, Machine.run_append]
    exact Machine.run_of_terminated _ later finished

end Usage

end Found

/-! ### Lists of events cut into frames -/

/-- Surroundings that complete nothing in a call other than a send, where a
refusal is told at once. -/
def Surroundings.Quiet (around : Surroundings ω σ) : Prop :=
  ∀ world (made : ConnectionCall), (∀ payload, made.call ≠ .send payload) →
    (around.call world made).2 = []

/-- The same surroundings, going on by nothing but events from elsewhere. -/
def Surroundings.relaying (around : Surroundings ω σ) :
    Surroundings ω (List Event) :=
  { call := around.call
    step := fun world events => (world, events)
    notice := around.notice
    clock := around.clock }

/-- One frame of a session that nobody uses: some events arrive before the
tick, some during the tick, and a front-end is shown what came of them. -/
structure EventFrame : Type 1 where
  before : List Event
  amid : List (List Event)
  {φ : Type}
  view : Frontend φ
  frontend : φ

namespace EventFrame

def events (frame : EventFrame) : List Event :=
  frame.before ++ frame.amid.flatten

def OnlyShows (frame : EventFrame) : Prop :=
  frame.view.closeRequested frame.frontend = false ∧
    ∀ snapshot now,
      (frame.view.render frame.frontend snapshot now).intents = []

def uses (frame : EventFrame) : List (EngineUse (List Event)) :=
  [.beside frame.before, .tick frame.view frame.frontend frame.amid]

end EventFrame

namespace Usage

def ofFrames (around : Surroundings ω σ) (config : Config) (world : ω)
    (frames : List EventFrame) : Usage ω :=
  (start config world).run around.relaying (frames.flatMap EventFrame.uses)

/-- Two sessions that have come to the same: their machines agree, and both
go on, or both have stopped for the same reason. -/
structure Alike {ω' : Type} (first : Usage ω) (second : Usage ω') :
    Prop where
  machine : first.engine.machine = second.engine.machine
  running : first.engine.running = second.engine.running
  stops : ∀ reason,
    .stop reason ∈ first.outcomes ↔ .stop reason ∈ second.outcomes

/-- Whether an engine has no intents to apply, and events only when it has
stopped. -/
structure Drained (usage : Usage ω) : Prop extends usage.Free where
  intents : usage.engine.intents.toList = []
  events : usage.engine.running = true → usage.engine.events.toList = []

end Usage

/-! ### The calls that events lead to -/

theorem Machine.Transition.unsent {machine reached : Machine} {event : Event}
    {calls : List ConnectionCall}
    (taken : machine.Transition (.event event) reached calls)
    {made : ConnectionCall} (member : made ∈ calls) (payload : Payload) :
    made.call ≠ .send payload := by
  have parting (among : made.call ∈ [Call.close, Call.drop]) :
      made.call ≠ .send payload := by
    rcases List.mem_cons.mp among with close | rest
    · rw [close]
      exact nofun
    · rw [List.mem_singleton.mp rest]
      exact nofun
  cases taken with
  | adopt connection _ _ =>
      rw [List.mem_singleton.mp member]
      exact nofun
  | write _ _ => cases member
  | answer _ _ _ _ _ _ =>
      rw [List.mem_singleton.mp (mem_callsOnHeld.mp member).2]
      exact nofun
  | cancel _ => exact parting (mem_callsOnHeld.mp member).2
  | fail _ _ => exact parting (mem_callsOnHeld.mp member).2
  | ignore _ _ => exact parting (refusal_parts member).2

theorem Machine.callsOf_events_unsent (machine : Machine)
    (events : List Event) {made : ConnectionCall}
    (member : made ∈ machine.callsOf (events.map .event))
    (payload : Payload) : made.call ≠ .send payload := by
  induction events generalizing machine with
  | nil => cases member
  | cons event rest inductionHypothesis =>
      rw [List.map_cons, callsOf_cons] at member
      rcases List.mem_append.mp member with first | later
      · exact (machine.transition (.event event)).unsent first payload
      · exact inductionHypothesis _ later

section Frames

variable {around : Surroundings ω σ}

theorem Surroundings.Quiet.callAll (quiet : around.Quiet) (world : ω)
    (calls : List ConnectionCall)
    (unsent : ∀ made ∈ calls, ∀ payload, made.call ≠ .send payload) :
    (around.callAll world calls).2 = [] := by
  induction calls generalizing world with
  | nil => rfl
  | cons made rest inductionHypothesis =>
      have first := quiet world made (unsent made List.mem_cons_self)
      have later := inductionHypothesis (around.call world made).1
        fun other member => unsent other (List.mem_cons_of_mem made member)
      rw [Surroundings.callAll]
      dsimp only
      rw [first, later]
      rfl

theorem Wire.surroundings_quiet : Wire.surroundings.Quiet := by
  intro wire made unsent
  have silent (link : Link) : (link.perform made.call).2 = [] := by
    cases call : made.call with
    | send payload => exact absurd call (unsent payload)
    | arm => rfl
    | close => rfl
    | drop => rfl
  change (wire.endpoint.perform made).2 = []
  unfold Endpoint.perform
  split
  · rfl
  · split
    · exact silent _
    · rfl

theorem Surroundings.relaying_stepAll (world : ω)
    (arrivals : List (List Event)) :
    around.relaying.stepAll world arrivals = (world, arrivals.flatten) := by
  induction arrivals with
  | nil => rfl
  | cons events rest inductionHypothesis =>
      rw [stepAll]
      dsimp only [relaying] at inductionHypothesis ⊢
      rw [inductionHypothesis, List.flatten_cons]

namespace Engine

variable {engine : Engine} {world : ω} {view : Frontend φ} {frontend : φ}

theorem tick_events {meanwhile : List σ} (running : engine.running = true)
    (wanted : engine.stopRequested = false)
    (shown : view.closeRequested frontend = false)
    (goes : (engine.tick around view frontend meanwhile
      world).engine.running = true) :
    (engine.tick around view frontend meanwhile world).engine.events =
      (takeEvents around
        (engine.midway around meanwhile world)).engine.events := by
  rw [tick_frame running wanted shown, frame_eq] at goes ⊢
  dsimp only at goes ⊢
  cases finished :
      (engine.framedMachine around meanwhile world).termination with
  | none => rfl
  | some reason =>
      rw [finished] at goes
      cases goes

theorem takeEvents_events (quiet : around.Quiet) (driven : Driven ω) :
    (takeEvents around driven).engine.events.toList = [] := by
  have made := quiet.callAll driven.world
    (driven.engine.machine.callsOf (eventSteps driven))
    fun made member => driven.engine.machine.callsOf_events_unsent
      driven.engine.events.toList member
  change (Queue.empty.pushAll (around.callAll driven.world
    (driven.engine.machine.callsOf (eventSteps driven))).2).toList = []
  rw [made, Queue.toList_pushAll]
  rfl

theorem midway_unpressed (around : Surroundings ω σ) (world : ω)
    (idle : engine.intents.toList = []) (arrivals : List (List Event)) :
    (engine.midway around.relaying arrivals world).engine.machine =
        engine.machine ∧
      (engine.midway around.relaying arrivals world).engine.events.toList =
        engine.events.toList ++ arrivals.flatten := by
  let begun : Driven ω :=
    { engine := engine
      world := world }
  have nothing : intentSteps around begun = [] := by
    rw [intentSteps, idle, List.map_nil]
  have taken : takeIntents around.relaying begun =
      feed around.relaying
        { begun with engine := { engine with intents := .empty } } [] := by
    rw [← nothing]
    rfl
  rw [midway, taken]
  refine ⟨rfl, ?_⟩
  rw [goOn, Surroundings.relaying_stepAll]
  exact Queue.toList_pushAll _ _

end Engine

theorem Surroundings.Quiet.relaying (quiet : around.Quiet) :
    around.relaying.Quiet := quiet

namespace Usage

variable {usage : Usage ω}

theorem Drained.arrived (drained : usage.Drained)
    (running : usage.engine.running = true) (events : List Event) :
    (usage.after around.relaying (.beside events)).engine.events.toList =
      events := by
  change (usage.engine.events.pushAll events).toList = events
  rw [Queue.toList_pushAll, drained.events running, List.nil_append]

/-- In a frame the machine is stepped with the events that arrive. -/
theorem Drained.frame (drained : usage.Drained) (quiet : around.Quiet)
    (frame : EventFrame) (shows : frame.OnlyShows) :
    (usage.run around.relaying frame.uses).Drained ∧
      (usage.run around.relaying frame.uses).engine.machine =
        usage.engine.machine.run (frame.events.map .event) := by
  let arrived := usage.after around.relaying (.beside frame.before)
  let ticks : EngineUse (List Event) :=
    .tick frame.view frame.frontend frame.amid
  have goesOn : ticks.LetsGoOn := shows.1
  have free : arrived.Free := drained.toFree.after around.relaying trivial
  have last : (usage.run around.relaying frame.uses).Free :=
    free.after around.relaying goesOn
  rcases free.inStep.free_ticked around.relaying free.wanted shows.1
    frame.amid arrived.world with ⟨finished, same⟩ | ⟨running, framed⟩
  -- The engine has stopped: the events wait in vain, and would change nothing.
  · have engine : (usage.run around.relaying frame.uses).engine =
        arrived.engine := same
    refine ⟨{ last with intents := ?_, events := ?_ }, ?_⟩
    · rw [engine]
      exact drained.intents
    · intro goes
      rw [engine] at goes
      exact absurd finished (free.inStep.machine.mp goes)
    · rw [engine]
      exact (Machine.run_of_terminated _ _ finished).symm
  · have idle : arrived.engine.intents.toList = [] := drained.intents
    obtain ⟨machine, events⟩ :=
      Engine.midway_unpressed around arrived.world idle frame.amid
    have waiting : arrived.engine.events.toList = frame.before :=
      drained.arrived running frame.before
    refine ⟨{ last with intents := ?_, events := ?_ }, ?_⟩
    · exact framed.intents.trans (shows.2 _ _)
    · intro goes
      have left := Engine.tick_events running free.wanted shows.1 goes
      exact (congrArg Queue.toList left).trans
        (Engine.takeEvents_events quiet.relaying _)
    · refine framed.machine.trans ?_
      rw [Engine.framedMachine, Engine.eventSteps, machine, events, waiting]
      rfl

theorem Drained.frames (drained : usage.Drained) (quiet : around.Quiet)
    (frames : List EventFrame)
    (showing : ∀ frame ∈ frames, frame.OnlyShows) :
    (usage.run around.relaying (frames.flatMap EventFrame.uses)).Drained ∧
      (usage.run around.relaying
          (frames.flatMap EventFrame.uses)).engine.machine =
        usage.engine.machine.run
          ((frames.flatMap EventFrame.events).map .event) := by
  induction frames generalizing usage with
  | nil => exact ⟨drained, rfl⟩
  | cons frame rest inductionHypothesis =>
      obtain ⟨between, first⟩ :=
        drained.frame quiet frame (showing frame List.mem_cons_self)
      obtain ⟨last, later⟩ := inductionHypothesis between
        fun other member => showing other (List.mem_cons_of_mem frame member)
      have split :
          usage.run around.relaying
              ((frame :: rest).flatMap EventFrame.uses) =
            (usage.run around.relaying frame.uses).run around.relaying
              (rest.flatMap EventFrame.uses) := List.foldl_append
      rw [split]
      refine ⟨last, ?_⟩
      rw [later, first, List.flatMap_cons, List.map_append,
        Machine.run_append]

theorem start_drained (config : Config) (world : ω) :
    (start config world).Drained :=
  { start_free config world with
    intents := rfl
    events := fun _ => rfl }

theorem run_told (around : Surroundings ω σ) (config : Config) (world : ω)
    (uses : List (EngineUse σ)) :
    Told ((start config world).run around uses).engine
      ((start config world).run around uses).outcomes :=
  (run_keeps around
    (fun usage => usage.engine.InStep ∧ Told usage.engine usage.outcomes)
    (fun usage use holds =>
      ⟨after_inStep around usage use holds.1, after_told use holds.1 holds.2⟩)
    (start config world) ⟨Engine.start_inStep config, .going 0 rfl⟩ uses).2

theorem told_stop_iff {engine : Engine} {outcomes : List Outcome}
    (told : Told engine outcomes) (inStep : engine.InStep)
    (reason : Termination) :
    .stop reason ∈ outcomes ↔ engine.machine.termination = some reason := by
  constructor
  · intro stops
    exact (told.reported stops).2
  · intro ended
    cases told with
    | going _ running =>
        have finished := inStep.consistent.reported.mp (by rw [ended]; rfl)
        exact absurd finished (inStep.machine.mp running)
    | ended count again first _ reported =>
        cases reported.symm.trans ended
        exact List.mem_append_right _
          (List.mem_replicate.mpr ⟨Nat.succ_ne_zero again, rfl⟩)

end Usage

end Frames

namespace Usage

theorem alike_of_machine {ω' σ' : Type} (around : Surroundings ω σ)
    (around' : Surroundings ω' σ') (config : Config) (world : ω)
    (world' : ω') (uses : List (EngineUse σ)) (uses' : List (EngineUse σ'))
    (same : ((start config world).run around uses).engine.machine =
      ((start config world').run around' uses').engine.machine) :
    Alike ((start config world).run around uses)
      ((start config world').run around' uses') := by
  have inStep := run_inStep around config world uses
  have inStep' := run_inStep around' config world' uses'
  refine
    { machine := same
      running := ?_
      stops := fun reason => ?_ }
  · rw [Bool.eq_iff_iff, inStep.machine, inStep'.machine, same]
  · rw [told_stop_iff (run_told around config world uses) inStep,
      told_stop_iff (run_told around' config world' uses') inStep', same]

theorem ofFrames_machine {around : Surroundings ω σ} (quiet : around.Quiet)
    (config : Config) (world : ω) (frames : List EventFrame)
    (showing : ∀ frame ∈ frames, frame.OnlyShows) :
    (ofFrames around config world frames).engine.machine =
      (Machine.start config.transport true).run
        ((frames.flatMap EventFrame.events).map .event) :=
  ((start_drained config world).frames quiet frames showing).2

structure FrameBoundariesVanish (config : Config) : Prop where
  /-- Whatever is done with an engine that is left to end by itself, in any
  surroundings: its machine is stepped with what the ticks find, in order. -/
  folds : ∀ {ω σ : Type} (around : Surroundings ω σ) (world : ω)
    (uses : List (EngineUse σ)), (∀ use ∈ uses, use.LetsGoOn) →
    Folds around config world uses
  wire : Wire.surroundings.Quiet
  framed : ∀ {ω σ : Type} (around : Surroundings ω σ) (world : ω)
    (frames : List EventFrame), around.Quiet →
    (∀ frame ∈ frames, frame.OnlyShows) →
    (ofFrames around config world frames).engine.machine =
      (Machine.start config.transport true).run
        ((frames.flatMap EventFrame.events).map .event)
  /-- However such a list is cut into frames, the session comes to the
  same. -/
  cut : ∀ {ω σ ω' σ' : Type} (around : Surroundings ω σ)
    (around' : Surroundings ω' σ') (world : ω) (world' : ω')
    (frames frames' : List EventFrame), around.Quiet → around'.Quiet →
    (∀ frame ∈ frames, frame.OnlyShows) →
    (∀ frame ∈ frames', frame.OnlyShows) →
    frames.flatMap EventFrame.events = frames'.flatMap EventFrame.events →
    Alike (ofFrames around config world frames)
      (ofFrames around' config world' frames')

/-- In a session that is left to end by itself only the order matters in which
things are queued, and not in which frame. -/
theorem frame_boundaries_vanish (config : Config) :
    FrameBoundariesVanish config where
  folds around world uses goOn := folds around config world uses goOn
  wire := Wire.surroundings_quiet
  framed around world frames quiet showing :=
    ofFrames_machine quiet config world frames showing
  cut around around' world world' frames frames' quiet quiet' showing
      showing' same := by
    apply alike_of_machine
    refine (ofFrames_machine quiet config world frames showing).trans ?_
    rw [same]
    exact (ofFrames_machine quiet' config world' frames' showing').symm

end Usage

end LatencyBench

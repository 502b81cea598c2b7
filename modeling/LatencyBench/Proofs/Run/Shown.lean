/-
What a front-end is shown of a session.

A frame applies any number of events and shows one snapshot, so from one
snapshot to the next lies a whole batch.  What can be said about the list of
all snapshots needs little about the batches: a frame takes one sample at most,
measurements change only with a sample, and a machine never waits again for a
connection.  The end of a session is shown only if it came about within a
frame, and then the frame is the last.
-/

import LatencyBench.Proofs.Run.Lockstep
import LatencyBench.Proofs.Run.SampleReports
import Mathlib.Data.List.Chain

namespace LatencyBench

variable {ω σ φ : Type}

theorem entry_concat {Entry : Type} {entries : List Entry} {last entry : Entry}
    {index : Nat} (found : (entries ++ [last])[index]? = some entry) :
    entries[index]? = some entry ∨
      index = entries.length ∧ entry = last := by
  rw [List.getElem?_append] at found
  split at found
  · exact .inl found
  · rw [List.getElem?_singleton] at found
    split at found
    · cases found
      exact .inr ⟨by omega, rfl⟩
    · cases found

/-! ### Snapshots -/

structure Snapshot.Coherent (snapshot : Snapshot) : Prop where
  connected : snapshot.connected = true ↔
    snapshot.phase = .connected ∨ snapshot.phase = .sending ∨
      snapshot.phase = .awaitingAck
  pending : snapshot.pending = true ↔
    snapshot.phase = .sending ∨ snapshot.phase = .awaitingAck

/-- Whether a snapshot can be the next one after another. -/
structure Snapshot.LeadsTo (earlier later : Snapshot) : Prop where
  samples : earlier.stats.samples ≤ later.stats.samples ∧
    later.stats.samples ≤ earlier.stats.samples + 1
  unmeasured : later.stats.samples = earlier.stats.samples →
    later.lastRoundTrip = earlier.lastRoundTrip ∧
      later.stats = earlier.stats

theorem Machine.Consistent.coherent {machine : Machine}
    (consistent : machine.Consistent) (frame : Nat) :
    (Snapshot.ofMachine machine frame).Coherent where
  connected := by
    change machine.phase.isConnected = true ↔ machine.phase = .connected ∨
      machine.phase = .sending ∨ machine.phase = .awaitingAck
    cases machine.phase <;> simp [Phase.isConnected]
  pending := consistent.outstanding

theorem Machine.Records.leadsTo {before after : Machine} {trips : List Float}
    (records : Records before after trips) (counts : before.CountsOn after)
    {earlier : Snapshot} (stats : earlier.stats = before.stats)
    (last : earlier.lastRoundTrip = before.measurement.lastRoundTrip)
    (frame : Nat) : earlier.LeadsTo (.ofMachine after frame) where
  samples := by
    rw [stats]
    exact counts.samples
  unmeasured := by
    intro same
    change after.stats.samples = earlier.stats.samples at same
    rw [stats, records.samples] at same
    have nothing : trips = [] := List.eq_nil_of_length_eq_zero (by omega)
    subst nothing
    rw [last, stats]
    exact ⟨records.last, records.stats⟩

/-! ### Ends that come from events -/

/-- Whether the reason for an end is given by an event. -/
def Termination.OfEvent (reason : Termination) : Prop :=
  reason = .cancelled ∨ ∃ fault, reason = .fault fault

/-- Whether the session of a machine was ended by an event. -/
def Machine.EndedByEvent (machine : Machine) : Prop :=
  ∃ reason, machine.termination = some reason ∧ reason.OfEvent

structure Moment.EndsByEvent (moment : Moment ω) : Prop where
  going : moment.machine.phase ≠ .terminated
  event : ∃ event, moment.step = .event event
  ends : (moment.machine.after moment.step).phase = .terminated

theorem Event.ofEvent_of_ending {event : Event} {reason : Termination}
    (ending : event.ending? = some reason) : reason.OfEvent := by
  cases event with
  | cancelled =>
      cases ending
      exact .inl rfl
  | failed fault =>
      cases ending
      exact .inr ⟨fault, rfl⟩
  | established connection => cases ending
  | received payload receivedAt => cases ending
  | sent length => cases ending

namespace Machine

variable {machine : Machine}

theorem Consistent.silent (consistent : machine.Consistent)
    (going : machine.phase ≠ .terminated) : machine.termination = none := by
  cases finished : machine.termination with
  | none => rfl
  | some reason =>
      have ended := consistent.reported.mp (by rw [finished]; rfl)
      exact absurd ended going

theorem Consistent.not_endedByEvent (consistent : machine.Consistent)
    (going : machine.phase ≠ .terminated) : ¬ machine.EndedByEvent := by
  rintro ⟨reason, finished, _⟩
  rw [consistent.silent going] at finished
  cases finished

theorem endedByEvent_after_iff (step : Step)
    (going : machine.phase ≠ .terminated)
    (ends : (machine.after step).phase = .terminated)
    (orderly : ∀ reason, step = .shutdown reason → ¬ reason.OfEvent) :
    (machine.after step).EndedByEvent ↔ ∃ event, step = .event event := by
  obtain ⟨reached, calls, next, taken⟩ := machine.exists_transition step
  rw [next] at ends ⊢
  cases taken with
  | cancel _ => exact ⟨fun _ => ⟨_, rfl⟩, fun _ => ⟨_, rfl, .inl rfl⟩⟩
  | fail fault _ =>
      exact ⟨fun _ => ⟨_, rfl⟩, fun _ => ⟨_, rfl, .inr ⟨fault, rfl⟩⟩⟩
  | shut reason _ =>
      constructor
      · rintro ⟨other, finished, ofEvent⟩
        cases finished
        exact absurd ofEvent (orderly reason rfl)
      · rintro ⟨event, same⟩
        cases same
  | ignore _ _ => exact absurd ends going
  | adopt _ _ _ => cases ends
  | issue _ _ _ _ _ => cases ends
  | write _ _ => cases ends
  | answer _ _ _ _ _ _ => cases ends

end Machine

/-- Whether a moment, if it shuts a machine down that goes on, does so for a
reason that no event gives. -/
def Moment.Orderly (moment : Moment ω) : Prop :=
  moment.machine.phase ≠ .terminated →
    ∀ reason, moment.step = .shutdown reason → ¬ reason.OfEvent

theorem Leads.still {first last : Machine} {moments : List (Moment ω)}
    (leads : Leads first moments last) (ended : first.phase = .terminated) :
    last = first ∧ ∀ moment ∈ moments, moment.machine = first := by
  induction leads with
  | stay machine => exact ⟨rfl, List.forall_mem_nil _⟩
  | take moment rest last _ inductionHypothesis =>
      have same := Machine.after_of_terminated _ moment.step ended
      rw [same] at inductionHypothesis
      obtain ⟨reached, others⟩ := inductionHypothesis ended
      refine ⟨reached, ?_⟩
      rintro other (_ | ⟨_, member⟩)
      · rfl
      · exact others other member

/-- A session that goes on at first is ended by an event exactly if at one of
its moments an event ends it. -/
theorem Leads.endedByEvent_iff {first last : Machine}
    {moments : List (Moment ω)} (leads : Leads first moments last)
    (consistent : first.Consistent) (going : first.phase ≠ .terminated)
    (orderly : ∀ moment ∈ moments, moment.Orderly) :
    last.EndedByEvent ↔ ∃ moment ∈ moments, moment.EndsByEvent := by
  induction leads with
  | stay machine =>
      constructor
      · exact fun ended => absurd ended (consistent.not_endedByEvent going)
      · rintro ⟨moment, member, _⟩
        cases member
  | take moment rest last onward inductionHypothesis =>
      have here := orderly moment List.mem_cons_self going
      have later : ∀ other ∈ rest, other.Orderly := fun other member =>
        orderly other (List.mem_cons_of_mem moment member)
      by_cases ends : (moment.machine.after moment.step).phase = .terminated
      · obtain ⟨same, others⟩ := onward.still ends
        rw [same, Machine.endedByEvent_after_iff _ going ends here]
        constructor
        · exact fun event => ⟨moment, List.mem_cons_self, going, event, ends⟩
        · rintro ⟨other, _ | ⟨_, member⟩, endsThere⟩
          · exact endsThere.event
          · have going := endsThere.going
            rw [others other member] at going
            exact absurd ends going
      · rw [inductionHypothesis
          (moment.machine.after_consistent _ consistent) ends later]
        constructor
        · rintro ⟨other, member, endsThere⟩
          exact ⟨other, List.mem_cons_of_mem moment member, endsThere⟩
        · rintro ⟨other, _ | ⟨_, member⟩, endsThere⟩
          · exact absurd endsThere.ends ends
          · exact ⟨other, member, endsThere⟩

/-! ### The shutdowns of a run -/

namespace Engine

theorem shutdown_orderly {around : Surroundings ω σ} (driven : Driven ω)
    {reason : Termination} (ownReason : ¬ reason.OfEvent) :
    ∀ moment ∈ driven.moments around [.shutdown reason], moment.Orderly := by
  intro moment member _ other same
  have step := Machine.moments_step_mem _ _ _ member
  rw [List.mem_singleton.mp step] at same
  cases same
  exact ownReason

theorem not_ofEvent_stopped : ¬ Termination.stopped.OfEvent := by
  rintro (same | ⟨fault, same⟩) <;> cases same

theorem not_ofEvent_windowClosed : ¬ Termination.windowClosed.OfEvent := by
  rintro (same | ⟨fault, same⟩) <;> cases same

theorem InStep.frame_orderly {engine : Engine} (inStep : engine.InStep)
    (around : Surroundings ω σ) (meanwhile : List σ) (world : ω) :
    ∀ moment ∈ frameMoments around meanwhile
        { engine := engine
          world := world }, moment.Orderly := by
  intro moment member going reason same
  rcases List.mem_append.mp member with applied | closing
  · rcases List.mem_append.mp applied with intents | events
    · have step := Machine.moments_step_mem _ _ _ intents
      rw [same] at step
      obtain ⟨intent, _, other⟩ := List.mem_map.mp step
      cases other
    · have step := Machine.moments_step_mem _ _ _ events
      rw [same] at step
      obtain ⟨event, _, other⟩ := List.mem_map.mp step
      cases other
  · have consistent :
        (engine.framedMachine around meanwhile world).Consistent :=
      inStep.framed_consistent
    change moment ∈ closingMoments around
      (takeEvents around (engine.midway around meanwhile world)) at closing
    unfold closingMoments at closing
    split at closing
    · cases closing
    · rename_i finished
      rw [List.mem_singleton.mp closing] at going
      have ended := consistent.reported.mp (Option.isSome_of_eq_some finished)
      exact absurd ended going

theorem InStep.tick_orderly {engine : Engine} (inStep : engine.InStep)
    (around : Surroundings ω σ) (view : Frontend φ) (frontend : φ)
    (meanwhile : List σ) (world : ω) :
    ∀ moment ∈ engine.tickMoments around view frontend meanwhile world,
      moment.Orderly := by
  unfold tickMoments
  split
  · exact List.forall_mem_nil _
  split
  · exact shutdown_orderly _ not_ofEvent_stopped
  split
  · exact shutdown_orderly _ not_ofEvent_windowClosed
  · exact inStep.frame_orderly around meanwhile world

theorem release_orderly (engine : Engine) (around : Surroundings ω σ)
    (world : ω) :
    ∀ moment ∈ engine.releaseMoments around world, moment.Orderly := by
  unfold releaseMoments
  split
  · exact shutdown_orderly _ not_ofEvent_stopped
  · exact List.forall_mem_nil _

theorem InStep.framed_endedByEvent {engine : Engine}
    (inStep : engine.InStep) (running : engine.running = true)
    (around : Surroundings ω σ) (meanwhile : List σ) (world : ω) :
    let last := engine.framedMachine around meanwhile world
    last.phase = .terminated ↔ last.EndedByEvent := by
  intro last
  have consistent : last.Consistent := inStep.framed_consistent
  constructor
  · intro ended
    obtain ⟨reason, finished⟩ :=
      Option.isSome_iff_exists.mp (consistent.reported.mpr ended)
    obtain ⟨before, event, later, _, _, ending, _⟩ :=
      Machine.run_events_ending inStep.midway_consistent
        (inStep.midway_going (inStep.machine.mp running)) finished
    exact ⟨reason, finished, Event.ofEvent_of_ending ending⟩
  · exact fun endedByEvent =>
      Decidable.not_not.mp fun going =>
        consistent.not_endedByEvent going endedByEvent

end Engine

namespace Run

variable {run : Run ω φ}

theorem step_inStep (around : Surroundings ω σ) (view : Frontend φ)
    (inStep : run.engine.InStep) (step : RunStep σ) :
    (run.step around view step).engine.InStep := by
  cases step with
  | press intents => exact { inStep with }
  | beside step => exact { inStep with }
  | requestStop => exact { inStep with }
  | tick meanwhile =>
      exact inStep.tick around view run.frontend meanwhile run.world
  | release => exact inStep.release around run.world

theorem moments_orderly (around : Surroundings ω σ) (view : Frontend φ)
    (inStep : run.engine.InStep) (all : List (RunStep σ)) :
    ∀ moment ∈ run.moments around view all, moment.Orderly := by
  induction all generalizing run with
  | nil => exact List.forall_mem_nil _
  | cons step rest inductionHypothesis =>
      intro moment member
      rcases List.mem_append.mp member with here | later
      · cases step with
        | press intents => cases here
        | beside step => cases here
        | requestStop => cases here
        | tick meanwhile =>
            exact inStep.tick_orderly around view run.frontend meanwhile
              run.world moment here
        | release =>
            exact run.engine.release_orderly around run.world moment here
      · exact inductionHypothesis (step_inStep around view inStep step) moment
          later

/-! ### What has been shown -/

/-- What holds of the snapshots that a front-end has been shown. -/
structure Shows (run : Run ω φ) : Prop where
  counted : run.engine.frames = run.shown.length
  numbered : ∀ (index : Nat) (snapshot : Snapshot),
    run.shown[index]? = some snapshot → snapshot.frame = index
  coherent : ∀ snapshot ∈ run.shown, snapshot.Coherent
  chained : List.IsChain Snapshot.LeadsTo run.shown
  met : List.Pairwise (fun earlier later : Snapshot =>
    earlier.connected = true → later.phase ≠ .awaitingConnection) run.shown
  ending : (∃ snapshot ∈ run.shown, snapshot.phase = .terminated) ↔
    run.engine.machine.EndedByEvent
  last : ∀ (index : Nat) (snapshot : Snapshot),
    run.shown[index]? = some snapshot → snapshot.phase = .terminated →
      index + 1 = run.shown.length

/-- The invariant: what has been shown, and how the machine goes on from the
last of it. -/
structure Showing (run : Run ω φ) : Prop extends run.Shows where
  inStep : run.engine.InStep
  answered : run.engine.machine.Answered
  latest : ∀ snapshot ∈ run.shown.getLast?,
    snapshot.stats = run.engine.machine.stats ∧
      snapshot.lastRoundTrip =
        run.engine.machine.measurement.lastRoundTrip
  waiting : run.engine.machine.phase = .awaitingConnection →
    ∀ snapshot ∈ run.shown, snapshot.connected = false

theorem start_showing (config : Config) (world : ω) (frontend : φ) :
    (start config world frontend).Showing where
  counted := rfl
  numbered := by simp [start]
  coherent := List.forall_mem_nil _
  chained := .nil
  met := .nil
  ending := by
    constructor
    · rintro ⟨snapshot, member, _⟩
      cases member
    · rintro ⟨reason, finished, _⟩
      cases finished
  last := by simp [start]
  inStep := Engine.start_inStep config
  answered := Machine.start_answered config.transport true
  latest := by simp [start]
  waiting := fun _ => List.forall_mem_nil _

theorem Showing.unended (showing : run.Showing)
    (running : run.engine.running = true) :
    ∀ snapshot ∈ run.shown, snapshot.phase ≠ .terminated := by
  intro snapshot member ended
  have endedByEvent := showing.ending.mp ⟨snapshot, member, ended⟩
  exact showing.inStep.consistent.not_endedByEvent
    (showing.inStep.machine.mp running) endedByEvent

/-- Nothing is shown in a step that takes no sample and ends no session but
from outside. -/
theorem Showing.quiet (showing : run.Showing) {next : Run ω φ}
    (shown : next.shown = run.shown)
    (frames : next.engine.frames = run.engine.frames)
    (inStep : next.engine.InStep) (answered : next.engine.machine.Answered)
    (measured : next.engine.machine.stats = run.engine.machine.stats ∧
      next.engine.machine.measurement.lastRoundTrip =
        run.engine.machine.measurement.lastRoundTrip)
    (waits : next.engine.machine.phase = .awaitingConnection →
      run.engine.machine.phase = .awaitingConnection)
    (ends : next.engine.machine.EndedByEvent ↔
      run.engine.machine.EndedByEvent) : next.Showing where
  counted := by rw [frames, shown]; exact showing.counted
  numbered := by rw [shown]; exact showing.numbered
  coherent := by rw [shown]; exact showing.coherent
  chained := by rw [shown]; exact showing.chained
  met := by rw [shown]; exact showing.met
  ending := by rw [shown, ends]; exact showing.ending
  last := by rw [shown]; exact showing.last
  inStep := inStep
  answered := answered
  latest := by rw [shown, measured.1, measured.2]; exact showing.latest
  waiting := by rw [shown]; exact fun waiting => showing.waiting (waits waiting)

/-- A session that is ended from outside shows nothing any more. -/
theorem Showing.halted (showing : run.Showing)
    (running : run.engine.running = true) {next : Run ω φ}
    {reached : Tick ω φ} {reason : Termination}
    (halted : Engine.Halted run.frontend run.engine reason reached)
    (ownReason : ¬ reason.OfEvent) (engine : next.engine = reached.engine)
    (shown : next.shown = run.shown)
    (answered : next.engine.machine.Answered) : next.Showing := by
  rw [engine] at answered
  refine showing.quiet shown ?_ ?_ ?_ ?_ ?_ ?_
  · rw [engine, halted.frames]
  · rw [engine]
    exact halted.inStep
  · rw [engine]
    exact answered
  · rw [engine]
    exact halted.measured
  · rw [engine, halted.machine]
    exact nofun
  · rw [engine, halted.machine]
    constructor
    · rintro ⟨other, finished, ofEvent⟩
      cases finished
      exact absurd ofEvent ownReason
    · exact fun ended => absurd ended
        (showing.inStep.consistent.not_endedByEvent
          (showing.inStep.machine.mp running))

/-- A frame shows one snapshot more, which follows the last. -/
theorem Showing.framed (showing : run.Showing)
    (running : run.engine.running = true) {next : Run ω φ}
    (frames : next.engine.frames = run.engine.frames + 1)
    (shown : next.shown = run.shown ++
      [.ofMachine next.engine.machine run.engine.frames])
    (inStep : next.engine.InStep) (answered : next.engine.machine.Answered)
    {trips : List Float}
    (records : run.engine.machine.Records next.engine.machine trips)
    (counts : run.engine.machine.CountsOn next.engine.machine)
    (left : run.engine.machine.phase ≠ .awaitingConnection →
      next.engine.machine.phase ≠ .awaitingConnection)
    (ending : next.engine.machine.phase = .terminated ↔
      next.engine.machine.EndedByEvent) : next.Showing where
  counted := by
    rw [frames, shown, showing.counted, List.length_append]
    rfl
  numbered := by
    intro index snapshot found
    rw [shown] at found
    rcases entry_concat found with earlier | ⟨new, rfl⟩
    · exact showing.numbered index snapshot earlier
    · rw [new]
      exact showing.counted
  coherent := by
    rw [shown]
    exact List.forall_mem_append.mpr ⟨showing.coherent,
      List.forall_mem_singleton.mpr (inStep.consistent.coherent _)⟩
  chained := by
    rw [shown]
    refine showing.chained.append (.singleton _) ?_
    rintro earlier latest later ⟨⟩
    obtain ⟨stats, last⟩ := showing.latest earlier latest
    exact records.leadsTo counts stats last _
  met := by
    rw [shown]
    refine List.pairwise_append.mpr
      ⟨showing.met, List.pairwise_singleton _ _, ?_⟩
    intro earlier member
    refine List.forall_mem_singleton.mpr fun connected => ?_
    refine left fun waiting => ?_
    rw [showing.waiting waiting earlier member] at connected
    cases connected
  ending := by
    rw [← ending, shown]
    constructor
    · rintro ⟨snapshot, member, ended⟩
      rcases List.mem_append.mp member with earlier | new
      · exact absurd ended (showing.unended running snapshot earlier)
      · rw [List.mem_singleton.mp new] at ended
        exact ended
    · exact fun ended => ⟨_, List.mem_append_right _ (.head _), ended⟩
  last := by
    intro index snapshot found ended
    rw [shown] at found ⊢
    rcases entry_concat found with earlier | ⟨new, rfl⟩
    · have member := List.mem_of_getElem? earlier
      exact absurd ended (showing.unended running snapshot member)
    · rw [new, List.length_append]
      rfl
  inStep := inStep
  answered := answered
  latest := by
    rw [shown, List.getLast?_concat]
    rintro snapshot ⟨⟩
    exact ⟨rfl, rfl⟩
  waiting := by
    intro waiting
    rw [shown]
    have waited : run.engine.machine.phase = .awaitingConnection :=
      Decidable.not_not.mp fun gone => left gone waiting
    refine List.forall_mem_append.mpr ⟨showing.waiting waited,
      List.forall_mem_singleton.mpr ?_⟩
    change next.engine.machine.phase.isConnected = false
    rw [waiting]
    rfl

/-- The step lemma for ticks. -/
theorem Showing.tick (showing : run.Showing) (around : Surroundings ω σ)
    (view : Frontend φ) (meanwhile : List σ) :
    (run.tick around view meanwhile).Showing := by
  have inStep := showing.inStep
  have next := inStep.tick around view run.frontend meanwhile run.world
  have answered : (run.tick around view meanwhile).engine.machine.Answered :=
    Engine.tick_answered showing.answered
  have leads := Engine.tick_leads around view run.frontend meanwhile
    run.engine run.world
  cases inStep.ticked around view run.frontend meanwhile run.world with
  | idle _ same =>
      have engine : (run.tick around view meanwhile).engine = run.engine :=
        congrArg Tick.engine same
      have shown : (run.tick around view meanwhile).shown = run.shown := by
        change run.shown ++ Option.toList _ = _
        rw [same]
        exact List.append_nil _
      refine showing.quiet shown ?_ next answered ?_ ?_ ?_
      · rw [engine]
      · rw [engine]
        exact ⟨rfl, rfl⟩
      · rw [engine]
        exact id
      · rw [engine]
  | stopped running _ halted =>
      refine showing.halted running halted Engine.not_ofEvent_stopped rfl ?_
        answered
      change run.shown ++ Option.toList _ = _
      rw [halted.shown]
      exact List.append_nil _
  | closed running _ _ halted =>
      refine showing.halted running halted Engine.not_ofEvent_windowClosed
        rfl ?_ answered
      change run.shown ++ Option.toList _ = _
      rw [halted.shown]
      exact List.append_nil _
  | framed running _ _ framed =>
      refine showing.framed running framed.frames ?_ next answered
        (leads.records inStep.consistent)
        (inStep.tick_countsOn showing.answered around view run.frontend
          meanwhile run.world) ?_ ?_
      · change run.shown ++ Option.toList _ = run.shown ++ [.ofMachine _ _]
        rw [framed.shown]
        change _ = run.shown ++ [.ofMachine
          (run.engine.tick around view run.frontend meanwhile
            run.world).engine.machine _]
        rw [framed.machine]
        rfl
      · exact leads.keeps fun machine step =>
          (machine.transition step).left
      · change (run.engine.tick around view run.frontend meanwhile
            run.world).engine.machine.phase = _ ↔
          (run.engine.tick around view run.frontend meanwhile
            run.world).engine.machine.EndedByEvent
        rw [framed.machine]
        exact inStep.framed_endedByEvent running around meanwhile run.world

theorem Showing.step (showing : run.Showing) (around : Surroundings ω σ)
    (view : Frontend φ) (step : RunStep σ) :
    (run.step around view step).Showing := by
  have inStep := step_inStep around view showing.inStep step
  have answered := (run.step_leads around view step).keeps
    Machine.after_answered showing.answered
  cases step with
  | press intents =>
      exact showing.quiet rfl rfl inStep answered ⟨rfl, rfl⟩ id .rfl
  | beside step =>
      exact showing.quiet rfl rfl inStep answered ⟨rfl, rfl⟩ id .rfl
  | requestStop =>
      exact showing.quiet rfl rfl inStep answered ⟨rfl, rfl⟩ id .rfl
  | tick meanwhile => exact showing.tick around view meanwhile
  | release =>
      cases running : run.engine.running with
      | false =>
          have engine :
              (run.step around view .release).engine = run.engine := by
            exact congrArg Driven.engine (Engine.release_over running)
          refine showing.quiet rfl ?_ inStep answered ?_ ?_ ?_
          · rw [engine]
          · rw [engine]
            exact ⟨rfl, rfl⟩
          · rw [engine]
            exact id
          · rw [engine]
      | true =>
          obtain ⟨reached, halted, same⟩ := showing.inStep.released running
            around run.world run.frontend
          exact showing.halted running halted Engine.not_ofEvent_stopped
            same rfl answered

/-- The run lemma. -/
theorem Showing.steps (showing : run.Showing) (around : Surroundings ω σ)
    (view : Frontend φ) (all : List (RunStep σ)) :
    (run.steps around view all).Showing := by
  induction all generalizing run with
  | nil => exact showing
  | cons step rest inductionHypothesis =>
      exact inductionHypothesis (showing.step around view step)

theorem Showing.untilStop (showing : run.Showing)
    (around : Surroundings ω σ) (view : Frontend φ)
    (settle : ω → ω × List Event) (count : Nat) :
    (run.untilStop around view settle count).1.Showing := by
  refine untilStop_keeps Showing ?_ ?_ count run showing
  · exact fun run showing => showing.tick around view []
  · exact fun run showing => showing.quiet rfl rfl { showing.inStep with }
      showing.answered ⟨rfl, rfl⟩ id .rfl

end Run

/-- The snapshots of a session, whatever its front-end and its surroundings do:
they are numbered from zero, their flags agree with their phases, samples grow
by one at most, nothing measured changes without a sample, and a session that
was shown connected is never shown waiting.  The end of a session is shown
exactly if an event of a frame brings it about, and then last. -/
theorem session_shows_its_course (around : Surroundings ω σ)
    (view : Frontend φ) (config : Config) (world : ω) (frontend : φ)
    (all : List (RunStep σ)) :
    let before : Run ω φ := .start config world frontend
    let after := before.steps around view all
    after.Shows ∧
      ((∃ snapshot ∈ after.shown, snapshot.phase = .terminated) ↔
        ∃ moment ∈ before.moments around view all, moment.EndsByEvent) ∧
      ∀ (settle : ω → ω × List Event) (count : Nat),
        (after.untilStop around view settle count).1.Shows := by
  intro before after
  have first : before.Showing := Run.start_showing config world frontend
  have showing : after.Showing := first.steps around view all
  have leads := before.steps_lead around view all
  have orderly := Run.moments_orderly around view first.inStep all
  refine ⟨showing.toShows, ?_, ?_⟩
  · rw [showing.ending]
    exact leads.endedByEvent_iff first.inStep.consistent nofun orderly
  · intro settle count
    exact (showing.untilStop around view settle count).toShows

end LatencyBench

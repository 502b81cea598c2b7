/-
The quota of the headless front-end.

If nobody else presses the send control, a session that is shown to the
headless front-end with a limit never sends more commands than that, and a
session that the front-end closes has sent and had answered exactly as many.
The front-end presses only below the limit and while nothing is outstanding,
so a press that waits always leaves room for one more command.
-/

import LatencyBench.Frontend.Auto
import LatencyBench.Proofs.Run.Lockstep
import LatencyBench.Proofs.Run.SendControl
import LatencyBench.Wire

namespace LatencyBench

variable {ω σ : Type}

/-! ### The counters only grow -/

theorem Machine.after_counters (machine : Machine) (step : Machine.Step) :
    machine.sends ≤ (machine.after step).sends ∧
      machine.stats.samples ≤ (machine.after step).stats.samples := by
  obtain ⟨reached, calls, next, taken⟩ := machine.exists_transition step
  rw [next]
  cases taken with
  | adopt _ _ _ => exact ⟨Nat.le_refl _, Nat.le_refl _⟩
  | issue _ _ _ _ _ => exact ⟨Nat.le_succ _, Nat.le_refl _⟩
  | write _ _ => exact ⟨Nat.le_refl _, Nat.le_refl _⟩
  | answer _ issuedAt receivedAt _ _ _ =>
      have more := machine.answered_samples issuedAt receivedAt
      exact ⟨Nat.le_refl _, by omega⟩
  | cancel _ => exact ⟨Nat.le_refl _, Nat.le_refl _⟩
  | fail _ _ => exact ⟨Nat.le_refl _, Nat.le_refl _⟩
  | shut _ _ => exact ⟨Nat.le_refl _, Nat.le_refl _⟩
  | ignore _ _ => exact ⟨Nat.le_refl _, Nat.le_refl _⟩

theorem Leads.counters {first last : Machine} {moments : List (Moment ω)}
    (leads : Leads first moments last) :
    first.sends ≤ last.sends ∧ first.stats.samples ≤ last.stats.samples := by
  induction leads with
  | stay machine => exact ⟨Nat.le_refl _, Nat.le_refl _⟩
  | take moment rest last _ inductionHypothesis =>
      have grew := moment.machine.after_counters moment.step
      omega

/-- At no moment has a machine counted more than at the end. -/
theorem Leads.counted {first last : Machine} {moments : List (Moment ω)}
    (leads : Leads first moments last) :
    ∀ moment ∈ moments, moment.machine.sends ≤ last.sends ∧
      moment.machine.stats.samples ≤ last.stats.samples := by
  induction leads with
  | stay machine =>
      intro moment member
      cases member
  | take moment rest last onward inductionHypothesis =>
      intro other member
      rcases List.mem_cons.mp member with rfl | later
      · exact (Leads.take other rest last onward).counters
      · exact inductionHypothesis other later

def Machine.Answered (machine : Machine) : Prop :=
  machine.Balanced ∧ machine.stats.samples ≤ machine.sends

theorem Machine.start_answered (transport : Transport) (listening : Bool) :
    (start transport listening).Answered :=
  ⟨start_balanced transport listening, Nat.le_refl 0⟩

theorem Machine.after_answered (machine : Machine) (step : Machine.Step)
    (answered : machine.Answered) : (machine.after step).Answered := by
  obtain ⟨balanced, fewer⟩ := answered
  obtain ⟨reached, calls, next, taken⟩ := machine.exists_transition step
  rw [next]
  refine ⟨taken.balanced balanced, ?_⟩
  cases taken with
  | adopt _ _ _ => exact fewer
  | issue _ _ _ _ _ => exact Nat.le_succ_of_le fewer
  | write _ _ => exact fewer
  | answer _ issuedAt receivedAt going pending _ =>
      have more := machine.answered_samples issuedAt receivedAt
      have ahead := balanced.going going
      rw [outstanding_of_pending pending] at ahead
      change _ ≤ machine.sends
      omega
  | cancel _ => exact fewer
  | fail _ _ => exact fewer
  | shut _ _ => exact fewer
  | ignore _ _ => exact fewer

/-! ### The headless front-end -/

namespace Auto

variable {auto : Auto} {snapshot : Snapshot} {now : Instant}

theorem render_limit :
    (auto.render snapshot now).state.limit = auto.limit := by
  unfold render
  grind

theorem render_logged :
    (auto.render snapshot now).state.logged =
      max auto.logged snapshot.stats.samples := by
  unfold render
  grind

theorem render_done (finished : (auto.render snapshot now).state.done = true) :
    auto.done = true ∨
      auto.limitReached (max auto.logged snapshot.stats.samples) = true := by
  unfold render at finished
  grind

theorem render_presses (presses : (auto.render snapshot now).intents ≠ []) :
    auto.limitReached (max auto.logged snapshot.stats.samples) = false ∧
      snapshot.canSend = true := by
  unfold render at presses
  grind

end Auto

/-! ### What the front-end and the engine keep together -/

/-- Whether a session is within the limit of its front-end, which has seen no
more samples than there are.  A press that waits leaves room for one more
command, and who asks to close has seen them all. -/
structure WithinQuota (limit : Nat) (engine : Engine) (auto : Auto) :
    Prop where
  inStep : engine.InStep
  answered : engine.machine.Answered
  within : engine.machine.sends ≤ limit
  limited : auto.limit = some limit
  logged : auto.logged ≤ engine.machine.stats.samples
  pressed : engine.intents.isEmpty = false → engine.machine.sends < limit
  done : auto.done = true → limit ≤ engine.machine.stats.samples
  closed : engine.machine.termination = some .windowClosed →
    limit ≤ engine.machine.stats.samples

section Tick

variable {around : Surroundings ω σ} {limit : Nat} {engine : Engine}
  {auto : Auto}

theorem start_withinQuota (config : Config) (interval : Duration)
    (limit : Nat) :
    WithinQuota limit (.start config) (.start interval (some limit)) where
  inStep := Engine.start_inStep config
  answered := Machine.start_answered config.transport true
  within := Nat.zero_le limit
  limited := rfl
  logged := Nat.le_refl 0
  pressed := by
    intro some
    cases some
  done := by
    intro done
    cases done
  closed := by
    intro closed
    cases closed

theorem WithinQuota.halted (quota : WithinQuota limit engine auto)
    {reason : Termination} {reached : Tick ω Auto}
    (halted : Engine.Halted auto engine reason reached)
    (last : reason = .windowClosed → auto.done = true) :
    WithinQuota limit reached.engine reached.frontend := by
  have sends : reached.engine.machine.sends = engine.machine.sends := by
    rw [halted.machine]
    rfl
  have stats : reached.engine.machine.stats = engine.machine.stats := by
    rw [halted.machine]
    rfl
  refine
    { inStep := halted.inStep
      answered := ?_
      within := by rw [sends]; exact quota.within
      limited := by rw [halted.frontend]; exact quota.limited
      logged := by rw [halted.frontend, stats]; exact quota.logged
      pressed := by rw [halted.intents, sends]; exact quota.pressed
      done := by rw [halted.frontend, stats]; exact quota.done
      closed := ?_ }
  · rw [halted.machine]
    exact ⟨quota.answered.1.ended reason, quota.answered.2⟩
  · intro closed
    rw [halted.machine] at closed
    rw [stats]
    exact quota.done (last (Option.some.inj closed))

/-- A frame keeps the quota: it sends a command only for a press that waited,
and its rendering presses only if there is room for one more. -/
theorem WithinQuota.framed (quota : WithinQuota limit engine auto)
    (running : engine.running = true) (open' : auto.done = false)
    {meanwhile : List σ} {world : ω} {reached : Tick ω Auto}
    (framed : Engine.Framed engine
      (engine.framedMachine around meanwhile world)
      (engine.rendering around Auto.frontend auto meanwhile world) reached) :
    WithinQuota limit reached.engine reached.frontend := by
  have consistent :
      (engine.framedMachine around meanwhile world).Consistent :=
    quota.inStep.framed_consistent
  have answered : (engine.framedMachine around meanwhile world).Answered := by
    apply Machine.run_keeps _ Machine.after_answered
    exact Machine.run_keeps _ Machine.after_answered _ quota.answered _
  have sends := quota.inStep.framed_sends around meanwhile world
  have samples : engine.machine.stats.samples ≤
      (engine.framedMachine around meanwhile world).stats.samples :=
    Nat.le_trans (Machine.moments_lead around _ world _).counters.2
      (Machine.moments_lead around _ world _).counters.2
  have notClosed : (engine.framedMachine around meanwhile world).termination ≠
      some .windowClosed := by
    intro closed
    obtain ⟨_, event, _, _, _, ending, _⟩ := Machine.run_events_ending
      quota.inStep.midway_consistent
      (quota.inStep.midway_going (quota.inStep.machine.mp running)) closed
    cases event <;> cases ending
  have inStep := framed.inStep quota.inStep running consistent
  have reaches (count : Nat) :
      auto.limitReached count = true ↔ limit ≤ count := by
    simp [Auto.limitReached, quota.limited]
  unfold Engine.rendering at framed
  generalize engine.framedMachine around meanwhile world = last at *
  have logged : max auto.logged last.stats.samples = last.stats.samples :=
    Nat.max_eq_right (Nat.le_trans quota.logged samples)
  refine
    { inStep := inStep
      answered := by rw [framed.machine]; exact answered
      within := ?_
      limited := by
        rw [framed.frontend]
        exact Auto.render_limit.trans quota.limited
      logged := ?_
      pressed := ?_
      done := ?_
      closed := by
        rw [framed.machine]
        intro closed
        exact absurd closed notClosed }
  · have before := quota.within
    rw [framed.machine, sends]
    split
    · rename_i pressed
      exact quota.pressed pressed.2
    · exact before
  · rw [framed.frontend, framed.machine]
    exact Nat.le_of_eq (Auto.render_logged.trans logged)
  · intro some
    rw [Queue.isEmpty_eq, List.isEmpty_eq_false_iff, framed.intents] at some
    obtain ⟨below, enabled⟩ := Auto.render_presses some
    simp only [Snapshot.ofMachine, logged] at below
    have room := mt (reaches last.stats.samples).mpr (by rw [below]; decide)
    simp only [Snapshot.canSend, Snapshot.ofMachine, Machine.isConnected,
      Bool.and_eq_true, Bool.not_eq_true'] at enabled
    have even := answered.1.going (Machine.going_of_connected enabled.1)
    rw [Machine.outstanding_of_idle enabled.2] at even
    rw [framed.machine]
    omega
  · intro done
    rw [framed.frontend] at done
    rcases Auto.render_done done with earlier | reached
    · rw [open'] at earlier
      cases earlier
    · simp only [Snapshot.ofMachine, logged] at reached
      rw [framed.machine]
      exact (reaches last.stats.samples).mp reached

theorem WithinQuota.tick (quota : WithinQuota limit engine auto)
    (around : Surroundings ω σ) (meanwhile : List σ) (world : ω) :
    WithinQuota limit
      (engine.tick around Auto.frontend auto meanwhile world).engine
      (engine.tick around Auto.frontend auto meanwhile world).frontend := by
  cases quota.inStep.ticked around Auto.frontend auto meanwhile world with
  | idle _ same =>
      rw [same]
      exact quota
  | stopped _ _ halted => exact quota.halted halted nofun
  | closed _ _ left halted => exact quota.halted halted fun _ => left
  | framed running _ shown framed => exact quota.framed running shown framed

end Tick

/-! ### Runs -/

/-- Whether a step leaves an engine to its front-end: nobody else presses the
send control, and nobody lets go of the engine. -/
def RunStep.Unattended : RunStep σ → Prop
  | .press _ => False
  | .release => False
  | _ => True

namespace Run

variable {around : Surroundings ω σ} {limit : Nat} {run : Run ω Auto}

structure Restrained (limit : Nat) (run : Run ω Auto) : Prop where
  quota : WithinQuota limit run.engine run.frontend
  told : Told run.engine run.outcomes

theorem start_restrained (config : Config) (world : ω) (interval : Duration)
    (limit : Nat) :
    (start config world
      (Auto.start interval (some limit))).Restrained limit where
  quota := start_withinQuota config interval limit
  told := .going 0 rfl

theorem Restrained.counts (restrained : run.Restrained limit) :
    run.engine.machine.sends ≤ limit ∧
      run.engine.machine.stats.samples ≤ limit ∧
      (.stop .windowClosed ∈ run.outcomes →
        run.engine.machine.stats.samples = limit ∧
          run.engine.machine.sends = limit) := by
  have within := restrained.quota.within
  have fewer := restrained.quota.answered.2
  refine ⟨within, by omega, ?_⟩
  intro closed
  have all := restrained.quota.closed (restrained.told.reported closed).2
  omega

theorem Restrained.tick (restrained : run.Restrained limit)
    (around : Surroundings ω σ) (meanwhile : List σ) :
    (run.tick around Auto.frontend meanwhile).Restrained limit where
  quota := restrained.quota.tick around meanwhile run.world
  told := restrained.told.tick restrained.quota.inStep around Auto.frontend
    run.frontend meanwhile run.world

theorem Restrained.step (restrained : run.Restrained limit)
    (around : Surroundings ω σ) {step : RunStep σ}
    (unattended : step.Unattended) :
    (run.step around Auto.frontend step).Restrained limit := by
  obtain ⟨quota, told⟩ := restrained
  cases step with
  | press _ => cases unattended
  | release => cases unattended
  | beside step =>
      exact
        { quota := { quota with inStep := { quota.inStep with } }
          told := told.same rfl rfl }
  | requestStop =>
      exact
        { quota := { quota with inStep := { quota.inStep with } }
          told := told.same rfl rfl }
  | tick meanwhile => exact Restrained.tick ⟨quota, told⟩ around meanwhile

theorem Restrained.steps (restrained : run.Restrained limit)
    (around : Surroundings ω σ) (all : List (RunStep σ))
    (unattended : ∀ step ∈ all, step.Unattended) :
    (run.steps around Auto.frontend all).Restrained limit ∧
      ∀ moment ∈ run.moments around Auto.frontend all,
        moment.machine.sends ≤ limit ∧
          moment.machine.stats.samples ≤ limit := by
  induction all generalizing run with
  | nil =>
      refine ⟨restrained, ?_⟩
      intro moment member
      cases member
  | cons step rest inductionHypothesis =>
      have next := restrained.step around
        (unattended step List.mem_cons_self)
      obtain ⟨last, later⟩ := inductionHypothesis next
        fun other member => unattended other (List.mem_cons_of_mem step member)
      refine ⟨last, ?_⟩
      intro moment member
      rcases List.mem_append.mp member with here | afterwards
      · -- Within a step nothing is counted beyond what it leads to.
        have counted := (run.step_leads around Auto.frontend step).counted
          moment here
        obtain ⟨sends, samples, _⟩ := next.counts
        omega
      · exact later moment afterwards

theorem Restrained.untilStop (restrained : run.Restrained limit)
    (around : Surroundings ω σ) (settle : ω → ω × List Event)
    (count : Nat) :
    (run.untilStop around Auto.frontend settle count).1.Restrained limit := by
  refine untilStop_keeps (Restrained limit) ?_ ?_ count run restrained
  · intro run restrained
    exact restrained.tick around []
  · intro run restrained
    exact
      { quota :=
          { restrained.quota with
            inStep := { restrained.quota.inStep with } }
        told := restrained.told.same rfl rfl }

/-- A session that is left to the headless front-end never counts more
commands or samples than the limit, in the middle of a tick or between two;
one that the front-end has closed has counted exactly as many of both, also
when it was ticked until it ended. -/
theorem auto_session_keeps_quota (around : Surroundings ω σ)
    (config : Config) (world : ω) (interval : Duration) (limit : Nat)
    (all : List (RunStep σ))
    (unattended : ∀ step ∈ all, step.Unattended) :
    let before : Run ω Auto :=
      .start config world (.start interval (some limit))
    let after := before.steps around Auto.frontend all
    (∀ moment ∈ before.moments around Auto.frontend all,
      moment.machine.sends ≤ limit ∧
        moment.machine.stats.samples ≤ limit) ∧
    after.engine.machine.sends ≤ limit ∧
    after.engine.machine.stats.samples ≤ limit ∧
    (.stop .windowClosed ∈ after.outcomes →
      after.engine.machine.stats.samples = limit ∧
        after.engine.machine.sends = limit) ∧
    ∀ (settle : ω → ω × List Event) (count : Nat),
      let ended := after.untilStop around Auto.frontend settle count
      ended.1.engine.machine.sends ≤ limit ∧
      ended.1.engine.machine.stats.samples ≤ limit ∧
      (ended.2 = some .windowClosed →
        ended.1.engine.machine.stats.samples = limit ∧
          ended.1.engine.machine.sends = limit) := by
  intro before after
  obtain ⟨restrained, moments⟩ :=
    (start_restrained config world interval limit).steps around all unattended
  obtain ⟨sends, samples, closed⟩ := restrained.counts
  refine ⟨moments, sends, samples, closed, ?_⟩
  intro settle count ended
  obtain ⟨least, fewest, finished⟩ :=
    (restrained.untilStop around settle count).counts
  refine ⟨least, fewest, fun closes => finished ?_⟩
  have answers : Answers after ended.1 count ended.2 :=
    after.untilStop_answers
  rw [closes] at answers
  cases answers with
  | finished _ _ _ outcomes =>
      have last : Outcome.stop .windowClosed ∈ ended.1.outcomes := by
        simp [outcomes]
      exact last

/-- A session over raw TCP that the headless front-end closes after the one
sample it was to take. -/
def sampledOnce : List (RunStep WireStep) :=
  [.beside (.peerJoins default),
   .beside (.endpoint .accept),
   .tick [],
   .tick [.endpoint (.send command.length), .peerReads command.length],
   .beside (.pass nanosPerMillisecond),
   .beside (.peerReaches acknowledgment.length),
   .beside (.endpoint (.receive acknowledgment.length)),
   .tick [],
   .tick []]

theorem sampledOnce_keeps_quota :
    (∀ step ∈ sampledOnce, step.Unattended) ∧
    .stop .windowClosed ∈
      ((start (.forTransport .rawTcp) (Wire.start .rawTcp)
        (Auto.start 0 (some 1))).steps Wire.surroundings Auto.frontend
        sampledOnce).outcomes ∧
    ((start (.forTransport .rawTcp) (Wire.start .rawTcp)
      (Auto.start 0 (some 1))).steps Wire.surroundings Auto.frontend
      sampledOnce).engine.machine.sends = 1 := by
  have unattended : ∀ step ∈ sampledOnce, step.Unattended := by
    simp [sampledOnce, RunStep.Unattended]
  have closed : .stop .windowClosed ∈
      ((start (.forTransport .rawTcp) (Wire.start .rawTcp)
        (Auto.start 0 (some 1))).steps Wire.surroundings Auto.frontend
        sampledOnce).outcomes := by
    decide
  have exact := (auto_session_keeps_quota Wire.surroundings
    (.forTransport .rawTcp) (.start .rawTcp) 0 1 sampledOnce
    unattended).2.2.2.1 closed
  exact ⟨unattended, closed, exact.2⟩

end Run

end LatencyBench

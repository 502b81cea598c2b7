/-
What a host sees of a session through its handle.

A tick that lets the session go on copies the snapshot that was rendered, any
other tick takes a fresh one; both show the machine as it is after the tick.
The codes fall into two runs: as long as the session goes on they say so, and
from then on one code and one record are repeated.  Everything rests on the
four things that a tick through a handle can do.
-/

import LatencyBench.Host
import LatencyBench.Proofs.Run.Shown

namespace LatencyBench

variable {ω σ : Type}

/-- What can happen to a session behind a handle: the calls of the host, and
what goes on beside it. -/
inductive HostUse (σ : Type) where
  | tick (meanwhile : List σ)
  | sendCommand
  | stop
  | isRunning
  | beside (step : σ)

namespace Host

/-! ### Uses of a handle -/

def after (around : Surroundings ω σ) (host : Host ω) : HostUse σ → Host ω
  | .tick meanwhile => (host.tick around meanwhile).host
  | .sendCommand => host.sendCommand.1
  | .stop => host.stop
  | .isRunning => host
  | .beside step => host.beside around step

def run (around : Surroundings ω σ) (host : Host ω)
    (uses : List (HostUse σ)) : Host ω :=
  uses.foldl (after around) host

def framesOf (around : Surroundings ω σ) (host : Host ω) :
    HostUse σ → List (HostFrame ω)
  | .tick meanwhile => [host.tick around meanwhile]
  | .sendCommand => []
  | .stop => []
  | .isRunning => []
  | .beside _ => []

def frames (around : Surroundings ω σ) (host : Host ω) :
    List (HostUse σ) → List (HostFrame ω)
  | [] => []
  | use :: rest =>
      host.framesOf around use ++ (host.after around use).frames around rest

end Host

/-! ### What a tick answers -/

/-- The tick that ends a session after some frames that let it go on. -/
structure HostFrame.Ends (frame : HostFrame ω) (uses : List (HostUse σ))
    (count : Nat) : Prop where
  stopped : frame.code = .stopped ↔ .stop ∈ uses
  asked : .stop ∈ uses → frame.written.frame = count ∧
    frame.host.engine.machine.termination = some .stopped
  unasked : .stop ∉ uses → frame.written.frame = count + 1 ∧
    ((frame.code = .cancelled ∧
        frame.host.engine.machine.termination = some .cancelled) ∨
      ∃ fault, frame.code = .fault ∧
        frame.host.engine.machine.termination = some (.fault fault))

structure Host.Presses (host : Host ω) : Prop where
  accepted : host.isRunning = true →
    host.sendCommand.2 = .ok ∧
      host.sendCommand.1.engine.intents.toList =
        host.engine.intents.toList ++ [.sendCommand] ∧
      { host.sendCommand.1 with
        engine :=
          { host.sendCommand.1.engine with
            intents := host.engine.intents } } = host
  refused : host.isRunning = false →
    host.sendCommand = (host, .notRunning)

namespace Host

/-- The four things that a tick through a handle can do. -/
inductive Ticked (host : Host ω) (frame : HostFrame ω) : Prop where
  | idle (running : host.engine.running = false) (same : frame.host = host)
      (code : frame.code = .ofTermination host.engine.termination)
      (written : frame.written = .ofSnapshot host.engine.snapshot)
  | stopped (running : host.engine.running = true)
      (wanted : host.engine.stopRequested = true)
      (stops : frame.host.engine.running = false)
      (reason : frame.host.engine.machine.termination = some .stopped)
      (code : frame.code = .stopped)
      (frames : frame.host.engine.frames = host.engine.frames)
      (written : frame.written = .ofSnapshot frame.host.engine.snapshot)
  | proceeds (running : host.engine.running = true)
      (wanted : host.engine.stopRequested = false)
      (goes : frame.host.engine.running = true)
      (code : frame.code = .proceed)
      (frames : frame.host.engine.frames = host.engine.frames + 1)
      (written : frame.written =
        .ofSnapshot (.ofMachine frame.host.engine.machine host.engine.frames))
  | ends (reason : Termination) (ofEvent : reason.OfEvent)
      (running : host.engine.running = true)
      (wanted : host.engine.stopRequested = false)
      (stops : frame.host.engine.running = false)
      (ended : frame.host.engine.machine.termination = some reason)
      (code : frame.code = .ofTermination reason)
      (frames : frame.host.engine.frames = host.engine.frames + 1)
      (written : frame.written = .ofSnapshot frame.host.engine.snapshot)

section Tick

variable {around : Surroundings ω σ} {host : Host ω} {meanwhile : List σ}

theorem tick_of_stop {reason : Termination}
    (outcome : (host.engine.tick around hostFrontend host.latest meanwhile
      host.world).outcome = .stop reason) :
    (host.tick around meanwhile).code = .ofTermination reason ∧
      (host.tick around meanwhile).written =
        .ofSnapshot (host.tick around meanwhile).host.engine.snapshot := by
  unfold Host.tick
  dsimp only
  rw [outcome]
  exact ⟨rfl, rfl⟩

theorem tick_of_proceed {snapshot : Snapshot}
    (outcome : (host.engine.tick around hostFrontend host.latest meanwhile
      host.world).outcome = .proceed)
    (latest : (host.engine.tick around hostFrontend host.latest meanwhile
      host.world).frontend = some snapshot) :
    (host.tick around meanwhile).code = .proceed ∧
      (host.tick around meanwhile).written = .ofSnapshot snapshot := by
  unfold Host.tick
  dsimp only
  rw [outcome]
  dsimp only
  rw [latest]
  exact ⟨rfl, rfl⟩

theorem tick_ticked (inStep : host.engine.InStep)
    (around : Surroundings ω σ) (meanwhile : List σ) :
    host.Ticked (host.tick around meanwhile) := by
  cases inStep.ticked around hostFrontend host.latest meanwhile host.world with
  | idle stopped same =>
      have frame : host.tick around meanwhile =
          { host := host
            code := .ofTermination host.engine.termination
            written := .ofSnapshot host.engine.snapshot } := by
        unfold Host.tick
        rw [same]
        rfl
      rw [frame]
      exact .idle stopped rfl rfl rfl
  | stopped running wanted halted =>
      obtain ⟨code, written⟩ := tick_of_stop halted.outcome
      exact .stopped running wanted halted.running
        (congrArg Machine.termination halted.machine) code halted.frames
        written
  | closed _ _ left _ => cases left
  | framed running wanted _ framed =>
      cases finished : (host.engine.framedMachine around meanwhile
          host.world).termination with
      | none =>
          obtain ⟨outcome, goes, _⟩ := framed.proceeds finished
          obtain ⟨code, written⟩ := tick_of_proceed outcome framed.frontend
          rw [← framed.machine] at written
          exact .proceeds running wanted (goes.trans running) code
            framed.frames written
      | some reason =>
          obtain ⟨outcome, stops, _⟩ := framed.ends reason finished
          obtain ⟨code, written⟩ := tick_of_stop outcome
          have ended := (congrArg Machine.termination framed.machine).trans
            finished
          have finishes := inStep.framed_consistent.reported.mp (by
            rw [finished]
            rfl)
          obtain ⟨first, found, ofEvent⟩ := (inStep.framed_endedByEvent running
            around meanwhile host.world).mp finishes
          cases found.symm.trans finished
          exact .ends reason ofEvent running wanted stops ended code
            framed.frames written

end Tick

/-! ### What holds between two uses -/

/-- How a handle stands to the frames that its ticks have written. -/
structure Sound (host : Host ω) (uses : List (HostUse σ))
    (past : List (HostFrame ω)) : Prop where
  inStep : host.engine.InStep
  wanted : host.engine.stopRequested = true ↔ .stop ∈ uses
  going : host.engine.running = true →
    host.engine.frames = past.length ∧ ∀ frame ∈ past, frame.code = .proceed
  ended : host.engine.running = false →
    (∃ frame ∈ past, frame.code ≠ .proceed) ∧
      ∀ frame ∈ past, frame.code ≠ .proceed →
        frame.code = .ofTermination host.engine.termination ∧
          frame.written = .ofSnapshot host.engine.snapshot

section Sound

variable {host : Host ω} {uses : List (HostUse σ)} {past : List (HostFrame ω)}

theorem start_sound (config : Config) (world : ω) :
    (start config world).Sound ([] : List (HostUse σ)) [] where
  inStep := Engine.start_inStep config
  wanted := by simp [start, Engine.start]
  going _ := ⟨rfl, List.forall_mem_nil _⟩
  ended stopped := by cases stopped

theorem ofTermination_ne_proceed (reason : Termination) :
    HostTick.ofTermination reason ≠ .proceed := by
  cases reason <;> exact nofun

theorem Sound.quiet {next : Host ω} {use : HostUse σ}
    (sound : host.Sound uses past) (inStep : next.engine.InStep)
    (machine : next.engine.machine = host.engine.machine)
    (running : next.engine.running = host.engine.running)
    (frames : next.engine.frames = host.engine.frames)
    (wanted : next.engine.stopRequested = true ↔ .stop ∈ uses ++ [use]) :
    next.Sound (uses ++ [use]) past where
  inStep := inStep
  wanted := wanted
  going := by
    rw [running, frames]
    exact sound.going
  ended := by
    rw [running, Engine.termination, Engine.snapshot, machine, frames]
    exact sound.ended

/-- A frame that ends a session is the first that does not let it go on. -/
theorem Sound.last {frame : HostFrame ω} {use : HostUse σ}
    (sound : host.Sound uses past) (running : host.engine.running = true)
    (inStep : frame.host.engine.InStep)
    (wanted : frame.host.engine.stopRequested = true ↔
      .stop ∈ uses ++ [use])
    (stops : frame.host.engine.running = false)
    (code : frame.code = .ofTermination frame.host.engine.termination)
    (written : frame.written = .ofSnapshot frame.host.engine.snapshot) :
    frame.host.Sound (uses ++ [use]) (past ++ [frame]) where
  inStep := inStep
  wanted := wanted
  going goes := by
    rw [stops] at goes
    cases goes
  ended _ := by
    refine ⟨⟨frame, by simp, ?_⟩, ?_⟩
    · rw [code]
      exact ofTermination_ne_proceed _
    · intro other member ended
      rcases List.mem_append.mp member with earlier | here
      · exact absurd ((sound.going running).2 other earlier) ended
      · cases List.mem_singleton.mp here
        exact ⟨code, written⟩

theorem Sound.tick (sound : host.Sound uses past)
    (around : Surroundings ω σ) (meanwhile : List σ) :
    (host.tick around meanwhile).host.Sound (uses ++ [.tick meanwhile])
      (past ++ [host.tick around meanwhile]) := by
  have inStep : (host.tick around meanwhile).host.engine.InStep :=
    sound.inStep.tick around hostFrontend host.latest meanwhile host.world
  have wanted :
      (host.tick around meanwhile).host.engine.stopRequested = true ↔
        .stop ∈ uses ++ [.tick meanwhile] := by
    have kept :
        (host.tick around meanwhile).host.engine.stopRequested =
          host.engine.stopRequested := Engine.tick_wanted
    rw [kept, sound.wanted]
    simp
  cases tick_ticked sound.inStep around meanwhile with
  | idle running same code written =>
      refine
        { inStep := inStep
          wanted := wanted
          going := ?_
          ended := ?_ }
      · intro goes
        rw [same, running] at goes
        cases goes
      · intro _
        obtain ⟨⟨first, among, ended⟩, repeated⟩ := sound.ended running
        refine ⟨⟨first, List.mem_append_left _ among, ended⟩, ?_⟩
        intro frame member stops
        rw [same]
        rcases List.mem_append.mp member with earlier | here
        · exact repeated frame earlier stops
        · cases List.mem_singleton.mp here
          exact ⟨code, written⟩
  | stopped running _ stops reason code _ written =>
      refine sound.last running inStep wanted stops ?_ written
      rw [code, Engine.termination, reason]
      rfl
  | proceeds running _ goes code frames written =>
      refine
        { inStep := inStep
          wanted := wanted
          going := ?_
          ended := ?_ }
      · intro _
        obtain ⟨count, all⟩ := sound.going running
        refine ⟨by rw [frames, count, List.length_append]; rfl, ?_⟩
        intro frame member
        rcases List.mem_append.mp member with earlier | here
        · exact all frame earlier
        · cases List.mem_singleton.mp here
          exact code
      · intro stops
        rw [goes] at stops
        cases stops
  | ends reason _ running _ stops ended code _ written =>
      refine sound.last running inStep wanted stops ?_ written
      rw [code, Engine.termination, ended]
      rfl

theorem sendCommand_of_running (running : host.engine.running = true) :
    host.sendCommand =
      ({ host with engine := host.engine.press [.sendCommand] }, .ok) :=
  if_pos running

theorem sendCommand_of_idle (idle : host.engine.running = false) :
    host.sendCommand = (host, .notRunning) :=
  if_neg (Bool.eq_false_iff.mp idle)

theorem Sound.after (sound : host.Sound uses past)
    (around : Surroundings ω σ) (use : HostUse σ) :
    (host.after around use).Sound (uses ++ [use])
      (past ++ host.framesOf around use) := by
  have asked (other : use ≠ .stop) :
      .stop ∈ uses ++ [use] ↔ .stop ∈ uses := by
    simp [other.symm]
  cases use with
  | tick meanwhile => exact sound.tick around meanwhile
  | sendCommand =>
      rw [framesOf, List.append_nil, Host.after]
      have wanted := sound.wanted.trans (asked nofun).symm
      cases running : host.engine.running with
      | true =>
          rw [sendCommand_of_running running]
          exact sound.quiet { sound.inStep with } rfl rfl rfl wanted
      | false =>
          rw [sendCommand_of_idle running]
          exact sound.quiet sound.inStep rfl rfl rfl wanted
  | stop =>
      rw [framesOf, List.append_nil]
      exact sound.quiet { sound.inStep with } rfl rfl rfl (by
        simp [Host.after, Host.stop, Engine.requestStop])
  | isRunning =>
      rw [framesOf, List.append_nil]
      exact sound.quiet sound.inStep rfl rfl rfl
        (sound.wanted.trans (asked nofun).symm)
  | beside step =>
      rw [framesOf, List.append_nil]
      exact sound.quiet { sound.inStep with } rfl rfl rfl
        (sound.wanted.trans (asked nofun).symm)

theorem Sound.run (sound : host.Sound uses past)
    (around : Surroundings ω σ) (more : List (HostUse σ)) :
    (host.run around more).Sound (uses ++ more)
      (past ++ host.frames around more) := by
  induction more generalizing host uses past with
  | nil =>
      rw [frames, List.append_nil, List.append_nil]
      exact sound
  | cons use rest inductionHypothesis =>
      have later := inductionHypothesis (sound.after around use)
      rw [List.append_assoc, List.append_assoc] at later
      exact later

/-! ### What the host sees -/

theorem Ticked.record {frame : HostFrame ω} (ticked : host.Ticked frame) :
    frame.written =
      .ofSnapshot
        (.ofMachine frame.host.engine.machine frame.written.frame) := by
  cases ticked with
  | idle _ same _ written =>
      rw [written, same]
      rfl
  | stopped _ _ _ _ _ _ written =>
      rw [written]
      rfl
  | proceeds _ _ _ _ _ written =>
      rw [written]
      rfl
  | ends _ _ _ _ _ _ _ _ written =>
      rw [written]
      rfl

theorem Ticked.running_iff {frame : HostFrame ω}
    (ticked : host.Ticked frame) :
    frame.code = .proceed ↔ frame.host.isRunning = true := by
  rw [isRunning]
  cases ticked with
  | idle running same code _ =>
      simp [code, same, running, ofTermination_ne_proceed]
  | stopped _ _ stops _ code _ _ => simp [code, stops]
  | proceeds _ _ goes code _ _ => simp [code, goes]
  | ends _ _ _ _ stops _ code _ _ =>
      simp [code, stops, ofTermination_ne_proceed]

theorem Sound.ends (sound : host.Sound uses past) (around : Surroundings ω σ)
    (meanwhile : List σ) (running : host.engine.running = true)
    (last : (host.tick around meanwhile).code ≠ .proceed) :
    (host.tick around meanwhile).Ends uses past.length := by
  have count := (sound.going running).1
  cases tick_ticked sound.inStep around meanwhile with
  | idle stopped _ _ _ =>
      rw [running] at stopped
      cases stopped
  | stopped _ wanted _ reason code frames written =>
      have asked := sound.wanted.mp wanted
      refine
        { stopped := ⟨fun _ => asked, fun _ => code⟩
          asked := fun _ => ⟨?_, reason⟩
          unasked := fun unasked => absurd asked unasked }
      rw [written, ← count, ← frames]
      rfl
  | proceeds _ _ _ code _ _ => exact absurd code last
  | ends reason ofEvent _ wanted _ ended code frames written =>
      have unasked : .stop ∉ uses := by
        intro asked
        rw [sound.wanted.mpr asked] at wanted
        cases wanted
      have different : HostTick.ofTermination reason ≠ .stopped := by
        rcases ofEvent with rfl | ⟨fault, rfl⟩ <;> exact nofun
      refine
        { stopped := ⟨fun stopped => absurd (code ▸ stopped) different,
            fun asked => absurd asked unasked⟩
          asked := fun asked => absurd asked unasked
          unasked := fun _ => ⟨?_, ?_⟩ }
      · rw [written, ← count, ← frames]
        rfl
      · rcases ofEvent with rfl | ⟨fault, rfl⟩
        · exact .inl ⟨code, ended⟩
        · exact .inr ⟨fault, code, ended⟩

theorem Sound.proceeds (sound : host.Sound uses past)
    (around : Surroundings ω σ) (meanwhile : List σ)
    (goesOn : (host.tick around meanwhile).code = .proceed) :
    host.isRunning = true ∧ .stop ∉ uses ∧
      (host.tick around meanwhile).written.frame = past.length := by
  cases tick_ticked sound.inStep around meanwhile with
  | idle _ _ code _ =>
      exact absurd (code.symm.trans goesOn) (ofTermination_ne_proceed _)
  | stopped _ _ _ _ code _ _ => cases code.symm.trans goesOn
  | proceeds running wanted _ _ _ written =>
      refine ⟨running, ?_, ?_⟩
      · intro asked
        rw [sound.wanted.mpr asked] at wanted
        cases wanted
      · rw [written, ← (sound.going running).1]
        rfl
  | ends _ _ _ _ _ _ code _ _ =>
      exact absurd (code.symm.trans goesOn) (ofTermination_ne_proceed _)

theorem presses (host : Host ω) : host.Presses where
  accepted running := by
    rw [sendCommand_of_running running]
    exact ⟨rfl, Queue.toList_pushAll _ _, rfl⟩
  refused idle := sendCommand_of_idle idle

end Sound

end Host

end LatencyBench

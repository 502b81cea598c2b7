/-
Whether a terminal is given back.

Giving back belongs to the console that was set up and comes last, behind the
wait for the thread that reads keys.  So there are two ways to lose a terminal:
setting up fails behind its first step, or the wait is in vain.  In every other
life of a console its end finds the terminal as the shell left it.
-/

import LatencyBench.Frontend.Terminal
import LatencyBench.Proofs.Frontend.Closing

namespace LatencyBench

namespace TerminalModes

def taken : TerminalModes :=
  { raw := true
    alternate := true
    cursorHidden := true }

theorem obeyAll_raw (modes : TerminalModes) (commands : List ScreenCommand) :
    (modes.obeyAll commands).raw = modes.raw := by
  induction commands generalizing modes with
  | nil => rfl
  | cons command rest inductionHypothesis =>
      refine (inductionHypothesis (modes.obey command)).trans ?_
      cases command <;> rfl

theorem ne_ordinary_of_raw {modes : TerminalModes} (raw : modes.raw = true) :
    modes ≠ .ordinary := by
  rintro rfl
  cases raw

end TerminalModes

namespace Terminal

theorem giveBack_taken : giveBack .taken = .ordinary := rfl

/-- Raw input is the first mode to be changed, and a failure leaves it on. -/
theorem takeOver_refused_iff (fault : TakeoverFault) :
    takeOver .ordinary (some fault) = .ordinary ↔
      ∃ error, fault = .rawMode error := by
  cases fault with
  | rawMode error => exact iff_of_true rfl ⟨error, rfl⟩
  | screen reached error =>
      have raw := TerminalModes.obeyAll_raw
        { TerminalModes.ordinary with raw := true }
        (openingCommands.take reached)
      refine iff_of_false (TerminalModes.ne_ordinary_of_raw raw) ?_
      rintro ⟨_, impossible⟩
      cases impossible
  | keyThread error =>
      refine iff_of_false (TerminalModes.ne_ordinary_of_raw rfl) ?_
      rintro ⟨_, impossible⟩
      cases impossible

end Terminal

/-! ### The line of a console that is gone -/

namespace KeyLine

variable {line next : KeyLine} {step : KeyLineStep}

theorem gone_after_iff (taken : line.step? step = some next) :
    next.stage = .gone ↔ line.stage = .gone ∨ step = .join := by
  cases step with
  | look => obtain ⟨_, rfl⟩ := look?_eq_some.mp taken; simp
  | hear news => obtain ⟨_, rfl⟩ := hear?_eq_some.mp taken; simp
  | deliver =>
      obtain ⟨_, ⟨_, _, rfl⟩ | ⟨_, rfl⟩⟩ := deliver?_eq_some.mp taken <;> simp
  | render => obtain ⟨_, rfl⟩ := render?_eq_some.mp taken; simp
  | close =>
      obtain ⟨rendering, rfl⟩ := close?_eq_some.mp taken
      simp [rendering]
  | join => obtain ⟨_, _, rfl⟩ := join?_eq_some.mp taken; simp

theorem Sound.gone_stuck (sound : line.Sound) (gone : line.stage = .gone)
    (step : KeyLineStep) : line.step? step = none := by
  have ended := sound.left gone
  obtain ⟨waiting, flag, thread, stage⟩ := line
  cases gone
  cases ended
  cases step <;> rfl

end KeyLine

/-! ### Steps of a console in its terminal -/

namespace Tenancy

variable {tenancy next last : Tenancy} {step : TenancyStep}
  {steps : List TenancyStep}

theorem step?_eq_some :
    tenancy.step? step = some next ↔
      tenancy.line.step? step.onLine = some next.line ∧
        next.modes = tenancy.modesAfter step ∧
        next.console = tenancy.consoleAfter step := by
  rw [step?, Option.map_eq_some_iff]
  constructor
  · rintro ⟨line, moved, rfl⟩
    exact ⟨moved, rfl, rfl⟩
  · rintro ⟨moved, modes, console⟩
    refine ⟨next.line, moved, ?_⟩
    rw [← modes, ← console]

theorem steps?_cons (step : TenancyStep) (rest : List TenancyStep) :
    tenancy.steps? (step :: rest) = some last ↔
      ∃ next, tenancy.step? step = some next ∧
        next.steps? rest = some last :=
  Option.bind_eq_some_iff

theorem steps?_concat (moved : tenancy.steps? steps = some next)
    (step : TenancyStep) :
    tenancy.steps? (steps ++ [step]) = next.step? step := by
  induction steps generalizing tenancy with
  | nil =>
      obtain rfl := Option.some.inj moved
      simp [steps?]
  | cons first rest inductionHypothesis =>
      obtain ⟨middle, begun, later⟩ := (steps?_cons first rest).mp moved
      rw [List.cons_append, steps?, begun, Option.bind_some]
      exact inductionHypothesis later

/-- What holds of a console in its terminal: until it is gone all three modes
are changed, and then none of them. -/
structure Sound (tenancy : Tenancy) : Prop where
  line : tenancy.line.Sound
  modes : tenancy.modes =
    if tenancy.line.stage = .gone then .ordinary else .taken

theorem start_sound (listen : Net.SocketAddress) :
    (start listen .ordinary).Sound where
  line := KeyLine.start_sound
  modes := rfl

theorem modesAfter_eq (tenancy : Tenancy) (step : TenancyStep) :
    tenancy.modesAfter step =
      if step.onLine = .join then Terminal.giveBack tenancy.modes
      else tenancy.modes := by
  cases step <;> rfl

/-- The step lemma. -/
theorem Sound.afterStep (sound : tenancy.Sound)
    (moved : tenancy.step? step = some next) : next.Sound := by
  obtain ⟨line, modes, _⟩ := step?_eq_some.mp moved
  refine ⟨sound.line.afterStep line, ?_⟩
  have gone := KeyLine.gone_after_iff line
  rw [modes, modesAfter_eq]
  by_cases joins : step.onLine = .join
  · -- The console still waited, so the terminal was taken.
    have joining : tenancy.line.stage = .joining := by
      rw [joins] at line
      exact (KeyLine.join?_eq_some.mp line).1
    have before : tenancy.modes = .taken := by
      rw [sound.modes, joining]
      rfl
    rw [if_pos joins, if_pos (gone.mpr (.inr joins)), before,
      Terminal.giveBack_taken]
  · rw [or_iff_left joins] at gone
    rw [if_neg joins, sound.modes]
    simp only [gone]

/-- The run lemma. -/
theorem Sound.afterSteps (sound : tenancy.Sound)
    (moved : tenancy.steps? steps = some last) : last.Sound := by
  induction steps generalizing tenancy with
  | nil => exact Option.some.inj moved ▸ sound
  | cons step rest inductionHypothesis =>
      obtain ⟨next, first, later⟩ := (steps?_cons step rest).mp moved
      exact inductionHypothesis (sound.afterStep first) later

/-! ### The end -/

/-- A console that was let go of, when neither it nor the thread has a step
left. -/
def IsOver (tenancy : Tenancy) : Prop :=
  tenancy.line.stage ≠ .rendering ∧ ∀ step, tenancy.step? step = none

theorem step?_of_line (tenancy : Tenancy) (step : TenancyStep)
    {line : KeyLine}
    (moved : tenancy.line.step? step.onLine = some line) :
    ∃ next, tenancy.step? step = some next ∧ next.line = line := by
  let next : Tenancy :=
    { modes := tenancy.modesAfter step
      console := tenancy.consoleAfter step
      line := line }
  exact ⟨next, step?_eq_some.mpr ⟨moved, rfl, rfl⟩, rfl⟩

theorem step?_eq_none (stuck : tenancy.line.step? step.onLine = none) :
    tenancy.step? step = none := by
  rw [step?, stuck, Option.map_none]

theorem exists_onLine {step : KeyLineStep} (own : step.ofThread = true) :
    ∃ lifted : TenancyStep, lifted.onLine = step := by
  cases step with
  | look => exact ⟨.look, rfl⟩
  | hear news => exact ⟨.hear news, rfl⟩
  | deliver => exact ⟨.deliver, rfl⟩
  | render => cases own
  | close => cases own
  | join => cases own

theorem steps?_of_line {moves : List KeyLineStep} {line : KeyLine}
    (own : moves.all KeyLineStep.ofThread = true)
    (moved : tenancy.line.steps? moves = some line) :
    ∃ steps last, tenancy.steps? steps = some last ∧ last.line = line := by
  induction moves generalizing tenancy with
  | nil => exact ⟨[], tenancy, rfl, Option.some.inj moved⟩
  | cons move rest inductionHypothesis =>
      rw [List.all_cons, Bool.and_eq_true] at own
      obtain ⟨onward, first, later⟩ := (KeyLine.steps?_cons move rest).mp moved
      obtain ⟨step, rfl⟩ := exists_onLine own.1
      obtain ⟨next, begun, rfl⟩ := tenancy.step?_of_line step first
      obtain ⟨steps, last, rested, same⟩ := inductionHypothesis own.2 later
      exact ⟨step :: steps, last,
        (steps?_cons step steps).mpr ⟨next, begun, rested⟩, same⟩

theorem Sound.over_of_gone (sound : tenancy.Sound)
    (gone : tenancy.line.stage = .gone) : tenancy.IsOver :=
  ⟨by simp [gone], fun _ =>
    step?_eq_none (sound.line.gone_stuck gone _)⟩

/-- The wait is over exactly in the terminal that was given back, or in vain. -/
theorem Sound.over_cases (sound : tenancy.Sound) (stopped : tenancy.IsOver) :
    (tenancy.line.stage = .gone ∧ ¬ tenancy.line.Blocked) ∨
      (tenancy.line.stage = .joining ∧ tenancy.line.Blocked) := by
  obtain ⟨closed, stuck⟩ := stopped
  cases stage : tenancy.line.stage with
  | rendering => exact absurd stage closed
  | gone =>
      refine .inl ⟨rfl, ?_⟩
      rintro ⟨holds, _⟩
      rw [sound.line.left stage] at holds
      cases holds
  | joining =>
      refine .inr ⟨rfl, Classical.byContradiction fun free => ?_⟩
      have waits := sound.line.waits stage
      -- Either the thread has a step left or it has ended, and the console
      -- has one.
      obtain ⟨moves, line, own, moved, ended⟩ := waits.canEnd.mpr free
      cases moves with
      | nil =>
          obtain rfl := Option.some.inj moved
          have joins := KeyLine.join?_eq_some.mpr ⟨stage, ended, rfl⟩
          obtain ⟨next, step, _⟩ := tenancy.step?_of_line .join joins
          rw [stuck .join] at step
          cases step
      | cons move rest =>
          rw [List.all_cons, Bool.and_eq_true] at own
          obtain ⟨onward, first, _⟩ := (KeyLine.steps?_cons move rest).mp moved
          obtain ⟨step, rfl⟩ := exists_onLine own.1
          obtain ⟨next, begun, _⟩ := tenancy.step?_of_line step first
          rw [stuck step] at begun
          cases begun

/-- Every console that was let go of comes to its end. -/
theorem Sound.comes_to_end (sound : tenancy.Sound)
    (closed : tenancy.line.stage ≠ .rendering) :
    ∃ more last, tenancy.steps? more = some last ∧ last.IsOver := by
  cases stage : tenancy.line.stage with
  | rendering => exact absurd stage closed
  | gone => exact ⟨[], tenancy, rfl, sound.over_of_gone stage⟩
  | joining =>
      by_cases blocked : tenancy.line.Blocked
      · refine ⟨[], tenancy, rfl, closed, fun step => ?_⟩
        exact step?_eq_none (blocked.stuck stage _)
      · have waits := sound.line.waits stage
        obtain ⟨moves, line, own, moved, ended⟩ := waits.canEnd.mpr blocked
        have flagged : tenancy.line.flag = true :=
          sound.line.flagged.mpr closed
        have still := (KeyLine.thread_steps_nearer flagged own moved).2.2
        obtain ⟨steps, last, done, rfl⟩ := steps?_of_line own moved
        have joins := KeyLine.join?_eq_some.mpr
          ⟨still.trans stage, ended, rfl⟩
        obtain ⟨gone, left, line⟩ := last.step?_of_line .join joins
        have whole : tenancy.steps? (steps ++ [.join]) = some gone :=
          (steps?_concat done .join).trans left
        refine ⟨steps ++ [.join], gone, whole, ?_⟩
        exact (sound.afterSteps whole).over_of_gone (congrArg KeyLine.stage line)

end Tenancy

/-! ### Whole lives -/

namespace ConsoleLife

def IsOver : ConsoleLife → Prop
  | .refused _ => True
  | .held listen steps => ∀ tenancy,
      (Tenancy.start listen .ordinary).steps? steps = some tenancy →
        tenancy.IsOver

/-- Whether a life went wrong: setting up failed behind its first
step, or the thread waits for room in a full line. -/
def IsSpoiled : ConsoleLife → Prop
  | .refused fault => ∀ error, fault ≠ .rawMode error
  | .held listen steps => ∃ tenancy,
      (Tenancy.start listen .ordinary).steps? steps = some tenancy ∧
        tenancy.line.Blocked

def ComesToEnd : ConsoleLife → Prop
  | .refused _ => True
  | .held listen steps => ∀ tenancy,
      (Tenancy.start listen .ordinary).steps? steps = some tenancy →
        tenancy.line.stage ≠ .rendering →
        ∃ more last, tenancy.steps? more = some last ∧ last.IsOver

variable {life : ConsoleLife} {modes : TerminalModes}

theorem gives_back_iff (lived : life.modesAfter? .ordinary = some modes)
    (stopped : life.IsOver) : modes = .ordinary ↔ ¬ life.IsSpoiled := by
  cases life with
  | refused fault =>
      obtain rfl := Option.some.inj lived
      rw [Terminal.takeOver_refused_iff, IsSpoiled,
        Classical.not_forall]
      simp only [ne_eq, Classical.not_not]
  | held listen steps =>
      obtain ⟨tenancy, moved, rfl⟩ := Option.map_eq_some_iff.mp lived
      have sound := (Tenancy.start_sound listen).afterSteps moved
      have keeps : (ConsoleLife.held listen steps).IsSpoiled ↔
          tenancy.line.Blocked := by
        simp only [IsSpoiled, moved, Option.some.injEq, exists_eq_left']
      rw [keeps, sound.modes]
      rcases sound.over_cases (stopped tenancy moved) with
        ⟨gone, free⟩ | ⟨joining, blocked⟩
      · rw [if_pos gone]
        exact iff_of_true rfl free
      · have present : tenancy.line.stage ≠ .gone := by simp [joining]
        rw [if_neg present]
        exact iff_of_false (by decide) (Classical.not_not.mpr blocked)

/-- At the end of the life of a console the terminal is as it was before,
exactly unless setting up failed behind its first step or the wait for the
thread is in vain.  A console that was let go of always comes to its end. -/
theorem terminal_given_back_iff (life : ConsoleLife) :
    (∀ modes, life.modesAfter? .ordinary = some modes → life.IsOver →
      (modes = .ordinary ↔ ¬ life.IsSpoiled)) ∧
    life.ComesToEnd := by
  refine ⟨fun _ => gives_back_iff, ?_⟩
  cases life with
  | refused fault => trivial
  | held listen steps =>
      intro tenancy moved
      exact ((Tenancy.start_sound listen).afterSteps moved).comes_to_end

def ownAddress : Net.SocketAddress :=
  { ip := .loopback
    port := 9003 }

/-- One key is read, and then the console is let go of. -/
def quietLife : ConsoleLife :=
  .held ownAddress
    [.look, .hear (.key (.alone .escape)), .deliver, .close, .look, .join]

theorem quietLife_gives_back :
    quietLife.modesAfter? .ordinary = some .ordinary ∧ quietLife.IsOver ∧
      ¬ quietLife.IsSpoiled := by
  have lived : quietLife.modesAfter? .ordinary = some .ordinary := rfl
  have stopped : quietLife.IsOver := by
    intro tenancy moved
    have sound := (Tenancy.start_sound _).afterSteps moved
    obtain rfl := Option.some.inj moved
    exact sound.over_of_gone rfl
  have back := (terminal_given_back_iff quietLife).1 .ordinary lived stopped
  exact ⟨lived, stopped, back.mp rfl⟩

def fullScreen : TakeoverFault :=
  .screen 0 (.ofOs 28)

/-- Keys crowd the line when the console is let go of. -/
def crowdedLife : ConsoleLife :=
  let quit : TerminalNews := .key (.alone (.character 'q'))
  .held ownAddress
    ((List.replicate 16 [.look, .hear quit, .deliver]).flatten ++
      [.look, .hear quit, .close])

theorem fullScreen_keeps_raw :
    Terminal.takeOver .ordinary (some fullScreen) =
      { TerminalModes.ordinary with raw := true } ∧
    (crowdedLife.modesAfter? .ordinary = some .taken ∧ crowdedLife.IsOver) ∧
    ¬ (∀ (life : ConsoleLife) (modes : TerminalModes),
        life.modesAfter? .ordinary = some modes → life.IsOver →
          modes = .ordinary) := by
  refine ⟨rfl, ⟨rfl, ?_⟩, ?_⟩
  · intro tenancy moved
    have blocked : tenancy.line.Blocked := by
      obtain rfl := Option.some.inj moved
      exact ⟨rfl, rfl⟩
    have joining : tenancy.line.stage = .joining := by
      obtain rfl := Option.some.inj moved
      rfl
    refine ⟨by simp [joining], fun step => ?_⟩
    exact Tenancy.step?_eq_none (blocked.stuck joining _)
  · intro givesBack
    have same := givesBack (.refused fullScreen) _ rfl trivial
    exact absurd same (by decide)

end ConsoleLife

end LatencyBench

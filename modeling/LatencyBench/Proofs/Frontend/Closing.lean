/-
Whether closing the console comes to an end.

While the console waits for the thread nobody empties the line of keys, so the
wait is in vain exactly if the thread has a key in hand and the line is full:
then neither of the two has a step left.  In every other line the thread is at
its end within three steps of its own, unless it hears one more key that the
line has no room for.
-/

import LatencyBench.Frontend.KeyThread

namespace LatencyBench

def KeyThread.holdsKey : KeyThread → Bool
  | .delivering _ => true
  | .takingLeave => true
  | .atFlag => false
  | .polling => false
  | .ended => false

def KeyThread.distance : KeyThread → Nat
  | .polling => 3
  | .delivering _ => 2
  | .takingLeave => 1
  | .atFlag => 1
  | .ended => 0

theorem KeyThread.distance_le (thread : KeyThread) : thread.distance ≤ 3 := by
  cases thread <;> simp [distance]

namespace KeyLine

variable {line next last : KeyLine} {step : KeyLineStep}

/-- The thread waits for room in a full line. -/
def Blocked (line : KeyLine) : Prop :=
  line.thread.holdsKey = true ∧ line.hasRoom = false

/-- Whatever the thread does by itself, it can still come to its end. -/
def EndsSurely (line : KeyLine) : Prop :=
  ∀ steps last,
    steps.all KeyLineStep.ofThread = true →
    line.steps? steps = some last → last.CanEnd

/-- The thread has no use for room, or there is some. -/
def AtEase (line : KeyLine) : Prop :=
  line.thread = .atFlag ∨ line.thread = .ended ∨ line.hasRoom = true

def deliveredAfter (before : Nat) : List KeyLineStep → Nat
  | [] => before
  | .render :: rest => deliveredAfter 0 rest
  | .deliver :: rest => deliveredAfter (before + 1) rest
  | .look :: rest => deliveredAfter before rest
  | .hear _ :: rest => deliveredAfter before rest
  | .close :: rest => deliveredAfter before rest
  | .join :: rest => deliveredAfter before rest

/-! ### What each step does -/

theorem look?_eq_some :
    line.look? = some next ↔
      line.thread = .atFlag ∧
        { line with thread := if line.flag then .ended else .polling } =
          next := by
  rcases line with ⟨waiting, flag, _ | _ | _ | _ | _, stage⟩ <;> simp [look?]

theorem hear?_eq_some {news : TerminalNews} :
    line.hear? news = some next ↔
      line.thread = .polling ∧ { line with thread := onNews news } = next := by
  rcases line with ⟨waiting, flag, _ | _ | _ | _ | _, stage⟩ <;> simp [hear?]

theorem deliver?_eq_some :
    line.deliver? = some next ↔
      line.hasRoom = true ∧
        ((∃ key, line.thread = .delivering key ∧
            { line with
              waiting := line.waiting ++ [key]
              thread := .atFlag } = next) ∨
          (line.thread = .takingLeave ∧
            { line with
              waiting := line.waiting ++ [.quit]
              thread := .ended } = next)) := by
  rcases line with ⟨waiting, flag, _ | _ | _ | _ | _, stage⟩ <;>
    simp [deliver?]

theorem render?_eq_some :
    line.render? = some next ↔
      line.stage = .rendering ∧ { line with waiting := [] } = next := by
  rcases line with ⟨waiting, flag, thread, _ | _ | _⟩ <;> simp [render?]

theorem close?_eq_some :
    line.close? = some next ↔
      line.stage = .rendering ∧
        { line with
          flag := true
          stage := .joining } = next := by
  rcases line with ⟨waiting, flag, thread, _ | _ | _⟩ <;> simp [close?]

theorem join?_eq_some :
    line.join? = some next ↔
      line.stage = .joining ∧ line.thread = .ended ∧
        { line with stage := .gone } = next := by
  rcases line with ⟨waiting, flag, thread, _ | _ | _⟩ <;> simp [join?]

theorem steps?_cons (step : KeyLineStep) (rest : List KeyLineStep) :
    line.steps? (step :: rest) = some last ↔
      ∃ next, line.step? step = some next ∧ next.steps? rest = some last :=
  Option.bind_eq_some_iff

/-! ### Lines that come about -/

/-- What holds of every line that comes about: the flag is up unless the
console is still rendered, the line is not overfull, and the console is gone
only when the thread has ended. -/
structure Sound (line : KeyLine) : Prop where
  flagged : line.flag = true ↔ line.stage ≠ .rendering
  fits : line.waiting.length ≤ capacity
  left : line.stage = .gone → line.thread = .ended

theorem start_sound : start.Sound :=
  { flagged := by decide
    fits := by decide
    left := by decide }

theorem Sound.afterStep (sound : line.Sound)
    (taken : line.step? step = some next) : next.Sound := by
  obtain ⟨flagged, fits, left⟩ := sound
  cases step with
  | look =>
      obtain ⟨atFlag, rfl⟩ := look?_eq_some.mp taken
      exact ⟨flagged, fits, fun gone => by simp [left gone] at atFlag⟩
  | hear news =>
      obtain ⟨polling, rfl⟩ := hear?_eq_some.mp taken
      exact ⟨flagged, fits, fun gone => by simp [left gone] at polling⟩
  | deliver =>
      obtain ⟨room, ⟨key, holds, rfl⟩ | ⟨leaves, rfl⟩⟩ :=
        deliver?_eq_some.mp taken
      · refine ⟨flagged, ?_, fun gone => by simp [left gone] at holds⟩
        rw [List.length_append]
        exact of_decide_eq_true room
      · refine ⟨flagged, ?_, fun _ => rfl⟩
        rw [List.length_append]
        exact of_decide_eq_true room
  | render =>
      obtain ⟨_, rfl⟩ := render?_eq_some.mp taken
      exact ⟨flagged, Nat.zero_le _, left⟩
  | close =>
      obtain ⟨_, rfl⟩ := close?_eq_some.mp taken
      exact ⟨by simp, fits, by simp⟩
  | join =>
      obtain ⟨joining, ended, rfl⟩ := join?_eq_some.mp taken
      exact ⟨by simpa [joining] using flagged, fits, fun _ => ended⟩

theorem Sound.afterSteps {steps : List KeyLineStep} (sound : line.Sound)
    (taken : line.steps? steps = some last) : last.Sound := by
  induction steps generalizing line with
  | nil => exact Option.some.inj taken ▸ sound
  | cons step rest inductionHypothesis =>
      obtain ⟨next, first, later⟩ := (steps?_cons step rest).mp taken
      exact inductionHypothesis (sound.afterStep first) later

theorem steps?_waiting {steps : List KeyLineStep}
    (taken : line.steps? steps = some last) :
    last.waiting.length = deliveredAfter line.waiting.length steps := by
  induction steps generalizing line with
  | nil => rw [← Option.some.inj taken, deliveredAfter]
  | cons step rest inductionHypothesis =>
      obtain ⟨next, first, later⟩ := (steps?_cons step rest).mp taken
      rw [inductionHypothesis later]
      cases step with
      | look => obtain ⟨_, rfl⟩ := look?_eq_some.mp first; rfl
      | hear news => obtain ⟨_, rfl⟩ := hear?_eq_some.mp first; rfl
      | deliver =>
          obtain ⟨_, ⟨_, _, rfl⟩ | ⟨_, rfl⟩⟩ := deliver?_eq_some.mp first <;>
            simp [deliveredAfter]
      | render => obtain ⟨_, rfl⟩ := render?_eq_some.mp first; rfl
      | close => obtain ⟨_, rfl⟩ := close?_eq_some.mp first; rfl
      | join => obtain ⟨_, _, rfl⟩ := join?_eq_some.mp first; rfl

/-! ### The thread on its own -/

/-- A thread that meets the raised flag is nearer to its end after each of its
steps, and the console goes on waiting. -/
theorem thread_step_nearer (flagged : line.flag = true)
    (own : step.ofThread = true) (taken : line.step? step = some next) :
    next.thread.distance < line.thread.distance ∧
      next.flag = true ∧ next.stage = line.stage := by
  cases step with
  | look =>
      obtain ⟨atFlag, rfl⟩ := look?_eq_some.mp taken
      simp [atFlag, flagged, KeyThread.distance]
  | hear news =>
      obtain ⟨polling, rfl⟩ := hear?_eq_some.mp taken
      refine ⟨?_, flagged, rfl⟩
      rw [polling]
      unfold onNews
      split
      · split <;> simp [KeyThread.distance]
      all_goals simp [KeyThread.distance]
  | deliver =>
      obtain ⟨_, ⟨key, holds, rfl⟩ | ⟨leaves, rfl⟩⟩ :=
        deliver?_eq_some.mp taken
      · simp [holds, flagged, KeyThread.distance]
      · simp [leaves, flagged, KeyThread.distance]
  | render => cases own
  | close => cases own
  | join => cases own

theorem thread_steps_nearer {steps : List KeyLineStep}
    (flagged : line.flag = true)
    (own : steps.all KeyLineStep.ofThread = true)
    (taken : line.steps? steps = some last) :
    steps.length + last.thread.distance ≤ line.thread.distance ∧
      last.flag = true ∧ last.stage = line.stage := by
  induction steps generalizing line with
  | nil =>
      obtain rfl := Option.some.inj taken
      simp [flagged]
  | cons step rest inductionHypothesis =>
      rw [List.all_cons, Bool.and_eq_true] at own
      obtain ⟨next, first, later⟩ := (steps?_cons step rest).mp taken
      obtain ⟨nearer, stillFlagged, same⟩ :=
        thread_step_nearer flagged own.1 first
      obtain ⟨near, lastFlagged, lastStage⟩ :=
        inductionHypothesis stillFlagged own.2 later
      refine ⟨?_, lastFlagged, lastStage.trans same⟩
      rw [List.length_cons]
      omega

theorem AtEase.threadStep (atEase : line.AtEase) (flagged : line.flag = true)
    (own : step.ofThread = true) (taken : line.step? step = some next) :
    next.AtEase := by
  cases step with
  | look =>
      obtain ⟨_, rfl⟩ := look?_eq_some.mp taken
      exact .inr (.inl (by simp [flagged]))
  | hear news =>
      obtain ⟨polling, rfl⟩ := hear?_eq_some.mp taken
      have room : line.hasRoom = true := by
        simpa [AtEase, polling] using atEase
      exact .inr (.inr room)
  | deliver =>
      obtain ⟨_, ⟨_, _, rfl⟩ | ⟨_, rfl⟩⟩ := deliver?_eq_some.mp taken
      · exact .inl rfl
      · exact .inr (.inl rfl)
  | render => cases own
  | close => cases own
  | join => cases own

theorem AtEase.threadSteps {steps : List KeyLineStep} (atEase : line.AtEase)
    (flagged : line.flag = true)
    (own : steps.all KeyLineStep.ofThread = true)
    (taken : line.steps? steps = some last) : last.AtEase := by
  induction steps generalizing line with
  | nil => exact Option.some.inj taken ▸ atEase
  | cons step rest inductionHypothesis =>
      rw [List.all_cons, Bool.and_eq_true] at own
      obtain ⟨next, first, later⟩ := (steps?_cons step rest).mp taken
      have stillFlagged := (thread_step_nearer flagged own.1 first).2.1
      exact inductionHypothesis (atEase.threadStep flagged own.1 first)
        stillFlagged own.2 later

theorem AtEase.not_blocked (atEase : line.AtEase) : ¬ line.Blocked := by
  rintro ⟨holds, full⟩
  rcases atEase with atFlag | ended | room
  · simp [atFlag, KeyThread.holdsKey] at holds
  · simp [ended, KeyThread.holdsKey] at holds
  · simp [room] at full

/-! ### Waiting for the thread -/

theorem Blocked.stuck (blocked : line.Blocked) (joining : line.stage = .joining)
    (step : KeyLineStep) : line.step? step = none := by
  obtain ⟨waiting, flag, thread, stage⟩ := line
  obtain ⟨holds, full⟩ := blocked
  cases joining
  cases step <;> cases thread <;>
    simp_all [step?, look?, hear?, deliver?, render?, close?, join?,
      KeyThread.holdsKey]

theorem Blocked.not_canEnd (blocked : line.Blocked)
    (joining : line.stage = .joining) : ¬ line.CanEnd := by
  rintro ⟨steps, last, _, taken, ended⟩
  cases steps with
  | nil =>
      obtain rfl := Option.some.inj taken
      simp [Blocked, ended, KeyThread.holdsKey] at blocked
  | cons step rest =>
      obtain ⟨next, first, _⟩ := (steps?_cons step rest).mp taken
      rw [blocked.stuck joining step] at first
      cases first

/-- A thread that is not blocked can end, most quickly by hearing nothing. -/
theorem canEnd_of_not_blocked (flagged : line.flag = true)
    (free : ¬ line.Blocked) : line.CanEnd := by
  obtain ⟨waiting, flag, thread, stage⟩ := line
  cases flagged
  cases thread with
  | atFlag => exact ⟨[.look], _, rfl, rfl, rfl⟩
  | polling => exact ⟨[.hear .nothing, .look], _, rfl, rfl, rfl⟩
  | delivering key =>
      have room : waiting.length < capacity := by
        simpa [Blocked, KeyThread.holdsKey, hasRoom] using free
      let last : KeyLine :=
        { waiting := waiting ++ [key]
          flag := true
          thread := .ended
          stage := stage }
      exact ⟨[.deliver, .look], last, rfl,
        by simp [steps?, step?, deliver?, look?, hasRoom, room, last], rfl⟩
  | takingLeave =>
      have room : waiting.length < capacity := by
        simpa [Blocked, KeyThread.holdsKey, hasRoom] using free
      let last : KeyLine :=
        { waiting := waiting ++ [.quit]
          flag := true
          thread := .ended
          stage := stage }
      exact ⟨[.deliver], last, rfl,
        by simp [steps?, step?, deliver?, hasRoom, room, last], rfl⟩
  | ended => exact ⟨[], _, rfl, rfl, rfl⟩

/-- With the flag up, the thread ends whatever it hears exactly if it is at
ease. -/
theorem endsSurely_iff (flagged : line.flag = true)
    (joining : line.stage = .joining) : line.EndsSurely ↔ line.AtEase := by
  constructor
  · intro surely
    refine Classical.byContradiction fun tense => ?_
    simp only [AtEase, not_or, Bool.not_eq_true] at tense
    obtain ⟨notAtFlag, notEnded, full⟩ := tense
    -- A thread that polls may hear a key; any other has one in hand already.
    by_cases polling : line.thread = .polling
    · let enter : TerminalNews := .key (.alone .enter)
      let after : KeyLine := { line with thread := .delivering .send }
      have heard : line.steps? [.hear enter] = some after := by
        simp [steps?, step?, hear?, polling, enter, after, onNews,
          ConsoleKey.ofPress?, KeyPress.alone]
      have blocked : after.Blocked := ⟨rfl, full⟩
      exact blocked.not_canEnd joining (surely _ _ rfl heard)
    · have blocked : line.Blocked := by
        refine ⟨?_, full⟩
        cases thread : line.thread <;> simp_all [KeyThread.holdsKey]
      exact blocked.not_canEnd joining (surely [] line rfl rfl)
  · intro atEase steps last own taken
    have lastFlagged := (thread_steps_nearer flagged own taken).2.1
    exact canEnd_of_not_blocked lastFlagged
      (atEase.threadSteps flagged own taken).not_blocked

/-- How waiting for the thread goes: it can end unless the thread is blocked, and
then nobody has a step left; it ends whatever is heard exactly if the thread is
at ease, and soon. -/
structure Waits (line : KeyLine) : Prop where
  canEnd : line.CanEnd ↔ ¬ line.Blocked
  stuck : (∀ step, line.step? step = none) ↔ line.Blocked
  endsSurely : line.EndsSurely ↔ line.AtEase
  soon : ∀ steps last,
    steps.all KeyLineStep.ofThread = true →
    line.steps? steps = some last → steps.length ≤ 3

theorem Sound.waits (sound : line.Sound) (joining : line.stage = .joining) :
    line.Waits := by
  have flagged : line.flag = true := sound.flagged.mpr (by simp [joining])
  have canEnd : line.CanEnd ↔ ¬ line.Blocked :=
    ⟨fun ends blocked => blocked.not_canEnd joining ends,
      canEnd_of_not_blocked flagged⟩
  refine
    { canEnd := canEnd
      stuck := ⟨fun stuck => ?_, fun blocked => blocked.stuck joining⟩
      endsSurely := endsSurely_iff flagged joining
      soon := fun steps last own taken => ?_ }
  · refine Classical.byContradiction fun free => ?_
    obtain ⟨steps, last, _, taken, ended⟩ := canEnd.mpr free
    -- The thread has a step left, or it has ended and the console has one.
    cases steps with
    | nil =>
        obtain rfl := Option.some.inj taken
        have joins := join?_eq_some.mpr ⟨joining, ended, rfl⟩
        exact absurd joins (by simp [show line.join? = none from stuck .join])
    | cons step rest =>
        obtain ⟨next, first, _⟩ := (steps?_cons step rest).mp taken
        rw [stuck step] at first
        cases first
  · have near := (thread_steps_nearer flagged own taken).1
    have far := line.thread.distance_le
    omega

structure ClosesAfter (steps : List KeyLineStep) (line : KeyLine) : Prop where
  waiting : line.waiting.length = deliveredAfter 0 steps
  fits : line.waiting.length ≤ capacity
  waits : line.stage = .joining → line.Waits
  gone : line.stage = .gone → line.thread = .ended

/-- Whatever the steps of the thread and the console were, closing it comes to
its end unless the thread waits for room in a full line. -/
theorem closing_ends_unless_blocked (steps : List KeyLineStep)
    (line : KeyLine) (reached : start.steps? steps = some line) :
    line.ClosesAfter steps := by
  have sound : line.Sound := start_sound.afterSteps reached
  exact
    { waiting := steps?_waiting reached
      fits := sound.fits
      waits := sound.waits
      gone := sound.left }

/-- Sixteen keys are delivered without a rendering in between, a seventeenth
is in hand, and the console is closed. -/
def crowdedSteps : List KeyLineStep :=
  let quit : TerminalNews := .key (.alone (.character 'q'))
  (List.replicate 16 [.look, .hear quit, .deliver]).flatten ++
    [.look, .hear quit, .close]

def crowdedLine : KeyLine :=
  { waiting := List.replicate 16 .quit
    flag := true
    thread := .delivering .quit
    stage := .joining }

theorem start_crowded : start.steps? crowdedSteps = some crowdedLine := rfl

theorem crowdedLine_closesAfter :
    start.steps? crowdedSteps = some crowdedLine ∧
      crowdedLine.ClosesAfter crowdedSteps :=
  ⟨start_crowded, closing_ends_unless_blocked _ _ start_crowded⟩

theorem crowdedLine_waits_in_vain :
    ¬ ((∀ line : KeyLine,
          line.Reachable → line.stage = .joining → line.CanEnd) ∨
        (∀ line : KeyLine,
          line.Reachable → line.stage = .joining →
          ∃ step, line.step? step ≠ none)) := by
  have reached : crowdedLine.Reachable := ⟨crowdedSteps, start_crowded⟩
  have blocked : crowdedLine.Blocked := ⟨rfl, rfl⟩
  rintro (ends | goes)
  · exact blocked.not_canEnd rfl (ends crowdedLine reached rfl)
  · obtain ⟨step, possible⟩ := goes crowdedLine reached rfl
    exact possible (blocked.stuck rfl step)

end KeyLine

end LatencyBench

/-
The headless front-end on any frames.

Nothing is assumed of the snapshots: the number of samples may jump, repeat or
go back.  What the front-end has reported is the most samples it was shown, it
has asked to close if that many reach the limit, and it remembers when it last
pressed.  What it does in a frame follows from these three alone.
-/

import LatencyBench.Frontend.Auto
import Mathlib.Data.List.Induction

namespace LatencyBench.Auto

structure Frame where
  snapshot : Snapshot
  now : Instant

def after (auto : Auto) (frames : List Frame) : Auto :=
  frames.foldl
    (fun auto frame => (auto.render frame.snapshot frame.now).state) auto

def presses (auto : Auto) : List Frame → List Instant
  | [] => []
  | frame :: rest =>
      let rendering := auto.render frame.snapshot frame.now
      (rendering.intents.map fun _ => frame.now) ++
        rendering.state.presses rest

def mostSamples (frames : List Frame) : Nat :=
  frames.foldl (fun most frame => max most frame.snapshot.stats.samples) 0

def Reaches (limit : Option Nat) (samples : Nat) : Prop :=
  ∃ enough, limit = some enough ∧ enough ≤ samples

/-- Whether an interval has passed since the last of some presses. -/
def Rested (interval : Duration) (pressed : List Instant) (now : Instant) :
    Prop :=
  ∀ last, pressed.getLast? = some last → last + interval ≤ now

variable {auto : Auto} {interval : Duration} {limit : Option Nat}
  {frames earlier later : List Frame} {frame : Frame}

/-! ### One frame more -/

theorem presses_singleton (auto : Auto) (frame : Frame) :
    auto.presses [frame] =
      (auto.render frame.snapshot frame.now).intents.map fun _ =>
        frame.now :=
  List.append_nil _

theorem mostSamples_concat (frames : List Frame) (frame : Frame) :
    mostSamples (frames ++ [frame]) =
      max (mostSamples frames) frame.snapshot.stats.samples :=
  List.foldl_append

theorem mostSamples_le_append (earlier later : List Frame) :
    mostSamples earlier ≤ mostSamples (earlier ++ later) := by
  induction later using List.reverseRecOn with
  | nil =>
      have same := congrArg mostSamples (List.append_nil earlier)
      exact Nat.le_of_eq same.symm
  | append_singleton rest frame inductionHypothesis =>
      rw [← List.append_assoc, mostSamples_concat]
      omega

theorem Reaches.mono {fewer more : Nat} (reaches : Reaches limit fewer)
    (grows : fewer ≤ more) : Reaches limit more := by
  obtain ⟨enough, isLimit, within⟩ := reaches
  exact ⟨enough, isLimit, by omega⟩

/-! ### What the front-end remembers -/

/-- What a front-end remembers of the frames it was shown. -/
structure Remembers (interval : Duration) (limit : Option Nat)
    (frames : List Frame) (pressed : List Instant) (auto : Auto) : Prop where
  sameInterval : auto.interval = interval
  sameLimit : auto.limit = limit
  logged : auto.logged = mostSamples frames
  lastPress : auto.lastPress = pressed.getLast?
  past : ∀ press ∈ pressed, ∃ frame ∈ frames, frame.now = press
  done : auto.done = true ↔ frames ≠ [] ∧ Reaches limit (mostSamples frames)

variable {pressed : List Instant}

theorem Remembers.limitReached
    (remembers : Remembers interval limit frames pressed auto) (most : Nat) :
    auto.limitReached most = true ↔ Reaches limit most := by
  rw [Auto.limitReached, remembers.sameLimit]
  cases limit <;> simp [Reaches]

/-- Time does not run backwards, so what has passed since the last press is
the difference of the two moments. -/
theorem Remembers.due
    (remembers : Remembers interval limit frames pressed auto)
    (onward : ∀ earlier ∈ frames, earlier.now ≤ frame.now) :
    auto.due frame.now = true ↔ Rested interval pressed frame.now := by
  rw [Auto.due, remembers.lastPress, remembers.sameInterval, Rested]
  cases found : pressed.getLast? with
  | none => simp
  | some last =>
      obtain ⟨shown, member, same⟩ :=
        remembers.past last (List.mem_of_getLast? found)
      have before := onward shown member
      rw [same] at before
      have passed : interval ≤ elapsed last frame.now ↔
          last + interval ≤ frame.now := Nat.le_sub_iff_add_le' before
      simp only [Option.some.injEq, forall_eq', ← passed]
      exact decide_eq_true_iff

/-- A new sample is reported under the number that is shown. -/
theorem render_log (auto : Auto) (snapshot : Snapshot) (now : Instant) :
    (auto.render snapshot now).log =
      if auto.logged < snapshot.stats.samples then
        [sampleRecord snapshot.stats.samples snapshot.lastRoundTrip]
      else [] := by
  have log : (auto.render snapshot now).log =
      if auto.logged < snapshot.stats.samples then
        [sampleRecord (max auto.logged snapshot.stats.samples)
          snapshot.lastRoundTrip]
      else [] := by
    unfold render
    dsimp only
    split
    · rfl
    · split <;> rfl
  rw [log]
  split
  · rename_i new
    rw [Nat.max_eq_right (Nat.le_of_lt new)]
  · rfl

/-- The three ways in which a frame can end. -/
theorem render_cases (auto : Auto) (snapshot : Snapshot) (now : Instant) :
    let most := max auto.logged snapshot.stats.samples
    let rendering := auto.render snapshot now
    (auto.limitReached most = true ∧
        rendering.state = { auto with logged := most, done := true } ∧
        rendering.intents = []) ∨
      (auto.limitReached most = false ∧
        (snapshot.canSend = true ∧ auto.due now = true) ∧
        rendering.state =
          { auto with logged := most, lastPress := some now } ∧
        rendering.intents = [.sendCommand]) ∨
      (auto.limitReached most = false ∧
        ¬ (snapshot.canSend = true ∧ auto.due now = true) ∧
        rendering.state = { auto with logged := most } ∧
        rendering.intents = []) := by
  intro most rendering
  unfold rendering render
  dsimp only
  split
  · rename_i reached
    exact .inl ⟨reached, rfl, rfl⟩
  · rename_i below
    split
    · rename_i pressing
      refine .inr (.inl ⟨by simpa using below, ?_, rfl, rfl⟩)
      simpa using pressing
    · rename_i waiting
      refine .inr (.inr ⟨by simpa using below, ?_, rfl, rfl⟩)
      simpa using waiting

structure Ready (interval : Duration) (limit : Option Nat)
    (earlier : List Frame) (pressed : List Instant) (frame : Frame) :
    Prop where
  below : ¬ Reaches limit (mostSamples (earlier ++ [frame]))
  enabled : frame.snapshot.canSend = true
  rested : Rested interval pressed frame.now

/-- What a front-end does in a frame after some others. -/
structure Renders (interval : Duration) (limit : Option Nat)
    (earlier : List Frame) (pressed : List Instant) (frame : Frame)
    (rendering : Rendering Auto) : Prop where
  reports : rendering.log =
    if mostSamples earlier < frame.snapshot.stats.samples then
      [sampleRecord frame.snapshot.stats.samples frame.snapshot.lastRoundTrip]
    else []
  closes : frontend.closeRequested rendering.state = true ↔
    Reaches limit (mostSamples (earlier ++ [frame]))
  presses : Ready interval limit earlier pressed frame →
    rendering.intents = [.sendCommand]
  waits : ¬ Ready interval limit earlier pressed frame →
    rendering.intents = []

section Step

variable (remembers : Remembers interval limit frames pressed auto)
  (onward : ∀ earlier ∈ frames, earlier.now ≤ frame.now)

include remembers

theorem Remembers.most :
    max auto.logged frame.snapshot.stats.samples =
      mostSamples (frames ++ [frame]) := by
  rw [remembers.logged, mostSamples_concat]

theorem Remembers.done_of_below
    (below : ¬ Reaches limit (mostSamples (frames ++ [frame]))) :
    auto.done = false := by
  cases done : auto.done with
  | false => rfl
  | true =>
      have reached := (remembers.done.mp done).2
      exact absurd (reached.mono (mostSamples_le_append frames [frame])) below

include onward

theorem Remembers.renders :
    Renders interval limit frames pressed frame
      (auto.render frame.snapshot frame.now) := by
  have log := auto.render_log frame.snapshot frame.now
  have due := remembers.due onward
  have outcome := auto.render_cases frame.snapshot frame.now
  dsimp only at outcome
  rw [remembers.most, ← Bool.not_eq_true, remembers.limitReached, due]
    at outcome
  rw [remembers.logged] at log
  rcases outcome with ⟨reached, state, intents⟩ |
    ⟨below, ⟨enabled, rested⟩, state, intents⟩ |
    ⟨below, idle, state, intents⟩
  · refine ⟨log, ?_, ?_, fun _ => intents⟩
    · rw [state]
      exact iff_of_true rfl reached
    · exact fun ready => absurd reached ready.below
  · refine ⟨log, ?_, fun _ => intents, ?_⟩
    · have still := remembers.done_of_below below
      rw [state]
      exact iff_of_false (by simp [frontend, still]) below
    · exact fun waits => absurd ⟨below, enabled, rested⟩ waits
  · refine ⟨log, ?_, ?_, fun _ => intents⟩
    · have still := remembers.done_of_below below
      rw [state]
      exact iff_of_false (by simp [frontend, still]) below
    · exact fun ready => absurd ⟨ready.enabled, ready.rested⟩ idle

/-- The step lemma. -/
theorem Remembers.render :
    Remembers interval limit (frames ++ [frame])
      (pressed ++ auto.presses [frame])
      (auto.render frame.snapshot frame.now).state := by
  have renders := remembers.renders onward
  have outcome := auto.render_cases frame.snapshot frame.now
  dsimp only at outcome
  rw [remembers.most] at outcome
  have earlier (press : Instant) (member : press ∈ pressed) :
      ∃ shown ∈ frames ++ [frame], shown.now = press := by
    obtain ⟨shown, among, same⟩ := remembers.past press member
    exact ⟨shown, List.mem_append_left _ among, same⟩
  have done : (auto.render frame.snapshot frame.now).state.done = true ↔
      frames ++ [frame] ≠ [] ∧
        Reaches limit (mostSamples (frames ++ [frame])) := by
    rw [and_iff_right (List.concat_ne_nil frame frames)]
    exact renders.closes
  rw [presses_singleton]
  rcases outcome with ⟨_, state, intents⟩ | ⟨_, _, state, intents⟩ |
    ⟨_, _, state, intents⟩
  · rw [intents, List.map_nil, List.append_nil]
    rw [state] at done ⊢
    exact ⟨remembers.sameInterval, remembers.sameLimit, rfl, remembers.lastPress,
      earlier, done⟩
  · rw [intents, List.map_singleton]
    rw [state] at done ⊢
    refine ⟨remembers.sameInterval, remembers.sameLimit, rfl, ?_, ?_, done⟩
    · exact List.getLast?_concat.symm
    · rw [List.forall_mem_append, List.forall_mem_singleton]
      exact ⟨earlier, frame, List.mem_append_right _ List.mem_cons_self, rfl⟩
  · rw [intents, List.map_nil, List.append_nil]
    rw [state] at done ⊢
    exact ⟨remembers.sameInterval, remembers.sameLimit, rfl, remembers.lastPress,
      earlier, done⟩

end Step

/-! ### All frames -/

end LatencyBench.Auto

/-
What a console shows.

An equal panel is not drawn twice, so a console has to remember the one that it
drew last.  Until a drawing breaks off, what it remembers is what stands on the
screen, however many drawings it has left out; and the first drawing that breaks
off closes it.  Keys are taken off the line one by one, first to last, and what
each of them does depends on the snapshot of the frame alone.
-/

import LatencyBench.Frontend.Console
import Mathlib.Data.List.Induction
import Mathlib.Data.List.Infix

namespace LatencyBench

open Net

/-! ### Rows of a screen -/

namespace Screen

variable (above below : List String)

theorem writeRow_split (text : String) :
    { rows := above ++ below : Screen }.writeRow above.length text =
      { rows := above ++ text :: below.drop 1 } := by
  cases below with
  | nil => simp [writeRow]
  | cons covered rest =>
      have none : above.length + 1 - (above ++ covered :: rest).length = 0 := by
        rw [List.length_append, List.length_cons]
        omega
      rw [writeRow, none]
      simp

theorem writeFrom_split (lines : List String) :
    { rows := above ++ below : Screen }.writeFrom above.length lines =
      { rows := above ++ lines ++ below.drop lines.length } := by
  induction lines generalizing above below with
  | nil => simp [writeFrom]
  | cons line rest inductionHypothesis =>
      have onward := inductionHypothesis (above ++ [line]) (below.drop 1)
      rw [List.length_append, List.length_singleton, List.drop_drop,
        List.append_assoc, List.singleton_append] at onward
      rw [writeFrom, writeRow_split, onward, List.length_cons,
        Nat.add_comm 1, List.append_assoc above [line],
        List.singleton_append]

theorem writeFrom_all {screen : Screen} {lines : List String}
    (covered : screen.rows.length ≤ lines.length) :
    (screen.writeFrom 0 lines).rows = lines := by
  have written := writeFrom_split [] screen.rows lines
  rw [List.drop_of_length_le covered, List.append_nil] at written
  exact congrArg rows written

end Screen

/-! ### The send control on the panel -/

namespace Panel

variable {snapshot : Snapshot} {listen : SocketAddress}

theorem length_rows (snapshot : Snapshot) (listen : SocketAddress) :
    (rows snapshot listen).length = 9 := rfl

theorem append_ne_enabledControl {first : String} (rest : String)
    (differs : ∃ start more, first.toList = start :: more ∧ start ≠ '[') :
    first ++ rest ≠ enabledControl := by
  obtain ⟨start, more, starts, other⟩ := differs
  intro same
  have chars := congrArg String.toList same
  have control : enabledControl.toList =
      '[' :: " Send command ]  (Enter)".toList := by decide
  rw [String.toList_append, starts, control, List.cons_append] at chars
  exact other (List.cons.inj chars).1

theorem status_ne_enabledControl : status snapshot listen ≠ enabledControl := by
  have other : ∃ start more,
      ("status: " : String).toList = start :: more ∧ start ≠ '[' :=
    ⟨_, _, rfl, by decide⟩
  unfold status
  split
  · rw [String.append_assoc, String.append_assoc]
    exact append_ne_enabledControl _ other
  · exact append_ne_enabledControl _ other

theorem aggregate_ne_enabledControl (stats : Aggregate Float) :
    aggregate stats ≠ enabledControl := by
  unfold aggregate
  split
  · decide
  · simp only [String.append_assoc]
    exact append_ne_enabledControl _ ⟨_, _, rfl, by decide⟩

theorem control_eq_iff :
    control snapshot = enabledControl ↔ snapshot.canSend = true := by
  unfold control
  split
  · rename_i enabled
    exact iff_of_true rfl enabled
  · rename_i disabled
    refine iff_of_false ?_ disabled
    split <;> decide

/-- The panel reads as enabled in the row of the control only, and exactly if
the control is. -/
theorem enabledControl_mem_iff :
    enabledControl ∈ rows snapshot listen ↔ snapshot.canSend = true := by
  have heading : title ++ "  [" ++ snapshot.transport.name ++ "]" ≠
      enabledControl := by
    simp only [String.append_assoc]
    exact append_ne_enabledControl _ ⟨_, _, rfl, by decide⟩
  have roundTrip : named "last round trip:" snapshot.lastRoundTrip ≠
      enabledControl := by
    simp only [named, String.append_assoc]
    exact append_ne_enabledControl _ ⟨_, _, rfl, by decide⟩
  have aggregate := aggregate_ne_enabledControl snapshot.stats
  have blank : "" ≠ enabledControl := by decide
  have help : "q / Esc: quit" ≠ enabledControl := by decide
  have status : status snapshot listen ≠ enabledControl :=
    status_ne_enabledControl
  rw [← control_eq_iff]
  simp only [rows, List.mem_cons, List.not_mem_nil, heading.symm,
    status.symm, blank.symm, roundTrip.symm, aggregate.symm, help.symm,
    or_false, false_or]
  exact eq_comm

end Panel

namespace Console

variable {console : Console} {listen : SocketAddress}
  {frames earlier : List Frame} {frame : Frame}

/-! ### Keys -/

/-- Keys are taken off the front of the line, one after the other: an enabled
send key raises an intent, and a quit key closes the console. -/
inductive Consumes (enabled : Bool) :
    Console → List ConsoleKey → List Intent → Console → Prop where
  | nothing (console : Console) : Consumes enabled console [] [] console
  | send {console last : Console} {left keys : List ConsoleKey}
      {intents : List Intent} (next : console.waiting = .send :: left)
      (later : Consumes enabled { console with waiting := left } keys intents
        last) :
      Consumes enabled console (.send :: keys)
        (if enabled then .sendCommand :: intents else intents) last
  | quit {console last : Console} {left keys : List ConsoleKey}
      {intents : List Intent} (next : console.waiting = .quit :: left)
      (later : Consumes enabled
        { console with
          waiting := left
          closed := true } keys intents last) :
      Consumes enabled console (.quit :: keys) intents last

theorem consumes_waiting (enabled : Bool) {keys : List ConsoleKey}
    (waits : console.waiting = keys) :
    Consumes enabled console keys (intentsOf enabled keys)
      console.takeKeys := by
  induction keys generalizing console with
  | nil =>
      have same : console.takeKeys = console := by
        simp only [takeKeys, waits, List.contains_nil, Bool.or_false]
        rw [← waits]
      rw [same]
      exact .nothing console
  | cons key rest inductionHypothesis =>
      cases key with
      | send =>
          have onward := @inductionHypothesis
            { console with waiting := rest } rfl
          have same : { console with waiting := rest }.takeKeys =
              console.takeKeys := by
            simp [takeKeys, waits]
          have raised : intentsOf enabled (.send :: rest) =
              if enabled then .sendCommand :: intentsOf enabled rest
              else intentsOf enabled rest := by
            cases enabled <;> rfl
          rw [same] at onward
          rw [raised]
          exact .send waits onward
      | quit =>
          have onward := @inductionHypothesis
            { console with
              waiting := rest
              closed := true } rfl
          have same : { console with
                waiting := rest
                closed := true }.takeKeys = console.takeKeys := by
            simp [takeKeys, waits]
          rw [same] at onward
          exact .quit waits onward

theorem intentsOf_eq (enabled : Bool) (keys : List ConsoleKey) :
    intentsOf enabled keys =
      List.replicate (if enabled then keys.count .send else 0)
        .sendCommand := by
  rw [intentsOf, List.map_const', ← List.countP_eq_length_filter]
  cases enabled with
  | false => simp
  | true =>
      simp only [Bool.and_true, if_true]
      rfl

/-! ### Drawings -/

def Frame.panel (frame : Frame) (listen : SocketAddress) : List String :=
  Panel.rows frame.snapshot listen

def lastDrawn (listen : SocketAddress) (frames : List Frame) : List String :=
  frames.foldl
    (fun drawn frame =>
      if frame.drawing = .complete then frame.panel listen else drawn) []

/-- The drawing of a frame breaks off: its panel is a new one, and the screen
does not take it. -/
def BreaksOff (listen : SocketAddress) (earlier : List Frame)
    (frame : Frame) : Prop :=
  frame.drawing ≠ .complete ∧ frame.panel listen ≠ lastDrawn listen earlier

def Broken (listen : SocketAddress) (frames : List Frame) : Prop :=
  ∃ earlier frame, earlier ++ [frame] <+: frames ∧
    BreaksOff listen earlier frame

theorem lastDrawn_concat (listen : SocketAddress) (frames : List Frame)
    (frame : Frame) :
    lastDrawn listen (frames ++ [frame]) =
      if frame.drawing = .complete then frame.panel listen
      else lastDrawn listen frames :=
  List.foldl_append

theorem length_lastDrawn_le (listen : SocketAddress) (frames : List Frame) :
    (lastDrawn listen frames).length ≤ 9 := by
  induction frames using List.reverseRecOn with
  | nil => exact Nat.zero_le _
  | append_singleton earlier frame inductionHypothesis =>
      rw [lastDrawn_concat]
      split
      · exact Nat.le_of_eq (Panel.length_rows _ _)
      · exact inductionHypothesis

theorem not_broken_nil (listen : SocketAddress) : ¬ Broken listen [] := by
  rintro ⟨earlier, frame, first, _⟩
  exact absurd (List.prefix_nil.mp first) (List.concat_ne_nil _ _)

theorem broken_concat (listen : SocketAddress) (frames : List Frame)
    (frame : Frame) :
    Broken listen (frames ++ [frame]) ↔
      Broken listen frames ∨ BreaksOff listen frames frame := by
  constructor
  · rintro ⟨earlier, broken, first, breaks⟩
    rcases List.prefix_concat_iff.mp first with whole | before
    · obtain ⟨rfl, same⟩ := List.append_inj' whole rfl
      obtain rfl := List.singleton_inj.mp same
      exact .inr breaks
    · exact .inl ⟨earlier, broken, before, breaks⟩
  · rintro (⟨earlier, broken, first, breaks⟩ | breaks)
    · exact ⟨earlier, broken, first.trans (List.prefix_append _ _), breaks⟩
    · exact ⟨frames, frame, List.prefix_rfl, breaks⟩

/-! ### What a console keeps -/

/-- What is true of a console between two frames. -/
structure Keeps (listen : SocketAddress) (frames : List Frame)
    (console : Console) : Prop where
  sameListen : console.listen = listen
  consumed : console.waiting = []
  shown : console.shown = lastDrawn listen frames
  closed : console.closed = true ↔
    (∃ frame ∈ frames, .quit ∈ frame.keys) ∨ Broken listen frames
  onScreen : ¬ Broken listen frames → console.screen.rows = console.shown

theorem start_keeps (listen : SocketAddress) :
    (start listen).Keeps listen [] where
  sameListen := rfl
  consumed := rfl
  shown := rfl
  closed := by simp [start, not_broken_nil]
  onScreen := fun _ => rfl

theorem draw_complete (complete : console.drawing = .complete)
    (lines : List String) :
    console.draw lines =
      ({ console with
         screen := console.screen.writeFrom 0 lines
         shown := lines }, []) := by
  simp only [draw, complete]

theorem draw_broken {rows : Nat} {error : IoError}
    (broken : console.drawing = .broken rows error) (lines : List String) :
    console.draw lines =
      ({ console with
         screen := console.screen.writeFrom 0 (lines.take rows)
         closed := true }, [brokenRecord error]) := by
  simp only [draw, broken]

/-- A console with the keys of a frame on its line, in front of the screen of
that frame. -/
def facing (console : Console) (frame : Frame) : Console :=
  { console.press frame.keys with drawing := frame.drawing }

/-- The three ways in which a frame can end: the panel is the one remembered,
or it is drawn, or its drawing breaks off. -/
theorem frame_cases (console : Console) (frame : Frame) :
    let lines := frame.panel console.listen
    let taken := (console.facing frame).takeKeys
    (lines = console.shown ∧
        (console.frame frame).state = taken ∧
        (console.frame frame).log = []) ∨
      (lines ≠ console.shown ∧ frame.drawing = .complete ∧
        (console.frame frame).state =
          { taken with
            screen := console.screen.writeFrom 0 lines
            shown := lines } ∧
        (console.frame frame).log = []) ∨
      (lines ≠ console.shown ∧
        ∃ rows error, frame.drawing = .broken rows error ∧
          (console.frame frame).state =
            { taken with
              screen := console.screen.writeFrom 0 (lines.take rows)
              closed := true } ∧
          (console.frame frame).log = [brokenRecord error]) := by
  intro lines taken
  have rendering : ((console.frame frame).state, (console.frame frame).log) =
      taken.refresh lines := rfl
  by_cases same : lines = console.shown
  · have kept : taken.refresh lines = (taken, []) := if_pos same
    rw [kept, Prod.mk.injEq] at rendering
    exact .inl ⟨same, rendering⟩
  · have drawn : taken.refresh lines = taken.draw lines := if_neg same
    rw [drawn] at rendering
    cases drawing : frame.drawing with
    | complete =>
        rw [draw_complete drawing, Prod.mk.injEq] at rendering
        exact .inr (.inl ⟨same, rfl, rendering⟩)
    | broken rows error =>
        rw [draw_broken drawing, Prod.mk.injEq] at rendering
        exact .inr (.inr ⟨same, rows, error, rfl, rendering⟩)

section Step

variable (keeps : console.Keeps listen frames)

include keeps

theorem Keeps.takeKeys (frame : Frame) :
    (console.facing frame).waiting = frame.keys ∧
      ((console.facing frame).takeKeys.closed = true ↔
        ((∃ shown ∈ frames ++ [frame], .quit ∈ shown.keys) ∨
          Broken listen frames)) := by
  have waiting : (console.facing frame).waiting = frame.keys :=
    congrArg (· ++ frame.keys) keeps.consumed
  refine ⟨waiting, ?_⟩
  have closed : (console.facing frame).takeKeys.closed =
      (console.closed || frame.keys.contains .quit) := by
    rw [Console.takeKeys, waiting]
    rfl
  rw [closed, Bool.or_eq_true, keeps.closed, List.contains_iff_mem]
  simp only [List.mem_append, List.mem_singleton, or_and_right, exists_or,
    exists_eq_left]
  exact or_right_comm

/-- The step lemma. -/
theorem Keeps.afterFrame (frame : Frame) :
    (console.frame frame).state.Keeps listen (frames ++ [frame]) := by
  have taken := (keeps.takeKeys frame).2
  have covered (whole : ¬ Broken listen frames) :
      (console.screen.writeFrom 0 (frame.panel listen)).rows =
        frame.panel listen := by
    apply Screen.writeFrom_all
    rw [keeps.onScreen whole, keeps.shown, Frame.panel, Panel.length_rows]
    exact length_lastDrawn_le listen frames
  have outcome := console.frame_cases frame
  dsimp only at outcome
  rw [keeps.sameListen, keeps.shown] at outcome
  rcases outcome with ⟨same, state, _⟩ | ⟨new, complete, state, _⟩ |
    ⟨new, rows, error, broken, state, _⟩
  · have whole : ¬ BreaksOff listen frames frame := fun breaks =>
      breaks.2 same
    rw [state]
    refine ⟨keeps.sameListen, rfl, ?_, ?_, ?_⟩
    · rw [lastDrawn_concat]
      split
      · exact keeps.shown.trans same.symm
      · exact keeps.shown
    · rw [taken, broken_concat, or_iff_left whole]
    · rw [broken_concat, or_iff_left whole]
      exact keeps.onScreen
  · have whole : ¬ BreaksOff listen frames frame := fun breaks =>
      breaks.1 complete
    rw [state]
    refine ⟨keeps.sameListen, rfl, ?_, ?_, ?_⟩
    · rw [lastDrawn_concat, if_pos complete]
    · rw [broken_concat, or_iff_left whole]
      exact taken
    · rw [broken_concat, or_iff_left whole]
      exact covered
  · have unfinished : frame.drawing ≠ .complete := by simp [broken]
    have breaks : BreaksOff listen frames frame := ⟨unfinished, new⟩
    rw [state]
    refine ⟨keeps.sameListen, rfl, ?_, ?_, ?_⟩
    · rw [lastDrawn_concat, if_neg unfinished]
      exact keeps.shown
    · rw [broken_concat]
      exact iff_of_true rfl (.inr (.inr breaks))
    · rw [broken_concat]
      exact fun whole => absurd (.inr breaks) whole

/-- A panel that is not drawn stands on the screen already. -/
theorem Keeps.screenAfter (frame : Frame)
    (whole : ¬ Broken listen (frames ++ [frame])) :
    (console.frame frame).state.screen.rows = frame.panel listen := by
  have after := keeps.afterFrame frame
  rw [after.onScreen whole, after.shown, lastDrawn_concat]
  split
  · rfl
  · rename_i unfinished
    rw [broken_concat, not_or] at whole
    exact (Classical.not_not.mp fun new => whole.2 ⟨unfinished, new⟩).symm

theorem Keeps.logAfter (frame : Frame) :
    ((console.frame frame).log = [] ∧ ¬ BreaksOff listen frames frame) ∨
      ∃ rows error, frame.drawing = .broken rows error ∧
        (console.frame frame).log = [brokenRecord error] ∧
        BreaksOff listen frames frame := by
  have outcome := console.frame_cases frame
  dsimp only at outcome
  rw [keeps.sameListen, keeps.shown] at outcome
  rcases outcome with ⟨same, _, log⟩ | ⟨_, complete, _, log⟩ |
    ⟨new, rows, error, broken, _, log⟩
  · exact .inl ⟨log, fun breaks => breaks.2 same⟩
  · exact .inl ⟨log, fun breaks => breaks.1 complete⟩
  · exact .inr ⟨rows, error, broken, log, by simp [broken], new⟩

end Step

/-- The run lemma. -/
theorem frames_keeps (listen : SocketAddress) (frames : List Frame) :
    ((start listen).frames frames).Keeps listen frames := by
  induction frames using List.reverseRecOn with
  | nil => exact start_keeps listen
  | append_singleton earlier frame inductionHypothesis =>
      have onward : (start listen).frames (earlier ++ [frame]) =
          (((start listen).frames earlier).frame frame).state :=
        List.foldl_append
      rw [onward]
      exact inductionHypothesis.afterFrame frame

/-! ### All frames -/

/-- What a console does in a frame after some others. -/
structure Renders (listen : SocketAddress) (earlier : List Frame)
    (frame : Frame) (before : Console) (rendering : Rendering Console) :
    Prop where
  consumes : ∃ last,
    Consumes frame.snapshot.canSend (before.facing frame) frame.keys
      rendering.intents last ∧
    last.waiting = [] ∧ rendering.state.waiting = []
  presses : rendering.intents =
    List.replicate
      (if frame.snapshot.canSend then frame.keys.count .send else 0)
      .sendCommand
  control : Panel.enabledControl ∈ frame.panel listen ↔
    frame.snapshot.canSend = true
  closes : frontend.closeRequested rendering.state = true ↔
    (∃ shown ∈ earlier ++ [frame], .quit ∈ shown.keys) ∨
      Broken listen (earlier ++ [frame])
  shows : ¬ Broken listen (earlier ++ [frame]) →
    rendering.state.screen.rows = Panel.rows frame.snapshot listen ∧
      rendering.state.screen.rows.length = 9
  reports : (rendering.log = [] ∧ ¬ BreaksOff listen earlier frame) ∨
    ∃ rows error, frame.drawing = .broken rows error ∧
      rendering.log = [brokenRecord error] ∧ BreaksOff listen earlier frame

/-- After each frame the screen shows the panel of the snapshot of that frame,
until a drawing breaks off, though equal panels are not drawn again.  Every
key is consumed in the frame it waits for; the send keys raise an intent each
exactly if the panel reads as enabled, and the console asks to be closed exactly
if a quit key was consumed or a drawing has broken off. -/
theorem console_never_stale (listen : SocketAddress) (earlier : List Frame)
    (frame : Frame) :
    Renders listen earlier frame ((start listen).frames earlier)
      (((start listen).frames earlier).frame frame) := by
  generalize found : (start listen).frames earlier = console
  have keeps : console.Keeps listen earlier := found ▸ frames_keeps listen earlier
  have after := keeps.afterFrame frame
  have waiting := (keeps.takeKeys frame).1
  have intents : (console.frame frame).intents =
      intentsOf frame.snapshot.canSend frame.keys :=
    congrArg (intentsOf frame.snapshot.canSend) waiting
  refine
    { consumes := ?_
      presses := intents.trans (intentsOf_eq _ _)
      control := Panel.enabledControl_mem_iff
      closes := after.closed
      shows := fun whole => ?_
      reports := keeps.logAfter frame }
  · refine ⟨(console.facing frame).takeKeys, ?_, rfl, after.consumed⟩
    rw [intents]
    exact consumes_waiting frame.snapshot.canSend waiting
  · have rows := keeps.screenAfter frame whole
    exact ⟨rows, rows ▸ Panel.length_rows _ _⟩

end Console

end LatencyBench

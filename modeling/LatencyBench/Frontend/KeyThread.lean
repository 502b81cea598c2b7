/-
The thread that reads keys for the console, and the line it puts them in.

The thread looks at a flag, waits for something to happen at the terminal, and
puts a key that means something into a line of limited length; while the line
is full, it waits for room.  The frame loop empties the line with each
rendering.  Closing the console raises the flag and then waits for the thread
to end; from then on nobody empties the line.
-/

import LatencyBench.Frontend.Key

namespace LatencyBench

/-- What waiting at the terminal leads to: nothing in time, a key press, some
other event, or an error of reading or of waiting itself. -/
inductive TerminalNews where
  | nothing
  | key (press : KeyPress)
  | otherEvent
  | readFailed
  | pollFailed
deriving DecidableEq, Repr

/-- Where the thread stands.  `delivering` waits for room in the line;
`takingLeave` does so for the last time. -/
inductive KeyThread where
  | atFlag
  | polling
  | delivering (key : ConsoleKey)
  | takingLeave
  | ended
deriving DecidableEq, Repr

/-- Where the console stands: it is rendered once per frame, waits for the
thread to end, or is gone. -/
inductive ConsoleStage where
  | rendering
  | joining
  | gone
deriving DecidableEq, Repr

structure KeyLine where
  waiting : List ConsoleKey
  flag : Bool
  thread : KeyThread
  stage : ConsoleStage
deriving DecidableEq, Repr

inductive KeyLineStep where
  | look
  | hear (news : TerminalNews)
  | deliver
  | render
  | close
  | join
deriving DecidableEq, Repr

def KeyLineStep.ofThread : KeyLineStep → Bool
  | .look => true
  | .hear _ => true
  | .deliver => true
  | .render => false
  | .close => false
  | .join => false

namespace KeyLine

def capacity : Nat := 16

def start : KeyLine :=
  { waiting := []
    flag := false
    thread := .atFlag
    stage := .rendering }

def hasRoom (line : KeyLine) : Bool :=
  decide (line.waiting.length < capacity)

def onNews : TerminalNews → KeyThread
  | .key press =>
      match ConsoleKey.ofPress? press with
      | some key => .delivering key
      | none => .atFlag
  | .pollFailed => .takingLeave
  | .nothing => .atFlag
  | .otherEvent => .atFlag
  | .readFailed => .atFlag

def look? (line : KeyLine) : Option KeyLine :=
  match line.thread with
  | .atFlag =>
      some { line with thread := if line.flag then .ended else .polling }
  | _ => none

def hear? (line : KeyLine) (news : TerminalNews) : Option KeyLine :=
  match line.thread with
  | .polling => some { line with thread := onNews news }
  | _ => none

def deliver? (line : KeyLine) : Option KeyLine :=
  match line.thread with
  | .delivering key =>
      if line.hasRoom then
        some
          { line with
            waiting := line.waiting ++ [key]
            thread := .atFlag }
      else none
  | .takingLeave =>
      if line.hasRoom then
        some
          { line with
            waiting := line.waiting ++ [.quit]
            thread := .ended }
      else none
  | _ => none

def render? (line : KeyLine) : Option KeyLine :=
  match line.stage with
  | .rendering => some { line with waiting := [] }
  | _ => none

def close? (line : KeyLine) : Option KeyLine :=
  match line.stage with
  | .rendering =>
      some
        { line with
          flag := true
          stage := .joining }
  | _ => none

def join? (line : KeyLine) : Option KeyLine :=
  match line.stage with
  | .joining =>
      if line.thread = .ended then some { line with stage := .gone } else none
  | _ => none

def step? (line : KeyLine) : KeyLineStep → Option KeyLine
  | .look => line.look?
  | .hear news => line.hear? news
  | .deliver => line.deliver?
  | .render => line.render?
  | .close => line.close?
  | .join => line.join?

def steps? (line : KeyLine) : List KeyLineStep → Option KeyLine
  | [] => some line
  | step :: rest => (line.step? step).bind fun next => next.steps? rest

def Reachable (line : KeyLine) : Prop :=
  ∃ steps, start.steps? steps = some line

/-- Whether the thread can come to its end by steps of its own. -/
def CanEnd (line : KeyLine) : Prop :=
  ∃ steps last,
    steps.all KeyLineStep.ofThread = true ∧
    line.steps? steps = some last ∧ last.thread = .ended

end KeyLine

end LatencyBench

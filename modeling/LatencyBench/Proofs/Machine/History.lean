/-
What a list of steps says by itself, read without any machine: which step
ends the session, which presses of the send control are accepted, and which
message answers each of them.

A press is accepted if a connection was handed over before it and every
command accepted earlier has been answered by then; a command is answered by
the first message behind it, whatever that says.  Only the steps before the
end of the session count.
-/

import LatencyBench.Machine

namespace LatencyBench.Machine

/-! ### Single steps -/

def Step.establishes : Step → Bool
  | .event (.established _) => true
  | _ => false

def Step.press? : Step → Option Instant
  | .intent .sendCommand now => some now
  | _ => none

def Step.arrival? : Step → Option Instant
  | .event (.received _ receivedAt) => some receivedAt
  | _ => none

/-- Why a step ends a session, given the steps before it: a shutdown, a fault,
or a cancellation before any connection was there. -/
def Step.ending? (past : List Step) : Step → Option Termination
  | .shutdown reason => some reason
  | .event (.failed fault) => some (.fault fault)
  | .event .cancelled =>
      if past.any Step.establishes then none else some .cancelled
  | _ => none

def lastingAfter (past : List Step) : List Step → List Step
  | [] => []
  | step :: rest =>
      match step.ending? past with
      | some _ => []
      | none => step :: lastingAfter (past ++ [step]) rest

/-- The steps before the one that ends the session. -/
def lasting (steps : List Step) : List Step := lastingAfter [] steps

theorem Step.exists_of_establishes {step : Step}
    (establishes : step.establishes = true) :
    ∃ connection, step = .event (.established connection) := by
  unfold Step.establishes at establishes
  split at establishes
  · exact ⟨_, rfl⟩
  · cases establishes

/-! ### Commands and their answers -/

/-- An accepted command: its position among the steps and its moment. -/
structure IssuedCommand where
  position : Nat
  issuedAt : Instant
deriving DecidableEq, Repr

/-- The arrival of the first message behind a command. -/
def answer? (steps : List Step) (issued : IssuedCommand) : Option Instant :=
  (steps.drop (issued.position + 1)).findSome? Step.arrival?

/-- Whether a press is accepted after some steps, given the commands accepted
among them. -/
def accepts (past : List Step) (earlier : List IssuedCommand) : Bool :=
  past.any Step.establishes &&
    earlier.all fun issued => (answer? past issued).isSome

def commandsBelow (steps : List Step) : Nat → List IssuedCommand
  | 0 => []
  | position + 1 =>
      let earlier := commandsBelow steps position
      match steps[position]?.bind Step.press? with
      | none => earlier
      | some now =>
          if accepts (steps.take position) earlier then
            earlier ++
              [{ position := position
                 issuedAt := now }]
          else earlier

def commandsOf (steps : List Step) : List IssuedCommand :=
  commandsBelow steps steps.length

/-- The milliseconds from each answered command to its answer; a message that
claims to be older than its command counts as none. -/
def roundTripsOf (steps : List Step) : List Float :=
  (commandsOf steps).filterMap fun issued =>
    (answer? steps issued).map fun receivedAt =>
      milliseconds (receivedAt - issued.issuedAt)

/-! ### One step more -/

theorem commandsBelow_append (steps more : List Step) (position : Nat)
    (within : position ≤ steps.length) :
    commandsBelow (steps ++ more) position =
      commandsBelow steps position := by
  induction position with
  | zero => rfl
  | succ position inductionHypothesis =>
      have inside : position < steps.length := by omega
      have before : position ≤ steps.length := by omega
      simp only [commandsBelow, inductionHypothesis before,
        List.getElem?_append_left inside, List.take_append_of_le_length before]

theorem commandsBelow_position {steps : List Step} {position : Nat}
    {issued : IssuedCommand}
    (member : issued ∈ commandsBelow steps position) :
    issued.position < position := by
  induction position with
  | zero => cases member
  | succ position inductionHypothesis =>
      simp only [commandsBelow] at member
      have old (present : issued ∈ commandsBelow steps position) :
          issued.position < position + 1 := by
        have smaller := inductionHypothesis present
        omega
      cases pressed : steps[position]?.bind Step.press? with
      | none =>
          rw [pressed] at member
          exact old member
      | some now =>
          rw [pressed] at member
          simp only at member
          by_cases accepted :
              accepts (steps.take position) (commandsBelow steps position)
          · rw [if_pos accepted, List.mem_append, List.mem_singleton]
              at member
            rcases member with present | last
            · exact old present
            · rw [last]
              exact Nat.lt_succ_self position
          · rw [if_neg accepted] at member
            exact old member

theorem commandsOf_position {steps : List Step} {issued : IssuedCommand}
    (member : issued ∈ commandsOf steps) :
    issued.position < steps.length :=
  commandsBelow_position member

theorem commandsOf_append (past : List Step) (step : Step) :
    commandsOf (past ++ [step]) =
      match step.press? with
      | none => commandsOf past
      | some now =>
          if accepts past (commandsOf past) then
            commandsOf past ++
              [{ position := past.length
                 issuedAt := now }]
          else commandsOf past := by
  have earlier : commandsBelow (past ++ [step]) past.length =
      commandsOf past := commandsBelow_append past [step] _ (Nat.le_refl _)
  unfold commandsOf at earlier ⊢
  simp only [List.length_append, List.length_singleton, commandsBelow,
    earlier, List.getElem?_concat_length, Option.bind_some, List.take_left]

theorem answer?_append (past : List Step) (step : Step)
    (issued : IssuedCommand) (inside : issued.position < past.length) :
    answer? (past ++ [step]) issued =
      (answer? past issued).or step.arrival? := by
  unfold answer?
  rw [List.drop_append_of_le_length inside, List.findSome?_append]
  congr 1
  simp only [List.findSome?_cons, List.findSome?_nil]
  cases step.arrival? <;> rfl

theorem answer?_last (past : List Step) (step : Step) (now : Instant) :
    answer? (past ++ [step])
      { position := past.length
        issuedAt := now } = none := by
  unfold answer?
  rw [List.drop_of_length_le (by simp)]
  rfl

end LatencyBench.Machine

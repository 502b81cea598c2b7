/-
What the phase says about the write of a command.

While a command is out the phase says whether it was written: it is sending
until the write is reported, and waits for the answer from then on.  A report
names no command, so a machine that is sending takes any report for that of
the command it has just issued.  The report of an earlier command, whose
answer was faster, makes it say that the new command was written before it
was.

Such a run is shown, and the runs without one are described exactly.
-/

import LatencyBench.Proofs.Machine.Conservation
import Mathlib.Data.List.Induction

namespace LatencyBench.Machine

def Step.isReport : Step → Bool
  | .event (.sent _) => true
  | _ => false

def reports (steps : List Step) : Nat := steps.countP Step.isReport

/-- Which command each report of a run tells of, both counted in order, the
commands from one: a report tells of a command that was issued before it, each
of another one and none of an earlier one than the report before. -/
structure Attributed (origin : Machine) (steps : List Step)
    (subject : Nat → Nat) : Prop where
  increasing : ∀ first second, first < second →
    subject first < subject second
  issued : ∀ before length later,
    steps = before ++ .event (.sent length) :: later →
    0 < subject (reports before) ∧
      subject (reports before) ≤ (origin.run before).sends

/-- Whether the write of the last command was reported.  A command that is
outstanding is always the last. -/
def LastReported (origin : Machine) (steps : List Step)
    (subject : Nat → Nat) : Prop :=
  ∃ report, report < reports steps ∧
    subject report = (origin.run steps).sends

/-- Whether the phase tells the truth about the write of the outstanding
command. -/
structure Truthful (origin : Machine) (steps : List Step)
    (subject : Nat → Nat) : Prop where
  sending : (origin.run steps).phase = .sending →
    ¬ LastReported origin steps subject
  awaiting : (origin.run steps).phase = .awaitingAck →
    LastReported origin steps subject

/-- Whether every report that finds the last command in the phase sending is
the report of that command, and not a late one of an earlier command. -/
def Prompt (origin : Machine) (steps : List Step) (subject : Nat → Nat) :
    Prop :=
  ∀ before length later,
    steps = before ++ .event (.sent length) :: later →
    (origin.run before).phase = .sending →
    subject (reports before) = (origin.run before).sends

variable {origin machine reached : Machine} {past later steps : List Step}
  {step : Step} {calls : List ConnectionCall} {subject : Nat → Nat}

/-! ### Parts of a run -/

theorem Step.exists_of_isReport (reporting : step.isReport = true) :
    ∃ length, step = .event (.sent length) := by
  unfold Step.isReport at reporting
  split at reporting
  · exact ⟨_, rfl⟩
  · cases reporting

theorem reports_concat (past : List Step) (step : Step) :
    reports (past ++ [step]) = reports past + step.isReport.toNat := by
  rw [reports, List.countP_append, List.countP_singleton]
  cases step.isReport <;> rfl

theorem Attributed.part
    (attributed : Attributed origin (past ++ later) subject) :
    Attributed origin past subject where
  increasing := attributed.increasing
  issued := by
    rintro before length rest rfl
    apply attributed.issued before length (rest ++ later)
    rw [List.append_assoc, List.cons_append]

theorem Prompt.part (prompt : Prompt origin (past ++ later) subject) :
    Prompt origin past subject := by
  rintro before length rest rfl sending
  refine prompt before length (rest ++ later) ?_ sending
  rw [List.append_assoc, List.cons_append]

/-! ### What one step does to the phase of a write -/

/-- A machine is sending after a step if it has just issued a command, or was
sending before and the step reports nothing. -/
theorem Transition.sending (taken : machine.Transition step reached calls)
    (sending : reached.phase = .sending) :
    step.isReport = false ∧
      (reached.sends = machine.sends + 1 ∨
        (machine.phase = .sending ∧ reached.sends = machine.sends)) := by
  cases taken with
  | adopt _ _ _ => cases sending
  | issue _ _ _ _ _ => exact ⟨rfl, .inl rfl⟩
  | write _ _ => cases sending
  | answer _ _ _ _ _ _ => cases sending
  | cancel _ => cases sending
  | fail _ _ => cases sending
  | shut _ _ => cases sending
  | ignore step ignores =>
      refine ⟨?_, .inr ⟨sending, rfl⟩⟩
      cases reporting : step.isReport with
      | false => rfl
      | true =>
          obtain ⟨length, rfl⟩ := Step.exists_of_isReport reporting
          exact absurd sending ignores

theorem Transition.awaiting (taken : machine.Transition step reached calls)
    (awaiting : reached.phase = .awaitingAck) :
    reached.sends = machine.sends ∧
      ((∃ length, step = .event (.sent length) ∧
          machine.phase = .sending) ∨
        machine.phase = .awaitingAck) := by
  cases taken with
  | adopt _ _ _ => cases awaiting
  | issue _ _ _ _ _ => cases awaiting
  | write length sending => exact ⟨rfl, .inl ⟨length, rfl, sending⟩⟩
  | answer _ _ _ _ _ _ => cases awaiting
  | cancel _ => cases awaiting
  | fail _ _ => cases awaiting
  | shut _ _ => cases awaiting
  | ignore _ _ => exact ⟨rfl, .inr awaiting⟩

theorem after_report (length : Nat) (sending : machine.phase = .sending) :
    machine.after (.event (.sent length)) = machine.written := by
  obtain ⟨reached, calls, next, taken⟩ :=
    machine.exists_transition (.event (.sent length))
  rw [next]
  cases taken with
  | write _ _ => rfl
  | ignore _ elsewhere => exact absurd sending elsewhere

/-! ### What the phase says is true -/

theorem Attributed.bounded (attributed : Attributed origin past subject)
    {report : Nat} (made : report < reports past) :
    subject report ≤ (origin.run past).sends := by
  induction past using List.reverseRecOn with
  | nil => cases made
  | append_singleton past step inductionHypothesis =>
      have grown := ((origin.run past).transition step).sends
      rw [run_append, run_cons, run_nil]
      rw [reports_concat] at made
      by_cases old : report < reports past
      · have earlier := inductionHypothesis attributed.part old
        omega
      · cases reporting : step.isReport with
        | false =>
            rw [reporting] at made
            exact absurd made old
        | true =>
            obtain ⟨length, rfl⟩ := Step.exists_of_isReport reporting
            have last := (attributed.issued past length [] rfl).2
            rw [reporting, Bool.toNat_true] at made
            have here : report = reports past := by omega
            rw [here]
            omega

/-- A machine that is sending has not been told of the last command. -/
theorem Attributed.sending (attributed : Attributed origin past subject)
    (sending : (origin.run past).phase = .sending) :
    ¬ LastReported origin past subject := by
  induction past using List.reverseRecOn with
  | nil =>
      rintro ⟨report, made, _⟩
      cases made
  | append_singleton past step inductionHypothesis =>
      rintro ⟨report, made, tells⟩
      rw [run_append, run_cons, run_nil] at sending tells
      obtain ⟨silent, since⟩ :=
        ((origin.run past).transition step).sending sending
      rw [reports_concat, silent, Bool.toNat_false, Nat.add_zero] at made
      rcases since with new | ⟨before, same⟩
      · -- The command is new, and every report is of one that was issued.
        have earlier := attributed.part.bounded made
        omega
      · exact inductionHypothesis attributed.part before
          ⟨report, made, tells.trans same⟩

theorem Prompt.awaiting (prompt : Prompt origin past subject)
    (fresh : origin.phase ≠ .awaitingAck)
    (awaiting : (origin.run past).phase = .awaitingAck) :
    LastReported origin past subject := by
  induction past using List.reverseRecOn with
  | nil => exact absurd awaiting fresh
  | append_singleton past step inductionHypothesis =>
      rw [run_append, run_cons, run_nil] at awaiting
      obtain ⟨same, since⟩ :=
        ((origin.run past).transition step).awaiting awaiting
      unfold LastReported
      rw [reports_concat, run_append, run_cons, run_nil, same]
      rcases since with ⟨length, rfl, sending⟩ | before
      · exact ⟨reports past, Nat.lt_succ_self _,
          prompt past length [] rfl sending⟩
      · obtain ⟨report, made, tells⟩ :=
          inductionHypothesis prompt.part before
        exact ⟨report, Nat.lt_add_right _ made, tells⟩

/-- A report that finds a machine sending is taken for that of the last
command, so what the phase says then is true only if it is that one. -/
theorem Truthful.prompt (before : List Step) (length : Nat)
    (attributed : Attributed origin before subject)
    (sending : (origin.run before).phase = .sending)
    (truthful : Truthful origin (before ++ [.event (.sent length)]) subject) :
    subject (reports before) = (origin.run before).sends := by
  have next : origin.run (before ++ [.event (.sent length)]) =
      (origin.run before).written := by
    rw [run_append, run_cons, run_nil, after_report length sending]
  obtain ⟨report, made, tells⟩ := truthful.awaiting (by rw [next]; rfl)
  rw [next] at tells
  rw [reports_concat] at made
  by_cases old : report < reports before
  · exact absurd ⟨report, old, tells⟩ (attributed.sending sending)
  · have last : report = reports before := by
      have one : Step.isReport (.event (.sent length)) = true := rfl
      rw [one, Bool.toNat_true] at made
      omega
    rw [← last]
    exact tells

/-- A machine that is sending always says the truth about the write; the
phase says it throughout a run exactly if no report of an earlier command
finds a later one in the phase sending. -/
theorem phase_truthful_iff_prompt (transport : Transport) (listening : Bool)
    (steps : List Step) (subject : Nat → Nat)
    (attributed : Attributed (start transport listening) steps subject) :
    (∀ past later, steps = past ++ later →
        ((start transport listening).run past).phase = .sending →
        ¬ LastReported (start transport listening) past subject) ∧
      ((∀ past later, steps = past ++ later →
          Truthful (start transport listening) past subject) ↔
        Prompt (start transport listening) steps subject) := by
  refine ⟨?_, ?_, ?_⟩
  · rintro past later rfl sending
    exact attributed.part.sending sending
  · rintro truthful before length later rfl sending
    apply Truthful.prompt before length attributed.part sending
    apply truthful _ later
    rw [List.append_assoc, List.singleton_append]
  · rintro prompt past later rfl
    exact
      { sending := attributed.part.sending
        awaiting := prompt.part.awaiting nofun }

/-! ### A late report -/

/-- A command is answered before its write is reported; the report comes when
the next command has been issued. -/
def overtakenReport : List Step :=
  [.event (.established { number := 0, transport := .rawTcp }),
   .intent .sendCommand 10,
   .event (.received acknowledgment 25),
   .intent .sendCommand 30,
   .event (.sent command.length)]

theorem overtakenReport_attributed :
    Attributed (start .rawTcp false) overtakenReport (· + 1) where
  increasing := fun _ _ => Nat.succ_lt_succ
  issued := by
    intro before length later split
    have last : before = overtakenReport.dropLast ∧
        length = command.length ∧ later = [] := by
      simpa [overtakenReport, List.cons_eq_append_iff] using split
    rw [last.1]
    exact ⟨Nat.succ_pos _, by decide⟩

/-- The machine says that the second command was written, though only the
write of the first one was reported. -/
theorem overtakenReport_untruthful :
    Attributed (start .rawTcp false) overtakenReport (· + 1) ∧
      ((start .rawTcp false).run overtakenReport).phase = .awaitingAck ∧
      ¬ LastReported (start .rawTcp false) overtakenReport (· + 1) := by
  refine ⟨overtakenReport_attributed, rfl, ?_⟩
  rintro ⟨report, made, tells⟩
  change report < 1 at made
  change report + 1 = 2 at tells
  omega

theorem overtakenReport_not_prompt :
    Attributed (start .rawTcp false) overtakenReport (· + 1) ∧
      ((∀ past later, overtakenReport = past ++ later →
          Truthful (start .rawTcp false) past (· + 1)) ↔
        Prompt (start .rawTcp false) overtakenReport (· + 1)) ∧
      ¬ Prompt (start .rawTcp false) overtakenReport (· + 1) := by
  have truthful := phase_truthful_iff_prompt .rawTcp false overtakenReport
    (· + 1) overtakenReport_attributed
  refine ⟨overtakenReport_attributed, truthful.2, ?_⟩
  intro prompt
  have late := prompt overtakenReport.dropLast command.length [] rfl rfl
  cases late

end LatencyBench.Machine

/-
What is reported of a speech.

A receive loop reports a message when it is whole and what ends it, and says
nothing of pings, pongs, fragments and empty messages.  Of everything that a
client can say it therefore reports the payloads of the whole messages in
order, and then the ending, once.
-/

import LatencyBench.Proofs.WebSocket.Speech

namespace LatencyBench

/-! ### Reports -/

/-- Whether a receive loop ends with something it receives. -/
def Received.isLast : Received → Bool
  | .farewell _ => true
  | .fault _ => true
  | _ => false

def ends (received : List Received) : Bool :=
  received.any Received.isLast

/-- What a receive loop reports at a moment of what it receives: messages, and
what ends it, but no answers and nothing behind the end. -/
def reported (now : Instant) : List Received → List Event
  | [] => []
  | .message payload :: rest => .received payload now :: reported now rest
  | .answer _ :: rest => reported now rest
  | .farewell _ :: _ => [.failed .closed]
  | .fault fault :: _ => [.failed fault]

theorem ends_append (first second : List Received) :
    ends (first ++ second) = (ends first || ends second) :=
  List.any_append

theorem reported_append (now : Instant) (first second : List Received) :
    reported now (first ++ second) =
      if ends first then reported now first
      else reported now first ++ reported now second := by
  induction first with
  | nil => rfl
  | cons received rest inductionHypothesis =>
      cases received with
      | message payload =>
          change Event.received payload now :: reported now (rest ++ second) =
            if ends rest then .received payload now :: reported now rest
            else .received payload now :: reported now rest ++
              reported now second
          rw [inductionHypothesis]
          split <;> rfl
      | answer bytes => exact inductionHypothesis
      | farewell answer => rfl
      | fault fault => rfl

def Unreported (received : List Received) : Prop :=
  ∀ item ∈ received, ∃ bytes, item = .answer bytes

section Unreported

variable {received : List Received}

theorem Unreported.tail {item : Received}
    (unreported : Unreported (item :: received)) : Unreported received :=
  fun other member => unreported other (List.mem_cons_of_mem _ member)

theorem Unreported.ends (unreported : Unreported received) :
    ends received = false := by
  rw [LatencyBench.ends, List.any_eq_false]
  intro item member
  obtain ⟨bytes, rfl⟩ := unreported item member
  exact Bool.false_ne_true

theorem Unreported.reported (unreported : Unreported received)
    (now : Instant) : reported now received = [] := by
  induction received with
  | nil => rfl
  | cons item rest inductionHypothesis =>
      obtain ⟨bytes, rfl⟩ := unreported item List.mem_cons_self
      exact inductionHypothesis unreported.tail

end Unreported

namespace WebSocket

open Intake

/-! ### Reports of a speech -/

theorem unreported_signals (signals : List Signal) :
    Unreported (signals.flatMap Signal.received) := by
  intro item member
  obtain ⟨signal, _, found⟩ := List.mem_flatMap.mp member
  unfold Signal.received at found
  split at found
  · exact ⟨_, List.mem_singleton.mp found⟩
  · exact absurd found List.not_mem_nil

theorem unreported_pieces (pieces : List Piece) :
    Unreported (pieces.flatMap Piece.received) := by
  intro item member
  obtain ⟨piece, _, found⟩ := List.mem_flatMap.mp member
  exact unreported_signals piece.signals item found

/-- Of a message its payload is reported, unless that is empty. -/
theorem Message.reported_received (message : Message) (now : Instant) :
    ends message.received = false ∧
      reported now message.received =
        if message.payload.isEmpty then []
        else [.received message.payload now] := by
  have earlier := unreported_pieces message.earlier
  have last := unreported_signals message.last.signals
  rw [Message.received, Piece.received]
  simp only [ends_append, reported_append, earlier.ends, last.ends,
    earlier.reported, last.reported]
  cases message.payload.isEmpty <;> exact ⟨rfl, rfl⟩

theorem reported_messages (messages : List Message) (now : Instant) :
    ends (messages.flatMap Message.received) = false ∧
      reported now (messages.flatMap Message.received) =
        ((messages.map Message.payload).filter fun payload =>
          !payload.isEmpty).map fun payload => .received payload now := by
  induction messages with
  | nil => exact ⟨rfl, rfl⟩
  | cons message rest inductionHypothesis =>
      obtain ⟨going, first⟩ := message.reported_received now
      obtain ⟨onward, others⟩ := inductionHypothesis
      rw [List.flatMap_cons, ends_append, reported_append, going, onward,
        first, others]
      refine ⟨rfl, ?_⟩
      rw [List.map_cons, List.filter_cons]
      cases message.payload.isEmpty <;> rfl

theorem Speech.reported_received (speech : Speech) (now : Instant) :
    ends speech.received = false ∧
      reported now speech.received =
        speech.payloads.map fun payload => .received payload now := by
  obtain ⟨going, messages⟩ := reported_messages speech.messages now
  have signals := unreported_signals speech.signals
  have fragment :
      Unreported (speech.fragment.elim [] Fragment.received) := by
    cases speech.fragment with
    | none => exact List.forall_mem_nil _
    | some fragment => exact unreported_pieces fragment.pieces
  rw [Speech.received, Speech.payloads]
  simp only [ends_append, reported_append, going, fragment.ends,
    signals.ends, messages, fragment.reported, signals.reported,
    Bool.or_false, Bool.false_eq_true, if_false, List.append_nil, and_self]

theorem Ending.reported_feed {begun : Option Fragments}
    (ending : Ending begun) (now : Instant) :
    ends ((ready begun).feed ending.bytes).2 = ending.isSaid ∧
      reported now ((ready begun).feed ending.bytes).2 =
        if ending.isSaid then ending.fault?.toList.map .failed else [] := by
  cases ending with
  | stillOpen rest partway =>
      rw [Ending.bytes, feed_partway begun partway]
      exact ⟨rfl, rfl⟩
  | endOfStream rest partway =>
      rw [Ending.bytes, feed_partway begun partway]
      exact ⟨rfl, rfl⟩
  | close mask words valid following =>
      obtain ⟨answer, said⟩ := feed_close begun mask valid
      rw [Ending.bytes, feed_append, said]
      exact ⟨rfl, rfl⟩
  | breach bytes violation breach following =>
      rw [Ending.bytes, feed_append, feed_breach breach]
      exact ⟨rfl, rfl⟩

theorem Speech.reported_feed (speech : Speech) (now : Instant) :
    ends ((Intake.start .webSocket).feed speech.bytes).2 =
        speech.ending.isSaid ∧
      reported now ((Intake.start .webSocket).feed speech.bytes).2 =
        (speech.payloads.map fun payload => .received payload now) ++
          if speech.ending.isSaid then
            speech.ending.fault?.toList.map .failed
          else [] := by
  obtain ⟨going, messages⟩ := speech.reported_received now
  obtain ⟨said, ending⟩ := speech.ending.reported_feed now
  rw [start_webSocket, Speech.bytes, feed_append, feed_frames]
  dsimp only
  rw [ends_append, reported_append, going, messages, said, ending]
  exact ⟨rfl, rfl⟩

end WebSocket

end LatencyBench

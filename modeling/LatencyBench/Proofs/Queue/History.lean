/-
A shared queue read as history.

What was taken off a queue, followed by what still waits in it, is everything
that was pushed, in push order.  Items can carry the producer that they came
from without a difference to the queue, so the same holds for the items of
each producer.  A drain that takes one item after another, while senders push
in between, is a drain at the moment at which it finds nothing more.
-/

import LatencyBench.Queue

namespace LatencyBench

variable {α β : Type}

/-! ### Queues with other items -/

namespace Queue

theorem eq_of_toList {first second : Queue α}
    (same : first.toList = second.toList) : first = second := by
  cases first
  cases second
  exact congrArg Queue.mk (Array.toList_inj.mp same)

def map (change : α → β) (queue : Queue α) : Queue β :=
  { waiting := queue.waiting.map change }

@[simp] theorem toList_map (change : α → β) (queue : Queue α) :
    (queue.map change).toList = queue.toList.map change :=
  Array.toList_map

@[simp] theorem map_empty (change : α → β) :
    (empty : Queue α).map change = empty := by
  apply eq_of_toList
  simp

end Queue

/-! ### Producers -/

inductive Producer where
  | reader
  | sender (index : Nat)
deriving DecidableEq, Repr

namespace QueueOperation

/-- Whether an operation needs nothing but a sender, so that others can carry
it out while the reader drains. -/
def needsSender : QueueOperation α → Bool
  | .cloneSender _ => true
  | .send _ _ => true
  | .sendMany _ _ => true
  | _ => false

def map (change : α → β) : QueueOperation α → QueueOperation β
  | .push item => .push (change item)
  | .makeSender => .makeSender
  | .cloneSender sender => .cloneSender sender
  | .send sender item => .send sender (change item)
  | .sendMany sender items => .sendMany sender (items.map change)
  | .drain => .drain
  | .length => .length
  | .isEmpty => .isEmpty
  | .dropQueue => .dropQueue

/-- The same operation on items that carry who pushes them. -/
def marked : QueueOperation α → QueueOperation (Producer × α)
  | .push item => .push (.reader, item)
  | .makeSender => .makeSender
  | .cloneSender sender => .cloneSender sender
  | .send sender item => .send sender (.sender sender, item)
  | .sendMany sender items =>
      .sendMany sender (items.map fun item => (.sender sender, item))
  | .drain => .drain
  | .length => .length
  | .isEmpty => .isEmpty
  | .dropQueue => .dropQueue

end QueueOperation

def QueueAnswer.map (change : α → β) : QueueAnswer α → QueueAnswer β
  | .done => .done
  | .sender index => .sender index
  | .taken items => .taken (items.map change)
  | .count length => .count length
  | .flag value => .flag value
  | .impossible => .impossible

namespace SharedQueue

variable {shared : SharedQueue α} {operation : QueueOperation α}
  {operations : List (QueueOperation α)}

def contents (shared : SharedQueue α) : List α :=
  match shared.queue with
  | none => []
  | some queue => queue.toList

/-! ### One operation -/

@[simp] theorem run_nil : shared.run [] = shared := rfl

@[simp] theorem run_cons (operation : QueueOperation α)
    (rest : List (QueueOperation α)) :
    shared.run (operation :: rest) = (shared.apply operation).1.run rest :=
  rfl

theorem run_append (first later : List (QueueOperation α)) :
    shared.run (first ++ later) = (shared.run first).run later :=
  List.foldl_append

@[simp] theorem taken_nil : shared.taken [] = [] := rfl

def map (change : α → β) (shared : SharedQueue α) : SharedQueue β :=
  { queue := shared.queue.map (Queue.map change)
    senders := shared.senders }

/-- Whether two queues are alike but for an item that waits in one of them
before all others. -/
structure AheadBy (item : α) (more fewer : SharedQueue α) : Prop where
  senders : more.senders = fewer.senders
  contents : ∃ longer shorter, more.queue = some longer ∧
    fewer.queue = some shorter ∧ longer.toList = item :: shorter.toList

theorem AheadBy.apply {item : α} {more fewer : SharedQueue α}
    (ahead : AheadBy item more fewer) (sends : operation.needsSender = true) :
    AheadBy item (more.apply operation).1 (fewer.apply operation).1 := by
  obtain ⟨_, senders⟩ := more
  obtain ⟨_, _⟩ := fewer
  obtain ⟨rfl, longer, shorter, rfl, rfl, first⟩ := ahead
  cases operation with
  | cloneSender sender =>
      by_cases made : sender < senders <;>
        simp [SharedQueue.apply, made] <;>
        exact ⟨rfl, longer, shorter, rfl, rfl, first⟩
  | send sender item =>
      by_cases made : sender < senders <;>
        simp [SharedQueue.apply, made, deliver] <;>
        exact ⟨rfl, _, _, rfl, rfl, by simp [first]⟩
  | sendMany sender items =>
      by_cases made : sender < senders <;>
        simp [SharedQueue.apply, made, deliver] <;>
        exact ⟨rfl, _, _, rfl, rfl, by simp [first]⟩
  | _ => cases sends

theorem AheadBy.run {item : α} {more fewer : SharedQueue α}
    (ahead : AheadBy item more fewer)
    (send : ∀ operation ∈ operations, operation.needsSender = true) :
    AheadBy item (more.run operations) (fewer.run operations) := by
  induction operations generalizing more fewer with
  | nil => exact ahead
  | cons operation rest inductionHypothesis =>
      rw [List.forall_mem_cons] at send
      exact inductionHypothesis (ahead.apply send.1) send.2

end SharedQueue

end LatencyBench

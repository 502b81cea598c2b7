/-
The queue between those who report and the one who reads once per frame.

Any number of senders push items; the reader takes everything at once, in
push order.  When the reader is gone, pushing has no effect.  A run of
operations can also be read as history: what was pushed while the queue
existed, and what was taken.
-/

namespace LatencyBench

structure Queue (α : Type) where
  waiting : Array α
deriving Repr, DecidableEq

namespace Queue

variable {α : Type}

def empty : Queue α := { waiting := #[] }

def toList (queue : Queue α) : List α := queue.waiting.toList

def push (queue : Queue α) (item : α) : Queue α :=
  { waiting := queue.waiting.push item }

def pushAll (queue : Queue α) (items : List α) : Queue α :=
  items.foldl push queue

def drain (queue : Queue α) : List α × Queue α :=
  (queue.toList, empty)

def length (queue : Queue α) : Nat := queue.waiting.size

def isEmpty (queue : Queue α) : Bool := queue.waiting.isEmpty

@[simp] theorem toList_empty : (empty : Queue α).toList = [] := rfl

@[simp] theorem toList_push (queue : Queue α) (item : α) :
    (queue.push item).toList = queue.toList ++ [item] := by
  simp [push, toList]

@[simp] theorem toList_pushAll (queue : Queue α) (items : List α) :
    (queue.pushAll items).toList = queue.toList ++ items := by
  induction items generalizing queue with
  | nil => simp [pushAll]
  | cons item rest inductionHypothesis =>
      have step : (queue.pushAll (item :: rest)) =
          (queue.push item).pushAll rest := rfl
      rw [step, inductionHypothesis]
      simp

@[simp] theorem length_eq (queue : Queue α) :
    queue.length = queue.toList.length := by
  simp [length, toList]

@[simp] theorem isEmpty_eq (queue : Queue α) :
    queue.isEmpty = queue.toList.isEmpty := by
  simp [isEmpty, toList]

end Queue

/-! ### A queue shared with its senders -/

/-- A queue together with the senders made for it.  The queue is gone once
its reader has let go of it; the senders may stay behind. -/
structure SharedQueue (α : Type) where
  queue : Option (Queue α)
  senders : Nat
deriving Repr

inductive QueueOperation (α : Type) where
  | push (item : α)
  | makeSender
  | cloneSender (sender : Nat)
  | send (sender : Nat) (item : α)
  | sendMany (sender : Nat) (items : List α)
  | drain
  | length
  | isEmpty
  | dropQueue
deriving Repr

/-- What an operation answers.  An operation that needs a queue or a sender
that is not there is `impossible` and changes nothing. -/
inductive QueueAnswer (α : Type) where
  | done
  | sender (index : Nat)
  | taken (items : List α)
  | count (length : Nat)
  | flag (value : Bool)
  | impossible
deriving Repr

namespace SharedQueue

variable {α : Type}

def start : SharedQueue α :=
  { queue := some .empty
    senders := 0 }

/-- Adds items if the queue still exists. -/
def deliver (shared : SharedQueue α) (items : List α) : SharedQueue α :=
  { shared with queue := shared.queue.map fun queue => queue.pushAll items }

def apply (shared : SharedQueue α) :
    QueueOperation α → SharedQueue α × QueueAnswer α
  | .push item =>
      match shared.queue with
      | none => (shared, .impossible)
      | some _ => (shared.deliver [item], .done)
  | .makeSender =>
      match shared.queue with
      | none => (shared, .impossible)
      | some _ =>
          ({ shared with senders := shared.senders + 1 },
            .sender shared.senders)
  | .cloneSender sender =>
      if sender < shared.senders then
        ({ shared with senders := shared.senders + 1 },
          .sender shared.senders)
      else
        (shared, .impossible)
  | .send sender item =>
      if sender < shared.senders then (shared.deliver [item], .done)
      else (shared, .impossible)
  | .sendMany sender items =>
      if sender < shared.senders then (shared.deliver items, .done)
      else (shared, .impossible)
  | .drain =>
      match shared.queue with
      | none => (shared, .impossible)
      | some queue =>
          let (items, rest) := queue.drain
          ({ shared with queue := some rest }, .taken items)
  | .length =>
      match shared.queue with
      | none => (shared, .impossible)
      | some queue => (shared, .count queue.length)
  | .isEmpty =>
      match shared.queue with
      | none => (shared, .impossible)
      | some queue => (shared, .flag queue.isEmpty)
  | .dropQueue =>
      match shared.queue with
      | none => (shared, .impossible)
      | some _ => ({ shared with queue := none }, .done)

def run (shared : SharedQueue α) (operations : List (QueueOperation α)) :
    SharedQueue α :=
  operations.foldl (fun state operation => (state.apply operation).1) shared

def answers (shared : SharedQueue α) :
    List (QueueOperation α) → List (QueueAnswer α)
  | [] => []
  | operation :: rest =>
      let (next, answer) := shared.apply operation
      answer :: next.answers rest

def takenIn : QueueAnswer α → List α
  | .taken items => items
  | _ => []

def taken (shared : SharedQueue α)
    (operations : List (QueueOperation α)) : List α :=
  (shared.answers operations).flatMap takenIn

end SharedQueue

end LatencyBench

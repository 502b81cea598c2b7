/-
Front-ends: whatever a session is shown to.

Once per frame a front-end is rendered; that is the only place where it may
ask for something.  Between frames it may say that its user closed it.
-/

import LatencyBench.Snapshot

namespace LatencyBench

/-- What one rendering leads to: the next state of the front-end, the intents
it raises, and what it logs. -/
structure Rendering (φ : Type) where
  state : φ
  intents : List Intent := []
  log : List LogRecord := []

structure Frontend (φ : Type) where
  closeRequested : φ → Bool
  render : φ → Snapshot → Instant → Rendering φ

end LatencyBench

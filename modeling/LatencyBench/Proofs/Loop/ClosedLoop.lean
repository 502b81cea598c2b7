/-
The closed loop: a session whose far end is the simulated peer never takes a
message that it did not ask for.

The accounts of the wire bound how many reports and messages there can be; the
exchange says which of them wait for the machine, and what the machine makes
of that.  Together they are kept by everything that can happen.
-/

import LatencyBench.Frontend.Scripted
import LatencyBench.Proofs.Loop.Bookkeeping
import LatencyBench.Proofs.Run.Stamps

namespace LatencyBench.Loop

/-! ### The exchange -/

/-- Where a machine stands with its command, by the reports and the messages
that wait for it.  `sents` counts the commands that were reported as written,
`receipts` the messages that were received, whether or not the machine has
taken them yet. -/
inductive Exchange (machine : Machine) :
    List Event → Nat → Nat → Prop where
  | idle (still : machine.phase ≠ .sending)
      (unasked : machine.phase ≠ .awaitingAck)
      (going : machine.phase ≠ .terminated)
      (even : machine.sends = machine.stats.samples) :
      Exchange machine [] machine.stats.samples machine.stats.samples
  | posted (sending : machine.phase = .sending)
      (ahead : machine.sends = machine.stats.samples + 1) :
      Exchange machine [] machine.stats.samples machine.stats.samples
  | out (length : Nat) (sending : machine.phase = .sending)
      (ahead : machine.sends = machine.stats.samples + 1) :
      Exchange machine [.sent length] (machine.stats.samples + 1)
        machine.stats.samples
  | returned (length : Nat) (issuedAt receivedAt : Instant)
      (sending : machine.phase = .sending)
      (ahead : machine.sends = machine.stats.samples + 1)
      (stamped : machine.measurement.issuedAt = some issuedAt)
      (later : issuedAt ≤ receivedAt) :
      Exchange machine [.sent length, .received acknowledgment receivedAt]
        (machine.stats.samples + 1) (machine.stats.samples + 1)
  | awaited (awaiting : machine.phase = .awaitingAck)
      (ahead : machine.sends = machine.stats.samples + 1) :
      Exchange machine [] (machine.stats.samples + 1) machine.stats.samples
  | answered (issuedAt receivedAt : Instant)
      (awaiting : machine.phase = .awaitingAck)
      (ahead : machine.sends = machine.stats.samples + 1)
      (stamped : machine.measurement.issuedAt = some issuedAt)
      (later : issuedAt ≤ receivedAt) :
      Exchange machine [.received acknowledgment receivedAt]
        (machine.stats.samples + 1) (machine.stats.samples + 1)
  | finished (waiting : List Event) {sents receipts : Nat}
      (ended : machine.phase = .terminated)
      (counted : machine.stats.samples ≤ receipts)
      (ahead : machine.sends ≤ machine.stats.samples + 1) :
      Exchange machine waiting sents receipts

section Exchange

variable {machine : Machine} {waiting : List Event} {sents receipts : Nat}

theorem Exchange.bounds (exchange : Exchange machine waiting sents receipts) :
    machine.stats.samples ≤ receipts ∧
      machine.sends ≤ machine.stats.samples + 1 := by
  cases exchange with
  | idle _ _ _ even => exact ⟨Nat.le_refl _, by omega⟩
  | posted _ ahead => exact ⟨Nat.le_refl _, by omega⟩
  | out _ _ ahead => exact ⟨Nat.le_refl _, by omega⟩
  | returned _ _ _ _ ahead _ _ => exact ⟨Nat.le_succ _, by omega⟩
  | awaited _ ahead => exact ⟨Nat.le_refl _, by omega⟩
  | answered _ _ _ ahead _ _ => exact ⟨Nat.le_succ _, by omega⟩
  | finished _ _ counted ahead => exact ⟨counted, ahead⟩

/-- What the wire brings fits in: a report only of the command that was
posted, and a message only for the command that was reported. -/
theorem Exchange.brought {now : Instant} {events : List Event}
    {written messages : Nat}
    (exchange : Exchange machine waiting sents receipts)
    (consistent : machine.Consistent)
    (issued : ∀ issuedAt, machine.measurement.issuedAt = some issuedAt →
      issuedAt ≤ now)
    (brought : Brought now machine.sends sents receipts events written
      messages) :
    Exchange machine (waiting ++ events.filter isTraffic) written
      messages := by
  cases brought with
  | quiet silent =>
      rw [silent, List.append_nil]
      exact exchange
  | sent length report within =>
      rw [report]
      cases exchange with
      | idle _ _ _ even => omega
      | posted sending ahead => exact .out length sending ahead
      | out _ _ ahead => omega
      | returned _ _ _ _ ahead _ _ => omega
      | awaited _ ahead => omega
      | answered _ _ _ ahead _ _ => omega
      | finished _ ended counted ahead => exact .finished _ ended counted ahead
  | received count messages within =>
      rw [messages]
      -- At most one message is missing, and none before its report.
      have stamp (pending : machine.measurement.pending = true) :
          ∃ issuedAt, machine.measurement.issuedAt = some issuedAt ∧
            issuedAt ≤ now := by
        obtain ⟨issuedAt, stamped⟩ :=
          Option.isSome_iff_exists.mp (consistent.stamped pending)
        exact ⟨issuedAt, stamped, issued issuedAt stamped⟩
      cases exchange with
      | idle still unasked going even =>
          have none : count = 0 := by omega
          subst none
          exact .idle still unasked going even
      | posted sending ahead =>
          have none : count = 0 := by omega
          subst none
          exact .posted sending ahead
      | out length sending ahead =>
          have few : count = 0 ∨ count = 1 := by omega
          rcases few with none | one
          · subst none
            exact .out length sending ahead
          · subst one
            obtain ⟨issuedAt, stamped, later⟩ :=
              stamp (consistent.outstanding.mpr (.inl sending))
            exact .returned length issuedAt now sending ahead stamped later
      | returned length issuedAt receivedAt sending ahead stamped later =>
          have none : count = 0 := by omega
          subst none
          exact .returned length issuedAt receivedAt sending ahead stamped
            later
      | awaited awaiting ahead =>
          have few : count = 0 ∨ count = 1 := by omega
          rcases few with none | one
          · subst none
            exact .awaited awaiting ahead
          · subst one
            obtain ⟨issuedAt, stamped, later⟩ :=
              stamp (consistent.outstanding.mpr (.inr awaiting))
            exact .answered issuedAt now awaiting ahead stamped later
      | answered issuedAt receivedAt awaiting ahead stamped later =>
          have none : count = 0 := by omega
          subst none
          exact .answered issuedAt receivedAt awaiting ahead stamped later
      | finished _ ended counted ahead =>
          exact .finished _ ended (by omega) ahead

theorem Exchange.ended (exchange : Exchange machine waiting sents receipts)
    (reason : Termination) (rest : List Event) :
    Exchange (machine.ended reason) rest sents receipts := by
  obtain ⟨counted, ahead⟩ := exchange.bounds
  exact .finished rest rfl counted ahead

/-- A message at the head is the acknowledgment of the command in hand. -/
theorem Exchange.received {payload : Payload} {receivedAt : Instant}
    {rest : List Event}
    (exchange : Exchange machine (.received payload receivedAt :: rest) sents
      receipts) (going : machine.phase ≠ .terminated) :
    payload = acknowledgment ∧ machine.phase = .awaitingAck ∧
      (∃ issuedAt, machine.measurement.issuedAt = some issuedAt ∧
        issuedAt ≤ receivedAt) ∧
      rest = [] ∧ machine.sends = machine.stats.samples + 1 ∧
      sents = machine.stats.samples + 1 ∧
      receipts = machine.stats.samples + 1 := by
  cases exchange with
  | answered issuedAt _ awaiting ahead stamped later =>
      exact ⟨rfl, awaiting, ⟨issuedAt, stamped, later⟩, rfl, ahead, rfl, rfl⟩
  | finished _ ended _ _ => exact absurd ended going

theorem Exchange.adopted (exchange : Exchange machine waiting sents receipts)
    (connection : Connection)
    (waits : machine.phase = .awaitingConnection) :
    Exchange (machine.adopted connection) waiting sents receipts := by
  cases exchange with
  | idle _ _ _ even => exact .idle nofun nofun nofun even
  | posted sending _ => rw [waits] at sending; cases sending
  | out _ sending _ => rw [waits] at sending; cases sending
  | returned _ _ _ sending _ _ _ => rw [waits] at sending; cases sending
  | awaited awaiting _ => rw [waits] at awaiting; cases awaiting
  | answered _ _ awaiting _ _ _ => rw [waits] at awaiting; cases awaiting
  | finished _ ended _ _ => rw [waits] at ended; cases ended

/-- Only an idle machine issues a command: all else is outstanding or over. -/
theorem Exchange.issued (exchange : Exchange machine waiting sents receipts)
    (consistent : machine.Consistent) (now : Instant)
    (connected : machine.phase.isConnected = true)
    (idle : machine.measurement.pending = false) :
    Exchange (machine.issued now) waiting sents receipts := by
  have busy (outstanding : machine.phase = .sending ∨
      machine.phase = .awaitingAck) : False := by
    have pending := consistent.outstanding.mpr outstanding
    rw [idle] at pending
    cases pending
  cases exchange with
  | idle _ _ _ even => exact .posted rfl (congrArg (· + 1) even)
  | posted sending _ => exact (busy (.inl sending)).elim
  | out _ sending _ => exact (busy (.inl sending)).elim
  | returned _ _ _ sending _ _ _ => exact (busy (.inl sending)).elim
  | awaited awaiting _ => exact (busy (.inr awaiting)).elim
  | answered _ _ awaiting _ _ _ => exact (busy (.inr awaiting)).elim
  | finished _ ended _ _ => rw [ended] at connected; cases connected

theorem Exchange.written {length : Nat}
    (exchange : Exchange machine (.sent length :: waiting) sents receipts)
    (sending : machine.phase = .sending) :
    Exchange machine.written waiting sents receipts := by
  cases exchange with
  | out _ _ ahead => exact .awaited rfl ahead
  | returned _ issuedAt receivedAt _ ahead stamped later =>
      exact .answered issuedAt receivedAt rfl ahead stamped later
  | finished _ ended _ _ => rw [sending] at ended; cases ended

theorem Exchange.settled {payload : Payload} {issuedAt receivedAt : Instant}
    (exchange : Exchange machine (.received payload receivedAt :: waiting)
      sents receipts) (going : machine.phase ≠ .terminated) :
    Exchange (machine.answered issuedAt receivedAt) waiting sents
      receipts := by
  obtain ⟨_, _, _, none, ahead, written, messages⟩ := exchange.received going
  rw [none, written, messages]
  have samples := machine.stats.record_samples
    (roundTrip issuedAt receivedAt)
  have even : (machine.answered issuedAt receivedAt).sends =
      (machine.answered issuedAt receivedAt).stats.samples :=
    ahead.trans samples.symm
  rw [← samples]
  exact .idle nofun nofun nofun even

theorem Exchange.ignored {step : Machine.Step} {events : List Event}
    (exchange : Exchange machine
      ((step.carried ++ events).filter isTraffic) sents receipts)
    (consistent : machine.Consistent) (ignores : machine.Ignores step) :
    Exchange machine (events.filter isTraffic) sents receipts := by
  cases step with
  | intent intent now => exact exchange
  | shutdown reason => exact exchange
  | event event =>
      cases event with
      | established connection => exact exchange
      | cancelled => exact exchange
      | failed fault => exact exchange
      | sent length =>
          change Exchange machine (.sent length :: events.filter isTraffic)
            _ _ at exchange
          generalize events.filter isTraffic = traffic at exchange ⊢
          cases exchange with
          | out _ sending _ => exact absurd sending ignores
          | returned _ _ _ sending _ _ _ => exact absurd sending ignores
          | finished _ ended counted ahead =>
              exact .finished traffic ended counted ahead
      | received payload receivedAt =>
          obtain ⟨counted, ahead⟩ := exchange.bounds
          by_cases ended : machine.phase = .terminated
          · exact .finished _ ended counted ahead
          · obtain ⟨_, awaiting, _⟩ := exchange.received ended
            have pending := consistent.outstanding.mpr (.inr awaiting)
            rw [consistent.idle_of_ignored ignores] at pending
            cases pending

theorem Exchange.taken {next : Machine} {step : Machine.Step}
    {calls : List ConnectionCall} {events : List Event}
    (exchange : Exchange machine
      ((step.carried ++ events).filter isTraffic) sents receipts)
    (consistent : machine.Consistent)
    (taken : machine.Transition step next calls) :
    Exchange next (events.filter isTraffic) sents receipts := by
  cases taken with
  | adopt connection waits _ => exact exchange.adopted connection waits
  | issue now _ connected idle _ =>
      exact exchange.issued consistent now connected idle
  | write _ sending => exact Exchange.written exchange sending
  | answer _ _ _ going _ _ => exact Exchange.settled exchange going
  | cancel _ => exact exchange.ended .cancelled _
  | fail fault _ => exact exchange.ended (.fault fault) _
  | shut reason _ => exact exchange.ended reason _
  | ignore step ignores => exact exchange.ignored consistent ignores

end Exchange

/-! ### Calls -/

section Calls

variable {wire : Wire} {sents receipts : Nat}

theorem Accounted.callAll {posts : Nat} (calls : List ConnectionCall)
    (other : ∀ made ∈ calls, ∀ payload, made.call ≠ .send payload)
    (accounted : Accounted wire.endpoint wire.peer posts sents receipts) :
    Accounted (Wire.surroundings.callAll wire calls).1.endpoint
        (Wire.surroundings.callAll wire calls).1.peer posts sents receipts ∧
      (Wire.surroundings.callAll wire calls).2.filter isTraffic = [] := by
  induction calls generalizing wire with
  | nil => exact ⟨accounted, rfl⟩
  | cons made rest inductionHypothesis =>
      obtain ⟨performed, quiet⟩ := accounted.perform made
        (other made List.mem_cons_self)
      have next : Accounted (Wire.surroundings.call wire made).1.endpoint
          (Wire.surroundings.call wire made).1.peer posts sents receipts :=
        performed
      obtain ⟨last, silent⟩ := inductionHypothesis
        (fun later member => other later (List.mem_cons_of_mem made member))
        next
      refine ⟨last, ?_⟩
      change ((Wire.surroundings.call wire made).2 ++
        (Wire.surroundings.callAll (Wire.surroundings.call wire made).1
          rest).2).filter isTraffic = []
      rw [List.filter_append, silent, List.append_nil]
      exact quiet

theorem parting_other :
    ∀ call ∈ [Call.close, Call.drop], ∀ payload, call ≠ .send payload := by
  intro call member payload
  rcases List.mem_cons.mp member with close | last
  · rw [close]
    exact nofun
  · rw [List.mem_singleton.mp last]
    exact nofun

theorem callsOnHeld_other {machine : Machine} {calls : List Call}
    (other : ∀ call ∈ calls, ∀ payload, call ≠ .send payload) :
    ∀ made ∈ machine.callsOnHeld calls, ∀ payload,
      made.call ≠ .send payload := by
  intro made member
  exact other made.call (Machine.mem_callsOnHeld.mp member).2

theorem refusal_other (machine : Machine) (step : Machine.Step) :
    ∀ made ∈ machine.refusal step, ∀ payload,
      made.call ≠ .send payload := by
  intro made member
  exact parting_other made.call (Machine.refusal_parts member).2

theorem Accounted.calls {machine next : Machine} {step : Machine.Step}
    {calls : List ConnectionCall}
    (accounted : Accounted wire.endpoint wire.peer machine.sends sents
      receipts) (taken : machine.Transition step next calls) :
    Accounted (Wire.surroundings.callAll wire calls).1.endpoint
        (Wire.surroundings.callAll wire calls).1.peer next.sends sents
        receipts ∧
      (Wire.surroundings.callAll wire calls).2.filter isTraffic = [] := by
  cases taken with
  | issue now connection _ _ _ =>
      obtain ⟨next, quiet⟩ := accounted.post connection
      refine ⟨next, ?_⟩
      change ((Wire.surroundings.call wire _).2 ++ []).filter _ = []
      rw [List.append_nil]
      exact quiet
  | adopt connection _ _ =>
      apply accounted.callAll
      intro made member payload
      cases List.mem_singleton.mp member
      exact nofun
  | write _ _ => exact ⟨accounted, rfl⟩
  | answer _ _ _ _ _ _ =>
      apply accounted.callAll
      apply callsOnHeld_other
      intro call member payload
      cases List.mem_singleton.mp member
      exact nofun
  | cancel _ => exact accounted.callAll _ (callsOnHeld_other parting_other)
  | fail _ _ => exact accounted.callAll _ (callsOnHeld_other parting_other)
  | shut _ _ => exact accounted.callAll _ (callsOnHeld_other parting_other)
  | ignore step _ => exact accounted.callAll _ (refusal_other machine step)

end Calls

/-! ### The loop -/

structure Looped (machine : Machine) (wire : Wire) (events : List Event) :
    Prop where
  timely : Timely Wire.surroundings machine wire events
  exchanges : ∃ sents receipts,
    Accounted wire.endpoint wire.peer machine.sends sents receipts ∧
      Exchange machine (events.filter isTraffic) sents receipts

/-- Everything that can happen in a closed loop keeps what holds of it. -/
theorem looped_keeps :
    Wire.surroundings.Keeps (fun step => isSimulated step = true)
      Looped where
  instant := Wire.surroundings_punctual.call_clock
  taking machine wire step events stamped looped := by
    have taken := machine.transition step
    obtain ⟨sents, receipts, accounted, exchange⟩ := looped.exchanges
    have next := exchange.taken looped.timely.consistent taken
    obtain ⟨last, quiet⟩ := accounted.calls taken
    refine
      { timely := (timely_keeps Wire.surroundings_punctual).taking machine
          wire step events stamped looped.timely
        exchanges := ⟨sents, receipts, last, ?_⟩ }
    rw [List.filter_append, quiet, List.append_nil]
    exact next
  beside machine wire step events simulated looped := by
    obtain ⟨sents, receipts, accounted, exchange⟩ := looped.exchanges
    obtain ⟨written, messages, next, brought⟩ := accounted.step simulated
    refine
      { timely := (timely_keeps Wire.surroundings_punctual).beside machine
          wire step events trivial looped.timely
        exchanges := ⟨written, messages, next, ?_⟩ }
    rw [List.filter_append]
    exact exchange.brought looped.timely.consistent looped.timely.issued
      brought
  noticing machine wire events engine same cancelled runtime looped := by
    obtain ⟨sents, receipts, accounted, exchange⟩ := looped.exchanges
    refine
      { timely := (timely_keeps Wire.surroundings_punctual).noticing machine
          wire events engine same cancelled runtime looped.timely
        exchanges := ⟨sents, receipts, ?_, exchange⟩ }
    change Accounted (wire.notice engine).endpoint wire.peer _ _ _
    unfold Wire.notice
    rw [cancelled, runtime]
    cases engine.machine.listening with
    | true => exact accounted
    | false => exact accounted.cancelAccept
  lettingGo machine wire events engine same ended cancelled runtime looped :=
    by
    obtain ⟨sents, receipts, accounted, exchange⟩ := looped.exchanges
    refine
      { timely := (timely_keeps Wire.surroundings_punctual).lettingGo machine
          wire events engine same ended cancelled runtime looped.timely
        exchanges := ⟨sents, receipts, ?_, exchange⟩ }
    change Accounted (wire.notice engine).endpoint wire.peer _ _ _
    unfold Wire.notice
    rw [cancelled, runtime]
    cases engine.machine.listening with
    | true => exact accounted.halt
    | false => exact accounted.cancelAccept.halt

theorem start_looped (config : Config) :
    Looped (.start config.transport true) (.start config.transport) [] where
  timely :=
    { consistent := Machine.start_consistent config.transport true
      issued := nofun
      received := nofun }
  exchanges := by
    refine ⟨0, 0, .alone 0 rfl rfl nofun, ?_⟩
    exact .idle nofun nofun nofun rfl

/-- Whether every command that was answered was counted by the peer, and every
command that the peer counted was sent, at most one of them without having
been answered. -/
def Tallies (machine : Machine) (peer : Option Peer) : Prop :=
  machine.stats.samples ≤ commandsOf peer ∧
    commandsOf peer ≤ machine.sends ∧
    machine.sends ≤ machine.stats.samples + 1

/-- Whether a message that is taken before the end is the acknowledgment of
the command in hand, which was sent before it arrived. -/
def AsksFirst (moment : Moment Wire) : Prop :=
  ∀ payload receivedAt, moment.step = .event (.received payload receivedAt) →
    moment.machine.phase ≠ .terminated →
    payload = acknowledgment ∧ moment.machine.phase = .awaitingAck ∧
      moment.machine.measurement.pending = true ∧
      ∃ issuedAt, moment.machine.measurement.issuedAt = some issuedAt ∧
        issuedAt ≤ receivedAt

theorem Looped.tallies {machine : Machine} {wire : Wire} {events : List Event}
    (looped : Looped machine wire events) : Tallies machine wire.peer := by
  obtain ⟨sents, receipts, accounted, exchange⟩ := looped.exchanges
  obtain ⟨counted, ahead⟩ := exchange.bounds
  obtain ⟨answered, sent⟩ := accounted.bounds
  exact ⟨Nat.le_trans counted answered, sent, ahead⟩

theorem asksFirst_of_occurs {moment : Moment Wire}
    (occurs : moment.Occurs Wire.surroundings Looped) : AsksFirst moment := by
  intro payload receivedAt taken going
  obtain ⟨_, events, looped⟩ := occurs
  obtain ⟨sents, receipts, _, exchange⟩ := looped.exchanges
  rw [taken] at exchange
  change Exchange moment.machine
    (.received payload receivedAt :: events.filter isTraffic) _ _ at exchange
  obtain ⟨same, awaiting, stamped, _⟩ := exchange.received going
  have pending :=
    looped.timely.consistent.outstanding.mpr (.inr awaiting)
  exact ⟨same, awaiting, pending, stamped⟩

/-- A session whose far end is the simulated peer takes only answers that it
waits for, and never loses count: at each moment, in the middle of every tick
and after every run the peer has counted no fewer commands than were answered
and no more than were sent. -/
theorem simulated_session_asksFirst_and_tallies {φ : Type} (config : Config)
    (view : Frontend φ) (frontend : φ) (all : List (RunStep WireStep))
    (simulated : ∀ step ∈ all, step.Allows fun step =>
      isSimulated step = true) :
    let before : Run Wire φ :=
      .start config (.start config.transport) frontend
    let after := before.steps Wire.surroundings view all
    (∀ moment ∈ before.moments Wire.surroundings view all,
      AsksFirst moment ∧ Tallies moment.machine moment.world.peer) ∧
    (after.engine.running = true →
      ∀ meanwhile, (∀ step ∈ meanwhile, isSimulated step = true) →
        Tallies (after.amid Wire.surroundings meanwhile).engine.machine
          (after.amid Wire.surroundings meanwhile).world.peer) ∧
    Tallies after.engine.machine after.world.peer := by
  intro before after
  have sound : before.engine.Sound Looped before.world :=
    { holds := start_looped config
      cancelled := rfl
      runtime := rfl }
  obtain ⟨last, occurs⟩ :=
    Run.steps_keep looped_keeps view before all simulated sound
  refine ⟨?_, ?_, last.holds.tallies⟩
  · intro moment member
    obtain ⟨_, events, looped⟩ := occurs moment member
    exact ⟨asksFirst_of_occurs (occurs moment member), looped.tallies⟩
  · intro running meanwhile fine
    exact (Run.amid_keeps looped_keeps after meanwhile fine last
      running).holds.tallies

/-! Two commands are sent and answered.  Over WebSocket the peer is greeted
first, and masks each of its frames with another key. -/

def localPeer : PeerChoices :=
  { ip := .v4 127 0 0 1
    port := 9002
    nonce := .replicate 16 0x5A
    masks := fun index =>
      { first := index.toUInt8
        second := 0xFF
        third := 0x0F
        fourth := 0xA5 } }

def askedAndAnswered : List (RunStep WireStep) :=
  [.press [.sendCommand],
   .tick [.endpoint (.send 64), .peerReads 64],
   .beside (.pass nanosPerMillisecond),
   .beside (.peerReaches 64),
   .beside (.endpoint (.receive 64)),
   .tick []]

def answeredTwice : List (RunStep WireStep) :=
  [.beside (.peerJoins localPeer),
   .beside (.peerReaches 512),
   .beside (.endpoint .accept),
   .beside (.endpoint .upgrade),
   .beside (.peerReads 512),
   .tick []] ++ askedAndAnswered ++ askedAndAnswered

def twice (transport : Transport) : Run Wire Scripted :=
  (Run.start (.forTransport transport) (.start transport)
    Scripted.start).steps Wire.surroundings Scripted.frontend answeredTwice

theorem answeredTwice_tallies :
    (∀ step ∈ answeredTwice, step.Allows fun step =>
      isSimulated step = true) ∧
    (twice .rawTcp).engine.machine.stats.samples = 2 ∧
    Tallies (twice .rawTcp).engine.machine (twice .rawTcp).world.peer ∧
    (twice .webSocket).engine.machine.stats.samples = 2 ∧
    Tallies (twice .webSocket).engine.machine
      (twice .webSocket).world.peer := by
  have simulated : ∀ step ∈ answeredTwice, step.Allows fun step =>
      isSimulated step = true := by
    simp [answeredTwice, askedAndAnswered, RunStep.Allows, isSimulated, isTurn]
  have raw := simulated_session_asksFirst_and_tallies
    (.forTransport .rawTcp) Scripted.frontend Scripted.start answeredTwice
    simulated
  have framed := simulated_session_asksFirst_and_tallies
    (.forTransport .webSocket) Scripted.frontend Scripted.start answeredTwice
    simulated
  exact ⟨simulated, by decide +kernel, raw.2.2, by decide +kernel, framed.2.2⟩

end LatencyBench.Loop

/-
What a session hears after its upgrade.

A listener that nobody has called off, and whose stream nobody has aborted,
hands a connection over as soon as it has answered the upgrade.  Whatever the
client says from then on, in whatever pieces it arrives, the armed reader
reports the payloads of its messages in order, then how it all ended, and
nothing else.
-/

import LatencyBench.Proofs.Wire.Conversation

namespace LatencyBench

open Net WebSocket

/-! ### Until the upgrade -/

namespace Net.Socket

variable {socket : Socket}

theorem fresh_orderly : fresh.Orderly := nofun

theorem arrive_orderly (orderly : socket.Orderly) (bytes : List UInt8) :
    (socket.arrive bytes).Orderly := by
  unfold arrive
  split
  · exact orderly
  · exact orderly

theorem finish_orderly (orderly : socket.Orderly) : socket.finish.Orderly := by
  intro error failed
  have ending : socket.ending.getD .finished = .failed error :=
    Option.some.inj failed
  cases had : socket.ending with
  | none =>
      rw [had] at ending
      cases ending
  | some last =>
      rw [had] at ending
      exact orderly error (had.trans (congrArg some ending))

end Net.Socket

namespace Endpoint

def Orderly (endpoint : Endpoint) : Prop :=
  ∀ socket, endpoint.socket = some socket → socket.Orderly

/-- What neither calls a session off nor aborts its stream. -/
structure Soothes (before after : Endpoint) : Prop where
  called : after.sessionCancelled = before.sessionCancelled
  orderly : before.Orderly → after.Orderly

variable {endpoint before after : Endpoint}

theorem soothes_of_same (called : after.sessionCancelled =
      before.sessionCancelled) (socket : after.socket = before.socket) :
    before.Soothes after where
  called := called
  orderly orderly held here := orderly held (socket.symm.trans here)

theorem soothes_refl (endpoint : Endpoint) : endpoint.Soothes endpoint :=
  soothes_of_same rfl rfl

theorem soothes_of_socket {socket : Socket}
    (called : after.sessionCancelled = before.sessionCancelled)
    (here : after.socket = some socket)
    (orderly : before.Orderly → socket.Orderly) : before.Soothes after where
  called := called
  orderly was held now := by
    rw [here] at now
    cases now
    exact orderly was

theorem onSocket_soothes (endpoint : Endpoint) {change : Socket → Socket}
    (keeps : ∀ socket : Socket, socket.Orderly → (change socket).Orderly) :
    endpoint.Soothes (endpoint.onSocket change) where
  called := rfl
  orderly orderly held here := by
    obtain ⟨socket, had, same⟩ := Option.map_eq_some_iff.mp here
    rw [← same]
    exact keeps socket (orderly socket had)

theorem onLink_soothes (endpoint : Endpoint)
    {turn : Link → Socket → LinkStep}
    (keeps : ∀ (link : Link) (socket : Socket), socket.Orderly →
      (turn link socket).socket.Orderly) :
    endpoint.Soothes (endpoint.onLink turn).1 := by
  unfold onLink
  split
  case h_1 link socket _ connected =>
      exact soothes_of_socket rfl rfl fun orderly =>
        keeps link socket (orderly socket connected)
  case h_2 => exact endpoint.soothes_refl

theorem accept_soothes (endpoint : Endpoint) :
    endpoint.Soothes endpoint.accept.1 := by
  unfold accept
  split
  · split
    · exact soothes_of_same rfl rfl
    · split <;> exact soothes_of_same rfl rfl
  · exact endpoint.soothes_refl

theorem acceptFails_soothes (endpoint : Endpoint) (error : IoError) :
    endpoint.Soothes (endpoint.acceptFails error).1 := by
  unfold acceptFails
  split
  · exact soothes_of_same rfl rfl
  · exact endpoint.soothes_refl

theorem giveUpAccepting_soothes (endpoint : Endpoint) :
    endpoint.Soothes endpoint.giveUpAccepting.1 := by
  unfold giveUpAccepting
  split
  · exact soothes_of_same rfl rfl
  · exact endpoint.soothes_refl

theorem agreeUpgrade_soothes (endpoint : Endpoint) {socket : Socket}
    (orderly : endpoint.Orderly → socket.Orderly) (response : List UInt8) :
    endpoint.Soothes (endpoint.agreeUpgrade socket response).1 := by
  have wrote (was : endpoint.Orderly) :
      (socket.write response).2.Orderly :=
    (Socket.write_alike (orderly was) response).orderly (orderly was)
  unfold agreeUpgrade
  generalize socket.write response = written at wrote ⊢
  rcases written with ⟨result, later⟩
  cases result with
  | error error => exact soothes_of_socket rfl rfl wrote
  | ok _ => exact soothes_of_socket rfl rfl wrote

theorem upgrade_soothes (endpoint : Endpoint) :
    endpoint.Soothes endpoint.upgrade.1 := by
  unfold Endpoint.upgrade
  split
  case h_2 => exact endpoint.soothes_refl
  case h_1 upgrade socket _ connected =>
      have orderly (was : endpoint.Orderly) :
          (socket.take pieceSize).2.Orderly :=
        Socket.take_orderly (was socket connected) pieceSize
      unfold upgradePiece
      split
      · exact soothes_of_same rfl rfl
      · exact soothes_of_same rfl rfl
      · dsimp only
        split
        · exact endpoint.soothes_refl
        · split
          · exact soothes_of_socket rfl rfl orderly
          · exact endpoint.agreeUpgrade_soothes orderly _
          · exact soothes_of_socket rfl rfl orderly

theorem connect_soothes (endpoint : Endpoint) (addressKnown : Bool) :
    endpoint.Soothes (endpoint.connect addressKnown) := by
  unfold connect
  split
  · exact soothes_of_socket rfl rfl fun _ => Socket.fresh_orderly
  · exact endpoint.soothes_refl

theorem perform_soothes (endpoint : Endpoint) (made : ConnectionCall) :
    endpoint.Soothes (endpoint.perform made).1 := by
  unfold perform
  split
  · exact endpoint.soothes_refl
  · split
    · exact soothes_of_same rfl rfl
    · exact endpoint.soothes_refl

theorem taskTurn_soothes (endpoint : Endpoint) (now : Instant)
    (step : EndpointStep) :
    endpoint.Soothes (endpoint.taskTurn now step).1 := by
  cases step with
  | accept => exact endpoint.accept_soothes
  | acceptFails error => exact endpoint.acceptFails_soothes error
  | giveUpAccepting => exact endpoint.giveUpAccepting_soothes
  | upgrade => exact endpoint.upgrade_soothes
  | receive most =>
      exact endpoint.onLink_soothes fun link _ orderly =>
        link.receive_orderly orderly most now
  | stopReceiving => exact endpoint.onLink_soothes fun _ _ orderly => orderly
  | send room =>
      exact endpoint.onLink_soothes fun link _ orderly =>
        (link.send_spares orderly room).2.orderly orderly
  | stopSending =>
      refine endpoint.onLink_soothes fun link socket orderly => ?_
      unfold Link.stopSending
      split
      · exact (Socket.write_alike orderly _).orderly orderly
      · exact orderly
  | _ => exact endpoint.soothes_refl

theorem turn_soothes (endpoint : Endpoint) (now : Instant)
    (step : EndpointStep) (peaceful : Incident.Peaceful (.turn now step)) :
    endpoint.Soothes (endpoint.turn now step).1 := by
  unfold turn
  split
  · exact endpoint.connect_soothes _
  · exact endpoint.onSocket_soothes fun _ orderly =>
      Socket.arrive_orderly orderly _
  · exact endpoint.onSocket_soothes fun _ => Socket.finish_orderly
  · exact endpoint.onSocket_soothes fun _ orderly =>
      Socket.finish_orderly orderly
  · exact absurd peaceful id
  · split
    · exact endpoint.soothes_refl
    · exact endpoint.taskTurn_soothes now _

theorem meet_soothes (endpoint : Endpoint) (incident : Incident)
    (peaceful : incident.Peaceful) :
    endpoint.Soothes (endpoint.meet incident).1 := by
  cases incident with
  | turn now step => exact endpoint.turn_soothes now step peaceful
  | farEnd change =>
      exact endpoint.onSocket_soothes fun socket orderly =>
        (peaceful socket).orderly orderly
  | call made => exact endpoint.perform_soothes made
  | cancelAccept => exact soothes_of_same rfl rfl
  | cancelSession => exact absurd peaceful id
  | halt => exact absurd peaceful id

theorem Soothes.trans {first second third : Endpoint}
    (there : first.Soothes second) (onward : second.Soothes third) :
    first.Soothes third where
  called := onward.called.trans there.called
  orderly := onward.orderly ∘ there.orderly

theorem course_soothes (endpoint : Endpoint) (incidents : List Incident)
    (peaceful : ∀ incident ∈ incidents, incident.Peaceful) :
    endpoint.Soothes (endpoint.course incidents).1 := by
  induction incidents generalizing endpoint with
  | nil => exact endpoint.soothes_refl
  | cons incident rest inductionHypothesis =>
      rw [List.forall_mem_cons] at peaceful
      exact (endpoint.meet_soothes incident peaceful.1).trans
        (inductionHypothesis _ peaceful.2)

/-! ### The upgrade -/

def inflow (endpoint : Endpoint) : Inflow :=
  match endpoint.socket with
  | none =>
      { bytes := []
        finished := false }
  | some socket =>
      { bytes := socket.inbound
        finished := socket.ending.isSome }

theorem reads_start {socket : Socket} (orderly : socket.Orderly) {link : Link}
    (parked : link.receiving = .parked)
    (intake : link.intake = .start .webSocket) :
    Reads
      { bytes := socket.inbound
        finished := socket.ending.isSome } false [] link socket where
  receiving := parked
  intake := intake
  goesOn := rfl
  waiting := rfl
  ending := by
    cases had : socket.ending with
    | none => rfl
    | some last =>
        cases last with
        | finished => rfl
        | failed error => exact absurd had (orderly error)

theorem takePiece_agrees {upgrade : Upgrade} {piece response : List UInt8}
    (agreed : upgrade.takePiece piece = .agreed response) :
    ∃ key, response = agreement key := by
  unfold Upgrade.takePiece at agreed
  dsimp only at agreed
  split at agreed
  · cases agreed
  · split at agreed
    · cases agreed
    · cases agreed
    · split at agreed
      case h_1 key _ =>
          cases agreed
          exact ⟨key, rfl⟩
      case h_2 => cases agreed

/-- An upgrade hands a connection over by answering, and setting it up on its
socket. -/
theorem upgrade_established {connection : Connection}
    (answered : before.upgrade = (after, [.established connection])) :
    ∃ upgrade earlier key socket,
      before.accepting = .upgrading upgrade ∧
        before.socket = some earlier ∧
        (earlier.take pieceSize).2.write (agreement key) = (.ok (), socket) ∧
        { before with socket := some socket }.establish =
          (after, [.established connection]) := by
  unfold Endpoint.upgrade at answered
  split at answered
  case h_2 => cases answered
  case h_1 upgrade socket upgrading connected =>
      unfold upgradePiece at answered
      split at answered
      · cases answered
      · cases answered
      · dsimp only at answered
        split at answered
        · cases answered
        · split at answered
          · cases answered
          case h_2 response agreed =>
              obtain ⟨key, rfl⟩ := takePiece_agrees agreed
              unfold agreeUpgrade at answered
              rcases wrote : (socket.take pieceSize).2.write
                (agreement key) with ⟨result, later⟩
              rw [wrote] at answered
              cases result with
              | error error => cases answered
              | ok _ =>
                  exact ⟨upgrade, socket, key, later, upgrading, connected,
                    wrote, answered⟩
          · cases answered

/-- The connection that an upgrade hands over is not armed yet, and everything
behind the request waits. -/
theorem follows_of_upgraded (transport : before.transport = .webSocket)
    (lasting : before.halted = false)
    (called : before.sessionCancelled = false) (orderly : before.Orderly)
    {now : Instant} {connection : Connection}
    (answered : before.turn now .upgrade =
      (after, [.established connection])) :
    after.Follows after.inflow false [] ∧
      connection = (start .webSocket).connection := by
  have turned : before.turn now .upgrade = before.upgrade :=
    turn_of_lasting lasting rfl
  rw [turned] at answered
  have soothes := before.upgrade_soothes
  rw [answered] at soothes
  obtain ⟨_, _, _, socket, _, _, _, established⟩ :=
    upgrade_established answered
  cases established
  have attends : Attends
      ({ before with socket := some socket }.establish).1
      { Link.start before.transport with
        cancelled := before.sessionCancelled } socket :=
    { transport := transport
      linked := rfl
      connected := rfl
      accepted := rfl
      lasting := lasting
      opened := rfl
      going := called }
  have still := soothes.orderly orderly socket rfl
  have reads : Reads _ false []
      { Link.start before.transport with
        cancelled := before.sessionCancelled } socket :=
    reads_start still rfl (congrArg Intake.start transport)
  refine ⟨⟨_, socket, attends, reads⟩, ?_⟩
  simp only [Endpoint.connection, transport, start]

end Endpoint

/-! ### What a speech comes to -/

/-- What a session hears of a speech, without the dates: the payloads of the
whole messages that are not empty, and then the ending. -/
def WebSocket.Speech.events (speech : Speech) : List Event :=
  (speech.payloads.map fun payload => .received payload 0) ++
    speech.ending.fault?.toList.map .failed

theorem Inflow.told_speech {inflow : Inflow} {speech : Speech}
    (said : inflow.bytes = speech.bytes)
    (leaves : speech.ending.Leaves inflow.finished) :
    inflow.isOver = speech.ending.fault?.isSome ∧
      inflow.told = speech.events := by
  obtain ⟨ended, messages⟩ := speech.reported_feed 0
  rw [isOver, told, received, said, ended, messages, Speech.events]
  cases ending : speech.ending with
  | stillOpen rest partway =>
      rw [ending] at leaves
      have still : inflow.finished = false := leaves
      rw [still]
      exact ⟨rfl, List.append_nil _⟩
  | endOfStream rest partway =>
      rw [ending] at leaves
      have finished : inflow.finished = true := leaves
      rw [finished]
      exact ⟨rfl, congrArg (· ++ _) (List.append_nil _)⟩
  | close mask words valid following =>
      simp only [Ending.isSaid, Bool.or_true, Bool.not_true, Bool.and_false]
      exact ⟨rfl, List.append_nil _⟩
  | breach bytes violation breach following =>
      simp only [Ending.isSaid, Bool.or_true, Bool.not_true, Bool.and_false]
      exact ⟨rfl, List.append_nil _⟩

namespace Endpoint

/-- A listener takes a peer, answers its upgrade and hands the connection
over; then anything may happen that neither aborts the stream nor calls the
session off.  If the connection is armed meanwhile, its answers to pings can
be written, and what has come from the client by now is a speech, then a
reader that has read everything has reported what the speech comes to.  After
the ending it reports nothing, whatever may happen then. -/
theorem upgraded_session_hears_speech {opening later : List Incident}
    {endpoint : Endpoint} {answeredAt now : Instant}
    {connection : Connection} {speech : Speech} {most : Nat}
    (before : ∀ incident ∈ opening, incident.Peaceful)
    (answered : ((start .webSocket).course opening).1.turn answeredAt
      .upgrade = (endpoint, [.established connection]))
    (peaceful : ∀ incident ∈ later, incident.Peaceful)
    (armed : .call (connection.does .arm) ∈ later)
    (said : (endpoint.inflow.through later).bytes = speech.bytes)
    (leaves : speech.ending.Leaves (endpoint.inflow.through later).finished)
    (room : (endpoint.course later).1.backlog ≤ most)
    (written : endpoint.answersThrough
      (later ++ [.turn now (.receive most)]) = true) :
    (endpoint.heard (later ++ [.turn now (.receive most)])).map
        Event.undated = speech.events ∧
      (speech.ending.fault?.isSome = true → ∀ rest,
        endpoint.heard (later ++ [.turn now (.receive most)] ++ rest) =
          endpoint.heard (later ++ [.turn now (.receive most)])) := by
  have soothes := (start .webSocket).course_soothes opening before
  have transport := (start .webSocket).course_transport opening
  have lasting : ((start .webSocket).course opening).1.halted = false :=
    (start .webSocket).course_halted opening fun incident member =>
      (before incident member).isHalt
  obtain ⟨follows, sole⟩ := follows_of_upgraded transport lasting
    soothes.called (soothes.orderly nofun) answered
  rw [answersThrough_append, Bool.and_eq_true] at written
  have first : endpoint.Hearing endpoint.inflow false [] :=
    .goes [] follows rfl
  have hearing := first.course later peaceful written.1
  have isArmed :
      later.any (Incident.arms (start .webSocket).connection) = true := by
    rw [← sole]
    exact List.any_eq_true.mpr ⟨_, armed, decide_eq_true rfl⟩
  rw [isArmed, Bool.or_true, List.nil_append] at hearing
  have last : (endpoint.course later).1.answersIn
      (.turn now (.receive most)) = true :=
    (Bool.and_eq_true ..).mp written.2 |>.1
  obtain ⟨told, deaf⟩ := hearing.drain now room last
  obtain ⟨isOver, events⟩ := Inflow.told_speech said leaves
  refine ⟨?_, ?_⟩
  · rw [heard_append, List.map_append, ← events, ← told]
    exact congrArg (fun heard => _ ++ heard.map Event.undated)
      (List.append_nil _)
  · intro ended rest
    rw [← isOver] at ended
    rw [heard_append endpoint (_ ++ _) rest, course_append]
    have nothing := (deaf ended).heard rest
    exact (congrArg (_ ++ ·) nothing).trans (List.append_nil _)

/-! ### A speech that is broken off

A letter is cut in two with a ping between its halves, an empty message comes
behind it, and the third message is broken off by a frame that is not
masked. -/

def brokenOff : Frame :=
  { header :=
      { isFinal := true
        reserved := 0
        opcode := .continuation
        mask := none }
    payload := [8] }

def interruptedSpeech : Speech :=
  { messages :=
      [{ kind := .text
         earlier :=
           [{ signals := []
              mask := ⟨1, 2, 3, 4⟩
              part := [0xC3]
              fits := by decide }]
         last :=
           { signals :=
               [{ isPing := true
                  mask := ⟨5, 6, 7, 8⟩
                  payload := [9]
                  short := by decide }]
             mask := ⟨9, 10, 11, 12⟩
             part := [0xA9]
             fits := by decide }
         carries := ⟨by decide, fun _ => by decide⟩ },
       { kind := .binary
         earlier := []
         last :=
           { signals := []
             mask := ⟨13, 14, 15, 16⟩
             part := []
             fits := by decide }
         carries := ⟨by decide, nofun⟩ }]
    fragment :=
      some
        { kind := .binary
          pieces :=
            [{ signals := []
               mask := ⟨17, 18, 19, 20⟩
               part := [7]
               fits := by decide }]
          some := List.cons_ne_nil _ _
          begins := ⟨by decide, nofun⟩ }
    signals := []
    ending :=
      .breach brokenOff.encode .unmasked
        (.frame brokenOff ⟨by decide, by decide, by decide⟩ .unmasked
          (.unmasked brokenOff rfl rfl)) [] }

/-- A client connects and asks for an upgrade. -/
def joining : List Incident :=
  [.turn 0 (.connect true), .turn 0 .accept,
   .turn 0
     (.arrive (invitation "127.0.0.1:9003" "dGhlIHNhbXBsZSBub25jZQ=="))]

def upgradeTurn : Endpoint × List Event :=
  ((start .webSocket).course joining).1.turn 1 .upgrade

/-- The speech arrives in two pieces, the first of them before the connection
is armed. -/
def interruption : List Incident :=
  [.turn 2 (.arrive (interruptedSpeech.bytes.take 6)),
   .call ((start .webSocket).connection.does .arm),
   .turn 3 (.receive 3),
   .turn 4 (.arrive (interruptedSpeech.bytes.drop 6)),
   .turn 5 .finish]

theorem interruptedSpeech_heard :
    (upgradeTurn.1.heard (interruption ++ [.turn 6 (.receive 100)])).map
        Event.undated =
      [.received [0xC3, 0xA9] 0,
       .failed (.io ("WebSocket protocol error: " ++
         "Received an unmasked frame from client"))] := by
  have answered : ((start .webSocket).course joining).1.turn 1 .upgrade =
      (upgradeTurn.1, [.established (start .webSocket).connection]) :=
    Prod.ext rfl (by decide +kernel)
  have heard := (@upgraded_session_hears_speech joining interruption _ 1 6 _
    interruptedSpeech 100 (by simp [joining, Incident.Peaceful]) answered
    (by simp [interruption, Incident.Peaceful, Connection.does])
    (by simp [interruption]) (by decide +kernel) trivial (by decide +kernel)
    (by decide +kernel)).1
  exact heard.trans (by decide +kernel)

end Endpoint

end LatencyBench

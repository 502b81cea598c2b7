/-
The lifecycle of a session: one connection, one command at a time, and the
measurements made with them.

The machine is stepped by intents of the user, by events of the transport and
by a shutdown.  It never waits: what it wants done on a connection it says as
a list of calls, and the outcome comes back as another event.

    awaitingConnection --established--> connected
            |                            |  ^
    cancelled or failed        sendCommand  received
            |                            v  |
            |                  sending --sent--> awaitingAck
            v
       terminated <--------- failed or shutdown
-/

import LatencyBench.Aggregate
import LatencyBench.Event
import LatencyBench.Log.Record

namespace LatencyBench

/-- The measurement in hand, or the last one; `lastRoundTrip` is in
milliseconds. -/
structure Measurement where
  pending : Bool
  issuedAt : Option Instant
  lastRoundTrip : Float
deriving Repr

/-- What a machine asks of a connection; `drop` lets go of the handle itself. -/
inductive Call where
  | arm
  | send (payload : Payload)
  | close
  | drop
deriving DecidableEq, Repr

structure ConnectionCall where
  connection : Connection
  call : Call
deriving DecidableEq, Repr

/-- The state of a session.  `sends` is a natural number where the program
counts in 64 bits, so it stands for the program below `2 ^ 64` commands. -/
structure Machine where
  transport : Transport
  phase : Phase
  listening : Bool
  connection : Option Connection
  measurement : Measurement
  stats : Aggregate Float
  sends : Nat
  termination : Option Termination
deriving Repr

structure Reaction where
  machine : Machine
  calls : List ConnectionCall := []
  log : List LogRecord := []

def Connection.does (connection : Connection) (call : Call) :
    ConnectionCall :=
  { connection := connection
    call := call }

namespace Machine

def start (transport : Transport) (listening : Bool) : Machine :=
  { transport := transport
    phase := .awaitingConnection
    listening := listening
    connection := none
    measurement :=
      { pending := false
        issuedAt := none
        lastRoundTrip := 0.0 }
    stats := .empty
    sends := 0
    termination := none }

def isConnected (machine : Machine) : Bool :=
  machine.phase.isConnected

/-- Takes over a connection while none is there, and starts receiving on it;
any other connection is closed and let go. -/
def adopt (machine : Machine) (connection : Connection) : Reaction :=
  if machine.phase ≠ .awaitingConnection ∨ machine.connection.isSome then
    { machine := machine
      calls := [connection.does .close, connection.does .drop]
      log :=
        [{ source := .machine
           level := .warn
           message := "extra connection refused"
           fields := [("kind", .text connection.transport.name)] }] }
  else
    { machine :=
        { machine with
          listening := false
          connection := some connection
          phase := .connected }
      calls := [connection.does .arm]
      log :=
        [{ source := .machine
           level := .info
           message := "peer adopted"
           fields := [("kind", .text connection.transport.name)] }] }

/-- Sends the command, unless no peer is connected or an answer is still
outstanding. -/
def sendCommand (machine : Machine) (now : Instant) : Reaction :=
  if !machine.phase.isConnected then
    { machine := machine
      log :=
        [{ source := .machine
           level := .debug
           message := "send ignored: not connected"
           fields := [("phase", .text machine.phase.name)] }] }
  else if machine.measurement.pending then
    { machine := machine
      log :=
        [{ source := .machine
           level := .debug
           message := "send ignored: measurement pending" }] }
  else
    match machine.connection with
    | none => { machine := machine }
    | some connection =>
        { machine :=
            { machine with
              measurement :=
                { machine.measurement with
                  pending := true
                  issuedAt := some now }
              sends := machine.sends + 1
              phase := .sending }
          calls := [connection.does (.send command)]
          log :=
            [{ source := .machine
               level := .debug
               message := "command sent"
               fields :=
                 [("sends", .text (toString (machine.sends + 1)))] }] }

/-- What is logged about a message that is not the acknowledgment. -/
def payloadWarning (payload : Payload) : List LogRecord :=
  if payload = acknowledgment then []
  else
    [{ source := .machine
       level := .warn
       message := "unexpected acknowledgment payload"
       fields := [("payload", .text (Utf8.decodeLossy payload))] }]

/-- Ends the outstanding measurement with a message, whatever it says, and
receives on.  Without an outstanding measurement nothing changes. -/
def acknowledge (machine : Machine) (payload : Payload)
    (receivedAt : Instant) : Reaction :=
  let warning := payloadWarning payload
  if !machine.measurement.pending then
    { machine := machine
      log :=
        warning ++
          [{ source := .machine
             level := .debug
             message := "unsolicited message ignored" }] }
  else
    match machine.measurement.issuedAt with
    | none =>
        { machine := machine
          log := warning }
    | some issuedAt =>
        let sample := roundTrip issuedAt receivedAt
        let stats := machine.stats.record sample
        { machine :=
            { machine with
              measurement :=
                { machine.measurement with
                  pending := false
                  lastRoundTrip := sample }
              stats := stats
              phase := .connected }
          calls :=
            match machine.connection with
            | none => []
            | some connection => [connection.does .arm]
          log :=
            warning ++
              [{ source := .machine
                 level := .info
                 message := "acknowledged"
                 fields :=
                   [("round_trip_ms", .number sample),
                    ("samples", .text (toString stats.samples))] }] }

/-- Ends the session: the connection is closed and let go, the listener is
let go, and nothing is outstanding any more. -/
def terminate (machine : Machine) (reason : Termination) : Reaction :=
  { machine :=
      { machine with
        listening := false
        connection := none
        measurement := { machine.measurement with pending := false }
        phase := .terminated
        termination := some reason }
    calls :=
      match machine.connection with
      | none => []
      | some connection => [connection.does .close, connection.does .drop]
    log :=
      [{ source := .machine
         level := .info
         message := "session terminated"
         fields := [("reason", .text reason.detail)] }] }

def afterLogging (records : List LogRecord) (reaction : Reaction) :
    Reaction :=
  { reaction with log := records ++ reaction.log }

/-- An event after the end: ignored, and a connection it carries is let go. -/
def ignoreEvent (machine : Machine) (event : Event) : Reaction :=
  { machine := machine
    calls :=
      match event with
      | .established connection => [connection.does .drop]
      | _ => []
    log :=
      [{ source := .machine
         level := .trace
         message := "event after termination ignored"
         fields := [("event", .text event.name)] }] }

def noteSent (machine : Machine) (length : Nat) : Reaction :=
  { machine :=
      { machine with
        phase :=
          if machine.phase = .sending then .awaitingAck else machine.phase }
    log :=
      [{ source := .machine
         level := .trace
         message := "send completed"
         fields := [("bytes", .text (toString length))] }] }

/-- A cancelled accept ends a session that still waits for its peer. -/
def noteCancelled (machine : Machine) : Reaction :=
  if machine.phase = .awaitingConnection then
    afterLogging
      [{ source := .machine
         level := .info
         message := "accept cancelled before a peer connected" }]
      (machine.terminate .cancelled)
  else
    { machine := machine
      log :=
        [{ source := .machine
           level := .debug
           message := "stray cancellation ignored" }] }

def noteFault (machine : Machine) (fault : Fault) : Reaction :=
  afterLogging
    [{ source := .machine
       level := .warn
       message := "transport failed"
       fields :=
         [("fault", .text fault.message),
          ("phase", .text machine.phase.name)] }]
    (machine.terminate (.fault fault))

def applyIntent (machine : Machine) (intent : Intent) (now : Instant) :
    Reaction :=
  match intent with
  | .sendCommand => machine.sendCommand now

def applyEvent (machine : Machine) (event : Event) : Reaction :=
  if machine.phase = .terminated then
    machine.ignoreEvent event
  else
    match event with
    | .established connection => machine.adopt connection
    | .received payload receivedAt => machine.acknowledge payload receivedAt
    | .sent length => machine.noteSent length
    | .cancelled => machine.noteCancelled
    | .failed fault => machine.noteFault fault

/-- Ends the session from outside; an earlier reason stays. -/
def shutdown (machine : Machine) (reason : Termination) : Reaction :=
  if machine.phase = .terminated then { machine := machine }
  else machine.terminate reason

def release (machine : Machine) : List ConnectionCall :=
  match machine.connection with
  | none => []
  | some connection => [connection.does .drop]

/-! ### Runs -/

inductive Step where
  | intent (intent : Intent) (now : Instant)
  | event (event : Event)
  | shutdown (reason : Termination)
deriving DecidableEq, Repr

def react (machine : Machine) : Step → Reaction
  | .intent intent now => machine.applyIntent intent now
  | .event event => machine.applyEvent event
  | .shutdown reason => machine.shutdown reason

def after (machine : Machine) (step : Step) : Machine :=
  (machine.react step).machine

def run (machine : Machine) (steps : List Step) : Machine :=
  steps.foldl after machine

def reactions (machine : Machine) : List Step → List Reaction
  | [] => []
  | step :: rest =>
      let reaction := machine.react step
      reaction :: reaction.machine.reactions rest

def callsOf (machine : Machine) (steps : List Step) : List ConnectionCall :=
  (machine.reactions steps).flatMap Reaction.calls

end Machine

end LatencyBench

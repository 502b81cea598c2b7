/-
The account of what a connection is handed, says and confirms.

The sending task has said some utterances whole and may have one payload in
hand, with what has been put behind it: answers, and the leave at last.  What the socket has
accepted is the bytes of the former and a first part of the latter; what has
been posted is the payloads of the former, the one in hand, and the outbox;
what has been confirmed is the payloads of the former.  Each step of each
task keeps this account until the sending task ends, and then nothing is added
to it but answers, and those only behind whole utterances.
-/

import LatencyBench.Proofs.Wire.Answering

namespace LatencyBench

open Net

/-! ### The account -/

/-- What has been handed to the sending task of a connection, what the
connection has said, and what the sending task has reported. -/
structure Ledger where
  posted : List Payload
  uttered : List UInt8
  confirmed : List Event

def confirmations (payloads : List Payload) : List Event :=
  payloads.map fun payload => .sent payload.length

def inHand (payload : Payload) (others : List Utterance) : List Utterance :=
  .data payload :: others

/-- How the leave stands on a connection that has said something: nobody has
taken it, or it is taken and no payload is accepted any more. -/
def Link.Stays (transport : Transport) (link : Link)
    (said : List Utterance) : Prop :=
  GoesOn transport said ∨ link.Parted

theorem Link.Parted.same {link later : Link} (parted : link.Parted)
    (kind : later.transport = link.transport)
    (farewell : later.farewell = link.farewell)
    (receiving : later.receiving = link.receiving) : later.Parted where
  isWebSocket := kind.trans parted.isWebSocket
  silent := farewell.trans parted.silent
  ended := receiving.trans parted.ended

/-- Whether nothing more is said on a connection once its sending task has
ended. -/
def Served.Mute (served : Served) : Prop :=
  served.halted = true ∨ served.link.receiving = .ended ∨
    served.socket.farEnd = .refusing

namespace Ledger

def enter (ledger : Ledger) (posted : List Payload) (uttered : List UInt8)
    (confirmed : List Event) : Ledger :=
  { posted := ledger.posted ++ posted
    uttered := ledger.uttered ++ uttered
    confirmed := ledger.confirmed ++ confirmed }

/-- The account of a sending task that has nothing in hand. -/
structure Rests (transport : Transport) (said : List Utterance)
    (outbox : List Payload) (ledger : Ledger) : Prop where
  talks : Talks transport said
  uttered : ledger.uttered = bytesOfAll transport said
  posted : ledger.posted = payloadsOf said ++ outbox
  confirmed : ledger.confirmed = confirmations (payloadsOf said)

/-- The account of a sending task that has a payload in hand. -/
structure Holds (transport : Transport) (said : List Utterance)
    (payload : Payload) (others : List Utterance)
    (handed unsent : List UInt8) (outbox : List Payload)
    (ledger : Ledger) : Prop where
  talks : Talks transport (said ++ inHand payload others)
  bare : payloadsOf others = []
  uttered : ledger.uttered = bytesOfAll transport said ++ handed
  inHand : handed ++ unsent = bytesOfAll transport (inHand payload others)
  posted : ledger.posted = payloadsOf said ++ payload :: outbox
  confirmed : ledger.confirmed = confirmations (payloadsOf said)

/-- What every account tells: some utterances have been said whole, and part
of others with one payload at most; a fault comes last. -/
structure Tells (transport : Transport) (said current : List Utterance)
    (handed : List UInt8) (failures : List Event)
    (ledger : Ledger) : Prop where
  talks : Talks transport (said ++ current)
  uttered : ledger.uttered = bytesOfAll transport said ++ handed
  part : handed <+: bytesOfAll transport current
  single : (payloadsOf current).length ≤ 1
  posted : payloadsOf (said ++ current) <+: ledger.posted
  confirmed : ledger.confirmed = confirmations (payloadsOf said) ++ failures
  lastly : failures = [] ∨ ∃ fault, failures = [.failed fault]

variable {transport : Transport} {ledger : Ledger}
  {said current others more : List Utterance} {payload : Payload}
  {outbox : List Payload} {signals : List (List UInt8)}
  {handed unsent : List UInt8} {failures : List Event}

theorem enter_nothing (ledger : Ledger) : ledger.enter [] [] [] = ledger := by
  simp only [enter, List.append_nil]

theorem enter_enter (ledger : Ledger) (posted others : List Payload)
    (uttered more : List UInt8) (confirmed further : List Event) :
    (ledger.enter posted uttered confirmed).enter others more further =
      ledger.enter (posted ++ others) (uttered ++ more)
        (confirmed ++ further) := by
  simp only [enter, List.append_assoc]

theorem payloadsOf_inHand (bare : payloadsOf others = [])
    (payload : Payload) :
    payloadsOf (LatencyBench.inHand payload others) = [payload] :=
  congrArg (payload :: ·) bare

/-! ### Entries

Each entry is what one turn of a task, or one call, adds to the account. -/

theorem Rests.tells (rests : ledger.Rests transport said outbox)
    (lastly : failures = [] ∨ ∃ fault, failures = [.failed fault]) :
    (ledger.enter [] [] failures).Tells transport said [] [] failures where
  talks := by
    rw [List.append_nil]
    exact rests.talks
  uttered := congrArg (· ++ []) rests.uttered
  part := List.nil_prefix
  single := Nat.zero_le 1
  posted := by
    rw [enter, List.append_nil, List.append_nil, rests.posted]
    exact List.prefix_append ..
  confirmed := congrArg (· ++ failures) rests.confirmed
  lastly := lastly

theorem Holds.tells
    (holds : ledger.Holds transport said payload others handed unsent outbox)
    (lastly : failures = [] ∨ ∃ fault, failures = [.failed fault]) :
    (ledger.enter [] [] failures).Tells transport said
      (LatencyBench.inHand payload others) handed failures where
  talks := holds.talks
  uttered := (List.append_nil _).trans holds.uttered
  part := ⟨unsent, holds.inHand⟩
  single := by
    rw [payloadsOf_inHand holds.bare]
    exact Nat.le_refl 1
  posted := by
    simp only [enter, List.append_nil, holds.posted, payloadsOf_append,
      payloadsOf_inHand holds.bare]
    rw [List.append_cons _ payload outbox]
    exact List.prefix_append ..
  confirmed := congrArg (· ++ failures) holds.confirmed
  lastly := lastly

theorem Rests.take (rests : ledger.Rests transport said (payload :: outbox))
    (goesOn : GoesOn transport said) :
    ledger.Holds transport said payload [] [] (transport.wireBytes payload)
      outbox where
  talks := (goesOn.append (goesOn_data transport payload)).talks
  bare := rfl
  uttered := rests.uttered.trans (List.append_nil _).symm
  inHand := (bytesOfAll_singleton transport (.data payload)).symm
  posted := rests.posted
  confirmed := rests.confirmed

theorem Holds.say
    (holds : ledger.Holds transport said payload others handed unsent outbox)
    (room : Nat) :
    (ledger.enter [] (unsent.take room) []).Holds transport said payload
      others (handed ++ unsent.take room) (unsent.drop room) outbox where
  talks := holds.talks
  bare := holds.bare
  uttered := by
    rw [enter, holds.uttered, List.append_assoc]
  inHand := by
    rw [List.append_assoc, List.take_append_drop, holds.inHand]
  posted := (List.append_nil _).trans holds.posted
  confirmed := (List.append_nil _).trans holds.confirmed

theorem Holds.finish
    (holds : ledger.Holds transport said payload others handed unsent
      outbox) :
    (ledger.enter [] unsent [.sent payload.length]).Rests transport
      (said ++ LatencyBench.inHand payload others) outbox where
  talks := holds.talks
  uttered := by
    rw [enter, holds.uttered, List.append_assoc, holds.inHand,
      bytesOfAll_append]
  posted := by
    rw [enter, List.append_nil, holds.posted, payloadsOf_append,
      payloadsOf_inHand holds.bare, List.append_assoc]
    rfl
  confirmed := by
    rw [enter, holds.confirmed, payloadsOf_append,
      payloadsOf_inHand holds.bare, confirmations, confirmations,
      List.map_append]
    rfl

theorem Holds.behind
    (holds : ledger.Holds transport said payload others handed unsent outbox)
    (asides : Asides transport more) :
    ledger.Holds transport said payload (others ++ more) handed
      (unsent ++ bytesOfAll transport more) outbox where
  talks := by
    have onward := holds.talks.asides asides
    rw [List.append_assoc] at onward
    exact onward
  bare := by
    rw [payloadsOf_append, holds.bare, asides.bare]
    rfl
  uttered := holds.uttered
  inHand := by
    rw [← List.append_assoc, holds.inHand, ← bytesOfAll_append]
    rfl
  posted := holds.posted
  confirmed := holds.confirmed

theorem Rests.answer (rests : ledger.Rests transport said outbox)
    (answers : Answers transport signals) :
    (ledger.enter [] (bytesOfAll transport (pongs signals)) []).Rests
      transport (said ++ pongs signals) outbox where
  talks := rests.talks.asides answers.asides
  uttered := by
    rw [enter, rests.uttered, bytesOfAll_append]
  posted := by
    simp only [enter, List.append_nil, payloadsOf_append, payloadsOf_pongs]
    exact rests.posted
  confirmed := by
    simp only [enter, List.append_nil, payloadsOf_append, payloadsOf_pongs]
    exact rests.confirmed

theorem Tells.answer (tells : ledger.Tells transport said [] handed failures)
    (answers : Answers transport signals) :
    (ledger.enter [] (bytesOfAll transport (pongs signals)) []).Tells
      transport (said ++ pongs signals) [] [] failures where
  talks := by
    have talks := tells.talks
    rw [List.append_nil] at talks ⊢
    exact talks.asides answers.asides
  uttered := by
    have nothing := List.prefix_nil.mp tells.part
    simp only [enter, tells.uttered, nothing, bytesOfAll_append,
      List.append_nil]
  part := List.nil_prefix
  single := Nat.zero_le 1
  posted := by
    have posted := tells.posted
    simp only [enter, List.append_nil, payloadsOf_append, payloadsOf_pongs]
      at posted ⊢
    exact posted
  confirmed := by
    simp only [enter, List.append_nil, payloadsOf_append, payloadsOf_pongs]
    exact tells.confirmed
  lastly := tells.lastly

theorem Rests.leave (rests : ledger.Rests transport said outbox)
    {leave : List UInt8} (suits : Utterance.Suits transport (.close leave)) :
    (ledger.enter [] (closeBytes leave) []).Tells transport
      (said ++ [.close leave]) [] [] [] where
  talks := by
    rw [List.append_nil]
    exact rests.talks.asides (asides_close suits)
  uttered := by
    simp only [enter, rests.uttered, bytesOfAll_append, List.append_nil,
      bytesOfAll_singleton]
    rfl
  part := List.nil_prefix
  single := Nat.zero_le 1
  posted := by
    simp only [enter, List.append_nil, payloadsOf_append, rests.posted]
    change payloadsOf said ++ [] <+: _
    rw [List.append_nil]
    exact List.prefix_append ..
  confirmed := by
    simp only [enter, List.append_nil, payloadsOf_append, rests.confirmed]
    exact congrArg confirmations (List.append_nil _).symm
  lastly := .inl rfl

theorem Rests.post (rests : ledger.Rests transport said outbox)
    (payload : Payload) :
    (ledger.enter [payload] [] []).Rests transport said
      (outbox ++ [payload]) where
  talks := rests.talks
  uttered := (List.append_nil _).trans rests.uttered
  posted := by
    rw [enter, rests.posted, List.append_assoc]
  confirmed := (List.append_nil _).trans rests.confirmed

theorem Holds.post {posted : Payload}
    (holds : ledger.Holds transport said payload others handed unsent
      outbox) :
    (ledger.enter [posted] [] []).Holds transport said payload others handed
      unsent (outbox ++ [posted]) where
  talks := holds.talks
  bare := holds.bare
  uttered := (List.append_nil _).trans holds.uttered
  inHand := holds.inHand
  posted := by
    rw [enter, holds.posted, List.append_assoc]
    rfl
  confirmed := (List.append_nil _).trans holds.confirmed

theorem Tells.post
    (tells : ledger.Tells transport said current handed failures)
    (posted : List Payload) :
    (ledger.enter posted [] []).Tells transport said current handed
      failures where
  talks := tells.talks
  uttered := (List.append_nil _).trans tells.uttered
  part := tells.part
  single := tells.single
  posted := tells.posted.trans (List.prefix_append ..)
  confirmed := (List.append_nil _).trans tells.confirmed
  lastly := tells.lastly

end Ledger

/-! ### What the tasks do to the account -/

namespace Served

/-- How the account of a connection stands: its sending task waits, has a
payload in hand, or has ended. -/
inductive Account (transport : Transport) (ledger : Ledger)
    (served : Served) : Prop where
  | rests (said : List Utterance) (waiting : served.link.sending = .waiting)
      (opened : served.link.closed = false)
      (stays : served.link.Stays transport said)
      (rests : ledger.Rests transport said served.link.outbox)
  | holds (said : List Utterance) (payload : Payload)
      (others : List Utterance) (handed unsent : List UInt8)
      (writing : served.link.sending = .writing payload unsent)
      (opened : served.link.closed = false)
      (stays : served.link.Stays transport (said ++ inHand payload others))
      (holds : ledger.Holds transport said payload others handed unsent
        served.link.outbox)
  | ends (said current : List Utterance) (handed : List UInt8)
      (failures : List Event) (ended : served.link.sending = .ended)
      (silent : current = [] ∨ served.Mute)
      (tells : ledger.Tells transport said current handed failures)

variable {transport : Transport} {ledger : Ledger} {served later : Served}
  {said others : List Utterance} {payload : Payload}
  {handed unsent : List UInt8}

theorem Account.keep (account : served.Account transport ledger)
    (sending : later.link.sending = served.link.sending)
    (outbox : later.link.outbox = served.link.outbox)
    (closed : later.link.closed = served.link.closed)
    (parted : served.link.Parted → later.link.Parted)
    (mute : served.Mute → later.Mute) : later.Account transport ledger := by
  cases account with
  | rests said waiting opened stays rests =>
      exact .rests said (sending.trans waiting) (closed.trans opened)
        (stays.imp_right parted) (outbox ▸ rests)
  | holds said payload others handed unsent writing opened stays holds =>
      exact .holds said payload others handed unsent (sending.trans writing)
        (closed.trans opened) (stays.imp_right parted) (outbox ▸ holds)
  | ends said current handed failures ended silent tells =>
      exact .ends said current handed failures (sending.trans ended)
        (silent.imp_right mute) tells

theorem Account.cut (account : served.Account transport ledger)
    (ended : later.link.sending = .ended) (mute : later.Mute) :
    later.Account transport ledger := by
  rw [← ledger.enter_nothing]
  cases account with
  | rests said _ _ _ rests =>
      exact .ends said [] [] [] ended (.inl rfl) (rests.tells (.inl rfl))
  | holds said payload others handed unsent _ _ _ holds =>
      exact .ends said _ handed [] ended (.inr mute) (holds.tells (.inl rfl))
  | ends said current handed failures _ _ tells =>
      exact .ends said current handed failures ended (.inr mute) (tells.post [])

theorem account_write (link : Link) (opened : link.closed = false)
    (stays : link.Stays transport (said ++ inHand payload others))
    (holds : ledger.Holds transport said payload others handed unsent
      link.outbox) (socket : Socket) (room : Nat) (halted : Bool) :
    Account transport
      (ledger.enter [] (socket.accepts (unsent.take room))
        (link.write socket room payload unsent).events)
      { link := (link.write socket room payload unsent).link
        socket := (link.write socket room payload unsent).socket
        halted := halted } := by
  unfold Link.write
  rcases wrote : socket.write (unsent.take room) with ⟨result, later⟩
  cases result with
  | error error =>
      rw [Socket.accepts_error wrote]
      -- The far end refuses from now on, so nothing follows the part in hand.
      exact .ends said _ handed _ rfl (.inr (.inr (.inr
        (Socket.write_error wrote)))) (holds.tells (.inr ⟨_, rfl⟩))
  | ok _ =>
      rw [Socket.accepts_ok wrote]
      dsimp only
      split
      case isTrue all =>
          rw [List.take_of_length_le all]
          exact .rests _ rfl opened
            (stays.imp_right fun parted => parted.same rfl rfl rfl)
            holds.finish
      case isFalse =>
          exact .holds said payload others _ _ rfl opened
            (stays.imp_right fun parted => parted.same rfl rfl rfl)
            (holds.say room)

theorem Account.send (account : served.Account transport ledger)
    (suits : served.link.Suits transport) (room : Nat) :
    Account transport
      (ledger.enter [] (served.socket.accepts (served.link.offer room))
        (served.link.send served.socket room).events)
      { served with
        link := (served.link.send served.socket room).link
        socket := (served.link.send served.socket room).socket } := by
  cases account with
  | ends said current handed failures ended silent tells =>
      simp only [Link.send, Link.offer, ended]
      rw [Socket.accepts_nil, ledger.enter_nothing]
      exact .ends said current handed failures ended silent tells
  | holds said payload others handed unsent writing opened stays holds =>
      simp only [Link.send, Link.offer, writing]
      exact account_write served.link opened stays holds served.socket room
        served.halted
  | rests said waiting opened stays rests =>
      cases outbox : served.link.outbox with
      | nil =>
          simp only [Link.send, Link.offer, waiting, outbox]
          rw [Socket.accepts_nil, ledger.enter_nothing]
          exact .rests said waiting opened stays rests
      | cons payload rest =>
          rw [outbox] at rests
          rcases Link.send_next waiting outbox served.socket room with
            ⟨fault, nothing, turned⟩ | ⟨accepts, offered, turned⟩
          -- A payload that is refused counts as posted, and is never said.
          · rw [turned, nothing, Socket.accepts_nil]
            exact .ends said [] [] _ rfl (.inl rfl)
              (rests.tells (.inr ⟨fault, rfl⟩))
          · have goesOn := stays.resolve_right fun parted => by
              rw [parted.refusal?] at accepts
              cases accepts
            rw [turned, offered]
            rw [← suits.isOf] at rests goesOn ⊢
            exact account_write { served.link with outbox := rest } opened
              (.inl (goesOn.append (goesOn_data _ payload)))
              (rests.take goesOn) served.socket room served.halted

theorem Account.stopSending (account : served.Account transport ledger)
    (suits : served.link.Suits transport) :
    Account transport
      (ledger.enter [] (served.socket.accepts served.link.parting) [])
      { served with
        link := (served.link.stopSending served.socket).link
        socket := (served.link.stopSending served.socket).socket } := by
  unfold Link.stopSending Link.parting
  by_cases called : served.link.cancelled = true ∧
      served.link.sending = .waiting
  case neg =>
      rw [if_neg called, if_neg called, Socket.accepts_nil,
        ledger.enter_nothing]
      exact account
  case pos =>
      rw [if_pos called, if_pos called]
      cases account with
      | holds said payload signals handed unsent writing =>
          rw [called.2] at writing
          cases writing
      | ends said current handed failures ended =>
          rw [called.2] at ended
          cases ended
      | rests said waiting opened stays rests =>
          have quiet := rests.tells (.inl rfl)
          rcases Link.lastWords_leave suits with nothing | ⟨leave, fits, words⟩
          · rw [nothing]
            exact .ends said [] [] [] rfl (.inl rfl) quiet
          · rw [words]
            unfold Socket.accepts
            split
            · exact .ends _ [] [] [] rfl (.inl rfl) (rests.leave fits)
            · exact .ends said [] [] [] rfl (.inl rfl) quiet

theorem Mute.receive (mute : served.Mute) (lasting : served.halted = false)
    (most : Nat) (now : Instant) :
    served.link.retort served.socket most = [] ∧
      Mute
        { served with
          link := (served.link.receive served.socket most now).link
          socket := (served.link.receive served.socket most now).socket } := by
  rcases mute with halted | ended | refusing
  · rw [lasting] at halted
    cases halted
  · refine ⟨Link.retort_ended ended served.socket most, .inr (.inl ?_)⟩
    exact (served.link.receive_goes served.socket most now).ended ended
  · have took := served.link.receive_takes served.socket most now
    obtain ⟨nothing, still⟩ := took.refuses refusing
    exact ⟨nothing, .inr (.inr still)⟩

theorem Account.receive (account : served.Account transport ledger)
    (suits : served.link.Suits transport) (lasting : served.halted = false)
    (most : Nat) (now : Instant) :
    Account transport
      (ledger.enter [] (served.link.retort served.socket most) [])
      { served with
        link := (served.link.receive served.socket most now).link
        socket := (served.link.receive served.socket most now).socket } := by
  obtain ⟨more, heeds⟩ := Link.receive_heeds suits served.socket most now
  obtain ⟨signals, given, retort⟩ :=
    Link.retort_signals suits served.socket most
  have sending := heeds.sending
  have parted (before : served.link.Parted) :
      (served.link.receive served.socket most now).link.Parted := by
    rw [before.receive]
    exact before
  cases account with
  | rests said waiting opened stays rests =>
      rw [waiting] at sending
      rw [retort]
      refine .rests (said ++ pongs signals) sending
        (heeds.closed.trans opened) ?_ ?_
      · exact stays.imp (fun goesOn => goesOn.append given.pongs) parted
      · rw [heeds.outbox]
        exact rests.answer given
  | holds said payload behind handed unsent writing opened stays holds =>
      rw [writing] at sending
      rw [Link.retort_writing writing, ledger.enter_nothing]
      refine .holds said payload (behind ++ more) handed _ sending
        (heeds.closed.trans opened) ?_ ?_
      · rcases stays with goesOn | before
        · refine heeds.stays.imp_left fun onward => ?_
          have both := goesOn.append onward
          rw [List.append_assoc] at both
          exact both
        · exact .inr (parted before)
      · rw [heeds.outbox]
        exact holds.behind heeds.asides
  | ends said current handed failures ended silent tells =>
      rw [ended] at sending
      -- Answers are still given behind whole utterances; behind a part of one
      -- they would be read as its rest.
      rcases silent with rfl | mute
      · rw [retort]
        exact .ends _ [] [] failures sending (.inl rfl) (tells.answer given)
      · obtain ⟨nothing, still⟩ := mute.receive lasting most now
        rw [nothing, ledger.enter_nothing]
        exact .ends said current handed failures sending (.inr still) tells

theorem Account.post (account : served.Account transport ledger)
    (payload : Payload) :
    Account transport (ledger.enter [payload] [] [])
      { served with link := (served.link.post payload).1 } := by
  unfold Link.post
  cases account with
  | rests said waiting opened stays rests =>
      rw [if_neg (by simp [opened, waiting])]
      exact .rests said waiting opened
        (stays.imp_right fun parted => parted.same rfl rfl rfl)
        (rests.post payload)
  | holds said held others handed unsent writing opened stays holds =>
      rw [if_neg (by simp [opened, writing])]
      exact .holds said held others handed unsent writing opened
        (stays.imp_right fun parted => parted.same rfl rfl rfl) holds.post
  | ends said current handed failures ended silent tells =>
      rw [if_pos (.inr ended)]
      exact .ends said current handed failures ended silent
        (tells.post [payload])

theorem Account.close (account : served.Account transport ledger) :
    Account transport ledger { served with link := served.link.close } := by
  cases closed : served.link.closed with
  | true =>
      rw [served.link.close_of_closed closed]
      exact account
  | false =>
      have shut := Link.close_shut closed
      exact account.cut shut.sending (.inr (.inl shut.receiving))

/-! ### Incidents -/

def confirms (connection : Connection) (served : Served)
    (incident : Incident) : List Event :=
  if incident.isSend then (served.meet connection incident).2 else []

theorem Account.onLink (account : served.Account transport ledger)
    {turn : Link → Socket → LinkStep} {bytes : List UInt8}
    {reported told : List Event}
    (turned : served.halted = false →
      Account transport (ledger.enter [] bytes reported)
        { served with
          link := (turn served.link served.socket).link
          socket := (turn served.link served.socket).socket })
    (tells : told = if served.halted then [] else reported) :
    Account transport (ledger.enter [] (served.inTurn bytes) told)
      (served.onLink turn).1 := by
  rw [tells]
  unfold Served.onLink Served.inTurn
  by_cases halted : served.halted = true
  · rw [if_pos halted, if_pos halted, if_pos halted, ledger.enter_nothing]
    exact account
  · rw [if_neg halted, if_neg halted, if_neg halted]
    exact turned (eq_false_of_ne_true halted)

theorem Account.onSocket (account : served.Account transport ledger)
    (change : Socket → Socket)
    (took : served.socket.Takes [] (change served.socket)) :
    Account transport (ledger.enter [] [] []) (served.onSocket change) := by
  rw [ledger.enter_nothing]
  refine account.keep rfl rfl rfl id ?_
  exact Or.imp_right (Or.imp_right fun refusing =>
    (took.refuses refusing).2)

theorem Account.turn (account : served.Account transport ledger)
    (suits : served.link.Suits transport) (connection : Connection)
    (now : Instant) (step : EndpointStep) :
    Account transport
      (ledger.enter [] (served.utters (.turn now step))
        (served.confirms connection (.turn now step)))
      (served.turn now step).1 := by
  have idle : served.Account transport (ledger.enter [] [] []) := by
    rw [ledger.enter_nothing]
    exact account
  cases step with
  | arrive bytes =>
      exact account.onSocket (fun socket => socket.arrive bytes)
        (served.socket.takes_arrive bytes)
  | finish => exact account.onSocket _ served.socket.takes_finish
  | hangUp => exact account.onSocket _ served.socket.takes_hangUp
  | reset => exact account.onSocket _ served.socket.takes_reset
  | receive most =>
      apply account.onLink _ (ite_self _).symm
      exact fun lasting => account.receive suits lasting most now
  | stopReceiving =>
      have stopped : (served.onLink fun link socket =>
          { link := link.stopReceiving
            socket := socket }).1.Account transport
          (ledger.enter [] (served.inTurn []) []) := by
        apply account.onLink _ (ite_self _).symm
        intro _
        rw [ledger.enter_nothing]
        unfold Link.stopReceiving
        dsimp only
        split
        · exact account.keep rfl rfl rfl
            (fun parted => ⟨parted.isWebSocket, parted.silent, rfl⟩)
            fun _ => .inr (.inl rfl)
        · exact account
      rw [inTurn, ite_self] at stopped
      exact stopped
  | send room =>
      apply account.onLink
      · exact fun _ => account.send suits room
      · change (served.onLink _).2 = _
        unfold Served.onLink
        split <;> rfl
  | stopSending =>
      apply account.onLink _ (ite_self _).symm
      exact fun _ => account.stopSending suits
  | _ => exact idle

theorem Account.arm (account : served.Account transport ledger) :
    Account transport ledger { served with link := served.link.arm } := by
  unfold Link.arm
  split
  · exact account
  · split
    case h_1 parked =>
        have started : served.link.receiving ≠ .ended := by
          rw [parked]
          exact Receiving.noConfusion
        refine account.keep rfl rfl rfl
          (fun parted => absurd parted.ended started) ?_
        exact Or.imp_right (Or.imp_left fun ended => absurd ended started)
    case h_2 => exact account

theorem Account.perform (account : served.Account transport ledger)
    (connection : Connection) (call : Call) :
    Account transport
      (ledger.enter
        (Incident.posts connection (.call (connection.does call))) [] [])
      (served.perform call).1 := by
  have idle {later : Served} (kept : later.Account transport ledger) :
      later.Account transport (ledger.enter [] [] []) := by
    rw [ledger.enter_nothing]
    exact kept
  cases call with
  | arm => exact idle account.arm
  | send payload =>
      have posts :
          Incident.posts connection (.call (connection.does (.send payload))) =
            [payload] := if_pos rfl
      rw [posts]
      exact account.post payload
  | close => exact idle account.close
  | drop => exact idle account.close

theorem Account.meet (account : served.Account transport ledger)
    (suits : served.link.Suits transport) (connection : Connection)
    (incident : Incident) (fair : incident.Fair) :
    Account transport
      (ledger.enter (incident.posts connection) (served.utters incident)
        (served.confirms connection incident))
      (served.meet connection incident).1 := by
  have idle : served.Account transport (ledger.enter [] [] []) := by
    rw [ledger.enter_nothing]
    exact account
  cases incident with
  | turn now step => exact account.turn suits connection now step
  | farEnd change =>
      exact account.onSocket change
        (served.meet_takes connection (.farEnd change) fair)
  | call made =>
      rcases made with ⟨other, call⟩
      by_cases own : other = connection
      · subst own
        rw [Served.meet, if_pos rfl]
        exact account.perform other call
      · have nothing := Incident.posts_other own call
        rw [Connection.does] at nothing
        rw [Served.meet, if_neg own, nothing]
        exact idle
  | cancelAccept => exact idle
  | cancelSession =>
      exact idle.keep rfl rfl rfl (fun parted => parted.same rfl rfl rfl) id
  | halt => exact idle.cut rfl (.inl rfl)

/-- A connection whose socket has sent on a greeting, and then what the
account says. -/
structure Delivers (transport : Transport) (greeting : List UInt8)
    (ledger : Ledger) (served : Served) : Prop where
  suits : served.link.Suits transport
  account : served.Account transport ledger
  carries : served.socket.Carries (greeting ++ ledger.uttered)

/-- The step lemma. -/
theorem Delivers.meet {greeting : List UInt8}
    (delivers : served.Delivers transport greeting ledger)
    (connection : Connection) (incident : Incident) (fair : incident.Fair) :
    (served.meet connection incident).1.Delivers transport greeting
      (ledger.enter (incident.posts connection) (served.utters incident)
        (served.confirms connection incident)) where
  suits := meet_suits delivers.suits connection incident
  account := delivers.account.meet delivers.suits connection incident fair
  carries := by
    rw [Ledger.enter, ← List.append_assoc]
    exact (served.meet_takes connection incident fair).carries
      delivers.carries

theorem begin_delivers (transport : Transport) (calledOff : Bool)
    {socket : Socket} {greeting : List UInt8}
    (carries : socket.Carries greeting) :
    (begin transport calledOff socket).Delivers transport greeting
      { posted := []
        uttered := []
        confirmed := [] } where
  suits := Link.start_suits transport calledOff
  account := .rests [] rfl rfl (.inl (goesOn_nil transport))
    ⟨talks_nil transport, rfl, rfl, rfl⟩
  carries := (List.append_nil greeting).symm ▸ carries

theorem Account.tells (account : served.Account transport ledger) :
    ∃ said current handed failures,
      ledger.Tells transport said current handed failures ∧
        (failures = [] ∨ served.link.sending = .ended) := by
  rw [← ledger.enter_nothing]
  cases account with
  | rests said _ _ _ rests =>
      exact ⟨said, [], [], [], rests.tells (.inl rfl), .inl rfl⟩
  | holds said payload others handed unsent _ _ _ holds =>
      exact ⟨said, _, handed, [], holds.tells (.inl rfl), .inl rfl⟩
  | ends said current handed failures ended _ tells =>
      exact ⟨said, current, handed, failures, tells.post [], .inr ended⟩

end Served

end LatencyBench

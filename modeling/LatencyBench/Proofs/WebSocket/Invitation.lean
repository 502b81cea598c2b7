/-
An upgrade that both sides agree to.

Whatever host a client calls and whatever key it draws, as long as both are
visible, the server reads its request as it was written and answers with the
agreement, and the client reads the agreement and accepts it.
-/

import LatencyBench.Proofs.Http.Heads
import LatencyBench.Proofs.Text.Graphic
import LatencyBench.WebSocket.Upgrade

namespace LatencyBench.WebSocket

open Http

/-! ### Lines -/

theorem headBytes_eq (lines : List String) :
    headBytes lines =
      lines.flatMap (fun line => Utf8.encode line ++ lineEnd) ++ lineEnd := by
  have empty : Utf8.encode "" = [] := by decide +kernel
  rw [headBytes, List.flatMap_append, List.flatMap_singleton, empty]
  rfl

def fieldOf (name value : String) : Field :=
  { name := Utf8.encode name
    value := Utf8.encode value }

theorem encode_fieldLine (name value : String) :
    Utf8.encode (name ++ ": " ++ value) ++ lineEnd =
      (fieldOf name value).line := by
  have mark : Utf8.encode ": " = [colon, space] := by decide +kernel
  rw [Utf8.encode_append, Utf8.encode_append, mark]
  rfl

theorem plain_fieldOf {name value : String}
    (token : Utf8.encode name ≠ [] ∧
      ∀ byte ∈ Utf8.encode name, isToken byte = true)
    (graphic : IsGraphic value) : (fieldOf name value).Plain where
  named := token.1
  token := token.2
  ink := Utf8.encode_visible graphic

/-! ### Looking fields up -/

section Looking

variable {name value wanted : String} {names values : List String}

theorem fieldOf_same
    (same : sameLetters (Utf8.encode name) (Utf8.encode wanted) = true)
    (rest : List Field) :
    fieldValue? (fieldOf name value :: rest) wanted =
      some (Utf8.encode value) := by
  simp only [fieldValue?, fieldOf, List.find?, same, Option.map_some]

theorem fieldOf_other
    (other : sameLetters (Utf8.encode name) (Utf8.encode wanted) = false)
    (rest : List Field) :
    fieldValue? (fieldOf name value :: rest) wanted =
      fieldValue? rest wanted := by
  simp only [fieldValue?, fieldOf, List.find?, other]

theorem fieldValue?_zipWith (paired : names.length = values.length) :
    fieldValue? (List.zipWith fieldOf names values) wanted =
      (names.findIdx? fun name =>
          sameLetters (Utf8.encode name) (Utf8.encode wanted)).bind
        fun place => values[place]?.map Utf8.encode := by
  induction names generalizing values with
  | nil => rfl
  | cons name others inductionHypothesis =>
      cases values with
      | nil => cases paired
      | cons value rest =>
          rw [List.zipWith_cons_cons, List.findIdx?_cons]
          cases met : sameLetters (Utf8.encode name) (Utf8.encode wanted) with
          | true => exact fieldOf_same met _
          | false =>
              rw [fieldOf_other met,
                inductionHypothesis (Nat.succ.inj paired)]
              cases others.findIdx? _ <;> rfl

/-- The field that a name is found at can be told from the names alone. -/
theorem fieldValue?_at {fields : List Field} {place : Option Nat}
    (written : fields = List.zipWith fieldOf names values)
    (paired : names.length = values.length)
    (found : (names.findIdx? fun name =>
      sameLetters (Utf8.encode name) (Utf8.encode wanted)) = place) :
    fieldValue? fields wanted =
      place.bind fun place => values[place]?.map Utf8.encode := by
  rw [written, fieldValue?_zipWith paired, found]

end Looking

variable {host key : String}

/-! ### The request -/

def invitationHead (host key : String) : RequestHead :=
  { method := Utf8.encode "GET"
    target := Utf8.encode "/"
    minorVersion := 1
    fields :=
      [fieldOf "Host" host,
       fieldOf "Connection" "Upgrade",
       fieldOf "Upgrade" "websocket",
       fieldOf "Sec-WebSocket-Version" "13",
       fieldOf "Sec-WebSocket-Key" key] }

def invitationNames : List String :=
  ["Host", "Connection", "Upgrade", "Sec-WebSocket-Version",
   "Sec-WebSocket-Key"]

theorem invitation_at {wanted : String} (host key : String)
    (place : Option Nat)
    (found : (invitationNames.findIdx? fun name =>
      sameLetters (Utf8.encode name) (Utf8.encode wanted)) = place) :
    fieldValue? (invitationHead host key).fields wanted =
      place.bind fun place =>
        [host, "Upgrade", "websocket", "13", key][place]?.map Utf8.encode := by
  have written : (invitationHead host key).fields =
      List.zipWith fieldOf invitationNames
        [host, "Upgrade", "websocket", "13", key] := rfl
  exact fieldValue?_at written rfl found

theorem invitation_eq (host key : String) :
    invitation host key =
      (Utf8.encode "GET / HTTP/1.1" ++ lineEnd) ++
        ((invitationHead host key).fields.flatMap Field.line ++ lineEnd) := by
  simp only [invitation, headBytes_eq, invitationHead, List.flatMap_cons,
    List.flatMap_nil, ← encode_fieldLine, List.append_nil, List.append_assoc]
  rfl

theorem invitationHead_plain (isHost : IsGraphic host) (isKey : IsGraphic key) :
    ∀ field ∈ (invitationHead host key).fields, field.Plain := by
  have token : ∀ name ∈ invitationNames, Utf8.encode name ≠ [] ∧
      ∀ byte ∈ Utf8.encode name, isToken byte = true := by
    decide +kernel
  simp only [invitationHead, List.forall_mem_cons]
  simp only [invitationNames, List.forall_mem_cons] at token
  obtain ⟨host, connection, upgrade, version, key, _⟩ := token
  exact ⟨plain_fieldOf host isHost, plain_fieldOf connection (by decide),
    plain_fieldOf upgrade (by decide), plain_fieldOf version (by decide),
    plain_fieldOf key isKey, List.forall_mem_nil _⟩

theorem scan_invitation (isHost : IsGraphic host) (isKey : IsGraphic key) :
    scan RequestReader.step .beforeLine (invitation host key) =
      .found (invitationHead host key) [] := by
  have first : scan RequestReader.step .beforeLine
      (Utf8.encode "GET / HTTP/1.1" ++ lineEnd) =
      .going (.inFields (Utf8.encode "GET") (Utf8.encode "/") 1 .start) := by
    decide +kernel
  rw [invitation_eq]
  exact scan_request (invitationHead_plain isHost isKey)
    (show 5 ≤ maxFields by decide) first

theorem judge_invitation (host key : String) :
    judgeRequest (invitationHead host key) [] = .ok (Utf8.encode key) := by
  have connection : fieldValue? (invitationHead host key).fields "connection" =
      some (Utf8.encode "Upgrade") :=
    invitation_at host key (some 1) (by decide +kernel)
  have upgrade : fieldValue? (invitationHead host key).fields "upgrade" =
      some (Utf8.encode "websocket") :=
    invitation_at host key (some 2) (by decide +kernel)
  have version : fieldValue? (invitationHead host key).fields
      "sec-websocket-version" = some (Utf8.encode "13") :=
    invitation_at host key (some 3) (by decide +kernel)
  have given : fieldValue? (invitationHead host key).fields
      "sec-websocket-key" = some (Utf8.encode key) :=
    invitation_at host key (some 4) (by decide +kernel)
  have listed : lists (invitationHead host key).fields "connection"
      "upgrade" = true := by
    rw [lists, connection]
    decide +kernel
  have held : holds (invitationHead host key).fields "upgrade"
      "websocket" = true := by
    rw [holds, upgrade]
    decide +kernel
  have target : targetError? (Utf8.encode "/") = none := by decide +kernel
  have line : judgeLine (invitationHead host key) = .ok () := by
    simp only [judgeLine, invitationHead, ne_eq, not_true_eq_false, if_false,
      Nat.lt_irrefl, target]
    rfl
  have fields : judgeFields (invitationHead host key).fields =
      .ok (Utf8.encode key) := by
    simp only [judgeFields, listed, held, version, given, Bool.not_true,
      Bool.false_eq_true, if_false, ne_eq, not_true_eq_false]
    rfl
  simp only [judgeRequest, line, fields, List.isEmpty_nil, Bool.not_true,
    Bool.false_eq_true, if_false]
  rfl

/-- A piece of the invitation that completes the request is agreed to, and is
the last one. -/
theorem takePiece_agreed (isHost : IsGraphic host) (isKey : IsGraphic key)
    {upgrade : Upgrade} {before piece after response : List UInt8}
    (going : scan RequestReader.step .beforeLine before =
      .going upgrade.reader)
    (opening : before ++ piece ++ after = invitation host key)
    (agreed : upgrade.takePiece piece = .agreed response) :
    after = [] ∧ response = agreement (Utf8.encode key) := by
  have scanned := scan_append_going RequestReader.step piece going
  have whole := scan_invitation isHost isKey
  rw [← opening] at whole
  unfold Upgrade.takePiece at agreed
  dsimp only at agreed
  rw [← scanned] at agreed
  split at agreed
  · cases agreed
  · split at agreed
    · cases agreed
    · cases agreed
    · rename_i request rest found
      have longer := scan_append_found RequestReader.step after found
      rw [whole] at longer
      injection longer with sameRequest sameRest
      obtain ⟨noRest, noAfter⟩ := List.append_eq_nil_iff.mp sameRest.symm
      refine ⟨noAfter, ?_⟩
      rw [← sameRequest, noRest, judge_invitation] at agreed
      cases agreed
      rfl

/-- A piece that does not complete the request leaves the reader where the
whole of it would. -/
theorem takePiece_going {upgrade next : Upgrade} {before piece : List UInt8}
    (going : scan RequestReader.step .beforeLine before =
      .going upgrade.reader)
    (onward : upgrade.takePiece piece = .going next) :
    scan RequestReader.step .beforeLine (before ++ piece) =
      .going next.reader := by
  have scanned := scan_append_going RequestReader.step piece going
  unfold Upgrade.takePiece at onward
  dsimp only at onward
  rw [← scanned] at onward
  split at onward
  · cases onward
  · split at onward
    · rename_i reader found
      cases onward
      exact found
    · cases onward
    · split at onward <;> cases onward

/-! ### The response -/

def agreementHead (key : List UInt8) : ResponseHead :=
  { minorVersion := 1
    status := 101
    fields :=
      [fieldOf "connection" "Upgrade",
       fieldOf "upgrade" "websocket",
       fieldOf "sec-websocket-accept" (acceptKey key),
       fieldOf "server" serverName] }

def agreementNames : List String :=
  ["connection", "upgrade", "sec-websocket-accept", "server"]

theorem agreement_at {wanted : String} (key : List UInt8)
    (place : Option Nat)
    (found : (agreementNames.findIdx? fun name =>
      sameLetters (Utf8.encode name) (Utf8.encode wanted)) = place) :
    fieldValue? (agreementHead key).fields wanted =
      place.bind fun place =>
        ["Upgrade", "websocket", acceptKey key, serverName][place]?.map
          Utf8.encode := by
  have written : (agreementHead key).fields =
      List.zipWith fieldOf agreementNames
        ["Upgrade", "websocket", acceptKey key, serverName] := rfl
  exact fieldValue?_at written rfl found

theorem agreement_eq (key : List UInt8) :
    agreement key =
      (Utf8.encode "HTTP/1.1 101 Switching Protocols" ++ lineEnd) ++
        ((agreementHead key).fields.flatMap Field.line ++ lineEnd) := by
  simp only [agreement, headBytes_eq, agreementHead, List.flatMap_cons,
    List.flatMap_nil, ← encode_fieldLine, List.append_nil, List.append_assoc]
  rfl

theorem agreementHead_plain (key : List UInt8) :
    ∀ field ∈ (agreementHead key).fields, field.Plain := by
  have token : ∀ name ∈ agreementNames, Utf8.encode name ≠ [] ∧
      ∀ byte ∈ Utf8.encode name, isToken byte = true := by
    decide +kernel
  simp only [agreementHead, List.forall_mem_cons]
  simp only [agreementNames, List.forall_mem_cons] at token
  obtain ⟨connection, upgrade, accept, server, _⟩ := token
  exact ⟨plain_fieldOf connection (by decide),
    plain_fieldOf upgrade (by decide),
    plain_fieldOf accept (Base64.isGraphic_encode _),
    plain_fieldOf server (by decide), List.forall_mem_nil _⟩

theorem scan_agreement (key : List UInt8) :
    scan ResponseReader.step .beforeLine (agreement key) =
      .found (agreementHead key) [] := by
  have first : scan ResponseReader.step .beforeLine
      (Utf8.encode "HTTP/1.1 101 Switching Protocols" ++ lineEnd) =
      .going (.inFields 1 101 .start) := by
    decide +kernel
  rw [agreement_eq]
  exact scan_response (agreementHead_plain key)
    (show 4 ≤ maxFields by decide) first

theorem judge_agreement (key : String) :
    judgeResponse key (agreementHead (Utf8.encode key)) = .ok () := by
  have connection : fieldValue? (agreementHead (Utf8.encode key)).fields
      "connection" = some (Utf8.encode "Upgrade") :=
    agreement_at _ (some 0) (by decide +kernel)
  have upgrade : fieldValue? (agreementHead (Utf8.encode key)).fields
      "upgrade" = some (Utf8.encode "websocket") :=
    agreement_at _ (some 1) (by decide +kernel)
  have accepted : fieldValue? (agreementHead (Utf8.encode key)).fields
      "sec-websocket-accept" =
        some (Utf8.encode (acceptKey (Utf8.encode key))) :=
    agreement_at _ (some 2) (by decide +kernel)
  have protocol : fieldValue? (agreementHead (Utf8.encode key)).fields
      "sec-websocket-protocol" = none :=
    agreement_at _ none (by decide +kernel)
  have held : holds (agreementHead (Utf8.encode key)).fields "upgrade"
      "websocket" = true := by
    rw [holds, upgrade]
    decide +kernel
  have both : holds (agreementHead (Utf8.encode key)).fields "connection"
      "upgrade" = true := by
    rw [holds, connection]
    decide +kernel
  have status : (agreementHead (Utf8.encode key)).status = 101 := rfl
  have version : (agreementHead (Utf8.encode key)).minorVersion = 1 := rfl
  simp only [judgeResponse, version, status, held, both, accepted, protocol,
    Nat.lt_irrefl, Nat.reduceLT, Bool.not_true, Bool.false_eq_true, if_false,
    ne_eq, not_true_eq_false, Option.isSome_none]
  rfl

end LatencyBench.WebSocket

/-
The upgrade: the HTTP request by which a client turns a connection into a
WebSocket, and the response that agrees.

The server reads the request piece by piece, judges it as soon as its head is
complete, and either answers with the key that proves it understood, or gives
up without an answer.  The client judges the response likewise.
-/

import LatencyBench.Fault
import LatencyBench.Http.Target
import LatencyBench.WebSocket.AcceptKey
import LatencyBench.WebSocket.Message

namespace LatencyBench.WebSocket

open Http Net

inductive UpgradeError where
  | head (error : HeadError)
  | tooManyPieces
  | method
  | version
  | target (error : TargetError)
  | connection
  | upgrade
  | webSocketVersion
  | key
  | junk
  | unfinished
  | io (error : IoError)
  | statusCode
  | status (code : Nat)
  | acceptKey
  | subprotocol
deriving DecidableEq, Repr

def statusReasons : List (Nat × String) :=
  [(100, "Continue"), (101, "Switching Protocols"), (102, "Processing"),
   (200, "OK"), (201, "Created"), (202, "Accepted"), (204, "No Content"),
   (206, "Partial Content"), (300, "Multiple Choices"),
   (301, "Moved Permanently"), (302, "Found"), (303, "See Other"),
   (304, "Not Modified"), (307, "Temporary Redirect"),
   (308, "Permanent Redirect"), (400, "Bad Request"),
   (401, "Unauthorized"), (402, "Payment Required"), (403, "Forbidden"),
   (404, "Not Found"), (405, "Method Not Allowed"),
   (406, "Not Acceptable"), (408, "Request Timeout"), (409, "Conflict"),
   (410, "Gone"), (411, "Length Required"), (413, "Payload Too Large"),
   (414, "URI Too Long"), (415, "Unsupported Media Type"),
   (418, "I'm a teapot"), (421, "Misdirected Request"),
   (422, "Unprocessable Entity"), (425, "Too Early"),
   (426, "Upgrade Required"), (428, "Precondition Required"),
   (429, "Too Many Requests"),
   (431, "Request Header Fields Too Large"),
   (500, "Internal Server Error"), (501, "Not Implemented"),
   (502, "Bad Gateway"), (503, "Service Unavailable"),
   (504, "Gateway Timeout"), (505, "HTTP Version Not Supported")]

def statusText (code : Nat) : String :=
  toString code ++ " " ++
    ((statusReasons.lookup code).getD "<unknown status code>")

def UpgradeError.message : UpgradeError → String
  | .head error => protocolText ("httparse error: " ++ error.message)
  | .tooManyPieces => "Attack attempt detected"
  | .method =>
      protocolText "Unsupported HTTP method used - only GET is allowed"
  | .version => protocolText "HTTP version must be 1.1 or higher"
  | .target error => "HTTP format error: " ++ error.message
  | .connection => protocolText "No \"Connection: upgrade\" header"
  | .upgrade => protocolText "No \"Upgrade: websocket\" header"
  | .webSocketVersion =>
      protocolText "No \"Sec-WebSocket-Version: 13\" header"
  | .key => protocolText "No \"Sec-WebSocket-Key\" header"
  | .junk => protocolText "Junk after client request"
  | .unfinished => protocolText "Handshake not finished"
  | .io error => "IO error: " ++ error.text
  | .statusCode => "HTTP format error: invalid status code"
  | .status code => "HTTP error: " ++ statusText code
  | .acceptKey =>
      protocolText "Key mismatch in \"Sec-WebSocket-Accept\" header"
  | .subprotocol =>
      protocolText
        ("SubProtocol error: Server sent a subprotocol but none was " ++
          "requested")

/-! ### Judging a request -/

def holds (fields : List Field) (name word : String) : Bool :=
  match (fieldValue? fields name).bind visible? with
  | none => false
  | some value => sameLetters value (Utf8.encode word)

def wordsOf (value : List UInt8) : List (List UInt8) :=
  value.splitOnP fun byte => byte = space || byte = 0x2C

def lists (fields : List Field) (name word : String) : Bool :=
  match (fieldValue? fields name).bind visible? with
  | none => false
  | some value =>
      (wordsOf value).any fun item => sameLetters item (Utf8.encode word)

def judgeLine (request : RequestHead) : Except UpgradeError Unit := do
  if request.method ≠ Utf8.encode "GET" then throw .method
  if request.minorVersion < 1 then throw .version
  match targetError? request.target with
  | some error => throw (.target error)
  | none => return ()

def judgeFields (fields : List Field) : Except UpgradeError (List UInt8) := do
  if !lists fields "connection" "upgrade" then throw .connection
  if !holds fields "upgrade" "websocket" then throw .upgrade
  if fieldValue? fields "sec-websocket-version" ≠
      some (Utf8.encode "13") then
    throw .webSocketVersion
  match fieldValue? fields "sec-websocket-key" with
  | some key => return key
  | none => throw .key

def judgeRequest (request : RequestHead) (rest : List UInt8) :
    Except UpgradeError (List UInt8) := do
  judgeLine request
  if !rest.isEmpty then throw .junk
  judgeFields request.fields

def serverName : String := "teleop-latency/0.1.0"

def headBytes (lines : List String) : List UInt8 :=
  (lines ++ [""]).flatMap fun line =>
    Utf8.encode line ++ [carriageReturn, lineFeed]

def agreement (key : List UInt8) : List UInt8 :=
  headBytes
    ["HTTP/1.1 101 Switching Protocols",
     "connection: Upgrade",
     "upgrade: websocket",
     "sec-websocket-accept: " ++ acceptKey key,
     "server: " ++ serverName]

/-! ### Reading a request -/

def pieceSize : Nat := 4096

/-- Reading the request: where the reader stands, and how much has come in
how many pieces. -/
structure Upgrade where
  reader : RequestReader
  pieces : Nat
  bytes : Nat
deriving DecidableEq, Repr

inductive UpgradeOutcome where
  | going (upgrade : Upgrade)
  | agreed (response : List UInt8)
  | refused (error : UpgradeError)
deriving DecidableEq, Repr

namespace Upgrade

def start : Upgrade :=
  { reader := .beforeLine
    pieces := 0
    bytes := 0 }

/-- Whether the request comes in suspiciously small pieces, or in too many,
or is too long. -/
def suspicious (upgrade : Upgrade) : Bool :=
  65536 < upgrade.bytes || 512 < upgrade.pieces ||
    (64 < upgrade.pieces && upgrade.bytes < upgrade.pieces * 128)

def takePiece (upgrade : Upgrade) (piece : List UInt8) : UpgradeOutcome :=
  let counted :=
    { upgrade with
      pieces := upgrade.pieces + 1
      bytes := upgrade.bytes + piece.length }
  if counted.suspicious then .refused .tooManyPieces
  else
    match scan RequestReader.step upgrade.reader piece with
    | .going reader => .going { counted with reader := reader }
    | .refused error => .refused (.head error)
    | .found request rest =>
        match judgeRequest request rest with
        | .ok key => .agreed (agreement key)
        | .error error => .refused error

end Upgrade

/-! ### The client's side -/

def invitation (host key : String) : List UInt8 :=
  headBytes
    ["GET / HTTP/1.1",
     "Host: " ++ host,
     "Connection: Upgrade",
     "Upgrade: websocket",
     "Sec-WebSocket-Version: 13",
     "Sec-WebSocket-Key: " ++ key]

def judgeResponse (key : String) (response : ResponseHead) :
    Except UpgradeError Unit := do
  if response.minorVersion < 1 then throw .version
  if response.status < 100 then throw .statusCode
  if response.status ≠ 101 then throw (.status response.status)
  if !holds response.fields "upgrade" "websocket" then throw .upgrade
  if !holds response.fields "connection" "upgrade" then throw .connection
  if fieldValue? response.fields "sec-websocket-accept" ≠
      some (Utf8.encode (acceptKey (Utf8.encode key))) then
    throw .acceptKey
  if (fieldValue? response.fields "sec-websocket-protocol").isSome then
    throw .subprotocol

end LatencyBench.WebSocket

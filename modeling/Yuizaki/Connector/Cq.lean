import Yuizaki.Lib.Finditer
import Yuizaki.Lib.Replace
import Yuizaki.Lib.Json
import Mathlib.Data.List.Sort

/- Messages of the QQ bridge (`_parse_bridge_message` in `system/message_connectors.py`).

   OneBot writes a mention or a picture into the text of a message as `[CQ:kind,key=value]`,
   and writes brackets, ampersands and, inside of a segment, commas that the user has typed as
   entities. The parser finds the segments first and puts entities back afterwards, in each text
   and each value on its own. A list of segments is read by the same loop. -/
namespace Connector

/-! ## The host -/

/-- `str(value)` of a value that is no text, and the SHA-256 of a list's JSON text. -/
structure BridgeHost where
  str : Json → String
  digest : List Json → String

/-- `str(value or "")`. -/
def BridgeHost.orEmpty (host : BridgeHost) : Json → String
  | .str s => s
  | value => if value.truthy then host.str value else ""

def BridgeHost.text (host : BridgeHost) (value : Json) : String := PyStr.strip (host.orEmpty value)

def BridgeHost.boundedText (host : BridgeHost) (value : Json) (limit : ℕ) : String :=
  PyStr.textPrefix limit (host.text value)

/-! ## Segments -/

/-- `\[CQ:([^,\[\]]+)((?:,[^\[\]]*)?)\]` -/
def cqPattern : Regex :=
  .seqs [.text "[CQ:", .group 1 (.some1 true (.noneOf ",[]")),
    .group 2 (.optional (.seq (.oneOf ",") (.many true (.noneOf "[]")))), .oneOf "]"]

def unescape (value : String) : String :=
  PyStr.replace "&amp;" "&" (PyStr.replace "&#93;" "]" (PyStr.replace "&#91;" "["
    (PyStr.replace "&#44;" "," value)))

/-- One parameter `key=value` is put into the data; a field without `=` is left out. -/
def putParameter (data : List (String × Json)) (parameter : List Char) : List (String × Json) :=
  match parameter.dropWhile (fun c => c ≠ '=') with
  | [] => data
  | _ :: value =>
    Json.setEntry data (String.ofList (parameter.takeWhile (fun c => c ≠ '=')))
      (.str (unescape (String.ofList value)))

/-- The parameters of a segment, from the comma on. -/
def parameters (params : List Char) : List (String × Json) :=
  ((params.dropWhile (fun c => c = ',')).splitOn ',').foldl putParameter []

def textSegment (text : List Char) : Json :=
  .obj [("type", .str "text"), ("data", .obj [("text", .str (unescape (String.ofList text)))])]

def cqSegment (kind params : List Char) : Json :=
  .obj [("type", .str (String.ofList kind)), ("data", .obj (parameters params))]

def matchSegment (m : Regex.Position) : Json :=
  cqSegment ((m.groups.lookup 1).getD []) ((m.groups.lookup 2).getD [])

/-- The segments of a message text, with the texts between them. -/
def segments (rawMessage : String) : List Json :=
  let found := cqPattern.pieces 0 none rawMessage.toList
  textSegment found.1 :: found.2.flatMap (fun piece => [matchSegment piece.1, textSegment piece.2])

/-! ## Reading -/

def media : List (String × String) :=
  [("image", "[图片]"), ("record", "[语音]"), ("voice", "[语音]"), ("file", "[文件]")]

structure Reading where
  parts : List String
  mentioned : Bool
  replyId : Option String

/-- A segment is read; one without data is passed over. -/
def readSegment (host : BridgeHost) (selfId : String) (reading : Reading) (segment : Json) : Reading :=
  match segment.get "data", segment.get "type" with
  | .obj data, .str kind =>
    if kind = "at" then
      { reading with
        mentioned := reading.mentioned || (selfId ≠ "" ∧ host.text (Json.get (.obj data) "qq") = selfId) }
    else if kind = "reply" then
      let replyId := host.text (Json.get (.obj data) "id")
      if replyId ≠ "" then { reading with replyId := some replyId } else reading
    else if kind = "text" then
      { reading with parts := reading.parts ++ [host.orEmpty (Json.get (.obj data) "text")] }
    else
      match media.lookup kind with
      | some label => { reading with parts := reading.parts ++ [label] }
      | none => reading
  | _, _ => reading

def readSegments (host : BridgeHost) (selfId : String) (segments : List Json) : Reading :=
  segments.foldl (readSegment host selfId) { parts := [], mentioned := false, replyId := none }

/-! ## The message -/

/-- The settings of the connector that decide what becomes a turn (`_normalize_qq_config`). -/
structure QqFilter where
  mentionRequired : Bool
  prefixes : List String

structure ConnectorMessage where
  connectorId : String
  eventId : String
  sessionId : String
  externalUserId : String
  conversationId : String
  text : String
  replyTarget : List (String × String)
  metadata : List (String × String)
deriving DecidableEq

/-- `payload.get("message") or payload.get("text") or payload.get("content")` -/
def rawMessage (payload : Json) : Json :=
  ((payload.get "message").or (payload.get "text")).or (payload.get "content")

/-- What is read of the message of a payload, and its text. -/
def readMessage (host : BridgeHost) (selfId : String) (raw : Json) : Reading × String :=
  match raw with
  | .str raw =>
    let reading := readSegments host selfId (segments raw)
    (reading, host.boundedText (.str (String.join reading.parts)) 4000)
  | .arr items =>
    let reading := readSegments host selfId items
    (reading, host.boundedText (.str (String.join reading.parts)) 4000)
  | other => ({ parts := [], mentioned := false, replyId := none }, host.boundedText other 4000)

/-- The text without the longest prefix that it begins with; `none` where it begins with none of
them. -/
def withoutPrefix (prefixes : List String) (text : String) : Option String :=
  if prefixes = [] then some text
  else
    ((prefixes.insertionSort (fun a b => b.length ≤ a.length)).find? (fun item =>
      item.toList.isPrefixOf text.toList)).map (fun item =>
        PyStr.strip (String.ofList (text.toList.drop item.length)))

/-- Whether the event of a payload is a message of somebody else. -/
def foreignMessage (host : BridgeHost) (payload : Json) (selfId : String) : Bool :=
  (!payload.hasKey "post_type" || payload.get "post_type" ∈ [Json.str "message", Json.str "message_sent"]) &&
    !(selfId ≠ "" ∧ selfId ∈ [host.text (payload.get "user_id"), host.text ((payload.get "sender").get "user_id")])

def groupOf (host : BridgeHost) (payload : Json) : String :=
  host.text (((payload.get "group_id").or (payload.get "channel_id")).or (payload.get "conversation_id"))

/-- The id of the event, or a digest of what it says. -/
def eventIdOf (host : BridgeHost) (payload : Json) (selfId groupId userId : String) : String :=
  let givenId := host.text (((payload.get "id").or (payload.get "event_id")).or (payload.get "message_id"))
  if givenId = "" ∧ payload.get "time" ≠ .null then
    "fallback:" ++ host.digest [.str "qq", .str selfId, .str groupId, .str userId, payload.get "time",
      rawMessage payload]
  else givenId

/-- `_parse_bridge_message("qq", payload)`. -/
def parseBridgeMessage (host : BridgeHost) (config : QqFilter) (payload : Json) : Option ConnectorMessage :=
  let selfId := host.text (payload.get "self_id")
  let userId := host.text ((((payload.get "user_id").or (payload.get "openid")).or (payload.get "from_user")).or
    ((payload.get "sender").get "user_id"))
  let groupId := groupOf host payload
  let read := readMessage host selfId (rawMessage payload)
  if !foreignMessage host payload selfId then none
  else if groupId ≠ "" ∧ config.mentionRequired ∧ !read.1.mentioned then none
  else
    match withoutPrefix config.prefixes read.2 with
    | none => none
    | some text =>
      let conversationId := if groupId ≠ "" then groupId else userId
      let eventId := eventIdOf host payload selfId groupId userId
      if eventId = "" ∨ text = "" ∨ conversationId = "" then none
      else
        some {
          connectorId := "qq"
          eventId
          sessionId := "connector:qq:" ++ (if groupId ≠ "" then "group" else "user") ++ ":" ++ conversationId
          externalUserId := if userId ≠ "" then userId else "unknown"
          conversationId
          text
          replyTarget := [("user_id", userId), ("group_id", groupId), ("conversation_id", conversationId)]
          metadata := match read.1.replyId with
            | some replyId => [("reply_id", replyId)]
            | none => [] }

end Connector

import Yuizaki.Lib.Json
import Yuizaki.Lib.Dict
import Yuizaki.Lib.PyStr

/- The tables of the chat database (`database/models.py`) that the repository's writers
   read or change.

   A column that may be NULL is an option. A message id is a row id of SQLite: the next one
   is one more than the largest that is stored, so the id of a deleted last row is given
   again. -/
namespace Database

/-- A row of `workspaces`: `fields` holds its plain columns by name. -/
structure WorkspaceRow where
  fields : Dict String Json
  context : Option Json
  contextRevision : ℤ
deriving DecidableEq

/-- A row of `chat_sessions`. -/
structure SessionRow where
  workspaceId : Option String
  parentSessionId : Option String
  branchedFromMessageId : Option ℤ
  messageCount : ℤ
  totalTokens : ℤ
deriving DecidableEq

/-- A row of `chat_messages`. -/
structure MessageRow where
  id : ℤ
  sessionId : String
  role : String
  content : String
  tokensUsed : Option ℤ
  turnIdempotencyKey : Option String
deriving DecidableEq

structure Tables where
  workspaces : Dict String WorkspaceRow
  companions : List String
  sessions : Dict String SessionRow
  messages : List MessageRow

/-- `int(message.tokens_used or 0)`. -/
def MessageRow.tokens (m : MessageRow) : ℤ := m.tokensUsed.getD 0

def normalizeWorkspaceId (workspaceId : Option String) : String :=
  let given := match workspaceId with
    | some id => if id = "" then "default" else id
    | none => "default"
  if PyStr.strip given = "" then "default" else PyStr.strip given

end Database

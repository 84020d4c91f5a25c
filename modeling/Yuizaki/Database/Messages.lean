import Yuizaki.Database.Tables
import Yuizaki.Lib.Transaction
import Mathlib.Algebra.BigOperators.Group.List.Basic
import Mathlib.Data.List.Sort
import Mathlib.Algebra.Ring.Int.Defs

/- The writers of chat messages (`save_message`, `save_message_pair`, `delete_message`,
   `delete_messages_after`, `clear_session_messages` and `branch_chat_session` in
   `database/repository.py`).

   A read runs on its own until the first `INSERT`, `UPDATE` or `DELETE` takes the lock; from
   there to the commit is one write. `save_message` reads the session row after its message
   was flushed, and `delete_messages_after` after its deletes were, where there are any; the
   others have read the row before. An update of a row sets the columns that the session
   object changed from what it loaded, and no others. -/
namespace Database

open Transaction

/-- What the functions raise, and the stored pair of a turn that was saved before. -/
inductive ChatAnswer where
  | notFound (message : String)
  | database (message : String)
  | integrity
  | stale
  | pair (user assistant : MessageRow)
deriving DecidableEq

/-- The calls. A branch draws the id of its session. -/
inductive ChatOp where
  | saveMessage (sessionId role content : String) (tokens : ℤ) (workspaceId : Option String)
  | saveMessagePair (sessionId userContent assistantContent : String) (workspaceId : Option String)
      (turnKey : Option String)
  | deleteMessage (messageId : ℤ) (workspaceId : Option String)
  | deleteMessagesAfter (messageId : ℤ) (workspaceId : Option String)
  | clearSessionMessages (sessionId : String) (workspaceId : Option String)
  | branchChatSession (sourceSessionId : String) (messageId : ℤ) (workspaceId : Option String)
      (branchId : String)

/-- A write with what the call has read. `deleteRead` deletes messages with a session row that
was read before, `deleteLocked` reads the row under the lock. -/
inductive ChatWrite where
  | saveMessage (sessionId role content : String) (tokens : ℤ) (workspaceId : String)
  | savePair (sessionId userContent assistantContent : String) (workspaceId : String)
      (turnKey : Option String) (row : Option SessionRow)
  | deleteRead (sessionId : String) (messages : List MessageRow) (row : Option SessionRow)
  | deleteLocked (sessionId : String) (messages : List MessageRow)
  | clear (sessionId : String) (row : SessionRow)
  | branch (sourceSessionId : String) (messageId : ℤ) (branchId workspaceId : String)
      (messages : List MessageRow)

abbrev ChatCall := Call Tables ChatWrite ChatAnswer

namespace Tables

variable (tables : Tables)

/-- Whether a session belongs to a workspace. -/
def inWorkspace (sessionId workspaceId : String) : Bool :=
  (tables.sessions.get sessionId).any (fun row => row.workspaceId = some workspaceId)

/-- The filter on the session's workspace, where a workspace is given. -/
def visible (sessionId : String) (workspaceId : Option String) : Bool :=
  match workspaceId with
  | none => true
  | some id => tables.inWorkspace sessionId (normalizeWorkspaceId (some id))

def messagesOf (sessionId : String) : List MessageRow :=
  tables.messages.filter (fun m => m.sessionId = sessionId)

def findMessage (messageId : ℤ) (workspaceId : Option String) : Option MessageRow :=
  tables.messages.find? (fun m => m.id = messageId ∧ tables.visible m.sessionId workspaceId = true)

/-- `load_existing_pair`: the stored user and assistant messages of a turn. -/
def loadExistingPair (workspaceId turnKey : String) : Except ChatAnswer (Option (MessageRow × MessageRow)) :=
  let existing := (tables.messages.filter (fun m =>
    m.turnIdempotencyKey = some turnKey ∧ tables.inWorkspace m.sessionId workspaceId = true)).insertionSort
      (fun a b => a.id ≤ b.id)
  let byRole := fun role => (existing.filter (fun m => m.role = role)).getLast?
  match byRole "user", byRole "assistant" with
  | some user, some assistant => .ok (some (user, assistant))
  | _, _ =>
    if existing = [] then .ok none
    else .error (.database "incomplete_turn_message_pair: existing idempotent turn is partial")

def nextMessageId : ℤ := (tables.messages.map MessageRow.id).foldr max 0 + 1

def newMessage (sessionId role content : String) (tokens : Option ℤ) (turnKey : Option String) : MessageRow :=
  { id := tables.nextMessageId
    sessionId
    role
    content
    tokensUsed := tokens
    turnIdempotencyKey := turnKey }

/-- `INSERT` of a message. -/
def insertMessage (sessionId role content : String) (tokens : Option ℤ) (turnKey : Option String) : Tables :=
  { tables with
    messages := tables.messages ++ [tables.newMessage sessionId role content tokens turnKey] }

/-- `DELETE` of messages by their ids. -/
def deleteMessages (messages : List MessageRow) : Tables :=
  { tables with messages := tables.messages.filter (fun m => m.id ∉ messages.map MessageRow.id) }

end Tables

/-- A session's workspace that is not set takes the given one. -/
def SessionRow.adopt (row : SessionRow) (workspaceId : String) : SessionRow :=
  if row.workspaceId = none ∨ row.workspaceId = some "" then { row with workspaceId := some workspaceId }
  else row

/-- A session row without some of its messages: no counter falls below zero. -/
def SessionRow.without (row : SessionRow) (messages : List MessageRow) : SessionRow :=
  { row with
    messageCount := max 0 (row.messageCount - messages.length)
    totalTokens := max 0 (row.totalTokens - (messages.map MessageRow.tokens).sum) }

/-- The row after `UPDATE` sets what a session object changed since it was loaded. -/
def SessionRow.flush (stored loaded changed : SessionRow) : SessionRow :=
  { stored with
    workspaceId :=
      if changed.workspaceId = loaded.workspaceId then stored.workspaceId else changed.workspaceId
    messageCount :=
      if changed.messageCount = loaded.messageCount then stored.messageCount else changed.messageCount
    totalTokens :=
      if changed.totalTokens = loaded.totalTokens then stored.totalTokens else changed.totalTokens }

/-- `UPDATE` of a session row; one that is gone is a stale object. -/
def Tables.flushSession (tables : Tables) (sessionId : String) (loaded changed : SessionRow) :
    Except ChatAnswer Tables :=
  match tables.sessions.get sessionId with
  | none => .error .stale
  | some stored =>
    .ok { tables with sessions := tables.sessions.set sessionId (stored.flush loaded changed) }

/-- `INSERT` of a session row. -/
def Tables.insertSession (tables : Tables) (sessionId : String) (row : SessionRow) :
    Except ChatAnswer Tables :=
  if (tables.sessions.get sessionId).isSome then .error .integrity
  else .ok { tables with sessions := tables.sessions.set sessionId row }

def newSession (workspaceId : String) : SessionRow :=
  { workspaceId := some workspaceId
    parentSessionId := none
    branchedFromMessageId := none
    messageCount := 0
    totalTokens := 0 }

/-! ## Up to the first write -/

/-- The answer to a session of another workspace. -/
def workspaceMismatch (sessionId stored given : String) : String :=
  "session_workspace_mismatch: " ++ sessionId ++ " belongs to " ++ stored ++ ", not " ++ given

/-- Whether a session row may take messages of a workspace. -/
def SessionRow.accepts (row : SessionRow) (workspaceId : String) : Bool :=
  (row.adopt workspaceId).workspaceId = some workspaceId

/-- `save_message` reads the workspace; its session query flushes the message first. -/
def saveMessage (sessionId role content : String) (tokens : ℤ) (workspaceId : Option String) : ChatCall :=
  .read fun tables =>
    let id := normalizeWorkspaceId workspaceId
    if (tables.workspaces.get id).isSome then .write (.saveMessage sessionId role content tokens id)
    else .quit (.database ("failed_to_save_message: workspace_not_found: " ++ id))

/-- `save_message_pair` from its session query on. -/
def savePairSession (sessionId userContent assistantContent workspaceId : String)
    (turnKey : Option String) : ChatCall :=
  .read fun tables =>
    match tables.sessions.get sessionId with
    | none => .write (.savePair sessionId userContent assistantContent workspaceId turnKey none)
    | some row =>
      if row.accepts workspaceId then
        .write (.savePair sessionId userContent assistantContent workspaceId turnKey (some row))
      else .quit (.database ("failed_to_save_message_pair: " ++
        workspaceMismatch sessionId (row.workspaceId.getD "") workspaceId))

/-- An error that `save_message_pair` raises itself is caught, and raised again with a text of its
own. -/
def failedPair : ChatAnswer → ChatAnswer
  | .database message => .database ("failed_to_save_message_pair: " ++ message)
  | e => e

/-- `save_message_pair` reads the workspace, the pair of the turn and the session. -/
def saveMessagePair (sessionId userContent assistantContent : String) (workspaceId : Option String)
    (turnKey : Option String) : ChatCall :=
  .read fun tables =>
    let id := normalizeWorkspaceId workspaceId
    let key := (turnKey.map PyStr.strip).filter (fun key => key ≠ "")
    if (tables.workspaces.get id).isNone then
      .quit (.database ("failed_to_save_message_pair: workspace_not_found: " ++ id))
    else match key with
      | none => savePairSession sessionId userContent assistantContent id none
      | some key =>
        .read fun tables =>
          match tables.loadExistingPair id key with
          | .ok (some (user, assistant)) => .quit (.pair user assistant)
          | .ok none => savePairSession sessionId userContent assistantContent id (some key)
          | .error e => .quit (failedPair e)

def messageNotFound (messageId : ℤ) : ChatAnswer := .notFound ("message_not_found: " ++ toString messageId)

/-- `delete_message` reads the message and its session. -/
def deleteMessage (messageId : ℤ) (workspaceId : Option String) : ChatCall :=
  .read fun tables =>
    match tables.findMessage messageId workspaceId with
    | none => .quit (messageNotFound messageId)
    | some message =>
      .read fun tables =>
        .write (.deleteRead message.sessionId [message] (tables.sessions.get message.sessionId))

/-- `delete_messages_after` reads the message and those behind it; with none of them nothing
is flushed before its session query. -/
def deleteMessagesAfter (messageId : ℤ) (workspaceId : Option String) : ChatCall :=
  .read fun tables =>
    match tables.findMessage messageId workspaceId with
    | none => .quit (messageNotFound messageId)
    | some message =>
      .read fun tables =>
        let trailing := (tables.messagesOf message.sessionId).filter (fun m =>
          messageId < m.id ∧ tables.visible m.sessionId workspaceId = true)
        if trailing = [] then
          .read fun tables =>
            .write (.deleteRead message.sessionId [] (tables.sessions.get message.sessionId))
        else .write (.deleteLocked message.sessionId trailing)

/-- `clear_session_messages` reads the session. -/
def clearSessionMessages (sessionId : String) (workspaceId : Option String) : ChatCall :=
  .read fun tables =>
    match tables.sessions.get sessionId with
    | none => .quit (.notFound ("session_not_found: " ++ sessionId))
    | some row =>
      if tables.visible sessionId workspaceId then .write (.clear sessionId row)
      else .quit (.notFound ("session_not_found: " ++ sessionId))

/-- The workspace a branch is asked for: `workspace_id or source_workspace_id`. -/
def requestedWorkspace (workspaceId : Option String) (sourceWorkspace : String) : String :=
  normalizeWorkspaceId (some (match workspaceId with
    | some id => if id = "" then sourceWorkspace else id
    | none => sourceWorkspace))

/-- `branch_chat_session` from its message query on. -/
def branchMessages (sourceSessionId : String) (messageId : ℤ) (branchId sourceWorkspace : String) :
    ChatCall :=
  .read fun tables =>
    if tables.messages.any (fun m => m.id = messageId ∧ m.sessionId = sourceSessionId) then
      .read fun tables =>
        let messages := ((tables.messagesOf sourceSessionId).filter (fun m =>
          m.id ≤ messageId)).insertionSort (fun a b => a.id ≤ b.id)
        .write (.branch sourceSessionId messageId branchId sourceWorkspace messages)
    else .quit (.notFound ("message_not_found_in_session: " ++ toString messageId))

/-- `branch_chat_session` from the workspace of its session on. -/
def branchFrom (sourceSessionId : String) (messageId : ℤ) (workspaceId : Option String)
    (branchId sourceWorkspace : String) : ChatCall :=
  if requestedWorkspace workspaceId sourceWorkspace ≠ sourceWorkspace then
    .quit (.database "session_workspace_mismatch")
  else branchMessages sourceSessionId messageId branchId sourceWorkspace

/-- `branch_chat_session` reads the session, the message it branches from and the messages up
to it. -/
def branchChatSession (sourceSessionId : String) (messageId : ℤ) (workspaceId : Option String)
    (branchId : String) : ChatCall :=
  .read fun tables =>
    match tables.sessions.get sourceSessionId with
    | none => .quit (.notFound ("session_not_found: " ++ sourceSessionId))
    | some source =>
      branchFrom sourceSessionId messageId workspaceId branchId (normalizeWorkspaceId source.workspaceId)

def chatBody : ChatOp → ChatCall
  | .saveMessage sessionId role content tokens workspaceId =>
    saveMessage sessionId role content tokens workspaceId
  | .saveMessagePair sessionId user assistant workspaceId turnKey =>
    saveMessagePair sessionId user assistant workspaceId turnKey
  | .deleteMessage messageId workspaceId => deleteMessage messageId workspaceId
  | .deleteMessagesAfter messageId workspaceId => deleteMessagesAfter messageId workspaceId
  | .clearSessionMessages sessionId workspaceId => clearSessionMessages sessionId workspaceId
  | .branchChatSession sourceSessionId messageId workspaceId branchId =>
    branchChatSession sourceSessionId messageId workspaceId branchId

/-! ## Under the lock -/

/-- `save_message` under the lock: the message, and the session row as it is now. -/
def commitMessage (sessionId role content : String) (tokens : ℤ) (workspaceId : String)
    (tables : Tables) : Except ChatAnswer Tables :=
  let inserted := tables.insertMessage sessionId role content (some tokens) none
  let grown := fun row : SessionRow => { row with
    messageCount := row.messageCount + 1
    totalTokens := row.totalTokens + tokens }
  match tables.sessions.get sessionId with
  | none => inserted.insertSession sessionId (grown (newSession workspaceId))
  | some row =>
    if row.accepts workspaceId then inserted.flushSession sessionId row (grown (row.adopt workspaceId))
    else .error (.database ("failed_to_save_message: " ++
      workspaceMismatch sessionId (row.workspaceId.getD "") workspaceId))

/-- What `save_message_pair` answers when a unique index refuses it: the pair of the turn, if
another call has stored it. -/
def pairConflict (workspaceId : String) (turnKey : Option String) (tables : Tables) : ChatAnswer :=
  match turnKey with
  | none => .integrity
  | some key =>
    match tables.loadExistingPair workspaceId key with
    | .ok (some (user, assistant)) => .pair user assistant
    | .ok none => .integrity
    | .error e => e

/-- `save_message_pair` under the lock: the session row as it was read, and the messages. -/
def commitPair (sessionId userContent assistantContent workspaceId : String) (turnKey : Option String)
    (row : Option SessionRow) (tables : Tables) : Except ChatAnswer Tables :=
  let grown := fun row : SessionRow => { row with messageCount := row.messageCount + 2 }
  let session := match row with
    | none => tables.insertSession sessionId (grown (newSession workspaceId))
    | some row => tables.flushSession sessionId row (grown (row.adopt workspaceId))
  match session with
  | .error .integrity => .error (pairConflict workspaceId turnKey tables)
  | .error e => .error e
  | .ok stored =>
    -- `uq_chat_message_turn_role`
    if turnKey.isSome ∧ tables.messages.any (fun m =>
        m.sessionId = sessionId ∧ m.turnIdempotencyKey = turnKey ∧ m.role ∈ ["user", "assistant"]) then
      .error (pairConflict workspaceId turnKey tables)
    else
      .ok ((stored.insertMessage sessionId "user" userContent (some 0) turnKey).insertMessage sessionId
        "assistant" assistantContent (some 0) turnKey)

/-- A session row that was read before the messages were deleted. -/
def commitDeleteRead (sessionId : String) (messages : List MessageRow) (row : Option SessionRow)
    (tables : Tables) : Except ChatAnswer Tables :=
  match row with
  | none => .ok (tables.deleteMessages messages)
  | some row => (tables.deleteMessages messages).flushSession sessionId row (row.without messages)

/-- A session row that is read after the messages were deleted. -/
def commitDeleteLocked (sessionId : String) (messages : List MessageRow) (tables : Tables) :
    Except ChatAnswer Tables :=
  commitDeleteRead sessionId messages (tables.sessions.get sessionId) tables

/-- `clear_session_messages` under the lock. -/
def commitClear (sessionId : String) (row : SessionRow) (tables : Tables) : Except ChatAnswer Tables :=
  let cleared := { tables with messages := tables.messages.filter (fun m => m.sessionId ≠ sessionId) }
  cleared.flushSession sessionId row { row with messageCount := 0, totalTokens := 0 }

/-- `branch_chat_session` under the lock: a session with copies of what was read. -/
def commitBranch (sourceSessionId : String) (messageId : ℤ) (branchId workspaceId : String)
    (messages : List MessageRow) (tables : Tables) : Except ChatAnswer Tables := do
  let row : SessionRow :=
    { workspaceId := some workspaceId
      parentSessionId := some sourceSessionId
      branchedFromMessageId := some messageId
      messageCount := messages.length
      totalTokens := (messages.map MessageRow.tokens).sum }
  let branched ← tables.insertSession branchId row
  return messages.foldl (fun tables m =>
    tables.insertMessage branchId m.role m.content m.tokensUsed none) branched

/-- The write of a call, from its first statement to its commit. -/
def chatCommit : ChatWrite → Tables → Except ChatAnswer Tables
  | .saveMessage sessionId role content tokens workspaceId =>
    commitMessage sessionId role content tokens workspaceId
  | .savePair sessionId user assistant workspaceId turnKey row =>
    commitPair sessionId user assistant workspaceId turnKey row
  | .deleteRead sessionId messages row => commitDeleteRead sessionId messages row
  | .deleteLocked sessionId messages => commitDeleteLocked sessionId messages
  | .clear sessionId row => commitClear sessionId row
  | .branch sourceSessionId messageId branchId workspaceId messages =>
    commitBranch sourceSessionId messageId branchId workspaceId messages

end Database

import Yuizaki.Database.Messages

/- The messages of a turn (`save_message_pair`).

   A turn is saved once: its messages are looked for under the key of the turn before they are
   written, and again where the unique index refuses them. The index is one of the session,
   the lookup one of the workspace: a key that another session of the workspace has used
   brings up that session's messages. The call is followed through the stores that its
   statements find, one after another and changed by others in between, in any way. -/
namespace Database

open Transaction

/-- What becomes of a call whose statements find these stores, and the last of them. -/
def outcome : ChatCall → (ℕ → Tables) → Tables → Except ChatAnswer Tables × Tables
  | .quit answer, _, last => (.error answer, last)
  | .read k, stores, _ => outcome (k (stores 0)) (fun n => stores (n + 1)) (stores 0)
  | .write w, stores, _ => (chatCommit w (stores 0), stores 0)

/-- The messages under the key of a turn in a workspace, oldest first. -/
def Tables.turnMessages (tables : Tables) (workspaceId turnKey : String) : List MessageRow :=
  (tables.messages.filter (fun m =>
    m.turnIdempotencyKey = some turnKey ∧ tables.inWorkspace m.sessionId workspaceId = true)).insertionSort
      (fun a b => a.id ≤ b.id)

def Tables.newestOfTurn (tables : Tables) (workspaceId turnKey role : String) : Option MessageRow :=
  ((tables.turnMessages workspaceId turnKey).filter (fun m => m.role = role)).getLast?

def turnKeyOf (turnKey : Option String) : Option String :=
  (turnKey.map PyStr.strip).filter (fun key => key ≠ "")

/-- The text of an error about a turn with one message only. -/
def partialTurn : String := "incomplete_turn_message_pair: existing idempotent turn is partial"

/-- A message of the turn, the workspace and the session. -/
structure Belongs (tables : Tables) (workspaceId turnKey sessionId : String) (m : MessageRow) : Prop where
  key : m.turnIdempotencyKey = some turnKey
  workspace : tables.inWorkspace m.sessionId workspaceId = true
  session : m.sessionId = sessionId

structure Wrote (sessionId userContent assistantContent : String) (turnKey : Option String)
    (before after : Tables) (user assistant : MessageRow) : Prop where
  messages : after.messages = before.messages ++ [user, assistant]
  sessions : user.sessionId = sessionId ∧ assistant.sessionId = sessionId
  roles : user.role = "user" ∧ assistant.role = "assistant"
  contents : user.content = userContent ∧ assistant.content = assistantContent
  keys : user.turnIdempotencyKey = turnKey ∧ assistant.turnIdempotencyKey = turnKey

/-- The pair that comes of a call is one of the session, and no call is refused for the messages
of another session. -/
structure OfSession (sessionId userContent assistantContent workspaceId : String) (turnKey : Option String)
    (result : Except ChatAnswer Tables × Tables) : Prop where
  created : ∀ after, result.1 = .ok after → ∃ user assistant,
    Wrote sessionId userContent assistantContent turnKey result.2 after user assistant
  reused : ∀ user assistant, result.1 = .error (.pair user assistant) → ∃ key, turnKey = some key ∧
    (Belongs result.2 workspaceId key sessionId user ∧ user.role = "user") ∧
      Belongs result.2 workspaceId key sessionId assistant ∧ assistant.role = "assistant"
  suppressed : ∀ e, result.1 = .error e → e = .database partialTurn ∨ e = failedPair (.database partialTurn) →
    ∃ key m, turnKey = some key ∧ m ∈ result.2.messages ∧ Belongs result.2 workspaceId key sessionId m

/-- The newest messages of the turn in both roles are the session's; or there are not both, and
there is none, or one of the session. -/
def Tables.OwnTurn (tables : Tables) (workspaceId turnKey sessionId : String) : Prop :=
  match tables.newestOfTurn workspaceId turnKey "user", tables.newestOfTurn workspaceId turnKey "assistant" with
  | some user, some assistant => user.sessionId = sessionId ∧ assistant.sessionId = sessionId
  | _, _ => tables.turnMessages workspaceId turnKey = [] ∨
      ∃ m ∈ tables.turnMessages workspaceId turnKey, m.sessionId = sessionId

section Lookup

variable {tables : Tables} {workspaceId turnKey sessionId role : String} {m : MessageRow}

/-! ## The lookup -/

theorem loadExistingPair_eq (tables : Tables) (workspaceId turnKey : String) :
    tables.loadExistingPair workspaceId turnKey =
      match tables.newestOfTurn workspaceId turnKey "user", tables.newestOfTurn workspaceId turnKey "assistant" with
      | some user, some assistant => .ok (some (user, assistant))
      | _, _ =>
        if tables.turnMessages workspaceId turnKey = [] then .ok none else .error (.database partialTurn) := rfl

theorem mem_turnMessages : m ∈ tables.turnMessages workspaceId turnKey ↔
    m ∈ tables.messages ∧ m.turnIdempotencyKey = some turnKey ∧
      tables.inWorkspace m.sessionId workspaceId = true := by
  unfold Tables.turnMessages
  rw [(List.perm_insertionSort _ _).mem_iff, List.mem_filter, decide_eq_true_eq]

theorem newestOfTurn_mem (h : tables.newestOfTurn workspaceId turnKey role = some m) :
    m ∈ tables.turnMessages workspaceId turnKey ∧ m.role = role := by
  obtain ⟨hmem, hrole⟩ := List.mem_filter.mp (List.mem_of_getLast? h)
  exact ⟨hmem, of_decide_eq_true hrole⟩

theorem loadExistingPair_cases (tables : Tables) (workspaceId turnKey : String) :
    (∃ user assistant, tables.loadExistingPair workspaceId turnKey = .ok (some (user, assistant)) ∧
        tables.newestOfTurn workspaceId turnKey "user" = some user ∧
        tables.newestOfTurn workspaceId turnKey "assistant" = some assistant) ∨
      tables.loadExistingPair workspaceId turnKey = .ok none ∧ tables.turnMessages workspaceId turnKey = [] ∨
      tables.loadExistingPair workspaceId turnKey = .error (.database partialTurn) := by
  rw [loadExistingPair_eq]
  split
  · rename_i user assistant huser hassistant
    exact Or.inl ⟨user, assistant, rfl, huser, hassistant⟩
  · by_cases hnone : tables.turnMessages workspaceId turnKey = []
    · exact Or.inr (Or.inl ⟨if_pos hnone, hnone⟩)
    · exact Or.inr (Or.inr (if_neg hnone))

theorem lookup_own : tables.OwnTurn workspaceId turnKey sessionId ↔
    match tables.loadExistingPair workspaceId turnKey with
    | .ok (some (user, assistant)) => user.sessionId = sessionId ∧ assistant.sessionId = sessionId
    | .ok none => True
    | .error _ => ∃ m ∈ tables.turnMessages workspaceId turnKey, m.sessionId = sessionId := by
  rw [loadExistingPair_eq]
  unfold Tables.OwnTurn
  split
  · exact Iff.rfl
  · by_cases hnone : tables.turnMessages workspaceId turnKey = []
    · rw [if_pos hnone]
      exact ⟨fun _ => trivial, fun _ => Or.inl hnone⟩
    · rw [if_neg hnone]
      exact ⟨fun h => h.resolve_left hnone, fun h => Or.inr h⟩

end Lookup

section Answers

variable {tables : Tables} {sessionId userContent assistantContent workspaceId key : String} {turnKey : Option String}

/-! ## Answers -/

theorem ofSession_pair {user assistant : MessageRow} (huser : tables.newestOfTurn workspaceId key "user" = some user)
    (hassistant : tables.newestOfTurn workspaceId key "assistant" = some assistant) :
    OfSession sessionId userContent assistantContent workspaceId (some key) (.error (.pair user assistant), tables) ↔
      user.sessionId = sessionId ∧ assistant.sessionId = sessionId := by
  obtain ⟨huser, huserRole⟩ := newestOfTurn_mem huser
  obtain ⟨hassistant, hassistantRole⟩ := newestOfTurn_mem hassistant
  obtain ⟨-, huserKey, huserWorkspace⟩ := mem_turnMessages.mp huser
  obtain ⟨-, hassistantKey, hassistantWorkspace⟩ := mem_turnMessages.mp hassistant
  constructor
  · intro h
    obtain ⟨key', hkey, ⟨hu, -⟩, ha, -⟩ := h.reused user assistant rfl
    exact ⟨hu.session, ha.session⟩
  · intro ⟨hu, ha⟩
    refine ⟨fun after hafter => (nomatch hafter), fun user' assistant' hpair => ?_, fun e he hincomplete => ?_⟩
    · obtain ⟨rfl, rfl⟩ := ChatAnswer.pair.inj (Except.error.inj hpair)
      exact ⟨key, rfl, ⟨⟨huserKey, huserWorkspace, hu⟩, huserRole⟩,
        ⟨hassistantKey, hassistantWorkspace, ha⟩, hassistantRole⟩
    · obtain rfl := Except.error.inj he
      obtain hincomplete | hincomplete := hincomplete
      · cases hincomplete
      · cases hincomplete

theorem ofSession_incomplete {e : ChatAnswer}
    (he : e = .database partialTurn ∨ e = failedPair (.database partialTurn)) :
    OfSession sessionId userContent assistantContent workspaceId (some key) (.error e, tables) ↔
      ∃ m ∈ tables.turnMessages workspaceId key, m.sessionId = sessionId := by
  constructor
  · intro h
    obtain ⟨key', m, hkey, hmem, hm⟩ := h.suppressed e rfl he
    obtain rfl := Option.some.inj hkey
    exact ⟨m, mem_turnMessages.mpr ⟨hmem, hm.key, hm.workspace⟩, hm.session⟩
  · intro ⟨m, hmem, hsession⟩
    obtain ⟨hstored, hkey, hworkspace⟩ := mem_turnMessages.mp hmem
    refine ⟨fun after hafter => (nomatch hafter), fun user assistant hpair => ?_, fun _ _ _ =>
      ⟨key, m, rfl, hstored, hkey, hworkspace, hsession⟩⟩
    obtain rfl := Except.error.inj hpair
    obtain he | he := he
    · cases he
    · cases he

theorem ofSession_error {e : ChatAnswer} (hpair : ∀ user assistant, e ≠ .pair user assistant)
    (hincomplete : e ≠ .database partialTurn ∧ e ≠ failedPair (.database partialTurn)) :
    OfSession sessionId userContent assistantContent workspaceId turnKey (.error e, tables) := by
  refine ⟨fun after hafter => (nomatch hafter), fun user assistant h => ?_, fun e' h hsame => ?_⟩
  · exact absurd (Except.error.inj h) (hpair user assistant)
  · obtain rfl := Except.error.inj h
    exact absurd hsame (not_or.mpr hincomplete)

theorem ofSession_conflict : OfSession sessionId userContent assistantContent workspaceId (some key)
      (.error (pairConflict workspaceId (some key) tables), tables) ↔ tables.OwnTurn workspaceId key sessionId := by
  rw [lookup_own]
  show OfSession _ _ _ _ _ (.error (match tables.loadExistingPair workspaceId key with
    | .ok (some (user, assistant)) => .pair user assistant
    | .ok none => .integrity
    | .error e => e), tables) ↔ _
  obtain ⟨user, assistant, hload, huser, hassistant⟩ | ⟨hload, -⟩ | hload :=
    loadExistingPair_cases tables workspaceId key
  · rw [hload]
    exact ofSession_pair huser hassistant
  · rw [hload]
    refine ⟨fun _ => trivial, fun _ => ofSession_error (fun _ _ h => (nomatch h)) ⟨?_, ?_⟩⟩
    · exact fun h => (nomatch h)
    · exact fun h => (nomatch h)
  · rw [hload]
    exact ofSession_incomplete (Or.inl rfl)

/-! ## The write -/

/-- The session has messages under the key. -/
def TurnTaken (sessionId : String) (turnKey : Option String) (tables : Tables) : Prop :=
  turnKey.isSome = true ∧ tables.messages.any (fun m =>
    m.sessionId = sessionId ∧ m.turnIdempotencyKey = turnKey ∧ m.role ∈ ["user", "assistant"]) = true

instance (sessionId : String) (turnKey : Option String) (tables : Tables) :
    Decidable (TurnTaken sessionId turnKey tables) :=
  inferInstanceAs (Decidable (_ ∧ _))

/-- The messages are refused: the session was made by another call, or it has messages under the
key. -/
def PairRefused (sessionId : String) (turnKey : Option String) (row : Option SessionRow) (tables : Tables) : Prop :=
  match row with
  | none => (tables.sessions.get sessionId).isSome = true ∨ TurnTaken sessionId turnKey tables
  | some _ => (tables.sessions.get sessionId).isSome = true ∧ TurnTaken sessionId turnKey tables

/-- The session row of a write, made or changed. -/
def pairSession (sessionId workspaceId : String) (row : Option SessionRow) (tables : Tables) :
    Except ChatAnswer Tables :=
  let grown := fun row : SessionRow => { row with messageCount := row.messageCount + 2 }
  match row with
  | none => tables.insertSession sessionId (grown (newSession workspaceId))
  | some row => tables.flushSession sessionId row (grown (row.adopt workspaceId))

theorem commitPair_eq (row : Option SessionRow) (tables : Tables) :
    commitPair sessionId userContent assistantContent workspaceId turnKey row tables =
      match pairSession sessionId workspaceId row tables with
      | .error .integrity => .error (pairConflict workspaceId turnKey tables)
      | .error e => .error e
      | .ok stored =>
        if TurnTaken sessionId turnKey tables then .error (pairConflict workspaceId turnKey tables)
        else .ok ((stored.insertMessage sessionId "user" userContent (some 0) turnKey).insertMessage sessionId
          "assistant" assistantContent (some 0) turnKey) := rfl

theorem pairSession_cases (row : Option SessionRow) (tables : Tables) :
    row = none ∧ (tables.sessions.get sessionId).isSome = true ∧
        pairSession sessionId workspaceId row tables = .error .integrity ∨
      row.isSome = true ∧ tables.sessions.get sessionId = none ∧
        pairSession sessionId workspaceId row tables = .error .stale ∨
      (row.isSome = (tables.sessions.get sessionId).isSome) ∧ ∃ stored : Tables,
        pairSession sessionId workspaceId row tables = .ok stored ∧ stored.messages = tables.messages := by
  unfold pairSession Tables.insertSession Tables.flushSession
  cases row with
  | none =>
    cases hget : tables.sessions.get sessionId with
    | none => exact Or.inr (Or.inr ⟨rfl, _, rfl, rfl⟩)
    | some stored => exact Or.inl ⟨rfl, rfl, rfl⟩
  | some loaded =>
    cases hget : tables.sessions.get sessionId with
    | none => exact Or.inr (Or.inl ⟨rfl, rfl, rfl⟩)
    | some stored => exact Or.inr (Or.inr ⟨rfl, _, rfl, rfl⟩)

theorem commitPair_cases (row : Option SessionRow) (tables : Tables) :
    PairRefused sessionId turnKey row tables ∧
        commitPair sessionId userContent assistantContent workspaceId turnKey row tables =
          .error (pairConflict workspaceId turnKey tables) ∨
      ¬ PairRefused sessionId turnKey row tables ∧
        (commitPair sessionId userContent assistantContent workspaceId turnKey row tables = .error .stale ∨
          ∃ after, commitPair sessionId userContent assistantContent workspaceId turnKey row tables = .ok after ∧
            ∃ user assistant, Wrote sessionId userContent assistantContent turnKey tables after user assistant) := by
  rw [commitPair_eq]
  obtain ⟨rfl, hthere, hsession⟩ | ⟨hrow, hget, hsession⟩ | ⟨hrow, stored, hsession, hstored⟩ :=
    @pairSession_cases sessionId workspaceId row tables
  · rw [hsession]
    exact Or.inl ⟨Or.inl hthere, rfl⟩
  · rw [hsession]
    obtain ⟨loaded, rfl⟩ := Option.isSome_iff_exists.mp hrow
    refine Or.inr ⟨fun hrefused => ?_, Or.inl rfl⟩
    have hthere := hrefused.1
    rw [hget] at hthere
    cases hthere
  · rw [hsession]
    have hrefused : PairRefused sessionId turnKey row tables ↔ TurnTaken sessionId turnKey tables := by
      cases row with
      | none =>
        have hget : ¬ (tables.sessions.get sessionId).isSome = true := fun hthere => by
          rw [← hrow] at hthere
          cases hthere
        exact or_iff_right hget
      | some loaded => exact and_iff_right hrow.symm
    rw [hrefused]
    by_cases htaken : TurnTaken sessionId turnKey tables
    · exact Or.inl ⟨htaken, if_pos htaken⟩
    · refine Or.inr ⟨htaken, Or.inr ⟨_, if_neg htaken,
        stored.newMessage sessionId "user" userContent (some 0) turnKey,
        (stored.insertMessage sessionId "user" userContent (some 0) turnKey).newMessage sessionId "assistant"
          assistantContent (some 0) turnKey, ?_⟩⟩
      refine ⟨?_, ⟨rfl, rfl⟩, ⟨rfl, rfl⟩, ⟨rfl, rfl⟩, ⟨rfl, rfl⟩⟩
      show (stored.messages ++ [_]) ++ [_] = _
      rw [hstored, List.append_assoc]
      rfl

/-! ## The call -/

theorem append_ne {a b rest : String} (ha : a.toList.head? ≠ none) (h : a.toList.head? ≠ b.toList.head?) :
    a ++ rest ≠ b := by
  intro heq
  obtain ⟨c, hc⟩ := Option.ne_none_iff_exists'.mp ha
  apply h
  rw [← heq, String.toList_append, List.head?_append, hc]
  rfl

theorem other_reason {reason rest : String} (hreason : reason.toList.head? ≠ none)
    (h : reason.toList.head? ≠ partialTurn.toList.head?) :
    ChatAnswer.database ("failed_to_save_message_pair: " ++ (reason ++ rest)) ≠ .database partialTurn ∧
      ChatAnswer.database ("failed_to_save_message_pair: " ++ (reason ++ rest)) ≠
        failedPair (.database partialTurn) := by
  constructor
  · intro heq
    exact append_ne (by decide +kernel) (by decide +kernel) (ChatAnswer.database.inj heq)
  · intro heq
    exact append_ne hreason h ((String.append_right_inj _).mp (ChatAnswer.database.inj heq))

/-- What the write of a call needs: a refused one is a repeat of the session. -/
def WriteMeets (sessionId workspaceId : String) (turnKey : Option String) (row : Option SessionRow)
    (tables : Tables) : Prop :=
  ∀ key, turnKey = some key → PairRefused sessionId turnKey row tables →
    tables.OwnTurn workspaceId key sessionId

theorem commitPair_own (row : Option SessionRow) (tables : Tables) :
    OfSession sessionId userContent assistantContent workspaceId turnKey
        (commitPair sessionId userContent assistantContent workspaceId turnKey row tables, tables) ↔
      WriteMeets sessionId workspaceId turnKey row tables := by
  have hanswer : ∀ e, (e = .integrity ∨ e = .stale) →
      OfSession sessionId userContent assistantContent workspaceId turnKey (.error e, tables) := by
    intro e he
    refine ofSession_error (fun user assistant => ?_) ⟨?_, ?_⟩ <;>
      · obtain rfl | rfl := he
        · exact fun h => (nomatch h)
        · exact fun h => (nomatch h)
  obtain ⟨hrefused, hcommit⟩ | ⟨hfree, hcommit⟩ := @commitPair_cases sessionId userContent
    assistantContent workspaceId turnKey row tables
  · rw [hcommit]
    cases turnKey with
    | none => exact ⟨fun _ key hkey => (nomatch hkey), fun _ => hanswer .integrity (Or.inl rfl)⟩
    | some key =>
      rw [ofSession_conflict]
      constructor
      · intro hown key' hkey _
        rw [← Option.some.inj hkey]
        exact hown
      · exact fun hmeets => hmeets key rfl hrefused
  · refine ⟨fun _ key _ hrefused => absurd hrefused hfree, fun _ => ?_⟩
    obtain hcommit | ⟨after, hcommit, user, assistant, hwrote⟩ := hcommit
    · rw [hcommit]
      exact hanswer .stale (Or.inr rfl)
    · rw [hcommit]
      refine ⟨fun after' hafter => ?_, fun user assistant h => (nomatch h), fun e h => (nomatch h)⟩
      rw [← Except.ok.inj hafter]
      exact ⟨user, assistant, hwrote⟩

theorem outcome_savePairSession (stores : ℕ → Tables) (last : Tables) :
    outcome (savePairSession sessionId userContent assistantContent workspaceId turnKey) stores last =
      match (stores 0).sessions.get sessionId with
      | none => (commitPair sessionId userContent assistantContent workspaceId turnKey none (stores 1), stores 1)
      | some row =>
        if row.accepts workspaceId then
          (commitPair sessionId userContent assistantContent workspaceId turnKey (some row) (stores 1), stores 1)
        else (.error (.database ("failed_to_save_message_pair: " ++
          workspaceMismatch sessionId (row.workspaceId.getD "") workspaceId)), stores 0) := by
  unfold savePairSession
  show outcome (match (stores 0).sessions.get sessionId with | none => _ | some row => _) _ _ = _
  cases (stores 0).sessions.get sessionId with
  | none => rfl
  | some row =>
    by_cases haccepts : row.accepts workspaceId = true
    · simp only [haccepts, ↓reduceIte]
      rfl
    · simp only [haccepts, Bool.false_eq_true, ↓reduceIte]
      rfl

theorem savePairSession_own (stores : ℕ → Tables) (last : Tables) :
    OfSession sessionId userContent assistantContent workspaceId turnKey
        (outcome (savePairSession sessionId userContent assistantContent workspaceId turnKey) stores last) ↔
      ((∀ row, (stores 0).sessions.get sessionId = some row → row.accepts workspaceId = true) →
        WriteMeets sessionId workspaceId turnKey ((stores 0).sessions.get sessionId) (stores 1)) := by
  rw [outcome_savePairSession]
  cases hget : (stores 0).sessions.get sessionId with
  | none =>
    exact (commitPair_own none (stores 1)).trans ⟨fun h _ => h, fun h => h fun row hrow => by cases hrow⟩
  | some row =>
    by_cases haccepts : row.accepts workspaceId = true
    · simp only [haccepts, ↓reduceIte]
      refine (commitPair_own (some row) (stores 1)).trans ⟨fun h _ => h, fun h => h fun row' hrow => ?_⟩
      rw [← Option.some.inj hrow]
      exact haccepts
    · simp only [haccepts, Bool.false_eq_true, ↓reduceIte]
      refine ⟨fun _ hall => absurd (hall row rfl) haccepts, fun _ => ?_⟩
      refine ofSession_error (fun user assistant h => by cases h) ?_
      unfold workspaceMismatch
      simp only [String.append_assoc]
      exact other_reason (by decide +kernel) (by decide +kernel)

/-- What a call needs of the stores it finds: where it reads the pair of its turn, and where its
write is refused, the turn is the session's own. -/
def PairMeets (sessionId workspaceId : String) (turnKey : Option String) (stores : ℕ → Tables) : Prop :=
  match turnKey with
  | none => True
  | some key =>
    ((stores 0).workspaces.get workspaceId).isSome = true →
      (stores 1).OwnTurn workspaceId key sessionId ∧
        ((stores 1).turnMessages workspaceId key = [] →
          (∀ row, (stores 2).sessions.get sessionId = some row → row.accepts workspaceId = true) →
            PairRefused sessionId (some key) ((stores 2).sessions.get sessionId) (stores 3) →
              (stores 3).OwnTurn workspaceId key sessionId)

end Answers

def turnMessage (id : ℤ) (role content : String) : MessageRow where
  id := id
  sessionId := "morning"
  role := role
  content := content
  tokensUsed := some 0
  turnIdempotencyKey := some "turn-1"

/-- A workspace with one turn of one session. -/
def oneTurn : Tables where
  workspaces := Dict.empty.set "default" { fields := Dict.empty, context := none, contextRevision := 0 }
  companions := []
  sessions := Dict.empty.set "morning" { newSession "default" with messageCount := 2 }
  messages := [turnMessage 1 "user" "hello", turnMessage 2 "assistant" "good morning"]

end Database

import Yuizaki.Database.Messages
import Yuizaki.Lib.Fallible
import Mathlib.Data.List.Perm.Basic
import Mathlib.Data.List.Perm.Lattice

/- The counters of a chat session.

   A session row repeats what its message rows say: how many there are and how many tokens
   they have. A writer that reads the row under the lock keeps the counters by itself. One
   that has read before the lock keeps them where what it read is still so: the counters it
   changes, and the messages it deletes (`FindsRead`). `session_counters` is about any
   interleaving of such writes; `pair_loses_count` is one with a write that is not. -/
namespace Database

open Transition Transaction

/-- The counters of a row are those of its messages. -/
def SessionRow.Counts (row : SessionRow) (messages : List MessageRow) : Prop :=
  row.messageCount = messages.length ∧ row.totalTokens = (messages.map MessageRow.tokens).sum

/-- The counters of every session are right. -/
def Tables.Counted (tables : Tables) : Prop :=
  ∀ id row, tables.sessions.get id = some row → row.Counts (tables.messagesOf id)

/-- Tables with right counters, in which every message has a session and an id of its own. -/
structure Tables.Sound (tables : Tables) : Prop where
  counted : tables.Counted
  owned : ∀ m ∈ tables.messages, (tables.sessions.get m.sessionId).isSome
  distinct : (tables.messages.map MessageRow.id).Nodup

/-- What a write has read before the lock is still so: a pair finds the message count it read;
deletes find their messages, and a row with the counters they change, none of which would
fall below zero; a clear finds a counter at zero that it read as zero. -/
def FindsRead (tables : Tables) : ChatWrite → Prop
  | .saveMessage _ _ _ _ _ => True
  | .savePair sessionId _ _ _ _ row => ∀ stored ∈ tables.sessions.get sessionId, ∀ loaded ∈ row,
      stored.messageCount = loaded.messageCount
  | .deleteRead sessionId messages row => (∀ m ∈ messages, m ∈ tables.messages) ∧
      ∀ stored ∈ tables.sessions.get sessionId, ∃ loaded ∈ row,
        (messages ≠ [] → stored.messageCount = loaded.messageCount) ∧
        ((messages.map MessageRow.tokens).sum ≠ 0 → stored.totalTokens = loaded.totalTokens) ∧
        (messages.map MessageRow.tokens).sum ≤ loaded.totalTokens
  | .deleteLocked sessionId messages => (∀ m ∈ messages, m ∈ tables.messages) ∧
      ∀ stored ∈ tables.sessions.get sessionId,
        (messages.map MessageRow.tokens).sum ≤ stored.totalTokens
  | .clear sessionId row => ∀ stored ∈ tables.sessions.get sessionId,
      (row.messageCount = 0 → stored.messageCount = 0) ∧ (row.totalTokens = 0 → stored.totalTokens = 0)
  | .branch _ _ _ _ _ => True

instance (tables : Tables) (w : ChatWrite) : Decidable (FindsRead tables w) := by
  cases w <;> unfold FindsRead <;> infer_instance

/-- What reading guarantees of a write: the messages it deletes are of the session and have
distinct ids, and a count that was read is not negative. -/
def WellRead : ChatWrite → Prop
  | .deleteRead sessionId messages row => (∀ m ∈ messages, m.sessionId = sessionId) ∧
      (messages.map MessageRow.id).Nodup ∧ ∀ loaded, row = some loaded → 0 ≤ loaded.messageCount
  | .deleteLocked sessionId messages => (∀ m ∈ messages, m.sessionId = sessionId) ∧
      (messages.map MessageRow.id).Nodup
  | _ => True

/-! ## Rows -/

section Rows

variable {tables tables' : Tables} {id : String} {row loaded changed : SessionRow}
  {messages : List MessageRow} {m : MessageRow}

theorem mem_messagesOf : m ∈ tables.messagesOf id ↔ m ∈ tables.messages ∧ m.sessionId = id := by
  rw [Tables.messagesOf, List.mem_filter, decide_eq_true_eq]

theorem flush_pick {stored given new target : ℤ} (hkeep : new = given → stored = target)
    (hput : new ≠ given → new = target) : (if new = given then stored else new) = target := by
  split
  · exact hkeep ‹_›
  · exact hput ‹_›

theorem Tables.Sound.set (h : tables.Sound)
    (hsessions : tables'.sessions = tables.sessions.set id row)
    (hrow : row.Counts (tables'.messagesOf id))
    (hothers : ∀ other, other ≠ id → tables'.messagesOf other = tables.messagesOf other)
    (howned : ∀ m ∈ tables'.messages, m ∈ tables.messages ∨ m.sessionId = id)
    (hdistinct : (tables'.messages.map MessageRow.id).Nodup) : tables'.Sound where
  counted other found hfound := by
    rw [hsessions, Dict.get_set] at hfound
    split at hfound
    · rename_i heq
      obtain rfl := Option.some.inj hfound
      rw [heq]
      exact hrow
    · rename_i hne
      rw [hothers other hne]
      exact h.counted other found hfound
  owned m hm := by
    rw [hsessions, Dict.get_set]
    split
    · rfl
    · rename_i hne
      obtain hold | hid := howned m hm
      · exact h.owned m hold
      · exact absurd hid hne
  distinct := hdistinct

theorem Tables.Sound.messagesOf_nil (h : tables.Sound) (hnone : tables.sessions.get id = none) :
    tables.messagesOf id = [] := by
  rw [List.eq_nil_iff_forall_not_mem]
  intro m hm
  obtain ⟨hmem, hid⟩ := mem_messagesOf.mp hm
  have hsome := h.owned m hmem
  rw [hid, hnone] at hsome
  cases hsome

theorem flushSession_ok (h : tables.flushSession id loaded changed = .ok tables') :
    ∃ stored, tables.sessions.get id = some stored ∧
      tables'.sessions = tables.sessions.set id (stored.flush loaded changed) ∧
      tables'.messages = tables.messages := by
  unfold Tables.flushSession at h
  split at h
  · cases h
  · rename_i stored hstored
    obtain rfl := Except.ok.inj h
    exact ⟨stored, hstored, rfl, rfl⟩

theorem insertSession_ok (h : tables.insertSession id row = .ok tables') :
    tables.sessions.get id = none ∧ tables'.sessions = tables.sessions.set id row ∧
      tables'.messages = tables.messages := by
  unfold Tables.insertSession at h
  split at h
  · cases h
  · rename_i hfree
    obtain rfl := Except.ok.inj h
    exact ⟨Option.not_isSome_iff_eq_none.mp hfree, rfl, rfl⟩

end Rows

/-! ## Messages that come -/

/-- Messages of a session were inserted, with these tokens. -/
structure Tables.Grown (id : String) (tables tables' : Tables) (tokens : List ℤ) : Prop where
  sessions : tables'.sessions = tables.sessions
  added : ∃ new, tables'.messages = tables.messages ++ new ∧ (∀ m ∈ new, m.sessionId = id) ∧
    new.map MessageRow.tokens = tokens
  distinct : (tables.messages.map MessageRow.id).Nodup → (tables'.messages.map MessageRow.id).Nodup

section Grown

variable {tables tables' tables'' : Tables} {id : String} {tokens : List ℤ} {row : SessionRow}

theorem Tables.Grown.refl : Tables.Grown id tables tables [] where
  sessions := rfl
  added := ⟨[], (List.append_nil _).symm, (fun _ hm => by cases hm), rfl⟩
  distinct h := h

theorem lt_nextMessageId {m : MessageRow} (h : m ∈ tables.messages) : m.id < tables.nextMessageId := by
  have hle : ∀ ids : List ℤ, m.id ∈ ids → m.id ≤ ids.foldr max 0 := fun ids hmem => by
    induction ids with
    | nil => cases hmem
    | cons a rest ih =>
      rw [List.foldr_cons]
      obtain heq | hrest := List.mem_cons.mp hmem
      · rw [heq]
        exact le_max_left a _
      · exact (ih hrest).trans (le_max_right a _)
  have hmem := hle _ (List.mem_map_of_mem h)
  rw [Tables.nextMessageId]
  omega

theorem Tables.Grown.insert (h : Tables.Grown id tables tables' tokens) (role content : String)
    (given : Option ℤ) (turnKey : Option String) :
    Tables.Grown id tables (tables'.insertMessage id role content given turnKey)
      (tokens ++ [given.getD 0]) := by
  obtain ⟨new, hnew, hid, htokens⟩ := h.added
  let message := tables'.newMessage id role content given turnKey
  refine ⟨h.sessions, ⟨new ++ [message], ?_, ?_, ?_⟩, fun hdistinct => ?_⟩
  · show tables'.messages ++ [message] = tables.messages ++ (new ++ [message])
    rw [hnew, List.append_assoc]
  · intro m hm
    obtain hold | heq := List.mem_append.mp hm
    · exact hid m hold
    · rw [List.mem_singleton.mp heq]
      rfl
  · rw [List.map_append, htokens]
    rfl
  · show ((tables'.messages ++ [message]).map MessageRow.id).Nodup
    rw [List.map_append, List.map_singleton]
    refine List.nodup_append.mpr ⟨h.distinct hdistinct, List.nodup_singleton _, fun a ha b hb => ?_⟩
    obtain ⟨m, hm, rfl⟩ := List.mem_map.mp ha
    rw [List.mem_singleton.mp hb]
    exact (lt_nextMessageId hm).ne

theorem Tables.Grown.others (h : Tables.Grown id tables tables' tokens) {other : String}
    (hne : other ≠ id) : tables'.messagesOf other = tables.messagesOf other := by
  obtain ⟨new, hnew, hid, -⟩ := h.added
  have hnone : new.filter (fun m => m.sessionId = other) = [] := by
    rw [List.filter_eq_nil_iff]
    intro m hm
    rw [decide_eq_true_eq, hid m hm]
    exact hne.symm
  rw [Tables.messagesOf, hnew, List.filter_append, hnone, List.append_nil]
  rfl

theorem Tables.Grown.counts (h : Tables.Grown id tables tables' tokens) {row' : SessionRow}
    (hrow : row.Counts (tables.messagesOf id))
    (hcount : row'.messageCount = row.messageCount + tokens.length)
    (htokens : row'.totalTokens = row.totalTokens + tokens.sum) :
    row'.Counts (tables'.messagesOf id) := by
  obtain ⟨new, hnew, hid, hmap⟩ := h.added
  have hall : new.filter (fun m => m.sessionId = id) = new := by
    rw [List.filter_eq_self]
    exact fun m hm => decide_eq_true (hid m hm)
  have hsplit : tables'.messagesOf id = tables.messagesOf id ++ new := by
    rw [Tables.messagesOf, hnew, List.filter_append, hall]
    rfl
  obtain ⟨hold, hsum⟩ := hrow
  refine ⟨?_, ?_⟩
  · have hlength : tokens.length = new.length := by rw [← hmap, List.length_map]
    rw [hsplit, List.length_append, hcount, hold, hlength]
    push_cast
    rfl
  · rw [hsplit, List.map_append, List.sum_append, hmap, htokens, hsum]

theorem Tables.Grown.owned (h : Tables.Grown id tables tables' tokens) {m : MessageRow}
    (hm : m ∈ tables'.messages) : m ∈ tables.messages ∨ m.sessionId = id := by
  obtain ⟨new, hnew, hid, -⟩ := h.added
  rw [hnew] at hm
  exact (List.mem_append.mp hm).imp_right (hid m)

theorem Tables.Grown.sound (h : Tables.Grown id tables tables' tokens) (hsound : tables.Sound)
    {row' : SessionRow} (hrow : row.Counts (tables.messagesOf id))
    (hcount : row'.messageCount = row.messageCount + tokens.length)
    (htokens : row'.totalTokens = row.totalTokens + tokens.sum)
    (hsessions : tables''.sessions = tables.sessions.set id row')
    (hmessages : tables''.messages = tables'.messages) : tables''.Sound := by
  have hof (other : String) : tables''.messagesOf other = tables'.messagesOf other := by
    rw [Tables.messagesOf, Tables.messagesOf, hmessages]
  refine hsound.set hsessions ?_ (fun other hne => ?_) (fun m hm => ?_) ?_
  · rw [hof]
    exact h.counts hrow hcount htokens
  · rw [hof]
    exact h.others hne
  · rw [hmessages] at hm
    exact h.owned hm
  · rw [hmessages]
    exact h.distinct hsound.distinct

end Grown

/-! ## Messages that go -/

section Deleted

variable {tables tables' : Tables} {id : String} {messages : List MessageRow} {row loaded : SessionRow}

theorem perm_deleted (hsound : tables.Sound) (hdistinct : (messages.map MessageRow.id).Nodup)
    (hstored : ∀ m ∈ messages, m ∈ tables.messages) :
    (messages ++ (tables.deleteMessages messages).messages).Perm tables.messages := by
  let gone : MessageRow → Bool := fun m => m.id ∈ messages.map MessageRow.id
  have hgone : (tables.messages.filter gone).Perm messages := by
    refine (List.perm_ext_iff_of_nodup (hsound.distinct.of_map.filter _) hdistinct.of_map).mpr fun m => ?_
    rw [List.mem_filter]
    constructor
    · rintro ⟨hm, hid⟩
      obtain ⟨m', hm', heq⟩ := List.mem_map.mp (of_decide_eq_true hid)
      rw [← List.inj_on_of_nodup_map hsound.distinct (hstored m' hm') hm heq]
      exact hm'
    · exact fun hm => ⟨hstored m hm, decide_eq_true (List.mem_map_of_mem hm)⟩
  have hstay : (tables.deleteMessages messages).messages =
      tables.messages.filter (fun m => !gone m) := by
    refine List.filter_congr fun m _ => ?_
    show decide (m.id ∉ messages.map MessageRow.id) = !decide (m.id ∈ messages.map MessageRow.id)
    rw [decide_not]
  rw [hstay]
  exact (hgone.symm.append_right _).trans (List.filter_append_perm gone tables.messages)

theorem deleted_counts (hsound : tables.Sound) (hdistinct : (messages.map MessageRow.id).Nodup)
    (hstored : ∀ m ∈ messages, m ∈ tables.messages) (hid : ∀ m ∈ messages, m.sessionId = id)
    (hrow : row.Counts (tables.messagesOf id)) :
    row.messageCount = messages.length + ((tables.deleteMessages messages).messagesOf id).length ∧
      row.totalTokens = (messages.map MessageRow.tokens).sum +
        (((tables.deleteMessages messages).messagesOf id).map MessageRow.tokens).sum := by
  have hperm : (messages ++ (tables.deleteMessages messages).messagesOf id).Perm (tables.messagesOf id) := by
    have hfilter := (perm_deleted hsound hdistinct hstored).filter (fun m => m.sessionId = id)
    have hall : messages.filter (fun m => m.sessionId = id) = messages := by
      rw [List.filter_eq_self]
      exact fun m hm => decide_eq_true (hid m hm)
    rw [List.filter_append, hall] at hfilter
    exact hfilter
  obtain ⟨hcount, htokens⟩ := hrow
  refine ⟨?_, ?_⟩
  · rw [hcount, ← hperm.length_eq, List.length_append]
    push_cast
    rfl
  · rw [htokens, ← (hperm.map MessageRow.tokens).sum_eq, List.map_append, List.sum_append]

theorem deleted_others (hsound : tables.Sound) (hstored : ∀ m ∈ messages, m ∈ tables.messages)
    (hid : ∀ m ∈ messages, m.sessionId = id) {other : String} (hne : other ≠ id) :
    (tables.deleteMessages messages).messagesOf other = tables.messagesOf other := by
  show (tables.messages.filter _).filter _ = _
  rw [List.filter_filter]
  refine List.filter_congr fun m hm => ?_
  by_cases hother : m.sessionId = other
  · have hkept : m.id ∉ messages.map MessageRow.id := fun hmem => by
      obtain ⟨m', hm', heq⟩ := List.mem_map.mp hmem
      have hsame : m' = m := List.inj_on_of_nodup_map hsound.distinct (hstored m' hm') hm heq
      exact hne (hother.symm.trans (hsame ▸ hid m' hm'))
    rw [decide_eq_true hother, decide_eq_true hkept]
    rfl
  · rw [decide_eq_false hother]
    rfl

theorem commitDeleteRead_sound (hsound : tables.Sound)
    (hid : ∀ m ∈ messages, m.sessionId = id) (hdistinct : (messages.map MessageRow.id).Nodup)
    (hnonneg : 0 ≤ loaded.messageCount) (hstored : ∀ m ∈ messages, m ∈ tables.messages)
    (hrow : tables.sessions.get id = some row)
    (hcount : messages ≠ [] → row.messageCount = loaded.messageCount)
    (htokens : (messages.map MessageRow.tokens).sum ≠ 0 → row.totalTokens = loaded.totalTokens)
    (hleft : (messages.map MessageRow.tokens).sum ≤ loaded.totalTokens)
    (h : commitDeleteRead id messages (some loaded) tables = .ok tables') : tables'.Sound := by
  obtain ⟨stored, hget, hsessions, hmessages⟩ := flushSession_ok h
  obtain rfl : row = stored := Option.some.inj (hrow.symm.trans hget)
  obtain ⟨hold, hsum⟩ := deleted_counts hsound hdistinct hstored hid (hsound.counted id row hrow)
  have hof (other : String) : tables'.messagesOf other = (tables.deleteMessages messages).messagesOf other := by
    rw [Tables.messagesOf, Tables.messagesOf, hmessages]
  refine hsound.set hsessions ?_ (fun other hne => ?_) (fun m hm => ?_) ?_
  · rw [hof]
    -- where a counter is stale it is not changed
    have hlength : messages.length = 0 ∨ row.messageCount = loaded.messageCount := by
      obtain hnil | hne := eq_or_ne messages []
      · exact Or.inl (by rw [hnil]; rfl)
      · exact Or.inr (hcount hne)
    have hspent : (messages.map MessageRow.tokens).sum = 0 ∨ row.totalTokens = loaded.totalTokens := by
      obtain hzero | hne := eq_or_ne (messages.map MessageRow.tokens).sum 0
      · exact Or.inl hzero
      · exact Or.inr (htokens hne)
    refine ⟨flush_pick (fun hkeep => ?_) fun hput => ?_, flush_pick (fun hkeep => ?_) fun hput => ?_⟩
    · simp only [SessionRow.without] at hkeep
      omega
    · simp only [SessionRow.without] at hput ⊢
      omega
    · simp only [SessionRow.without] at hkeep
      omega
    · simp only [SessionRow.without] at hput ⊢
      omega
  · rw [hof]
    exact deleted_others hsound hstored hid hne
  · rw [hmessages] at hm
    exact Or.inl (List.mem_of_mem_filter hm)
  · rw [hmessages]
    exact hsound.distinct.sublist (List.filter_sublist.map MessageRow.id)

end Deleted

/-! ## The writes -/

section Writes

variable {tables tables' : Tables} {w : ChatWrite}

theorem adopt_counters (row : SessionRow) (workspaceId : String) :
    (row.adopt workspaceId).messageCount = row.messageCount ∧
      (row.adopt workspaceId).totalTokens = row.totalTokens := by
  unfold SessionRow.adopt
  split
  · exact ⟨rfl, rfl⟩
  · exact ⟨rfl, rfl⟩

theorem Tables.Sound.none_counts (h : tables.Sound) {id workspaceId : String}
    (hnone : tables.sessions.get id = none) : (newSession workspaceId).Counts (tables.messagesOf id) := by
  rw [h.messagesOf_nil hnone]
  exact ⟨rfl, rfl⟩

theorem commitMessage_sound {sessionId role content workspaceId : String} {tokens : ℤ}
    (hsound : tables.Sound)
    (h : commitMessage sessionId role content tokens workspaceId tables = .ok tables') :
    tables'.Sound := by
  have hstart : Tables.Grown sessionId tables tables [] := Tables.Grown.refl
  have hgrown := hstart.insert role content (some tokens) none
  unfold commitMessage at h
  dsimp only at h
  split at h
  · rename_i hnone
    obtain ⟨-, hsessions, hmessages⟩ := insertSession_ok h
    exact hgrown.sound hsound (hsound.none_counts hnone) rfl (by simp [newSession]) hsessions hmessages
  · rename_i row hrow
    split at h
    · obtain ⟨stored, hget, hsessions, hmessages⟩ := flushSession_ok h
      obtain rfl : row = stored := Option.some.inj (hrow.symm.trans hget)
      obtain ⟨hcount, htokens⟩ := adopt_counters row workspaceId
      refine hgrown.sound hsound (hsound.counted sessionId row hrow) ?_ ?_ hsessions hmessages
      · refine flush_pick (fun hkeep => ?_) fun _ => ?_
        · simp only at hkeep
          omega
        · simp [hcount]
      · refine flush_pick (fun hkeep => ?_) fun _ => ?_
        · simp only at hkeep
          simp
          omega
        · simp [htokens]
    · cases h

theorem commitPair_sound {sessionId user assistant workspaceId : String} {turnKey : Option String}
    {row : Option SessionRow} (hsound : tables.Sound)
    (hread : ∀ stored ∈ tables.sessions.get sessionId, ∀ loaded ∈ row,
      stored.messageCount = loaded.messageCount)
    (h : commitPair sessionId user assistant workspaceId turnKey row tables = .ok tables') :
    tables'.Sound := by
  have hstart : Tables.Grown sessionId tables tables [] := Tables.Grown.refl
  have hgrown := (hstart.insert "user" user (some 0) turnKey).insert "assistant" assistant (some 0) turnKey
  unfold commitPair at h
  dsimp only at h
  split at h
  · cases h
  · cases h
  · rename_i stored hstored
    split at h
    · cases h
    · obtain rfl := Except.ok.inj h
      cases row with
      | none =>
        obtain ⟨hnone, hsessions, hmessages⟩ := insertSession_ok hstored
        refine hgrown.sound hsound (hsound.none_counts hnone) rfl rfl hsessions ?_
        simp only [Tables.insertMessage, Tables.newMessage, Tables.nextMessageId, hmessages]
      | some loaded =>
        obtain ⟨found, hget, hsessions, hmessages⟩ := flushSession_ok hstored
        have hsame : found.messageCount = loaded.messageCount := hread found hget loaded rfl
        obtain ⟨hcount, htokens⟩ := adopt_counters loaded workspaceId
        refine hgrown.sound hsound (hsound.counted sessionId found hget) ?_ ?_ hsessions ?_
        · refine flush_pick (fun hkeep => ?_) fun _ => ?_
          · simp only at hkeep
            omega
          · simp [hcount, hsame]
        · refine flush_pick (fun _ => ?_) fun hput => ?_
          · simp
          · exact absurd htokens hput
        · simp only [Tables.insertMessage, Tables.newMessage, Tables.nextMessageId, hmessages]

theorem commitClear_sound {sessionId : String} {row : SessionRow} (hsound : tables.Sound)
    (hread : ∀ stored ∈ tables.sessions.get sessionId,
      (row.messageCount = 0 → stored.messageCount = 0) ∧ (row.totalTokens = 0 → stored.totalTokens = 0))
    (h : commitClear sessionId row tables = .ok tables') : tables'.Sound := by
  obtain ⟨stored, hget, hsessions, hmessages⟩ := flushSession_ok h
  obtain ⟨hcount, htokens⟩ := hread stored hget
  have hof (other : String) : tables'.messagesOf other =
      (tables.messages.filter (fun m => m.sessionId ≠ sessionId)).filter (fun m => m.sessionId = other) := by
    rw [Tables.messagesOf, hmessages]
  refine hsound.set hsessions ?_ (fun other hne => ?_) (fun m hm => ?_) ?_
  · have hnil : tables'.messagesOf sessionId = [] := by
      rw [hof, List.filter_filter, List.filter_eq_nil_iff]
      simp
    rw [hnil]
    exact ⟨flush_pick (fun hkeep => hcount hkeep.symm) fun _ => rfl,
      flush_pick (fun hkeep => htokens hkeep.symm) fun _ => rfl⟩
  · rw [hof, List.filter_filter, Tables.messagesOf]
    refine List.filter_congr fun m _ => ?_
    by_cases hother : m.sessionId = other
    · have hkept : m.sessionId ≠ sessionId := hother ▸ hne
      rw [decide_eq_true hother, decide_eq_true hkept]
      rfl
    · rw [decide_eq_false hother]
      rfl
  · rw [hmessages] at hm
    exact Or.inl (List.mem_of_mem_filter hm)
  · rw [hmessages]
    exact hsound.distinct.sublist (List.filter_sublist.map MessageRow.id)

theorem branch_grown {branchId : String} {start stored : Tables} {tokens : List ℤ}
    (h : Tables.Grown branchId start stored tokens) (messages : List MessageRow) :
    Tables.Grown branchId start (messages.foldl (fun tables m =>
      tables.insertMessage branchId m.role m.content m.tokensUsed none) stored)
      (tokens ++ messages.map MessageRow.tokens) := by
  induction messages generalizing stored tokens with
  | nil =>
    rw [List.map_nil, List.append_nil]
    exact h
  | cons m rest ih =>
    have hstep := ih (h.insert m.role m.content m.tokensUsed none)
    rw [List.append_assoc] at hstep
    exact hstep

theorem commitBranch_sound {sourceSessionId branchId workspaceId : String} {messageId : ℤ}
    {messages : List MessageRow} (hsound : tables.Sound)
    (h : commitBranch sourceSessionId messageId branchId workspaceId messages tables = .ok tables') :
    tables'.Sound := by
  obtain ⟨branched, hinsert, hfold⟩ := Fallible.bind_ok.mp h
  obtain rfl := Except.ok.inj hfold
  obtain ⟨hnone, hsessions, hmessages⟩ := insertSession_ok hinsert
  have hstart : Tables.Grown branchId branched branched [] := Tables.Grown.refl
  have hgrown := branch_grown hstart messages
  have hrows : (messages.foldl (fun tables m => tables.insertMessage branchId m.role m.content m.tokensUsed
      none) branched).sessions = tables.sessions.set branchId _ := hgrown.sessions.trans hsessions
  have hempty : tables.messagesOf branchId = [] := hsound.messagesOf_nil hnone
  have hof (other : String) : branched.messagesOf other = tables.messagesOf other := by
    rw [Tables.messagesOf, Tables.messagesOf, hmessages]
  refine hsound.set hrows ?_ (fun other hne => ?_) (fun m hm => ?_) (hgrown.distinct ?_)
  · have hstarts : (newSession workspaceId).Counts (branched.messagesOf branchId) := by
      rw [hof, hempty]
      exact ⟨rfl, rfl⟩
    refine hgrown.counts hstarts ?_ ?_
    · simp [newSession]
    · simp [newSession]
  · rw [hgrown.others hne, hof]
  · rw [← hmessages]
    exact hgrown.owned hm
  · rw [hmessages]
    exact hsound.distinct

theorem deleteRead_sound {sessionId : String} {messages : List MessageRow} {row : Option SessionRow}
    (hsound : tables.Sound) (hwell : WellRead (.deleteRead sessionId messages row))
    (hread : FindsRead tables (.deleteRead sessionId messages row))
    (h : commitDeleteRead sessionId messages row tables = .ok tables') : tables'.Sound := by
  obtain ⟨hid, hdistinct, hnonneg⟩ := hwell
  obtain ⟨hstored, hrow⟩ := hread
  cases hget : tables.sessions.get sessionId with
  | some stored =>
    obtain ⟨loaded, rfl, hcount, htokens, hleft⟩ := hrow stored hget
    exact commitDeleteRead_sound hsound hid hdistinct (hnonneg loaded rfl) hstored hget hcount htokens
      hleft h
  | none =>
    -- a message has a session, so there is none to delete
    have hnil : messages = [] := by
      rw [List.eq_nil_iff_forall_not_mem]
      intro m hm
      have hsome := hsound.owned m (hstored m hm)
      rw [hid m hm, hget] at hsome
      cases hsome
    subst hnil
    cases row with
    | none =>
      obtain rfl := Except.ok.inj h
      have hsame : tables.deleteMessages [] = tables := by
        have hfilter : tables.messages.filter (fun m => m.id ∉ ([] : List MessageRow).map MessageRow.id) =
            tables.messages := by
          rw [List.filter_eq_self]
          simp
        rw [Tables.deleteMessages, hfilter]
      rw [hsame]
      exact hsound
    | some loaded =>
      obtain ⟨stored, hstored', -, -⟩ := flushSession_ok h
      have hnone : tables.sessions.get sessionId = some stored := hstored'
      rw [hget] at hnone
      cases hnone

theorem chatCommit_sound (hsound : tables.Sound) (hwell : WellRead w) (hread : FindsRead tables w)
    (h : chatCommit w tables = .ok tables') : tables'.Sound := by
  cases w with
  | saveMessage sessionId role content tokens workspaceId => exact commitMessage_sound hsound h
  | savePair sessionId user assistant workspaceId turnKey row => exact commitPair_sound hsound hread h
  | deleteRead sessionId messages row => exact deleteRead_sound hsound hwell hread h
  | deleteLocked sessionId messages =>
    obtain ⟨hid, hdistinct⟩ := hwell
    obtain ⟨hstored, hleft⟩ := hread
    have hdelete : commitDeleteRead sessionId messages (tables.sessions.get sessionId) tables = .ok tables' := h
    refine deleteRead_sound hsound ⟨hid, hdistinct, ?_⟩
      ⟨hstored, fun stored hget => ⟨stored, hget, fun _ => rfl, fun _ => rfl, hleft stored hget⟩⟩ hdelete
    intro loaded hget
    obtain ⟨hcount, -⟩ := hsound.counted sessionId loaded hget
    omega
  | clear sessionId row => exact commitClear_sound hsound hread h
  | branch sourceSessionId messageId branchId workspaceId messages => exact commitBranch_sound hsound h

theorem chatBody_honest (op : ChatOp) :
    (chatBody op).Honest Tables.Sound (fun _ _ => True) (fun _ w => WellRead w) tables := by
  have hpair (sessionId user assistant workspaceId : String) (turnKey : Option String) (tables : Tables) :
      (savePairSession sessionId user assistant workspaceId turnKey).Honest Tables.Sound
        (fun _ _ => True) (fun _ w => WellRead w) tables := by
    intro read _ _
    dsimp only
    split
    · exact trivial
    · exact Call.honest_ite trivial trivial
  have hcounts (read : Tables) (hread : read.Sound) (id : String) (loaded : SessionRow)
      (hget : read.sessions.get id = some loaded) : 0 ≤ loaded.messageCount := by
    obtain ⟨hcount, -⟩ := hread.counted id loaded hget
    omega
  cases op with
  | saveMessage sessionId role content tokens workspaceId =>
    intro read _ _
    exact Call.honest_ite trivial trivial
  | saveMessagePair sessionId user assistant workspaceId turnKey =>
    intro read _ _
    refine Call.honest_ite trivial ?_
    · split
      · exact hpair _ _ _ _ _ _
      · intro second _ _
        dsimp only
        split
        · exact trivial
        · exact hpair _ _ _ _ _ _
        · exact trivial
  | deleteMessage messageId workspaceId =>
    intro read _ _
    dsimp only
    split
    · exact trivial
    · rename_i message hmessage
      intro second hsecond _
      refine ⟨fun m hm => ?_, List.nodup_singleton _, fun loaded hget => hcounts second hsecond _ loaded hget⟩
      rw [List.mem_singleton.mp hm]
  | deleteMessagesAfter messageId workspaceId =>
    intro read _ _
    dsimp only
    split
    · exact trivial
    · rename_i message hmessage
      intro second hsecond _
      refine Call.honest_ite (fun third hthird _ => ?_) ?_
      · exact ⟨fun m hm => (by cases hm), List.nodup_nil,
          fun loaded hget => hcounts third hthird _ loaded hget⟩
      · refine ⟨fun m hm => (mem_messagesOf.mp (List.mem_of_mem_filter hm)).2, ?_⟩
        exact hsecond.distinct.sublist ((List.filter_sublist.trans List.filter_sublist).map _)
  | clearSessionMessages sessionId workspaceId =>
    intro read _ _
    dsimp only
    split
    · exact trivial
    · exact Call.honest_ite trivial trivial
  | branchChatSession sourceSessionId messageId workspaceId branchId =>
    intro read _ _
    dsimp only
    split
    · exact trivial
    · -- which workspace is asked for does not matter
      unfold branchFrom
      generalize requestedWorkspace workspaceId _ = requested
      refine Call.honest_ite trivial ?_
      intro second _ _
      exact Call.honest_ite (fun _ _ _ => trivial) trivial

end Writes

/-! ## Sessions -/

/-- From sound tables, however calls interleave, the counters of every session are those of
its messages in every state between transactions, as long as every write finds what its call
has read. -/
theorem session_counters {tables : Tables} {hist : List (Turn ChatOp)}
    {s : Clients Tables ChatWrite ChatAnswer} (hsound : tables.Sound)
    (hrun : Run (Clients.StepWhere chatBody chatCommit FindsRead) (Clients.start tables) hist s) :
    s.store.Counted := by
  have hbody : ∀ op store, Tables.Sound store →
      (chatBody op).Honest Tables.Sound (fun _ _ => True) (fun _ w => WellRead w) store :=
    fun op _ _ => chatBody_honest op
  have hcommit : ∀ store w store', Tables.Sound store → WellRead w → FindsRead store w →
      chatCommit w store = .ok store' → store'.Sound ∧ True :=
    fun _ _ _ h hwell hread hok => ⟨chatCommit_sound h hwell hread hok, trivial⟩
  have hsound' : s.store.Sound := run_invariant (fun _ => trivial) (fun _ _ _ _ _ => trivial)
    (fun _ _ _ h _ => h) hbody hcommit hrun hsound
  exact hsound'.counted

/-- Tables with one workspace and no session. -/
def emptyTables : Tables where
  workspaces := Dict.empty.set "default" ⟨Dict.empty, none, 0⟩
  companions := []
  sessions := Dict.empty
  messages := []

theorem emptyTables_sound : emptyTables.Sound where
  counted _ _ h := by cases h
  owned _ h := by cases h
  distinct := List.nodup_nil

/-- A message and a pair are saved, and the message is deleted. -/
def quietChat : List (Turn ChatOp) :=
  [.call 0 (.saveMessage "s" "user" "hello" 3 none), .go 0, .go 0,
    .call 1 (.saveMessagePair "s" "a" "b" none (some "turn")), .go 1, .go 1, .go 1, .go 1,
    .call 2 (.deleteMessage 1 none), .go 2, .go 2, .go 2]

theorem session_counters_quiet : ∃ s, Run (Clients.StepWhere chatBody chatCommit FindsRead)
    (Clients.start emptyTables) quietChat.reverse s ∧
    s.store.sessions.get "s" = some ⟨some "default", none, none, 2, 0⟩ ∧ s.store.Counted := by
  have hrun : (Run.exec (Clients.nextWhere chatBody chatCommit FindsRead) (Clients.start emptyTables)
      quietChat).map (fun s => s.store.sessions.get "s") =
        some (some ⟨some "default", none, none, 2, 0⟩) := by
    decide +kernel
  obtain ⟨s, hs, hrow⟩ := Option.map_eq_some_iff.mp hrun
  have hsteps := (Run.of_exec hs).mono fun _ _ _ => nextWhere_step
  exact ⟨s, hsteps, hrow, session_counters emptyTables_sound hsteps⟩

/-- Two calls save a pair in one session, and both have read it before either wrote. -/
def staleRun : List (Turn ChatOp) :=
  [.call 0 (.saveMessage "s" "user" "hello" 3 none), .go 0, .go 0,
    .call 1 (.saveMessagePair "s" "a" "b" none none), .call 2 (.saveMessagePair "s" "c" "d" none none),
    .go 1, .go 1, .go 2, .go 2, .go 1, .go 2]

theorem pair_loses_count : ¬ ∀ (tables : Tables) (hist : List (Turn ChatOp))
    (s : Clients Tables ChatWrite ChatAnswer), tables.Sound →
    Run (Clients.Step chatBody chatCommit) (Clients.start tables) hist s → s.store.Counted := by
  intro hall
  have hrun : (Run.exec (Clients.next chatBody chatCommit) (Clients.start emptyTables) staleRun).map
      (fun s => (s.store.sessions.get "s", (s.store.messagesOf "s").length)) =
        some (some ⟨some "default", none, none, 3, 3⟩, 5) := by
    decide +kernel
  obtain ⟨s, hs, hstate⟩ := Option.map_eq_some_iff.mp hrun
  obtain ⟨hrow, hlength⟩ := Prod.mk.inj hstate
  obtain ⟨hcount, -⟩ := hall emptyTables _ s emptyTables_sound (Run.of_exec hs) "s" _ hrow
  rw [hlength] at hcount
  exact absurd hcount (by decide)

end Database

import Yuizaki.Context.Messages

/- The sliding window over a conversation. -/
namespace Context

open Prompt (Text)

/-! ## The window -/

def isSystem (m : ChatMessage) : Bool := decide (m.role = "system".toList)

def isUser (m : ChatMessage) : Bool := decide (m.role = "user".toList)

/-- The latest user message, and the dialogue in front of it. -/
def latestUser (dialog : List ChatMessage) : Option ChatMessage × List ChatMessage :=
  match dialog.reverse.dropWhile fun m => !isUser m with
  | [] => (none, dialog)
  | user :: before => (some user, before.reverse)

structure TruncationStats where
  inputTokens : ℕ
  budgetTokens : ℕ
  droppedMessages : ℕ

structure Window where
  messages : List ChatMessage
  stats : TruncationStats

/-- `max(256, int(max_context_tokens) - int(reserved_output_tokens))` -/
def inputBudget (maxContextTokens reservedOutputTokens : ℤ) : ℕ :=
  (max 256 (maxContextTokens - reservedOutputTokens)).toNat

def minSystemTokens (systemMsgs : List ChatMessage) (budget : ℕ) : ℕ :=
  if systemMsgs.isEmpty then 0 else min 256 (budget / 2)

/-- The message that is trimmed last: the last one of the dialogue, else the last one. -/
def targetIndex (selected : List ChatMessage) : ℕ :=
  match selected.reverse.findIdx? fun m => !isSystem m with
  | some i => selected.length - 1 - i
  | none => selected.length - 1

namespace TokenEstimator

variable (est : TokenEstimator)

/-- The tokens reserved for the latest user message. -/
def reservedUserTokens (user : Option ChatMessage) (budget minSystem : ℕ) : ℕ :=
  match user with
  | some user => min (est.countMessage user) (budget - minSystem)
  | none => 0

/-- The system messages that fit, and their tokens. -/
def keepSystem (budget : ℕ) : (used : ℕ) → (kept : List ChatMessage) → List ChatMessage → List ChatMessage × ℕ
  | used, kept, [] => (kept, used)
  | used, kept, message :: rest =>
    if used + est.countMessage message ≤ budget then
      keepSystem budget (used + est.countMessage message) (kept ++ [message]) rest
    else if kept.isEmpty && decide (0 < budget) then
      let truncated := est.truncateMessageToBudget message budget
      if (PyStr.stripChars (messageContentToText truncated.content)).isEmpty then (kept, used)
      else (kept ++ [truncated], est.countMessage truncated)
    else (kept, used)

/-- The latest user message in what the system messages leave. -/
def fitUser (user : Option ChatMessage) (remaining : ℕ) : List ChatMessage × ℕ :=
  match user with
  | none => ([], remaining)
  | some user =>
    let latest := if est.countMessage user > remaining then est.truncateMessageToBudget user (max 1 remaining) else user
    ([latest], remaining - est.countMessage latest)

/-- The older dialogue that fits, from its end. -/
def fillOlder : (remaining : ℕ) → List ChatMessage → List ChatMessage
  | _, [] => []
  | remaining, message :: rest =>
    if est.countMessage message > remaining then []
    else message :: fillOlder (remaining - est.countMessage message) rest

/-- The selection, before the last trim. -/
def select (normalized : List ChatMessage) (budget : ℕ) : List ChatMessage :=
  let systemMsgs := normalized.filter isSystem
  let dialogMsgs := normalized.filter fun m => !isSystem m
  let (user, olderDialog) := latestUser dialogMsgs
  let reserved := est.reservedUserTokens user budget (minSystemTokens systemMsgs budget)
  let (keptSystem, used) := est.keepSystem (budget - reserved) 0 [] systemMsgs
  let (selectedDialog, remaining) := est.fitUser user (budget - used)
  let selectedOlder := (est.fillOlder remaining olderDialog.reverse).reverse
  keptSystem ++ selectedOlder ++ selectedDialog

/-- The last trim, where a single message still exceeds the budget. -/
def trim (budget : ℕ) (selected : List ChatMessage) : List ChatMessage :=
  if est.countMessages selected > budget && !selected.isEmpty then
    let target := targetIndex selected
    let available := max 1 (budget - est.countMessages (selected.take target ++ selected.drop (target + 1)))
    selected.modify target fun m => est.truncateMessageToBudget m available
  else selected

def applySlidingWindow (messages : List RawMessage) (maxContextTokens reservedOutputTokens : ℤ) : Window :=
  let normalized := normalizeMessages messages
  let budget := inputBudget maxContextTokens reservedOutputTokens
  let selected := est.trim budget (est.select normalized budget)
  ⟨selected, ⟨est.countMessages selected, budget, normalized.length - selected.length⟩⟩

end TokenEstimator

/-! ## What a window keeps -/

/-- Messages in front, or the first of all cut. -/
def KeptSystem (systemMsgs kept : List ChatMessage) : Prop :=
  kept <+: systemMsgs ∨ ∃ first rest cut, systemMsgs = first :: rest ∧ kept = [cut] ∧ first.Cut cut

/-- The latest user message of a dialogue, and what is in front of it. -/
def IsLatest (dialog before : List ChatMessage) (user : ChatMessage) : Prop :=
  isUser user = true ∧ ∃ after, dialog = before ++ user :: after ∧ ∀ m ∈ after, isUser m = false

/-- A run of the dialogue up to its latest user message, and that message, whole or cut. -/
inductive KeptDialog (dialog older : List ChatMessage) : List ChatMessage → Prop
  | noUser (hnone : ∀ m ∈ dialog, isUser m = false) (hrun : older <:+ dialog) : KeptDialog dialog older []
  | user {before : List ChatMessage} {user cut : ChatMessage} (hlatest : IsLatest dialog before user)
      (hrun : older <:+ before) (hcut : user.Cut cut) : KeptDialog dialog older [cut]

/-- System messages, a run of the dialogue up to the latest user message, and that message. -/
def Windowed (normalized selected : List ChatMessage) : Prop :=
  ∃ system older latest, selected = system ++ older ++ latest ∧
    KeptSystem (normalized.filter isSystem) system ∧ KeptDialog (normalized.filter fun m => !isSystem m) older latest

/-- A message that can be cut to a budget: it fits as it is, or it has a single text and fits
    without it. -/
def Cuttable (est : TokenEstimator) (m : ChatMessage) (budget : ℕ) : Prop :=
  est.countMessage m ≤ budget ∨ m.content.Single ∧ est.countMessage m.bare ≤ budget

/-- The two messages that are cut can be: the first system message has a single text or fits the
    reserve, and the latest user message can be cut to what the reserve leaves. -/
structure Measured (est : TokenEstimator) (normalized : List ChatMessage) (budget : ℕ) : Prop where
  system : ∀ first ∈ (normalized.filter isSystem).head?,
    first.content.Single ∨ est.countMessage first ≤ minSystemTokens (normalized.filter isSystem) budget
  user : ∀ before user, IsLatest (normalized.filter fun m => !isSystem m) before user →
    Cuttable est user (budget - minSystemTokens (normalized.filter isSystem) budget)

/-! ## The latest user message -/

theorem not_isSystem_of_isUser {m : ChatMessage} (h : isUser m = true) : isSystem m = false := by
  unfold isUser at h
  unfold isSystem
  rw [of_decide_eq_true h]
  decide

theorem latestUser_some {dialog before : List ChatMessage} {user : ChatMessage}
    (h : latestUser dialog = (some user, before)) : IsLatest dialog before user := by
  unfold latestUser at h
  have happend := List.takeWhile_append_dropWhile (p := fun m => !isUser m) (l := dialog.reverse)
  cases hdrop : dialog.reverse.dropWhile fun m => !isUser m with
  | nil =>
    rw [hdrop] at h
    exact nomatch (Prod.mk.inj h).1
  | cons first rest =>
    rw [hdrop] at h happend
    obtain ⟨huser, rfl⟩ := Prod.mk.inj h
    obtain rfl := Option.some.inj huser
    have hhead := List.head?_dropWhile_not (fun m => !isUser m) dialog.reverse
    rw [hdrop] at hhead
    refine ⟨by simpa using hhead, (dialog.reverse.takeWhile fun m => !isUser m).reverse, ?_, ?_⟩
    · have hreverse := congrArg List.reverse happend
      rw [List.reverse_reverse, List.reverse_append, List.reverse_cons, List.append_assoc] at hreverse
      exact hreverse.symm
    · intro m hm
      have hnot := List.mem_takeWhile_imp (List.mem_reverse.mp hm)
      simpa using hnot

theorem latestUser_none {dialog before : List ChatMessage} (h : latestUser dialog = (none, before)) :
    before = dialog ∧ ∀ m ∈ dialog, isUser m = false := by
  unfold latestUser at h
  cases hdrop : dialog.reverse.dropWhile fun m => !isUser m with
  | nil =>
    rw [hdrop] at h
    refine ⟨(Prod.mk.inj h).2.symm, fun m hm => ?_⟩
    have hall := List.dropWhile_eq_nil_iff.mp hdrop m (List.mem_reverse.mpr hm)
    simpa using hall
  | cons first rest =>
    rw [hdrop] at h
    exact nomatch (Prod.mk.inj h).1

/-! ## Sums -/

namespace TokenEstimator

variable (est : TokenEstimator)

theorem countMessages_append (xs ys : List ChatMessage) :
    est.countMessages (xs ++ ys) = est.countMessages xs + est.countMessages ys := by
  unfold countMessages
  rw [List.map_append, List.sum_append]

theorem countMessages_singleton (m : ChatMessage) : est.countMessages [m] = est.countMessage m :=
  Nat.add_zero _

theorem countMessages_reverse (xs : List ChatMessage) :
    est.countMessages xs.reverse = est.countMessages xs := by
  unfold countMessages
  rw [List.map_reverse, List.sum_reverse]

theorem countMessage_pos (m : ChatMessage) : 6 ≤ est.countMessage m := by
  unfold countMessage
  omega

/-! ## System messages -/

theorem keepSystem_spec (budget : ℕ) : ∀ (used : ℕ) (kept messages : List ChatMessage), used ≤ budget →
    (∃ taken, taken <+: messages ∧
      est.keepSystem budget used kept messages = (kept ++ taken, used + est.countMessages taken) ∧
      used + est.countMessages taken ≤ budget) ∨
    ∃ first rest, messages = first :: rest ∧ kept = [] ∧ budget < used + est.countMessage first ∧
      messageContentToText (est.truncateMessageToBudget first budget).content ≠ [] ∧
      est.keepSystem budget used kept messages =
        ([est.truncateMessageToBudget first budget], est.countMessage (est.truncateMessageToBudget first budget))
  | used, kept, [], hused => Or.inl ⟨[], List.nil_prefix, by simp [keepSystem, countMessages], hused⟩
  | used, kept, message :: rest, hused => by
    have hstop : est.keepSystem budget used kept (message :: rest) = (kept, used) →
        ∃ taken, taken <+: message :: rest ∧
          est.keepSystem budget used kept (message :: rest) = (kept ++ taken, used + est.countMessages taken) ∧
          used + est.countMessages taken ≤ budget := fun h =>
      ⟨[], List.nil_prefix, by rw [h]; simp [countMessages], hused⟩
    rw [keepSystem] at hstop ⊢
    by_cases hfits : used + est.countMessage message ≤ budget
    · rw [if_pos hfits]
      obtain ⟨taken, htaken, heq, hbudget⟩ | ⟨first, rest', -, hkept, -⟩ :=
        keepSystem_spec budget (used + est.countMessage message) (kept ++ [message]) rest hfits
      · refine Or.inl ⟨message :: taken, List.cons_prefix_cons.mpr ⟨rfl, htaken⟩, ?_, ?_⟩
        · rw [heq, List.append_assoc, Nat.add_assoc]
          rfl
        · show used + (est.countMessage message + est.countMessages taken) ≤ budget
          omega
      · exact absurd hkept (by simp)
    · rw [if_neg hfits] at hstop ⊢
      by_cases hempty : (kept.isEmpty && decide (0 < budget)) = true
      · rw [if_pos hempty] at hstop ⊢
        dsimp only at hstop ⊢
        by_cases hblank : (PyStr.stripChars (messageContentToText
            (est.truncateMessageToBudget message budget).content)).isEmpty = true
        · rw [if_pos hblank] at hstop ⊢
          exact Or.inl (hstop rfl)
        · rw [if_neg hblank]
          have hkept : kept = [] := List.isEmpty_iff.mp (Bool.and_eq_true_iff.mp hempty).1
          refine Or.inr ⟨message, rest, rfl, hkept, by omega, fun htext => hblank ?_, by rw [hkept, List.nil_append]⟩
          rw [htext]
          rfl
      · rw [if_neg hempty] at hstop ⊢
        exact Or.inl (hstop rfl)

/-! ## Older dialogue -/

theorem fillOlder_prefix : ∀ (remaining : ℕ) (messages : List ChatMessage),
    est.fillOlder remaining messages <+: messages
  | _, [] => List.nil_prefix
  | remaining, message :: rest => by
    rw [fillOlder]
    by_cases h : est.countMessage message > remaining
    · rw [if_pos h]
      exact List.nil_prefix
    · rw [if_neg h]
      exact List.cons_prefix_cons.mpr ⟨rfl, fillOlder_prefix _ rest⟩

theorem fillOlder_fits : ∀ (remaining : ℕ) (messages : List ChatMessage),
    est.countMessages (est.fillOlder remaining messages) ≤ remaining
  | _, [] => Nat.zero_le _
  | remaining, message :: rest => by
    rw [fillOlder]
    by_cases h : est.countMessage message > remaining
    · rw [if_pos h]
      exact Nat.zero_le _
    · rw [if_neg h]
      have hrest := fillOlder_fits (remaining - est.countMessage message) rest
      show est.countMessage message + est.countMessages _ ≤ remaining
      omega

theorem fillOlder_zero (messages : List ChatMessage) : est.fillOlder 0 messages = [] := by
  cases messages with
  | nil => rfl
  | cons message rest =>
    have hpos := countMessage_pos est message
    rw [fillOlder, if_pos (by omega)]

/-! ## The last trim -/

theorem targetIndex_last {front : List ChatMessage} {m : ChatMessage} (h : isSystem m = false ∨ front = []) :
    targetIndex (front ++ [m]) = front.length := by
  unfold targetIndex
  rw [List.reverse_append, List.reverse_singleton, List.singleton_append, List.findIdx?_cons, List.length_append,
    List.length_singleton]
  obtain hm | rfl := h
  · rw [hm]
    show front.length + 1 - 1 - 0 = front.length
    omega
  · cases isSystem m <;> rfl

theorem trim_last (budget : ℕ) (front : List ChatMessage) {m : ChatMessage} (h : isSystem m = false ∨ front = []) :
    ∃ cut, est.trim budget (front ++ [m]) = front ++ [cut] ∧ m.Cut cut := by
  unfold trim
  by_cases htotal : (decide (est.countMessages (front ++ [m]) > budget) && !(front ++ [m]).isEmpty) = true
  · rw [if_pos htotal]
    dsimp only
    rw [targetIndex_last h]
    generalize max 1 (budget - _) = available
    refine ⟨est.truncateMessageToBudget m available, ?_, truncate_cut est m available⟩
    rw [List.modify_eq_take_drop, List.take_left, List.drop_left]
    rfl
  · rw [if_neg htotal]
    exact ⟨m, rfl, .refl m⟩

theorem trim_of_fits {budget : ℕ} {selected : List ChatMessage} (h : est.countMessages selected ≤ budget) :
    est.trim budget selected = selected := by
  unfold trim
  rw [decide_eq_false (by omega)]
  rfl

end TokenEstimator

/-! ## The selection -/

/-- What the two passes over the system messages and the dialogue make of a conversation: the
    older dialogue is empty where nothing is left, and what is trimmed last is the latest user
    message, or the one system message that is left. -/
theorem windowed_of_parts {est : TokenEstimator} {normalized system older latest : List ChatMessage} {budget : ℕ}
    (hsystem : KeptSystem (normalized.filter isSystem) system)
    (hdialog : KeptDialog (normalized.filter fun m => !isSystem m) older latest)
    (hlast : est.countMessages (system ++ older ++ latest) ≤ budget ∨
      older = [] ∧ (latest = [] → ∃ first rest cut, normalized.filter isSystem = first :: rest ∧
        system = [cut] ∧ first.Cut cut)) :
    Windowed normalized (est.trim budget (system ++ older ++ latest)) := by
  obtain hfits | ⟨rfl, hone⟩ := hlast
  · rw [TokenEstimator.trim_of_fits est hfits]
    exact ⟨system, older, latest, rfl, hsystem, hdialog⟩
  · rw [List.append_nil]
    cases hdialog with
    | noUser hnone hrun =>
      obtain ⟨first, rest, cut, hfirst, rfl, hcut⟩ := hone rfl
      obtain ⟨again, htrim, hagain⟩ := TokenEstimator.trim_last est budget [] (m := cut) (Or.inr rfl)
      refine ⟨[again], [], [], ?_, Or.inr ⟨first, rest, again, hfirst, rfl, hcut.trans hagain⟩, .noUser hnone hrun⟩
      rw [List.append_nil, List.append_nil, List.append_nil]
      exact htrim
    | @user before user cut hlatest hrun hcut =>
      have hnot : isSystem cut = false := by
        have huser := not_isSystem_of_isUser hlatest.1
        unfold isSystem at huser ⊢
        rw [hcut.role]
        exact huser
      obtain ⟨again, htrim, hagain⟩ := TokenEstimator.trim_last est budget system (Or.inl hnot)
      refine ⟨system, [], [again], ?_, hsystem, .user hlatest hrun (hcut.trans hagain)⟩
      rw [List.append_nil]
      exact htrim

theorem fitUser_kept (est : TokenEstimator) {dialog before : List ChatMessage} {user : Option ChatMessage}
    (h : latestUser dialog = (user, before)) (remaining : ℕ) :
    KeptDialog dialog (est.fillOlder (est.fitUser user remaining).2 before.reverse).reverse (est.fitUser user remaining).1 := by
  have hrun := List.reverse_suffix.mpr
    (TokenEstimator.fillOlder_prefix est (est.fitUser user remaining).2 before.reverse)
  rw [List.reverse_reverse] at hrun
  cases user with
  | none =>
    obtain ⟨rfl, hnone⟩ := latestUser_none h
    exact .noUser hnone hrun
  | some user =>
    refine .user (latestUser_some h) hrun ?_
    by_cases hcut : est.countMessage user > remaining
    · rw [if_pos hcut]
      exact TokenEstimator.truncate_cut est user _
    · rw [if_neg hcut]
      exact .refl user

theorem fitUser_fits {est : TokenEstimator} {user : ChatMessage} {share remaining : ℕ} (h : Cuttable est user share)
    (hshare : min (est.countMessage user) share ≤ remaining) :
    est.countMessages (est.fitUser (some user) remaining).1 + (est.fitUser (some user) remaining).2 = remaining := by
  show est.countMessages [_] + (remaining - _) = remaining
  rw [TokenEstimator.countMessages_singleton]
  by_cases hcut : est.countMessage user > remaining
  · rw [if_pos hcut]
    obtain hwhole | ⟨hsingle, hbare⟩ := h
    · omega
    · have hpos := TokenEstimator.countMessage_pos est user.bare
      have hfits : est.countMessage (est.truncateMessageToBudget user (max 1 remaining)) ≤ max 1 remaining := by
        obtain hfits | ⟨-, heq⟩ := TokenEstimator.truncate_single est (max 1 remaining) hsingle
        · exact hfits
        · omega
      omega
  · rw [if_neg hcut]
    omega

theorem fitUser_or (est : TokenEstimator) (user : Option ChatMessage) (remaining : ℕ) :
    est.countMessages (est.fitUser user remaining).1 + (est.fitUser user remaining).2 = remaining ∨
      (est.fitUser user remaining).2 = 0 ∧ (est.fitUser user remaining).1 ≠ [] := by
  cases user with
  | none => exact Or.inl (Nat.zero_add _)
  | some user =>
    show est.countMessages [_] + (remaining - _) = remaining ∨ remaining - _ = 0 ∧ _
    rw [TokenEstimator.countMessages_singleton]
    generalize (if est.countMessage user > remaining then _ else user) = latest
    by_cases hle : est.countMessage latest ≤ remaining
    · left
      omega
    · exact Or.inr ⟨by omega, List.cons_ne_nil _ _⟩

/-- What is kept of the system messages: they fit their budget, or the first one is left, and
    then it fits too where it has a single text or fits the reserve. -/
theorem keepSystem_kept (est : TokenEstimator) (systemMsgs : List ChatMessage) (budget : ℕ) :
    KeptSystem systemMsgs (est.keepSystem budget 0 [] systemMsgs).1 ∧
      est.countMessages (est.keepSystem budget 0 [] systemMsgs).1 = (est.keepSystem budget 0 [] systemMsgs).2 ∧
      ((est.keepSystem budget 0 [] systemMsgs).2 ≤ budget ∨
        ∃ first rest cut, systemMsgs = first :: rest ∧ (est.keepSystem budget 0 [] systemMsgs).1 = [cut] ∧
          first.Cut cut ∧ budget < est.countMessage first ∧ ¬first.content.Single) := by
  obtain ⟨taken, htaken, heq, hbudget⟩ | ⟨first, rest, rfl, -, hbudget, htext, heq⟩ :=
    est.keepSystem_spec budget 0 [] systemMsgs (Nat.zero_le _)
  · rw [heq]
    rw [Nat.zero_add] at hbudget ⊢
    exact ⟨Or.inl htaken, rfl, Or.inl hbudget⟩
  · rw [heq]
    rw [Nat.zero_add] at hbudget
    have hcut := est.truncate_cut first budget
    refine ⟨Or.inr ⟨first, rest, _, rfl, rfl, hcut⟩, est.countMessages_singleton _, ?_⟩
    by_cases hsingle : first.content.Single
    · obtain hfits | ⟨hempty, -⟩ := est.truncate_single budget hsingle
      · exact Or.inl hfits
      · exact absurd hempty htext
    · exact Or.inr ⟨first, rest, _, rfl, rfl, hcut, hbudget, hsingle⟩

theorem reservedUserTokens_le (est : TokenEstimator) (user : Option ChatMessage) (budget minSystem : ℕ) :
    est.reservedUserTokens user budget minSystem ≤ budget - minSystem := by
  cases user with
  | none => exact Nat.zero_le _
  | some user => exact Nat.min_le_right _ _

theorem minSystemTokens_le (systemMsgs : List ChatMessage) (budget : ℕ) : minSystemTokens systemMsgs budget ≤ budget := by
  unfold minSystemTokens
  cases systemMsgs.isEmpty with
  | true => exact Nat.zero_le _
  | false =>
    show min 256 (budget / 2) ≤ budget
    omega

theorem select_spec (est : TokenEstimator) (normalized : List ChatMessage) (budget : ℕ) :
    ∃ system older latest, est.select normalized budget = system ++ older ++ latest ∧
      KeptSystem (normalized.filter isSystem) system ∧ KeptDialog (normalized.filter fun m => !isSystem m) older latest ∧
      (est.countMessages (system ++ older ++ latest) ≤ budget ∨
        older = [] ∧ (latest = [] → ∃ first rest cut, normalized.filter isSystem = first :: rest ∧
          system = [cut] ∧ first.Cut cut)) ∧
      (Measured est normalized budget → est.countMessages (system ++ older ++ latest) ≤ budget) := by
  cases hlatest : latestUser (normalized.filter fun m => !isSystem m) with
  | mk user before =>
    unfold TokenEstimator.select
    dsimp only
    rw [hlatest]
    dsimp only
    have hreserved := reservedUserTokens_le est user budget (minSystemTokens (normalized.filter isSystem) budget)
    have hmin := minSystemTokens_le (normalized.filter isSystem) budget
    obtain ⟨hsystem, hused, hover⟩ := keepSystem_kept est (normalized.filter isSystem)
      (budget - est.reservedUserTokens user budget (minSystemTokens (normalized.filter isSystem) budget))
    generalize est.keepSystem _ 0 [] (normalized.filter isSystem) = kept at hsystem hused hover ⊢
    have hdialog := fitUser_kept est hlatest (budget - kept.2)
    have hfill := est.fillOlder_fits (est.fitUser user (budget - kept.2)).2 before.reverse
    rw [← est.countMessages_reverse] at hfill
    refine ⟨kept.1, _, _, rfl, hsystem, hdialog, ?_, fun hmeasured => ?_⟩
    · rw [est.countMessages_append, est.countMessages_append, hused]
      obtain hsum | ⟨hzero, hne⟩ := fitUser_or est user (budget - kept.2)
      · by_cases hkept : kept.2 ≤ budget
        · left
          omega
        · -- the first system message is beyond the whole budget, so nothing is left
          have hnone : (est.fitUser user (budget - kept.2)).2 = 0 := by omega
          obtain hfits | ⟨first, rest, cut, hfirst, hcut, hof, -⟩ := hover
          · exact absurd hfits (by omega)
          · rw [hnone, est.fillOlder_zero]
            exact Or.inr ⟨rfl, fun _ => ⟨first, rest, cut, hfirst, hcut, hof⟩⟩
      · rw [hzero, est.fillOlder_zero]
        exact Or.inr ⟨rfl, fun hempty => absurd hempty hne⟩
    · rw [est.countMessages_append, est.countMessages_append, hused]
      have hkept : kept.2 ≤ budget - est.reservedUserTokens user budget (minSystemTokens (normalized.filter isSystem) budget) := by
        obtain hfits | ⟨first, rest, cut, hfirst, -, -, hbeyond, hsingle⟩ := hover
        · exact hfits
        · obtain hone | hsmall := hmeasured.system first (by rw [hfirst]; rfl)
          · exact absurd hone hsingle
          · omega
      have hsum : est.countMessages (est.fitUser user (budget - kept.2)).1 + (est.fitUser user (budget - kept.2)).2 =
          budget - kept.2 := by
        cases user with
        | none => exact Nat.zero_add _
        | some user =>
          refine fitUser_fits (hmeasured.user before user (latestUser_some hlatest)) ?_
          show est.reservedUserTokens (some user) budget _ ≤ _
          omega
      omega

/-- **The sliding window.** Whatever the messages, the budgets and the estimator, the window is
    system messages from the front (or the first one cut), a run of the dialogue up to the latest
    user message, and that message, whole or cut; and where the two messages that are cut can be,
    its tokens are within the budget. -/
theorem sliding_window (est : TokenEstimator) (messages : List RawMessage) (maxContextTokens reservedOutputTokens : ℤ) :
    Windowed (normalizeMessages messages)
        (est.applySlidingWindow messages maxContextTokens reservedOutputTokens).messages ∧
      (Measured est (normalizeMessages messages) (inputBudget maxContextTokens reservedOutputTokens) →
        est.countMessages (est.applySlidingWindow messages maxContextTokens reservedOutputTokens).messages ≤
          inputBudget maxContextTokens reservedOutputTokens) := by
  show Windowed _ (est.trim _ (est.select _ _)) ∧ (_ → est.countMessages (est.trim _ (est.select _ _)) ≤ _)
  obtain ⟨system, older, latest, hselect, hsystem, hdialog, hlast, hmeasured⟩ :=
    select_spec est (normalizeMessages messages) (inputBudget maxContextTokens reservedOutputTokens)
  rw [hselect]
  refine ⟨windowed_of_parts hsystem hdialog hlast, fun h => ?_⟩
  rw [TokenEstimator.trim_of_fits est (hmeasured h)]
  exact hmeasured h

def lengthEstimator : TokenEstimator := ⟨List.length⟩

theorem lengthEstimator_monotone : lengthEstimator.Monotone := by
  intro s t h
  have hcount : ∀ text : Text, lengthEstimator.countText text = text.length := by
    intro text
    cases text with
    | nil => rfl
    | cons c rest => rfl
  rw [hcount, hcount]
  exact h.length_le

def userMessage (content : RawContent) : RawMessage := ⟨some "user".toList, some content⟩

/-- An image that is larger than the budget stays, and so do two texts that fit one by one. -/
theorem window_beyond_budget :
    lengthEstimator.Monotone ∧
      inputBudget 0 0 < lengthEstimator.countMessages (lengthEstimator.applySlidingWindow
        [userMessage (.blocks [some ⟨some "image_url".toList, none, none, []⟩])] 0 0).messages ∧
      inputBudget 0 0 < lengthEstimator.countMessages (lengthEstimator.applySlidingWindow
        [userMessage (.blocks [some ⟨some "text".toList, some (List.replicate 200 'a'), none, []⟩,
          some ⟨some "text".toList, some (List.replicate 200 'a'), none, []⟩])] 0 0).messages := by
  refine ⟨lengthEstimator_monotone, ?_, ?_⟩
  · decide +kernel
  · decide +kernel

/-- A text that is too long is cut, and the window fits. -/
theorem sliding_window_long_text :
    lengthEstimator.countMessages (lengthEstimator.applySlidingWindow
      [userMessage (.text (List.replicate 400 'a'))] 0 0).messages ≤ inputBudget 0 0 := by
  apply (sliding_window lengthEstimator [userMessage (.text (List.replicate 400 'a'))] 0 0).2
  refine ⟨fun first hfirst => ?_, ?_⟩
  · have hnone : none = some first := hfirst
    exact nomatch hnone
  rintro before user ⟨-, after, hdialog, -⟩
  have hone : user = ⟨"user".toList, .text (List.replicate 400 'a')⟩ := by
    cases before with
    | nil => exact (List.cons.inj hdialog).1.symm
    | cons m before =>
      have htail : [] = before ++ user :: after := (List.cons.inj hdialog).2
      exact absurd htail.symm (List.append_ne_nil_of_right_ne_nil _ (List.cons_ne_nil _ _))
  rw [hone]
  exact Or.inr ⟨trivial, by decide +kernel⟩

end Context

import Yuizaki.ComputerUse.Session

/- Confirmed actions of computer use.

   A live action is accepted only if its arguments are those of the receipt, but the receipt keeps
   them redacted. So an action that the user allowed is refused where redaction changes one of
   its texts, which are the text to type and the names that go with an action. -/
namespace ComputerUse

open Events Fallible Tool ToolExecutionPermit

/-! ## Redaction of arguments -/

def shownText (tables : TextTables) (urls : UrlTools) (text : String) : String :=
  if (sanitizeUrl tables urls text).2 = true then (sanitizeUrl tables urls text).1
  else if looksSecret tables text = true then "[REDACTED]"
  else text

/-- A text, a number, or a list of texts. -/
def Leaf : Json → Prop
  | .str _ | .int _ => True
  | .arr items => ∀ item ∈ items, ∃ text, item = .str text
  | _ => False

def textsOf : Json → List String
  | .str text => [text]
  | .arr items => items.filterMap fun item =>
    match item with
    | .str text => some text
    | _ => none
  | _ => []

def actionTexts (action : Json) : List String :=
  match action with
  | .obj fields => fields.flatMap fun field => textsOf field.2
  | _ => []

def DistinctKeys (value : Json) : Prop := ∀ fields, value = .obj fields → (fields.map Prod.fst).Nodup

section Redaction

variable {tables : TextTables} {urls : UrlTools} {path : String}

theorem redact_text (text : String) : (redact tables urls path (.str text)).1 = .str (shownText tables urls text) := by
  unfold shownText
  simp only [redact]
  split
  · rfl
  · split
    · rfl
    · rfl

theorem isSecretKey_ascii {key : String} (h : key.toList.all (fun c => c.toNat < 128) = true) (tables : TextTables) :
    Tool.isSecretKey tables key = Tool.isSecretKey ⟨id, fun _ => false⟩ key := by
  have hlower (wide : String → String) : PyStr.lower wide key = PyStr.lowerAscii key := if_pos h
  unfold Tool.isSecretKey
  rw [hlower, hlower]

theorem redactEntries_plain {entries : List (String × Json)} (h : ∀ entry ∈ entries, Tool.isSecretKey tables entry.1 = false) :
    (redactEntries tables urls path false entries).1 =
      entries.map fun entry => (entry.1, (redact tables urls (path ++ "." ++ entry.1) entry.2).1) := by
  induction entries with
  | nil => rfl
  | cons entry rest ih =>
    obtain ⟨key, item⟩ := entry
    obtain ⟨hkey, hrest⟩ := List.forall_mem_cons.mp h
    have hplain : ¬ (Tool.isSecretKey tables key = true ∨ false = true ∧ PyStr.lower tables.lower key = "value") := by
      rw [show Tool.isSecretKey tables key = false from hkey]
      simp
    simp only [redactEntries, List.map_cons, ih hrest, if_neg hplain]

theorem sameEntries_iff {a b : List (String × Json)} :
    Json.sameEntries a b = true ↔ ∀ entry ∈ a, ∃ value, b.lookup entry.1 = some value ∧ Json.same entry.2 value = true := by
  induction a with
  | nil => exact ⟨fun _ entry hentry => absurd hentry List.not_mem_nil, fun _ => by simp only [Json.sameEntries]⟩
  | cons entry rest ih =>
    obtain ⟨key, value⟩ := entry
    rw [List.forall_mem_cons, ← ih]
    simp only [Json.sameEntries]
    cases hlookup : b.lookup key with
    | none => simp
    | some found => simp

theorem lookup_of_mem {entries : List (String × Json)} (hnodup : (entries.map Prod.fst).Nodup)
    {entry : String × Json} (h : entry ∈ entries) : entries.lookup entry.1 = some entry.2 := by
  induction entries with
  | nil => exact absurd h List.not_mem_nil
  | cons other rest ih =>
    obtain ⟨hnew, hrest⟩ := List.nodup_cons.mp hnodup
    rw [show other :: rest = (other.1, other.2) :: rest from rfl, Json.lookup_cons_if]
    obtain heq | hmem := List.mem_cons.mp h
    · rw [heq, if_pos rfl]
    · have hne : entry.1 ≠ other.1 := fun heq => hnew (List.mem_map.mpr ⟨entry, hmem, heq⟩)
      rw [if_neg hne]
      exact ih hrest hmem

theorem same_redact_obj {entries : List (String × Json)} (hnodup : (entries.map Prod.fst).Nodup)
    (hname : entries.lookup "name" = none) (hkeys : ∀ entry ∈ entries, Tool.isSecretKey tables entry.1 = false) :
    Json.same (redact tables urls path (.obj entries)).1 (.obj entries) = true ↔
      ∀ entry ∈ entries, Json.same (redact tables urls (path ++ "." ++ entry.1) entry.2).1 entry.2 = true := by
  have hheader : secretHeader tables entries = false := by
    unfold secretHeader
    rw [hname]
  simp only [redact]
  rw [hheader, redactEntries_plain hkeys]
  simp only [Json.same, List.length_map, true_and, decide_eq_true_eq]
  rw [sameEntries_iff, List.forall_mem_map]
  refine forall_congr' fun entry => forall_congr' fun hentry => ?_
  rw [lookup_of_mem hnodup hentry]
  simp

theorem sameItems_redactItems (path : String) {items : List Json} (hitems : ∀ item ∈ items, ∃ text, item = .str text) (index : ℕ) :
    Json.sameItems (redactItems tables urls path index items).1 items = true ↔
      ∀ text ∈ textsOf (.arr items), shownText tables urls text = text := by
  induction items generalizing index with
  | nil => simp [redactItems, Json.sameItems, textsOf]
  | cons item rest ih =>
    obtain ⟨⟨text, rfl⟩, hrest⟩ := List.forall_mem_cons.mp hitems
    have htexts : textsOf (.arr (.str text :: rest)) = text :: textsOf (.arr rest) := rfl
    rw [htexts, List.forall_mem_cons, ← ih hrest (index + 1)]
    simp only [redactItems, redact_text, Json.sameItems, Json.same, decide_eq_true_eq]

theorem same_redact_leaf {value : Json} (h : Leaf value) :
    Json.same (redact tables urls path value).1 value = true ↔ ∀ text ∈ textsOf value, shownText tables urls text = text := by
  cases value with
  | str text =>
    rw [redact_text]
    simp [Json.same, textsOf]
  | int n => simp [redact, Json.same, Json.number, textsOf]
  | arr items =>
    have hlength : ∀ (xs : List Json) (index : ℕ), (redactItems tables urls path index xs).1.length = xs.length := by
      intro xs
      induction xs with
      | nil => intro index; rfl
      | cons x rest ih => intro index; simp only [redactItems, List.length_cons, ih (index + 1)]
    rw [← sameItems_redactItems path h 0]
    simp only [redact, Json.same, hlength, true_and, decide_eq_true_eq]
  | null | bool | num | obj => exact absurd h id

end Redaction

/-! ## The fields of an action -/

def fieldNames : List String := ["type", "x", "y", "button", "count", "keys", "text"]

theorem plain_key {key : String} (h : key ∈ "sequence" :: "action" :: fieldNames) (tables : TextTables) :
    Tool.isSecretKey tables key = false ∧ key ≠ "name" := by
  have hall : ∀ name ∈ "sequence" :: "action" :: fieldNames, name.toList.all (fun c => c.toNat < 128) = true ∧
      Tool.isSecretKey ⟨id, fun _ => false⟩ name = false ∧ name ≠ "name" := by
    decide +kernel
  obtain ⟨hascii, hplain, hname⟩ := hall key h
  exact ⟨(isSecretKey_ascii hascii tables).trans hplain, hname⟩

theorem lookup_name {entries : List (String × Json)} (hkeys : ∀ entry ∈ entries, entry.1 ≠ "name") :
    entries.lookup "name" = none := by
  induction entries with
  | nil => rfl
  | cons entry rest ih =>
    obtain ⟨hentry, hrest⟩ := List.forall_mem_cons.mp hkeys
    rw [show entry :: rest = (entry.1, entry.2) :: rest from rfl, Json.lookup_cons_if, if_neg (Ne.symm hentry)]
    exact ih hrest

section Fields

variable {tables : TextTables} {fields : List (String × Json)} {action : ComputerUseAction}

theorem fields_of_exact {expected : List String} (hnodup : (fields.map Prod.fst).Nodup) (hknown : expected ⊆ fieldNames)
    (hexact : exactKeys fields expected = .ok ()) (hleaf : ∀ key ∈ expected, Leaf ((Json.obj fields).get key)) :
    ∀ field ∈ fields, field.1 ∈ fieldNames ∧ Leaf field.2 := by
  intro field hfield
  have hkey := (require_ok.mp hexact).1 field hfield
  have hget : (Json.obj fields).get field.1 = field.2 := by
    show (fields.lookup field.1).getD .null = field.2
    rw [lookup_of_mem hnodup hfield]
    rfl
  exact ⟨hknown hkey, hget ▸ hleaf field.1 hkey⟩

theorem integerOf_leaf {value : Json} {field : String} {minimum maximum n : ℤ}
    (h : integerOf value field minimum maximum = .ok n) : Leaf value := by
  cases value with
  | int n => trivial
  | null | bool | num | str | arr | obj => cases h

theorem buttonOf_leaf {value : Json} {button : String} (h : buttonOf value = .ok button) : Leaf value := by
  cases value with
  | str text => trivial
  | null | bool | int | num | arr | obj => cases h

theorem normalizedKeys_leaf {keys : List Json} {names : List String} (h : normalizedKeys tables keys = .ok names) :
    ∀ key ∈ keys, ∃ text, key = .str text := by
  induction keys generalizing names with
  | nil => exact fun key hkey => absurd hkey List.not_mem_nil
  | cons key rest ih =>
    cases key with
    | str text =>
      obtain ⟨-, -, h⟩ := bind_ok.mp h
      obtain ⟨others, hothers, -⟩ := bind_ok.mp h
      exact List.forall_mem_cons.mpr ⟨⟨text, rfl⟩, ih hothers⟩
    | null | bool | int | num | arr | obj => cases h

theorem parseMove_fields (hnodup : (fields.map Prod.fst).Nodup) (htype : Leaf ((Json.obj fields).get "type"))
    (h : parseMove fields = .ok action) : ∀ field ∈ fields, field.1 ∈ fieldNames ∧ Leaf field.2 := by
  obtain ⟨_, hexact, h⟩ := bind_ok.mp h
  obtain ⟨x, hx, h⟩ := bind_ok.mp h
  obtain ⟨y, hy, -⟩ := bind_ok.mp h
  refine fields_of_exact hnodup (by decide) hexact ?_
  simp only [List.forall_mem_cons]
  exact ⟨htype, integerOf_leaf hx, integerOf_leaf hy, by simp⟩

theorem parseClick_fields (hnodup : (fields.map Prod.fst).Nodup) (htype : Leaf ((Json.obj fields).get "type"))
    (h : parseClick fields = .ok action) : ∀ field ∈ fields, field.1 ∈ fieldNames ∧ Leaf field.2 := by
  obtain ⟨_, hexact, h⟩ := bind_ok.mp h
  obtain ⟨button, hbutton, h⟩ := bind_ok.mp h
  obtain ⟨count, hcount, -⟩ := bind_ok.mp h
  refine fields_of_exact hnodup (by decide) hexact ?_
  simp only [List.forall_mem_cons]
  exact ⟨htype, buttonOf_leaf hbutton, integerOf_leaf hcount, by simp⟩

theorem parseKeyPress_fields (hnodup : (fields.map Prod.fst).Nodup) (htype : Leaf ((Json.obj fields).get "type"))
    (h : parseKeyPress tables fields = .ok action) : ∀ field ∈ fields, field.1 ∈ fieldNames ∧ Leaf field.2 := by
  obtain ⟨_, hexact, h⟩ := bind_ok.mp h
  refine fields_of_exact hnodup (by decide) hexact ?_
  simp only [List.forall_mem_cons]
  refine ⟨htype, ?_, by simp⟩
  cases hkeys : (Json.obj fields).get "keys" with
  | arr keys =>
    rw [hkeys] at h
    obtain ⟨_, -, h⟩ := bind_ok.mp h
    obtain ⟨names, hnames, -⟩ := bind_ok.mp h
    exact normalizedKeys_leaf hnames
  | null | bool | int | num | str | obj =>
    rw [hkeys] at h
    cases h

theorem parseTextInput_fields (hnodup : (fields.map Prod.fst).Nodup) (htype : Leaf ((Json.obj fields).get "type"))
    (h : parseTextInput fields = .ok action) : ∀ field ∈ fields, field.1 ∈ fieldNames ∧ Leaf field.2 := by
  obtain ⟨_, hexact, h⟩ := bind_ok.mp h
  refine fields_of_exact hnodup (by decide) hexact ?_
  simp only [List.forall_mem_cons]
  refine ⟨htype, ?_, by simp⟩
  cases htext : (Json.obj fields).get "text" with
  | str text => trivial
  | null | bool | int | num | arr | obj =>
    rw [htext] at h
    cases h

theorem parseAction_fields (hnodup : (fields.map Prod.fst).Nodup) (h : parseAction tables (.obj fields) = .ok action) :
    ∀ field ∈ fields, field.1 ∈ fieldNames ∧ Leaf field.2 := by
  have htype {kind : String} (h : (Json.obj fields).get "type" = .str kind) : Leaf ((Json.obj fields).get "type") := by
    rw [h]
    trivial
  unfold parseAction at h
  dsimp only at h
  by_cases hmove : (Json.obj fields).get "type" = .str "move"
  · rw [if_pos hmove] at h
    exact parseMove_fields hnodup (htype hmove) h
  rw [if_neg hmove] at h
  by_cases hclick : (Json.obj fields).get "type" = .str "click"
  · rw [if_pos hclick] at h
    exact parseClick_fields hnodup (htype hclick) h
  rw [if_neg hclick] at h
  by_cases hpress : (Json.obj fields).get "type" = .str "key_press"
  · rw [if_pos hpress] at h
    exact parseKeyPress_fields hnodup (htype hpress) h
  rw [if_neg hpress] at h
  by_cases hinput : (Json.obj fields).get "type" = .str "text_input"
  · rw [if_pos hinput] at h
    exact parseTextInput_fields hnodup (htype hinput) h
  · rw [if_neg hinput] at h
    cases h

variable {urls : UrlTools}

theorem same_redact_action (path : String) {value : Json} (hdistinct : DistinctKeys value)
    (h : parseAction tables value = .ok action) :
    Json.same (redact tables urls path value).1 value = true ↔
      ∀ text ∈ actionTexts value, shownText tables urls text = text := by
  cases value with
  | obj fields =>
    have hfields := parseAction_fields (hdistinct fields rfl) h
    have hplain : ∀ field ∈ fields, Tool.isSecretKey tables field.1 = false ∧ field.1 ≠ "name" := fun field hfield =>
      plain_key (List.mem_cons_of_mem _ (List.mem_cons_of_mem _ (hfields field hfield).1)) tables
    rw [same_redact_obj (hdistinct fields rfl) (lookup_name fun field hfield => (hplain field hfield).2)
      fun field hfield => (hplain field hfield).1]
    simp only [actionTexts, List.mem_flatMap]
    refine ⟨fun hsame text htext => ?_, fun hshown field hfield => ?_⟩
    · obtain ⟨field, hfield, htext⟩ := htext
      exact (same_redact_leaf (hfields field hfield).2).mp (hsame field hfield) text htext
    · exact (same_redact_leaf (hfields field hfield).2).mpr fun text htext => hshown text ⟨field, hfield, htext⟩
  | null | bool | int | num | str | arr => cases h

end Fields

/-! ## Calls that the user allowed -/

/-- The arguments of `computer.perform_action`. -/
def CallArguments (args : Json) (sequence : ℕ) (action : Json) : Prop :=
  args = .obj [("sequence", .int sequence), ("action", action)] ∨
    args = .obj [("action", action), ("sequence", .int sequence)]

/-- The receipt that the user allowed a call, for its arguments. -/
def allowedReceipt (world : World) (ids : PermissionReceipt) (args : Json) (decidedAt : String) : PermissionReceipt :=
  buildPermissionReceipt world.tables world.urls ids.agentRequestId .allowed "user_allowed" ids.retryable ids.permissionScope
    "computer.perform_action" ids.capabilityType ids.capabilityKind ids.riskLevel args ids.permissionRequestId
    ids.capabilityCallId (some decidedAt)

/-- `invoke`, up to the adapter: the controller when the permit is verified, and the controller in
the lock section, with what other threads did between them. -/
def Controller.invoke (world : World) (c c' : Controller) (now : ℚ) (i : Invocation) :
    Except ComputerUseError (Request × ActionSession) := do
  let r ← c.verify world i
  let session ← c'.admitAction now r
  pure (r, session)

/-- The user allowed exactly this call, in a live session that is bound, unexpired, unstopped and
within its budget, and the number is the next one. -/
structure AllowedCall (world : World) (c c' : Controller) (now : ℚ) (i : Invocation) (sessionKey : String)
    (session : ActionSession) (sequence : ℕ) (action : ComputerUseAction) (nonce : String) : Prop where
  named : opaqueText i.actionSessionId "action_session_id" = .ok sessionKey
  inScope : scopeOf i.scopeValues = .ok session.scope
  numbered : i.sequence = .int sequence
  distinct : DistinctKeys i.actionValue
  parsed : parseAction world.tables i.actionValue = .ok action
  args : CallArguments i.toolArgs sequence i.actionValue
  allowed : ∃ ids decidedAt, i.permissionReceipt = some (allowedReceipt world ids i.toolArgs decidedAt)
  permitted : ∃ ctx receipt permit, i.trustedContext = some ctx ∧ i.permissionReceipt = some receipt ∧
    i.executionPermit = some permit ∧ c.contextBindings.get ctx = some (sessionKey, session.scope) ∧
      mintExecutionPermit world.sha256 "computer.perform_action" i.toolArgs ctx receipt
        (claimsOf world sessionKey session.scope) nonce = .ok permit
  fresh : nonce ∉ c'.usedExecutionPermits
  found : c'.sessions.get sessionKey = some session
  live : i.previewOnly = false ∧ session.dryRun = false
  unstopped : session.stopEpoch = 0
  unexpired : now < session.expiresAt
  next : sequence = session.lastSequence + 1
  budgeted : session.usedActions < session.actionBudget

/-- An invocation is refused for lack of a matching confirmation. -/
def refusedForConfirmation (answer : Except ComputerUseError (Request × ActionSession)) : Bool :=
  match answer with
  | .error e => decide (e.code = "CU_CONFIRMATION_REQUIRED")
  | .ok _ => false

section Allowed

variable {world : World} {c c' : Controller} {now : ℚ} {i : Invocation} {sessionKey nonce : String}
  {session : ActionSession} {sequence : ℕ} {action : ComputerUseAction}

theorem same_redact_args {args value : Json} (hargs : CallArguments args sequence value) (hdistinct : DistinctKeys value)
    (hparsed : parseAction world.tables value = .ok action) :
    Json.same (redactPermissionParameters world.tables world.urls args).1 args = true ↔
      ∀ text ∈ actionTexts value, shownText world.tables world.urls text = text := by
  have hsequence : Tool.isSecretKey world.tables "sequence" = false :=
    (plain_key List.mem_cons_self world.tables).1
  have haction : Tool.isSecretKey world.tables "action" = false :=
    (plain_key (List.mem_cons_of_mem _ List.mem_cons_self) world.tables).1
  have hnumber (path : String) : Json.same (redact world.tables world.urls path (.int sequence)).1 (.int sequence) = true :=
    (same_redact_leaf (show Leaf (.int sequence) from trivial)).mpr fun text htext => absurd htext List.not_mem_nil
  unfold redactPermissionParameters
  obtain rfl | rfl := hargs
  · rw [same_redact_obj (by simp) (by simp [Json.lookup_cons_if]) (by simp [hsequence, haction])]
    simp only [List.forall_mem_cons, List.not_mem_nil, false_imp_iff, implies_true, and_true, hnumber, true_and]
    exact same_redact_action _ hdistinct hparsed
  · rw [same_redact_obj (by simp) (by simp [Json.lookup_cons_if]) (by simp [hsequence, haction])]
    simp only [List.forall_mem_cons, List.not_mem_nil, false_imp_iff, implies_true, and_true, hnumber]
    exact same_redact_action _ hdistinct hparsed

theorem CallArguments.parameters (h : CallArguments i.toolArgs sequence i.actionValue) : i.parameters = i.toolArgs := by
  unfold Invocation.parameters
  obtain harg | harg := h
  · rw [harg]
    rfl
  · rw [harg]
    rfl

theorem AllowedCall.verify (h : AllowedCall world c c' now i sessionKey session sequence action nonce) :
    c.verify world i = .ok ⟨i, sessionKey, session.scope, sequence, action, some nonce, some (sessionKey, session.scope)⟩ := by
  obtain ⟨ctx, receipt, permit, hctx, hreceipt, hpermit, hbinding, hminted⟩ := h.permitted
  have hsequence : sequenceOf i.sequence = .ok sequence := by
    rw [h.numbered]
    show sequenceOf (.int (.ofNat sequence)) = _
    unfold sequenceOf
    have hpositive : 1 ≤ sequence := by
      have hnext := h.next
      omega
    exact bind_ok.mpr ⟨(), require_ok.mpr hpositive, rfl⟩
  have hbound : c.bindingForContext (some ctx) = .ok (sessionKey, session.scope) := by
    unfold Controller.bindingForContext
    rw [Option.bind_some, hbinding]
  have hnonce : verifyExecutionPermit world.sha256 i.executionPermit "computer.perform_action" i.parameters ctx
      i.permissionReceipt (claimsOf world sessionKey session.scope) = some nonce := by
    rw [h.args.parameters, hpermit, hreceipt]
    exact (verifyExecutionPermit_minted hminted).1
  unfold Controller.verify
  refine bind_ok.mpr ⟨sessionKey, h.named, bind_ok.mpr ⟨session.scope, h.inScope, bind_ok.mpr ⟨sequence, hsequence,
    bind_ok.mpr ⟨action, h.parsed, ?_⟩⟩⟩⟩
  rw [hctx]
  refine bind_ok.mpr ⟨(sessionKey, session.scope), hbound, ?_⟩
  rw [hnonce]
  rfl

/-- The request of a call that the user allowed. -/
def allowedRequest (i : Invocation) (sessionKey : String) (session : ActionSession) (sequence : ℕ) (action : ComputerUseAction)
    (nonce : String) : Request :=
  ⟨i, sessionKey, session.scope, sequence, action, some nonce, some (sessionKey, session.scope)⟩

theorem AllowedCall.checkConfirmation (h : AllowedCall world c c' now i sessionKey session sequence action nonce) :
    c'.checkConfirmation (allowedRequest i sessionKey session sequence action nonce) session =
      if ∀ text ∈ actionTexts i.actionValue, shownText world.tables world.urls text = text then .ok ()
      else .error ⟨"CU_CONFIRMATION_REQUIRED", "a fresh matching user confirmation is required", none⟩ := by
  obtain ⟨ids, decidedAt, hreceipt⟩ := h.allowed
  have hlive : Controller.dryRun (allowedRequest i sessionKey session sequence action nonce) session = false := by
    show (i.previewOnly || session.dryRun) = false
    rw [h.live.1, h.live.2]
    rfl
  have hconfirmed : Controller.confirmed i = true ↔
      ∀ text ∈ actionTexts i.actionValue, shownText world.tables world.urls text = text := by
    unfold Controller.confirmed
    rw [hreceipt, h.args.parameters, ← same_redact_args h.args h.distinct h.parsed]
    exact Bool.and_eq_true_iff.trans (and_iff_right rfl)
  unfold Controller.checkConfirmation Controller.checkPermission
  rw [hlive]
  by_cases hshown : ∀ text ∈ actionTexts i.actionValue, shownText world.tables world.urls text = text
  · rw [if_pos hshown]
    exact bind_ok.mpr ⟨(), require_ok.mpr (hconfirmed.mpr hshown), require_ok.mpr h.fresh⟩
  · rw [if_neg hshown]
    have hrefused : ¬ Controller.confirmed (allowedRequest i sessionKey session sequence action nonce).invocation = true :=
      fun hi => hshown (hconfirmed.mp hi)
    unfold require
    rw [if_neg hrefused]
    rfl

theorem AllowedCall.accepted (h : AllowedCall world c c' now i sessionKey session sequence action nonce)
    (hshown : ∀ text ∈ actionTexts i.actionValue, shownText world.tables world.urls text = text) :
    Controller.invoke world c c' now i = .ok (allowedRequest i sessionKey session sequence action nonce, session) := by
  refine bind_ok.mpr ⟨_, h.verify, bind_ok.mpr ⟨session, ?_, rfl⟩⟩
  have hconfirmed := h.checkConfirmation
  rw [if_pos hshown] at hconfirmed
  unfold Controller.admitAction
  rw [h.found]
  exact bind_ok.mpr ⟨(), require_ok.mpr h.unstopped, bind_ok.mpr ⟨(), require_ok.mpr h.unexpired,
    bind_ok.mpr ⟨(), require_ok.mpr rfl, bind_ok.mpr ⟨(), hconfirmed, bind_ok.mpr ⟨(), require_ok.mpr h.next,
      bind_ok.mpr ⟨(), require_ok.mpr h.budgeted, rfl⟩⟩⟩⟩⟩⟩

theorem AllowedCall.refused (h : AllowedCall world c c' now i sessionKey session sequence action nonce)
    (hshown : ¬ ∀ text ∈ actionTexts i.actionValue, shownText world.tables world.urls text = text) :
    Controller.invoke world c c' now i =
      .error ⟨"CU_CONFIRMATION_REQUIRED", "a fresh matching user confirmation is required", none⟩ := by
  have hconfirmed := h.checkConfirmation
  rw [if_neg hshown] at hconfirmed
  have hadmitted : c'.admitAction now (allowedRequest i sessionKey session sequence action nonce) =
      .error ⟨"CU_CONFIRMATION_REQUIRED", "a fresh matching user confirmation is required", none⟩ := by
    unfold Controller.admitAction
    have hfound : c'.sessions.get (allowedRequest i sessionKey session sequence action nonce).sessionKey = some session :=
      h.found
    rw [hfound]
    dsimp only
    rw [hconfirmed]
    unfold require
    have hscope : (allowedRequest i sessionKey session sequence action nonce).scope = session.scope := rfl
    rw [if_pos h.unstopped, if_pos h.unexpired, if_pos hscope]
    rfl
  have hrest : (c'.admitAction now (allowedRequest i sessionKey session sequence action nonce) >>= fun session' =>
      pure (allowedRequest i sessionKey session sequence action nonce, session')) =
        .error ⟨"CU_CONFIRMATION_REQUIRED", "a fresh matching user confirmation is required", none⟩ := by
    rw [hadmitted]
    rfl
  unfold Controller.invoke
  rw [h.verify]
  exact hrest

end Allowed

/-- A call that the user allowed is not refused for lack of a confirmation exactly where redaction
leaves the texts of its action as they are. -/
theorem allowed_action_confirmed {world : World} {c c' : Controller} {now : ℚ} {i : Invocation} {sessionKey : String}
    {session : ActionSession} {sequence : ℕ} {action : ComputerUseAction} {nonce : String}
    (h : AllowedCall world c c' now i sessionKey session sequence action nonce) :
    refusedForConfirmation (Controller.invoke world c c' now i) = false ↔
      ∀ text ∈ actionTexts i.actionValue, shownText world.tables world.urls text = text := by
  by_cases hshown : ∀ text ∈ actionTexts i.actionValue, shownText world.tables world.urls text = text
  · rw [h.accepted hshown]
    exact iff_of_true rfl hshown
  · rw [h.refused hshown]
    exact iff_of_false (by decide) hshown

/-! ## A text to type that is taken for a secret -/

namespace Sample

def session : ActionSession := ⟨scope "1", false, 60, 5, 0, 0, 0⟩

def controller : Controller :=
  ⟨true, Dict.empty.set "a" session, Dict.empty.set 1 ("a", scope "1"), [], 0⟩

def typing (text : String) : Json :=
  .obj [("sequence", .int 1), ("action", .obj [("type", .str "text_input"), ("text", .str text)])]

/-- A text is typed as the user allowed. -/
def typed (text : String) : Invocation where
  actionSessionId := .str "a"
  scopeValues := (scope "1").toDict
  sequence := .int 1
  actionValue := (typing text).get "action"
  previewOnly := false
  permissionReceipt := some (allowedReceipt world receipt (typing text) "now")
  toolArgs := typing text
  trustedContext := some 1
  executionPermit := some permit

theorem typed_allowed (text : String)
    (hparsed : parseAction world.tables ((typing text).get "action") = .ok ⟨"text_input", [("text", .str text)]⟩) :
    AllowedCall world controller controller 1 (typed text) "a" session 1 ⟨"text_input", [("text", .str text)]⟩ "n" where
  named := (by decide +kernel : opaqueText (.str "a") "action_session_id" = .ok "a")
  inScope := (by decide +kernel : scopeOf (scope "1").toDict = .ok (scope "1"))
  numbered := rfl
  distinct fields hfields := by
    obtain rfl := Json.obj.inj hfields
    simp
  parsed := hparsed
  args := .inl rfl
  allowed := ⟨receipt, "now", rfl⟩
  permitted := ⟨1, _, permit, rfl, rfl, rfl, rfl, rfl⟩
  fresh := List.not_mem_nil
  found := rfl
  live := ⟨rfl, rfl⟩
  unstopped := rfl
  unexpired := by decide +kernel
  next := rfl
  budgeted := by decide

end Sample

/-- A word is typed. -/
theorem allowed_action_confirmed_word :
    refusedForConfirmation (Controller.invoke Sample.world Sample.controller Sample.controller 1 (Sample.typed "hello")) = false :=
  (allowed_action_confirmed (Sample.typed_allowed "hello" (by decide +kernel))).mpr (by decide +kernel)

/-- A text that starts like a bearer token is not typed, though the user allowed it. -/
theorem allowed_text_refused :
    ∃ world c now i sessionKey session sequence action nonce,
      AllowedCall world c c now i sessionKey session sequence action nonce ∧
        refusedForConfirmation (Controller.invoke world c c now i) = true :=
  ⟨Sample.world, Sample.controller, 1, Sample.typed "Bearer of news", "a", Sample.session, 1, _, "n",
    Sample.typed_allowed "Bearer of news" (by decide +kernel), by decide +kernel⟩

end ComputerUse

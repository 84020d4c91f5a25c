import Yuizaki.ComputerUse.Steps

/- Sessions of computer use, along runs.

   What a session accepts is checked and counted in one section, and the fence is checked after the
   adapter has come back, so that the numbers, the budget, the deadline, the stops and the single
   use of a permit hold in every run. What the permit is verified against is the binding of the
   context, in a section of its own; nothing compares that binding with the session that accepts
   the action, or the action with the arguments that the permit is for. -/
namespace ComputerUse

open Tool ToolExecutionPermit Transition Fallible

/-! ## Statements -/

/-- A session was stopped after it was issued. -/
def Stopped (sessionKey : String) : List Entry → Prop
  | [] => False
  | .stopped workspaceId sessionId :: older =>
    (∃ session, .issued sessionKey session ∈ older ∧ Controller.stops workspaceId sessionId session.scope = true) ∨
      Stopped sessionKey older
  | _ :: older => Stopped sessionKey older

/-- The number that an entry says a session accepted. -/
def Entry.sequence? (sessionKey : String) : Entry → Option ℕ
  | .accepted _ r _ _ => if r.sessionKey = sessionKey then some r.sequence else none
  | _ => none

/-- The sequence numbers that a session accepted, newest first. -/
def sequences (sessionKey : String) (log : List Entry) : List ℕ := log.filterMap (Entry.sequence? sessionKey)

def Entry.entered? : Entry → Option LiveCall
  | .entered call => some call
  | _ => none

/-- The calls of the adapter, newest first. -/
def enteredCalls (log : List Entry) : List LiveCall := log.filterMap Entry.entered?

def AcceptedLive (log : List Entry) (id : ℕ) (r : Request) : Prop := ∃ time, .accepted id r true time ∈ log

/-- A permit was minted for the tool, for arguments that are those of the request, for its context
and for its session and scope. -/
def Permitted (world : World) (minted : List ToolExecutionPermit) (r : Request) : Prop :=
  ∃ permit ∈ minted, r.nonce = some permit.nonce ∧ permit.toolName = "computer.perform_action" ∧
    permit.parametersSha256 = world.sha256 r.invocation.parameters ∧
      r.invocation.parameters.get "sequence" = .int r.sequence ∧
        parseAction world.tables (r.invocation.parameters.get "action") = .ok r.action ∧
          r.invocation.trustedContext = some permit.contextId ∧ permit.claims = claimsOf world r.sessionKey r.scope

structure SessionSafe (world : World) (s : System) : Prop where
  numbered : ∀ sessionKey, (sequences sessionKey s.log).reverse = List.range' 1 (sequences sessionKey s.log).length
  budgeted : ∀ sessionKey session, .issued sessionKey session ∈ s.log →
    (sequences sessionKey s.log).length ≤ session.actionBudget
  distinct : ∀ newer older id r live time, s.log = newer ++ .accepted id r live time :: older →
    ∀ r' live' time', .accepted id r' live' time' ∉ older
  timely : ∀ newer older id r live time, s.log = newer ++ .accepted id r live time :: older →
    ∃ session, .issued r.sessionKey session ∈ older ∧ time < session.expiresAt ∧ ¬ Stopped r.sessionKey older
  onceEach : ((enteredCalls s.log).map LiveCall.id).Nodup
  oncePermit : ((enteredCalls s.log).map fun call => call.request.nonce).Nodup
  permitted : ∀ newer older call, s.log = newer ++ .entered call :: older →
    AcceptedLive older call.id call.request ∧ Permitted world s.minted call.request
  honest : ∀ newer older id, s.log = newer ++ .executed id :: older →
    ∃ r, AcceptedLive older id r ∧ .returned id ∈ older ∧ ¬ Stopped r.sessionKey older

/-- A request goes to the session and scope that its context was bound to when its permit was
verified, with the sequence number and the action of its arguments. -/
def Request.tied (world : World) (r : Request) : Bool :=
  decide (r.binding = some (r.sessionKey, r.scope)) &&
    decide (r.invocation.parameters.get "sequence" = .int r.sequence) &&
      decide (parseAction world.tables (r.invocation.parameters.get "action") = .ok r.action)

/-- The adapter is called for tied requests only. -/
def System.tied (world : World) (s : System) : Event → Bool
  | .resume n _ =>
    match s.pending[n]? with
    | some (.adapter call) => call.request.tied world
    | _ => true
  | _ => true

/-- A step that calls the adapter for a tied request, if at all. -/
def System.TiedStep (world : World) (s : System) (l : Event × ℚ) (s' : System) : Prop :=
  s.Step world l s' ∧ s.tied world l.1 = true

/-! ## The log -/

/-- An entry fits what was done before it. -/
def Fits (world : World) (minted : List ToolExecutionPermit) : Entry → List Entry → Prop
  | .issued sessionKey _, older => ∀ session, .issued sessionKey session ∉ older
  | .accepted id r _ time, older => (∀ r' live' time', .accepted id r' live' time' ∉ older) ∧
    r.sequence = (sequences r.sessionKey older).length + 1 ∧
      ∃ session, .issued r.sessionKey session ∈ older ∧ time < session.expiresAt ∧ ¬ Stopped r.sessionKey older
  | .entered call, older => AcceptedLive older call.id call.request ∧ Permitted world minted call.request ∧
    (∀ other ∈ enteredCalls older, other.id ≠ call.id ∧ other.request.nonce ≠ call.request.nonce)
  | .executed id, older => ∃ r, AcceptedLive older id r ∧ .returned id ∈ older ∧ ¬ Stopped r.sessionKey older
  | _, _ => True

def InOrder (world : World) (minted : List ToolExecutionPermit) : List Entry → Prop
  | [] => True
  | entry :: older => Fits world minted entry older ∧ InOrder world minted older

section Log

variable {world : World} {minted minted' : List ToolExecutionPermit} {log older newer : List Entry} {entry : Entry}
  {sessionKey : String}

theorem InOrder.split (h : InOrder world minted (newer ++ entry :: older)) : Fits world minted entry older := by
  induction newer with
  | nil => exact h.1
  | cons first rest ih => exact ih h.2

theorem Permitted.mono (hmore : ∀ permit ∈ minted, permit ∈ minted') {r : Request} (h : Permitted world minted r) :
    Permitted world minted' r := by
  obtain ⟨permit, hminted, hrest⟩ := h
  exact ⟨permit, hmore permit hminted, hrest⟩

theorem InOrder.mono (hmore : ∀ permit ∈ minted, permit ∈ minted') (h : InOrder world minted log) :
    InOrder world minted' log := by
  induction log with
  | nil => trivial
  | cons entry older ih =>
    refine ⟨?_, ih h.2⟩
    have hfits := h.1
    cases entry with
    | entered call => exact ⟨hfits.1, hfits.2.1.mono hmore, hfits.2.2⟩
    | issued | stopped | accepted | returned | executed => exact hfits

theorem InOrder.numbered (h : InOrder world minted log) (sessionKey : String) :
    (sequences sessionKey log).reverse = List.range' 1 (sequences sessionKey log).length := by
  induction log with
  | nil => rfl
  | cons entry older ih =>
    have hrest := ih h.2
    have hfits := h.1
    unfold sequences at hrest ⊢
    cases hentry : entry.sequence? sessionKey with
    | none => rwa [List.filterMap_cons_none hentry]
    | some n =>
      rw [List.filterMap_cons_some hentry, List.reverse_cons, hrest, List.length_cons, List.range'_concat, Nat.one_mul]
      cases entry with
      | accepted id r live time =>
        have htaken : (if r.sessionKey = sessionKey then some r.sequence else none) = some n := hentry
        split at htaken
        · rename_i hkey
          obtain rfl := Option.some.inj htaken
          obtain rfl := hkey
          rw [hfits.2.1, Nat.add_comm]
          rfl
        · cases htaken
      | issued | stopped | entered | returned | executed => cases hentry

theorem InOrder.once (h : InOrder world minted log) :
    ((enteredCalls log).map LiveCall.id).Nodup ∧ ((enteredCalls log).map fun call => call.request.nonce).Nodup := by
  induction log with
  | nil => exact ⟨List.nodup_nil, List.nodup_nil⟩
  | cons entry older ih =>
    obtain ⟨hids, hnonces⟩ := ih h.2
    have hfits := h.1
    unfold enteredCalls at hids hnonces ⊢
    cases entry with
    | entered call =>
      show (call.id :: _).Nodup ∧ (call.request.nonce :: _).Nodup
      refine ⟨List.nodup_cons.mpr ⟨fun hmem => ?_, hids⟩, List.nodup_cons.mpr ⟨fun hmem => ?_, hnonces⟩⟩
      · obtain ⟨other, hother, heq⟩ := List.mem_map.mp hmem
        exact (hfits.2.2 other hother).1 heq
      · obtain ⟨other, hother, heq⟩ := List.mem_map.mp hmem
        exact (hfits.2.2 other hother).2 heq
    | issued | stopped | accepted | returned | executed => exact ⟨hids, hnonces⟩

end Log

/-! ## The books -/

/-- What the log says of a session is what the session says. -/
structure Kept (log : List Entry) (sessionKey : String) (session : ActionSession) : Prop where
  issued : ∃ first, .issued sessionKey first ∈ log ∧ session.scope = first.scope ∧ session.expiresAt = first.expiresAt ∧
    session.actionBudget = first.actionBudget
  only : ∀ first other, .issued sessionKey first ∈ log → .issued sessionKey other ∈ log → first = other
  last : session.lastSequence = (sequences sessionKey log).length
  used : session.usedActions = (sequences sessionKey log).length
  budget : session.usedActions ≤ session.actionBudget
  running : session.stopEpoch = 0 → ¬ Stopped sessionKey log

/-- The permit of a request was minted for what it was verified against. -/
def Verified (world : World) (minted : List ToolExecutionPermit) (r : Request) : Prop :=
  ∀ nonce, r.nonce = some nonce → ∃ permit ∈ minted, permit.nonce = nonce ∧
    permit.toolName = "computer.perform_action" ∧ permit.parametersSha256 = world.sha256 r.invocation.parameters ∧
      r.invocation.trustedContext = some permit.contextId ∧
        ∃ binding, r.binding = some binding ∧ permit.claims = claimsOf world binding.1 binding.2

def Pending.live? : Pending → Option LiveCall
  | .fence call | .adapter call | .running call | .returned call _ => some call
  | _ => none

/-- A live action was accepted with a fence that no stop had touched. -/
structure Live (world : World) (minted : List ToolExecutionPermit) (log : List Entry) (call : LiveCall) : Prop where
  verified : Verified world minted call.request
  fence : call.fence = 0
  accepted : AcceptedLive log call.id call.request

/-- A permit that somebody presents was minted, where its seal holds. -/
def Presented (minted : List ToolExecutionPermit) (permit : Option ToolExecutionPermit) : Prop :=
  ∀ p, permit = some p → p.sealed = true → p ∈ minted

/-- What holds of a part that is to come. -/
def Part (world : World) (minted : List ToolExecutionPermit) (log : List Entry) : Pending → Prop
  | .invoke i => Presented minted i.executionPermit
  | .accept r => Verified world minted r
  | .fence call | .adapter call => Live world minted log call ∧ ∀ other ∈ enteredCalls log, other.id ≠ call.id
  | .running call => Live world minted log call
  | .returned call _ => Live world minted log call ∧ .returned call.id ∈ log

/-- The ids of the live actions that are under way. -/
def liveIds (pending : List Pending) : List ℕ := pending.filterMap fun part => part.live?.map LiveCall.id

/-- The log is in order, and the controller and the parts that are to come agree with it. -/
structure Books (world : World) (s : System) : Prop where
  order : InOrder world s.minted s.log
  kept : ∀ sessionKey session, s.controller.sessions.get sessionKey = some session → Kept s.log sessionKey session
  known : ∀ sessionKey session, .issued sessionKey session ∈ s.log → s.controller.sessions.get sessionKey ≠ none
  counted : ∀ id r live time, .accepted id r live time ∈ s.log → id < s.count
  permits : ∀ id id' r r', AcceptedLive s.log id r → AcceptedLive s.log id' r' → r.nonce = r'.nonce → id = id'
  consumed : ∀ id r, AcceptedLive s.log id r → ∃ nonce, r.nonce = some nonce ∧ nonce ∈ s.controller.usedExecutionPermits
  entered : ∀ call ∈ enteredCalls s.log, AcceptedLive s.log call.id call.request
  parts : ∀ part ∈ s.pending, Part world s.minted s.log part
  single : (liveIds s.pending).Nodup

theorem Books.safe {world : World} {s : System} (h : Books world s) : SessionSafe world s where
  numbered := h.order.numbered
  budgeted sessionKey first hissued := by
    obtain ⟨session, hsession⟩ := Option.ne_none_iff_exists'.mp (h.known sessionKey first hissued)
    have hkept := h.kept sessionKey session hsession
    obtain ⟨first', hissued', -, -, hbudget⟩ := hkept.issued
    rw [← hkept.used, hkept.only first first' hissued hissued', ← hbudget]
    exact hkept.budget
  distinct newer older id r live time hlog := by
    have horder := h.order
    rw [hlog] at horder
    exact horder.split.1
  timely newer older id r live time hlog := by
    have horder := h.order
    rw [hlog] at horder
    exact horder.split.2.2
  onceEach := h.order.once.1
  oncePermit := h.order.once.2
  permitted newer older call hlog := by
    have horder := h.order
    rw [hlog] at horder
    exact ⟨horder.split.1, horder.split.2.1⟩
  honest newer older id hlog := by
    have horder := h.order
    rw [hlog] at horder
    exact horder.split

section Books

variable {world : World} {s s' : System} {log : List Entry} {sessionKey : String} {session : ActionSession} {part : Pending}

theorem Verified.mono {minted minted' : List ToolExecutionPermit} {r : Request} (hmore : ∀ permit ∈ minted, permit ∈ minted')
    (h : Verified world minted r) : Verified world minted' r := by
  intro nonce hnonce
  obtain ⟨permit, hminted, hrest⟩ := h nonce hnonce
  exact ⟨permit, hmore permit hminted, hrest⟩

theorem AcceptedLive.mono {log log' : List Entry} {id : ℕ} {r : Request} (hmore : ∀ entry ∈ log, entry ∈ log')
    (h : AcceptedLive log id r) : AcceptedLive log' id r := by
  obtain ⟨time, haccepted⟩ := h
  exact ⟨time, hmore _ haccepted⟩

theorem presented {permit : Option ToolExecutionPermit} (h : s.presentable permit = true) : Presented s.minted permit := by
  intro p hp hsealed
  rw [hp] at h
  have hboth : (!p.sealed || decide (p ∈ s.minted)) = true := h
  rw [hsealed] at hboth
  exact of_decide_eq_true hboth

theorem Part.mono {minted minted' : List ToolExecutionPermit} {log log' : List Entry}
    (hminted : ∀ permit ∈ minted, permit ∈ minted') (hlog : ∀ entry ∈ log, entry ∈ log')
    (hentered : ∀ call, part.live? = some call → ∀ other ∈ enteredCalls log', other ∈ enteredCalls log ∨ other.id ≠ call.id)
    (h : Part world minted log part) : Part world minted' log' part := by
  have hlive {call : LiveCall} (hlive : Live world minted log call) : Live world minted' log' call :=
    ⟨hlive.verified.mono hminted, hlive.fence, hlive.accepted.mono hlog⟩
  cases part with
  | invoke i => exact fun p hp hsealed => hminted p (h p hp hsealed)
  | accept r => exact Verified.mono hminted h
  | fence call =>
    refine ⟨hlive h.1, fun other hother => ?_⟩
    exact (hentered call rfl other hother).elim (fun hold => h.2 other hold) fun hne => hne
  | adapter call =>
    refine ⟨hlive h.1, fun other hother => ?_⟩
    exact (hentered call rfl other hother).elim (fun hold => h.2 other hold) fun hne => hne
  | running call => exact hlive h
  | returned call outcome => exact ⟨hlive h.1, hlog _ h.2⟩

/-- An entry that says nothing of a session. -/
def Entry.quiet : Entry → Prop
  | .entered _ | .returned _ | .executed _ => True
  | _ => False

theorem Kept.quiet {entry : Entry} (hquiet : entry.quiet) (h : Kept log sessionKey session) :
    Kept (entry :: log) sessionKey session := by
  have hmem {first : ActionSession} : Entry.issued sessionKey first ∈ entry :: log → Entry.issued sessionKey first ∈ log := by
    intro hissued
    obtain heq | hissued := List.mem_cons.mp hissued
    · rw [← heq] at hquiet
      exact hquiet.elim
    · exact hissued
  have hsequences : sequences sessionKey (entry :: log) = sequences sessionKey log := by
    cases entry with
    | entered | returned | executed => rfl
    | issued | stopped | accepted => exact hquiet.elim
  have hstopped : Stopped sessionKey (entry :: log) = Stopped sessionKey log := by
    cases entry with
    | entered | returned | executed => rfl
    | issued | stopped | accepted => exact hquiet.elim
  obtain ⟨first, hissued, hrest⟩ := h.issued
  refine ⟨⟨first, List.mem_cons_of_mem _ hissued, hrest⟩, fun a b ha hb => h.only a b (hmem ha) (hmem hb), ?_, ?_, h.budget, ?_⟩
  · rw [hsequences]
    exact h.last
  · rw [hsequences]
    exact h.used
  · rw [hstopped]
    exact h.running

theorem mem_enteredCalls {call : LiveCall} : call ∈ enteredCalls log ↔ .entered call ∈ log := by
  unfold enteredCalls
  rw [List.mem_filterMap]
  constructor
  · intro h
    obtain ⟨entry, hentry, hcall⟩ := h
    cases entry with
    | entered other =>
      obtain rfl := Option.some.inj hcall
      exact hentry
    | issued | stopped | accepted | returned | executed => cases hcall
  · intro h
    exact ⟨.entered call, h, rfl⟩

/-! ## Parts -/

theorem Books.remove {n : ℕ} (h : Books world s) (hn : s.pending[n]? = some part) :
    Books world { s with pending := s.pending.eraseIdx n } ∧ Part world s.minted s.log part ∧
      ∀ call, part.live? = some call → call.id ∉ liveIds (s.pending.eraseIdx n) := by
  obtain ⟨hlt, hget⟩ := List.getElem?_eq_some_iff.mp hn
  have hperm : (part :: s.pending.eraseIdx n).Perm s.pending := by
    rw [← hget]
    exact List.getElem_cons_eraseIdx_perm hlt
  have hsub : ∀ other ∈ s.pending.eraseIdx n, other ∈ s.pending := fun other hother =>
    hperm.mem_iff.mp (List.mem_cons_of_mem _ hother)
  have hsingle : (liveIds (part :: s.pending.eraseIdx n)).Nodup := (hperm.filterMap _).nodup_iff.mpr h.single
  refine ⟨⟨h.order, h.kept, h.known, h.counted, h.permits, h.consumed, h.entered,
    fun other hother => h.parts other (hsub other hother), ?_⟩, h.parts part (List.mem_of_getElem? hn), fun call hcall => ?_⟩
  · exact (List.Sublist.filterMap _ (List.eraseIdx_sublist _ n)).nodup h.single
  · unfold liveIds at hsingle ⊢
    rw [List.filterMap_cons_some (b := call.id) (by rw [hcall]; rfl)] at hsingle
    exact (List.nodup_cons.mp hsingle).1

theorem Books.goOn (h : Books world s) (part : Pending) (hpart : Part world s.minted s.log part)
    (hfree : ∀ call, part.live? = some call → call.id ∉ liveIds s.pending) : Books world (s.goOn part) := by
  refine ⟨h.order, h.kept, h.known, h.counted, h.permits, h.consumed, h.entered, fun other hother => ?_, ?_⟩
  · obtain hold | hnew := List.mem_append.mp hother
    · exact h.parts other hold
    · obtain rfl := List.mem_singleton.mp hnew
      exact hpart
  · show (liveIds (s.pending ++ [part])).Nodup
    unfold liveIds
    rw [List.filterMap_append]
    cases hcall : part.live? with
    | none =>
      rw [List.filterMap_cons_none (by rw [hcall]; rfl), List.filterMap_nil, List.append_nil]
      exact h.single
    | some call =>
      rw [List.filterMap_cons_some (b := call.id) (by rw [hcall]; rfl), List.filterMap_nil, List.nodup_append]
      refine ⟨h.single, List.nodup_singleton _, fun id hid other hother heq => ?_⟩
      rw [List.mem_singleton.mp hother] at heq
      exact hfree call hcall (heq ▸ hid)

theorem Books.record (h : Books world s) (entry : Entry) (hquiet : entry.quiet) (hfits : Fits world s.minted entry s.log)
    (hfree : ∀ call, entry = .entered call → call.id ∉ liveIds s.pending) : Books world { s with log := entry :: s.log } := by
  have haccepted {id : ℕ} {r : Request} {live : Bool} {time : ℚ} :
      Entry.accepted id r live time ∈ entry :: s.log → Entry.accepted id r live time ∈ s.log := by
    intro hmem
    obtain heq | hmem := List.mem_cons.mp hmem
    · rw [← heq] at hquiet
      exact hquiet.elim
    · exact hmem
  have hlive {id : ℕ} {r : Request} (hlive : AcceptedLive (entry :: s.log) id r) : AcceptedLive s.log id r :=
    hlive.imp fun _ => haccepted
  refine ⟨⟨hfits, h.order⟩, fun key session hget => (h.kept key session hget).quiet hquiet, fun key session hissued => ?_,
    fun id r live time hmem => h.counted id r live time (haccepted hmem),
    fun id id' r r' hid hid' => h.permits id id' r r' (hlive hid) (hlive hid'), fun id r hid => h.consumed id r (hlive hid),
    fun call hcall => ?_, fun part hpart => ?_, h.single⟩
  · obtain heq | hissued := List.mem_cons.mp hissued
    · rw [← heq] at hquiet
      exact hquiet.elim
    · exact h.known key session hissued
  · obtain heq | hcall := List.mem_cons.mp (mem_enteredCalls.mp hcall)
    · rw [← heq] at hfits
      exact hfits.1.mono fun _ => List.mem_cons_of_mem _
    · exact (h.entered call (mem_enteredCalls.mpr hcall)).mono fun _ => List.mem_cons_of_mem _
  · refine (h.parts part hpart).mono (fun _ hminted => hminted) (fun _ => List.mem_cons_of_mem _) fun call hcall other hother => ?_
    obtain heq | hother := List.mem_cons.mp (mem_enteredCalls.mp hother)
    · refine Or.inr fun hid => hfree other heq.symm ?_
      rw [hid]
      exact List.mem_filterMap.mpr ⟨part, hpart, by rw [hcall]; rfl⟩
    · exact Or.inl (mem_enteredCalls.mpr hother)

/-! ## Sections -/

theorem admit_ok {c : Controller} {now : ℚ} {r : Request} (h : c.admitAction now r = .ok session) :
    c.sessions.get r.sessionKey = some session ∧ session.stopEpoch = 0 ∧ now < session.expiresAt ∧ r.scope = session.scope ∧
      (Controller.dryRun r session = false → ∃ nonce, r.nonce = some nonce ∧ nonce ∉ c.usedExecutionPermits) ∧
        r.sequence = session.lastSequence + 1 ∧ session.usedActions < session.actionBudget := by
  unfold Controller.admitAction at h
  cases hget : c.sessions.get r.sessionKey with
  | none =>
    rw [hget] at h
    cases h
  | some found =>
    rw [hget] at h
    dsimp only at h
    obtain ⟨_, hstop, h⟩ := bind_ok.mp h
    obtain ⟨_, htime, h⟩ := bind_ok.mp h
    obtain ⟨_, hscope, h⟩ := bind_ok.mp h
    obtain ⟨_, hconfirmed, h⟩ := bind_ok.mp h
    obtain ⟨_, hsequence, h⟩ := bind_ok.mp h
    obtain ⟨_, hbudget, h⟩ := bind_ok.mp h
    obtain rfl := pure_ok.mp h
    refine ⟨rfl, require_ok.mp hstop, require_ok.mp htime, require_ok.mp hscope, fun hlive => ?_, require_ok.mp hsequence,
      require_ok.mp hbudget⟩
    unfold Controller.checkConfirmation at hconfirmed
    rw [hlive, if_neg Bool.false_ne_true] at hconfirmed
    obtain ⟨_, -, hnonce⟩ := bind_ok.mp hconfirmed
    cases hpermit : r.nonce with
    | none =>
      rw [hpermit] at hnonce
      cases hnonce
    | some nonce =>
      rw [hpermit] at hnonce
      exact ⟨nonce, rfl, require_ok.mp hnonce⟩

theorem verify_verified {c : Controller} {i : Invocation} {r : Request} {minted : List ToolExecutionPermit}
    (hpresented : Presented minted i.executionPermit) (h : c.verify world i = .ok r) : Verified world minted r := by
  unfold Controller.verify at h
  obtain ⟨sessionKey, -, h⟩ := bind_ok.mp h
  obtain ⟨scope, -, h⟩ := bind_ok.mp h
  obtain ⟨sequence, -, h⟩ := bind_ok.mp h
  obtain ⟨action, -, h⟩ := bind_ok.mp h
  cases hctx : i.trustedContext with
  | none =>
    rw [hctx] at h
    obtain rfl := pure_ok.mp h
    exact fun nonce hnonce => by cases hnonce
  | some ctx =>
    rw [hctx] at h
    obtain ⟨binding, -, h⟩ := bind_ok.mp h
    obtain rfl := pure_ok.mp h
    intro nonce hnonce
    obtain ⟨p, receipt, hp, -, hcovers, rfl⟩ := verifyExecutionPermit_some hnonce
    obtain ⟨hsealed, htool, hparameters, hcontext, -, hclaims⟩ := hcovers
    refine ⟨p, hpresented p hp hsealed, rfl, htool, hparameters, ?_, binding, rfl, hclaims⟩
    rw [hcontext]
    exact hctx

theorem sequences_accepted {id : ℕ} {r : Request} {live : Bool} {time : ℚ} (key : String) :
    sequences key (.accepted id r live time :: log) =
      if r.sessionKey = key then r.sequence :: sequences key log else sequences key log := by
  unfold sequences
  by_cases hkey : r.sessionKey = key
  · have htaken : (Entry.accepted id r live time).sequence? key = some r.sequence := if_pos hkey
    rw [List.filterMap_cons_some htaken, if_pos hkey]
  · have hother : (Entry.accepted id r live time).sequence? key = none := if_neg hkey
    rw [List.filterMap_cons_none hother, if_neg hkey]

theorem Kept.take {id : ℕ} {r : Request} {live : Bool} {time : ℚ} (h : Kept log r.sessionKey session)
    (hsequence : r.sequence = session.lastSequence + 1) (hbudget : session.usedActions < session.actionBudget) :
    Kept (.accepted id r live time :: log) r.sessionKey { session with
      lastSequence := r.sequence
      usedActions := session.usedActions + 1 } := by
  have hmem {first : ActionSession} (hissued : Entry.issued r.sessionKey first ∈ Entry.accepted id r live time :: log) :
      Entry.issued r.sessionKey first ∈ log := (List.mem_cons.mp hissued).resolve_left fun heq => by cases heq
  obtain ⟨first, hissued, hrest⟩ := h.issued
  refine ⟨⟨first, List.mem_cons_of_mem _ hissued, hrest⟩, fun a b ha hb => h.only a b (hmem ha) (hmem hb), ?_, ?_, hbudget,
    h.running⟩
  · rw [sequences_accepted, if_pos rfl, List.length_cons, ← h.last]
    exact hsequence
  · rw [sequences_accepted, if_pos rfl, List.length_cons, ← h.used]

theorem Kept.other {id : ℕ} {r : Request} {live : Bool} {time : ℚ} (h : Kept log sessionKey session)
    (hne : sessionKey ≠ r.sessionKey) : Kept (.accepted id r live time :: log) sessionKey session := by
  have hmem {first : ActionSession} (hissued : Entry.issued sessionKey first ∈ Entry.accepted id r live time :: log) :
      Entry.issued sessionKey first ∈ log := (List.mem_cons.mp hissued).resolve_left fun heq => by cases heq
  obtain ⟨first, hissued, hrest⟩ := h.issued
  refine ⟨⟨first, List.mem_cons_of_mem _ hissued, hrest⟩, fun a b ha hb => h.only a b (hmem ha) (hmem hb), ?_, ?_, h.budget,
    h.running⟩
  · rw [sequences_accepted, if_neg (Ne.symm hne)]
    exact h.last
  · rw [sequences_accepted, if_neg (Ne.symm hne)]
    exact h.used

theorem acceptedLive_cons {id id' : ℕ} {r r' : Request} {live : Bool} {time : ℚ}
    (h : AcceptedLive (.accepted id r live time :: log) id' r') : (id' = id ∧ r' = r ∧ live = true) ∨ AcceptedLive log id' r' := by
  obtain ⟨time', hmem⟩ := h
  obtain heq | hold := List.mem_cons.mp hmem
  · obtain ⟨rfl, rfl, rfl, -⟩ := Entry.accepted.inj heq
    exact Or.inl ⟨rfl, rfl, rfl⟩
  · exact Or.inr ⟨time', hold⟩

theorem Books.count {now : ℚ} {r : Request} (h : Books world s) (hadmitted : s.controller.admitAction now r = .ok session) :
    Books world { s with
      controller := s.controller.consume r session
      count := s.count + 1
      log := .accepted s.count r (!Controller.dryRun r session) now :: s.log } := by
  obtain ⟨hget, hstop, htime, -, hlive, hsequence, hbudget⟩ := admit_ok hadmitted
  have hkept := h.kept r.sessionKey session hget
  obtain ⟨first, hissued, -, hexpires, -⟩ := hkept.issued
  have hfresh (r' : Request) (live' : Bool) (time' : ℚ) : Entry.accepted s.count r' live' time' ∉ s.log := fun hmem =>
    Nat.lt_irrefl _ (h.counted s.count r' live' time' hmem)
  have hused (hdry : (!Controller.dryRun r session) = true) : ∃ nonce, r.nonce = some nonce ∧
      nonce ∉ s.controller.usedExecutionPermits ∧ (s.controller.consume r session).usedExecutionPermits =
        s.controller.usedExecutionPermits ++ [nonce] := by
    have hdry : Controller.dryRun r session = false := by simpa using hdry
    obtain ⟨nonce, hnonce, hnew⟩ := hlive hdry
    refine ⟨nonce, hnonce, hnew, ?_⟩
    show (if Controller.dryRun r session = true then _ else _) = _
    rw [hdry, if_neg Bool.false_ne_true, hnonce]
    rfl
  have hmore (nonce : String) (hold : nonce ∈ s.controller.usedExecutionPermits) :
      nonce ∈ (s.controller.consume r session).usedExecutionPermits := by
    show nonce ∈ if Controller.dryRun r session = true then _ else _
    split
    · exact hold
    · exact List.mem_append_left _ hold
  refine ⟨⟨⟨hfresh, ?_, first, hissued, hexpires ▸ htime, hkept.running hstop⟩, h.order⟩, fun key other hother => ?_,
    fun key other hother => ?_, fun id r' live time hmem => ?_, fun id id' r' r'' hid hid' hnonce => ?_, fun id r' hid => ?_,
    fun call hcall => ?_, fun part hpart => ?_, h.single⟩
  · rw [← hkept.last]
    exact hsequence
  · replace hother : (s.controller.sessions.set r.sessionKey _).get key = some other := hother
    rw [Dict.get_set] at hother
    split at hother
    · rename_i hkey
      obtain rfl := Option.some.inj hother
      rw [hkey]
      exact hkept.take hsequence hbudget
    · rename_i hkey
      exact (h.kept key other hother).other hkey
  · have hold : Entry.issued key other ∈ s.log := (List.mem_cons.mp hother).resolve_left fun heq => by cases heq
    show (s.controller.sessions.set r.sessionKey _).get key ≠ none
    rw [Dict.get_set]
    split
    · exact Option.some_ne_none _
    · exact h.known key other hold
  · obtain heq | hold := List.mem_cons.mp hmem
    · obtain ⟨rfl, -⟩ := Entry.accepted.inj heq
      exact Nat.lt_succ_self _
    · exact Nat.lt_succ_of_lt (h.counted id r' live time hold)
  · -- the permit of an action that is accepted now was not used before
    have hunused {id : ℕ} {r' : Request} (hold : AcceptedLive s.log id r') (hdry : (!Controller.dryRun r session) = true) :
        r'.nonce ≠ r.nonce := by
      obtain ⟨nonce, hnonce, hnew, -⟩ := hused hdry
      obtain ⟨nonce', hnonce', hconsumed⟩ := h.consumed id r' hold
      rw [hnonce, hnonce']
      exact fun heq => hnew (Option.some.inj heq ▸ hconsumed)
    obtain ⟨rfl, rfl, hdry⟩ | hold := acceptedLive_cons hid
    · obtain ⟨rfl, rfl, -⟩ | hold' := acceptedLive_cons hid'
      · rfl
      · exact absurd hnonce.symm (hunused hold' hdry)
    · obtain ⟨rfl, rfl, hdry⟩ | hold' := acceptedLive_cons hid'
      · exact absurd hnonce (hunused hold hdry)
      · exact h.permits id id' r' r'' hold hold' hnonce
  · obtain ⟨rfl, rfl, hdry⟩ | hold := acceptedLive_cons hid
    · obtain ⟨nonce, hnonce, -, hconsumed⟩ := hused hdry
      refine ⟨nonce, hnonce, ?_⟩
      rw [hconsumed]
      exact List.mem_append_right _ List.mem_cons_self
    · obtain ⟨nonce, hnonce, hconsumed⟩ := h.consumed id r' hold
      exact ⟨nonce, hnonce, hmore nonce hconsumed⟩
  · exact (h.entered call hcall).mono fun _ => List.mem_cons_of_mem _
  · exact (h.parts part hpart).mono (fun _ hminted => hminted) (fun _ => List.mem_cons_of_mem _)
      fun call _ other hother => Or.inl hother

theorem liveIds_lt (h : Books world s) {id : ℕ} (hid : id ∈ liveIds s.pending) : id < s.count := by
  obtain ⟨part, hpart, hcall⟩ := List.mem_filterMap.mp hid
  obtain ⟨call, hlive, rfl⟩ := Option.map_eq_some_iff.mp hcall
  have hgood := h.parts part hpart
  have haccepted : AcceptedLive s.log call.id call.request := by
    cases part with
    | fence other | adapter other =>
      obtain rfl := Option.some.inj hlive
      exact hgood.1.accepted
    | running other =>
      obtain rfl := Option.some.inj hlive
      exact Live.accepted hgood
    | returned other outcome =>
      obtain rfl := Option.some.inj hlive
      exact hgood.1.accepted
    | invoke i | accept r => cases hlive
  obtain ⟨time, hmem⟩ := haccepted
  exact h.counted call.id call.request true time hmem

theorem Books.take {now : ℚ} {r : Request} (h : Books world s) (hverified : Verified world s.minted r)
    (hadmitted : s.controller.admitAction now r = .ok session) : Books world (s.take now r session) := by
  have hcount := h.count hadmitted
  unfold System.take
  dsimp only
  cases hlive : !Controller.dryRun r session && s.controller.hasAdapter with
  | false =>
    rw [if_neg Bool.false_ne_true, List.append_nil]
    exact hcount
  | true =>
    rw [if_pos rfl]
    obtain ⟨hdry, -⟩ := Bool.and_eq_true_iff.mp hlive
    refine hcount.goOn (.fence ⟨s.count, r, session.stopEpoch⟩) ⟨⟨hverified, (admit_ok hadmitted).2.1, now, ?_⟩,
      fun other hother => ?_⟩ fun call hcall hmem => ?_
    · rw [hdry]
      exact List.mem_cons_self
    · obtain ⟨time, hmem⟩ := h.entered other hother
      exact Nat.ne_of_lt (h.counted other.id other.request true time hmem)
    · obtain rfl := Option.some.inj hcall
      exact Nat.lt_irrefl _ (liveIds_lt h hmem)

theorem Books.verify {i : Invocation} (h : Books world s) (hpresented : Presented s.minted i.executionPermit) :
    Books world (s.verify world i) := by
  unfold System.verify
  cases hverify : s.controller.verify world i with
  | error e => exact h
  | ok r => exact h.goOn (.accept r) (verify_verified hpresented hverify) fun call hcall => by cases hcall

theorem running_of_fence {call : LiveCall} (h : Books world s) (hfence : call.fence = 0)
    (hopen : s.controller.fenceStopped call.request.sessionKey call.fence = false) : ¬ Stopped call.request.sessionKey s.log := by
  have hepoch : (s.controller.sessions.get call.request.sessionKey).map (·.stopEpoch) = some call.fence := by
    by_contra hne
    unfold Controller.fenceStopped at hopen
    rw [decide_eq_true hne] at hopen
    cases hopen
  obtain ⟨session, hget, hstop⟩ := Option.map_eq_some_iff.mp hepoch
  exact (h.kept call.request.sessionKey session hget).running (hstop.trans hfence)

theorem permitted_of_tied {r : Request} {nonce : String} (hverified : Verified world s.minted r) (hnonce : r.nonce = some nonce)
    (htied : r.tied world = true) : Permitted world s.minted r := by
  obtain ⟨permit, hminted, rfl, htool, hparameters, hcontext, binding, hbinding, hclaims⟩ := hverified nonce hnonce
  unfold Request.tied at htied
  obtain ⟨hboth, haction⟩ := Bool.and_eq_true_iff.mp htied
  obtain ⟨hbound, hsequence⟩ := Bool.and_eq_true_iff.mp hboth
  obtain rfl := Option.some.inj (hbinding.symm.trans (of_decide_eq_true hbound))
  exact ⟨permit, hminted, hnonce, htool, hparameters, of_decide_eq_true hsequence, of_decide_eq_true haction, hcontext, hclaims⟩

theorem Books.advance {now : ℚ} {outcome : AdapterOutcome} {n : ℕ} (h : Books world s) (hn : s.pending[n]? = some part)
    (htied : s.tied world (.resume n outcome) = true) :
    Books world ({ s with pending := s.pending.eraseIdx n }.advance world now outcome part) := by
  obtain ⟨hrest, hpart, hfree⟩ := h.remove hn
  cases part with
  | invoke i => exact hrest.verify hpart
  | accept r =>
    unfold System.advance
    dsimp only
    cases hadmitted : s.controller.admitAction now r with
    | error e => exact hrest
    | ok session => exact hrest.take hpart hadmitted
  | fence call =>
    unfold System.advance
    dsimp only
    split
    · exact hrest
    · exact hrest.goOn (.adapter call) hpart hfree
  | adapter call =>
    obtain ⟨hlive, hnew⟩ := hpart
    have hcall : call.request.tied world = true := by
      unfold System.tied at htied
      dsimp only at htied
      rw [hn] at htied
      exact htied
    obtain ⟨nonce, hnonce, -⟩ := h.consumed call.id call.request hlive.accepted
    have hfits : Fits world s.minted (.entered call) s.log := by
      refine ⟨hlive.accepted, permitted_of_tied hlive.verified hnonce hcall, fun other hother => ⟨hnew other hother, fun heq => ?_⟩⟩
      exact hnew other hother (h.permits other.id call.id other.request call.request (h.entered other hother) hlive.accepted heq)
    have hrecord := hrest.record (.entered call) trivial hfits fun other heq => by
      obtain rfl := Entry.entered.inj heq
      exact hfree call rfl
    exact hrecord.goOn (.running call)
      ⟨hlive.verified, hlive.fence, hlive.accepted.mono fun _ => List.mem_cons_of_mem _⟩ hfree
  | running call =>
    have hrecord := hrest.record (.returned call.id) trivial trivial fun other heq => by cases heq
    exact hrecord.goOn (.returned call outcome)
      ⟨⟨Live.verified hpart, Live.fence hpart, (Live.accepted hpart).mono fun _ => List.mem_cons_of_mem _⟩,
        List.mem_cons_self⟩ hfree
  | returned call result =>
    unfold System.advance
    dsimp only
    split
    · exact hrest
    · rename_i hgood
      have hopen : s.controller.fenceStopped call.request.sessionKey call.fence = false := by
        by_contra hstopped
        exact hgood (Or.inr (Or.inl (Bool.not_eq_false _ ▸ hstopped)))
      refine hrest.record (.executed call.id) trivial ?_ fun other heq => by cases heq
      exact ⟨call.request, hpart.1.accepted, hpart.2, running_of_fence hrest hpart.1.fence hopen⟩

theorem Stopped.issued (h : Stopped sessionKey log) : ∃ session, .issued sessionKey session ∈ log := by
  induction log with
  | nil => exact h.elim
  | cons entry older ih =>
    cases entry with
    | stopped workspaceId sessionId =>
      obtain ⟨session, hissued, -⟩ | hbefore := h
      · exact ⟨session, List.mem_cons_of_mem _ hissued⟩
      · exact (ih hbefore).imp fun _ => List.mem_cons_of_mem _
    | issued | accepted | entered | returned | executed => exact (ih h).imp fun _ => List.mem_cons_of_mem _

theorem InOrder.unissued {minted : List ToolExecutionPermit} (h : InOrder world minted log)
    (hnone : ∀ session, .issued sessionKey session ∉ log) : sequences sessionKey log = [] := by
  induction log with
  | nil => rfl
  | cons entry older ih =>
    have hrest := ih h.2 fun session hissued => hnone session (List.mem_cons_of_mem _ hissued)
    have hfits := h.1
    cases entry with
    | accepted id r live time =>
      rw [sequences_accepted, if_neg fun hkey => ?_, hrest]
      obtain ⟨session, hissued, -⟩ := hfits.2.2
      exact hnone session (List.mem_cons_of_mem _ (hkey ▸ hissued))
    | issued | stopped | entered | returned | executed => exact hrest

theorem Kept.issue {id : String} {first : ActionSession} (h : Kept log sessionKey session) (hne : sessionKey ≠ id) :
    Kept (.issued id first :: log) sessionKey session := by
  have hmem {other : ActionSession} (hissued : Entry.issued sessionKey other ∈ Entry.issued id first :: log) :
      Entry.issued sessionKey other ∈ log :=
    (List.mem_cons.mp hissued).resolve_left fun heq => hne (Entry.issued.inj heq).1
  obtain ⟨other, hissued, hrest⟩ := h.issued
  exact ⟨⟨other, List.mem_cons_of_mem _ hissued, hrest⟩, fun a b ha hb => h.only a b (hmem ha) (hmem hb), h.last, h.used,
    h.budget, h.running⟩

theorem Books.issue {now ttlSeconds : ℚ} {id : String} {scope : ComputerUseScope} {dryRun : Bool} {actionBudget : ℕ}
    {c : Controller} (h : Books world s) (hnew : s.controller.sessions.get id = none)
    (hissue : s.controller.issueSession now id scope dryRun ttlSeconds actionBudget = .ok (session, c)) :
    Books world { s with
      controller := c
      log := .issued id session :: s.log } := by
  unfold Controller.issueSession at hissue
  obtain ⟨scope, -, hissue⟩ := bind_ok.mp hissue
  obtain ⟨_, -, hissue⟩ := bind_ok.mp hissue
  obtain ⟨_, -, hissue⟩ := bind_ok.mp hissue
  obtain ⟨rfl, rfl⟩ := Prod.mk.inj (pure_ok.mp hissue)
  have hfresh (other : ActionSession) : Entry.issued id other ∉ s.log := fun hissued => h.known id other hissued hnew
  have hlive {id' : ℕ} {r : Request} {first : ActionSession} (hmem : AcceptedLive (.issued id first :: s.log) id' r) :
      AcceptedLive s.log id' r := hmem.imp fun _ hold => (List.mem_cons.mp hold).resolve_left fun heq => by cases heq
  refine ⟨⟨hfresh, h.order⟩, fun key other hother => ?_, fun key other hother => ?_, fun id' r live time hmem => ?_,
    fun a b r r' ha hb => h.permits a b r r' (hlive ha) (hlive hb), fun a r ha => h.consumed a r (hlive ha),
    fun call hcall => (h.entered call hcall).mono fun _ => List.mem_cons_of_mem _, fun part hpart => ?_, h.single⟩
  · replace hother : (s.controller.sessions.set id _).get key = some other := hother
    rw [Dict.get_set] at hother
    split at hother
    · rename_i hkey
      obtain rfl := Option.some.inj hother
      rw [hkey]
      have hnone : sequences id s.log = [] := h.order.unissued hfresh
      refine ⟨⟨_, List.mem_cons_self, rfl, rfl, rfl⟩, fun a b ha hb => ?_, ?_, ?_, Nat.zero_le _, fun _ hstopped => ?_⟩
      · obtain ha | ha := List.mem_cons.mp ha
        · obtain hb | hb := List.mem_cons.mp hb
          · rw [(Entry.issued.inj ha).2, (Entry.issued.inj hb).2]
          · exact absurd hb (hfresh b)
        · exact absurd ha (hfresh a)
      · show 0 = (sequences id s.log).length
        rw [hnone]
        rfl
      · show 0 = (sequences id s.log).length
        rw [hnone]
        rfl
      · have hstopped : Stopped id s.log := hstopped
        obtain ⟨other, hissued⟩ := hstopped.issued
        exact hfresh other hissued
    · rename_i hkey
      exact (h.kept key other hother).issue hkey
  · show (s.controller.sessions.set id _).get key ≠ none
    rw [Dict.get_set]
    split
    · exact Option.some_ne_none _
    · rename_i hkey
      refine h.known key other ((List.mem_cons.mp hother).resolve_left fun heq => hkey (Entry.issued.inj heq).1)
  · exact h.counted id' r live time ((List.mem_cons.mp hmem).resolve_left fun heq => by cases heq)
  · exact (h.parts part hpart).mono (fun _ hminted => hminted) (fun _ => List.mem_cons_of_mem _)
      fun call _ other hother => Or.inl hother

theorem Kept.stop {workspaceId sessionId : Option String} (h : Kept log sessionKey session) :
    Kept (.stopped workspaceId sessionId :: log) sessionKey
      (if Controller.stops workspaceId sessionId session.scope = true then { session with stopEpoch := session.stopEpoch + 1 }
        else session) := by
  have hmem {first : ActionSession} (hissued : Entry.issued sessionKey first ∈ Entry.stopped workspaceId sessionId :: log) :
      Entry.issued sessionKey first ∈ log := (List.mem_cons.mp hissued).resolve_left fun heq => by cases heq
  obtain ⟨first, hissued, hscope, hrest⟩ := h.issued
  split
  · exact ⟨⟨first, List.mem_cons_of_mem _ hissued, hscope, hrest⟩, fun a b ha hb => h.only a b (hmem ha) (hmem hb), h.last,
      h.used, h.budget, fun hzero => absurd hzero (Nat.succ_ne_zero _)⟩
  · rename_i hother
    refine ⟨⟨first, List.mem_cons_of_mem _ hissued, hscope, hrest⟩, fun a b ha hb => h.only a b (hmem ha) (hmem hb), h.last,
      h.used, h.budget, fun hzero hstopped => ?_⟩
    obtain ⟨other, hissued', hstops⟩ | hbefore := hstopped
    · rw [h.only other first hissued' hissued, ← hscope] at hstops
      exact hother hstops
    · exact h.running hzero hbefore

theorem Books.stop (h : Books world s) (workspaceId sessionId : Option String) : Books world { s with
    controller := s.controller.emergencyStop workspaceId sessionId
    log := .stopped workspaceId sessionId :: s.log } := by
  have hlive {id : ℕ} {r : Request} (hmem : AcceptedLive (.stopped workspaceId sessionId :: s.log) id r) :
      AcceptedLive s.log id r := hmem.imp fun _ hold => (List.mem_cons.mp hold).resolve_left fun heq => by cases heq
  have hget (key : String) : (s.controller.emergencyStop workspaceId sessionId).sessions.get key =
      (s.controller.sessions.get key).map _ := Dict.get_mapValues _
  refine ⟨⟨trivial, h.order⟩, fun key other hother => ?_, fun key other hother => ?_, fun id r live time hmem => ?_,
    fun a b r r' ha hb => h.permits a b r r' (hlive ha) (hlive hb), fun a r ha => h.consumed a r (hlive ha),
    fun call hcall => (h.entered call hcall).mono fun _ => List.mem_cons_of_mem _, fun part hpart => ?_, h.single⟩
  · obtain ⟨session, hsession, rfl⟩ := Option.map_eq_some_iff.mp ((hget key).symm.trans hother)
    exact (h.kept key session hsession).stop
  · have hold : Entry.issued key other ∈ s.log := (List.mem_cons.mp hother).resolve_left fun heq => by cases heq
    obtain ⟨session, hsession⟩ := Option.ne_none_iff_exists'.mp (h.known key other hold)
    show (s.controller.emergencyStop workspaceId sessionId).sessions.get key ≠ none
    rw [hget key, hsession]
    exact Option.some_ne_none _
  · exact h.counted id r live time ((List.mem_cons.mp hmem).resolve_left fun heq => by cases heq)
  · exact (h.parts part hpart).mono (fun _ hminted => hminted) (fun _ => List.mem_cons_of_mem _)
      fun call _ other hother => Or.inl hother

theorem Books.bind {bindings : Dict ℕ (String × ComputerUseScope)} (h : Books world s) :
    Books world { s with controller := { s.controller with contextBindings := bindings } } :=
  ⟨h.order, h.kept, h.known, h.counted, h.permits, h.consumed, h.entered, h.parts, h.single⟩

theorem Books.mint {permit : ToolExecutionPermit} (h : Books world s) : Books world { s with minted := permit :: s.minted } := by
  have hmore (p : ToolExecutionPermit) (hminted : p ∈ s.minted) : p ∈ permit :: s.minted := List.mem_cons_of_mem _ hminted
  exact ⟨h.order.mono hmore, h.kept, h.known, h.counted, h.permits, h.consumed, h.entered,
    fun part hpart => (h.parts part hpart).mono hmore (fun _ hentry => hentry) fun _ _ _ hother => Or.inl hother, h.single⟩

theorem bindContext_ok {c c' : Controller} {ctx : ℕ} {actionSessionId : Json} {trustedScope : ComputerUseScope}
    (h : c.bindContext ctx actionSessionId trustedScope = .ok c') :
    ∃ bindings, c' = { c with contextBindings := bindings } := by
  unfold Controller.bindContext at h
  obtain ⟨sessionKey, -, h⟩ := bind_ok.mp h
  obtain ⟨scope, -, h⟩ := bind_ok.mp h
  obtain ⟨_, -, h⟩ := bind_ok.mp h
  exact ⟨_, (pure_ok.mp h).symm⟩

theorem Books.step {l : Event × ℚ} (h : Books world s) (hstep : s.TiedStep world l s') : Books world s' := by
  obtain ⟨event, now⟩ := l
  obtain ⟨hact, htied⟩ := hstep
  replace hact : s.act world now event = some s' := hact
  unfold System.act at hact
  cases event with
  | issueSession id scope dryRun ttlSeconds actionBudget =>
    dsimp only at hact
    split at hact
    · rename_i hnew
      obtain rfl := Option.some.inj hact
      cases hissue : s.controller.issueSession now id scope dryRun ttlSeconds actionBudget with
      | error e => exact h
      | ok issued => exact h.issue hnew.1 hissue
    · cases hact
  | emergencyStop workspaceId sessionId =>
    obtain rfl := Option.some.inj hact
    exact h.stop workspaceId sessionId
  | bindContext ctx actionSessionId trustedScope =>
    obtain rfl := Option.some.inj hact
    cases hbind : s.controller.bindContext ctx actionSessionId trustedScope with
    | error e => exact h
    | ok c =>
      obtain ⟨bindings, rfl⟩ := bindContext_ok hbind
      exact h.bind
  | dropContext ctx =>
    obtain rfl := Option.some.inj hact
    exact h.bind
  | mint toolName parameters ctx receipt claims nonce =>
    dsimp only at hact
    split at hact
    · obtain rfl := Option.some.inj hact
      cases mintExecutionPermit world.sha256 toolName parameters ctx receipt claims nonce with
      | error e => exact h
      | ok permit => exact h.mint
    · cases hact
  | handle previewOnly args ctx receipt permit =>
    dsimp only at hact
    split at hact
    · rename_i hpresented
      obtain rfl := Option.some.inj hact
      cases s.controller.bindingForContext ctx with
      | error e => exact h
      | ok binding => exact h.goOn (.invoke _) (presented hpresented) fun call hcall => by cases hcall
    · cases hact
  | invoke i =>
    dsimp only at hact
    split at hact
    · rename_i hpresented
      obtain rfl := Option.some.inj hact
      exact h.verify (presented hpresented)
    · cases hact
  | resume n outcome =>
    obtain ⟨part, hn, rfl⟩ := Option.map_eq_some_iff.mp hact
    exact h.advance hn htied

theorem start_books (hasAdapter : Bool) : Books world (System.start hasAdapter) where
  order := trivial
  kept _ _ hget := by cases hget
  known _ _ hissued := absurd hissued List.not_mem_nil
  counted _ _ _ _ hmem := absurd hmem List.not_mem_nil
  permits _ _ _ _ hmem := absurd hmem.choose_spec List.not_mem_nil
  consumed _ _ hmem := absurd hmem.choose_spec List.not_mem_nil
  entered _ hcall := absurd hcall List.not_mem_nil
  parts _ hpart := absurd hpart List.not_mem_nil
  single := List.nodup_nil

end Books

/-- In every run in which the adapter is called for tied requests only, the sessions are safe. -/
theorem sessions_safe (world : World) (hasAdapter : Bool) (hist : List (Event × ℚ)) (s : System)
    (hrun : Run (System.TiedStep world) (System.start hasAdapter) hist s) : SessionSafe world s :=
  (hrun.invariant (I := Books world) (start_books hasAdapter) fun _ _ _ h hstep => h.step hstep).safe

/-! ## A context that is bound to another session in between -/

namespace Sample

/-- A world whose digest tells the claims of different sessions apart. -/
def world : World where
  tables := ⟨id, fun _ => false⟩
  urls := ⟨fun _ => none, fun _ _ _ _ _ => "", fun _ => [], fun _ => ""⟩
  sha256 document :=
    match document.get "action_session_id" with
    | .str sessionKey => sessionKey
    | _ => "parameters"

def scope (window : String) : ComputerUseScope := ⟨"w", "s", "t", "r", "g", 0, "app", window⟩

def args : Json :=
  .obj [("sequence", .int 1), ("action", .obj [("type", .str "click"), ("button", .str "left"), ("count", .int 1)])]

def receipt : PermissionReceipt where
  agentRequestId := "agent"
  permissionRequestId := "perm"
  capabilityCallId := "call"
  decision := .allowed
  reasonCode := "user_allowed"
  retryable := false
  permissionScope := "once"
  capabilityId := "computer.perform_action"
  capabilityType := "tool"
  capabilityKind := "builtin-tool"
  riskLevel := "high"
  parameters := args
  redactedPaths := []
  decidedAt := some "now"

def permit : ToolExecutionPermit := ⟨true, "computer.perform_action", "parameters", 1, "call", "a", "n"⟩

/-- Sessions a and b are issued, and a permit for session a is minted. -/
def issued : List (Event × ℚ) :=
  [(.issueSession "a" (scope "1") false 60 5, 0), (.issueSession "b" (scope "2") false 60 5, 0),
    (.mint "computer.perform_action" args 1 receipt "a" "n", 0)]

/-- The click goes from one section to the next. -/
def clicks (n : ℕ) : List (Event × ℚ) := List.replicate n (.resume 0 (.completed []), 1)

/-- The context is bound to session a all along. -/
def bound : List (Event × ℚ) :=
  issued ++ [(.bindContext 1 (.str "a") (scope "1"), 0), (.handle false args (some 1) (some receipt) (some permit), 1)] ++
    clicks 6

/-- The handler reads session b, and the permit is verified against session a. -/
def rebound : List (Event × ℚ) :=
  issued ++ [(.bindContext 1 (.str "b") (scope "2"), 0), (.handle false args (some 1) (some receipt) (some permit), 1),
    (.bindContext 1 (.str "a") (scope "1"), 1)] ++ clicks 4

def tiedNext (s : System) (l : Event × ℚ) : Option System := if s.tied world l.1 = true then s.act world l.2 l.1 else none

def after : System := (Run.exec tiedNext (System.start true) bound).get (by decide +kernel)

def clicked : System :=
  (Run.exec (fun s l => s.act world l.2 l.1) (System.start true) rebound).get (by decide +kernel)

theorem tiedNext_step {s s' : System} {l : Event × ℚ} (h : tiedNext s l = some s') : s.TiedStep world l s' := by
  unfold tiedNext at h
  split at h
  · exact ⟨h, by assumption⟩
  · cases h

end Sample

/-- A click that goes all the way. -/
theorem sessions_safe_click : SessionSafe Sample.world Sample.after ∧ sequences "a" Sample.after.log = [1] := by
  refine ⟨sessions_safe Sample.world true Sample.bound.reverse Sample.after ?_, by decide +kernel⟩
  have hrun : Run (fun s l s' => Sample.tiedNext s l = some s') (System.start true) Sample.bound.reverse Sample.after :=
    Run.of_exec (Option.some_get _).symm
  exact hrun.mono fun _ _ _ => Sample.tiedNext_step

/-- The adapter clicks in the window of session b, with a permit for session a. -/
theorem permit_used_for_other_session :
    ∃ hist s, Run (System.Step Sample.world) (System.start true) hist s ∧ ¬ SessionSafe Sample.world s := by
  refine ⟨Sample.rebound.reverse, Sample.clicked, Run.of_exec (Option.some_get _).symm, fun hsafe => ?_⟩
  have hminted : Sample.clicked.minted = [Sample.permit] := by decide +kernel
  have hcalls : (enteredCalls Sample.clicked.log).map (fun call => call.request.sessionKey) = ["b"] := by decide +kernel
  obtain ⟨call, hcall, hkey⟩ := List.mem_map.mp (hcalls ▸ List.mem_cons_self : "b" ∈ (enteredCalls Sample.clicked.log).map _)
  obtain ⟨newer, older, hlog⟩ := List.append_of_mem (mem_enteredCalls.mp hcall)
  obtain ⟨-, permit, hpermit, -, -, -, -, -, -, hclaims⟩ := hsafe.permitted newer older call hlog
  rw [hminted, List.mem_singleton] at hpermit
  rw [hpermit, hkey] at hclaims
  have hdigest : claimsOf Sample.world "b" call.request.scope = "b" := rfl
  rw [hdigest] at hclaims
  exact absurd hclaims (by decide)

end ComputerUse

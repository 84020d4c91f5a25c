import Yuizaki.Lib.Run
import Yuizaki.Connector.Lock

/- No blind resend to QQ.

   The workers of a run are armed by grants and disarmed by their POSTs, so there are
   no more POSTs than grants (`posts_le_grants`). A grant locks its QQ row, a locked
   row is not granted, and only an unlock ends a lock, so there is at most one grant
   more than there are unlocks (`grants_le_unlocks`). While a lock lasts the row stays
   as it is or is delivered (`locked_run`), and a POST whose outcome is not known is
   the last thing its worker does (`unknown_outcome_move`). -/
namespace Connector

open Transition TurnStore

/-! ## Keys of events -/

/-- The connectors events are received for. -/
def connectorIds : List String := ["telegram", "discord", "qq", "wechat"]

/-- `f"connector:{connector_id}:{event_id}"`. -/
def eventKey (connectorId eventId : String) : String :=
  "connector:" ++ connectorId ++ ":" ++ eventId

/-- An event's worker works under the key of its event; a retry is given any key. -/
def Worker.keyed (w : Worker) : Prop :=
  w.kind = .event →
    w.connectorId ∈ connectorIds ∧ w.deliveryKey.text = eventKey w.connectorId w.eventId

theorem eventKey_connector {connectorId eventId eventId' : String}
    (hmem : connectorId ∈ connectorIds)
    (h : eventKey connectorId eventId = eventKey "qq" eventId') : connectorId = "qq" := by
  have hlist := congrArg String.toList h
  simp only [connectorIds, List.mem_cons, List.not_mem_nil, or_false] at hmem
  rcases hmem with rfl | rfl | rfl | rfl
  · simp [eventKey] at hlist
  · simp [eventKey] at hlist
  · rfl
  · simp [eventKey] at hlist

/-! ## Grants, unlocks and POSTs of a run -/

section Counts

variable {ι : Type}

/-- How often a run lets a worker POST for the key. -/
def grants (key : String) (hist : List (RouteLabel ι)) : ℕ :=
  hist.countP (fun l => l.call.bind sendGrant = some key)

/-- How often a run frees the key for another send. -/
def unlocks (key : String) (hist : List (RouteLabel ι)) : ℕ :=
  hist.countP (fun l => l.call.bind unlock = some key)

def RouteLabel.actor : RouteLabel ι → Option ι
  | .worker i _ _ => some i
  | .operator _ _ => none

/-- The worker of the key that POSTs in a step. -/
def poster (workers : ι → Worker) (key : String) : RouteLabel ι → Option ι
  | .worker i .post _ => if (workers i).deliveryKey.text = key then some i else none
  | _ => none

/-- The workers of the key that POST in a run, one entry a POST. -/
def posters (workers : ι → Worker) (key : String) (hist : List (RouteLabel ι)) : List ι :=
  hist.filterMap (poster workers key)

def ArmedFor (workers : ι → Worker) (key : String) (sys : RouteSystem ι) (i : ι) : Prop :=
  (workers i).deliveryKey.text = key ∧ (sys.phase i).armed

variable {workers : ι → Worker} {key : String} {l : RouteLabel ι} {hist : List (RouteLabel ι)}

theorem grants_cons : grants key (l :: hist) =
    grants key hist + if l.call.bind sendGrant = some key then 1 else 0 := by
  simp [grants, List.countP_cons]

theorem unlocks_cons : unlocks key (l :: hist) =
    unlocks key hist + if l.call.bind unlock = some key then 1 else 0 := by
  simp [unlocks, List.countP_cons]

theorem posters_cons : posters workers key (l :: hist) =
    (poster workers key l).toList ++ posters workers key hist := by
  unfold posters
  rw [List.filterMap_cons]
  cases poster workers key l <;> rfl

theorem initial_not_armed (i : ι) : ¬ ArmedFor workers key (RouteSystem.initial workers) i := by
  intro harmed
  have hstart : (workers i).start.armed := harmed.2
  unfold Worker.start at hstart
  split at hstart <;> exact hstart

end Counts

section System

variable {ι : Type} [DecidableEq ι] {workers : ι → Worker} {key : String}
  {sys sys' sys₀ : RouteSystem ι} {l : RouteLabel ι} {hist later : List (RouteLabel ι)}

/-! ## What one step does -/

theorem RouteStep.store (h : RouteStep workers sys l sys') :
    callStep sys.store l.call sys'.store := by
  cases l with
  | worker i action call =>
    obtain ⟨m, -, -, hstore, -⟩ := h
    exact hstore
  | operator call answer => exact h.1

theorem callStep_cases {s s' : Store} {call : Option (DeliveryOp × DeliveryAnswer)}
    (h : callStep s call s') :
    (call = none ∧ s' = s) ∨
    ∃ op answer, call = some (op, answer) ∧ DeliveryMove s op answer s' := by
  cases call with
  | none => exact Or.inl ⟨rfl, h⟩
  | some c => exact Or.inr ⟨c.1, c.2, rfl, applyDelivery_move h⟩

theorem armed_step (h : RouteStep workers sys l sys') {i : ι}
    (harmed : ArmedFor workers key sys' i) :
    (ArmedFor workers key sys i ∧ poster workers key l ≠ some i) ∨
      (l.call.bind sendGrant = some key ∧ l.actor = some i) := by
  obtain ⟨hkey, hphase'⟩ := harmed
  cases l with
  | operator call answer =>
    refine Or.inl ⟨⟨hkey, ?_⟩, by simp [poster]⟩
    rw [← h.2]
    exact hphase'
  | worker j action call =>
    obtain ⟨m, hm, hcall, -, hphase⟩ := h
    rw [hphase] at hphase'
    by_cases hij : i = j
    · subst hij
      rw [Function.update_self] at hphase'
      rcases (workerStep_spec hm).next (call.map Prod.snd |>.getD (.changed false)) with
        hq | ⟨-, op, hop, hg⟩
      · exact absurd hphase' (WorkerPhase.quiet_not_armed hq)
      · right
        rw [hop] at hcall
        obtain ⟨c, rfl, rfl⟩ := Option.map_eq_some_iff.mp hcall
        rw [← hkey]
        exact ⟨hg, rfl⟩
    · rw [Function.update_of_ne hij] at hphase'
      refine Or.inl ⟨⟨hkey, hphase'⟩, ?_⟩
      intro hpost
      unfold poster at hpost
      split at hpost
      · rename_i heq
        cases heq
        split at hpost
        · cases hpost
          exact hij rfl
        · cases hpost
      · cases hpost

theorem poster_armed (h : RouteStep workers sys l sys') {i : ι}
    (hpost : poster workers key l = some i) :
    ArmedFor workers key sys i ∧ l.call = none := by
  unfold poster at hpost
  split at hpost
  · rename_i j call
    split at hpost
    · rename_i hkey
      cases hpost
      obtain ⟨m, hm, hcall, -, -⟩ := h
      obtain ⟨harmed, hnone⟩ := (workerStep_spec hm).post rfl
      rw [hnone, Option.map_eq_none_iff] at hcall
      exact ⟨⟨hkey, harmed⟩, hcall⟩
    · cases hpost
  · cases hpost

/-! ## No more POSTs than grants -/

theorem posts_outstanding (hrun : Run (RouteStep workers) sys₀ hist sys)
    (h0 : ∀ i, ¬ ArmedFor workers key sys₀ i) :
    ∃ outstanding : List ι, (∀ i, ArmedFor workers key sys i → i ∈ outstanding) ∧
      (posters workers key hist).length + outstanding.length ≤ grants key hist := by
  induction hrun with
  | start => exact ⟨[], fun i harmed => absurd harmed (h0 i), Nat.le_refl _⟩
  | @next hist sys sys' l _ hstep ih =>
    obtain ⟨outstanding, hmem, hle⟩ := ih
    rw [posters_cons, grants_cons, List.length_append]
    cases hpost : poster workers key l with
    | some j =>
      -- a POST takes its worker off the list
      obtain ⟨harmed, hcall⟩ := poster_armed hstep hpost
      refine ⟨outstanding.erase j, ?_, ?_⟩
      · intro i hi
        rcases armed_step hstep hi with ⟨hbefore, hne⟩ | ⟨hgrant, -⟩
        · have hij : i ≠ j := fun h => hne (h ▸ hpost)
          exact (List.mem_erase_of_ne hij).mpr (hmem i hbefore)
        · rw [hcall] at hgrant
          cases hgrant
      · have hlen := List.length_erase_add_one (hmem j harmed)
        rw [Option.toList_some, List.length_singleton]
        omega
    | none =>
      by_cases hgrant : l.call.bind sendGrant = some key
      · refine ⟨l.actor.toList ++ outstanding, ?_, ?_⟩
        · intro i hi
          rw [List.mem_append, Option.mem_toList]
          rcases armed_step hstep hi with ⟨hbefore, -⟩ | ⟨-, hactor⟩
          · exact Or.inr (hmem i hbefore)
          · exact Or.inl hactor
        · have hlen : l.actor.toList.length ≤ 1 := Option.length_toList_le
          rw [if_pos hgrant, List.length_append, Option.toList_none, List.length_nil]
          omega
      · refine ⟨outstanding, ?_, ?_⟩
        · intro i hi
          rcases armed_step hstep hi with ⟨hbefore, -⟩ | ⟨hnow, -⟩
          · exact hmem i hbefore
          · exact absurd hnow hgrant
        · rw [Option.toList_none, List.length_nil]
          omega

theorem posts_le_grants (hrun : Run (RouteStep workers) (RouteSystem.initial workers) hist sys) :
    (posters workers key hist).length ≤ grants key hist := by
  obtain ⟨outstanding, -, hle⟩ := posts_outstanding hrun initial_not_armed
  exact Nat.le_trans (Nat.le_add_right _ _) hle

/-! ## No more grants than unlocks, and one -/

/-- Every row of the key is QQ's, and so is every worker of it that may write one; a
rejection held by one of them is explicit. -/
structure KeyQQ (workers : ι → Worker) (key : String) (sys : RouteSystem ι) : Prop where
  rows : RowsQQ sys.store key
  writers : ∀ i, (workers i).deliveryKey.text = key →
    (workers i).connectorId = "qq" ∨ (sys.phase i).idle
  reasons : ∀ i reason, (workers i).deliveryKey.text = key → sys.phase i = .rejected reason →
    reason ∈ explicitReasons

omit [DecidableEq ι] in
theorem keyQQ_initial (eventId : String) (hkeyed : ∀ i, (workers i).keyed) :
    KeyQQ workers (eventKey "qq" eventId) (RouteSystem.initial workers) where
  rows := by
    intro row hrow
    cases hrow
  writers := by
    intro i hkey
    cases hkind : (workers i).kind with
    | event =>
      obtain ⟨hmem, htext⟩ := hkeyed i hkind
      rw [htext] at hkey
      exact Or.inl (eventKey_connector hmem hkey)
    | retry =>
      right
      simp only [RouteSystem.initial, Worker.start, hkind]
      trivial
  reasons := by
    intro i reason _ hphase
    simp only [RouteSystem.initial, Worker.start] at hphase
    split at hphase <;> cases hphase

omit [DecidableEq ι] in
theorem KeyQQ.move (hinv : KeyQQ workers key sys) {i : ι} {action : WorkerAction} {m : Move}
    (hkey : (workers i).deliveryKey.text = key)
    (hm : workerStep (workers i) (sys.store.delivery (workers i).deliveryKey.text) (sys.phase i)
      action = some m) :
    (workers i).connectorId = "qq" ∨ ((∀ op, m.1 ≠ some op) ∧ ∀ answer, (m.2 answer).idle) := by
  by_cases hqq : (workers i).connectorId = "qq"
  · exact Or.inl hqq
  right
  have hidle : (sys.phase i).idle := (hinv.writers i hkey).resolve_left hqq
  refine idle_step hidle ?_ hm
  intro row hrow hconnector
  rw [hkey] at hrow
  rw [← hconnector] at hqq
  exact hqq (hinv.rows row hrow)

theorem KeyQQ.writes (hinv : KeyQQ workers key sys) (h : RouteStep workers sys l sys')
    {op : DeliveryOp} {answer : DeliveryAnswer} (hcall : l.call = some (op, answer))
    (htarget : target op = key) {c : String} (hc : writesConnector op = some c) : c = "qq" := by
  cases l with
  | operator call answer' =>
    cases hcall
    cases call <;> cases hc
  | worker i action call =>
    obtain ⟨m, hm, hfst, -, -⟩ := h
    change call = some (op, answer) at hcall
    rw [hcall] at hfst
    obtain ⟨hown, hconn⟩ := (workerStep_spec hm).own op hfst.symm
    rcases hinv.move (hown.symm.trans htarget) hm with hqq | ⟨hnone, -⟩
    · exact (hconn c hc).trans hqq
    · exact absurd hfst.symm (hnone op)

theorem keyQQ_step (hinv : KeyQQ workers key sys) (h : RouteStep workers sys l sys') :
    KeyQQ workers key sys' where
  rows := by
    rcases callStep_cases h.store with ⟨-, hsame⟩ | ⟨op, answer, hcall, hmove⟩
    · rw [hsame]
      exact hinv.rows
    · exact rowsQQ_call hmove hinv.rows (fun ht c hc => hinv.writes h hcall ht hc)
  writers := by
    intro i hkey
    cases l with
    | operator call answer =>
      rw [h.2]
      exact hinv.writers i hkey
    | worker j action call =>
      obtain ⟨m, hm, -, -, hphase⟩ := h
      rw [hphase]
      by_cases hij : i = j
      · subst hij
        rw [Function.update_self]
        rcases hinv.move hkey hm with hqq | ⟨-, hidle⟩
        · exact Or.inl hqq
        · exact Or.inr (hidle _)
      · rw [Function.update_of_ne hij]
        exact hinv.writers i hkey
  reasons := by
    intro i reason hkey hrej
    cases l with
    | operator call answer =>
      rw [h.2] at hrej
      exact hinv.reasons i reason hkey hrej
    | worker j action call =>
      obtain ⟨m, hm, -, -, hphase⟩ := h
      rw [hphase] at hrej
      by_cases hij : i = j
      · subst hij
        rw [Function.update_self] at hrej
        rcases hinv.move hkey hm with hqq | ⟨-, hidle⟩
        · rcases (workerStep_spec hm).next (call.map Prod.snd |>.getD (.changed false)) with
            hquiet | ⟨harmed, -⟩
          · rw [Move.next] at hrej
            rw [hrej] at hquiet
            exact hquiet hqq
          · rw [Move.next] at hrej
            rw [hrej] at harmed
            exact harmed.elim
        · have hafter := hidle (call.map Prod.snd |>.getD (.changed false))
          rw [Move.next] at hrej
          rw [hrej] at hafter
          exact hafter.elim
      · rw [Function.update_of_ne hij] at hrej
        exact hinv.reasons i reason hkey hrej

theorem keyQQ_run (hrun : Run (RouteStep workers) sys₀ hist sys)
    (hinv : KeyQQ workers key sys₀) : KeyQQ workers key sys :=
  hrun.invariant hinv (fun _ _ _ h hstep => keyQQ_step h hstep)

/-- An unlock is an operator's, or records an explicit rejection. -/
def ExplicitUnlock (key : String) (l : RouteLabel ι) : Prop :=
  (∃ now k outcome answer, l = .operator (.resolve now k outcome) answer) ∨
  ∃ i action now owner reason answer, reason ∈ explicitReasons ∧
    l = .worker i action (some (.fail now key owner reason, answer))

theorem unlock_explicit (hinv : KeyQQ workers key sys) (h : RouteStep workers sys l sys')
    (hunlock : l.call.bind unlock = some key) : ExplicitUnlock key l := by
  obtain ⟨⟨op, answer⟩, hcall, hfrees⟩ := Option.bind_eq_some_iff.mp hunlock
  cases l with
  | operator call answer' =>
    cases hcall
    cases call with
    | resolve now k outcome => exact Or.inl ⟨now, k, outcome, answer, rfl⟩
    | reset now k => cases hfrees
    | recoverStale now k => cases hfrees
  | worker i action call =>
    obtain ⟨m, hm, hfst, -, -⟩ := h
    change call = some (op, answer) at hcall
    rw [hcall] at hfst
    obtain ⟨now, reason, hphase, rfl⟩ :=
      (workerStep_spec hm).unlocks op answer key hfst.symm hfrees
    have hkey : (workers i).deliveryKey.text = key := by
      unfold unlock at hfrees
      split at hfrees
      · rename_i heq
        cases heq
        exact Option.some.inj hfrees
      · rename_i heq
        cases heq
      · cases hfrees
    have hreason := hinv.reasons i reason hkey hphase
    rw [hkey] at hcall
    rw [hcall]
    exact Or.inr ⟨i, action, now, _, reason, answer, hreason, rfl⟩

theorem grants_le_unlocks (hrun : Run (RouteStep workers) sys₀ hist sys)
    (hinv : KeyQQ workers key sys₀) :
    (Locked sys.store key ∨ grants key hist ≤ unlocks key hist) ∧
      grants key hist ≤ unlocks key hist + 1 := by
  induction hrun with
  | start => exact ⟨Or.inr (Nat.le_refl _), Nat.zero_le _⟩
  | @next hist sys sys' l hrun hstep ih =>
    obtain ⟨hlock, hle⟩ := ih
    have hrows := (keyQQ_step (keyQQ_run hrun hinv) hstep).rows
    rw [grants_cons, unlocks_cons]
    rcases callStep_cases hstep.store with ⟨hcall, hsame⟩ | ⟨op, answer, hcall, hmove⟩
    · rw [hcall, hsame]
      exact ⟨hlock, hle⟩
    rw [hcall, Option.bind_some, Option.bind_some]
    by_cases hgrant : sendGrant (op, answer) = some key
    · -- a granted key was not locked, so every earlier grant was unlocked
      have hbefore := hlock.resolve_left (grant_unlocked hmove hgrant)
      rw [if_pos hgrant]
      exact ⟨Or.inl (grant_locks hmove hrows hgrant), by omega⟩
    rw [if_neg hgrant]
    by_cases hunlock : unlock (op, answer) = some key
    · rw [if_pos hunlock]
      exact ⟨Or.inr hle, by omega⟩
    rw [if_neg hunlock]
    refine ⟨?_, hle⟩
    rcases hlock with ⟨row, hrow, hlocked⟩ | hbefore
    · exact Or.inl ((locked_call hmove hrow hlocked hunlock).2.locked hlocked)
    · exact Or.inr hbefore

/-! ## While a lock lasts -/

theorem locked_run {row : DeliveryRow} (hrun : Run (RouteStep workers) sys later sys')
    (hrow : sys.store.delivery key = some row) (hlock : DeliveryRow.locked row)
    (hno : unlocks key later = 0) :
    grants key later = 0 ∧ StaysLocked sys'.store key row := by
  induction hrun with
  | start => exact ⟨rfl, staysLocked_same hrow⟩
  | @next later sys₁ sys₂ l _ hstep ih =>
    rw [unlocks_cons] at hno
    obtain ⟨hgrants, hstays⟩ := ih (Nat.eq_zero_of_add_eq_zero_right hno)
    rw [grants_cons, hgrants, Nat.zero_add]
    rcases callStep_cases hstep.store with ⟨hcall, hsame⟩ | ⟨op, answer, hcall, hmove⟩
    · rw [hcall, hsame]
      exact ⟨rfl, hstays⟩
    have hunlock : unlock (op, answer) ≠ some key := by
      intro h
      rw [hcall, Option.bind_some, if_pos h] at hno
      omega
    obtain ⟨row', hrow', hlock'⟩ := hstays.locked hlock
    obtain ⟨hgrant, hnext⟩ := locked_call hmove hrow' hlock' hunlock
    rw [hcall, Option.bind_some, if_neg hgrant]
    refine ⟨rfl, hstays.trans ?_⟩
    intro row₁ hrow₁
    rw [hrow'] at hrow₁
    cases hrow₁
    exact hnext

theorem posters_run (hrun : Run (RouteStep workers) sys later sys')
    (hno : grants key later = 0) :
    (posters workers key later).Nodup ∧
      (∀ i ∈ posters workers key later, ArmedFor workers key sys i) ∧
      ∀ i, ArmedFor workers key sys' i →
        ArmedFor workers key sys i ∧ i ∉ posters workers key later := by
  induction hrun with
  | start =>
    refine ⟨List.nodup_nil, ?_, ?_⟩
    · intro i hi
      cases hi
    · intro i hi
      exact ⟨hi, List.not_mem_nil⟩
  | @next later sys₁ sys₂ l _ hstep ih =>
    rw [grants_cons] at hno
    obtain ⟨hnodup, hmem, harmed⟩ := ih (Nat.eq_zero_of_add_eq_zero_right hno)
    have hnow : l.call.bind sendGrant ≠ some key := by
      intro h
      rw [if_pos h] at hno
      omega
    have hstill : ∀ i, ArmedFor workers key sys₂ i →
        ArmedFor workers key sys₁ i ∧ poster workers key l ≠ some i := by
      intro i hi
      exact (armed_step hstep hi).resolve_right (fun h => hnow h.1)
    rw [posters_cons]
    cases hpost : poster workers key l with
    | none =>
      refine ⟨hnodup, hmem, ?_⟩
      intro i hi
      exact harmed i (hstill i hi).1
    | some j =>
      obtain ⟨hj, hnotin⟩ := harmed j (poster_armed hstep hpost).1
      refine ⟨List.nodup_cons.mpr ⟨hnotin, hnodup⟩, ?_, ?_⟩
      · intro i hi
        rcases List.mem_cons.mp hi with rfl | hi
        · exact hj
        · exact hmem i hi
      · intro i hi
        obtain ⟨hbefore, hne⟩ := hstill i hi
        obtain ⟨hsys, hnot⟩ := harmed i hbefore
        refine ⟨hsys, ?_⟩
        intro h
        rcases List.mem_cons.mp h with rfl | h
        · exact hne hpost
        · exact hnot h

/-! ## POSTs whose outcome is not known -/

/-- The worker does not learn what its POST did: it is cancelled or crashes, the
transport fails, or the answer is itself unknown. -/
def UnknownOutcome (w : Worker) : WorkerAction → Prop
  | .cancelled | .crash => True
  | .returned attempt => attempt = .lost ∨ attempt = .notReached ∨
    classify (sendReply w.connectorId w.protocol attempt) = .unknown
  | _ => False

theorem unknown_outcome_move {w : Worker} {row : Option DeliveryRow} {reply : String}
    {action : WorkerAction} {m : Move} (hqq : w.connectorId = "qq")
    (hunknown : UnknownOutcome w action)
    (hm : workerStep w row (.posting reply) action = some m) : m = goto .done := by
  cases action with
  | call | turn | post | emptyReply => exact hunknown.elim
  | crash => exact (Option.some.inj hm).symm
  | cancelled =>
    simp only [workerStep] at hm
    rw [if_neg (fun h => h.2 hqq)] at hm
    exact (Option.some.inj hm).symm
  | returned attempt =>
    simp only [workerStep] at hm
    cases hm
    rcases hunknown with rfl | rfl | hclass
    · rw [hqq, classify_lost]
      rfl
    · rw [hqq]
      exact if_pos hqq
    · rw [hclass]
      rfl

theorem done_step (h : RouteStep workers sys l sys') {i : ι} (hdone : sys.phase i = .done) :
    sys'.phase i = .done ∧ ∀ action call, l = .worker i action call → call = none := by
  cases l with
  | operator call answer =>
    rw [h.2]
    exact ⟨hdone, fun action call heq => by cases heq⟩
  | worker j action call =>
    obtain ⟨m, hm, hcall, -, hphase⟩ := h
    rw [hphase]
    by_cases hij : i = j
    · subst hij
      rw [hdone] at hm
      have hcrash : m = goto .done := by
        cases action with
        | crash => exact (Option.some.inj hm).symm
        | call | turn | post | emptyReply | returned | cancelled => cases hm
      subst hcrash
      rw [Function.update_self]
      refine ⟨rfl, ?_⟩
      intro action' call' heq
      cases heq
      exact Option.map_eq_none_iff.mp hcall
    · rw [Function.update_of_ne hij]
      refine ⟨hdone, ?_⟩
      intro action' call' heq
      cases heq
      exact absurd rfl hij

theorem done_run (hrun : Run (RouteStep workers) sys later sys') {i : ι}
    (hdone : sys.phase i = .done) :
    sys'.phase i = .done ∧ ∀ action call, .worker i action call ∈ later → call = none := by
  induction hrun with
  | start => exact ⟨hdone, fun action call h => by cases h⟩
  | @next later sys₁ sys₂ l _ hstep ih =>
    obtain ⟨hbefore, hcalls⟩ := ih
    obtain ⟨hafter, hcall⟩ := done_step hstep hbefore
    refine ⟨hafter, ?_⟩
    intro action call h
    rcases List.mem_cons.mp h with heq | h
    · exact hcall action call heq.symm
    · exact hcalls action call h

/-- In every run of workers, operators, crashes and expiring leases, a QQ reply is POSTed
at most once more than its row was freed, and it is freed only by an operator or by its
holder's record of an explicit rejection. Once the row is sending, and as long as it is
not freed, no call lets a worker POST it again: what is POSTed was let before, each
once, and the row stays, unless it is delivered. A worker that does not learn what its
POST did leaves the row as it is and makes no call any more. -/
theorem qq_no_blind_resend {eventId : String} (hkeyed : ∀ i, (workers i).keyed)
    (hrun : Run (RouteStep workers) (RouteSystem.initial workers) hist sys) :
    (posters workers (eventKey "qq" eventId) hist).length ≤
      unlocks (eventKey "qq" eventId) hist + 1 ∧
    (∀ l sys', RouteStep workers sys l sys' →
      l.call.bind unlock = some (eventKey "qq" eventId) →
      ExplicitUnlock (eventKey "qq" eventId) l) ∧
    (∀ row later sys', sys.store.delivery (eventKey "qq" eventId) = some row →
      row.status = .sending → Run (RouteStep workers) sys later sys' →
      unlocks (eventKey "qq" eventId) later = 0 →
      grants (eventKey "qq" eventId) later = 0 ∧
      (posters workers (eventKey "qq" eventId) later).Nodup ∧
      (∀ i ∈ posters workers (eventKey "qq" eventId) later, (sys.phase i).armed) ∧
      ∃ row', sys'.store.delivery (eventKey "qq" eventId) = some row' ∧
        row'.replyText = row.replyText ∧ (row' = row ∨ row'.status = .delivered)) ∧
    (∀ i reply action call sys', (workers i).deliveryKey.text = eventKey "qq" eventId →
      sys.phase i = .posting reply → UnknownOutcome (workers i) action →
      RouteStep workers sys (.worker i action call) sys' →
      sys'.store = sys.store ∧
      ∀ later sys'', Run (RouteStep workers) sys' later sys'' →
        ∀ action call, .worker i action call ∈ later → call = none) := by
  have hinit := keyQQ_initial eventId hkeyed
  have hinv := keyQQ_run hrun hinit
  refine ⟨?_, ?_, ?_, ?_⟩
  · exact Nat.le_trans (posts_le_grants hrun) (grants_le_unlocks hrun hinit).2
  · intro l sys' hstep hunlock
    exact unlock_explicit hinv hstep hunlock
  · intro row later sys' hrow hst hlater hno
    have hlock : DeliveryRow.locked row := Or.inl ⟨hst, hinv.rows row hrow⟩
    obtain ⟨hgrants, row', hrow', -, hreply, hsame⟩ := locked_run hlater hrow hlock hno
    obtain ⟨hnodup, harmed, -⟩ := posters_run hlater hgrants
    exact ⟨hgrants, hnodup, fun i hi => (harmed i hi).2, row', hrow', hreply, hsame⟩
  · intro i reply action call sys' hkey hphase hunknown hstep
    have hqq : (workers i).connectorId = "qq" := by
      refine (hinv.writers i hkey).resolve_right ?_
      rw [hphase]
      exact id
    obtain ⟨m, hm, hcall, hstore, hphase'⟩ := hstep
    rw [hphase] at hm
    obtain rfl := unknown_outcome_move hqq hunknown hm
    obtain rfl := Option.map_eq_none_iff.mp hcall
    refine ⟨hstore, ?_⟩
    intro later sys'' hlater
    refine (done_run hlater ?_).2
    rw [hphase', Function.update_self]
    rfl

/-! ## Running workers -/

def act (workers : ι → Worker) (sys : RouteSystem ι) (i : ι) (action : WorkerAction) :
    Option (RouteLabel ι × RouteSystem ι) := do
  let m ← workerStep (workers i) (sys.store.delivery (workers i).deliveryKey.text)
    (sys.phase i) action
  match m.1 with
  | none =>
    let phase := Function.update sys.phase i (m.next none)
    some (.worker i action none, { sys with phase })
  | some op =>
    let answered := applyDelivery sys.store op
    let call := some (op, answered.2)
    let phase := Function.update sys.phase i (m.next call)
    some (.worker i action call, { store := answered.1, phase })

def acts (workers : ι → Worker) (sys : RouteSystem ι) :
    List (ι × WorkerAction) → Option (List (RouteLabel ι) × RouteSystem ι)
  | [] => some ([], sys)
  | (i, action) :: rest => do
    let (l, sys') ← act workers sys i action
    let (later, sys'') ← acts workers sys' rest
    some (later ++ [l], sys'')

theorem act_step {i : ι} {action : WorkerAction}
    (h : act workers sys i action = some (l, sys')) : RouteStep workers sys l sys' := by
  obtain ⟨m, hm, h⟩ := Option.bind_eq_some_iff.mp h
  split at h
  · rename_i hnone
    cases h
    exact ⟨m, hm, hnone.symm, rfl, rfl⟩
  · rename_i op hop
    cases h
    exact ⟨m, hm, hop.symm, rfl, rfl⟩

theorem acts_run {steps : List (ι × WorkerAction)}
    (h : acts workers sys steps = some (later, sys')) :
    Run (RouteStep workers) sys later sys' := by
  induction steps generalizing sys later with
  | nil =>
    cases h
    exact Run.start
  | cons step rest ih =>
    obtain ⟨⟨l, sys₁⟩, hact, h⟩ := Option.bind_eq_some_iff.mp h
    obtain ⟨⟨later₁, sys₂⟩, hrest, h⟩ := Option.bind_eq_some_iff.mp h
    cases h
    exact (Run.next Run.start (act_step hact)).append (ih hrest)

end System

/-- The worker of a QQ event, and a retry of it by hand. -/
def qqWorkers : Bool → Worker := fun retry =>
  { kind := if retry then .retry else .event
    connectorId := "qq"
    protocol := "onebot11"
    deliveryKey := ⟨"connector:qq:e1", by decide +kernel, by decide⟩
    owner := if retry then ⟨"manual-retry:2", by decide +kernel, by decide⟩
      else ⟨"connector-owner:1", by decide +kernel, by decide⟩
    idempotencyKey := "connector:qq:e1"
    eventId := "e1"
    message := .obj [] }

/-- The reply of the event is lost on its way; the retry finds the row sending. -/
def lostReply : List (Bool × WorkerAction) :=
  [(false, .call 0), (false, .turn 1 (.completed false "hello")), (false, .call 2),
    (false, .post), (false, .returned .lost), (true, .call 100)]

theorem qq_no_blind_resend_lost : ∃ hist sys,
    Run (RouteStep qqWorkers) (RouteSystem.initial qqWorkers) hist sys ∧
    posters qqWorkers (eventKey "qq" "e1") hist = [false] ∧
    (posters qqWorkers (eventKey "qq" "e1") hist).length ≤
      unlocks (eventKey "qq" "e1") hist + 1 := by
  have heval : (acts qqWorkers (RouteSystem.initial qqWorkers) lostReply).map
      (fun r => posters qqWorkers (eventKey "qq" "e1") r.1) = some [false] := by
    decide +kernel
  obtain ⟨⟨hist, sys⟩, hacts, hposters⟩ := Option.map_eq_some_iff.mp heval
  have hrun := acts_run hacts
  have hkeyed : ∀ i, (qqWorkers i).keyed := by
    intro i _
    cases i <;> decide +kernel
  exact ⟨hist, sys, hrun, hposters, (qq_no_blind_resend hkeyed hrun).1⟩

end Connector

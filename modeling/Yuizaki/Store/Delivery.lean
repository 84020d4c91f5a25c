import Yuizaki.Store.Dispatcher

/- What a settled event has been through.

   A delivered event has every registered projection acknowledged, a dead-lettered
   one has a projection that is not, and the attempt counter stays within its bound.
   The step that needs an argument is the failure of an event: the worker that
   records it must know of every acknowledgement, or an event whose projections are
   all done could be dead-lettered. As long as a worker's claim is in the row and
   the event is pending, no one else can acknowledge a projection of it
   (`Undisturbed`), so the worker's local copy is complete (`LocalAcks.fresh`);
   once the claim is gone, its failure report changes nothing. -/
namespace TurnStore

open Transition

section Delivery

variable {cfg : OutboxConfig} {s s' : Store} {w w' : String}

/-! ## Rows -/

/-- What holds of one row under the acknowledgements of its event. -/
structure RowInv (cfg : OutboxConfig) (acks : Finset (ℕ × String)) (eventId : ℕ)
    (row : OutboxRow) : Prop where
  deliveredAcked : row.deliveredAt ≠ none → ∀ name ∈ cfg.projections, (eventId, name) ∈ acks
  deadUnacked : row.deadLetteredAt ≠ none → ∃ name ∈ cfg.projections, (eventId, name) ∉ acks
  attempts : row.attemptCount ≤ cfg.maxAttempts
  attemptsLeft : row.pending = true → row.attemptCount < cfg.maxAttempts

def RowsInv (cfg : OutboxConfig) (s : Store) : Prop :=
  ∀ x ∈ s.turnOutbox.entries, RowInv cfg s.projectionAcks x.id x.row

theorem RowsInv.modify {eventId : ℕ} {f : OutboxRow → OutboxRow} (h : RowsInv cfg s)
    (hf : ∀ x ∈ s.turnOutbox.entries, x.id = eventId →
      RowInv cfg s.projectionAcks x.id x.row → RowInv cfg s.projectionAcks x.id (f x.row)) :
    RowsInv cfg (s.modifyEvent eventId f) := by
  intro x' hx'
  obtain ⟨x, hx, rfl⟩ := Store.mem_modifyEvent.mp hx'
  rw [Journal.Entry.modify_id, Journal.Entry.modify_row]
  have hrow := h x hx
  split
  · rename_i hid
    exact hf x hx hid hrow
  · exact hrow

theorem RowInv.failed {acks : Finset (ℕ × String)} {eventId : ℕ} {row : OutboxRow} {now delay : ℚ}
    {error : String} (h : RowInv cfg acks eventId row) (hp : row.pending = true)
    (hopen : ∃ name ∈ cfg.projections, (eventId, name) ∉ acks) :
    RowInv cfg acks eventId (row.failed now error delay cfg.maxAttempts) := by
  have hleft := h.attemptsLeft hp
  have hpos := cfg.maxAttempts_pos
  refine ⟨h.deliveredAcked, fun _ => hopen, ?_, ?_⟩
  · show row.attemptCount + 1 ≤ cfg.maxAttempts
    omega
  · intro hpend
    show row.attemptCount + 1 < cfg.maxAttempts
    by_contra hge
    -- the last attempt is dead-lettered
    have hdead : max 1 cfg.maxAttempts ≤ row.attemptCount + 1 := by omega
    simp [OutboxRow.pending, OutboxRow.failed, hdead] at hpend

theorem RowInv.deliver {acks : Finset (ℕ × String)} {eventId : ℕ} {row : OutboxRow} {now : ℚ}
    {dropClaim : Bool} (h : RowInv cfg acks eventId row)
    (hall : ∀ name ∈ cfg.projections, (eventId, name) ∈ acks) :
    RowInv cfg acks eventId (row.deliver now dropClaim) := by
  obtain ⟨-, hdead, hatt⟩ := row.deliver_fields now dropClaim
  refine ⟨fun _ => hall, ?_, ?_, ?_⟩
  · rw [hdead]
    exact h.deadUnacked
  · rw [hatt]
    exact h.attempts
  · intro hpend
    rw [pending_deliver] at hpend
    cases hpend

/-! ## Dispatches -/

/-- A dispatch's copy of the acknowledgements: what it lists is recorded, and while
its worker holds the event it lists all. -/
structure LocalAcks (s : Store) (w : String) (eventId : ℕ) (acked : Finset String) : Prop where
  sound : ∀ name ∈ acked, (eventId, name) ∈ s.projectionAcks
  fresh : Holds s w eventId → ∀ name, (eventId, name) ∈ s.projectionAcks → name ∈ acked

/-- What holds of a dispatch of worker `w`. -/
def PhaseInv (cfg : OutboxConfig) (s : Store) (w : String) : Phase → Prop
  | .idle => True
  | .claimed _ => True
  | .delivering event acked rest =>
    LocalAcks s w event.eventId acked ∧ ∀ name ∈ rest, name ∈ cfg.projections
  | .invoking event acked name rest =>
    LocalAcks s w event.eventId acked ∧ name ∉ acked ∧
      ∀ n ∈ name :: rest, n ∈ cfg.projections
  | .returned event acked name rest =>
    LocalAcks s w event.eventId acked ∧ name ∉ acked ∧
      ∀ n ∈ name :: rest, n ∈ cfg.projections
  | .failing event =>
    Holds s w event.eventId → ∃ name ∈ cfg.projections, (event.eventId, name) ∉ s.projectionAcks
  | .recovering _ _ => True
  | .confirming eventId => ∀ name ∈ cfg.projections, (eventId, name) ∈ s.projectionAcks

theorem LocalAcks.open {eventId : ℕ} {acked : Finset String} {name : String}
    (h : LocalAcks s w eventId acked) (hname : name ∉ acked) (hreg : name ∈ cfg.projections) :
    Holds s w eventId → ∃ n ∈ cfg.projections, (eventId, n) ∉ s.projectionAcks := by
  intro hheld
  exact ⟨name, hreg, fun hack => hname (h.fresh hheld name hack)⟩

/-- A step that gives worker `w` no new claim and, on the events it holds, records
no acknowledgement. -/
structure Undisturbed (w : String) (s s' : Store) : Prop where
  acksGrow : ∀ a ∈ s.projectionAcks, a ∈ s'.projectionAcks
  held : ∀ e, Holds s' w e → Holds s w e ∧
    ∀ name, (e, name) ∈ s'.projectionAcks → (e, name) ∈ s.projectionAcks

theorem Undisturbed.refl (w : String) (s : Store) : Undisturbed w s s where
  acksGrow := fun _ ha => ha
  held := fun _ hheld => ⟨hheld, fun _ hack => hack⟩

theorem Undisturbed.localAcks {eventId : ℕ} {acked : Finset String}
    (h : Undisturbed w s s') (hloc : LocalAcks s w eventId acked) :
    LocalAcks s' w eventId acked where
  sound := fun name hname => h.acksGrow _ (hloc.sound name hname)
  fresh := by
    intro hheld name hack
    obtain ⟨hheld', hacks⟩ := h.held eventId hheld
    exact hloc.fresh hheld' name (hacks name hack)

theorem Undisturbed.phase {phase : Phase} (h : Undisturbed w s s')
    (hinv : PhaseInv cfg s w phase) : PhaseInv cfg s' w phase := by
  cases phase with
  | idle | claimed | recovering => trivial
  | delivering event acked rest => exact ⟨h.localAcks hinv.1, hinv.2⟩
  | invoking event acked name rest => exact ⟨h.localAcks hinv.1, hinv.2⟩
  | returned event acked name rest => exact ⟨h.localAcks hinv.1, hinv.2⟩
  | failing event =>
    intro hheld
    obtain ⟨hheld', hacks⟩ := h.held event.eventId hheld
    obtain ⟨name, hreg, hopen⟩ := hinv hheld'
    exact ⟨name, hreg, fun hack => hopen (hacks name hack)⟩
  | confirming eventId => exact fun name hname => h.acksGrow _ (hinv name hname)

theorem undisturbed_modify {eventId : ℕ} {f : OutboxRow → OutboxRow}
    (hf : ∀ row : OutboxRow, (f row).claimedBy = some w → (f row).pending = true →
      row.claimedBy = some w ∧ row.pending = true) :
    Undisturbed w s (s.modifyEvent eventId f) where
  acksGrow := fun _ ha => ha
  held := by
    rintro e ⟨x', hx', hid, hclaim, hpend⟩
    refine ⟨?_, fun _ hack => hack⟩
    obtain ⟨x, hx, rfl⟩ := Store.mem_modifyEvent.mp hx'
    rw [Journal.Entry.modify_id] at hid
    rw [Journal.Entry.modify_row] at hclaim hpend
    split at hclaim
    · rename_i heq
      rw [if_pos heq] at hpend
      obtain ⟨hc, hp⟩ := hf x.row hclaim hpend
      exact ⟨x, hx, hid, hc, hp⟩
    · rename_i hne
      rw [if_neg hne] at hpend
      exact ⟨x, hx, hid, hclaim, hpend⟩

theorem Holds.unique {eventId : ℕ} (h : Holds s w eventId) (h' : Holds s w' eventId) :
    w = w' := by
  obtain ⟨x, hx, hid, hclaim, -⟩ := h
  obtain ⟨y, hy, hid', hclaim', -⟩ := h'
  have hxy : x = y := Journal.eq_of_id hx hy (hid.trans hid'.symm)
  rw [hxy, hclaim'] at hclaim
  exact (Option.some.inj hclaim).symm

/-! ## Moves -/

theorem DispatcherMove.undisturbed {d : Dispatcher} {phase phase' : Phase}
    (h : DispatcherMove cfg d s phase s' phase') (hw : d.workerId ≠ w) :
    Undisturbed w s s' := by
  cases h with
  | abandon | read | skip | start | returned | raised | refused | unrenewed | recover | confirm =>
    exact Undisturbed.refl w s
  | claimed =>
    apply undisturbed_modify
    intro row hclaim _
    exact absurd (Option.some.inj hclaim) hw
  | @acknowledged event acked name rest hheld =>
    refine ⟨fun a ha => Finset.mem_insert_of_mem ha, ?_⟩
    intro e hheld'
    refine ⟨hheld', ?_⟩
    intro n hack
    rcases Finset.mem_insert.mp hack with heq | hack
    · -- two workers would hold the event
      cases heq
      exact absurd (Holds.unique hheld hheld') hw
    · exact hack
  | failed =>
    apply undisturbed_modify
    intro row hclaim _
    cases hclaim
  | delivered | confirmed =>
    apply undisturbed_modify
    intro row _ hpend
    rw [pending_deliver] at hpend
    cases hpend
  | renewed =>
    apply undisturbed_modify
    intro row hclaim hpend
    exact ⟨hclaim, hpend⟩

theorem DispatcherMove.rows {d : Dispatcher} {phase phase' : Phase}
    (h : DispatcherMove cfg d s phase s' phase') (hrows : RowsInv cfg s)
    (hphase : PhaseInv cfg s d.workerId phase) : RowsInv cfg s' := by
  cases h with
  | abandon | read | skip | start | returned | raised | refused | unrenewed | recover | confirm =>
    exact hrows
  | claimed =>
    apply hrows.modify
    intro x _ _ hrow
    exact ⟨hrow.deliveredAcked, hrow.deadUnacked, hrow.attempts, hrow.attemptsLeft⟩
  | renewed =>
    apply hrows.modify
    intro x _ _ hrow
    exact ⟨hrow.deliveredAcked, hrow.deadUnacked, hrow.attempts, hrow.attemptsLeft⟩
  | @acknowledged event acked name rest hheld =>
    obtain ⟨y, hy, hyid, -, hyp⟩ := hheld
    intro x hx
    have hrow := hrows x hx
    refine ⟨?_, ?_, hrow.attempts, hrow.attemptsLeft⟩
    · intro hdel n hn
      exact Finset.mem_insert_of_mem (hrow.deliveredAcked hdel n hn)
    · intro hdead
      obtain ⟨n, hn, hopen⟩ := hrow.deadUnacked hdead
      refine ⟨n, hn, ?_⟩
      intro hack
      rcases Finset.mem_insert.mp hack with heq | hack
      · -- the acknowledged event is pending, so it is not this dead one
        have hid : x.id = event.eventId := congrArg Prod.fst heq
        rw [← Journal.eq_of_id hx hy (hid.trans hyid.symm)] at hyp
        simp [OutboxRow.pending, hdead] at hyp
      · exact hopen hack
  | @failed event now delay error hheld =>
    have hopen := hphase hheld
    obtain ⟨y, hy, hyid, -, hyp⟩ := hheld
    apply hrows.modify
    intro x hx hid hrow
    have hxy : x = y := Journal.eq_of_id hx hy (hid.trans hyid.symm)
    rw [← hid] at hopen
    rw [← hxy] at hyp
    exact hrow.failed hyp hopen
  | delivered hall =>
    apply hrows.modify
    intro x _ hid hrow
    refine hrow.deliver ?_
    intro name hname
    rw [hid]
    exact hphase.1.sound name (hall name hname)
  | confirmed =>
    apply hrows.modify
    intro x _ hid hrow
    refine hrow.deliver ?_
    intro name hname
    rw [hid]
    exact hphase name hname

theorem DispatcherMove.phase {d : Dispatcher} {phase phase' : Phase}
    (h : DispatcherMove cfg d s phase s' phase')
    (hphase : PhaseInv cfg s d.workerId phase) : PhaseInv cfg s' d.workerId phase' := by
  cases h with
  | abandon | claimed | failed | delivered | confirmed | recover => trivial
  | unrenewed => exact hphase
  | read =>
    refine ⟨⟨?_, ?_⟩, fun name hname => hname⟩
    · intro name hname
      exact mem_acknowledgedProjections.mp hname
    · intro _ name hack
      exact mem_acknowledgedProjections.mpr hack
  | skip => exact ⟨hphase.1, fun n hn => hphase.2 n (List.mem_cons_of_mem _ hn)⟩
  | start hname => exact ⟨hphase.1, hname, hphase.2⟩
  | returned => exact hphase
  | raised =>
    obtain ⟨hloc, hname, hreg⟩ := hphase
    exact hloc.open hname (hreg _ List.mem_cons_self)
  | refused =>
    obtain ⟨hloc, hname, hreg⟩ := hphase
    exact hloc.open hname (hreg _ List.mem_cons_self)
  | @acknowledged event acked name rest hheld =>
    obtain ⟨hloc, -, hreg⟩ := hphase
    refine ⟨⟨?_, ?_⟩, fun n hn => hreg n (List.mem_cons_of_mem _ hn)⟩
    · intro n hn
      rcases Finset.mem_insert.mp hn with rfl | hn
      · exact Finset.mem_insert_self _ _
      · exact Finset.mem_insert_of_mem (hloc.sound n hn)
    · intro hheld' n hack
      rcases Finset.mem_insert.mp hack with heq | hack
      · have hn : n = name := congrArg Prod.snd heq
        rw [hn]
        exact Finset.mem_insert_self _ _
      · exact Finset.mem_insert_of_mem (hloc.fresh hheld' n hack)
  | renewed =>
    refine Undisturbed.phase ?_ hphase
    apply undisturbed_modify
    intro row hclaim hpend
    exact ⟨hclaim, hpend⟩
  | confirm hall => exact hall

end Delivery

/-! ## Deliveries over a run -/

section System

variable {δ : Type} [DecidableEq δ] {cfg : OutboxConfig} {dispatchers : δ → Dispatcher}
  {sys sys' : OutboxSystem δ}

structure DeliveryInv (cfg : OutboxConfig) (dispatchers : δ → Dispatcher)
    (sys : OutboxSystem δ) : Prop where
  rows : RowsInv cfg sys.store
  phases : ∀ d, PhaseInv cfg sys.store (dispatchers d).workerId (sys.phase d)

omit [DecidableEq δ] in
theorem initial_delivery : DeliveryInv cfg dispatchers (OutboxSystem.initial δ) where
  rows := by
    intro x hx
    exact absurd hx Journal.mem_empty
  phases := fun _ => trivial

theorem persist_undisturbed {s s' : Store} {w epoch : String} {now : ℚ} {c : TurnCommit}
    (h : persist s epoch now c = .ok s') : Undisturbed w s s' := by
  obtain ⟨hacks, -, hentries⟩ := persist_outbox h
  refine ⟨fun a ha => hacks ▸ ha, ?_⟩
  rintro e ⟨x, hx, hid, hclaim, hpend⟩
  rw [hacks]
  rcases hentries x hx with hx | ⟨-, hrow⟩
  · exact ⟨⟨x, hx, hid, hclaim, hpend⟩, fun _ hack => hack⟩
  · rw [hrow] at hclaim
    cases hclaim

theorem persist_rows {s s' : Store} {epoch : String} {now : ℚ} {c : TurnCommit}
    (h : persist s epoch now c = .ok s') (hrows : RowsInv cfg s) : RowsInv cfg s' := by
  obtain ⟨hacks, -, hentries⟩ := persist_outbox h
  intro x hx
  rw [hacks]
  rcases hentries x hx with hx | ⟨-, hrow⟩
  · exact hrows x hx
  · rw [hrow]
    have hpos := cfg.maxAttempts_pos
    exact ⟨fun hd => absurd rfl hd, fun hd => absurd rfl hd, Nat.zero_le _, fun _ => hpos⟩

theorem step_delivery {l : OutboxLabel δ}
    (hworkers : Function.Injective (fun d => (dispatchers d).workerId))
    (hinv : DeliveryInv cfg dispatchers sys) (h : OutboxStep cfg dispatchers sys l sys') :
    DeliveryInv cfg dispatchers sys' := by
  cases l with
  | persist epoch now c =>
    obtain ⟨s', hp, rfl⟩ := h
    exact ⟨persist_rows hp hinv.rows, fun d => (persist_undisturbed hp).phase (hinv.phases d)⟩
  | dispatcher d action =>
    obtain ⟨s', phase', hd, rfl⟩ := h
    have hmove := dispatcherStep_move hd
    refine ⟨hmove.rows hinv.rows (hinv.phases d), ?_⟩
    intro d'
    by_cases hdd : d' = d
    · subst hdd
      simp only [Function.update_self]
      exact hmove.phase (hinv.phases d')
    · simp only [Function.update_of_ne hdd]
      have hw : (dispatchers d).workerId ≠ (dispatchers d').workerId :=
        fun heq => hdd (hworkers heq).symm
      exact (hmove.undisturbed hw).phase (hinv.phases d')

/-- **Delivery accounting.** With distinct worker ids, in every reachable state: a
delivered event has every registered projection acknowledged, no event is both
delivered and dead-lettered, the attempts stay within `max_attempts`, and an event
whose projections are all acknowledged is not dead-lettered. -/
theorem outbox_delivery {hist : List (OutboxLabel δ)}
    (hworkers : Function.Injective (fun d => (dispatchers d).workerId))
    (hrun : Run (OutboxStep cfg dispatchers) (OutboxSystem.initial δ) hist sys) :
    ∀ x ∈ sys.store.turnOutbox.entries,
      (x.row.deliveredAt ≠ none →
        ∀ name ∈ cfg.projections, (x.id, name) ∈ sys.store.projectionAcks) ∧
      ¬ (x.row.deliveredAt ≠ none ∧ x.row.deadLetteredAt ≠ none) ∧
      x.row.attemptCount ≤ cfg.maxAttempts ∧
      ((∀ name ∈ cfg.projections, (x.id, name) ∈ sys.store.projectionAcks) →
        x.row.deadLetteredAt = none) := by
  have hinv : DeliveryInv cfg dispatchers sys :=
    hrun.invariant initial_delivery (fun _ _ _ hI h => step_delivery hworkers hI h)
  intro x hx
  have hrow := hinv.rows x hx
  have halive : (∀ name ∈ cfg.projections, (x.id, name) ∈ sys.store.projectionAcks) →
      x.row.deadLetteredAt = none := by
    intro hall
    by_contra hdead
    obtain ⟨name, hname, hopen⟩ := hrow.deadUnacked hdead
    exact hopen (hall name hname)
  refine ⟨hrow.deliveredAcked, ?_, hrow.attempts, halive⟩
  intro hboth
  exact hboth.2 (halive (hrow.deliveredAcked hboth.1))

end System

theorem outbox_delivery_delivered : ∃ hist sys,
    Run (OutboxStep chatConfig chatDispatcher) (OutboxSystem.initial Unit) hist sys ∧
    sys.store.turnOutbox.entries.map (fun x => (x.id, x.row.pending)) =
      [(1, false), (2, true)] ∧
    ∀ x ∈ sys.store.turnOutbox.entries, x.row.deliveredAt ≠ none →
      (x.id, "chat") ∈ sys.store.projectionAcks := by
  obtain ⟨hist, sys, hrun, hpend⟩ := delivered_run
  refine ⟨hist, sys, hrun, hpend, ?_⟩
  intro x hx hdel
  have hworkers : Function.Injective (fun d => (chatDispatcher d).workerId) :=
    fun _ _ _ => rfl
  exact (outbox_delivery hworkers hrun x hx).1 hdel "chat" (by decide)

end TurnStore

import Mathlib.Tactic.Linarith
import Yuizaki.Recovery.Fencing

/- Progress of the recovery worker (`SQLiteStepRecoveryStore.claim_due`).

   A call takes the first due row and reads its step inside the transaction. Where the step cannot
   be read, the transaction is rolled back: the row stays first, and every call after it fails in
   the same way. So the due rows are served exactly where none that cannot be read is before one
   that can. -/
namespace Recovery

/-! ## Calls one after another -/

section Calls

variable (codec : RecoveryCodec) (now : ℚ) (owner : String)

/-- The store after so many calls of `claim_due`, and the tokens that they draw. -/
def claimDueTimes (token : ℕ → String) (s : RecoveryStore) : ℕ → RecoveryStore
  | 0 => s
  | n + 1 => claimDueTimes (fun i => token (i + 1)) (claimDue codec s now owner (token 0)).1 n

/-- What a call answers, after so many before it. -/
def claimDueAnswer (token : ℕ → String) (s : RecoveryStore) (n : ℕ) : Except String (Option (String × Plan.Step × String)) :=
  (claimDue codec (claimDueTimes codec now owner token s n) now owner (token n)).2

def RecoveryRow.readable (row : RecoveryRow) : Prop := row.due now = true ∧ (codec.deserializeStep row.stepJson).isOk = true

/-- A due row whose step cannot be read. -/
def RecoveryRow.unreadable (row : RecoveryRow) : Prop := row.due now = true ∧ (codec.deserializeStep row.stepJson).isOk = false

/-- After finitely many calls every due row that can be read has been handed out. -/
def DueServed (token : ℕ → String) (s : RecoveryStore) : Prop :=
  ∀ recoveryId row, s.get recoveryId = some row → row.readable codec now →
    ∃ n step, claimDueAnswer codec now owner token s n = .ok (some (recoveryId, step, token n))

/-- No due row that cannot be read comes before one that can. -/
def ReadableFirst (s : RecoveryStore) : Prop :=
  ∀ bad badRow, s.get bad = some badRow → badRow.unreadable codec now →
    ∀ recoveryId row, s.get recoveryId = some row → row.readable codec now → dueBefore (recoveryId, row) (bad, badRow)

end Calls

/-! ## The order of due rows -/

theorem dueBefore_refl (a : String × RecoveryRow) : dueBefore a a := Or.inr ⟨rfl, String.le_refl _⟩

theorem dueBefore_total (a b : String × RecoveryRow) (h : ¬ dueBefore a b) : dueBefore b a := by
  unfold dueBefore at h ⊢
  rw [not_or] at h
  obtain ⟨hnot, hties⟩ := h
  obtain hless | heq := lt_or_eq_of_le (le_of_not_gt hnot)
  · exact Or.inl hless
  · refine Or.inr ⟨heq, ?_⟩
    exact (String.le_total a.1 b.1).resolve_left fun hle => hties ⟨heq.symm, hle⟩

theorem dueBefore_trans {a b c : String × RecoveryRow} (h : dueBefore a b) (h' : dueBefore b c) : dueBefore a c := by
  unfold dueBefore at h h' ⊢
  obtain hab | ⟨hab, hle⟩ := h
  · obtain hbc | ⟨hbc, -⟩ := h'
    · exact Or.inl (lt_trans hab hbc)
    · exact Or.inl (hbc ▸ hab)
  · obtain hbc | ⟨hbc, hle'⟩ := h'
    · exact Or.inl (hab ▸ hbc)
    · exact Or.inr ⟨hab.trans hbc, String.le_trans hle hle'⟩

theorem dueBefore_antisymm {a b : String × RecoveryRow} (h : dueBefore a b) (h' : dueBefore b a) : a.1 = b.1 := by
  unfold dueBefore at h h'
  obtain hab | ⟨hab, hle⟩ := h
  · obtain hba | ⟨hba, -⟩ := h'
    · exact absurd hba (lt_asymm hab)
    · rw [hba] at hab
      exact absurd hab (lt_irrefl _)
  · obtain hba | ⟨-, hle'⟩ := h'
    · rw [hab] at hba
      exact absurd hba (lt_irrefl _)
    · exact String.le_antisymm hle hle'

theorem foldl_earlierDue (es : List (String × RecoveryRow)) (best : String × RecoveryRow) :
    ∃ e, es.foldl earlierDue (some best) = some e ∧ dueBefore e best ∧ ∀ x ∈ es, dueBefore e x := by
  induction es generalizing best with
  | nil => exact ⟨best, rfl, dueBefore_refl best, fun _ h => absurd h List.not_mem_nil⟩
  | cons x rest ih =>
    rw [List.foldl_cons, earlierDue]
    by_cases hbefore : dueBefore best x
    · rw [if_pos hbefore]
      obtain ⟨e, he, hbest, hrest⟩ := ih best
      exact ⟨e, he, hbest, List.forall_mem_cons.mpr ⟨dueBefore_trans hbest hbefore, hrest⟩⟩
    · rw [if_neg hbefore]
      obtain ⟨e, he, hx, hrest⟩ := ih x
      exact ⟨e, he, dueBefore_trans hx (dueBefore_total _ _ hbefore), List.forall_mem_cons.mpr ⟨hx, hrest⟩⟩

section Rows

variable {codec : RecoveryCodec} {s : RecoveryStore} {now : ℚ} {owner : String} {recoveryId : String} {row : RecoveryRow}

theorem firstDue_le (hrow : s.get recoveryId = some row) (hdue : row.due now = true) :
    ∃ first, firstDue s now = some first ∧ dueBefore first (recoveryId, row) := by
  have hmem : (recoveryId, row) ∈ s.entries.filter fun e => e.2.due now :=
    List.mem_filter.mpr ⟨Dict.get_eq_some.mp hrow, hdue⟩
  unfold firstDue
  cases hes : s.entries.filter fun e => e.2.due now with
  | nil =>
    rw [hes] at hmem
    exact absurd hmem List.not_mem_nil
  | cons x rest =>
    rw [hes] at hmem
    rw [List.foldl_cons, earlierDue]
    obtain ⟨e, he, hx, hrest⟩ := foldl_earlierDue rest x
    refine ⟨e, he, ?_⟩
    obtain rfl | hmem := List.mem_cons.mp hmem
    · exact hx
    · exact hrest _ hmem

theorem claim_not_due (row : RecoveryRow) (now : ℚ) (owner token : String) :
    (row.claim now owner token).due now = false := by
  refine decide_eq_false fun h => ?_
  obtain hpending | ⟨-, hlease⟩ := h.1
  · cases hpending
  · have hends : now + leaseSeconds ≤ now := of_decide_eq_true hlease
    unfold leaseSeconds at hends
    linarith

theorem claimDue_readable {token : String} {first : String × RecoveryRow} {step : Plan.Step}
    (howner : ownerValid owner = true) (hfirst : firstDue s now = some first)
    (hstep : codec.deserializeStep first.2.stepJson = .ok step) :
    claimDue codec s now owner token =
      (s.set first.1 (first.2.claim now owner token), .ok (some (first.1, step, token))) := by
  unfold claimDue
  rw [if_neg (by rw [howner]; exact Bool.noConfusion), hfirst]
  dsimp only
  rw [hstep]

theorem claimDue_unreadable {token : String} {first : String × RecoveryRow} {message : String}
    (howner : ownerValid owner = true) (hfirst : firstDue s now = some first)
    (hstep : codec.deserializeStep first.2.stepJson = .error message) :
    claimDue codec s now owner token = (s, .error message) := by
  unfold claimDue
  rw [if_neg (by rw [howner]; exact Bool.noConfusion), hfirst]
  dsimp only
  rw [hstep]

/-! ## Rows that are served -/

def dueCount (s : RecoveryStore) (now : ℚ) : ℕ := (s.entries.filter fun e => e.2.due now).length

theorem length_due_put {es : List (String × RecoveryRow)} {row' : RecoveryRow} (hrow : Dict.find recoveryId es = some row)
    (hdue : row.due now = true) (hdone : row'.due now = false) :
    ((Dict.put recoveryId row' es).filter fun e => e.2.due now).length + 1 = (es.filter fun e => e.2.due now).length := by
  have hin {rest : List (String × RecoveryRow)} (e : String × RecoveryRow) (h : e.2.due now = true) :
      (e :: rest).filter (fun e => e.2.due now) = e :: rest.filter fun e => e.2.due now := List.filter_cons_of_pos h
  have hout {rest : List (String × RecoveryRow)} (e : String × RecoveryRow) (h : e.2.due now = false) :
      (e :: rest).filter (fun e => e.2.due now) = rest.filter fun e => e.2.due now :=
    List.filter_cons_of_neg (by rw [h]; exact Bool.false_ne_true)
  induction es with
  | nil => cases hrow
  | cons e rest ih =>
    obtain ⟨other, old⟩ := e
    unfold Dict.put
    unfold Dict.find at hrow
    split at hrow
    · rename_i hkey
      obtain rfl := Option.some.inj hrow
      rw [if_pos hkey, hout (recoveryId, row') hdone, hin (other, old) hdue, List.length_cons]
    · rename_i hkey
      rw [if_neg hkey]
      cases hold : old.due now with
      | true =>
        rw [hin (other, old) hold, hin (other, old) hold, List.length_cons, List.length_cons, ih hrow]
      | false =>
        rw [hout (other, old) hold, hout (other, old) hold]
        exact ih hrow

theorem dueCount_claim {token : String} (hrow : s.get recoveryId = some row) (hdue : row.due now = true) :
    dueCount (s.set recoveryId (row.claim now owner token)) now + 1 = dueCount s now :=
  length_due_put hrow hdue (claim_not_due row now owner token)

theorem due_set {row' : RecoveryRow} (hdone : row'.due now = false) {other : String} {r : RecoveryRow}
    (hr : (s.set recoveryId row').get other = some r) (hdue : r.due now = true) : s.get other = some r := by
  rw [Dict.get_set] at hr
  split at hr
  · obtain rfl := Option.some.inj hr
    rw [hdone] at hdue
    cases hdue
  · exact hr

theorem ReadableFirst.set (h : ReadableFirst codec now s) {row' : RecoveryRow} (hdone : row'.due now = false) :
    ReadableFirst codec now (s.set recoveryId row') := by
  intro bad badRow hbad hunreadable other r hr hreadable
  exact h bad badRow (due_set hdone hbad hunreadable.1) hunreadable other r (due_set hdone hr hreadable.1) hreadable

theorem exists_ok {e : Except String Plan.Step} (h : e.isOk = true) : ∃ step, e = .ok step := by
  cases e with
  | ok step => exact ⟨step, rfl⟩
  | error _ => cases h

theorem served (howner : ownerValid owner = true) (token : ℕ → String) (h : ReadableFirst codec now s) :
    DueServed codec now owner token s := by
  intro recoveryId row hrow hreadable
  -- every call before the one that hands the row out leaves one row less that is due
  generalize hcount : dueCount s now = count
  induction count generalizing s token with
  | zero =>
    have hmem : (recoveryId, row) ∈ s.entries.filter fun e => e.2.due now :=
      List.mem_filter.mpr ⟨Dict.get_eq_some.mp hrow, hreadable.1⟩
    rw [List.length_eq_zero_iff.mp hcount] at hmem
    exact absurd hmem List.not_mem_nil
  | succ count ih =>
    obtain ⟨first, hfirst, hbefore⟩ := firstDue_le hrow hreadable.1
    obtain ⟨hget, hdue⟩ := firstDue_spec hfirst
    have hstep : (codec.deserializeStep first.2.stepJson).isOk = true := by
      cases hok : (codec.deserializeStep first.2.stepJson).isOk with
      | true => rfl
      | false =>
        have hafter := h first.1 first.2 hget ⟨hdue, hok⟩ recoveryId row hrow hreadable
        have hsame : first.1 = recoveryId := dueBefore_antisymm hbefore hafter
        rw [hsame, hrow] at hget
        obtain rfl := Option.some.inj hget
        exact hok.symm.trans hreadable.2
    obtain ⟨step, hstep⟩ := exists_ok hstep
    by_cases hsame : first.1 = recoveryId
    · refine ⟨0, step, ?_⟩
      show (claimDue codec s now owner (token 0)).2 = _
      rw [claimDue_readable howner hfirst hstep, hsame]
    · have hclaim : claimDue codec s now owner (token 0) = _ := claimDue_readable howner hfirst hstep
      have hkept : (s.set first.1 (first.2.claim now owner (token 0))).get recoveryId = some row := by
        rw [Dict.get_set_of_ne (Ne.symm hsame)]
        exact hrow
      have hless : dueCount (s.set first.1 (first.2.claim now owner (token 0))) now = count := by
        have hone : dueCount (s.set first.1 (first.2.claim now owner (token 0))) now + 1 = dueCount s now :=
          dueCount_claim hget hdue
        omega
      obtain ⟨n, found, hanswer⟩ := ih (fun i => token (i + 1)) (h.set (claim_not_due _ _ _ _)) hkept hless
      refine ⟨n + 1, found, ?_⟩
      show (claimDue codec (claimDueTimes codec now owner (fun i => token (i + 1)) (claimDue codec s now owner (token 0)).1 n)
        now owner (token (n + 1))).2 = _
      rw [hclaim]
      exact hanswer

/-! ## Rows that are stuck -/

theorem stuck_call {bad : String} {badRow : RecoveryRow} (howner : ownerValid owner = true) (token : String)
    (hbad : s.get bad = some badRow) (hunreadable : badRow.unreadable codec now) (hrow : s.get recoveryId = some row)
    (hbehind : ¬ dueBefore (recoveryId, row) (bad, badRow)) :
    (∀ step, (claimDue codec s now owner token).2 ≠ .ok (some (recoveryId, step, token))) ∧
      (claimDue codec s now owner token).1.get bad = some badRow ∧
      (claimDue codec s now owner token).1.get recoveryId = some row := by
  obtain ⟨first, hfirst, hbefore⟩ := firstDue_le hbad hunreadable.1
  obtain ⟨hget, -⟩ := firstDue_spec hfirst
  have hother : first.1 ≠ recoveryId := by
    intro hsame
    rw [hsame, hrow] at hget
    have hfirst : first = (recoveryId, row) := Prod.ext hsame (Option.some.inj hget).symm
    exact hbehind (hfirst ▸ hbefore)
  cases hstep : codec.deserializeStep first.2.stepJson with
  | error message =>
    rw [claimDue_unreadable howner hfirst hstep]
    exact ⟨fun _ h => (by cases h), hbad, hrow⟩
  | ok step =>
    have hgood : first.1 ≠ bad := by
      intro hsame
      rw [hsame, hbad] at hget
      have hfalse := hunreadable.2
      rw [Option.some.inj hget, hstep] at hfalse
      cases hfalse
    rw [claimDue_readable howner hfirst hstep]
    refine ⟨fun step' h => ?_, ?_, ?_⟩
    · have heq := Option.some.inj (Except.ok.inj h)
      exact hother (Prod.mk.inj heq).1
    · exact (Dict.get_set_of_ne (Ne.symm hgood)).trans hbad
    · exact (Dict.get_set_of_ne (Ne.symm hother)).trans hrow

theorem stuck {bad : String} {badRow : RecoveryRow} (howner : ownerValid owner = true) (token : ℕ → String)
    (hbad : s.get bad = some badRow) (hunreadable : badRow.unreadable codec now) (hrow : s.get recoveryId = some row)
    (hbehind : ¬ dueBefore (recoveryId, row) (bad, badRow)) (n : ℕ) (step : Plan.Step) :
    claimDueAnswer codec now owner token s n ≠ .ok (some (recoveryId, step, token n)) := by
  obtain ⟨hanswer, hbad', hrow'⟩ := stuck_call howner (token 0) hbad hunreadable hrow hbehind
  induction n generalizing s token with
  | zero => exact hanswer step
  | succ n ih =>
    obtain ⟨hnext, hbad₁, hrow₁⟩ := stuck_call howner (token 1) hbad' hunreadable hrow' hbehind
    exact ih (fun i => token (i + 1)) hbad' hrow' hnext hbad₁ hrow₁

end Rows

/-- Calls at one moment hand out every due row that can be read exactly where no due row that cannot
be read comes before one. -/
theorem due_served (codec : RecoveryCodec) (s : RecoveryStore) (now : ℚ) (owner : String) (token : ℕ → String)
    (howner : ownerValid owner = true) : DueServed codec now owner token s ↔ ReadableFirst codec now s := by
  refine ⟨fun h bad badRow hbad hunreadable recoveryId row hrow hreadable => ?_, served howner token⟩
  by_contra hbehind
  obtain ⟨n, step, hanswer⟩ := h recoveryId row hrow hreadable
  exact stuck howner token hbad hunreadable hrow hbehind n step hanswer

/-! ## A row that cannot be read -/

/-- A codec that reads one of two steps. -/
def pickyCodec : RecoveryCodec :=
  { readCodec with deserializeStep := fun document => if document = "good" then .ok readStep else .error "recovery_step_invalid" }

/-- A row with a step, due from the start. -/
def dueRow (step : String) : RecoveryRow := newRow 0 step ⟨none, none, readScope, none, none, none⟩ none none

/-- A row that cannot be read, and one after it that can. -/
def poisoned : RecoveryStore := (Dict.empty.set "a" (dueRow "bad")).set "b" (dueRow "good")

def healthy : RecoveryStore := (Dict.empty.set "a" (dueRow "good")).set "b" (dueRow "bad")

theorem dueRow_facts : (dueRow "bad").due 0 = true ∧ (dueRow "good").due 0 = true ∧ ownerValid "worker" = true ∧
    dueBefore ("a", dueRow "good") ("b", dueRow "bad") ∧ ¬ dueBefore ("b", dueRow "good") ("a", dueRow "bad") := by
  decide +kernel

/-- The row that can be read is handed out. -/
theorem due_served_healthy : DueServed pickyCodec 0 "worker" (fun _ => "t") healthy := by
  obtain ⟨-, -, howner, hbefore, -⟩ := dueRow_facts
  refine (due_served pickyCodec healthy 0 "worker" _ howner).mpr ?_
  intro bad badRow hbad hunreadable recoveryId row hrow hreadable
  unfold healthy at hbad hrow
  simp only [Dict.get_set, Dict.get_empty] at hbad hrow
  have hbadRow : bad = "b" ∧ badRow = dueRow "bad" := by
    split at hbad
    · rename_i hkey
      exact ⟨hkey, (Option.some.inj hbad).symm⟩
    · split at hbad
      · obtain rfl := Option.some.inj hbad
        exact absurd hunreadable.2 (by decide)
      · cases hbad
  have hgoodRow : recoveryId = "a" ∧ row = dueRow "good" := by
    split at hrow
    · obtain rfl := Option.some.inj hrow
      exact absurd hreadable.2 (by decide)
    · split at hrow
      · rename_i hkey
        exact ⟨hkey, (Option.some.inj hrow).symm⟩
      · cases hrow
  rw [hbadRow.1, hbadRow.2, hgoodRow.1, hgoodRow.2]
  exact hbefore

/-- The row that cannot be read keeps the one after it from being claimed. -/
theorem due_row_never_served : ¬ DueServed pickyCodec 0 "worker" (fun _ => "t") poisoned := by
  intro h
  have hrows : poisoned.get "a" = some (dueRow "bad") ∧ poisoned.get "b" = some (dueRow "good") := ⟨rfl, rfl⟩
  obtain ⟨hbad, hgood⟩ := hrows
  obtain ⟨hbadDue, hgoodDue, howner, -, hbehind⟩ := dueRow_facts
  obtain ⟨n, step, hanswer⟩ := h "b" (dueRow "good") hgood ⟨hgoodDue, rfl⟩
  exact stuck howner _ hbad ⟨hbadDue, rfl⟩ hgood hbehind n step hanswer

end Recovery

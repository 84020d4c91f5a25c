import Yuizaki.Recovery.Fencing

/- The reaper and the claims (`SQLiteStepRecoveryStore.reap_expired`).

   A row and its lease expire on their own. The reaper asks for the expiry of the row only, so it
   takes a row from under its claimant where the lease goes on longer than the row. Whatever the
   clock reads, it spares the claims exactly where no lease outlives its row; and that is kept by
   runs whose leases end in time. -/
namespace Recovery

open Transition

/-! ## Live claims -/

def RecoveryRow.liveClaim (row : RecoveryRow) (now : ℚ) : Bool :=
  row.status = .claimed ∧ row.leaseExpiresAt.any (fun ends => now < ends) = true

/-- Whenever the reaper runs, it leaves the rows with a live claim as they are. -/
def ClaimsSpared (s : RecoveryStore) : Prop :=
  ∀ now recoveryId row, s.get recoveryId = some row → row.liveClaim now = true →
    (reapExpired s now).get recoveryId = some row

/-- The lease of a claimed row ends before the row expires. -/
def RecoveryRow.endsInTime (row : RecoveryRow) : Prop :=
  row.status = .claimed → ∀ ends ∈ row.leaseExpiresAt, ∀ expires ∈ row.expiresAt, ends ≤ expires

def LeasesInTime (s : RecoveryStore) : Prop := ∀ recoveryId row, s.get recoveryId = some row → row.endsInTime

section Reap

variable {s : RecoveryStore} {now : ℚ} {recoveryId : String} {row : RecoveryRow}

theorem reapExpired_get (hrow : s.get recoveryId = some row) :
    (reapExpired s now).get recoveryId = if row.alive now = true then some row else none := by
  unfold reapExpired
  rw [Dict.get_filter, hrow, Option.filter_some]

theorem alive_of_liveClaim (h : row.endsInTime) (hlive : row.liveClaim now = true) : row.alive now = true := by
  obtain ⟨hclaimed, hlease⟩ := of_decide_eq_true hlive
  unfold RecoveryRow.alive
  rw [Option.all_eq_true]
  intro expires hexpires
  obtain ⟨ends, hends, hruns⟩ := Option.any_eq_true _ _ |>.mp hlease
  have hle := h hclaimed ends hends expires hexpires
  exact decide_eq_true (lt_of_lt_of_le (of_decide_eq_true hruns) hle)

end Reap

/-- The reaper spares the live claims of a store, whatever the clock reads, exactly where no lease
outlives its row. -/
theorem claims_spared (s : RecoveryStore) : ClaimsSpared s ↔ LeasesInTime s := by
  constructor
  · intro h recoveryId row hrow hclaimed ends hends expires hexpires
    by_contra hlong
    -- the clock reads the expiry of the row, and the lease goes on
    have hlive : row.liveClaim expires = true := by
      refine decide_eq_true ⟨hclaimed, ?_⟩
      rw [hends]
      exact decide_eq_true (lt_of_not_ge hlong)
    have hkept := h expires recoveryId row hrow hlive
    rw [reapExpired_get hrow] at hkept
    have hgone : row.alive expires = false := by
      unfold RecoveryRow.alive
      rw [hexpires]
      exact decide_eq_false (lt_irrefl _)
    rw [hgone, if_neg Bool.false_ne_true] at hkept
    cases hkept
  · intro h now recoveryId row hrow hlive
    rw [reapExpired_get hrow, if_pos (alive_of_liveClaim (h recoveryId row hrow) hlive)]

/-! ## Leases that end in time -/

/-- A marker that expires after 30 seconds, and is claimed for 60. -/
def shortMarker : RecoveryStore :=
  (callAll readCodec 0 [.put "rh" readStep ⟨none, some 30, readScope, none, none, none⟩, .claimDue "worker" "a1"]
    ([], Dict.empty)).2

/-- The reaper removes the marker from under its claimant. -/
theorem live_claim_reaped :
    (∃ hist, Run (StoreStep readCodec) StoreState.initial hist ⟨shortMarker, 0⟩) ∧ ¬ ClaimsSpared shortMarker := by
  refine ⟨⟨_, callAll_run readCodec _ Run.start⟩, fun h => ?_⟩
  have hfacts : (shortMarker.get "rh").any (fun row => row.liveClaim 40) = true ∧
      (reapExpired shortMarker 40).get "rh" = none := by decide +kernel
  obtain ⟨row, hrow, hlive⟩ := Option.any_eq_true _ _ |>.mp hfacts.1
  have hkept := h 40 "rh" row hrow hlive
  rw [hfacts.2] at hkept
  cases hkept

end Recovery

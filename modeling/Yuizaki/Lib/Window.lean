import Mathlib.Data.Rat.Defs
import Mathlib.Algebra.Order.Ring.Rat
import Mathlib.Algebra.Order.Group.Unbundled.Basic
import Mathlib.Data.List.Basic
import Mathlib.Data.List.Perm.Subperm

/- Rates over a sliding window.

   Entries of a log have a group and a time. `Window.Limited` says that no window of a given
   width, whenever it ends, has more than so many entries of one group. It is enough to look
   at the window that ends with each new entry (`Window.limited_cons`), so a limiter that
   counts the recent entries before it admits the next keeps every window.

   The same for windows with both ends, of a log of times that is read newest first, and for the
   distance of its times (`Paced`). A limiter may forget what no window can reach any more:
   what it needs to remember is `recent`. -/
namespace Window

variable {α κ : Type} [DecidableEq κ]

/-- The entries of a group in the window that ends at a time. -/
def count (width : ℚ) (group : α → κ) (time : α → ℚ) (log : List α) (k : κ) (t : ℚ) : ℕ :=
  log.countP (fun a => group a = k ∧ t - width < time a ∧ time a ≤ t)

/-- No window has more than `most` entries of one group. -/
def Limited (width : ℚ) (most : ℕ) (group : α → κ) (time : α → ℚ) (log : List α) : Prop :=
  ∀ k t, count width group time log k t ≤ most

section Rules

variable {width : ℚ} {most : ℕ} {group : α → κ} {time : α → ℚ} {log log' : List α} {a : α}

theorem limited_nil : Limited width most group time [] := fun _ _ => Nat.zero_le _

theorem Limited.sublist (h : Limited width most group time log) (hsub : log'.Sublist log) :
    Limited width most group time log' :=
  fun k t => (hsub.countP_le).trans (h k t)

theorem limited_cons (h : Limited width most group time log)
    (hpast : ∀ b ∈ log, time b ≤ time a)
    (hroom : count width group time log (group a) (time a) < most) :
    Limited width most group time (a :: log) := by
  intro k t
  have hold := h k t
  have hcount : count width group time (a :: log) k t = count width group time log k t +
      if group a = k ∧ t - width < time a ∧ time a ≤ t then 1 else 0 := by
    rw [count, List.countP_cons]
    simp only [decide_eq_true_eq]
    rfl
  rw [hcount]
  split
  · rename_i hin
    obtain ⟨hgroup, hafter, hbefore⟩ := hin
    -- the window that ends at `t` has nothing that the one that ends with the entry has not
    have hle : count width group time log k t ≤ count width group time log (group a) (time a) := by
      refine List.countP_mono_left fun b hb hcounted => ?_
      obtain ⟨hk, hb', -⟩ := of_decide_eq_true hcounted
      refine decide_eq_true ⟨hk.trans hgroup.symm, ?_, hpast b hb⟩
      have hshift : time a - width ≤ t - width := sub_le_sub_right hbefore width
      exact lt_of_le_of_lt hshift hb'
    omega
  · omega

end Rules

/-! ## Times -/

section Times

/-- The times of a log since an instant. -/
def recent (horizon now : ℚ) (times : List ℚ) : List ℚ := times.filter (fun t => now - horizon ≤ t)

/-- No window with both its ends has more than `most` times, and any two times are `gap` apart; the newest
comes first. -/
structure Paced (width gap : ℚ) (most : ℕ) (times : List ℚ) : Prop where
  limit : ∀ t, times.countP (fun x => t - width ≤ x ∧ x ≤ t) ≤ most
  apart : times.Pairwise (fun later earlier => gap ≤ later - earlier)

variable {width gap horizon now : ℚ} {most : ℕ} {times known : List ℚ}

theorem paced_nil : Paced width gap most [] := ⟨fun _ => Nat.zero_le _, List.Pairwise.nil⟩

theorem recent_sublist {before : ℚ} (h : before ≤ now) : (recent horizon now times).Sublist (recent horizon before times) := by
  refine List.monotone_filter_right times fun t ht => ?_
  have hle : now - horizon ≤ t := of_decide_eq_true ht
  exact decide_eq_true ((sub_le_sub_right h horizon).trans hle)

theorem paced_cons (h : Paced width gap most times) (hpast : ∀ t ∈ times, t ≤ now) (hwidth : width ≤ horizon)
    (hgap : gap ≤ horizon) (hknown : (recent horizon now times).Subperm known)
    (hroom : known.countP (fun t => now - width ≤ t) < most)
    (hapart : 0 < gap → ∀ t ∈ known, gap ≤ now - t) : Paced width gap most (now :: times) := by
  constructor
  · intro t
    rw [List.countP_cons]
    split
    · rename_i hin
      obtain ⟨hstart, hend⟩ := of_decide_eq_true hin
      -- the window reaches no further back than the one that ends now
      have hle : times.countP (fun x => t - width ≤ x ∧ x ≤ t) ≤
          (recent horizon now times).countP (fun x => now - width ≤ x) := by
        rw [recent, List.countP_filter]
        refine List.countP_mono_left fun x hx hcounted => ?_
        obtain ⟨hfrom, -⟩ := of_decide_eq_true hcounted
        have hafter : now - width ≤ x := (sub_le_sub_right hend width).trans hfrom
        have hrecent : now - horizon ≤ x := (sub_le_sub_left hwidth now).trans hafter
        rw [Bool.and_eq_true]
        exact ⟨decide_eq_true hafter, decide_eq_true hrecent⟩
      have hsub := hknown.countP_le (fun x => now - width ≤ x)
      omega
    · exact h.limit t
  · refine List.Pairwise.cons (fun t ht => ?_) h.apart
    by_cases hpositive : 0 < gap
    · by_cases hrecent : now - horizon ≤ t
      · have hmem : t ∈ recent horizon now times := List.mem_filter.mpr ⟨ht, decide_eq_true hrecent⟩
        exact hapart hpositive t (hknown.subset hmem)
      · have hlong : horizon < now - t := lt_sub_comm.mp (not_le.mp hrecent)
        exact hgap.trans hlong.le
    · exact (not_lt.mp hpositive).trans (sub_nonneg.mpr (hpast t ht))

theorem recent_cons (hknown : (recent horizon now times).Subperm known) (hhorizon : 0 ≤ horizon) :
    (recent horizon now (now :: times)).Subperm (known ++ [now]) := by
  have hin : now - horizon ≤ now := sub_le_self now hhorizon
  rw [recent, List.filter_cons, if_pos (decide_eq_true hin)]
  exact ((List.subperm_cons now).mpr hknown).trans (List.perm_append_singleton now known).symm.subperm

end Times

end Window

import Yuizaki.Lib.Dict
import Mathlib.Data.List.Sort

/- Reading a table page by page, by key.

   A page holds the first rows whose key is beyond a cursor, in the order of the keys; the
   cursor then moves to the last key of the page. Keys are distinct, so no page boundary can
   fall between two rows with one key: what was read and what is still beyond the cursor
   are together the table, in order. -/
namespace Keyset

variable {κ ρ : Type} [LinearOrder κ]

def listing (rows : Dict κ ρ) : List (κ × ρ) :=
  rows.entries.insertionSort (fun a b => a.1 ≤ b.1)

/-- The rows beyond a cursor: all of them when there is none yet. -/
def beyond (cursor : Option κ) (rows : List (κ × ρ)) : List (κ × ρ) :=
  rows.filter (fun e => cursor.all (fun k => k < e.1))

def page (rows : Dict κ ρ) (cursor : Option κ) (limit : ℕ) : List (κ × ρ) :=
  (beyond cursor (listing rows)).take limit

def advance (cursor : Option κ) (page : List (κ × ρ)) : Option κ :=
  (page.getLast?.map Prod.fst).or cursor

/-! ## The order of a table -/

def Ascending (rows : List (κ × ρ)) : Prop := rows.Pairwise (fun a b => a.1 < b.1)

variable {rows : Dict κ ρ} {cursor : Option κ} {limit : ℕ}

theorem mem_listing {e : κ × ρ} : e ∈ listing rows ↔ rows.get e.1 = some e.2 := by
  rw [Dict.get_eq_some]
  exact (List.perm_insertionSort _ rows.entries).mem_iff

theorem nodup_listing : ((listing rows).map Prod.fst).Nodup :=
  ((List.perm_insertionSort _ rows.entries).map Prod.fst).nodup_iff.mpr rows.nodup

theorem ascending_listing : Ascending (listing rows) := by
  have htotal : Std.Total (fun a b : κ × ρ => a.1 ≤ b.1) := ⟨fun a b => le_total a.1 b.1⟩
  have htrans : IsTrans (κ × ρ) (fun a b => a.1 ≤ b.1) := ⟨fun a b c => le_trans⟩
  have hsorted : (listing rows).Pairwise (fun a b => a.1 ≤ b.1) :=
    List.pairwise_insertionSort _ rows.entries
  have hdistinct : (listing rows).Pairwise (fun a b => a.1 ≠ b.1) :=
    List.pairwise_map.mp nodup_listing
  exact (hsorted.and hdistinct).imp (fun h => lt_of_le_of_ne h.1 h.2)

theorem beyond_none {rows : List (κ × ρ)} : beyond none rows = rows :=
  List.filter_eq_self.mpr (fun _ _ => rfl)

theorem beyond_append {read rest : List (κ × ρ)} {e : κ × ρ}
    (h : Ascending (read ++ [e] ++ rest)) : beyond (some e.1) (read ++ [e] ++ rest) = rest := by
  obtain ⟨hread, -, hcross⟩ := List.pairwise_append.mp h
  obtain ⟨-, -, hlast⟩ := List.pairwise_append.mp hread
  unfold beyond
  rw [List.filter_append, List.filter_append]
  have hbefore : read.filter (fun x => (some e.1).all (fun k => k < x.1)) = [] := by
    rw [List.filter_eq_nil_iff]
    intro x hx hlt
    have hless : x.1 < e.1 := hlast x hx e (List.mem_singleton_self e)
    exact lt_asymm hless (of_decide_eq_true hlt)
  have hself : [e].filter (fun x => (some e.1).all (fun k => k < x.1)) = [] := by
    rw [List.filter_eq_nil_iff]
    intro x hx hlt
    rw [List.mem_singleton.mp hx] at hlt
    exact lt_irrefl _ (of_decide_eq_true hlt)
  have hafter : rest.filter (fun x => (some e.1).all (fun k => k < x.1)) = rest := by
    rw [List.filter_eq_self]
    intro x hx
    exact decide_eq_true (hcross e (List.mem_append_right _ (List.mem_singleton_self e)) x hx)
  rw [hbefore, hself, hafter]
  rfl

/-! ## Pages -/

/-- What the pages so far hold, in order, is what is not beyond the cursor. -/
def ReadTo (rows : Dict κ ρ) (cursor : Option κ) (collected : List (κ × ρ)) : Prop :=
  collected ++ beyond cursor (listing rows) = listing rows

theorem readTo_start : ReadTo rows none [] := beyond_none

theorem ReadTo.more {collected : List (κ × ρ)} (h : ReadTo rows cursor collected) :
    ReadTo rows (advance cursor (page rows cursor limit))
      (collected ++ page rows cursor limit) := by
  have hsplit : page rows cursor limit ++ (beyond cursor (listing rows)).drop limit =
      beyond cursor (listing rows) := List.take_append_drop limit _
  have hall : collected ++ page rows cursor limit ++ (beyond cursor (listing rows)).drop limit =
      listing rows := by
    rw [List.append_assoc, hsplit]
    exact h
  unfold ReadTo advance
  rcases List.eq_nil_or_concat' (page rows cursor limit) with hnil | ⟨init, e, hpage⟩
  · -- an empty page leaves the cursor
    rw [hnil, List.append_nil]
    exact h
  · rw [hpage, List.getLast?_concat]
    have hasc : Ascending (collected ++ init ++ [e] ++ (beyond cursor (listing rows)).drop limit) := by
      rw [List.append_assoc collected, ← hpage, hall]
      exact ascending_listing
    have hrest := beyond_append hasc
    rw [List.append_assoc collected, ← hpage, hall] at hrest
    show collected ++ (init ++ [e]) ++ beyond (some e.1) (listing rows) = listing rows
    rw [hrest, ← hpage]
    exact hall

theorem ReadTo.finished {collected : List (κ × ρ)} (h : ReadTo rows cursor collected)
    (hroom : 0 < limit) (hempty : page rows cursor limit = []) :
    collected = listing rows := by
  have hnone : beyond cursor (listing rows) = [] := by
    rcases List.take_eq_nil_iff.mp hempty with hzero | hnil
    · omega
    · exact hnil
  unfold ReadTo at h
  rw [hnone, List.append_nil] at h
  exact h

end Keyset

import Mathlib.Data.List.Basic
import Mathlib.Logic.Relation

/- Dependency graphs over finite lists.

   A node has a key and names the keys it depends on. `closure` collects what lies
   downstream of some keys by sweeping the list until nothing is added
   (`mem_closure`). `visit` is the depth-first search that looks for a cycle, and what
   it returns is settled: every key after all its dependencies. `order` repeatedly
   takes the nodes whose dependencies are resolved; it is a permutation of the nodes
   (`order_perm`), it leaves a ready list alone (`order_ready`), and where a settled
   list covers the nodes it puts every node after its dependencies (`ready_order`), which
   no list with a cycle allows (`acyclic_of_readyOrder`). -/
namespace Deps

variable {σ α : Type} [DecidableEq α] (key : σ → α) (deps : σ → List α)

/-! ## Downstream closure -/

/-- `b` depends on `a` directly. -/
def Edge (nodes : List σ) (a b : α) : Prop := ∃ n ∈ nodes, key n = b ∧ a ∈ deps n

/-- `b` is `a` or depends on it through the nodes. -/
def Downstream (nodes : List σ) : α → α → Prop := Relation.ReflTransGen (Edge key deps nodes)

/-- One pass over the nodes: add every node that depends on a key already seen. -/
def sweep (nodes : List σ) (seen : List α) : List α :=
  nodes.foldl (fun seen n =>
    if key n ∉ seen ∧ (deps n).any (fun d => d ∈ seen) then key n :: seen else seen) seen

/-- Sweep until nothing is added, at most `fuel` times. -/
def closureFrom (nodes : List σ) : ℕ → List α → List α
  | 0, seen => seen
  | fuel + 1, seen =>
    if (sweep key deps nodes seen).length = seen.length then seen
    else closureFrom nodes fuel (sweep key deps nodes seen)

def closure (nodes : List σ) (seeds : List α) : List α :=
  closureFrom key deps nodes nodes.length seeds

section Closure

variable {key deps} {nodes rest : List σ} {seen seeds : List α} {a b : α}

theorem sweep_cons (n : σ) : sweep key deps (n :: rest) seen = sweep key deps rest
    (if key n ∉ seen ∧ (deps n).any (fun d => d ∈ seen) then key n :: seen else seen) := rfl

theorem subset_sweep (h : a ∈ seen) : a ∈ sweep key deps nodes seen := by
  induction nodes generalizing seen with
  | nil => exact h
  | cons n rest ih =>
    rw [sweep_cons]
    apply ih
    split
    · exact List.mem_cons_of_mem _ h
    · exact h

theorem length_le_sweep : seen.length ≤ (sweep key deps nodes seen).length := by
  induction nodes generalizing seen with
  | nil => exact Nat.le_refl _
  | cons n rest ih =>
    rw [sweep_cons]
    refine Nat.le_trans ?_ ih
    split
    · exact Nat.le_succ _
    · exact Nat.le_refl _

theorem sweep_sound (hsub : ∀ n ∈ rest, n ∈ nodes) (h : b ∈ sweep key deps rest seen) :
    ∃ a ∈ seen, Downstream key deps nodes a b := by
  induction rest generalizing seen with
  | nil => exact ⟨b, h, Relation.ReflTransGen.refl⟩
  | cons n rest ih =>
    rw [sweep_cons] at h
    have hn : n ∈ nodes := hsub n List.mem_cons_self
    obtain ⟨a, ha, hab⟩ := ih (fun m hm => hsub m (List.mem_cons_of_mem _ hm)) h
    split at ha
    · rename_i hadd
      rcases List.mem_cons.mp ha with rfl | ha
      · obtain ⟨d, hd, hdseen⟩ := List.any_eq_true.mp hadd.2
        exact ⟨d, of_decide_eq_true hdseen, Relation.ReflTransGen.head ⟨n, hn, rfl, hd⟩ hab⟩
      · exact ⟨a, ha, hab⟩
    · exact ⟨a, ha, hab⟩

theorem sweep_fixed (h : (sweep key deps nodes seen).length = seen.length) {n : σ}
    (hn : n ∈ nodes) {d : α} (hd : d ∈ deps n) (hseen : d ∈ seen) : key n ∈ seen := by
  induction nodes generalizing seen with
  | nil => cases hn
  | cons m rest ih =>
    rw [sweep_cons] at h
    by_cases hadd : key m ∉ seen ∧ (deps m).any (fun d => d ∈ seen)
    · -- an added key makes the sweep longer
      rw [if_pos hadd] at h
      have hle : (key m :: seen).length ≤ (sweep key deps rest (key m :: seen)).length :=
        length_le_sweep
      rw [List.length_cons] at hle
      omega
    · rw [if_neg hadd] at h
      rcases List.mem_cons.mp hn with rfl | hn
      · by_contra hnot
        exact hadd ⟨hnot, List.any_eq_true.mpr ⟨d, hd, decide_eq_true hseen⟩⟩
      · exact ih h hn hseen

theorem sweep_added (h : (sweep key deps nodes seen).length ≠ seen.length) :
    ∃ n ∈ nodes, key n ∉ seen ∧ key n ∈ sweep key deps nodes seen := by
  induction nodes generalizing seen with
  | nil => exact absurd rfl h
  | cons n rest ih =>
    rw [sweep_cons] at h ⊢
    by_cases hadd : key n ∉ seen ∧ (deps n).any (fun d => d ∈ seen)
    · rw [if_pos hadd]
      exact ⟨n, List.mem_cons_self, hadd.1, subset_sweep List.mem_cons_self⟩
    · rw [if_neg hadd] at h ⊢
      obtain ⟨m, hm, hnew, hadded⟩ := ih h
      exact ⟨m, List.mem_cons_of_mem _ hm, hnew, hadded⟩

def unseen (key : σ → α) (nodes : List σ) (seen : List α) : List σ :=
  nodes.filter (fun n => key n ∉ seen)

theorem unseen_sweep (h : (sweep key deps nodes seen).length ≠ seen.length) :
    (unseen key nodes (sweep key deps nodes seen)).length < (unseen key nodes seen).length := by
  obtain ⟨n, hn, hnew, hadded⟩ := sweep_added h
  have hfilter : unseen key nodes (sweep key deps nodes seen) =
      (unseen key nodes seen).filter (fun n => key n ∉ sweep key deps nodes seen) := by
    unfold unseen
    rw [List.filter_filter]
    apply List.filter_congr
    intro m _
    by_cases hm : key m ∈ sweep key deps nodes seen
    · simp [hm]
    · have hnot : key m ∉ seen := fun h => hm (subset_sweep h)
      simp [hm, hnot]
  rw [hfilter, List.length_filter_lt_length_iff_exists]
  refine ⟨n, ?_, by simpa using hadded⟩
  unfold unseen
  exact List.mem_filter.mpr ⟨hn, by simpa using hnew⟩

theorem closureFrom_sound {fuel : ℕ} (h : b ∈ closureFrom key deps nodes fuel seen) :
    ∃ a ∈ seen, Downstream key deps nodes a b := by
  induction fuel generalizing seen with
  | zero => exact ⟨b, h, Relation.ReflTransGen.refl⟩
  | succ fuel ih =>
    unfold closureFrom at h
    split at h
    · exact ⟨b, h, Relation.ReflTransGen.refl⟩
    · obtain ⟨c, hc, hcb⟩ := ih h
      obtain ⟨a, ha, hac⟩ := sweep_sound (fun n hn => hn) hc
      exact ⟨a, ha, hac.trans hcb⟩

theorem subset_closureFrom {fuel : ℕ} (h : a ∈ seen) :
    a ∈ closureFrom key deps nodes fuel seen := by
  induction fuel generalizing seen with
  | zero => exact h
  | succ fuel ih =>
    unfold closureFrom
    split
    · exact h
    · exact ih (subset_sweep h)

theorem closureFrom_closed {fuel : ℕ} (hfuel : (unseen key nodes seen).length ≤ fuel)
    (ha : a ∈ closureFrom key deps nodes fuel seen) (hab : Edge key deps nodes a b) :
    b ∈ closureFrom key deps nodes fuel seen := by
  obtain ⟨n, hn, rfl, hd⟩ := hab
  induction fuel generalizing seen with
  | zero =>
    have hnil : unseen key nodes seen = [] := List.length_eq_zero_iff.mp (Nat.le_zero.mp hfuel)
    by_contra hnot
    have hmem : n ∈ unseen key nodes seen := by
      unfold unseen
      exact List.mem_filter.mpr ⟨hn, decide_eq_true hnot⟩
    rw [hnil] at hmem
    cases hmem
  | succ fuel ih =>
    unfold closureFrom at ha ⊢
    by_cases hsame : (sweep key deps nodes seen).length = seen.length
    · rw [if_pos hsame] at ha ⊢
      exact sweep_fixed hsame hn hd ha
    · rw [if_neg hsame] at ha ⊢
      have hlt := unseen_sweep hsame
      exact ih (by omega) ha

theorem mem_closure :
    b ∈ closure key deps nodes seeds ↔ ∃ a ∈ seeds, Downstream key deps nodes a b := by
  constructor
  · exact closureFrom_sound
  · rintro ⟨a, ha, hab⟩
    have hfuel : (unseen key nodes seeds).length ≤ nodes.length := List.length_filter_le _ _
    induction hab with
    | refl => exact subset_closureFrom ha
    | tail _ hedge ih => exact closureFrom_closed hfuel ih hedge

end Closure

/-! ## Depth-first search -/

section Visit

variable (lookup : α → Option (List α))

/-- Visit a key and, before it, its dependencies. `visiting` is the path down to it; a
key met again on its own path is the error. The path holds known keys only, each once,
so `fuel` for every known key is enough. -/
def visit : ℕ → List α → List α → α → Except α (List α)
  | 0, visiting, visited, a =>
    match lookup a with
    | none => .ok visited
    | some _ => if a ∉ visiting ∧ a ∈ visited then .ok visited else .error a
  | fuel + 1, visiting, visited, a =>
    match lookup a with
    | none => .ok visited
    | some ds =>
      if a ∈ visiting then .error a
      else if a ∈ visited then .ok visited
      else do
        let visited ← ds.foldlM (visit fuel (a :: visiting)) visited
        .ok (a :: visited)

/-- Every known key comes after its known dependencies; newest first. -/
def Settled : List α → Prop
  | [] => True
  | a :: rest => (∀ ds, lookup a = some ds → ∀ d ∈ ds, (lookup d).isSome → d ∈ rest) ∧
    Settled rest

variable {lookup} {fuel : ℕ} {visiting visited visited' : List α} {a : α} {ks : List α}

omit [DecidableEq α] in
theorem foldlM_settled {f : List α → α → Except α (List α)}
    (hf : ∀ d v v', Settled lookup v → f v d = .ok v' →
      Settled lookup v' ∧ (∀ b ∈ v, b ∈ v') ∧ ((lookup d).isSome → d ∈ v'))
    (hs : Settled lookup visited) (h : ks.foldlM f visited = .ok visited') :
    Settled lookup visited' ∧ (∀ b ∈ visited, b ∈ visited') ∧
      ∀ d ∈ ks, (lookup d).isSome → d ∈ visited' := by
  induction ks generalizing visited with
  | nil =>
    cases h
    exact ⟨hs, fun b hb => hb, fun d hd => nomatch hd⟩
  | cons k rest ih =>
    rw [List.foldlM_cons] at h
    cases hk : f visited k with
    | error e =>
      rw [hk] at h
      cases h
    | ok v =>
      rw [hk] at h
      obtain ⟨hv, hsub, hkin⟩ := hf k visited v hs hk
      obtain ⟨hs', hsub', hrest⟩ := ih hv h
      refine ⟨hs', fun b hb => hsub' b (hsub b hb), ?_⟩
      intro d hd hknown
      rcases List.mem_cons.mp hd with rfl | hd
      · exact hsub' d (hkin hknown)
      · exact hrest d hd hknown

theorem visit_settled (hs : Settled lookup visited)
    (h : visit lookup fuel visiting visited a = .ok visited') :
    Settled lookup visited' ∧ (∀ b ∈ visited, b ∈ visited') ∧
      ((lookup a).isSome → a ∈ visited') := by
  induction fuel generalizing visiting visited a visited' with
  | zero =>
    unfold visit at h
    cases ha : lookup a with
    | none =>
      rw [ha] at h
      cases h
      exact ⟨hs, fun b hb => hb, fun hnone => nomatch hnone⟩
    | some ds =>
      rw [ha] at h
      dsimp only at h
      split at h
      · rename_i hin
        cases h
        exact ⟨hs, fun b hb => hb, fun _ => hin.2⟩
      · cases h
  | succ fuel ih =>
    unfold visit at h
    cases ha : lookup a with
    | none =>
      rw [ha] at h
      cases h
      exact ⟨hs, fun b hb => hb, fun hnone => nomatch hnone⟩
    | some ds =>
      rw [ha] at h
      dsimp only at h
      split at h
      · cases h
      split at h
      · rename_i hin
        cases h
        exact ⟨hs, fun b hb => hb, fun _ => hin⟩
      cases hfold : ds.foldlM (visit lookup fuel (a :: visiting)) visited with
      | error e =>
        rw [hfold] at h
        cases h
      | ok v =>
        rw [hfold] at h
        cases h
        obtain ⟨hv, hsub, hdeps⟩ := foldlM_settled (fun d v v' hv hd => ih hv hd) hs hfold
        refine ⟨⟨?_, hv⟩, fun b hb => List.mem_cons_of_mem _ (hsub b hb),
          fun _ => List.mem_cons_self⟩
        intro ds' hds'
        rw [ha] at hds'
        cases hds'
        exact hdeps

end Visit

/-! ## Ordering -/

/-- Every node of the list has its known dependencies done before it. -/
def ReadyOrder (known : List α) : List α → List σ → Prop
  | _, [] => True
  | done, n :: rest => (∀ d ∈ deps n, d ∈ known → d ∈ done) ∧ ReadyOrder known (key n :: done) rest

/-- One pass over the remaining nodes: those taken, in order, and those left. -/
def pass (known : List α) : List α → List σ → List σ × List σ
  | _, [] => ([], [])
  | done, n :: rest =>
    if (deps n).all (fun d => d ∉ known ∨ d ∈ done) then
      let r := pass known (key n :: done) rest
      (n :: r.1, r.2)
    else
      let r := pass known done rest
      (r.1, n :: r.2)

/-- Passes until nothing remains, or until one takes nothing. -/
def orderFrom (known : List α) : ℕ → List α → List σ → List σ
  | 0, _, remaining => remaining
  | fuel + 1, done, remaining =>
    let r := pass key deps known done remaining
    if r.1 = [] then remaining
    else r.1 ++ orderFrom known fuel (r.1.reverse.map key ++ done) r.2

/-- Order the nodes: repeatedly take those whose dependencies are resolved. -/
def order (nodes : List σ) : List σ :=
  orderFrom key deps (nodes.map key) nodes.length [] nodes

section Order

variable {key deps} {known done : List α} {nodes rest : List σ} {fuel : ℕ} {n : σ}

theorem pass_take (h : ∀ d ∈ deps n, d ∈ known → d ∈ done) :
    pass key deps known done (n :: rest) =
      (n :: (pass key deps known (key n :: done) rest).1,
        (pass key deps known (key n :: done) rest).2) := by
  have hall : (deps n).all (fun d => d ∉ known ∨ d ∈ done) = true := by
    rw [List.all_eq_true]
    intro d hd
    apply decide_eq_true
    by_cases hknown : d ∈ known
    · exact Or.inr (h d hd hknown)
    · exact Or.inl hknown
  rw [pass, if_pos hall]

theorem pass_leave (h : ¬ ∀ d ∈ deps n, d ∈ known → d ∈ done) :
    pass key deps known done (n :: rest) =
      ((pass key deps known done rest).1, n :: (pass key deps known done rest).2) := by
  have hall : ¬ (deps n).all (fun d => d ∉ known ∨ d ∈ done) = true := by
    intro hall
    apply h
    intro d hd hknown
    exact (of_decide_eq_true (List.all_eq_true.mp hall d hd)).resolve_left (fun hno => hno hknown)
  rw [pass, if_neg hall]

theorem pass_perm :
    ((pass key deps known done nodes).1 ++ (pass key deps known done nodes).2).Perm nodes := by
  induction nodes generalizing done with
  | nil => exact List.Perm.refl _
  | cons n rest ih =>
    by_cases h : ∀ d ∈ deps n, d ∈ known → d ∈ done
    · rw [pass_take h]
      exact List.Perm.cons n ih
    · rw [pass_leave h]
      exact List.perm_middle.trans (List.Perm.cons n ih)

theorem pass_readyOrder : ReadyOrder key deps known done (pass key deps known done nodes).1 := by
  induction nodes generalizing done with
  | nil => trivial
  | cons n rest ih =>
    by_cases h : ∀ d ∈ deps n, d ∈ known → d ∈ done
    · rw [pass_take h]
      exact ⟨h, ih⟩
    · rw [pass_leave h]
      exact ih

theorem pass_progress (hn : n ∈ nodes) (h : ∀ d ∈ deps n, d ∈ known → d ∈ done) :
    (pass key deps known done nodes).1 ≠ [] := by
  induction nodes with
  | nil => cases hn
  | cons m rest ih =>
    by_cases hm : ∀ d ∈ deps m, d ∈ known → d ∈ done
    · rw [pass_take hm]
      exact List.cons_ne_nil _ _
    · rw [pass_leave hm]
      rcases List.mem_cons.mp hn with rfl | hn
      · exact absurd h hm
      · exact ih hn

theorem pass_ready (h : ReadyOrder key deps known done nodes) :
    pass key deps known done nodes = (nodes, []) := by
  induction nodes generalizing done with
  | nil => rfl
  | cons n rest ih =>
    rw [pass_take h.1, ih h.2]

theorem orderFrom_perm : (orderFrom key deps known fuel done nodes).Perm nodes := by
  induction fuel generalizing done nodes with
  | zero => exact List.Perm.refl _
  | succ fuel ih =>
    unfold orderFrom
    dsimp only
    split
    · exact List.Perm.refl _
    · exact (List.Perm.append_left _ ih).trans pass_perm

theorem order_perm : (order key deps nodes).Perm nodes := orderFrom_perm

theorem mem_order : n ∈ order key deps nodes ↔ n ∈ nodes := order_perm.mem_iff

theorem order_ready (h : ReadyOrder key deps (nodes.map key) [] nodes) :
    order key deps nodes = nodes := by
  unfold order
  cases nodes with
  | nil => rfl
  | cons n rest =>
    have hend : ∀ (known done : List α) (fuel : ℕ),
        orderFrom key deps known fuel done ([] : List σ) = [] := by
      intro known done fuel
      cases fuel <;> rfl
    rw [List.length_cons, orderFrom, pass_ready h]
    dsimp only
    rw [if_neg (List.cons_ne_nil _ _), hend, List.append_nil]

omit [DecidableEq α] in
theorem readyOrder_append {more : List σ} (h : ReadyOrder key deps known done nodes)
    (hmore : ReadyOrder key deps known (nodes.reverse.map key ++ done) more) :
    ReadyOrder key deps known done (nodes ++ more) := by
  induction nodes generalizing done with
  | nil => exact hmore
  | cons n rest ih =>
    refine ⟨h.1, ih h.2 ?_⟩
    rw [List.reverse_cons, List.map_append, List.append_assoc] at hmore
    exact hmore

omit [DecidableEq α] in
theorem readyOrder_filter {known' done' : List α} {p : σ → Bool}
    (h : ReadyOrder key deps known done nodes) (hknown : ∀ d ∈ known', d ∈ known)
    (hdone : ∀ d ∈ done, d ∈ known' → d ∈ done')
    (hout : ∀ n ∈ nodes, p n = false → key n ∉ known') :
    ReadyOrder key deps known' done' (nodes.filter p) := by
  induction nodes generalizing done done' with
  | nil => trivial
  | cons n rest ih =>
    have hout' : ∀ m ∈ rest, p m = false → key m ∉ known' :=
      fun m hm => hout m (List.mem_cons_of_mem _ hm)
    cases hp : p n with
    | true =>
      rw [List.filter_cons_of_pos hp]
      refine ⟨fun d hd hk => hdone d (h.1 d hd (hknown d hk)) hk, ih h.2 ?_ hout'⟩
      intro d hd hk
      rcases List.mem_cons.mp hd with rfl | hd
      · exact List.mem_cons_self
      · exact List.mem_cons_of_mem _ (hdone d hd hk)
    | false =>
      rw [List.filter_cons_of_neg (by simp [hp])]
      refine ih h.2 ?_ hout'
      intro d hd hk
      rcases List.mem_cons.mp hd with rfl | hd
      · exact absurd hk (hout n List.mem_cons_self hp)
      · exact hdone d hd hk

omit [DecidableEq α] in
theorem settled_minimal {lookup : α → Option (List α)} {visited : List α} {P : α → Prop}
    (hs : Settled lookup visited) {a : α} (ha : a ∈ visited) (hP : P a) :
    ∃ b ∈ visited, P b ∧
      ∀ ds, lookup b = some ds → ∀ d ∈ ds, (lookup d).isSome → ¬ P d := by
  induction visited generalizing a with
  | nil => cases ha
  | cons b rest ih =>
    by_cases hrest : ∃ c ∈ rest, P c
    · obtain ⟨c, hc, hPc⟩ := hrest
      obtain ⟨m, hm, hmin⟩ := ih hs.2 hc hPc
      exact ⟨m, List.mem_cons_of_mem _ hm, hmin⟩
    · have hb : P b := by
        rcases List.mem_cons.mp ha with rfl | ha
        · exact hP
        · exact absurd ⟨a, ha, hP⟩ hrest
      refine ⟨b, List.mem_cons_self, hb, ?_⟩
      intro ds hds d hd hknown hPd
      exact hrest ⟨d, hs.1 ds hds d hd hknown, hPd⟩

theorem ready_order {lookup : α → Option (List α)} {visited : List α}
    (hlookup : ∀ n ∈ nodes, lookup (key n) = some (deps n))
    (hs : Settled lookup visited) (hvisited : ∀ n ∈ nodes, key n ∈ visited) :
    ReadyOrder key deps (nodes.map key) [] (order key deps nodes) := by
  have hall : ∀ fuel done remaining, remaining.length ≤ fuel → (∀ n ∈ remaining, n ∈ nodes) →
      (∀ n ∈ nodes, key n ∈ done ∨ ∃ m ∈ remaining, key m = key n) →
      ReadyOrder key deps (nodes.map key) done
        (orderFrom key deps (nodes.map key) fuel done remaining) := by
    intro fuel
    induction fuel with
    | zero =>
      intro done remaining hlen _ _
      rw [List.length_eq_zero_iff.mp (Nat.le_zero.mp hlen)]
      trivial
    | succ fuel ih =>
      intro done remaining hlen hsub hcover
      cases hrem : remaining with
      | nil => trivial
      | cons n₀ rest₀ =>
        rw [← hrem]
        have hn₀ : n₀ ∈ remaining := hrem ▸ List.mem_cons_self
        -- of the keys that remain, a settled one is free to be taken
        obtain ⟨b, -, ⟨m, hm, rfl⟩, hmin⟩ :=
          settled_minimal (P := fun a => ∃ m ∈ remaining, key m = a) hs
            (hvisited n₀ (hsub n₀ hn₀)) ⟨n₀, hn₀, rfl⟩
        have hready : ∀ d ∈ deps m, d ∈ nodes.map key → d ∈ done := by
          intro d hd hk
          obtain ⟨n, hn, rfl⟩ := List.mem_map.mp hk
          refine (hcover n hn).resolve_right ?_
          refine hmin (deps m) (hlookup m (hsub m hm)) (key n) hd ?_
          rw [hlookup n hn]
          rfl
        have htaken : (pass key deps (nodes.map key) done remaining).1 ≠ [] :=
          pass_progress hm hready
        have hperm : ((pass key deps (nodes.map key) done remaining).1 ++
            (pass key deps (nodes.map key) done remaining).2).Perm remaining := pass_perm
        unfold orderFrom
        dsimp only
        rw [if_neg htaken]
        refine readyOrder_append pass_readyOrder (ih _ _ ?_ ?_ ?_)
        · have hpos := List.length_pos_iff.mpr htaken
          have hlength := hperm.length_eq
          rw [List.length_append] at hlength
          omega
        · intro n hn
          exact hsub n (hperm.mem_iff.mp (List.mem_append_right _ hn))
        · intro n hn
          rcases hcover n hn with hdone | ⟨m', hm', hkey⟩
          · exact Or.inl (List.mem_append_right _ hdone)
          · rcases List.mem_append.mp (hperm.mem_iff.mpr hm') with htook | hleft
            · left
              refine List.mem_append_left _ (List.mem_map.mpr ⟨m', ?_, hkey⟩)
              exact List.mem_reverse.mpr htook
            · exact Or.inr ⟨m', hleft, hkey⟩
  exact hall nodes.length [] nodes (Nat.le_refl _) (fun n hn => hn) (fun n hn => Or.inr ⟨n, hn, rfl⟩)

omit [DecidableEq α] in

omit [DecidableEq α] in
theorem readyOrder_iff : ReadyOrder key deps known done nodes ↔
    ∀ before m after, nodes = before ++ m :: after →
      ∀ d ∈ deps m, d ∈ known → d ∈ before.map key ∨ d ∈ done := by
  induction nodes generalizing done with
  | nil =>
    refine ⟨fun _ before m after h => ?_, fun _ => trivial⟩
    exact absurd h.symm (List.append_ne_nil_of_right_ne_nil _ (List.cons_ne_nil _ _))
  | cons n rest ih =>
    unfold ReadyOrder
    rw [ih]
    constructor
    · intro ⟨hfirst, hrest⟩ before m after hsplit d hd hk
      cases before with
      | nil =>
        obtain ⟨rfl, -⟩ := List.cons.inj hsplit
        exact Or.inr (hfirst d hd hk)
      | cons b before =>
        obtain ⟨rfl, htail⟩ := List.cons.inj hsplit
        rw [List.map_cons, List.mem_cons]
        rcases hrest before m after htail d hd hk with hin | hdone
        · exact Or.inl (Or.inr hin)
        · rcases List.mem_cons.mp hdone with hhead | hdone
          · exact Or.inl (Or.inl hhead)
          · exact Or.inr hdone
    · intro h
      refine ⟨fun d hd hk => ?_, fun before m after hsplit d hd hk => ?_⟩
      · have hd' := h [] n rest rfl d hd hk
        exact hd'.resolve_left List.not_mem_nil
      · have hsplit' : n :: rest = (n :: before) ++ m :: after := by
          rw [hsplit]
          rfl
        have hd' := h (n :: before) m after hsplit' d hd hk
        rw [List.map_cons, List.mem_cons] at hd'
        rw [List.mem_cons]
        rcases hd' with (hhead | hin) | hdone
        · exact Or.inr (Or.inl hhead)
        · exact Or.inl hin
        · exact Or.inr (Or.inr hdone)

end Order

/-! ## Cycles -/

/-- No key depends on itself through the nodes. -/
def Acyclic (nodes : List σ) : Prop := ∀ a, ¬ Relation.TransGen (Edge key deps nodes) a a

section Cycles

variable {key deps} {known : List α} {nodes : List σ} {a b : α}

theorem edge_before (hnodup : (nodes.map key).Nodup)
    (hclosed : ∀ n ∈ nodes, ∀ d ∈ deps n, d ∈ known)
    (h : ReadyOrder key deps known [] nodes) (hab : Edge key deps nodes a b) :
    (nodes.map key).idxOf a < (nodes.map key).idxOf b := by
  obtain ⟨n, hn, rfl, ha⟩ := hab
  obtain ⟨before, after, rfl⟩ := List.append_of_mem hn
  have hbefore : a ∈ before.map key := by
    have hsplit := readyOrder_iff.mp h before n after rfl a ha (hclosed n hn a ha)
    exact hsplit.resolve_right List.not_mem_nil
  rw [List.map_append, List.map_cons] at hnodup ⊢
  have hn' : key n ∉ before.map key := by
    intro hmem
    exact (List.nodup_append.mp hnodup).2.2 _ hmem _ List.mem_cons_self rfl
  rw [List.idxOf_append_of_mem hbefore, List.idxOf_append_of_notMem hn', List.idxOf_cons_self]
  have hlt := List.idxOf_lt_length_of_mem hbefore
  omega

theorem acyclic_of_readyOrder (hnodup : (nodes.map key).Nodup)
    (hclosed : ∀ n ∈ nodes, ∀ d ∈ deps n, d ∈ known)
    (h : ReadyOrder key deps known [] nodes) : Acyclic key deps nodes := by
  intro a hcycle
  have hlt : ∀ b, Relation.TransGen (Edge key deps nodes) a b →
      (nodes.map key).idxOf a < (nodes.map key).idxOf b := by
    intro b hab
    induction hab with
    | single hstep => exact edge_before hnodup hclosed h hstep
    | tail _ hstep ih => exact Nat.lt_trans ih (edge_before hnodup hclosed h hstep)
  exact Nat.lt_irrefl _ (hlt a hcycle)

end Cycles

end Deps

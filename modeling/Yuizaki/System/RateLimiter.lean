import Mathlib.Algebra.Order.Ring.Rat
import Mathlib.Tactic.Linarith
import Yuizaki.Lib.Dict
import Yuizaki.Lib.Run
import Yuizaki.Lib.Window

/- The rate limiter of the routes (`SlidingWindowRateLimiter` in `system/rate_limiter.py`).

   The limiter remembers, for each key, the calls that it allowed in the last window, oldest first.
   It forgets what is older and allows a call while it remembers fewer than it may allow. So no
   window of a key has too many (`calls_limited`), and the wait that a refusal names is enough
   (`retry_after_suffices`). -/
namespace RateLimiting

open Transition Window

/-- `RateLimitResult`. -/
structure RateLimitResult where
  allowed : Bool
  retryAfter : ℚ
  remaining : ℕ

structure SlidingWindowRateLimiter where
  maxRequests : ℕ
  windowSeconds : ℚ
  events : Dict String (List ℚ)

namespace SlidingWindowRateLimiter

def new (maxRequests : ℤ) (windowSeconds : ℚ) : SlidingWindowRateLimiter where
  maxRequests := (max 1 maxRequests).toNat
  windowSeconds := max (1 / 10) windowSeconds
  events := Dict.empty

variable (l : SlidingWindowRateLimiter)

/-- The calls of a key that are still remembered. -/
def eventsOf (key : String) : List ℚ := (l.events.get key).getD []

/-- The calls of a key that are not older than the window. -/
def kept (now : ℚ) (key : String) : List ℚ := (l.eventsOf key).dropWhile (· < now - l.windowSeconds)

def check (now : ℚ) (key : String) : RateLimitResult × SlidingWindowRateLimiter :=
  let events := l.kept now key
  let pruned := if events = [] then (l.events.erase key).set key [] else l.events.set key events
  if l.maxRequests ≤ events.length then
    (⟨false, max (1 / 100) (l.windowSeconds - (now - events.headD now)), 0⟩, { l with events := pruned })
  else
    (⟨true, 0, l.maxRequests - (events.length + 1)⟩, { l with events := pruned.set key (events ++ [now]) })

end SlidingWindowRateLimiter

/-- The limiter, the clock, and the calls that were allowed, newest first. -/
structure RateSystem where
  limiter : SlidingWindowRateLimiter
  clock : ℚ
  allowed : List (String × ℚ)

namespace RateSystem

/-- The times of a key. -/
def times (s : RateSystem) (key : String) : List ℚ := (s.allowed.filter (·.1 = key)).map Prod.snd

/-- A call of `check`, not before the clock. -/
def next (s : RateSystem) (call : String × ℚ) : Option RateSystem :=
  if s.clock ≤ call.2 then
    let checked := s.limiter.check call.2 call.1
    some ⟨checked.2, call.2, if checked.1.allowed then call :: s.allowed else s.allowed⟩
  else none

def start (maxRequests : ℤ) (windowSeconds clock : ℚ) : RateSystem := ⟨.new maxRequests windowSeconds, clock, []⟩

end RateSystem

/-- The runs of a limiter. -/
abbrev RateRun (maxRequests : ℤ) (windowSeconds clock : ℚ) : List (String × ℚ) → RateSystem → Prop :=
  Run (fun s call s' => RateSystem.next s call = some s') (RateSystem.start maxRequests windowSeconds clock)

/-- What the limiter remembers of a key. -/
structure Remembers (s : RateSystem) (key : String) : Prop where
  paced : Paced s.limiter.windowSeconds 0 s.limiter.maxRequests (s.times key)
  past : ∀ t ∈ s.times key, t ≤ s.clock
  known : (recent s.limiter.windowSeconds s.clock (s.times key)).Subperm (s.limiter.eventsOf key)
  sorted : (s.limiter.eventsOf key).Pairwise (· ≤ ·)
  before : ∀ t ∈ s.limiter.eventsOf key, t ≤ s.clock
  room : (s.limiter.eventsOf key).length ≤ s.limiter.maxRequests

section Keep

variable {l : SlidingWindowRateLimiter} {s s' : RateSystem} {now cutoff : ℚ} {key other : String} {times : List ℚ}

/-! ## What is forgotten -/

theorem dropWhile_sorted (h : times.Pairwise (· ≤ ·)) :
    times.dropWhile (· < cutoff) = times.filter (fun t => cutoff ≤ t) := by
  induction times with
  | nil => rfl
  | cons t rest ih =>
    obtain ⟨hfirst, hrest⟩ := List.pairwise_cons.mp h
    by_cases ht : t < cutoff
    · have hout : ¬ cutoff ≤ t := not_le.mpr ht
      simp [ht, hout, ih hrest]
    · have hin : ∀ x ∈ t :: rest, cutoff ≤ x := by
        intro x hx
        obtain rfl | hx := List.mem_cons.mp hx
        · exact not_lt.mp ht
        · exact (not_lt.mp ht).trans (hfirst x hx)
      rw [List.dropWhile_cons_of_neg (by simpa using ht), List.filter_eq_self.mpr (by simpa using hin)]

theorem eventsOf_check (l : SlidingWindowRateLimiter) (now : ℚ) (key other : String) :
    (l.check now key).2.eventsOf other =
      if other = key then l.kept now key ++ (if (l.check now key).1.allowed then [now] else [])
      else l.eventsOf other := by
  unfold SlidingWindowRateLimiter.check SlidingWindowRateLimiter.eventsOf
  by_cases hfull : l.maxRequests ≤ (l.kept now key).length
  · simp only [if_pos hfull]
    by_cases hempty : l.kept now key = []
    · simp [hempty, Dict.get_set, Dict.get_erase]
      split <;> simp_all
    · simp [hempty, Dict.get_set]
      split <;> simp_all
  · simp only [if_neg hfull]
    by_cases hempty : l.kept now key = []
    · simp [hempty, Dict.get_set, Dict.get_erase]
      split <;> simp_all
    · simp [hempty, Dict.get_set]
      split <;> simp_all

theorem check_limiter (l : SlidingWindowRateLimiter) (now : ℚ) (key : String) :
    (l.check now key).2.maxRequests = l.maxRequests ∧ (l.check now key).2.windowSeconds = l.windowSeconds ∧
      ((l.check now key).1.allowed = true ↔ (l.kept now key).length < l.maxRequests) := by
  unfold SlidingWindowRateLimiter.check
  by_cases hfull : l.maxRequests ≤ (l.kept now key).length
  · simp [hfull]
  · simp [hfull]
    omega

/-! ## What a call keeps -/

theorem next_cases (h : s.next (key, now) = some s') :
    s.clock ≤ now ∧ s'.clock = now ∧ s'.limiter = (s.limiter.check now key).2 ∧
      s'.allowed = if (s.limiter.check now key).1.allowed then (key, now) :: s.allowed else s.allowed := by
  unfold RateSystem.next at h
  by_cases hclock : s.clock ≤ now
  · rw [if_pos hclock] at h
    obtain rfl := Option.some.inj h
    exact ⟨hclock, rfl, rfl, rfl⟩
  · rw [if_neg hclock] at h
    cases h

theorem known_kept (h : Remembers s key) (hclock : s.clock ≤ now) :
    (recent s.limiter.windowSeconds now (s.times key)).Subperm (s.limiter.kept now key) := by
  have hrecent : recent s.limiter.windowSeconds now (s.times key) =
      (recent s.limiter.windowSeconds s.clock (s.times key)).filter (fun t => now - s.limiter.windowSeconds ≤ t) := by
    rw [recent, recent, List.filter_filter]
    refine List.filter_congr fun t _ => ?_
    by_cases ht : now - s.limiter.windowSeconds ≤ t
    · have hearlier := (sub_le_sub_right hclock s.limiter.windowSeconds).trans ht
      simp [ht, hearlier]
    · simp [ht]
  rw [hrecent, SlidingWindowRateLimiter.kept, dropWhile_sorted h.sorted]
  exact h.known.filter _

/-- A call that is not allowed, or is of another key, may make the limiter forget what is older. -/
theorem Remembers.later (h : Remembers s other) (hnext : s.next (key, now) = some s')
    (htimes : s'.times other = s.times other) (hsub : (s'.limiter.eventsOf other).Sublist (s.limiter.eventsOf other))
    (hknown : (recent s.limiter.windowSeconds now (s.times other)).Subperm (s'.limiter.eventsOf other)) :
    Remembers s' other := by
  obtain ⟨hclock, hclock', hlimiter, -⟩ := next_cases hnext
  obtain ⟨hmax, hwidth, -⟩ := check_limiter s.limiter now key
  rw [← hlimiter] at hmax hwidth
  refine ⟨?_, ?_, ?_, h.sorted.sublist hsub, ?_, ?_⟩
  · rw [hmax, hwidth, htimes]
    exact h.paced
  · rw [htimes, hclock']
    exact fun t ht => (h.past t ht).trans hclock
  · rw [htimes, hclock', hwidth]
    exact hknown
  · rw [hclock']
    exact fun t ht => (h.before t (hsub.subset ht)).trans hclock
  · rw [hmax]
    exact hsub.length_le.trans h.room

theorem Remembers.uncalled (h : Remembers s other) (hne : other ≠ key) (hnext : s.next (key, now) = some s') :
    Remembers s' other := by
  obtain ⟨hclock, -, hlimiter, hallowed⟩ := next_cases hnext
  have hevents : s'.limiter.eventsOf other = s.limiter.eventsOf other := by
    rw [hlimiter, eventsOf_check, if_neg hne]
  refine h.later hnext ?_ (by rw [hevents]) ?_
  · unfold RateSystem.times
    rw [hallowed]
    split
    · simp [hne.symm]
    · rfl
  · rw [hevents]
    exact (recent_sublist hclock).subperm.trans h.known

theorem Remembers.called (h : Remembers s key) (hwindow : 0 ≤ s.limiter.windowSeconds)
    (hnext : s.next (key, now) = some s') : Remembers s' key := by
  obtain ⟨hclock, hclock', hlimiter, hallowed⟩ := next_cases hnext
  obtain ⟨hmax, hwidth, hroom⟩ := check_limiter s.limiter now key
  have hsub : (s.limiter.kept now key).Sublist (s.limiter.eventsOf key) := List.dropWhile_sublist _
  have hevents := eventsOf_check s.limiter now key key
  rw [if_pos rfl, ← hlimiter] at hevents
  have hknown := known_kept h hclock
  by_cases hyes : (s.limiter.check now key).1.allowed = true
  · rw [if_pos hyes] at hallowed hevents
    have htimes : s'.times key = now :: s.times key := by simp [RateSystem.times, hallowed]
    have hfree := hroom.mp hyes
    have hpast : ∀ t ∈ s.times key, t ≤ now := fun t ht => (h.past t ht).trans hclock
    have hbefore : ∀ t ∈ s.limiter.kept now key, t ≤ now := fun t ht => (h.before t (hsub.subset ht)).trans hclock
    have hcount : (s.limiter.kept now key).countP (fun t => now - s.limiter.windowSeconds ≤ t) <
        s.limiter.maxRequests := lt_of_le_of_lt List.countP_le_length hfree
    rw [← hlimiter] at hmax hwidth
    refine ⟨?_, ?_, ?_, ?_, ?_, ?_⟩
    · rw [hmax, hwidth, htimes]
      exact paced_cons h.paced hpast le_rfl hwindow hknown hcount (fun hzero => absurd hzero (lt_irrefl 0))
    · rw [htimes, hclock']
      exact List.forall_mem_cons.mpr ⟨le_rfl, hpast⟩
    · rw [htimes, hclock', hevents, hwidth]
      exact recent_cons hknown hwindow
    · rw [hevents]
      refine List.pairwise_append.mpr ⟨h.sorted.sublist hsub, List.pairwise_singleton _ _, fun t ht u hu => ?_⟩
      rw [List.mem_singleton.mp hu]
      exact hbefore t ht
    · rw [hevents, hclock']
      intro t ht
      obtain ht | ht := List.mem_append.mp ht
      · exact hbefore t ht
      · rw [List.mem_singleton.mp ht]
    · rw [hevents, hmax, List.length_append, List.length_singleton]
      omega
  · rw [if_neg hyes] at hallowed hevents
    rw [List.append_nil] at hevents
    refine h.later hnext (by simp [RateSystem.times, hallowed]) ?_ ?_
    · rw [hevents]
      exact hsub
    · rw [hevents]
      exact hknown

end Keep

/-! ## Runs -/

section Runs

variable {s : RateSystem} {maxRequests : ℤ} {windowSeconds clock : ℚ} {hist : List (String × ℚ)}

theorem run_remembers (hrun : RateRun maxRequests windowSeconds clock hist s) :
    s.limiter.maxRequests = (max 1 maxRequests).toNat ∧ s.limiter.windowSeconds = max (1 / 10) windowSeconds ∧
      ∀ key, Remembers s key := by
  induction hrun with
  | start =>
    refine ⟨rfl, rfl, fun key => ?_⟩
    exact ⟨paced_nil, by simp [RateSystem.times, RateSystem.start], List.nil_subperm, List.Pairwise.nil,
      fun t ht => absurd ht List.not_mem_nil, Nat.zero_le _⟩
  | @next _ s _ call _ hnext ih =>
    obtain ⟨key, now⟩ := call
    obtain ⟨hmax, hwidth, hkeys⟩ := ih
    obtain ⟨hmax', hwidth', -⟩ := check_limiter s.limiter now key
    obtain ⟨-, -, hlimiter, -⟩ := next_cases hnext
    rw [hlimiter, hmax', hwidth']
    refine ⟨hmax, hwidth, fun other => ?_⟩
    by_cases hother : other = key
    · subst hother
      have hpositive : 0 ≤ s.limiter.windowSeconds := by
        rw [hwidth]
        exact (by norm_num : (0 : ℚ) ≤ 1 / 10).trans (le_max_left _ _)
      exact (hkeys other).called hpositive hnext
    · exact (hkeys other).uncalled hother hnext

/-- **No window has too many calls**: in every run, of any keys in any order, no span of time as long as the window
    has more than `max_requests` calls of a key that were allowed. -/
theorem calls_limited (hrun : RateRun maxRequests windowSeconds clock hist s) (key : String) (t : ℚ) :
    (s.times key).countP (fun x => t - max (1 / 10) windowSeconds ≤ x ∧ x ≤ t) ≤ (max 1 maxRequests).toNat := by
  obtain ⟨hmax, hwidth, hkeys⟩ := run_remembers hrun
  rw [← hmax, ← hwidth]
  exact (hkeys key).paced.limit t

theorem calls_limited_refused : ∃ s, RateRun 1 10 0 [("a", 3), ("b", 2), ("a", 1)] s ∧ s.times "a" = [1] ∧
      (s.times "a").countP (fun x => 11 - max (1 / 10) 10 ≤ x ∧ x ≤ 11) ≤ (max 1 1 : ℤ).toNat := by
  have hexec : (Run.exec RateSystem.next (RateSystem.start 1 10 0) [("a", 1), ("b", 2), ("a", 3)]).any
      (fun s => s.times "a" = [1]) = true := by decide +kernel
  obtain ⟨s, hs, htimes⟩ := (Option.any_eq_true _ _).mp hexec
  exact ⟨s, Run.of_exec hs, of_decide_eq_true htimes, calls_limited (Run.of_exec hs) "a" 11⟩

/-- **The wait that a refusal names is enough**: a key that is refused is allowed at any later time than that, unless
    it was called again. -/
theorem retry_after_suffices (hrun : RateRun maxRequests windowSeconds clock hist s) {key : String} {now later : ℚ}
    (hrefused : (s.limiter.check now key).1.allowed = false)
    (hlater : now + (s.limiter.check now key).1.retryAfter < later) :
    ((s.limiter.check now key).2.check later key).1.allowed = true := by
  obtain ⟨hmost, -, hkeys⟩ := run_remembers hrun
  obtain ⟨hmax, hwidth, hroom⟩ := check_limiter s.limiter now key
  have hfull : s.limiter.maxRequests ≤ (s.limiter.kept now key).length := by
    by_contra hfree
    rw [hroom.mpr (not_le.mp hfree)] at hrefused
    cases hrefused
  have hsub : (s.limiter.kept now key).Sublist (s.limiter.eventsOf key) := List.dropWhile_sublist _
  have hlength := hsub.length_le.trans (hkeys key).room
  have hevents := eventsOf_check s.limiter now key key
  rw [if_pos rfl, hrefused, if_neg Bool.false_ne_true, List.append_nil] at hevents
  refine (check_limiter _ later key).2.2.mpr ?_
  rw [hmax, SlidingWindowRateLimiter.kept, hevents, hwidth]
  have hretry : (s.limiter.check now key).1.retryAfter =
      max (1 / 100) (s.limiter.windowSeconds - (now - (s.limiter.kept now key).headD now)) := by
    unfold SlidingWindowRateLimiter.check
    rw [if_pos hfull]
  cases hkept : s.limiter.kept now key with
  | nil =>
    rw [hkept, hmost, List.length_nil] at hfull
    omega
  | cons first rest =>
    -- the oldest call has left the window by then
    rw [hretry, hkept] at hlater
    have hgone : first < later - s.limiter.windowSeconds := by
      have hle := le_max_right (1 / 100) (s.limiter.windowSeconds - (now - (first :: rest).headD now))
      simp only [List.headD_cons] at hle hlater
      linarith
    have hshort := (List.dropWhile_sublist (fun t => decide (t < later - s.limiter.windowSeconds)) (l := rest)).length_le
    rw [List.dropWhile_cons_of_pos (by simpa using hgone)]
    rw [hkept, List.length_cons] at hlength
    omega

theorem retry_after_suffices_refused : ∃ s, RateRun 1 10 0 [("a", 1)] s ∧ (s.limiter.check 3 "a").1.retryAfter = 8 ∧
      ((s.limiter.check 3 "a").2.check 12 "a").1.allowed = true := by
  have hexec : (Run.exec RateSystem.next (RateSystem.start 1 10 0) [("a", 1)]).any (fun s =>
      (s.limiter.check 3 "a").1.allowed = false ∧ (s.limiter.check 3 "a").1.retryAfter = 8) = true := by decide +kernel
  obtain ⟨s, hs, hchecked⟩ := (Option.any_eq_true _ _).mp hexec
  obtain ⟨hrefused, hretry⟩ := of_decide_eq_true hchecked
  exact ⟨s, Run.of_exec hs, hretry, retry_after_suffices (Run.of_exec hs) hrefused (by rw [hretry]; norm_num)⟩

end Runs

end RateLimiting

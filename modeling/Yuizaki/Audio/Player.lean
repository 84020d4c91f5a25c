import Mathlib.Algebra.Order.Ring.Rat
import Mathlib.Data.List.Range
import Mathlib.Data.List.Sort
import Mathlib.Logic.Function.Basic
import Yuizaki.Lib.Dict
import Yuizaki.Lib.JsStr
import Yuizaki.Lib.Run

/- The queue of the audio player (`AudioPlayer` in `renderer/audio/player.ts`).

   The segments of a generation are numbered and may come out of order. The player holds what is
   ahead of the next number, and a final segment that is ahead starts a timer, which releases what
   is held. Where a final segment is the last of those that came, the queue takes the segments of a
   generation in their order, each once, and a segment that came waits no longer than the timer, once
   a final one is held (`segments_in_order`). -/
namespace Audio

open Transition

/-- What the queue reads of a segment; the rest is for the playback. -/
structure QueuedAudio where
  audioUrl : String
  generationId : Option String
  sequence : Option ℚ
  isFinal : Bool

/-- The generation and the number of a segment, where it has both. -/
def QueuedAudio.place (item : QueuedAudio) : Option (String × ℕ) :=
  match item.generationId, item.sequence with
  | some generationId, some sequence =>
    if generationId ≠ "" ∧ sequence.den = 1 ∧ 0 ≤ sequence.num then some (generationId, sequence.num.toNat) else none
  | _, _ => none

structure AudioPlayer where
  queue : List QueuedAudio
  sequenceBuffers : Dict String (Dict ℕ QueuedAudio)
  nextSequenceByGeneration : Dict String ℕ
  sequenceGapTimers : Dict String Unit

/-- What the loop over a buffer took, and what it left. -/
structure Drained where
  items : List QueuedAudio
  left : Dict ℕ QueuedAudio
  next : ℕ

/-- `while (buffer.has(next))`. -/
def drain : (fuel : ℕ) → Dict ℕ QueuedAudio → ℕ → Drained
  | 0, buffer, next => ⟨[], buffer, next⟩
  | fuel + 1, buffer, next =>
    match buffer.get next with
    | none => ⟨[], buffer, next⟩
    | some item =>
      let rest := drain fuel (buffer.erase next) (next + 1)
      { rest with items := item :: rest.items }

namespace AudioPlayer

def new : AudioPlayer := ⟨[], Dict.empty, Dict.empty, Dict.empty⟩

variable (p : AudioPlayer)

/-- The number that the queue takes next. -/
def nextOf (generationId : String) : ℕ := (p.nextSequenceByGeneration.get generationId).getD 0

/-- The segments that are held. -/
def heldOf (generationId : String) : Dict ℕ QueuedAudio := (p.sequenceBuffers.get generationId).getD Dict.empty

def flushSequenceBuffer (generationId : String) (isFinal : Bool) : AudioPlayer :=
  match p.sequenceBuffers.get generationId with
  | none => p
  | some buffer =>
    let drained := drain buffer.keys.length buffer (p.nextOf generationId)
    let queue := p.queue ++ drained.items
    if isFinal = true ∧ drained.left.keys ≠ [] ∧ p.sequenceGapTimers.get generationId = none then
      -- the next number is not stored here
      { p with
        queue
        sequenceBuffers := p.sequenceBuffers.set generationId drained.left
        sequenceGapTimers := p.sequenceGapTimers.set generationId () }
    else
      let nextSequenceByGeneration := p.nextSequenceByGeneration.set generationId drained.next
      if drained.left.keys = [] then
        { queue
          sequenceBuffers := p.sequenceBuffers.erase generationId
          nextSequenceByGeneration
          sequenceGapTimers := p.sequenceGapTimers.erase generationId }
      else
        { p with queue, sequenceBuffers := p.sequenceBuffers.set generationId drained.left, nextSequenceByGeneration }

def enqueueInternal (item : QueuedAudio) : AudioPlayer :=
  if JsStr.trim item.audioUrl = "" then p
  else match item.place with
    | none => { p with queue := p.queue ++ [item] }
    | some (generationId, sequence) =>
      if sequence < p.nextOf generationId then p
      else
        let held := (p.heldOf generationId).set sequence item
        { p with sequenceBuffers := p.sequenceBuffers.set generationId held }.flushSequenceBuffer generationId item.isFinal

/-- What is held, by its numbers. -/
def pending (generationId : String) : List QueuedAudio :=
  ((p.heldOf generationId).keys.mergeSort (· ≤ ·)).filterMap (p.heldOf generationId).get

/-- The end of the timer of a generation. -/
def gapTimeout (generationId : String) : AudioPlayer :=
  let timers := p.sequenceGapTimers.erase generationId
  match p.sequenceBuffers.get generationId with
  | none => { p with sequenceGapTimers := timers }
  | some _ =>
    { queue := p.queue ++ p.pending generationId
      sequenceBuffers := p.sequenceBuffers.erase generationId
      nextSequenceByGeneration := p.nextSequenceByGeneration.erase generationId
      sequenceGapTimers := timers }

/-- The first segment goes to the playback. -/
def playNextQueued : AudioPlayer := { p with queue := p.queue.tail }

end AudioPlayer

/-! ## Runs -/

inductive PlayerEvent where
  | enqueue (item : QueuedAudio)
  | gapTimeout (generationId : String)
  | playNextQueued
  | clearQueuedAudio

/-- The player, with the numbers of each generation that came and those that went into the queue, since
    the player last forgot the generation. -/
structure PlayerSystem where
  player : AudioPlayer
  came : String → List ℕ
  queued : String → List ℕ

namespace PlayerSystem

def start : PlayerSystem := ⟨.new, fun _ => [], fun _ => []⟩

/-- The numbers of a generation among segments. -/
def numbers (generationId : String) (items : List QueuedAudio) : List ℕ :=
  items.filterMap fun item => (item.place.filter (·.1 = generationId)).map Prod.snd

def next (s : PlayerSystem) : PlayerEvent → Option PlayerSystem
  | .enqueue item =>
    let player := s.player.enqueueInternal item
    let came (generationId : String) :=
      if JsStr.trim item.audioUrl = "" then s.came generationId else s.came generationId ++ numbers generationId [item]
    let added := player.queue.drop s.player.queue.length
    some ⟨player, came, fun generationId => s.queued generationId ++ numbers generationId added⟩
  | .gapTimeout generationId =>
    (s.player.sequenceGapTimers.get generationId).map fun _ =>
      let player := s.player.gapTimeout generationId
      if (s.player.sequenceBuffers.get generationId).isSome = true then
        ⟨player, Function.update s.came generationId [], Function.update s.queued generationId []⟩
      else { s with player }
  | .playNextQueued => some { s with player := s.player.playNextQueued }
  | .clearQueuedAudio => some start

/-- The numbers of a generation in the queue, and those that the end of the timer would release. -/
def released (s : PlayerSystem) (generationId : String) : List ℕ :=
  s.queued generationId ++ numbers generationId (s.player.pending generationId)

/-- No segment of its generation that came is ahead of a final one. -/
def finalIsLast (s : PlayerSystem) : PlayerEvent → Prop
  | .enqueue item => item.isFinal = true → ∀ generationId sequence, item.place = some (generationId, sequence) →
      ∀ n ∈ s.came generationId, n ≤ sequence
  | _ => True

end PlayerSystem

/-- The runs in which a final segment is the last of its generation. -/
abbrev PlayerRun : List PlayerEvent → PlayerSystem → Prop :=
  Run (fun s event s' => PlayerSystem.next s event = some s' ∧ s.finalIsLast event) PlayerSystem.start

/-- What the player has made of the segments of a generation. -/
structure InOrder (s : PlayerSystem) (g : String) : Prop where
  queued : s.queued g = List.range (s.player.nextOf g)
  ahead : ∀ n item, (s.player.heldOf g).get n = some item → s.player.nextOf g < n
  placed : ∀ n item, (s.player.heldOf g).get n = some item → item.place = some (g, n)
  came : ∀ n, n ∈ s.came g ↔
    n < s.player.nextOf g ∨ (s.player.heldOf g).get n ≠ none
  timed : ∀ n item, (s.player.heldOf g).get n = some item → item.isFinal = true →
    s.player.sequenceGapTimers.get g ≠ none

section Drain

variable {buffer : Dict ℕ QueuedAudio} {fuel next : ℕ}

/-! ## The loop over a buffer -/

/-- What the loop takes are the segments from the next number on, as far as they go. -/
structure DrainSpec (buffer : Dict ℕ QueuedAudio) (next : ℕ) (drained : Drained) : Prop where
  from_next : next ≤ drained.next
  items : drained.items.map some = (List.range' next (drained.next - next)).map buffer.get
  left : ∀ n, drained.left.get n = if next ≤ n ∧ n < drained.next then none else buffer.get n
  stops : drained.left.get drained.next = none

theorem keys_ne_nil : buffer.keys ≠ [] ↔ ∃ n, buffer.get n ≠ none := by
  constructor
  · intro h
    obtain ⟨n, hn⟩ := List.exists_mem_of_ne_nil _ h
    obtain ⟨item, hitem⟩ := Dict.mem_keys.mp hn
    exact ⟨n, by simp [hitem]⟩
  · rintro ⟨n, hn⟩
    exact List.ne_nil_of_mem (Dict.mem_keys.mpr (Option.ne_none_iff_exists'.mp hn))

theorem drain_spec (hfuel : buffer.keys.length ≤ fuel) : DrainSpec buffer next (drain fuel buffer next) := by
  induction fuel generalizing buffer next with
  | zero =>
    have hempty : buffer.get next = none := by
      by_contra hsome
      have hpos := List.length_pos_iff.mpr (keys_ne_nil.mpr ⟨next, hsome⟩)
      omega
    exact ⟨le_rfl, by simp [drain], fun n => (if_neg (by simp only [drain]; omega)).symm, hempty⟩
  | succ fuel ih =>
    cases hget : buffer.get next with
    | none =>
      simp only [drain, hget]
      exact ⟨le_rfl, by simp, fun n => (if_neg (by dsimp only; omega)).symm, hget⟩
    | some item =>
      simp only [drain, hget]
      have hlength := Dict.length_keys_erase (d := buffer) (k := next) (by simp [hget])
      obtain ⟨hfrom, hitems, hleft, hstops⟩ := @ih (buffer.erase next) (next + 1) (by omega)
      generalize drain fuel (buffer.erase next) (next + 1) = rest at hfrom hitems hleft hstops
      refine ⟨by dsimp only; omega, ?_, fun n => ?_, hstops⟩
      · have hcount : rest.next - next = (rest.next - (next + 1)) + 1 := by omega
        dsimp only
        rw [hcount, List.range'_succ, List.map_cons, List.map_cons, hitems, hget]
        refine congrArg _ (List.map_congr_left fun n hn => ?_)
        have hlarger := (List.mem_range'_1.mp hn).1
        rw [Dict.get_erase, if_neg (by omega)]
      · dsimp only
        rw [hleft, Dict.get_erase]
        by_cases hn : n = next
        · subst hn
          rw [if_neg (by omega), if_pos rfl, if_pos (by omega)]
        · rw [if_neg hn]
          by_cases hin : next + 1 ≤ n ∧ n < rest.next
          · rw [if_pos hin, if_pos (by omega)]
          · rw [if_neg hin, if_neg (by omega)]

theorem DrainSpec.taken {drained : Drained} {n : ℕ} (h : DrainSpec buffer next drained) (hfrom : next ≤ n)
    (hn : n < drained.next) : buffer.get n ≠ none := by
  have hmem : buffer.get n ∈ (List.range' next (drained.next - next)).map buffer.get :=
    List.mem_map_of_mem (List.mem_range'_1.mpr ⟨hfrom, by omega⟩)
  rw [← h.items] at hmem
  obtain ⟨item, -, hitem⟩ := List.mem_map.mp hmem
  simp [← hitem]

/-- Segments that are at the places where they are taken have those numbers, and no other generation has. -/
theorem numbers_items {g other : String} {items : List QueuedAudio} {ns : List ℕ}
    (hplaced : ∀ n item, buffer.get n = some item → item.place = some (g, n))
    (h : items.map some = ns.map buffer.get) :
    PlayerSystem.numbers other items = if other = g then ns else [] := by
  induction ns generalizing items with
  | nil =>
    obtain rfl : items = [] := by simpa using h
    simp [PlayerSystem.numbers]
  | cons n rest ih =>
    cases items with
    | nil => simp at h
    | cons item items =>
      simp only [List.map_cons, List.cons.injEq] at h
      have hrest := ih h.2
      have hplace := hplaced n item h.1.symm
      unfold PlayerSystem.numbers at hrest ⊢
      by_cases hother : other = g
      · subst hother
        simp [hplace, hrest]
      · have hne : ¬ g = other := fun heq => hother heq.symm
        simp [hplace, hrest, hother, hne]

end Drain

section Player

variable {p : AudioPlayer} {s s' : PlayerSystem} {item : QueuedAudio} {g other : String} {n : ℕ}

/-! ## What the operations do -/

/-- The player after the buffer of a generation was drained. -/
structure Flushed (p p' : AudioPlayer) (g : String) (isFinal : Bool) (drained : Drained) : Prop where
  queue : p'.queue = p.queue ++ drained.items
  held : ∀ other n, (p'.heldOf other).get n =
    if other = g then drained.left.get n else (p.heldOf other).get n
  nexts : ∀ other, other ≠ g → p'.nextOf other = p.nextOf other
  next : p'.nextOf g = drained.next ∨
    p'.nextOf g = p.nextOf g ∧ isFinal = true ∧ drained.left.keys ≠ []
  timers : ∀ other, p.sequenceGapTimers.get other ≠ none → (other = g → drained.left.keys ≠ []) →
    p'.sequenceGapTimers.get other ≠ none
  timer : isFinal = true → drained.left.keys ≠ [] → p'.sequenceGapTimers.get g ≠ none

theorem flush_spec {buffer : Dict ℕ QueuedAudio} (hbuffer : p.sequenceBuffers.get g = some buffer)
    (isFinal : Bool) : Flushed p (p.flushSequenceBuffer g isFinal) g isFinal
      (drain buffer.keys.length buffer (p.nextOf g)) := by
  unfold AudioPlayer.flushSequenceBuffer
  rw [hbuffer]
  dsimp only
  generalize drain buffer.keys.length buffer (p.nextOf g) = drained
  by_cases harms : isFinal = true ∧ drained.left.keys ≠ [] ∧ p.sequenceGapTimers.get g = none
  · rw [if_pos harms]
    refine ⟨rfl, ?_, fun _ _ => rfl, Or.inr ⟨rfl, harms.1, harms.2.1⟩, ?_, ?_⟩
    · intro other n
      simp only [AudioPlayer.heldOf, Dict.get_set]
      split <;> rfl
    · intro other hother _
      rw [Dict.get_set]
      split
      · simp
      · exact hother
    · simp
  · rw [if_neg harms]
    by_cases hempty : drained.left.keys = []
    · rw [if_pos hempty]
      refine ⟨rfl, ?_, ?_, Or.inl (by simp [AudioPlayer.nextOf]), ?_, fun _ hleft => absurd hempty hleft⟩
      · intro other n
        simp only [AudioPlayer.heldOf, Dict.get_erase]
        split
        · have hnone : drained.left.get n = none := by
            by_contra hsome
            exact keys_ne_nil.mpr ⟨n, hsome⟩ hempty
          simp [hnone]
        · rfl
      · intro other hother
        simp [AudioPlayer.nextOf, Dict.get_set, hother]
      · intro other hother hleft
        rw [Dict.get_erase, if_neg fun heq => hleft heq hempty]
        exact hother
    · rw [if_neg hempty]
      refine ⟨rfl, ?_, ?_, Or.inl (by simp [AudioPlayer.nextOf]), fun _ hother _ => hother, ?_⟩
      · intro other n
        simp only [AudioPlayer.heldOf, Dict.get_set]
        split <;> rfl
      · intro other hother
        simp [AudioPlayer.nextOf, Dict.get_set, hother]
      · intro hfinal _ hnone
        exact harms ⟨hfinal, hempty, hnone⟩

/-- A segment of a generation that is not late goes to what is held, which is then drained. -/
theorem enqueue_spec (hurl : JsStr.trim item.audioUrl ≠ "") (hplace : item.place = some (g, n))
    (hnew : p.nextOf g ≤ n) :
    Flushed p (p.enqueueInternal item) g item.isFinal
      (drain ((p.heldOf g).set n item).keys.length ((p.heldOf g).set n item) (p.nextOf g)) := by
  have hnext : ¬ n < p.nextOf g := by omega
  simp only [AudioPlayer.enqueueInternal, if_neg hurl, hplace, if_neg hnext]
  obtain ⟨hqueue, hheld, hnexts, hat, htimers, htimer⟩ :=
    flush_spec (p := { p with sequenceBuffers := p.sequenceBuffers.set g ((p.heldOf g).set n item) })
      Dict.get_set_self item.isFinal
  refine ⟨hqueue, fun other m => ?_, hnexts, hat, htimers, htimer⟩
  rw [hheld]
  split
  · rfl
  · rename_i hother
    simp [AudioPlayer.heldOf, Dict.get_set, hother]

/-! ## What a step keeps -/

theorem InOrder.waiting (h : InOrder s g) (hn : (s.player.heldOf g).get n ≠ none) :
    s.player.nextOf g < n ∧ n ∈ s.came g := by
  obtain ⟨item, hitem⟩ := Option.ne_none_iff_exists'.mp hn
  exact ⟨h.ahead n item hitem, (h.came n).mpr (Or.inr hn)⟩

/-- A final segment that leaves others waiting has not let anything through. -/
theorem drained_next {drained : Drained} (h : InOrder s g)
    (hdrained : DrainSpec ((s.player.heldOf g).set n item) (s.player.nextOf g) drained)
    (hlast : ∀ m ∈ s.came g, m ≤ n) (hleft : drained.left.keys ≠ []) :
    drained.next = s.player.nextOf g := by
  have hfrom := hdrained.from_next
  by_contra hmoved
  -- what went through began with the segment that came
  have hfirst : s.player.nextOf g = n := by
    by_contra hne
    have htaken := hdrained.taken le_rfl (by omega)
    rw [Dict.get_set, if_neg hne] at htaken
    exact absurd (h.waiting htaken).1 (lt_irrefl _)
  obtain ⟨m, hwaiting⟩ := keys_ne_nil.mp hleft
  rw [hdrained.left, Dict.get_set] at hwaiting
  split at hwaiting
  · exact hwaiting rfl
  · rw [if_neg (by omega)] at hwaiting
    obtain ⟨hbehind, hcame⟩ := h.waiting hwaiting
    have hle := hlast m hcame
    omega

theorem numbers_one (hplace : item.place = some (g, n)) (other : String) :
    PlayerSystem.numbers other [item] = if other = g then [n] else [] := by
  have hplaced : ∀ m held, (Dict.empty.set n item).get m = some held → held.place = some (g, m) := by
    intro m held hheld
    rw [Dict.get_set] at hheld
    split at hheld
    · rename_i hmn
      rw [← Option.some.inj hheld, hplace, hmn]
    · cases hheld
  exact numbers_items hplaced (by simp)

/-- A step that neither takes nor releases segments of a generation. -/
theorem InOrder.kept (h : InOrder s other) (hnext : s'.player.nextOf other = s.player.nextOf other)
    (hheld : ∀ n, (s'.player.heldOf other).get n = (s.player.heldOf other).get n) (hqueued : s'.queued other = s.queued other)
    (hcame : ∀ n, n ∈ s'.came other ↔ n ∈ s.came other)
    (htimers : s.player.sequenceGapTimers.get other ≠ none → s'.player.sequenceGapTimers.get other ≠ none) :
    InOrder s' other := by
  constructor
  · rw [hqueued, hnext]
    exact h.queued
  · intro n item hitem
    rw [hnext]
    exact h.ahead n item (hheld n ▸ hitem)
  · intro n item hitem
    exact h.placed n item (hheld n ▸ hitem)
  · intro n
    rw [hcame, hnext, hheld]
    exact h.came n
  · intro n item hitem hfinal
    exact htimers (h.timed n item (hheld n ▸ hitem) hfinal)

theorem InOrder.enqueued (h : ∀ g, InOrder s g) (hurl : JsStr.trim item.audioUrl ≠ "")
    (hplace : item.place = some (g, n)) (hnew : s.player.nextOf g ≤ n)
    (hlast : item.isFinal = true → ∀ m ∈ s.came g, m ≤ n) (hstep : s.next (.enqueue item) = some s') :
    InOrder s' other := by
  have hflushed := enqueue_spec hurl hplace hnew
  have hdrained : DrainSpec ((s.player.heldOf g).set n item) (s.player.nextOf g) _ := drain_spec le_rfl
  generalize drain _ ((s.player.heldOf g).set n item) (s.player.nextOf g) = drained at hflushed hdrained
  obtain rfl := Option.some.inj hstep
  simp only [if_neg hurl, numbers_one hplace]
  generalize s.player.enqueueInternal item = after at hflushed
  have hadded : after.queue.drop s.player.queue.length = drained.items := by rw [hflushed.queue, List.drop_left]
  have hput (m : ℕ) : ((s.player.heldOf g).set n item).get m ≠ none ↔
      m = n ∨ (s.player.heldOf g).get m ≠ none := by
    rw [Dict.get_set]
    split <;> simp_all
  have hplaced : ∀ m waiting, ((s.player.heldOf g).set n item).get m = some waiting →
      waiting.place = some (g, m) := by
    intro m waiting hwaiting
    rw [Dict.get_set] at hwaiting
    split at hwaiting
    · rename_i hmn
      rw [← Option.some.inj hwaiting, hplace, hmn]
    · exact (h g).placed m waiting hwaiting
  simp only [hadded, numbers_items hplaced hdrained.items]
  by_cases hother : other = g
  · subst hother
    have hfrom := hdrained.from_next
    have hnext : after.nextOf other = drained.next := by
      obtain hnext | ⟨hsame, hfinal, hleft⟩ := hflushed.next
      · exact hnext
      · rw [hsame, drained_next (h other) hdrained (hlast hfinal) hleft]
    have hheld (m : ℕ) : (after.heldOf other).get m = drained.left.get m := by rw [hflushed.held, if_pos rfl]
    -- what is held now is ahead of the next number, and was held or has come
    have hleft {m : ℕ} {waiting : QueuedAudio} (hwaiting : (after.heldOf other).get m = some waiting) :
        drained.next < m ∧ ((s.player.heldOf other).set n item).get m = some waiting := by
      have hstops : m ≠ drained.next := by
        rintro rfl
        rw [hheld, hdrained.stops] at hwaiting
        cases hwaiting
      rw [hheld, hdrained.left] at hwaiting
      split at hwaiting
      · cases hwaiting
      · have hbehind : s.player.nextOf other ≤ m := by
          obtain rfl | hbefore := (hput m).mp (by simp [hwaiting])
          · exact hnew
          · exact ((h other).waiting hbefore).1.le
        exact ⟨by omega, hwaiting⟩
    constructor
    · simp only [hnext, ↓reduceIte]
      rw [(h other).queued, List.range_eq_range', List.range_eq_range',
        ← Nat.add_sub_of_le hfrom, ← List.range'_append_1, Nat.zero_add, Nat.add_sub_cancel_left]
    · intro m waiting hwaiting
      rw [hnext]
      exact (hleft hwaiting).1
    · intro m waiting hwaiting
      exact hplaced m waiting (hleft hwaiting).2
    · intro m
      simp only [hnext, ↓reduceIte]
      rw [List.mem_append, List.mem_singleton, (h other).came, hheld, hdrained.left]
      by_cases hin : s.player.nextOf other ≤ m ∧ m < drained.next
      · have htaken := (hput m).mp (hdrained.taken hin.1 hin.2)
        exact ⟨fun _ => Or.inl hin.2, fun _ => htaken.elim Or.inr fun hbefore => Or.inl (Or.inr hbefore)⟩
      · rw [if_neg hin, hput]
        have hcase : m < s.player.nextOf other ↔ m < drained.next := by omega
        rw [hcase]
        exact or_assoc.trans (or_congr_right or_comm)
    · intro m waiting hwaiting hfinal
      obtain ⟨hahead, hget⟩ := hleft hwaiting
      have hkeys : drained.left.keys ≠ [] := keys_ne_nil.mpr ⟨m, by rw [← hheld, hwaiting]; simp⟩
      rw [Dict.get_set] at hget
      split at hget
      · obtain rfl := Option.some.inj hget
        exact hflushed.timer hfinal hkeys
      · exact hflushed.timers other ((h other).timed m waiting hget hfinal) fun _ => hkeys
  · refine (h other).kept (hflushed.nexts other hother) (fun m => ?_) ?_ (fun m => ?_) fun htimer => ?_
    · rw [hflushed.held, if_neg hother]
    · simp [hother]
    · simp [hother]
    · exact hflushed.timers other htimer fun heq => absurd heq hother

theorem start_inOrder (g : String) : InOrder PlayerSystem.start g := by
  constructor <;> simp [PlayerSystem.start, AudioPlayer.new, AudioPlayer.nextOf, AudioPlayer.heldOf]

theorem InOrder.timedOut (h : ∀ g, InOrder s g)
    (hstep : s.next (.gapTimeout g) = some s') : InOrder s' other := by
  obtain ⟨-, -, rfl⟩ := Option.map_eq_some_iff.mp hstep
  dsimp only
  unfold AudioPlayer.gapTimeout
  cases hbuffer : s.player.sequenceBuffers.get g with
  | none =>
    simp only [Option.isSome_none, Bool.false_eq_true, ↓reduceIte]
    by_cases hother : other = g
    · subst hother
      obtain ⟨hqueued, hahead, hplaced, hcame, -⟩ := h other
      refine ⟨hqueued, hahead, hplaced, hcame, fun n item hitem => ?_⟩
      simp [AudioPlayer.heldOf, hbuffer] at hitem
    · refine (h other).kept rfl (fun n => rfl) rfl (fun n => Iff.rfl) fun htimer => ?_
      rwa [Dict.get_erase, if_neg hother]
  | some _ =>
    simp only [Option.isSome_some, ↓reduceIte]
    by_cases hother : other = g
    · subst hother
      constructor <;> simp [AudioPlayer.nextOf, AudioPlayer.heldOf, Dict.get_erase]
    · refine (h other).kept ?_ (fun n => ?_) ?_ (fun n => ?_) fun htimer => ?_
      · simp [AudioPlayer.nextOf, Dict.get_erase, hother]
      · simp [AudioPlayer.heldOf, Dict.get_erase, hother]
      · simp [hother]
      · simp [hother]
      · rwa [Dict.get_erase, if_neg hother]

theorem InOrder.step (h : ∀ g, InOrder s g) {event : PlayerEvent} (hstep : s.next event = some s')
    (hlast : s.finalIsLast event) : InOrder s' other := by
  cases event with
  | enqueue item =>
    by_cases hurl : JsStr.trim item.audioUrl = ""
    · obtain rfl := Option.some.inj hstep
      simp only [if_pos hurl, AudioPlayer.enqueueInternal, List.drop_length]
      exact (h other).kept rfl (fun n => rfl) (List.append_nil _) (fun n => Iff.rfl) id
    cases hplace : item.place with
    | none =>
      obtain rfl := Option.some.inj hstep
      simp only [if_neg hurl, AudioPlayer.enqueueInternal, hplace, List.drop_left]
      have hnone : PlayerSystem.numbers other [item] = [] := by simp [PlayerSystem.numbers, hplace]
      refine (h other).kept rfl (fun n => rfl) ?_ (fun n => ?_) id
      · simp [hnone]
      · simp [hnone]
    | some place =>
      obtain ⟨g, n⟩ := place
      by_cases hlate : n < s.player.nextOf g
      · -- a late segment was taken before
        obtain rfl := Option.some.inj hstep
        simp only [if_neg hurl, AudioPlayer.enqueueInternal, hplace, if_pos hlate, List.drop_length,
          numbers_one hplace]
        refine (h other).kept rfl (fun n => rfl) (List.append_nil _) (fun m => ?_) id
        by_cases hother : other = g
        · subst hother
          have htaken := ((h other).came n).mpr (Or.inl hlate)
          simp only [↓reduceIte, List.mem_append, List.mem_singleton]
          exact ⟨fun hm => hm.elim id fun heq => heq ▸ htaken, Or.inl⟩
        · simp [hother]
      · exact InOrder.enqueued h hurl hplace (not_lt.mp hlate) (fun hfinal => hlast hfinal g n hplace) hstep
  | gapTimeout g => exact InOrder.timedOut h hstep
  | playNextQueued =>
    obtain rfl := Option.some.inj hstep
    exact (h other).kept rfl (fun n => rfl) rfl (fun n => Iff.rfl) id
  | clearQueuedAudio =>
    obtain rfl := Option.some.inj hstep
    exact start_inOrder other

/-- What the end of the timer releases is what is held, by its numbers. -/
theorem numbers_pending (h : InOrder s g) :
    PlayerSystem.numbers g (s.player.pending g) =
      (s.player.heldOf g).keys.mergeSort (· ≤ ·) := by
  refine (numbers_items h.placed ?_).trans (if_pos rfl)
  have hheld : ∀ n ∈ (s.player.heldOf g).keys.mergeSort (· ≤ ·), (s.player.heldOf g).get n ≠ none := by
    intro n hn
    obtain ⟨item, hitem⟩ := Dict.mem_keys.mp (List.mem_mergeSort.mp hn)
    simp [hitem]
  unfold AudioPlayer.pending
  generalize (s.player.heldOf g).keys.mergeSort (· ≤ ·) = ns at hheld
  induction ns with
  | nil => rfl
  | cons n rest ih =>
    obtain ⟨item, hitem⟩ := Option.ne_none_iff_exists'.mp (hheld n List.mem_cons_self)
    rw [List.filterMap_cons_some hitem, List.map_cons, List.map_cons, hitem,
      ih fun m hm => hheld m (List.mem_cons_of_mem _ hm)]

/-- A segment of one generation. -/
def segment (sequence : ℚ) (isFinal : Bool) : QueuedAudio := ⟨"blob:1", some "g", some sequence, isFinal⟩

end Player

end Audio

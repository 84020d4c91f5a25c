import Yuizaki.Lib.Regex
import Yuizaki.Lib.Fallible
import Yuizaki.Memory.Metadata
import Mathlib.Order.Defs.LinearOrder
import Mathlib.Order.Lattice

/- The state of a memory (`memory_state` in `modules/memory/metadata.py`) and the checks of its
   dates (`modules/memory/expiry.py`).

   A memory is recalled in the state `active` alone. The state is read off the metadata each
   time: flags first, then the review, then what the dates say about this instant. A date out
   of the range of `datetime` raises, which `memory_state` does not catch. -/
namespace Memory

open Fallible

variable {τ : Type} [LinearOrder τ] (tools : MetadataTools τ) (now : τ)

/-! ## Dates -/

/-- What a check of a date raises: a `ValueError` with its text, or another exception. -/
inductive DateError where
  | value (text : String)
  | raised (e : PyError)
deriving DecidableEq

/-- `_parse_instant`: `None` for what is no date. -/
def parseInstant (value : Json) : Except PyError (Option τ) :=
  match value with
  | .str s =>
    if PyStr.strip s = "" then .ok none
    else match tools.parseDate (PyStr.strip s) with
      | .date t => .ok (some t)
      | .invalid => .ok none
      | .outOfRange => .error .overflowError
  | _ => .ok none

/-- `value in (None, "")`. -/
def isUnset (value : Json) : Bool := value = .null ∨ value = .str ""

def digits (n : ℕ) : Regex := Regex.seqs (List.replicate n (.char Char.isDigit))

/-- `_UTC_RFC3339_PATTERN`. -/
def utcRfc3339 : Regex :=
  Regex.seqs [digits 4, .text "-", digits 2, .text "-", digits 2, .text "T", digits 2, .text ":",
    digits 2, .text ":", digits 2, Regex.optional (.seq (.text ".") (Regex.some1 true (.char Char.isDigit))),
    .text "Z"]

def expiryFormatError : String := "expires_at must use uppercase UTC Z RFC3339 format"

/-- `normalize_expires_at`, before its instant is written out. -/
def normalizeExpiresAt (value : Json) : Except DateError (Option τ) :=
  match value with
  | .null => .ok none
  | .str raw =>
    if utcRfc3339.fullMatch raw = false then .error (.value expiryFormatError)
    else match tools.parseDate raw with
      | .date t => .ok (some t)
      | .invalid => .error (.value expiryFormatError)
      | .outOfRange => .error (.raised .overflowError)
  | _ => .error (.value expiryFormatError)

/-- `is_memory_expired`: an expiry that cannot be read has passed. -/
def isMemoryExpired (m : Metadata) : Except PyError Bool :=
  match normalizeExpiresAt tools (m.value "expires_at") with
  | .ok none => .ok false
  | .ok (some t) => .ok (t ≤ now)
  | .error (.value _) => .ok true
  | .error (.raised e) => .error e

/-- `normalize_memory_expiry` with `reject_expired`. -/
def normalizeMemoryExpiry (m : Metadata) : Except DateError Metadata :=
  match normalizeExpiresAt tools (m.value "expires_at") with
  | .error e => .error e
  | .ok none => .ok (m.erase "expires_at")
  | .ok (some t) =>
    if t ≤ now then .error (.value "expires_at must be in the future")
    else .ok (m.set "expires_at" (.str (tools.isoformat t)))

/-- One bound of `normalize_memory_validity`: the metadata with it in one spelling, and its
instant. -/
def normalizeBound (m : Metadata) (key : String) : Except DateError (Metadata × Option τ) :=
  if isUnset (m.value key) then .ok (m.erase key, none)
  else match canonicalTimestamp tools (m.value key) with
    | .error e => .error (.raised e)
    | .ok none => .error (.value (key ++ " must be an ISO 8601 datetime"))
    | .ok (some canonical) =>
      match parseInstant tools (.str canonical) with
      | .error e => .error (.raised e)
      | .ok none => .error (.value (key ++ " must be an ISO 8601 datetime"))
      | .ok (some t) => .ok (m.set key (.str canonical), some t)

/-- A window that ends before it starts. -/
def reversed (validFrom validTo : Option τ) : Bool :=
  match validFrom, validTo with
  | some a, some b => b ≤ a
  | _, _ => false

def normalizeMemoryValidity (m : Metadata) : Except DateError Metadata := do
  let (m, validFrom) ← normalizeBound tools m "valid_from"
  let (m, validTo) ← normalizeBound tools m "valid_to"
  require (.value "valid_to must be later than valid_from") (reversed validFrom validTo = false)
  return m

/-! ## States -/

/-- `str(value or default).strip().lower()`. -/
def MetadataTools.word (value : Json) (default : String) : String :=
  PyStr.lower tools.wide (PyStr.strip (tools.str (value.or (.str default))))

def autoAdmittedEventKinds : List String :=
  ["gratitude", "preference_confirmed", "support_request", "comfort_event", "task_completed", "reflection",
    "adjustment", "strategy_update", "state_snapshot", "mood_shift", "trust_shift", "care_signal"]

def nonRecallableReviewStatuses : List String := ["pending", "rejected", "deleted", "superseded"]

def isAutoAdmittedCandidate (m : Metadata) : Bool :=
  (m.value "candidate").truthy ∧
    tools.word ((m.value "sensitive_category").or (m.value "sensitivity")) "none" = "none" ∧
    tools.word ((m.value "source_kind").or (m.value "event_kind")) "" ∈ autoAdmittedEventKinds

def hasInvalidValidity (m : Metadata) : Except PyError Bool := do
  let validFrom ← parseInstant tools (m.value "valid_from")
  let validTo ← parseInstant tools (m.value "valid_to")
  return (isUnset (m.value "valid_from") = false ∧ validFrom = none) ∨
    (isUnset (m.value "valid_to") = false ∧ validTo = none) ∨ reversed validFrom validTo = true

/-- What the dates say: the state of a memory that nothing else keeps from recall. -/
def datedState (m : Metadata) : Except PyError String := do
  if ← hasInvalidValidity tools m then return "invalid"
  else if (← isMemoryExpired tools now m) then return "expired"
  else if (← parseInstant tools (m.value "valid_to")).any (· ≤ now) then return "expired"
  else if (← parseInstant tools (m.value "valid_from")).any (now < ·) then return "scheduled"
  else return "active"

/-- The review status as `memory_state` reads it. -/
def reviewStatus (m : Metadata) : String := tools.word (m.value "review_status") ""

/-- A candidate that waits for its review. -/
def awaitsReview (m : Metadata) : Bool :=
  (m.value "candidate").truthy ∧ reviewStatus tools m ∈ ["", "unreviewed", "pending", "review"] ∧
    ¬ isAutoAdmittedCandidate tools m

def memoryState (m : Metadata) : Except PyError String :=
  if (m.value "candidate_deleted").truthy then .ok "deleted"
  else if (m.value "soft_forgotten").truthy then .ok "forgotten"
  else if awaitsReview tools m then .ok "pending_review"
  else if reviewStatus tools m ∈ nonRecallableReviewStatuses then .ok (reviewStatus tools m)
  else if (m.value "superseded_by").truthy then .ok "superseded"
  else datedState tools now m

def isMetadataRecallable (m : Metadata) : Except PyError Bool :=
  (memoryState tools now m).map (fun state => state = "active")

/-! ## What keeps a memory from recall -/

section State

variable {tools : MetadataTools τ} {now : τ} {m : Metadata}

def Recallable (tools : MetadataTools τ) (now : τ) (m : Metadata) : Prop :=
  memoryState tools now m = .ok "active"

theorem recallable_iff : isMetadataRecallable tools now m = .ok true ↔ Recallable tools now m := by
  unfold isMetadataRecallable Recallable
  cases memoryState tools now m with
  | error e => exact ⟨fun h => (by cases h), fun h => (by cases h)⟩
  | ok state =>
    refine ⟨fun h => ?_, fun h => ?_⟩
    · have hstate : decide (state = "active") = true := Except.ok.inj h
      rw [of_decide_eq_true hstate]
    · rw [Except.ok.inj h]
      rfl

theorem deleted_not_recallable (h : (m.value "candidate_deleted").truthy = true) : ¬ Recallable tools now m := by
  unfold Recallable memoryState
  rw [if_pos h]
  intro hactive
  exact absurd (Except.ok.inj hactive) (by decide)

theorem forgotten_not_recallable (h : (m.value "soft_forgotten").truthy = true) : ¬ Recallable tools now m := by
  unfold Recallable memoryState
  split
  · intro hactive
    exact absurd (Except.ok.inj hactive) (by decide)
  · intro hactive
    exact absurd (Except.ok.inj hactive) (by decide)

theorem status_not_recallable (h : reviewStatus tools m ∈ nonRecallableReviewStatuses) :
    ¬ Recallable tools now m := by
  have hne : reviewStatus tools m ≠ "active" := fun heq => by
    rw [heq] at h
    exact absurd h (by decide)
  unfold Recallable memoryState
  intro hactive
  split at hactive
  · exact absurd (Except.ok.inj hactive) (by decide)
  · split at hactive
    · exact absurd (Except.ok.inj hactive) (by decide)
    · split at hactive
      · exact absurd (Except.ok.inj hactive) (by decide)
      · exact hne (Except.ok.inj hactive)

end State

end Memory

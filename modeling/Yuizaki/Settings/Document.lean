import Mathlib.Data.List.Basic
import Yuizaki.Lib.Json
import Yuizaki.Lib.PyStr

/- Settings documents (`modules/system/settings_schema.py`, `settings_store.py` and
   `settings_api.py`): how they are merged, how their credentials are left out or kept, and the
   settings at their paths. -/
namespace Settings

def secretFieldNames : List String := ["api_key", "vision_api_key", "qdrant_api_key"]

def settingsSecretMask : String := "********"

/-! ## Merging -/

mutual

/-- `merge_settings`, an update at a time. -/
def mergeEntries : (updates base : List (String × Json)) → List (String × Json)
  | [], base => base
  | (key, value) :: rest, base => mergeEntries rest (Json.setEntry base key (mergeValue value (base.lookup key)))

/-- What an update makes of a value: an object goes into an object. -/
def mergeValue : (value : Json) → (old : Option Json) → Json
  | .obj updates, old =>
    match old with
    | some (.obj base) => .obj (mergeEntries updates base)
    | _ => .obj updates
  | value, _ => value

end

def mergeSettings (base updates : Json) : Json :=
  match base, updates with
  | .obj base, .obj updates => .obj (mergeEntries updates base)
  | base, _ => base

/-! ## Credentials -/

mutual

def dropSecretPlaceholders : Json → Json
  | .obj entries => .obj (dropPlaceholderEntries entries)
  | .arr items => .arr (dropPlaceholderItems items)
  | value => value

/-- The entries without placeholders of credentials, and without objects that are empty then. -/
def dropPlaceholderEntries : List (String × Json) → List (String × Json)
  | [] => []
  | (key, child) :: rest =>
    let others := dropPlaceholderEntries rest
    let cleaned := dropSecretPlaceholders child
    if key ∈ secretFieldNames ∧ (child = .str settingsSecretMask ∨ child = .str "") then others
    else if cleaned = .obj [] then others
    else (key, cleaned) :: others

def dropPlaceholderItems : List Json → List Json
  | [] => []
  | item :: rest => dropSecretPlaceholders item :: dropPlaceholderItems rest

end

mutual

def scrubSensitiveSettings : Json → Json
  | .obj entries => .obj (scrubEntries entries)
  | .arr items => .arr (scrubItems items)
  | value => value

/-- The entries with every credential emptied. -/
def scrubEntries : List (String × Json) → List (String × Json)
  | [] => []
  | (key, child) :: rest =>
    (key, if key ∈ secretFieldNames then .str "" else scrubSensitiveSettings child) :: scrubEntries rest

/-- The items with every credential emptied. -/
def scrubItems : List Json → List Json
  | [] => []
  | item :: rest => scrubSensitiveSettings item :: scrubItems rest

end

mutual

/-- `_preserve_current_secrets`, by the entries of the current settings. -/
def preserveEntries : (current result : List (String × Json)) → List (String × Json)
  | [], result => result
  | (key, child) :: rest, result =>
    preserveEntries rest ((preservedValue child key (result.lookup key)).elim result (Json.setEntry result key))

/-- The value that a key takes, if it takes another: a credential, or an object with the credentials of
the current one. -/
def preservedValue : (current : Json) → (key : String) → (old : Option Json) → Option Json
  | .obj current, key, old =>
    if key ∈ secretFieldNames then some (.obj current)
    else match old with
      | some (.obj target) => some (.obj (preserveEntries current target))
      | _ => none
  | current, key, _ => if key ∈ secretFieldNames then some current else none

end

def preserveCurrentSecrets (target current : Json) : Json :=
  match target, current with
  | .obj target, .obj current => .obj (preserveEntries current target)
  | target, _ => target

/-! ## Paths -/

/-- `key.split(".")`. -/
def keyParts (key : String) : List String := (key.toList.splitOn '.').map String.ofList

/-- `key.rsplit(".", 1)[-1]`. -/
def lastPart (key : String) : String := (keyParts key).getLastD ""

/-- `_normalize_set_payload`, by the parts of the key. -/
def payloadOf : List String → Json → Json
  | [], value => value
  | part :: rest, value => .obj [(part, payloadOf rest value)]

def normalizeSetPayload (key : String) (value : Json) : Json := payloadOf (keyParts key) value

/-- `_value_for_key`, by the parts of the key. -/
def valueFor : List String → Json → Option Json
  | [], current => some current
  | part :: rest, current =>
    match current with
    | .obj entries => (entries.lookup part).bind (valueFor rest)
    | _ => none

/-- The setting at a path: a value that is no object. -/
def leafAt : List String → Json → Option Json
  | [], .obj _ => none
  | [], value => some value
  | part :: rest, .obj entries => (entries.lookup part).bind (leafAt rest)
  | _ :: _, _ => none

def PlainPath (path : List String) : Prop := ∀ part ∈ path, part ∉ secretFieldNames

theorem lookup_scrubEntries (entries : List (String × Json)) (key : String) :
    (scrubEntries entries).lookup key =
      (entries.lookup key).map fun child => if key ∈ secretFieldNames then .str "" else scrubSensitiveSettings child := by
  induction entries with
  | nil => rfl
  | cons entry rest ih =>
    obtain ⟨other, child⟩ := entry
    simp only [scrubEntries]
    rw [Json.lookup_cons_if, Json.lookup_cons_if, ih]
    by_cases h : key = other
    · rw [if_pos h, if_pos h, h]
      rfl
    · rw [if_neg h, if_neg h]

theorem leafAt_scrub {path : List String} (h : PlainPath path) (document : Json) :
    leafAt path (scrubSensitiveSettings document) = (leafAt path document).map scrubSensitiveSettings := by
  induction path generalizing document with
  | nil =>
    cases document with
    | obj | arr | null | bool | int | num | str => simp only [scrubSensitiveSettings, leafAt, Option.map_some, Option.map_none]
  | cons part rest ih =>
    obtain ⟨hpart, hrest⟩ := List.forall_mem_cons.mp h
    cases document with
    | obj entries =>
      simp only [scrubSensitiveSettings, leafAt, lookup_scrubEntries, if_neg hpart]
      cases entries.lookup part with
      | none => rfl
      | some child => exact ih hrest child
    | arr | null | bool | int | num | str => simp only [scrubSensitiveSettings, leafAt, Option.map_none]

end Settings

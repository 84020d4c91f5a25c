import Mathlib
import Yuizaki.Settings.Runtime

/- Commits of settings (`SettingsAPI._commit_settings_locked`).

   A commit goes through the list of snapshots, the settings store, the dynamic configuration and the
   live configuration, one after another. Where one of them raises, what was done before it is
   undone by hand. -/
namespace Settings

/-! ## Snapshots -/

def maxSettingsSnapshots : ℕ := 20

def newest {α : Type} (n : ℕ) (items : List α) : List α := items.drop (items.length - n)

def validateSnapshots (world : World) : List Json → Option (List Json)
  | [] => some []
  | entry :: rest => (validatePersistedSettings world entry).bind fun snapshot =>
    (validateSnapshots world rest).map (snapshot :: ·)

/-- `SettingsHistoryStore._read`: none where the store is corrupt. -/
def readSnapshots (world : World) (stored : List Json) : Option (List Json) :=
  (validateSnapshots world stored).map (newest maxSettingsSnapshots)

/-- `SettingsHistoryStore.append`: what is stored then, and whether it did not raise. A corrupt store
is moved out of the way. -/
def appendSnapshot (world : World) (raises : Bool) (snapshot : Json) (stored : List Json) : List Json × Bool :=
  match readSnapshots world stored with
  | none => ([], false)
  | some current =>
    if raises = true then (stored, false)
    else (newest maxSettingsSnapshots (current ++ [scrubSensitiveSettings snapshot]), true)

/-- `SettingsHistoryStore.pop`: what is stored then, and whether it did not raise. -/
def popSnapshots (world : World) (raises : Bool) (steps : ℕ) (stored : List Json) : List Json × Bool :=
  match readSnapshots world stored with
  | none => ([], false)
  | some current =>
    if current.length < steps then (stored, true)
    else if raises = true then (stored, false)
    else (current.take (current.length - steps), true)

/-! ## The dynamic configuration -/

structure ConfigChangeEvent where
  key : String
  oldValue : Json
  newValue : Json
deriving DecidableEq

/-- `DynamicConfigManager`. -/
structure DynamicConfig where
  config : List (String × Json)
  changeHistory : List ConfigChangeEvent
deriving DecidableEq

def maxHistory : ℕ := 100

namespace DynamicConfig

/-- `update`; what a listener raises is only logged. -/
def update (d : DynamicConfig) (entry : String × Json) : DynamicConfig :=
  let oldValue := (Json.obj d.config).get entry.1
  if Json.same oldValue entry.2 = true then d
  else {
    config := Json.setEntry d.config entry.1 entry.2
    changeHistory := newest maxHistory (d.changeHistory ++ [⟨entry.1, oldValue, entry.2⟩]) }

def updateBatch (d : DynamicConfig) (updates : List (String × Json)) : DynamicConfig := updates.foldl update d

def undo (d : DynamicConfig) : DynamicConfig :=
  match d.changeHistory.getLast? with
  | none => d
  | some event => {
    config := if event.oldValue = .null then d.config.filter fun entry => decide (entry.1 ≠ event.key)
      else Json.setEntry d.config event.key event.oldValue
    changeHistory := d.changeHistory.dropLast }

def rollback (d : DynamicConfig) (steps : ℕ) : Option DynamicConfig :=
  if d.changeHistory.length < steps then none else some (undo^[steps] d)

end DynamicConfig

/-! ## Commits -/

/-- What `SettingsAPI` works on: the settings in memory and in their file, the stored snapshots, the
dynamic configuration, and the live one if there is one. -/
structure Backend where
  settings : Json
  file : Option Json
  snapshots : List Json
  dynamic : DynamicConfig
  config : Option RuntimeConfig
deriving DecidableEq

/-- What goes wrong in a commit: the append of the snapshot, the write of the settings, the dynamic
configuration or the live one after so many updates or assignments; and in undoing it, the write of
the settings or the removal of the snapshot. -/
structure Faults where
  append : Bool := false
  save : Bool := false
  update : Option ℕ := none
  apply : Option ℕ := none
  restore : Bool := false
  discard : Bool := false
deriving DecidableEq

def entriesOf : Json → List (String × Json)
  | .obj entries => entries
  | _ => []

/-- So many of the items, where there is a limit. -/
def upTo {α : Type} (limit : Option ℕ) (items : List α) : List α :=
  match limit with
  | some n => items.take n
  | none => items

/-- The sections of assignments, in order. -/
def changedSections (assignments : List Assignment) : List String :=
  (assignments.map fun a => a.1.1).dedup.insertionSort (· ≤ ·)

namespace Backend

variable (world : World) (b : Backend)

/-- `_discard_pending_snapshot`: a failure is only logged. -/
def discardPendingSnapshot (faults : Faults) : Backend :=
  { b with snapshots := (popSnapshots world faults.discard 1 b.snapshots).1 }

/-- `_replace_and_save_settings`, where the write does not raise. -/
def replaceAndSaveSettings (settings : Json) : Backend :=
  { b with settings, file := some (scrubSensitiveSettings settings) }

/-- The undoing of a commit whose settings are written. -/
def recover (faults : Faults) (previous : Json) (config : List (String × Json)) : Backend :=
  if faults.restore = true then { b with settings := previous }
  else discardPendingSnapshot world
    { b.replaceAndSaveSettings previous with dynamic := { b.dynamic with config } } faults

/-- `_apply_runtime`: the live configuration then, the sections that changed, and whether it did not
raise. -/
def applyRuntime (limit : Option ℕ) (updates : Json) : Option RuntimeConfig × List String × Bool :=
  match b.config with
  | none => (none, [], limit.isNone)
  | some config =>
    let assignments := runtimeAssignments world config updates true
    let applied := assign (upTo limit assignments) config
    (some applied.1, changedSections assignments, applied.2 && limit.isNone)

/-- A commit from the dynamic configuration on, after its settings are written. -/
def applyUpdates (faults : Faults) (previous updates : Json) : Option (List String) × Backend :=
  let config := b.dynamic.config
  let b := { b with dynamic := b.dynamic.updateBatch (upTo faults.update (entriesOf updates)) }
  if faults.update.isSome = true then (none, b.recover world faults previous config)
  else
    let applied := b.applyRuntime world faults.apply (changedRuntimeUpdates previous updates)
    let b := { b with config := applied.1 }
    if applied.2.2 = true then (some applied.2.1, b) else (none, b.recover world faults previous config)

/-- `_commit_settings_locked`: the sections that changed, or none where it raises. -/
def commit (faults : Faults) (next updates : Json) : Option (List String) × Backend :=
  match validatePersistedSettings world b.settings with
  | none => (none, b)
  | some previous =>
    let appended := appendSnapshot world faults.append previous b.snapshots
    let b := { b with snapshots := appended.1 }
    if appended.2 = false then (none, b)
    else if faults.save = true then (none, discardPendingSnapshot world { b with settings := previous } faults)
    else (b.replaceAndSaveSettings next).applyUpdates world faults previous updates

end Backend

end Settings

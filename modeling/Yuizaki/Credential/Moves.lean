import Yuizaki.Credential.Store

/- What moves leave in the values of the vault, and which secrets a document holds.

   A secret of a document goes into the vault under its path (`Hold`, one for each kind of
   document), and its field is made empty. `Migration` is what the two kinds have in common: the
   moves keep exactly the secrets, and the document that is left holds none. -/
namespace Credential

/-- Two dictionaries give the same values. -/
def SameValues (values values' : Dict String String) : Prop := ∀ path, values.get path = values'.get path

def Move.path : Move → String
  | .keep path _ => path
  | .forget path => path

/-! ## Moves -/

section Moves

variable {counted : Counted} {values : Dict String String} {move : Move} {moves : List Move} {path secret : String}

theorem apply_le : counted.2 ≤ (move.apply counted).2 := by
  cases move with
  | keep path secret =>
    unfold Move.apply
    dsimp only
    split
    · exact Nat.le_refl _
    · exact Nat.le_succ _
  | forget path =>
    unfold Move.apply
    dsimp only
    split
    · exact Nat.le_refl _
    · exact Nat.le_succ _

theorem foldl_le : counted.2 ≤ (moves.foldl Move.apply counted).2 := by
  induction moves generalizing counted with
  | nil => exact Nat.le_refl _
  | cons move rest ih => exact Nat.le_trans apply_le ih

theorem apply_idle (h : (move.apply counted).2 = counted.2) :
    move.apply counted = counted ∧ ∀ path secret, move = .keep path secret → counted.1.get path = some secret := by
  cases move with
  | keep path secret =>
    unfold Move.apply at h ⊢
    dsimp only at h ⊢
    split at h
    · rename_i hheld
      refine ⟨if_pos hheld, fun p q heq => ?_⟩
      obtain ⟨rfl, rfl⟩ := Move.keep.inj heq
      exact hheld
    · exact absurd h (Nat.succ_ne_self _)
  | forget path =>
    unfold Move.apply at h ⊢
    dsimp only at h ⊢
    split at h
    · rename_i hnone
      exact ⟨if_pos hnone, fun p q heq => by cases heq⟩
    · exact absurd h (Nat.succ_ne_self _)

theorem foldl_idle (h : (moves.foldl Move.apply counted).2 = counted.2) :
    moves.foldl Move.apply counted = counted ∧
      ∀ path secret, .keep path secret ∈ moves → counted.1.get path = some secret := by
  induction moves generalizing counted with
  | nil => exact ⟨rfl, fun _ _ hmem => absurd hmem List.not_mem_nil⟩
  | cons move rest ih =>
    rw [List.foldl_cons] at h ⊢
    have hfirst : (move.apply counted).2 = counted.2 :=
      Nat.le_antisymm (h ▸ foldl_le) apply_le
    obtain ⟨hsame, hheld⟩ := apply_idle hfirst
    rw [hsame] at h ⊢
    obtain ⟨hrest, hkeeps⟩ := ih h
    refine ⟨hrest, fun path secret hmem => ?_⟩
    obtain rfl | hmem := List.mem_cons.mp hmem
    · exact hheld path secret rfl
    · exact hkeeps path secret hmem

theorem applyMoves_idle (h : (applyMoves values moves).2 = 0) :
    SameValues (applyMoves values moves).1 values ∧
      ∀ path secret, .keep path secret ∈ moves → values.get path = some secret := by
  obtain ⟨hsame, hheld⟩ : moves.foldl Move.apply (values, 0) = (values, 0) ∧ _ := foldl_idle h
  exact ⟨fun path => congrArg (fun counted => counted.1.get path) hsame, hheld⟩

theorem apply_get_of_ne (h : move.path ≠ path) : (move.apply counted).1.get path = counted.1.get path := by
  cases move with
  | keep other secret =>
    have hne : path ≠ other := Ne.symm h
    unfold Move.apply
    dsimp only
    split
    · rfl
    · exact Dict.get_set_of_ne hne
  | forget other =>
    have hne : path ≠ other := Ne.symm h
    unfold Move.apply
    dsimp only
    split
    · rfl
    · rw [Dict.get_erase, if_neg hne]

theorem foldl_get_of_ne (h : ∀ move ∈ moves, move.path ≠ path) :
    (moves.foldl Move.apply counted).1.get path = counted.1.get path := by
  induction moves generalizing counted with
  | nil => rfl
  | cons move rest ih =>
    obtain ⟨hfirst, hrest⟩ := List.forall_mem_cons.mp h
    rw [List.foldl_cons, ih hrest, apply_get_of_ne hfirst]

theorem apply_keep : ((Move.keep path secret).apply counted).1.get path = some secret := by
  unfold Move.apply
  dsimp only
  split
  · assumption
  · exact Dict.get_set_self

theorem foldl_keep (hagree : ∀ other, .keep path other ∈ moves → other = secret) (hapart : .forget path ∉ moves)
    (h : .keep path secret ∈ moves) : (moves.foldl Move.apply counted).1.get path = some secret := by
  induction moves generalizing counted with
  | nil => exact absurd h List.not_mem_nil
  | cons move rest ih =>
    rw [List.foldl_cons]
    by_cases hrest : .keep path secret ∈ rest
    · exact ih (fun other hother => hagree other (List.mem_cons_of_mem _ hother))
        (fun hforget => hapart (List.mem_cons_of_mem _ hforget)) hrest
    · obtain rfl : .keep path secret = move := (List.mem_cons.mp h).resolve_right hrest
      -- no later move is about the path
      rw [foldl_get_of_ne fun later hlater heq => ?_, apply_keep]
      cases later with
      | keep other kept =>
        obtain rfl : other = path := heq
        exact hrest (hagree kept (List.mem_cons_of_mem _ hlater) ▸ hlater)
      | forget other =>
        obtain rfl : other = path := heq
        exact hapart (List.mem_cons_of_mem _ hlater)

end Moves

theorem deleted_idle {values : Dict String String} {fieldPath : String} (h : (deleted values fieldPath).2 = 0) :
    SameValues (deleted values fieldPath).1 values := by
  have habsent (hpresent : (if values.get fieldPath = none ∧ fieldPath ∉ objectPrototype then 0 else 1) = 0) :
      values.erase fieldPath = values := by
    split at hpresent
    · rename_i hnone
      exact Dict.erase_self hnone.1
    · cases hpresent
  intro path
  unfold deleted at h ⊢
  dsimp only at h ⊢
  split at h
  · rename_i hkey
    obtain ⟨hpresent, hnested⟩ := Nat.add_eq_zero_iff.mp h
    rw [if_pos hkey, Dict.get_filter, habsent hpresent]
    cases hget : values.get path with
    | none => rfl
    | some value =>
      rw [habsent hpresent, List.length_eq_zero_iff, List.filter_eq_nil_iff] at hnested
      have hplain : isNestedLlmProfileCredentialPath path ≠ true := hnested path (Dict.mem_keys.mpr ⟨value, hget⟩)
      rw [Option.filter_some, if_pos]
      simpa using hplain
  · rename_i hkey
    rw [if_neg hkey, habsent h]

/-! ## Secrets -/

/-- A secret of a settings document that the vault manages. -/
def SettingsHold (payload : Json) (path secret : String) : Prop :=
  ∃ value, (path, value) ∈ secretFields "" payload ∧ isNestedLlmProfileCredentialPath path = false ∧
    isSecret value = true ∧ secret = JsStr.trim value

/-- A secret of a connector document that the vault manages. -/
def ConnectorsHold (payload : Json) (path secret : String) : Prop :=
  ∃ value, (path, value, true) ∈ documentVisits payload ∧ isSecret value = true ∧ secret = JsStr.trim value

/-- No two secrets of a document have one path. -/
def Agree (Hold : Json → String → String → Prop) (payload : Json) : Prop :=
  ∀ path secret secret', Hold payload path secret → Hold payload path secret' → secret = secret'

/-- The moves of a migration keep the secrets of a document, and the document it leaves holds
none. -/
structure Migration (plan : Json → Plan) (Hold : Json → String → String → Prop) : Prop where
  keeps : ∀ {payload path secret}, .keep path secret ∈ (plan payload).moves ↔ Hold payload path secret
  apart : ∀ {payload path secret}, Hold payload path secret → .forget path ∉ (plan payload).moves
  scrubbed : ∀ {payload path secret}, Hold payload path secret → (plan payload).scrubbed = true
  blank : ∀ {payload path secret}, ¬ Hold (plan payload).document path secret

section Secrets

variable {payload : Json} {path secret : String}

theorem mem_settingsMoves {move : Move} : move ∈ (settingsPlan payload).moves ↔
    ∃ visit ∈ secretFields "" payload, settingsMove visit = some move := List.mem_filterMap

theorem settingsMove_keep {visit : String × String} : settingsMove visit = some (.keep path secret) ↔
    visit.1 = path ∧ isNestedLlmProfileCredentialPath path = false ∧ isSecret visit.2 = true ∧
      secret = JsStr.trim visit.2 := by
  unfold settingsMove
  constructor
  · intro h
    split at h
    · cases h
    · rename_i hplain
      split at h
      · rename_i hsecret
        obtain ⟨rfl, rfl⟩ := Move.keep.inj (Option.some.inj h)
        exact ⟨rfl, Bool.not_eq_true _ ▸ hplain, hsecret, rfl⟩
      · cases h
  · intro h
    obtain ⟨rfl, hplain, hsecret, rfl⟩ := h
    rw [if_neg (Bool.eq_false_iff.mp hplain), if_pos hsecret]

theorem settingsMove_forget {visit : String × String} (h : settingsMove visit = some (.forget path)) :
    isNestedLlmProfileCredentialPath path = true := by
  unfold settingsMove at h
  split at h
  · rename_i hnested
    obtain rfl := Move.forget.inj (Option.some.inj h)
    exact hnested
  · split at h
    · cases h
    · cases h

mutual

theorem secretFields_blank (blanks : String → String → Bool) (base : String) : (json : Json) →
    secretFields base (blankFields blanks base json) =
      (secretFields base json).map fun visit => (visit.1, if blanks visit.1 visit.2 = true then "" else visit.2)
  | .null => rfl
  | .bool _ => rfl
  | .int _ => rfl
  | .num _ => rfl
  | .str _ => rfl
  | .arr _ => rfl
  | .obj fields => by
    rw [blankFields, secretFields, secretFields]
    exact secretEntries_blank blanks base fields

theorem secretEntries_blank (blanks : String → String → Bool) (base : String) : (fields : List (String × Json)) →
    secretEntries base (blankEntries blanks base fields) =
      (secretEntries base fields).map fun visit => (visit.1, if blanks visit.1 visit.2 = true then "" else visit.2)
  | [] => rfl
  | (key, .str value) :: rest => by
    rw [blankEntries, secretEntries, secretEntries, List.map_append, secretEntries_blank blanks base rest]
    by_cases hkey : key ∈ secretFieldNames
    · simp only [hkey, if_true, true_and, List.map_cons, List.map_nil]
    · simp only [hkey, if_false, List.map_nil]
  | (_, .null) :: rest => secretEntries_blank blanks base rest
  | (_, .bool _) :: rest => secretEntries_blank blanks base rest
  | (_, .int _) :: rest => secretEntries_blank blanks base rest
  | (_, .num _) :: rest => secretEntries_blank blanks base rest
  | (_, .arr _) :: rest => secretEntries_blank blanks base rest
  | (key, .obj fields) :: rest => by
    show secretFields (fieldPathOf base key) (blankFields blanks (fieldPathOf base key) (.obj fields)) ++
      secretEntries base (blankEntries blanks base rest) =
        (secretFields (fieldPathOf base key) (.obj fields) ++ secretEntries base rest).map _
    rw [secretFields_blank blanks (fieldPathOf base key) (.obj fields), secretEntries_blank blanks base rest,
      List.map_append]

end

theorem settings_migration : Migration settingsPlan SettingsHold where
  keeps {payload path secret} := by
    rw [mem_settingsMoves]
    constructor
    · intro h
      obtain ⟨visit, hvisit, hmove⟩ := h
      obtain ⟨rfl, hplain, hsecret, rfl⟩ := settingsMove_keep.mp hmove
      exact ⟨visit.2, hvisit, hplain, hsecret, rfl⟩
    · intro h
      obtain ⟨value, hvisit, hplain, hsecret, rfl⟩ := h
      exact ⟨(path, value), hvisit, settingsMove_keep.mpr ⟨rfl, hplain, hsecret, rfl⟩⟩
  apart {payload path secret} h hforget := by
    obtain ⟨_, -, hplain, -⟩ := h
    obtain ⟨visit, -, hmove⟩ := mem_settingsMoves.mp hforget
    exact Bool.false_ne_true (hplain.symm.trans (settingsMove_forget hmove))
  scrubbed {payload path secret} h := by
    obtain ⟨value, hvisit, -, hsecret, -⟩ := h
    refine List.any_eq_true.mpr ⟨(path, value), hvisit, ?_⟩
    show (isNestedLlmProfileCredentialPath path || isSecret value || _) = true
    rw [hsecret, Bool.or_true, Bool.true_or]
  blank {payload path secret} h := by
    obtain ⟨value, hvisit, -, hsecret, -⟩ := h
    rw [show (settingsPlan payload).document = blankFields settingsBlanks "" payload from rfl, secretFields_blank,
      List.mem_map] at hvisit
    obtain ⟨visit, -, heq⟩ := hvisit
    obtain ⟨-, rfl⟩ := Prod.mk.inj heq
    split at hsecret
    · cases hsecret
    · rename_i hkept
      refine hkept ?_
      show (isNestedLlmProfileCredentialPath visit.1 || isSecret visit.2 || _) = true
      rw [hsecret, Bool.or_true, Bool.true_or]

theorem connectorMove_keep {visit : String × String × Bool} : connectorMove visit = some (.keep path secret) ↔
    visit.1 = path ∧ visit.2.2 = true ∧ isSecret visit.2.1 = true ∧ secret = JsStr.trim visit.2.1 := by
  unfold connectorMove
  constructor
  · intro h
    split at h
    · rename_i hsecret
      obtain ⟨hmanaged, hsecret⟩ := Bool.and_eq_true_iff.mp hsecret
      obtain ⟨rfl, rfl⟩ := Move.keep.inj (Option.some.inj h)
      exact ⟨rfl, hmanaged, hsecret, rfl⟩
    · cases h
  · intro h
    obtain ⟨rfl, hmanaged, hsecret, rfl⟩ := h
    rw [if_pos (Bool.and_eq_true_iff.mpr ⟨hmanaged, hsecret⟩)]

theorem mem_connectorMoves {move : Move} : move ∈ (connectorPlan payload).moves ↔
    ∃ visit ∈ documentVisits payload, connectorMove visit = some move := List.mem_filterMap

theorem lookup_blank (entries : List (String × Json)) :
    (entries.map fun entry => (entry.1, if entry.1 = "connectors" then blankRecord entry.2 else entry.2)).lookup
      "connectors" = (entries.lookup "connectors").map blankRecord := by
  induction entries with
  | nil => rfl
  | cons entry rest ih =>
    obtain ⟨key, value⟩ := entry
    rw [List.map_cons, Json.lookup_cons_if, Json.lookup_cons_if, ih]
    by_cases hkey : "connectors" = key
    · rw [if_pos hkey, if_pos hkey, if_pos hkey.symm]
      rfl
    · rw [if_neg hkey, if_neg hkey]

theorem connectorsOf_blank (payload : Json) : connectorsOf (blankDocument payload) = blankConnectors (connectorsOf payload) := by
  cases payload with
  | obj entries =>
    unfold connectorsOf blankDocument Json.get
    dsimp only
    rw [lookup_blank]
    cases entries.lookup "connectors" with
    | none => rfl
    | some value =>
      cases value with
      | obj connectors => rfl
      | _ => rfl
  | _ => rfl

theorem documentVisits_blank {visit : String × String × Bool} (h : visit ∈ documentVisits (blankDocument payload)) :
    visit.2.1 = "" := by
  unfold documentVisits at h
  rw [connectorsOf_blank, List.mem_flatMap] at h
  obtain ⟨entry, hentry, hvisit⟩ := h
  obtain ⟨⟨connectorId, raw⟩, -, rfl⟩ := List.mem_map.mp hentry
  dsimp only at hvisit
  cases hfields : connectorFields connectorId with
  | none =>
    simp only [hfields, List.not_mem_nil] at hvisit
  | some fields =>
    cases raw with
    | obj raw =>
      simp only [hfields] at hvisit
      obtain ⟨field, hfield, hmove⟩ := List.mem_filterMap.mp hvisit
      obtain ⟨⟨key, value⟩, -, rfl⟩ := List.mem_map.mp hfield
      cases value with
      | str value =>
        dsimp only at hmove
        split at hmove
        · obtain rfl := Option.some.inj hmove
          rfl
        · cases hmove
      | _ => cases hmove
    | _ => simp only [hfields, List.not_mem_nil] at hvisit

theorem connector_migration : Migration connectorPlan ConnectorsHold where
  keeps {payload path secret} := by
    rw [mem_connectorMoves]
    constructor
    · intro h
      obtain ⟨visit, hvisit, hmove⟩ := h
      obtain ⟨rfl, hmanaged, hsecret, rfl⟩ := connectorMove_keep.mp hmove
      refine ⟨visit.2.1, ?_, hsecret, rfl⟩
      rw [← hmanaged]
      exact hvisit
    · intro h
      obtain ⟨value, hvisit, hsecret, rfl⟩ := h
      exact ⟨(path, value, true), hvisit, connectorMove_keep.mpr ⟨rfl, rfl, hsecret, rfl⟩⟩
  apart {payload path secret} h hforget := by
    obtain ⟨visit, -, hmove⟩ := mem_connectorMoves.mp hforget
    unfold connectorMove at hmove
    split at hmove
    · cases hmove
    · cases hmove
  scrubbed {payload path secret} h := by
    obtain ⟨value, hvisit, -⟩ := h
    show (!(documentVisits payload).isEmpty) = true
    cases hvisits : documentVisits payload with
    | nil =>
      rw [hvisits] at hvisit
      cases hvisit
    | cons visit rest => rfl
  blank {payload path secret} h := by
    obtain ⟨value, hvisit, hsecret, -⟩ := h
    obtain rfl : value = "" := documentVisits_blank hvisit
    cases hsecret

end Secrets

end Credential

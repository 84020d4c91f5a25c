import Yuizaki.Memory.Filters
import Yuizaki.Memory.Normal
import Mathlib.Data.Bool.Basic

/- Where the three readings of a scope agree.

   They agree on sessions. On the global scope the pipeline alone looks at the session, and on
   a workspace each of them reads something of its own: the pipeline the scope field as it is
   stored, the vector store no workspace when none is asked for, and the routes the workspace
   field as it is stored. -/
namespace Memory

variable {τ : Type} {tools : MetadataTools τ} {m : Metadata}

/-- A scope field that is there and says nothing: `None`, an empty text, a zero. -/
def LegacyScope (m : Metadata) : Prop := ∃ v, m.get "scope" = some v ∧ v.truthy = false

/-- `repr` of what is false in a condition is no name of a scope: `0.0`, `[]`, `{}`. -/
def MetadataTools.Plain (tools : MetadataTools τ) : Prop :=
  ∀ v : Json, v.truthy = false → ∀ scope : MemoryScope, tools.str v ≠ scope.name

theorem textOf_missing {key default : String} (h : m.get key = none) :
    tools.textOf m key default = default ∧ tools.textWhere m key default = default := by
  unfold MetadataTools.textOf MetadataTools.textWhere Metadata.value
  rw [h]
  exact ⟨rfl, rfl⟩

theorem textOf_truthy {key default : String} {v : Json} (h : m.get key = some v) (hv : v.truthy = true) :
    tools.textOf m key default = tools.str v ∧ tools.textWhere m key default = tools.str v := by
  unfold MetadataTools.textOf MetadataTools.textWhere Metadata.value
  rw [h]
  refine ⟨?_, rfl⟩
  show tools.str (v.or (.str default)) = tools.str v
  rw [Json.or, if_pos hv]

theorem textOf_legacy (plain : tools.Plain) (h : LegacyScope m) :
    tools.textOf m "scope" "workspace" = "workspace" ∧
      ∀ scope : MemoryScope, tools.textWhere m "scope" "workspace" ≠ scope.name := by
  obtain ⟨v, hget, hv⟩ := h
  unfold MetadataTools.textOf MetadataTools.textWhere Metadata.value
  rw [hget]
  refine ⟨?_, fun scope => plain v hv scope⟩
  show tools.str (v.or (.str "workspace")) = "workspace"
  rw [Json.or, if_neg (by rw [hv]; exact Bool.false_ne_true)]
  rfl

theorem textOf_eq (h : ¬ LegacyScope m) :
    tools.textWhere m "scope" "workspace" = tools.textOf m "scope" "workspace" := by
  cases hget : m.get "scope" with
  | none =>
    obtain ⟨hof, hwhere⟩ := @textOf_missing τ tools m "scope" "workspace" hget
    rw [hof, hwhere]
  | some v =>
    have htruthy : v.truthy = true := Bool.eq_true_of_not_eq_false fun hv => h ⟨v, hget, hv⟩
    obtain ⟨hof, hwhere⟩ := @textOf_truthy τ tools m "scope" "workspace" v hget htruthy
    rw [hof, hwhere]

theorem textWhere_name (plain : tools.Plain) (m : Metadata) (scope : MemoryScope) (hscope : scope ≠ .workspace) :
    tools.textWhere m "scope" "workspace" = scope.name ↔ tools.textOf m "scope" "workspace" = scope.name := by
  by_cases hlegacy : LegacyScope m
  · obtain ⟨hof, hwhere⟩ := textOf_legacy plain hlegacy
    rw [hof]
    refine ⟨fun h => absurd h (hwhere scope), fun h => ?_⟩
    cases scope with
    | global => exact absurd h (by decide)
    | workspace => exact absurd rfl hscope
    | session => exact absurd h (by decide)
  · rw [textOf_eq hlegacy]

/-! ## Agreement -/

/-- The three answers for a document and a scope of a request. -/
def Agree (tools : MetadataTools τ) (scope : MemoryScope) (workspace session : Option String) (m : Metadata) : Prop :=
  docMatchesScope tools scope (requestedId workspace) session none m =
      storeScope tools { scope := some scope, sessionId := session, workspaceId := workspace } m ∧
    storeScope tools { scope := some scope, sessionId := session, workspaceId := workspace } m =
      (pipelineScope tools { scope := some scope, sessionId := session, workspaceId := workspace } m).isNone

/-- A workspace field that every reading takes for the workspace `w`, or for none. -/
def SpelledId (v : Json) (w : String) : Prop := v = .null ∨ v = .str w

/-- What a document and a request have to be for the readings to agree. -/
def ReadAlike (tools : MetadataTools τ) (scope : MemoryScope) (workspace session : Option String) (m : Metadata) : Prop :=
  tools.textOf m "scope" "workspace" = scope.name →
    match scope with
    | .global => ∀ s, requestedId session = some s →
        tools.normalizeScopeId (m.value "session_id") = none ∨ tools.normalizeScopeId (m.value "session_id") = some s
    | .session => True
    | .workspace => match requestedId workspace with
      | none => ¬ LegacyScope m ∧ m.value "workspace_id" = .null
      | some w => inOrNone (tools.normalizeScopeId (m.value "workspace_id")) (some w) = false ∨
          ¬ LegacyScope m ∧ SpelledId (m.value "workspace_id") w

theorem given_idem (s : Option String) : given (requestedId s) = requestedId s := by
  cases s with
  | none => rfl
  | some s =>
    show given (if PyStr.strip s = "" then none else some (PyStr.strip s)) = if PyStr.strip s = "" then none else some (PyStr.strip s)
    by_cases h : PyStr.strip s = ""
    · rw [if_pos h]
      rfl
    · rw [if_neg h]
      exact if_neg h

theorem normalizeScopeId_spelled {v : Json} {w : String} {workspace : Option String}
    (hw : requestedId workspace = some w) (h : SpelledId v w) :
    inOrNone (tools.normalizeScopeId v) (some w) = true := by
  cases workspace with
  | none => exact nomatch hw
  | some raw =>
    have hraw : (if PyStr.strip raw = "" then none else some (PyStr.strip raw)) = some w := hw
    by_cases hblank : PyStr.strip raw = ""
    · rw [if_pos hblank] at hraw
      exact nomatch hraw
    · rw [if_neg hblank] at hraw
      obtain rfl := Option.some.inj hraw
      unfold inOrNone
      refine decide_eq_true ?_
      obtain rfl | rfl := h
      · exact Or.inl rfl
      · right
        have htruthy : (Json.str (PyStr.strip raw)).truthy = true := decide_eq_true hblank
        unfold MetadataTools.normalizeScopeId Json.or
        rw [if_pos htruthy]
        show (if PyStr.strip (PyStr.strip raw) = "" then none else some (PyStr.strip (PyStr.strip raw))) = _
        rw [PyStr.strip_strip, if_neg hblank]

section Readings

variable {workspace session : Option String}

theorem global_alike (plain : tools.Plain) :
    Agree tools .global workspace session m ↔ ReadAlike tools .global workspace session m := by
  have hname := textWhere_name plain m .global (by decide)
  unfold Agree ReadAlike docMatchesScope storeScope pipelineScope
  dsimp only [MemoryScope.name] at hname ⊢
  by_cases hscope : tools.textOf m "scope" "workspace" = "global"
  · rw [if_neg (not_not.mpr (hname.mpr hscope)), decide_eq_true hscope]
    cases hsession : requestedId session with
    | none => simp [given]
    | some s =>
      by_cases hin : inOrNone (tools.normalizeScopeId (m.value "session_id")) (some s) = true
      · rw [hin]
        unfold inOrNone at hin
        have hor := of_decide_eq_true hin
        simp [given, hor]
      · rw [Bool.eq_false_iff.mpr hin]
        unfold inOrNone at hin
        have hor : ¬ (_ ∨ _) := fun h => hin (decide_eq_true h)
        simp [given, hscope, hor]
  · rw [if_pos fun h => hscope (hname.mp h), decide_eq_false hscope]
    simp [given, hscope]

theorem session_alike (plain : tools.Plain) : Agree tools .session workspace session m := by
  have hname := textWhere_name plain m .session (by decide)
  unfold Agree docMatchesScope storeScope pipelineScope
  dsimp only [MemoryScope.name] at hname ⊢
  by_cases hscope : tools.textOf m "scope" "workspace" = "session"
  · rw [if_neg (not_not.mpr (hname.mpr hscope))]
    cases hsession : requestedId session with
    | none => simp [given, hscope]
    | some s => by_cases hid : tools.normalizeScopeId (m.value "session_id") = some s <;> simp [given, hscope, hid]
  · rw [if_pos fun h => hscope (hname.mp h)]
    simp [given, hscope]

theorem workspace_alike (plain : tools.Plain) :
    Agree tools .workspace workspace session m ↔ ReadAlike tools .workspace workspace session m := by
  unfold Agree ReadAlike docMatchesScope storeScope pipelineScope
  dsimp only [MemoryScope.name]
  rw [given_idem]
  by_cases hscope : tools.textOf m "scope" "workspace" = "workspace"
  · by_cases hlegacy : LegacyScope m
    · have hnot : tools.textWhere m "scope" "workspace" ≠ "workspace" := (textOf_legacy plain hlegacy).2 .workspace
      rw [if_pos hnot]
      cases hworkspace : requestedId workspace with
      | none => simp [given, hscope, hlegacy]
      | some w =>
        by_cases hin : inOrNone (tools.normalizeScopeId (m.value "workspace_id")) (some w) = true
        · simp [given, hscope, hlegacy, hin]
        · have hspelled : ¬ SpelledId (m.value "workspace_id") w := fun h => hin (normalizeScopeId_spelled hworkspace h)
          unfold SpelledId at hspelled
          rw [not_or] at hspelled
          simp [given, hscope, hlegacy, hin, hspelled.1, hspelled.2]
    · rw [if_neg (by rw [textOf_eq hlegacy]; exact not_not.mpr hscope)]
      cases hworkspace : requestedId workspace with
      | none =>
        by_cases hnull : m.value "workspace_id" = .null
        · have hid : tools.normalizeScopeId .null = none := rfl
          simp [given, hscope, hlegacy, hnull, hid]
        · simp [given, hscope, hlegacy, hnull]
      | some w =>
        by_cases hspelled : SpelledId (m.value "workspace_id") w
        · have hin := @normalizeScopeId_spelled τ tools _ _ _ hworkspace hspelled
          have hor := hspelled
          unfold SpelledId at hor
          simp [given, hscope, hlegacy, hin, hspelled, hor.symm]
        · have hor : ¬ (m.value "workspace_id" = .str w ∨ m.value "workspace_id" = .null) := fun h => hspelled h.symm
          by_cases hin : inOrNone (tools.normalizeScopeId (m.value "workspace_id")) (some w) = true
          · simp [given, hscope, hlegacy, hin, hspelled, hor]
          · simp [given, hscope, hlegacy, hin, hor]
  · have hnot : ¬ tools.textWhere m "scope" "workspace" = "workspace" := by
      by_cases hlegacy : LegacyScope m
      · exact (textOf_legacy plain hlegacy).2 .workspace
      · rw [textOf_eq hlegacy]
        exact hscope
    rw [if_pos hnot]
    simp [given, hscope]

/-- **The readings of a scope agree**, for a document, a scope and the ids of a request, exactly
    where they are read alike. -/
theorem scopes_agree (plain : tools.Plain) (scope : MemoryScope) (workspace session : Option String) (m : Metadata) :
    Agree tools scope workspace session m ↔ ReadAlike tools scope workspace session m := by
  cases scope with
  | global => exact global_alike plain
  | session => exact ⟨fun _ _ => trivial, fun _ => session_alike plain⟩
  | workspace => exact workspace_alike plain

end Readings

theorem newYear_plain : newYear.Plain := by
  intro v hv scope
  cases v with
  | null => cases scope <;> decide
  | bool b =>
    cases b with
    | true => exact absurd hv (by decide)
    | false => cases scope <;> decide
  | int n =>
    have hzero : n = 0 := by simpa [Json.truthy] using hv
    rw [hzero]
    cases scope <;> decide
  | str s =>
    have hempty : s = "" := by simpa [Json.truthy] using hv
    rw [hempty]
    cases scope <;> decide
  | num q =>
    have hrepr : newYear.str (.num q) = "" := rfl
    rw [hrepr]
    cases scope <;> decide
  | arr xs =>
    have hrepr : newYear.str (.arr xs) = "" := rfl
    rw [hrepr]
    cases scope <;> decide
  | obj kvs =>
    have hrepr : newYear.str (.obj kvs) = "" := rfl
    rw [hrepr]
    cases scope <;> decide

/-- A memory of a workspace is read alike where that workspace is asked for. -/
theorem scopes_agree_tea : Agree newYear .workspace (some "tea") none
    (Metadata.ofEntries [("scope", .str "workspace"), ("workspace_id", .str "tea")]) := by
  refine (scopes_agree newYear_plain .workspace (some "tea") none _).mpr fun _ => Or.inr ⟨?_, Or.inr ?_⟩
  · rintro ⟨v, hget, hv⟩
    have hscope : some v = some (Json.str "workspace") := hget.symm
    rw [Option.some.inj hscope] at hv
    exact absurd hv (by decide)
  · decide +kernel

/-- Where no workspace is asked for, the vector store reads a memory of any workspace, and the
    two others do not; and only the pipeline misses a memory whose scope says nothing. -/
theorem workspace_leaks :
    (docMatchesScope newYear .workspace none none none
        (Metadata.ofEntries [("scope", .str "workspace"), ("workspace_id", .str "tea")]) = false ∧
      storeScope newYear { scope := some .workspace }
        (Metadata.ofEntries [("scope", .str "workspace"), ("workspace_id", .str "tea")]) = true ∧
      pipelineScope newYear { scope := some .workspace }
        (Metadata.ofEntries [("scope", .str "workspace"), ("workspace_id", .str "tea")]) = some "workspace") ∧
      storeScope newYear { scope := some .workspace } (Metadata.ofEntries [("scope", .null)]) = true ∧
      pipelineScope newYear { scope := some .workspace } (Metadata.ofEntries [("scope", .null)]) = some "scope" := by
  decide +kernel

end Memory

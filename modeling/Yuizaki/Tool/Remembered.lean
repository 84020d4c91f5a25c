import Mathlib.Data.List.Infix
import Yuizaki.Tool.Policy

/- Remembered permissions of different tools and scopes.

   A decision is remembered under one text, the name of the tool and the scope with `::`
   between them, and nothing keeps `::` out of either. So what is done for one tool and scope
   reaches another exactly where the two texts are the same; and a revocation without a scope
   that finds its tool's name among the texts takes it for one. -/
namespace Tool

open Events

/-! ## Revoking -/

/-- The key that `revoke` takes. -/
def PolicyEngine.revokedKey (engine : PolicyEngine) (toolName : String) (permissionScope : Option String) : String :=
  let rawToolName := PyStr.strip toolName
  if permissionScope = none ∧ PyStr.contains rawToolName "::" = true ∧
      (engine.remembered.get rawToolName).isSome = true then rawToolName
  else buildScopeKey rawToolName permissionScope

/-- `revoke`: none where the store did not take the audit record. -/
def PolicyEngine.revokeTool (engine : PolicyEngine) (toolName : String) (permissionScope : Option String)
    (saved : Bool) : Option Bool × PolicyEngine :=
  let key := engine.revokedKey toolName permissionScope
  match engine.remembered.get key with
  | none => (some false, engine)
  | some _ => (if saved then some true else none, engine.revoke key)

/-- What is decided for a tool of a name, whatever else it is, under a scope. -/
structure SameDecisions (engine engine' : PolicyEngine) (toolName : String) (scope : Option String) : Prop where
  preview : ∀ (tool : ToolDefinition) (forceConfirm : Bool), tool.name = toolName →
    engine'.previewTool tool scope forceConfirm = engine.previewTool tool scope forceConfirm
  evaluate : ∀ (tables : TextTables) (urls : UrlTools) (fresh : Evaluation) (tool : ToolDefinition)
    (parameters : Json) (forceConfirm : Bool), tool.name = toolName →
      (engine'.evaluateTool tables urls fresh tool scope parameters forceConfirm).1 =
        (engine.evaluateTool tables urls fresh tool scope parameters forceConfirm).1

section Decisions

variable {engine engine' : PolicyEngine} {tool other key : String} {scope otherScope : Option String}

/-! ## What a decision depends on -/

theorem sameDecisions_of_get
    (h : engine'.remembered.get (buildScopeKey tool scope) = engine.remembered.get (buildScopeKey tool scope)) :
    SameDecisions engine engine' tool scope := by
  have hpreview (definition : ToolDefinition) (forceConfirm : Bool) (hname : definition.name = tool) :
      engine'.previewTool definition scope forceConfirm = engine.previewTool definition scope forceConfirm := by
    have hremembered : engine'.rememberedDecision definition scope = engine.rememberedDecision definition scope := by
      unfold PolicyEngine.rememberedDecision
      rw [hname, h]
    unfold PolicyEngine.previewTool
    rw [hremembered]
  refine ⟨hpreview, fun tables urls fresh definition parameters forceConfirm hname => ?_⟩
  unfold PolicyEngine.evaluateTool
  dsimp only
  rw [hpreview definition forceConfirm hname]
  split
  · rfl
  · split
    · rfl
    · split <;> rfl

def ordinaryTool (name : String) : ToolDefinition := { name, source := .builtin }

theorem preview_ordinary (engine : PolicyEngine) (name : String) (scope : Option String) :
    (engine.previewTool (ordinaryTool name) scope false).allowed = false ↔
      engine.remembered.get (buildScopeKey name scope) = some false := by
  have hserious : RiskLevel.safe.serious = false := rfl
  cases hremembered : engine.remembered.get (buildScopeKey name scope) with
  | none =>
    simp [PolicyEngine.previewTool, PolicyEngine.rememberedDecision, isSelectedExternalTool, ordinaryTool, hremembered, hserious]
  | some allowed =>
    cases allowed with
    | true =>
      simp [PolicyEngine.previewTool, PolicyEngine.rememberedDecision, isSelectedExternalTool, ordinaryTool, hremembered, hserious]
      rfl
    | false =>
      simp [PolicyEngine.previewTool, PolicyEngine.rememberedDecision, isSelectedExternalTool, ordinaryTool, hremembered, hserious]
      rfl

theorem SameDecisions.denied (h : SameDecisions engine engine' tool scope) :
    engine'.remembered.get (buildScopeKey tool scope) = some false ↔
      engine.remembered.get (buildScopeKey tool scope) = some false := by
  rw [← preview_ordinary, ← preview_ordinary, h.preview (ordinaryTool tool) false rfl]

/-! ## What an operation changes -/

theorem get_resolved (r : Resolution) (hkey : r.toolName = some tool) (hscope : r.permissionScope = scope)
    (hother : tool = "" ∨ buildScopeKey tool scope ≠ key) :
    (engine.resolvePending r).2.remembered.get key = engine.remembered.get key := by
  have hremembered : (r.remembered engine.remembered).get key = engine.remembered.get key := by
    unfold Resolution.remembered
    rw [hkey]
    by_cases hempty : tool = ""
    · rw [hempty]
      rfl
    · have hne : key ≠ buildScopeKey tool scope := fun heq => hother.elim hempty (fun hne => hne heq.symm)
      split
      · rfl
      · rfl
      · rename_i name hname
        obtain rfl := Option.some.inj hname
        rw [hscope]
        split
        · exact Dict.get_set_of_ne hne
        · rfl
  unfold PolicyEngine.resolvePending
  split
  · rfl
  · split
    · rfl
    · split
      · rfl
      · exact hremembered

theorem get_revoked (saved : Bool) (h : engine.revokedKey tool scope ≠ key) :
    (engine.revokeTool tool scope saved).2.remembered.get key = engine.remembered.get key := by
  unfold PolicyEngine.revokeTool
  dsimp only
  split
  · rfl
  · show (engine.remembered.erase (engine.revokedKey tool scope)).get key = _
    rw [Dict.get_erase, if_neg (fun heq => h heq.symm)]

theorem buildScopeKey_contains (tool : String) (scope : Option String) :
    PyStr.contains (buildScopeKey tool scope) "::" = true := by
  refine PyStr.contains_iff.mpr ⟨tool.toList, (scopeOf scope).toList, ?_⟩
  rw [buildScopeKey, String.toList_append, String.toList_append]

theorem buildScopeKey_inj (hplain : ':' ∉ tool.toList) (hother : ':' ∉ other.toList) :
    buildScopeKey tool scope = buildScopeKey other otherScope ↔
      tool = other ∧ scopeOf scope = scopeOf otherScope := by
  constructor
  · intro heq
    unfold buildScopeKey at heq
    have hlist := congrArg String.toList heq
    rw [String.toList_append, String.toList_append, String.toList_append, String.toList_append,
      List.append_assoc, List.append_assoc] at hlist
    have hcolons (rest : List Char) : "::".toList ++ rest = ':' :: (':' :: rest) := rfl
    rw [hcolons, hcolons] at hlist
    -- the name is what stands before the first colon
    have hfront (name rest : List Char) (h : ':' ∉ name) :
        (name ++ ':' :: rest).takeWhile (fun c => c ≠ ':') = name := by
      have hpass : ∀ c ∈ name, decide (c ≠ ':') = true := by
        intro c hc
        refine decide_eq_true fun heq => h ?_
        rw [← heq]
        exact hc
      rw [List.takeWhile_append_of_pos hpass]
      simp
    have hname : tool.toList = other.toList := by
      rw [← hfront tool.toList _ hplain, hlist, hfront other.toList _ hother]
    rw [hname] at hlist
    have hrest := List.append_cancel_left hlist
    refine ⟨String.toList_injective hname, String.toList_injective ?_⟩
    exact (List.cons.inj (List.cons.inj hrest).2).2
  · intro ⟨htool, hscope⟩
    unfold buildScopeKey
    rw [htool, hscope]

end Decisions

/-! ## Independence -/

/-- An engine that waits for one answer and remembers one decision. -/
def waitingEngine (requestId key : String) (allowed : Bool) : PolicyEngine :=
  ((PolicyEngine.new (Dict.empty.set key allowed)).registerPending requestId).2

/-- A decision to remember a denial, in answer to the request. -/
def denial (tool : String) (scope : Option String) : Resolution where
  requestId := "r1"
  allowed := false
  remember := true
  toolName := some tool
  permissionScope := scope

theorem denial_remembered (tool : String) (scope : Option String) (htool : tool ≠ "") (key : String) :
    (((waitingEngine "r1" key true).resolvePending (denial tool scope)).2).remembered.get (buildScopeKey tool scope) =
      some false := by
  have hkey : (denial tool scope).remembered (Dict.empty.set key true) =
      (Dict.empty.set key true).set (buildScopeKey tool scope) false := by
    unfold Resolution.remembered denial
    dsimp only
    split
    · rename_i hnone
      cases hnone
    · rename_i hempty
      exact absurd (Option.some.inj hempty) htool
    · rename_i name hname
      obtain rfl := Option.some.inj hname
      rfl
  show ((denial tool scope).remembered (Dict.empty.set key true)).get (buildScopeKey tool scope) = some false
  rw [hkey, Dict.get_set_self]

/-- Deciding for one tool and scope leaves what is decided for another, in every state of the
engine, exactly where the texts that the decisions are remembered under differ; revoking does
exactly where the text of the stripped name differs and, without a scope, the stripped name is not
itself the text. The texts of tools without `:` in their names differ where the tools or the scopes
do. -/
theorem permissions_independent (tool other : String) (scope otherScope : Option String) :
    ((∀ engine r, r.toolName = some tool → r.permissionScope = scope →
        SameDecisions engine (engine.resolvePending r).2 other otherScope) ↔
      tool = "" ∨ buildScopeKey tool scope ≠ buildScopeKey other otherScope) ∧
    ((∀ engine saved, SameDecisions engine (engine.revokeTool tool scope saved).2 other otherScope) ↔
      buildScopeKey (PyStr.strip tool) scope ≠ buildScopeKey other otherScope ∧
        (scope = none → PyStr.strip tool ≠ buildScopeKey other otherScope)) ∧
    (':' ∉ tool.toList → ':' ∉ other.toList →
      (buildScopeKey tool scope = buildScopeKey other otherScope ↔
        tool = other ∧ scopeOf scope = scopeOf otherScope)) := by
  refine ⟨⟨fun hsame => ?_, fun hkey engine r htool hscope => ?_⟩, ⟨fun hsame => ?_, fun hkeys engine saved => ?_⟩,
    buildScopeKey_inj⟩
  · by_contra hnot
    obtain ⟨htool, hkey⟩ := not_or.mp hnot
    have hkey := not_not.mp hkey
    have hdenied := (hsame (waitingEngine "r1" (buildScopeKey other otherScope) true) (denial tool scope) rfl rfl).denied
    rw [← hkey, denial_remembered tool scope htool] at hdenied
    have hbefore := hdenied.mp rfl
    have hallowed : (waitingEngine "r1" (buildScopeKey tool scope) true).remembered.get (buildScopeKey tool scope) =
        some true := Dict.get_set_self
    rw [hallowed] at hbefore
    cases hbefore
  · exact sameDecisions_of_get (get_resolved r htool hscope hkey)
  · -- an engine that remembers a denial for the other, which is revoked
    have hrevoked (key : String) (hkey : key = buildScopeKey other otherScope)
        (hrevokes : (waitingEngine "r1" (buildScopeKey other otherScope) false).revokedKey tool scope = key) :
        False := by
      have hdenied := (hsame (waitingEngine "r1" (buildScopeKey other otherScope) false) true).denied
      have hbefore : (waitingEngine "r1" (buildScopeKey other otherScope) false).remembered.get
          (buildScopeKey other otherScope) = some false := Dict.get_set_self
      have hafter := hdenied.mpr hbefore
      unfold PolicyEngine.revokeTool at hafter
      dsimp only at hafter
      rw [hrevokes, hkey, hbefore] at hafter
      have hgone : ((waitingEngine "r1" (buildScopeKey other otherScope) false).remembered.erase
          (buildScopeKey other otherScope)).get (buildScopeKey other otherScope) = none := by
        rw [Dict.get_erase, if_pos rfl]
      exact absurd (hgone.symm.trans hafter) (by decide)
    constructor
    · intro hkey
      refine hrevoked _ hkey ?_
      unfold PolicyEngine.revokedKey
      dsimp only
      split
      · -- the one text that is remembered is the stripped name
        rename_i hraw
        have hget := hraw.2.2
        have hremembered (k : String) :
            (waitingEngine "r1" (buildScopeKey other otherScope) false).remembered.get k =
              if k = buildScopeKey other otherScope then some false else none := Dict.get_set
        rw [hremembered] at hget
        by_cases hsame : PyStr.strip tool = buildScopeKey other otherScope
        · exact hsame.trans hkey.symm
        · rw [if_neg hsame] at hget
          cases hget
      · rfl
    · intro hscope hkey
      refine hrevoked _ hkey ?_
      unfold PolicyEngine.revokedKey
      dsimp only
      rw [if_pos]
      refine ⟨hscope, ?_, ?_⟩
      · rw [hkey]
        exact buildScopeKey_contains _ _
      · have hget : (waitingEngine "r1" (buildScopeKey other otherScope) false).remembered.get
            (buildScopeKey other otherScope) = some false := Dict.get_set_self
        rw [hkey, hget]
        rfl
  · refine sameDecisions_of_get (get_revoked saved ?_)
    unfold PolicyEngine.revokedKey
    dsimp only
    split
    · rename_i hraw
      exact hkeys.2 hraw.1
    · exact hkeys.1

/-! ## Two tools under one text -/

/-- A denial that is remembered for the tool `a::b` under the scope `c` is one for the tool `a` under
the scope `b::c`. -/
theorem permissions_share_text :
    ¬ ∀ (tool other : String) (scope otherScope : Option String), (tool, scope) ≠ (other, otherScope) →
      ∀ engine r, r.toolName = some tool → r.permissionScope = scope →
        SameDecisions engine (engine.resolvePending r).2 other otherScope := by
  intro hclaim
  have hsame := hclaim "a::b" "a" (some "c") (some "b::c") (by decide)
    (waitingEngine "r1" "other::default" true) (denial "a::b" (some "c")) rfl rfl
  have hdenied := hsame.denied
  have hafter : (((waitingEngine "r1" "other::default" true).resolvePending (denial "a::b" (some "c"))).2).remembered.get
      (buildScopeKey "a" (some "b::c")) = some false := by
    have hkey : buildScopeKey "a" (some "b::c") = buildScopeKey "a::b" (some "c") := by decide +kernel
    rw [hkey]
    exact denial_remembered "a::b" (some "c") (by decide) "other::default"
  have hbefore := hdenied.mp hafter
  have hnone : (waitingEngine "r1" "other::default" true).remembered.get (buildScopeKey "a" (some "b::c")) = none := by
    decide +kernel
  rw [hnone] at hbefore
  cases hbefore

end Tool

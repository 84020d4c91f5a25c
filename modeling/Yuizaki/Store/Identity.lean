import Yuizaki.Lib.Join
import Yuizaki.Store.Turn

/- The identity of a turn (`TurnService.idempotency_key` in `modules/agent/turn_service.py`).

   The key is a digest of the fields of the identity, joined by `|`. The fields are texts of callers
   and connectors, and a field with a `|` in it can be cut there: so a key stands for one identity
   exactly where no field has the separator. -/
namespace TurnStore

/-! ## The key -/

/-- The texts of the identity, the epoch apart: workspace, session, request, turn and generation. -/
def identityFields (ctx : TurnContext) : List String :=
  [ctx.workspaceId.getD "", ctx.sessionId, ctx.requestId.getD "", ctx.turnId.getD "", ctx.generationId.getD ""]

def identityText (ctx : TurnContext) : String := "|".intercalate (identityFields ctx ++ [toString ctx.interruptionEpoch])

/-- `idempotency_key`; the digest is the start of a SHA-256. -/
def idempotencyKey (digest : String → String) (ctx : TurnContext) : String := "turn:" ++ digest (identityText ctx)

/-- The separator is in none of the fields. -/
def SeparatorFree (ctx : TurnContext) : Prop := ∀ field ∈ identityFields ctx, '|' ∉ field.toList

/-- Every context with the same key has the same fields. -/
def KeyIdentifies (digest : String → String) (ctx : TurnContext) : Prop :=
  ∀ other, idempotencyKey digest ctx = idempotencyKey digest other → identityFields ctx = identityFields other

section Key

variable {digest : String → String} {ctx other : TurnContext}

theorem pipe_not_mem_toString (n : ℤ) : '|' ∉ (toString n).toList := by
  have hdigits (m : ℕ) : '|' ∉ m.repr.toList := fun h => by
    have hdigit : ('|').isDigit = true := Nat.isDigit_of_mem_toDigits (by decide) (by decide) (Nat.toList_repr ▸ h)
    exact absurd hdigit (by decide)
  cases n with
  | ofNat m => exact hdigits m
  | negSucc m =>
    show '|' ∉ ("-" ++ (m.succ).repr).toList
    rw [String.toList_append]
    intro h
    obtain hsign | hmem := List.mem_append.mp h
    · exact absurd hsign (by decide)
    · exact hdigits m.succ hmem

theorem toList_identityText (ctx : TurnContext) :
    (identityText ctx).toList =
      ['|'].intercalate ((identityFields ctx).map String.toList ++ [(toString ctx.interruptionEpoch).toList]) := by
  unfold identityText
  rw [String.toList_intercalate, List.map_append]
  rfl

theorem identityText_of_key (hdigest : Function.Injective digest)
    (h : idempotencyKey digest ctx = idempotencyKey digest other) : identityText ctx = identityText other :=
  hdigest (String.append_right_inj _ |>.mp h)

theorem SeparatorFree.identifies (hdigest : Function.Injective digest) (h : SeparatorFree ctx) : KeyIdentifies digest ctx := by
  intro other hkey
  have htext := congrArg String.toList (identityText_of_key hdigest hkey)
  rw [toList_identityText, toList_identityText] at htext
  have hfree : ∀ x ∈ (identityFields ctx).map String.toList ++ [(toString ctx.interruptionEpoch).toList], '|' ∉ x := by
    intro x hx
    obtain hfield | hepoch := List.mem_append.mp hx
    · obtain ⟨field, hmem, rfl⟩ := List.mem_map.mp hfield
      exact h field hmem
    · rw [List.mem_singleton.mp hepoch]
      exact pipe_not_mem_toString _
  have hlength (c c' : TurnContext) :
      ((identityFields c).map String.toList ++ [(toString c.interruptionEpoch).toList]).length =
        ((identityFields c').map String.toList ++ [(toString c'.interruptionEpoch).toList]).length := rfl
  have hfields := (List.append_inj' (Join.join_inj hfree (hlength ctx other) htext) rfl).1
  exact List.map_injective_iff.mpr (fun _ _ => String.toList_inj.mp) hfields

def TurnContext.withFields (ctx : TurnContext) : List String → TurnContext
  | [workspaceId, sessionId, requestId, turnId, generationId] =>
    { ctx with
      workspaceId := some workspaceId
      sessionId
      requestId := some requestId
      turnId := some turnId
      generationId := some generationId }
  | _ => ctx

theorem withFields_spec {fields : List String} (h : fields.length = 5) :
    identityFields (ctx.withFields fields) = fields ∧ (ctx.withFields fields).interruptionEpoch = ctx.interruptionEpoch := by
  match fields, h with
  | [_, _, _, _, _], _ => exact ⟨rfl, rfl⟩

theorem separatorFree_of_identifies (h : KeyIdentifies digest ctx) : SeparatorFree ctx := by
  intro field hfield hpipe
  have htwo : 2 ≤ ((identityFields ctx).map String.toList).length := by
    show 2 ≤ 5
    decide
  obtain ⟨regrouped, hlength, hne, hjoin⟩ :=
    Join.exists_regrouped htwo (List.mem_map.mpr ⟨field, hfield, rfl⟩) hpipe
  have hfive : (regrouped.map String.ofList).length = 5 := by
    rw [List.length_map, hlength]
    rfl
  obtain ⟨hfields, hepoch⟩ : _ ∧ (ctx.withFields (regrouped.map String.ofList)).interruptionEpoch = _ := withFields_spec hfive
  have hlists : (identityFields (ctx.withFields (regrouped.map String.ofList))).map String.toList = regrouped := by
    rw [hfields, List.map_map]
    have hid : String.toList ∘ String.ofList = id := funext fun _ => String.toList_ofList
    rw [hid, List.map_id]
  have hkey : idempotencyKey digest ctx = idempotencyKey digest (ctx.withFields (regrouped.map String.ofList)) := by
    unfold idempotencyKey
    have htext : identityText ctx = identityText (ctx.withFields (regrouped.map String.ofList)) := by
      rw [← String.toList_inj, toList_identityText, toList_identityText, hlists, hepoch]
      refine Join.join_concat (List.cons_ne_nil _ _) ?_ hjoin.symm _
      intro hnil
      rw [hnil] at hlength
      cases hlength
    rw [htext]
  refine hne ?_
  rw [← hlists, ← h _ hkey]

end Key

/-- A key stands for one identity exactly where no field of it has the separator. -/
theorem key_identifies (digest : String → String) (hdigest : Function.Injective digest) (ctx : TurnContext) :
    KeyIdentifies digest ctx ↔ SeparatorFree ctx :=
  ⟨separatorFree_of_identifies, SeparatorFree.identifies hdigest⟩

/-- A turn of a session, in a workspace. -/
def turnIn (workspaceId sessionId : String) : TurnContext :=
  { (sampleTurn sampleKey).context with
    workspaceId := some workspaceId
    sessionId
    requestId := some "r"
    turnId := some "turn:r"
    generationId := some "generation:turn:r" }

theorem key_identifies_plain : KeyIdentifies id (turnIn "w" "a") :=
  (key_identifies id Function.injective_id _).mpr (by unfold SeparatorFree; decide)

/-- Two sessions share a key. -/
theorem sessions_share_key : ∃ ctx other : TurnContext, (∀ digest, idempotencyKey digest ctx = idempotencyKey digest other) ∧
    ctx.workspaceId ≠ other.workspaceId ∧ ctx.sessionId ≠ other.sessionId := by
  refine ⟨turnIn "w" "a|b", turnIn "w|a" "b", fun digest => ?_, by decide, by decide⟩
  have htext : identityText (turnIn "w" "a|b") = identityText (turnIn "w|a" "b") := by decide +kernel
  unfold idempotencyKey
  rw [htext]

end TurnStore

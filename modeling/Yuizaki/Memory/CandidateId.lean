import Yuizaki.Lib.Dict
import Yuizaki.Lib.Join
import Yuizaki.Lib.PyStr
import Mathlib.Logic.Function.Defs

/- The identity of a memory candidate (`candidate_id` in `modules/system/memory_write_pipeline.py`).

   The id is a digest of the workspace, kind, source, turn and text of a candidate, joined by
   bars. The bars are not escaped, so a bar in one field can be read as the end of it: two
   candidates have the same id exactly when their fields, each cut at its bars, give the same
   pieces. The digest is a parameter. -/
namespace Memory

structure Candidate where
  workspaceId : Option (List Char)
  kind : List Char
  sourceId : Option (List Char)
  turnId : Option (List Char)
  text : List Char
deriving DecidableEq

namespace Candidate

/-- `(workspace_id or "", kind, source_id or "", turn_id or "", text.strip())` -/
def fields (c : Candidate) : List (List Char) :=
  [c.workspaceId.getD [], c.kind, c.sourceId.getD [], c.turnId.getD [], PyStr.stripChars c.text]

def pieces (c : Candidate) : List (List Char) := c.fields.flatMap (·.splitOn '|')

end Candidate

/-- `candidate_id`, with `sha256(raw).hexdigest()[:40]` as the digest. -/
def candidateId (digest : List Char → List Char) (c : Candidate) : List Char :=
  "candidate_".toList ++ digest (['|'].intercalate c.fields)

/-- `persist_relationship_memory`: the store after it, and whether the id was there. -/
def persistRelationshipMemory (digest : List Char → List Char) (store : Dict (List Char) Candidate) (c : Candidate) :
    Dict (List Char) Candidate × Bool :=
  match store.get (candidateId digest c) with
  | some _ => (store, true)
  | none => (store.set (candidateId digest c) c, false)

variable {digest : List Char → List Char} {c d : Candidate} {store : Dict (List Char) Candidate}

theorem candidateId_eq_iff (hdigest : Function.Injective digest) :
    candidateId digest c = candidateId digest d ↔ c.pieces = d.pieces := by
  have hjoin : ['|'].intercalate c.fields = ['|'].intercalate d.fields ↔ c.pieces = d.pieces :=
    Join.join_eq_iff (List.cons_ne_nil _ _) (List.cons_ne_nil _ _)
  unfold candidateId
  rw [List.append_cancel_left_eq, hdigest.eq_iff]
  exact hjoin

/-! ## Persisting -/

theorem persist_new (h : store.get (candidateId digest c) = none) :
    persistRelationshipMemory digest store c = (store.set (candidateId digest c) c, false) := by
  unfold persistRelationshipMemory
  rw [h]

/-- Both of two candidates are in a store after they were persisted. -/
def BothKept (digest : List Char → List Char) (store : Dict (List Char) Candidate) (c d : Candidate) : Prop :=
  let after := (persistRelationshipMemory digest (persistRelationshipMemory digest store c).1 d).1
  after.get (candidateId digest c) = some c ∧ after.get (candidateId digest d) = some d

/-- **Candidates are kept apart**, by their ids and in the store, exactly when they differ in the
    pieces of their fields. -/
theorem candidates_apart (hdigest : Function.Injective digest) (hne : c ≠ d)
    (hc : store.get (candidateId digest c) = none) (hd : store.get (candidateId digest d) = none) :
    (candidateId digest c ≠ candidateId digest d ↔ c.pieces ≠ d.pieces) ∧
      (BothKept digest store c d ↔ c.pieces ≠ d.pieces) := by
  have hid : candidateId digest c ≠ candidateId digest d ↔ c.pieces ≠ d.pieces :=
    not_congr (candidateId_eq_iff hdigest)
  refine ⟨hid, ?_⟩
  rw [← hid]
  unfold BothKept
  rw [persist_new hc]
  dsimp only
  constructor
  · rintro ⟨hkept, hother⟩ hsame
    exact hne (Option.some.inj (hkept.symm.trans ((congrArg (Dict.get _) hsame).trans hother)))
  · intro hapart
    have hfree : (store.set (candidateId digest c) c).get (candidateId digest d) = none := by
      rw [Dict.get_set_of_ne (Ne.symm hapart)]
      exact hd
    rw [persist_new hfree]
    dsimp only
    rw [Dict.get_set_of_ne hapart, Dict.get_set_self, Dict.get_set_self]
    exact ⟨rfl, rfl⟩

def gratitude (sourceId turnId : String) : Candidate where
  workspaceId := some "home".toList
  kind := "gratitude".toList
  sourceId := some sourceId.toList
  turnId := some turnId.toList
  text := "thanks".toList

/-- Two turns of one source are kept apart. -/
theorem candidates_apart_turns : BothKept id Dict.empty (gratitude "chat" "1") (gratitude "chat" "2") :=
  (candidates_apart Function.injective_id (by decide) rfl rfl).2.mpr (by decide +kernel)

/-- A bar that moves from the source to the turn: the second candidate is taken for the first. -/
theorem bar_moved :
    gratitude "chat|1" "2" ≠ gratitude "chat" "1|2" ∧
      candidateId id (gratitude "chat|1" "2") = candidateId id (gratitude "chat" "1|2") ∧
      (persistRelationshipMemory id (persistRelationshipMemory id Dict.empty (gratitude "chat|1" "2")).1
        (gratitude "chat" "1|2")).2 = true := by
  decide +kernel

end Memory

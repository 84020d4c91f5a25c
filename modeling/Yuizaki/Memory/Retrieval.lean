import Yuizaki.Lib.Bounded
import Yuizaki.Lib.Sorting
import Yuizaki.Memory.Filters
import Yuizaki.Memory.Normal
import Yuizaki.Memory.Sqlite
import Mathlib.Algebra.Order.Ring.Rat
import Mathlib.Data.Bool.Basic
import Mathlib.Data.List.Perm.Subperm
import Mathlib.Algebra.GroupWithZero.Nat

/- Recall through the retrieval pipeline (`modules/memory/pipeline.py`), over the relations that
   documents have among each other (`modules/memory/relation_projection.py`).

   What the store found is filtered and cut to `top_k`; from there a breadth-first walk over the
   relations brings in more documents; all are ranked by score, cut to `top_k` again, and then cut to
   the token budget. The walk looks at its limit between two documents that it expands and not
   between their neighbours, so one document can bring in more than the limit leaves. -/
namespace Memory

open Fallible

variable {τ : Type} [LinearOrder τ] (tools : MetadataTools τ) (now : τ)

/-! ## Relations -/

structure RelationEdge where
  targetId : String
  relation : String
  evidenceType : String
deriving DecidableEq

/-- `MemoryRelationProjection`: the edges by their source. -/
abbrev MemoryRelationProjection := Dict String (List RelationEdge)

def MemoryRelationProjection.neighbors (projection : MemoryRelationProjection) (documentId : String) : List RelationEdge :=
  (projection.get documentId).getD []

/-- The edges so far, and the keys that were added. -/
structure ProjectionDraft where
  edges : MemoryRelationProjection := Dict.empty
  seen : List (String × RelationEdge) := []

/-- `add`: an edge between two ids, once. -/
def ProjectionDraft.add (draft : ProjectionDraft) (sourceId targetId relation evidenceType : String) : ProjectionDraft :=
  let edge : RelationEdge := { targetId, relation, evidenceType }
  if sourceId = "" ∨ targetId = "" ∨ sourceId = targetId then draft
  else if (sourceId, edge) ∈ draft.seen then draft
  else
    { edges := draft.edges.set sourceId ((draft.edges.get sourceId).getD [] ++ [edge])
      seen := (sourceId, edge) :: draft.seen }

def MetadataTools.asIds : Json → List String
  | .str s => if PyStr.strip s = "" then [] else [PyStr.strip s]
  | .arr items => (items.map fun item => PyStr.strip (tools.str item)).filter (· ≠ "")
  | _ => []

/-- The fields that `_timestamp` reads, in turn. -/
def timestampFields : List String := ["occurred_at", "ingested_at", "updated_at", "created_at", "timestamp"]

/-- `_timestamp`; `clock` reads a date with a `Z` for its zone, where it is one. -/
def relationTimestamp (clock : String → Option ℚ) (m : Metadata) : Option ℚ :=
  timestampFields.findSome? fun key =>
    match m.value key with
    | .str raw => if PyStr.strip raw = "" then none else clock raw
    | _ => none

/-- The edges that a document says itself. -/
def addStated (draft : ProjectionDraft) (doc : Document) : ProjectionDraft :=
  let add (field relation : String) (draft : ProjectionDraft) : ProjectionDraft :=
    (tools.asIds (doc.metadata.value field)).foldl (fun draft id => draft.add doc.id id relation relation) draft
  add "superseded_by" "superseded_by" (add "supersedes" "supersedes" (add "source_ids" "source" draft))

/-- Documents of one event, with their times. -/
abbrev EventGroups := Dict (String × String) (List (ℚ × Document))

/-- The groups of a document with a time. -/
def addToGroups (clock : String → Option ℚ) (groups : EventGroups) (doc : Document) : EventGroups :=
  match relationTimestamp clock doc.metadata with
  | none => groups
  | some time =>
    ["turn_id", "source_id"].foldl (fun groups evidenceType =>
      match doc.metadata.value evidenceType with
      | .str group =>
        if PyStr.strip group = "" then groups
        else
          let key := (evidenceType, PyStr.strip group)
          groups.set key ((groups.get key).getD [] ++ [(time, doc)])
      | _ => groups) groups

def eventWindowSeconds : ℚ := 24 * 60 * 60

/-- The edges between neighbours of one event, in the order of time and id. -/
def addAdjacent (draft : ProjectionDraft) (group : (String × String) × List (ℚ × Document)) : ProjectionDraft :=
  let ordered := group.2.insertionSort fun a b => a.1 < b.1 ∨ (a.1 = b.1 ∧ a.2.id ≤ b.2.id)
  (ordered.zip ordered.tail).foldl (fun draft pair =>
    if max 0 eventWindowSeconds < pair.2.1 - pair.1.1 then draft
    else
      (draft.add pair.1.2.id pair.2.2.id "event_adjacent" group.1.1).add pair.2.2.id pair.1.2.id "event_adjacent"
        group.1.1) draft

def buildRelationProjection (clock : String → Option ℚ) (documents : List Document) : MemoryRelationProjection :=
  let stated := documents.foldl (addStated tools) {}
  let groups := documents.foldl (addToGroups clock) Dict.empty
  (groups.entries.foldl addAdjacent stated).edges

/-! ## Requests -/

/-- `RetrievalRequest`, as far as the pipeline reads it after the search. -/
structure RetrievalRequest where
  filters : MemorySearchFilters
  topK : ℤ := 5
  relationExpansion : Bool := true
  relationLimit : ℤ := 20
  relationDepth : ℤ := 1
  contextBudgetTokens : ℤ := 1200

/-- `max(1, request.top_k)` -/
def RetrievalRequest.resultLimit (request : RetrievalRequest) : ℕ := (max 1 request.topK).toNat

/-- `max(128, int(request.context_budget_tokens or 1200))` -/
def RetrievalRequest.tokenBudget (request : RetrievalRequest) : ℕ :=
  (max 128 (if request.contextBudgetTokens = 0 then 1200 else request.contextBudgetTokens)).toNat

/-- The estimate of a document's tokens. -/
def Document.tokens (doc : Document) : ℕ := max 1 ((doc.text.length + 3) / 4)

/-- What `search_with_rerank` of a store answers: documents with their scores, each once. -/
structure SearchResults where
  results : List (Document × ℚ)
  nodup : (results.map fun e => e.1.id).Nodup

/-! ## The walk -/

/-- A document that waits to be expanded. -/
structure WalkEntry where
  doc : Document
  score : ℚ
  depth : ℕ

/-- A document that a relation brought in, and the edge to it. -/
structure Expansion where
  doc : Document
  score : ℚ
  depth : ℕ
  source : String
  edge : RelationEdge

/-- The walk: what waits, the ids that were seen, what was brought in, and why documents were rejected. -/
structure RelationWalk where
  queue : List WalkEntry
  seen : List String
  expanded : List Expansion := []
  reasons : List String := []

/-- What the walk goes over: the documents by id, and their relations. -/
structure RelationSnapshot where
  documents : Dict String Document
  projection : MemoryRelationProjection

def relationSnapshot (clock : String → Option ℚ) (documents : List Document) : RelationSnapshot where
  documents := documents.foldl (fun byId doc => byId.set doc.id doc) Dict.empty
  projection := buildRelationProjection tools clock documents

section Walk

variable (request : RetrievalRequest) (snapshot : RelationSnapshot)

/-- One neighbour: it is seen, and brought in where it is there and the request may read it. -/
def visitEdge (entry : WalkEntry) (walk : RelationWalk) (edge : RelationEdge) : Except PyError RelationWalk :=
  if edge.targetId ∈ walk.seen then .ok walk
  else
    let walk : RelationWalk := { walk with seen := edge.targetId :: walk.seen }
    match snapshot.documents.get edge.targetId with
    | none => .ok { walk with reasons := walk.reasons ++ ["relation_missing"] }
    | some doc =>
      match rejectReason tools now request.filters doc.metadata with
      | .error e => .error e
      | .ok (some reason) => .ok { walk with reasons := walk.reasons ++ ["relation_" ++ reason] }
      | .ok none =>
        let score := entry.score * (85 / 100)
        let depth := entry.depth + 1
        let expansion : Expansion := { doc, score, depth, source := entry.doc.id, edge }
        .ok { walk with
          expanded := walk.expanded ++ [expansion]
          queue := if (depth : ℤ) < request.relationDepth then walk.queue ++ [{ doc, score, depth }] else walk.queue }

/-- The first document that waits is expanded. -/
def walkStep (walk : RelationWalk) : Except PyError RelationWalk :=
  match walk.queue with
  | [] => .ok walk
  | entry :: queue =>
    let walk : RelationWalk := { walk with queue }
    if request.relationDepth ≤ entry.depth then .ok walk
    else (snapshot.projection.neighbors entry.doc.id).foldlM (visitEdge tools now request snapshot entry) walk

/-- The walk starts with what the store found. -/
def walkStart (filtered : List (Document × ℚ)) : RelationWalk where
  queue := filtered.map fun e => { doc := e.1, score := e.2, depth := 0 }
  seen := filtered.map fun e => e.1.id

def RelationWalk.size (walk : RelationWalk) : ℕ := walk.expanded.length

def RelationWalk.done (walk : RelationWalk) : Bool := walk.queue.isEmpty

/-- `while relation_queue and len(expanded) < request.relation_limit`. Each step takes one entry away, and each
document waits once. -/
def relationWalk (filtered : List (Document × ℚ)) : Except PyError RelationWalk :=
  Bounded.loop (walkStep tools now request snapshot) RelationWalk.size RelationWalk.done request.relationLimit.toNat
    (filtered.length + snapshot.documents.keys.length) (walkStart filtered)

end Walk

/-! ## Recall -/

/-- What `recall` answers: the results, and of the trace what it started with, what it brought in and why it did not. -/
structure Recalled where
  results : List (Document × ℚ)
  anchors : List (Document × ℚ)
  expanded : List Expansion
  reasons : List String
  truncated : Bool

/-- The documents that a request may read, and the reasons of the others. -/
def eligible (request : RetrievalRequest) : List (Document × ℚ) → Except PyError (List (Document × ℚ) × List String)
  | [] => .ok ([], [])
  | e :: rest => do
    let reason ← rejectReason tools now request.filters e.1.metadata
    let (kept, reasons) ← eligible request rest
    return match reason with
      | some reason => (kept, reason :: reasons)
      | none => (e :: kept, reasons)

/-- One result: the first one is kept in every case, another one where the budget has room. -/
def keepWithin (budget : ℕ) (kept : List (Document × ℚ) × ℕ) (item : Document × ℚ) : List (Document × ℚ) × ℕ :=
  if kept.1 ≠ [] ∧ budget < kept.2 + item.1.tokens then kept else (kept.1 ++ [item], kept.2 + item.1.tokens)

/-- The results within the token budget. -/
def withinBudget (budget : ℕ) (ranked : List (Document × ℚ)) : List (Document × ℚ) :=
  (ranked.foldl (keepWithin budget) ([], 0)).1

/-- The documents from the search and from the walk, ranked and cut. -/
def rankedResults (request : RetrievalRequest) (filtered : List (Document × ℚ)) (expanded : List Expansion) :
    List (Document × ℚ) :=
  (Sorting.ranked Prod.snd (filtered ++ expanded.map fun e => (e.doc, e.score))).take request.resultLimit

/-- The documents that the walk starts with. -/
def anchorsOf (request : RetrievalRequest) (found : SearchResults) : Except PyError (List (Document × ℚ)) :=
  (eligible tools now request found.results).map fun kept => kept.1.take request.resultLimit

/-- The walk, where the request asks for it and the store can list its documents. -/
def expandRelations (clock : String → Option ℚ) (documents : Option (List Document)) (request : RetrievalRequest)
    (filtered : List (Document × ℚ)) : Except PyError RelationWalk :=
  match documents with
  | none => .ok { queue := [], seen := [] }
  | some documents =>
    if request.relationExpansion = true ∧ filtered ≠ [] ∧ 0 < request.relationLimit then
      relationWalk tools now request (relationSnapshot tools clock documents) filtered
    else .ok { queue := [], seen := [] }

/-- `recall` of what the store found; `documents` are those that the store lists, where it can. -/
def recalled (clock : String → Option ℚ) (documents : Option (List Document)) (request : RetrievalRequest)
    (found : SearchResults) : Except PyError Recalled := do
  let (kept, reasons) ← eligible tools now request found.results
  let filtered := kept.take request.resultLimit
  let walk ← expandRelations tools now clock documents request filtered
  let selected := withinBudget request.tokenBudget (rankedResults request filtered walk.expanded)
  return {
    results := selected.take request.resultLimit
    anchors := filtered
    expanded := walk.expanded
    reasons := reasons ++ walk.reasons
    truncated := !walk.queue.isEmpty }

/-! ## The limits -/

/-- What is reached from some documents by so many relations. -/
inductive ReachedBy (projection : MemoryRelationProjection) (ids : List String) : ℕ → String → Prop
  | anchor {id : String} (h : id ∈ ids) : ReachedBy projection ids 0 id
  | related {d : ℕ} {id : String} {edge : RelationEdge} (h : ReachedBy projection ids d id)
    (hedge : edge ∈ projection.neighbors id) : ReachedBy projection ids (d + 1) edge.targetId

section Steps

variable {tools : MetadataTools τ} {now : τ} {request : RetrievalRequest} {snapshot : RelationSnapshot}
  {entry : WalkEntry} {walk walk' : RelationWalk} {edge : RelationEdge} {ids : List String}

theorem visitEdge_cases (h : visitEdge tools now request snapshot entry walk edge = .ok walk') :
    walk' = walk ∨
    (edge.targetId ∉ walk.seen ∧ ∃ reasons, walk' = { walk with seen := edge.targetId :: walk.seen, reasons }) ∨
    (edge.targetId ∉ walk.seen ∧ ∃ doc, snapshot.documents.get edge.targetId = some doc ∧
      walk' = { walk with
        seen := edge.targetId :: walk.seen
        expanded := walk.expanded ++ [⟨doc, entry.score * (85 / 100), entry.depth + 1, entry.doc.id, edge⟩]
        queue := if ((entry.depth + 1 : ℕ) : ℤ) < request.relationDepth then
          walk.queue ++ [⟨doc, entry.score * (85 / 100), entry.depth + 1⟩] else walk.queue }) := by
  unfold visitEdge at h
  by_cases hseen : edge.targetId ∈ walk.seen
  · rw [if_pos hseen] at h
    exact .inl (Except.ok.inj h).symm
  · rw [if_neg hseen] at h
    dsimp only at h
    cases hdoc : snapshot.documents.get edge.targetId with
    | none =>
      rw [hdoc] at h
      exact .inr (.inl ⟨hseen, _, (Except.ok.inj h).symm⟩)
    | some doc =>
      rw [hdoc] at h
      dsimp only at h
      cases hreason : rejectReason tools now request.filters doc.metadata with
      | error e =>
        rw [hreason] at h
        exact nomatch h
      | ok reason =>
        rw [hreason] at h
        cases reason with
        | some reason => exact .inr (.inl ⟨hseen, _, (Except.ok.inj h).symm⟩)
        | none => exact .inr (.inr ⟨hseen, doc, rfl, (Except.ok.inj h).symm⟩)

theorem foldlM_keeps {α β ε : Type} {f : β → α → Except ε β} {I : β → Prop} {xs : List α} {b b' : β}
    (hkeeps : ∀ b, ∀ a ∈ xs, ∀ b', I b → f b a = .ok b' → I b') (hb : I b) (h : xs.foldlM f b = .ok b') : I b' := by
  induction xs generalizing b with
  | nil =>
    obtain rfl := Except.ok.inj h
    exact hb
  | cons x xs ih =>
    rw [List.foldlM_cons] at h
    obtain ⟨next, hnext, hrest⟩ := bind_ok.mp h
    exact ih (fun b a ha => hkeeps b a (List.mem_cons_of_mem x ha)) (hkeeps b x List.mem_cons_self next hb hnext) hrest

theorem walkStep_cases (h : walkStep tools now request snapshot walk = .ok walk') :
    (walk.queue = [] ∧ walk' = walk) ∨ ∃ entry queue, walk.queue = entry :: queue ∧
      ((request.relationDepth ≤ entry.depth ∧ walk' = { walk with queue }) ∨
        ((entry.depth : ℤ) < request.relationDepth ∧
          (snapshot.projection.neighbors entry.doc.id).foldlM (visitEdge tools now request snapshot entry)
            { walk with queue } = .ok walk')) := by
  unfold walkStep at h
  cases hqueue : walk.queue with
  | nil =>
    rw [hqueue] at h
    exact .inl ⟨rfl, (Except.ok.inj h).symm⟩
  | cons entry queue =>
    rw [hqueue] at h
    dsimp only at h
    refine .inr ⟨entry, queue, rfl, ?_⟩
    by_cases hdeep : request.relationDepth ≤ entry.depth
    · rw [if_pos hdeep] at h
      exact .inl ⟨hdeep, (Except.ok.inj h).symm⟩
    · rw [if_neg hdeep] at h
      exact .inr ⟨not_le.mp hdeep, h⟩

def RelationSnapshot.Keyed (snapshot : RelationSnapshot) : Prop :=
  ∀ id doc, snapshot.documents.get id = some doc → doc.id = id

/-- What the walk keeps: it has seen what it started with and what it brought in, no id twice, and what
it brought in is reached by as many relations as it says, and not by too many. -/
structure RelationWalk.Sound (request : RetrievalRequest) (snapshot : RelationSnapshot) (ids : List String)
    (walk : RelationWalk) : Prop where
  seen : ∀ id ∈ ids ++ walk.expanded.map (fun e => e.doc.id), id ∈ walk.seen
  nodup : (ids ++ walk.expanded.map (fun e => e.doc.id)).Nodup
  waiting : ∀ entry ∈ walk.queue, ReachedBy snapshot.projection ids entry.depth entry.doc.id
  reached : ∀ e ∈ walk.expanded, ReachedBy snapshot.projection ids e.depth e.doc.id ∧ (e.depth : ℤ) ≤ request.relationDepth

theorem visitEdge_sound (hkeyed : snapshot.Keyed) (hentry : ReachedBy snapshot.projection ids entry.depth entry.doc.id)
    (hdepth : (entry.depth : ℤ) < request.relationDepth) (hedge : edge ∈ snapshot.projection.neighbors entry.doc.id)
    (hwalk : walk.Sound request snapshot ids) (h : visitEdge tools now request snapshot entry walk edge = .ok walk') :
    walk'.Sound request snapshot ids := by
  obtain rfl | ⟨hnew, reasons, rfl⟩ | ⟨hnew, doc, hdoc, rfl⟩ := visitEdge_cases h
  · exact hwalk
  · exact ⟨fun id hid => List.mem_cons_of_mem _ (hwalk.seen id hid), hwalk.nodup, hwalk.waiting, hwalk.reached⟩
  · have hid : doc.id = edge.targetId := hkeyed _ _ hdoc
    have hreached : ReachedBy snapshot.projection ids (entry.depth + 1) doc.id := hid ▸ .related hentry hedge
    have hmap : ids ++ (walk.expanded ++ [(⟨doc, entry.score * (85 / 100), entry.depth + 1, entry.doc.id, edge⟩ : Expansion)]).map
        (fun e => e.doc.id) = (ids ++ walk.expanded.map (fun e => e.doc.id)) ++ [doc.id] := by
      rw [List.map_append, ← List.append_assoc]
      rfl
    refine ⟨fun id hmem => ?_, ?_, fun waiting hmem => ?_, fun e hmem => ?_⟩
    · rw [hmap] at hmem
      obtain hold | hlast := List.mem_append.mp hmem
      · exact List.mem_cons_of_mem _ (hwalk.seen id hold)
      · rw [List.mem_singleton.mp hlast, hid]
        exact List.mem_cons_self
    · rw [hmap]
      refine List.nodup_append.mpr ⟨hwalk.nodup, List.nodup_singleton _, fun a ha b hb heq => ?_⟩
      have htarget : a = edge.targetId := heq.trans ((List.mem_singleton.mp hb).trans hid)
      exact hnew (htarget ▸ hwalk.seen a ha)
    · dsimp only at hmem
      split at hmem
      · obtain hold | hlast := List.mem_append.mp hmem
        · exact hwalk.waiting waiting hold
        · obtain rfl := List.mem_singleton.mp hlast
          exact hreached
      · exact hwalk.waiting waiting hmem
    · obtain hold | hlast := List.mem_append.mp hmem
      · exact hwalk.reached e hold
      · obtain rfl := List.mem_singleton.mp hlast
        refine ⟨hreached, ?_⟩
        push_cast
        omega

theorem walkStep_sound (hkeyed : snapshot.Keyed) (hwalk : walk.Sound request snapshot ids)
    (h : walkStep tools now request snapshot walk = .ok walk') : walk'.Sound request snapshot ids := by
  obtain ⟨-, rfl⟩ | ⟨entry, queue, hqueue, hstep⟩ := walkStep_cases h
  · exact hwalk
  · have hentry : ReachedBy snapshot.projection ids entry.depth entry.doc.id :=
      hwalk.waiting entry (hqueue ▸ List.mem_cons_self)
    have hpopped : ({ walk with queue } : RelationWalk).Sound request snapshot ids :=
      ⟨hwalk.seen, hwalk.nodup, fun e he => hwalk.waiting e (hqueue ▸ List.mem_cons_of_mem entry he), hwalk.reached⟩
    obtain ⟨-, rfl⟩ | ⟨hdepth, hvisits⟩ := hstep
    · exact hpopped
    · refine foldlM_keeps (fun b a ha b' hb hvisit => ?_) hpopped hvisits
      exact visitEdge_sound hkeyed hentry hdepth ha hb hvisit

theorem walkStep_size (h : walkStep tools now request snapshot walk = .ok walk') : walk.size ≤ walk'.size := by
  obtain ⟨-, rfl⟩ | ⟨entry, queue, -, ⟨-, rfl⟩ | ⟨-, hvisits⟩⟩ := walkStep_cases h
  · exact le_rfl
  · exact le_rfl
  · have hpopped : walk.size ≤ ({ walk with queue } : RelationWalk).size := le_rfl
    refine foldlM_keeps (I := fun w : RelationWalk => walk.size ≤ w.size) (fun b a _ b' hb hvisit => ?_) hpopped hvisits
    obtain rfl | ⟨-, reasons, rfl⟩ | ⟨-, doc, -, rfl⟩ := visitEdge_cases hvisit
    · exact hb
    · exact hb
    · refine hb.trans ?_
      show b.expanded.length ≤ (b.expanded ++ [_]).length
      rw [List.length_append]
      exact Nat.le_add_right _ _

theorem walkStep_done (h : walk.done = true) : walkStep tools now request snapshot walk = .ok walk := by
  have hqueue : walk.queue = [] := List.isEmpty_iff.mp h
  unfold walkStep
  rw [hqueue]

/-- How many entries can still be taken away: those that wait, and the documents that were not seen. -/
def RelationWalk.measure (snapshot : RelationSnapshot) (walk : RelationWalk) : ℕ :=
  walk.queue.length + (snapshot.documents.keys.filter (fun id => id ∉ walk.seen)).length

theorem visitEdge_measure (h : visitEdge tools now request snapshot entry walk edge = .ok walk') :
    walk'.measure snapshot ≤ walk.measure snapshot := by
  have hless : (snapshot.documents.keys.filter (fun id => id ∉ edge.targetId :: walk.seen)).length ≤
      (snapshot.documents.keys.filter (fun id => id ∉ walk.seen)).length := by
    refine (List.monotone_filter_right _ fun id hid => ?_).length_le
    exact decide_eq_true fun hmem => (of_decide_eq_true hid) (List.mem_cons_of_mem _ hmem)
  obtain rfl | ⟨hnew, reasons, rfl⟩ | ⟨hnew, doc, hdoc, rfl⟩ := visitEdge_cases h
  · exact le_rfl
  · exact Nat.add_le_add_left hless _
  · have hkey : edge.targetId ∈ snapshot.documents.keys := Dict.mem_keys.mpr ⟨doc, hdoc⟩
    have hlt : (snapshot.documents.keys.filter (fun id => id ∉ edge.targetId :: walk.seen)).length <
        (snapshot.documents.keys.filter (fun id => id ∉ walk.seen)).length := by
      have hsplit : snapshot.documents.keys.filter (fun id => id ∉ edge.targetId :: walk.seen) =
          (snapshot.documents.keys.filter (fun id => id ∉ walk.seen)).filter (fun id => id ≠ edge.targetId) := by
        rw [List.filter_filter]
        refine List.filter_congr fun id _ => ?_
        simp only [List.mem_cons, not_or, ne_eq, Bool.decide_and]
      rw [hsplit]
      refine List.length_filter_lt_length_iff_exists.mpr ⟨edge.targetId, List.mem_filter.mpr ⟨hkey, ?_⟩, ?_⟩
      · exact decide_eq_true hnew
      · simp
    unfold RelationWalk.measure
    dsimp only
    split
    · rw [List.length_append, List.length_singleton]
      omega
    · omega

theorem walkStep_measure (hdone : walk.done = false) (h : walkStep tools now request snapshot walk = .ok walk') :
    walk'.measure snapshot < walk.measure snapshot := by
  obtain ⟨hqueue, -⟩ | ⟨entry, queue, hqueue, hstep⟩ := walkStep_cases h
  · unfold RelationWalk.done at hdone
    rw [hqueue] at hdone
    exact absurd hdone.symm Bool.false_ne_true
  · have hpopped : ({ walk with queue } : RelationWalk).measure snapshot < walk.measure snapshot := by
      unfold RelationWalk.measure
      rw [hqueue, List.length_cons]
      dsimp only
      omega
    obtain ⟨-, rfl⟩ | ⟨-, hvisits⟩ := hstep
    · exact hpopped
    · refine foldlM_keeps (I := fun w : RelationWalk => w.measure snapshot < walk.measure snapshot)
        (fun b a _ b' hb hvisit => ?_) hpopped hvisits
      exact (visitEdge_measure hvisit).trans_lt hb

theorem walkStart_sound {filtered : List (Document × ℚ)} (hnodup : (filtered.map fun e => e.1.id).Nodup) :
    (walkStart filtered).Sound request snapshot (filtered.map fun e => e.1.id) where
  seen id hid := by
    rw [show (walkStart filtered).expanded = [] from rfl, List.map_nil, List.append_nil] at hid
    exact hid
  nodup := by
    rw [show (walkStart filtered).expanded = [] from rfl, List.map_nil, List.append_nil]
    exact hnodup
  waiting entry hentry := by
    obtain ⟨e, he, rfl⟩ := List.mem_map.mp hentry
    exact .anchor (List.mem_map.mpr ⟨e, he, rfl⟩)
  reached e he := absurd he List.not_mem_nil

theorem relationWalk_ends {filtered : List (Document × ℚ)} (hkeyed : snapshot.Keyed)
    (hnodup : (filtered.map fun e => e.1.id).Nodup)
    (h : relationWalk tools now request snapshot filtered = .ok walk) :
    walk.Sound request snapshot (filtered.map fun e => e.1.id) ∧
      (walk.size ≤ request.relationLimit.toNat ↔
        (∃ m w, Bounded.iterate (walkStep tools now request snapshot) m (walkStart filtered) = .ok w ∧
          w.size = request.relationLimit.toNat) ∨
        ∀ m w, Bounded.iterate (walkStep tools now request snapshot) m (walkStart filtered) = .ok w →
          w.size ≤ request.relationLimit.toNat) := by
  obtain ⟨n, hn, hiterate, hend, hbefore⟩ := Bounded.loop_iterate h
  have hsound := Bounded.iterate_invariant (I := fun w : RelationWalk => w.Sound request snapshot _)
    (fun w w' hw hstep => walkStep_sound hkeyed hw hstep) hiterate (walkStart_sound hnodup)
  refine ⟨hsound, ?_⟩
  have hmeasure := Bounded.measure_of_iterate (M := RelationWalk.measure snapshot) (I := fun _ => True)
    (fun _ _ _ _ => trivial) (fun w w' _ hdone hstep => walkStep_measure hdone hstep) trivial hiterate
    fun m hm u hu => (hbefore m hm u hu).1
  have hstart : (walkStart filtered).measure snapshot ≤ filtered.length + snapshot.documents.keys.length := by
    unfold RelationWalk.measure
    rw [show (walkStart filtered).queue.length = filtered.length from List.length_map _]
    exact Nat.add_le_add_left (List.length_filter_le _ _) _
  have hstops : walk.done = true ∨ request.relationLimit.toNat ≤ walk.size := by
    by_cases hlt : n < filtered.length + snapshot.documents.keys.length
    · exact hend hlt
    · -- the fuel was enough for every entry
      have hzero : walk.queue.length = 0 := by
        have hle : walk.queue.length ≤ walk.measure snapshot := Nat.le_add_right _ _
        omega
      exact .inl (List.isEmpty_iff.mpr (List.length_eq_zero_iff.mp hzero))
  exact Bounded.size_le_iff (fun w w' hstep => walkStep_size hstep) (fun w hdone => walkStep_done hdone) hiterate hstops
    hbefore

end Steps

section Snapshot

variable {tools : MetadataTools τ} {clock : String → Option ℚ}

theorem relationSnapshot_keyed (documents : List Document) : (relationSnapshot tools clock documents).Keyed := by
  have hfold (docs : List Document) (byId : Dict String Document) (hbyId : ∀ id doc, byId.get id = some doc → doc.id = id) :
      ∀ id doc, (docs.foldl (fun byId doc => byId.set doc.id doc) byId).get id = some doc → doc.id = id := by
    induction docs generalizing byId with
    | nil => exact hbyId
    | cons first rest ih =>
      refine ih _ fun id doc hget => ?_
      rw [Dict.get_set] at hget
      by_cases hsame : id = first.id
      · rw [if_pos hsame] at hget
        obtain rfl := Option.some.inj hget
        exact hsame.symm
      · rw [if_neg hsame] at hget
        exact hbyId id doc hget
  exact hfold documents Dict.empty fun id doc hget => nomatch hget

end Snapshot

/-! ## The results -/

section Results

variable {tools : MetadataTools τ} {now : τ} {request : RetrievalRequest}

theorem eligible_sublist {found kept : List (Document × ℚ)} {reasons : List String}
    (h : eligible tools now request found = .ok (kept, reasons)) : kept.Sublist found := by
  induction found generalizing kept reasons with
  | nil =>
    obtain ⟨rfl, -⟩ := Prod.mk.inj (Except.ok.inj h)
    exact List.Sublist.refl []
  | cons e rest ih =>
    unfold eligible at h
    obtain ⟨reason, -, h⟩ := bind_ok.mp h
    obtain ⟨⟨others, reasons'⟩, hrest, h⟩ := bind_ok.mp h
    have hothers := ih hrest
    cases reason with
    | some reason =>
      obtain ⟨rfl, -⟩ := Prod.mk.inj (pure_ok.mp h)
      exact hothers.cons e
    | none =>
      obtain ⟨rfl, -⟩ := Prod.mk.inj (pure_ok.mp h)
      exact hothers.cons_cons e

/-- What the budget keeps: some of the documents so far in their order, with their tokens, and more than
the budget only where it is one. -/
structure KeptWithin (budget : ℕ) (before : List (Document × ℚ)) (kept : List (Document × ℚ) × ℕ) : Prop where
  sub : kept.1.Sublist before
  tokens : kept.2 = (kept.1.map fun e => e.1.tokens).sum
  within : kept.2 ≤ budget ∨ kept.1.length = 1

theorem keepWithin_kept {budget : ℕ} {before : List (Document × ℚ)} {kept : List (Document × ℚ) × ℕ}
    (h : KeptWithin budget before kept) (item : Document × ℚ) :
    KeptWithin budget (before ++ [item]) (keepWithin budget kept item) := by
  unfold keepWithin
  by_cases hfull : kept.1 ≠ [] ∧ budget < kept.2 + item.1.tokens
  · rw [if_pos hfull]
    exact ⟨h.sub.trans (List.sublist_append_left _ _), h.tokens, h.within⟩
  · rw [if_neg hfull]
    refine ⟨h.sub.append (List.Sublist.refl _), ?_, ?_⟩
    · rw [List.map_append, List.sum_append, h.tokens]
      rfl
    · by_cases hfirst : kept.1 = []
      · rw [hfirst]
        exact .inr rfl
      · exact .inl (Nat.le_of_not_lt fun hlt => hfull ⟨hfirst, hlt⟩)

theorem withinBudget_kept (budget : ℕ) (ranked : List (Document × ℚ)) :
    (withinBudget budget ranked).Sublist ranked ∧
      (((withinBudget budget ranked).map fun e => e.1.tokens).sum ≤ budget ∨ (withinBudget budget ranked).length = 1) := by
  have hfold (rest before : List (Document × ℚ)) (kept : List (Document × ℚ) × ℕ) (h : KeptWithin budget before kept) :
      KeptWithin budget (before ++ rest) (rest.foldl (keepWithin budget) kept) := by
    induction rest generalizing before kept with
    | nil =>
      rw [List.append_nil]
      exact h
    | cons item rest ih =>
      have hnext := ih (before ++ [item]) _ (keepWithin_kept h item)
      rw [List.append_assoc] at hnext
      exact hnext
  have hall := hfold ranked [] ([], 0) ⟨List.Sublist.refl [], rfl, .inl (Nat.zero_le _)⟩
  refine ⟨hall.sub, ?_⟩
  unfold withinBudget
  rw [← hall.tokens]
  exact hall.within

/-- What `recall` answers stays within the limits of the request, apart from how much relations bring in. -/
structure WithinLimits (projection : MemoryRelationProjection) (request : RetrievalRequest) (answer : Recalled) : Prop where
  count : answer.results.length ≤ request.resultLimit
  distinct : (answer.results.map fun e => e.1.id).Nodup
  depth : ∀ e ∈ answer.results, e.1.id ∈ answer.anchors.map (fun a => a.1.id) ∨
    e.1.id ∈ answer.expanded.map (fun e => e.doc.id) ∧
      ∃ d : ℕ, (d : ℤ) ≤ request.relationDepth ∧ ReachedBy projection (answer.anchors.map fun a => a.1.id) d e.1.id
  tokens : (answer.results.map fun e => e.1.tokens).sum ≤ request.tokenBudget ∨ answer.results.length = 1

/-- How many of the results relations brought in is within the limit of the request. -/
def Recalled.ExpandsWithin (request : RetrievalRequest) (answer : Recalled) : Prop :=
  answer.results.countP (fun e => e.1.id ∈ answer.expanded.map (fun e => e.doc.id)) ≤ request.relationLimit.toNat

/-- The walk without a limit brings in as many documents as the limit says after some whole step, or never more. -/
def FitsLimit (tools : MetadataTools τ) (now : τ) (clock : String → Option ℚ) (documents : Option (List Document))
    (request : RetrievalRequest) (found : SearchResults) : Prop :=
  request.relationExpansion = true → ∀ listed anchors, documents = some listed →
    anchorsOf tools now request found = .ok anchors →
    (∃ m walk, Bounded.iterate (walkStep tools now request (relationSnapshot tools clock listed)) m (walkStart anchors) =
      .ok walk ∧ walk.size = request.relationLimit.toNat) ∨
    ∀ m walk, Bounded.iterate (walkStep tools now request (relationSnapshot tools clock listed)) m (walkStart anchors) =
      .ok walk → walk.size ≤ request.relationLimit.toNat

theorem expandRelations_ends {clock : String → Option ℚ} {documents : Option (List Document)} {found : SearchResults}
    {filtered : List (Document × ℚ)} {walk : RelationWalk} (hanchors : anchorsOf tools now request found = .ok filtered)
    (hnodup : (filtered.map fun e => e.1.id).Nodup)
    (h : expandRelations tools now clock documents request filtered = .ok walk) :
    (filtered.map (fun e => e.1.id) ++ walk.expanded.map (fun e => e.doc.id)).Nodup ∧
      (∀ e ∈ walk.expanded, ReachedBy (buildRelationProjection tools clock (documents.getD []))
        (filtered.map fun e => e.1.id) e.depth e.doc.id ∧ (e.depth : ℤ) ≤ request.relationDepth) ∧
      (walk.expanded.length ≤ request.relationLimit.toNat ↔
        FitsLimit tools now clock documents request found) := by
  have hnone (hwalk : walk = { queue := [], seen := [] }) :
      (filtered.map (fun e => e.1.id) ++ walk.expanded.map (fun e => e.doc.id)).Nodup ∧
      (∀ e ∈ walk.expanded, ReachedBy (buildRelationProjection tools clock (documents.getD []))
        (filtered.map fun e => e.1.id) e.depth e.doc.id ∧ (e.depth : ℤ) ≤ request.relationDepth) ∧
      walk.expanded.length ≤ request.relationLimit.toNat := by
    rw [hwalk, List.map_nil, List.append_nil]
    exact ⟨hnodup, fun e he => absurd he List.not_mem_nil, Nat.zero_le _⟩
  unfold expandRelations at h
  cases documents with
  | none =>
    obtain ⟨hids, hreached, hle⟩ := hnone (Except.ok.inj h).symm
    exact ⟨hids, hreached, iff_of_true hle fun _ _ _ hlisted => nomatch hlisted⟩
  | some documents =>
    dsimp only at h
    by_cases hasked : request.relationExpansion = true ∧ filtered ≠ [] ∧ 0 < request.relationLimit
    · rw [if_pos hasked] at h
      obtain ⟨hsound, hsize⟩ := relationWalk_ends (relationSnapshot_keyed documents) hnodup h
      refine ⟨hsound.nodup, hsound.reached, hsize.trans ⟨fun hfits _ listed anchors hlisted hother => ?_, fun hfits => ?_⟩⟩
      · obtain rfl := Option.some.inj hlisted
        obtain rfl := Except.ok.inj (hanchors.symm.trans hother)
        exact hfits
      · exact hfits hasked.1 documents filtered rfl hanchors
    · rw [if_neg hasked] at h
      obtain ⟨hids, hreached, hle⟩ := hnone (Except.ok.inj h).symm
      refine ⟨hids, hreached, iff_of_true hle fun hexpansion listed anchors hlisted hother => ?_⟩
      obtain rfl := Except.ok.inj (hanchors.symm.trans hother)
      by_cases hempty : filtered = []
      · -- nothing waits, so nothing is brought in
        refine .inr fun m w hw => ?_
        rw [hempty, Bounded.iterate_of_done (fun w hdone => walkStep_done hdone) rfl] at hw
        obtain rfl := Except.ok.inj hw
        exact Nat.zero_le _
      · refine .inl ⟨0, walkStart filtered, rfl, ?_⟩
        have hlimit : request.relationLimit ≤ 0 := not_lt.mp fun hpositive => hasked ⟨hexpansion, hempty, hpositive⟩
        rw [Int.toNat_of_nonpos hlimit]
        rfl

theorem results_sub (request : RetrievalRequest) (filtered : List (Document × ℚ)) (expanded : List Expansion) :
    let selected := withinBudget request.tokenBudget (rankedResults request filtered expanded)
    selected.take request.resultLimit = selected ∧ selected.length ≤ request.resultLimit ∧
      selected.Subperm (filtered ++ expanded.map fun e => (e.doc, e.score)) := by
  intro selected
  obtain ⟨hsub, -⟩ := withinBudget_kept request.tokenBudget (rankedResults request filtered expanded)
  have hranked : (rankedResults request filtered expanded).length ≤ request.resultLimit := List.length_take_le _ _
  have hlength : selected.length ≤ request.resultLimit := hsub.length_le.trans hranked
  refine ⟨List.take_of_length_le hlength, hlength, ?_⟩
  have hcut : (rankedResults request filtered expanded).Sublist
      (Sorting.ranked Prod.snd (filtered ++ expanded.map fun e => (e.doc, e.score))) := List.take_sublist _ _
  exact (hsub.trans hcut).subperm.trans (Sorting.perm_ranked _ _).subperm

theorem expanded_count {filtered : List (Document × ℚ)} {expanded : List Expansion}
    (hids : (filtered.map (fun e => e.1.id) ++ expanded.map (fun e => e.doc.id)).Nodup) :
    (filtered ++ expanded.map fun e => (e.doc, e.score)).countP
      (fun e => e.1.id ∈ expanded.map (fun e => e.doc.id)) = expanded.length := by
  have hfiltered : filtered.countP (fun e => e.1.id ∈ expanded.map (fun e => e.doc.id)) = 0 := by
    refine List.countP_eq_zero.mpr fun e he hmem => ?_
    have hid : e.1.id ∈ filtered.map (fun e => e.1.id) := List.mem_map.mpr ⟨e, he, rfl⟩
    exact (List.nodup_append.mp hids).2.2 _ hid _ (of_decide_eq_true hmem) rfl
  have hexpanded : (expanded.map fun e => (e.doc, e.score)).countP (fun e => e.1.id ∈ expanded.map (fun e => e.doc.id)) =
      (expanded.map fun e => (e.doc, e.score)).length := by
    refine List.countP_eq_length.mpr fun e he => ?_
    obtain ⟨x, hx, rfl⟩ := List.mem_map.mp he
    exact decide_eq_true (List.mem_map.mpr ⟨x, hx, rfl⟩)
  rw [List.countP_append, hfiltered, hexpanded, List.length_map, Nat.zero_add]

/-- **What recall returns**: at most `top_k` results with ids of their own, reached by at most so many relations and
within the token budget. The walk brings in no more than its limit exactly where the limit fits its steps; so there the
results have no more than that, and where nothing is cut afterwards, only there. -/
theorem recall_within_limits {clock : String → Option ℚ} {documents : Option (List Document)} {found : SearchResults}
    {answer : Recalled} (h : recalled tools now clock documents request found = .ok answer) :
    WithinLimits (buildRelationProjection tools clock (documents.getD [])) request answer ∧
      (answer.expanded.length ≤ request.relationLimit.toNat ↔ FitsLimit tools now clock documents request found) ∧
      (FitsLimit tools now clock documents request found → answer.ExpandsWithin request) ∧
      (answer.results.length = answer.anchors.length + answer.expanded.length → answer.ExpandsWithin request →
        FitsLimit tools now clock documents request found) := by
  unfold recalled at h
  obtain ⟨⟨kept, reasons⟩, hkept, h⟩ := bind_ok.mp h
  obtain ⟨walk, hwalk, h⟩ := bind_ok.mp h
  obtain rfl := pure_ok.mp h
  have hanchors : anchorsOf tools now request found = .ok (kept.take request.resultLimit) := by
    unfold anchorsOf
    rw [hkept]
    rfl
  have hnodup : ((kept.take request.resultLimit).map fun e => e.1.id).Nodup := by
    have hsub : (kept.take request.resultLimit).Sublist found.results := (List.take_sublist _ _).trans (eligible_sublist hkept)
    exact (hsub.map _).nodup found.nodup
  generalize kept.take request.resultLimit = filtered at hwalk hanchors hnodup ⊢
  obtain ⟨hids, hreached, hfits⟩ := expandRelations_ends hanchors hnodup hwalk
  obtain ⟨htake, hlength, hsub⟩ := results_sub request filtered walk.expanded
  obtain ⟨-, htokens⟩ := withinBudget_kept request.tokenBudget (rankedResults request filtered walk.expanded)
  have hcount := expanded_count hids
  rw [htake]
  generalize withinBudget request.tokenBudget (rankedResults request filtered walk.expanded) = selected at hlength hsub htokens ⊢
  have hallIds : (filtered ++ walk.expanded.map fun e => (e.doc, e.score)).map (fun e => e.1.id) =
      filtered.map (fun e => e.1.id) ++ walk.expanded.map (fun e => e.doc.id) := by
    rw [List.map_append, List.map_map]
    rfl
  refine ⟨⟨hlength, ?_, fun e he => ?_, htokens⟩, hfits, fun hfit => ?_, fun huncut hwithin => ?_⟩
  · obtain ⟨part, hperm, hin⟩ := hsub
    have hpart : (part.map fun e => e.1.id).Nodup := (hin.map _).nodup (hallIds ▸ hids)
    exact (hperm.map _).nodup_iff.mp hpart
  · obtain hdirect | hrelated := List.mem_append.mp (hsub.subset he)
    · exact .inl (List.mem_map.mpr ⟨e, hdirect, rfl⟩)
    · obtain ⟨x, hx, rfl⟩ := List.mem_map.mp hrelated
      obtain ⟨hreach, hdepth⟩ := hreached x hx
      exact .inr ⟨List.mem_map.mpr ⟨x, hx, rfl⟩, x.depth, hdepth, hreach⟩
  · have hle := hsub.countP_le (fun e => e.1.id ∈ walk.expanded.map (fun e => e.doc.id))
    rw [hcount] at hle
    exact hle.trans (hfits.mpr hfit)
  · have hperm : selected.Perm (filtered ++ walk.expanded.map fun e => (e.doc, e.score)) := by
      refine hsub.perm_of_length_le ?_
      rw [List.length_append, List.length_map]
      exact huncut.ge
    have hsame := hperm.countP_eq (fun e => e.1.id ∈ walk.expanded.map (fun e => e.doc.id))
    rw [hcount] at hsame
    exact hfits.mp (hsame ▸ hwithin)

end Results

/-! ## A note with two sources -/

def plannedNote : Document where
  id := "plan"
  text := "plan"
  metadata := Metadata.ofEntries [("source_ids", .arr [.str "first", .str "second"])]

/-- A note without relations of its own. -/
def sourceNote (id : String) : Document where
  id
  text := "source"
  metadata := Dict.empty

def plannedFound : SearchResults where
  results := [(plannedNote, 1)]
  nodup := by decide

/-- A request that allows so many documents from relations. -/
def plannedRequest (relationLimit : ℤ) : RetrievalRequest where
  filters := { layers := ["semantic"] }
  relationLimit

def plannedRecall (relationLimit : ℤ) : Except PyError Recalled :=
  recalled newYear false (fun _ => none) (some [plannedNote, sourceNote "first", sourceNote "second"])
    (plannedRequest relationLimit) plannedFound

instance {request : RetrievalRequest} {answer : Recalled} : Decidable (answer.ExpandsWithin request) :=
  inferInstanceAs (Decidable (_ ≤ _))

theorem recall_within_limits_planned : ∃ answer, plannedRecall 2 = .ok answer ∧
    answer.results.map (fun e => e.1.id) = ["plan", "first", "second"] ∧ answer.ExpandsWithin (plannedRequest 2) ∧
    WithinLimits (buildRelationProjection newYear (fun _ => none) [plannedNote, sourceNote "first", sourceNote "second"])
      (plannedRequest 2) answer := by
  have hrecalled : (plannedRecall 2).toOption.any (fun answer =>
      decide (answer.results.map (fun e => e.1.id) = ["plan", "first", "second"] ∧
        answer.ExpandsWithin (plannedRequest 2))) = true := by
    decide +kernel
  obtain ⟨answer, hanswer, hresults⟩ := (Option.any_eq_true _ _).mp hrecalled
  have hok : plannedRecall 2 = .ok answer := toOption_some hanswer
  obtain ⟨hids, hexpands⟩ := of_decide_eq_true hresults
  exact ⟨answer, hok, hids, hexpands, (recall_within_limits hok).1⟩

/-- **More than the limit**: one document that the walk expands brings in both of its neighbours, where one is
allowed. -/
theorem neighbours_exceed_limit : ∃ answer, plannedRecall 1 = .ok answer ∧
    answer.results.map (fun e => e.1.id) = ["plan", "first", "second"] ∧
    ¬ answer.ExpandsWithin (plannedRequest 1) := by
  have hrecalled : (plannedRecall 1).toOption.any (fun answer =>
      decide (answer.results.map (fun e => e.1.id) = ["plan", "first", "second"] ∧
        ¬ answer.ExpandsWithin (plannedRequest 1))) = true := by
    decide +kernel
  obtain ⟨answer, hanswer, hresults⟩ := (Option.any_eq_true _ _).mp hrecalled
  exact ⟨answer, toOption_some hanswer, of_decide_eq_true hresults⟩

end Memory

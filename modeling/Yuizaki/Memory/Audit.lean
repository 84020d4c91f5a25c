import Yuizaki.Lib.Run
import Yuizaki.Memory.Removal
import Yuizaki.Memory.Stale

/- The audit of a memory (`_append_audit` in `modules/memory/routes.py` and the merge of the
   histories in `modules/memory/sqlite_store.py`).

   A route adds one event to the audit of the copy it has read, cuts the audit and counts what
   it cuts; the store lays the result under the audit of the row, cuts again and counts again.
   As long as a write submits, besides its event, only events that the row still has and counts
   no more of them as cut, the row has the last events once, in order (`audit_complete`). After
   the hundredth event a copy that is up to date is cut by both, and counted twice
   (`audit_counted_twice`). -/
namespace Memory

open Fallible Transition

variable {τ : Type} {tools : MetadataTools τ} {now : τ} {m n : Metadata} {row : Content} {key : String}

/-! ## Merging -/

theorem mergeItems_known {xs ys : List Json} (h : ∀ y ∈ ys, xs.any (Json.same y) = true) : mergeItems xs ys = xs := by
  unfold mergeItems
  induction ys with
  | nil => rfl
  | cons y ys ih =>
    obtain ⟨hy, hys⟩ := List.forall_mem_cons.mp h
    rw [List.foldl_cons, if_pos hy]
    exact ih hys

theorem mergeItems_next {xs ys : List Json} {x : Json} (h : ∀ y ∈ ys, xs.any (Json.same y) = true)
    (hx : xs.any (Json.same x) = false) : mergeItems xs (ys ++ [x]) = xs ++ [x] := by
  have hknown : mergeItems xs ys = xs := mergeItems_known h
  unfold mergeItems at hknown ⊢
  rw [List.foldl_append, hknown, List.foldl_cons, List.foldl_nil, hx]
  exact if_neg Bool.false_ne_true

theorem listItems_arr {xs : List Json} : listItems (.arr xs) = xs := rfl

theorem lastItems_short {limit : ℕ} {xs : List Json} (h : xs.length ≤ limit) : lastItems limit xs = xs := by
  unfold lastItems
  rw [Nat.sub_eq_zero_of_le h, List.drop_zero]

theorem length_lastItems {limit : ℕ} {xs : List Json} : (lastItems limit xs).length = min limit xs.length := by
  unfold lastItems
  rw [List.length_drop]
  omega

theorem lastItems_next {limit : ℕ} {xs : List Json} {x : Json} :
    lastItems limit (lastItems limit xs ++ [x]) = lastItems limit (xs ++ [x]) := by
  unfold lastItems
  rw [List.length_append, List.length_drop, List.length_append, List.length_singleton]
  by_cases hshort : xs.length ≤ limit
  · rw [Nat.sub_eq_zero_of_le hshort, List.drop_zero, Nat.sub_zero]
  · have hdrop : xs.drop (xs.length - limit) ++ [x] = (xs ++ [x]).drop (xs.length - limit) :=
      (List.drop_append_of_le_length (Nat.sub_le _ _)).symm
    rw [hdrop, List.drop_drop]
    congr 1
    omega

theorem same_any {xs : List Json} {x : Json} (h : x ∈ xs) (hself : x.same x = true) : xs.any (Json.same x) = true :=
  List.any_eq_true.mpr ⟨x, h, hself⟩

theorem count_mergeAppendOnly {current incoming : Metadata} (h : mergeAppendOnlyMetadata tools current incoming = .ok n) :
    ∃ before after, auditTruncated tools current = .ok before ∧ auditTruncated tools incoming = .ok after ∧
      n.get "audit_truncated" =
        (let items := mergeItems (listItems (current.value "audit")) (listItems (incoming.value "audit"))
        let count := max before after + ((items.length - 100 : ℕ) : ℤ)
        if count ≠ 0 then some (.int count) else none) := by
  simp only [mergeAppendOnlyMetadata, appendOnlyHistoryLimits, List.foldlM_cons, List.foldlM_nil] at h
  obtain ⟨first, hfirst, h⟩ := bind_ok.mp h
  obtain ⟨second, hsecond, h⟩ := bind_ok.mp h
  obtain ⟨third, hthird, h⟩ := bind_ok.mp h
  have hkept : n.get "audit_truncated" = first.get "audit_truncated" := by
    unfold mergeHistory at hsecond hthird
    dsimp only at hsecond hthird
    rw [if_neg (by decide)] at hsecond hthird
    rw [← pure_ok.mp h, ← pure_ok.mp hthird, Dict.get_set_of_ne (by decide), ← pure_ok.mp hsecond,
      Dict.get_set_of_ne (by decide)]
  unfold mergeHistory at hfirst
  dsimp only at hfirst
  rw [if_pos rfl] at hfirst
  obtain ⟨before, hbefore, hfirst⟩ := bind_ok.mp hfirst
  obtain ⟨after, hafter, hfirst⟩ := bind_ok.mp hfirst
  refine ⟨before, after, hbefore, hafter, ?_⟩
  rw [hkept, ← pure_ok.mp hfirst, get_putCount, if_pos rfl]

/-! ## What the steps of a write leave of the audit -/

theorem normalize_audit (hkey : key ∈ auditKeys) (h : normalizeMemoryMetadata tools now m = .ok n) :
    n.get key = m.get key := by
  obtain ⟨stamps, -, hnormalized⟩ := normalize_spec h
  refine hnormalized.others key ?_
  simp only [auditKeys, List.mem_cons, List.not_mem_nil, or_false] at hkey
  obtain rfl | rfl := hkey
  · decide
  · decide

theorem append_audit {docId text : String} {old : Metadata} (hkey : key ∈ auditKeys)
    (h : appendMemoryVersion tools now docId text old m = .ok n) : n.get key = m.get key := by
  obtain ⟨old', new, -, hnew, happended⟩ := append_ok h
  rw [← normalize_audit hkey hnew]
  simp only [auditKeys, List.mem_cons, List.not_mem_nil, or_false] at hkey
  obtain rfl | rfl := hkey
  · exact happended.others _ (by decide) (by decide)
  · exact happended.others _ (by decide) (by decide)

theorem prepare_audit [LinearOrder τ] {env : Router τ} {existing : Option Content} {doc : Document} (hkey : key ∈ auditKeys)
    (h : env.prepareWrite existing doc = .ok n) : n.get key = doc.metadata.get key := by
  obtain ⟨m₁, hm₁, h⟩ := bind_ok.mp h
  obtain ⟨_, -, h⟩ := bind_ok.mp h
  have hdates : m₁.get key = doc.metadata.get key := by
    refine expiryForWrite_frame hm₁ ?_
    simp only [auditKeys, List.mem_cons, List.not_mem_nil, or_false] at hkey
    obtain rfl | rfl := hkey
    · decide
    · decide
  rw [← hdates]
  cases existing with
  | none => exact normalize_audit hkey (escaped_ok.mp h)
  | some content =>
    obtain ⟨_, -, h⟩ := bind_ok.mp h
    obtain ⟨m₂, hm₂, h⟩ := bind_ok.mp h
    rw [← normalize_audit hkey (escaped_ok.mp hm₂)]
    obtain ⟨old, -, h⟩ := bind_ok.mp h
    split at h
    · rw [pure_ok.mp h]
    · exact append_audit hkey (escaped_ok.mp h)

theorem replacing_audit {docId : String} (h : replacingMetadata tools now row docId m = .ok n) :
    ∃ histories, mergeAppendOnlyMetadata tools row.metadata m = .ok histories ∧
      ∀ key ∈ auditKeys, n.get key = histories.get key := by
  obtain ⟨histories, hhistories, h⟩ := bind_ok.mp h
  obtain ⟨old, hold, h⟩ := bind_ok.mp h
  refine ⟨histories, hhistories, fun key hkey => ?_⟩
  have hlifecycle : (withLifecycle row.metadata histories).get key = histories.get key := by
    unfold withLifecycle
    split
    · rfl
    · rw [get_keepLifecycle, if_neg]
      simp only [auditKeys, List.mem_cons, List.not_mem_nil, or_false] at hkey
      obtain rfl | rfl := hkey
      · decide
      · decide
  rw [← hlifecycle]
  split at h
  · rw [pure_ok.mp h]
  · exact append_audit hkey h

/-! ## Runs of audited operations -/

/-- The store, the metadata of a document that some writer may hold, and the audit events of the
document so far. -/
structure Trail where
  store : SqliteStore
  copies : List Metadata
  events : List Json

/-- Nothing was written yet: a writer can only start from no metadata. -/
def Trail.start (store : SqliteStore) : Trail := ⟨store, [Dict.empty], []⟩

/-- The document is written with an event more. -/
def Trail.next (t : Trail) (store : SqliteStore) (written : Metadata) (event : Json) : Trail :=
  ⟨store, written :: t.copies, t.events ++ [event]⟩

/-- A copy that was read at some time is edited, one event is added to its audit and the result
is submitted and written. An event is equal to itself, as a value of Python is. -/
inductive WriteStep [LinearOrder τ] (tools : MetadataTools τ) (docId : String) (t : Trail) :
    Metadata → Json → Trail → Prop
  | write {env : Router τ} {copy edited m prepared n : Metadata} {action : String} {reason : Option String}
    {before : Option Json} {existing : Option Content} {text : String} {faults : Faults} {s' : SqliteStore} :
    env.tools = tools → copy ∈ t.copies → (∀ key ∈ auditKeys, edited.get key = copy.get key) →
    env.appendAudit edited action reason before = .ok m →
    (env.auditEvent edited action reason before).same (env.auditEvent edited action reason before) = true →
    env.prepareWrite existing { id := docId, text, metadata := m } = .ok prepared →
    t.store.persist tools env.now faults { id := docId, text, metadata := prepared } = .ok (s', n) →
    WriteStep tools docId t m (env.auditEvent edited action reason before)
      (t.next s' n (env.auditEvent edited action reason before))

/-- The document is taken out of the store, and a tombstone of it with one event more put in its
place. -/
inductive BuryStep (tools : MetadataTools τ) (docId : String) (t : Trail) : Json → Trail → Prop
  | bury {env : Router τ} {row : Content} {edited m n : Metadata} {action : String} {reason : Option String}
    {before : Option Json} {deleting faults : Faults} {s' : SqliteStore} :
    env.tools = tools → t.store.rows.get docId = some row →
    (∀ key ∈ auditKeys, edited.get key = row.metadata.get key) →
    env.appendAudit edited action reason before = .ok m →
    (env.auditEvent edited action reason before).same (env.auditEvent edited action reason before) = true →
    (t.store.deleteDocument deleting docId).2 = .ok () →
    (t.store.deleteDocument deleting docId).1.persist tools env.now faults
      { id := docId, text := row.text, metadata := m } = .ok (s', n) →
    BuryStep tools docId t (env.auditEvent edited action reason before)
      (t.next s' n (env.auditEvent edited action reason before))

def AuditStep [LinearOrder τ] (tools : MetadataTools τ) (docId : String) (t : Trail) (event : Json) (t' : Trail) : Prop :=
  (∃ m, WriteStep tools docId t m event t') ∨ BuryStep tools docId t event t'

/-- The stored audit is the end of the events, in order and without duplicates, and the count and
its length make up the number of events. -/
def AuditTrail (tools : MetadataTools τ) (docId : String) (t : Trail) : Prop :=
  ∀ row, t.store.rows.get docId = some row →
    listItems (row.metadata.value "audit") = lastItems auditLimit t.events ∧
    (listItems (row.metadata.value "audit")).Pairwise (fun a b => b.same a = false) ∧
    ∃ count, auditTruncated tools row.metadata = .ok count ∧
      count + (listItems (row.metadata.value "audit")).length = t.events.length

/-- What is submitted over a row adds only its event to the audit, and counts no more events as
cut than the row does. -/
def AddsOnly (tools : MetadataTools τ) (row : Content) (m : Metadata) (event : Json) : Prop :=
  (∀ e ∈ listItems (m.value "audit"), e ∈ listItems (row.metadata.value "audit") ∨ e = event) ∧
    ∀ submitted stored, auditTruncated tools m = .ok submitted → auditTruncated tools row.metadata = .ok stored →
      submitted ≤ stored

/-- A write that adds only its event, or a burial, with an event that is equal to none before
it. -/
def CountedStep [LinearOrder τ] (tools : MetadataTools τ) (docId : String) (t : Trail) (event : Json) (t' : Trail) : Prop :=
  ((∃ m, WriteStep tools docId t m event t' ∧
      ∀ row, t.store.rows.get docId = some row → AddsOnly tools row m event) ∨
    BuryStep tools docId t event t') ∧
  ∀ e ∈ t.events, event.same e = false

/-! ## The audit along a run -/

/-- Metadata with the end of these events, and the count of those before. -/
def Lists (tools : MetadataTools τ) (m : Metadata) (events : List Json) : Prop :=
  listItems (m.value "audit") = lastItems auditLimit events ∧
    auditTruncated tools m = .ok ((events.length - auditLimit : ℕ) : ℤ)

/-- The row has the events, and every copy has those up to its time. -/
structure Complete (tools : MetadataTools τ) (docId : String) (t : Trail) : Prop where
  copies : ∀ copy ∈ t.copies, ∃ events, events <+: t.events ∧ Lists tools copy events
  row : ∀ row, t.store.rows.get docId = some row → Lists tools row.metadata t.events
  unwritten : t.store.rows.get docId = none → t.events = []
  self : ∀ e ∈ t.events, e.same e = true
  distinct : t.events.Pairwise (fun a b => b.same a = false)

section Complete

variable {docId : String} {t : Trail} {events : List Json}

theorem Lists.congr (h : Lists tools m events) (hsame : ∀ key ∈ auditKeys, n.get key = m.get key) :
    Lists tools n events := by
  have haudit : n.get "audit" = m.get "audit" := hsame _ (by decide)
  have hcount : n.get "audit_truncated" = m.get "audit_truncated" := hsame _ (by decide)
  refine ⟨?_, ?_⟩
  · rw [value_congr haudit]
    exact h.1
  · have hread : auditTruncated tools n = auditTruncated tools m := by
      unfold auditTruncated
      rw [hcount]
    rw [hread]
    exact h.2

theorem AddsOnly.congr {event : Json} (h : AddsOnly tools row m event) (hsame : ∀ key ∈ auditKeys, n.get key = m.get key) :
    AddsOnly tools row n event := by
  have hcount : auditTruncated tools n = auditTruncated tools m := by
    unfold auditTruncated
    rw [hsame "audit_truncated" (by decide)]
  refine ⟨?_, ?_⟩
  · rw [value_congr (hsame "audit" (by decide))]
    exact h.1
  · rw [hcount]
    exact h.2

theorem truncated_putCount {count : ℤ}
    (h : m.get "audit_truncated" = if count ≠ 0 then some (.int count) else none) : auditTruncated tools m = .ok count := by
  unfold auditTruncated
  rw [h]
  by_cases hzero : count = 0
  · rw [if_neg (not_not.mpr hzero), hzero]
    rfl
  · have htruthy : (Json.int count).truthy = true := decide_eq_true hzero
    rw [if_pos hzero]
    show tools.toInt (Json.or (.int count) (.int 0)) = .ok count
    unfold Json.or
    rw [if_pos htruthy]
    rfl

theorem Lists.appended {env : Router τ} {action : String} {reason : Option String} {before : Option Json}
    (h : Lists env.tools m events) (haudit : env.appendAudit m action reason before = .ok n) :
    Lists env.tools n (events ++ [env.auditEvent m action reason before]) := by
  obtain ⟨truncated, htruncated, hn⟩ := bind_ok.mp haudit
  have hcount : truncated = ((events.length - auditLimit : ℕ) : ℤ) := by
    have hread : countOf env.tools m "audit_truncated" = (auditTruncated env.tools m).map (max 0) := rfl
    rw [hread, h.2] at htruncated
    have hmax : max 0 ((events.length - auditLimit : ℕ) : ℤ) = truncated := Except.ok.inj htruncated
    omega
  dsimp only at hn
  rw [h.1, List.length_append, length_lastItems, List.length_singleton] at hn
  have hsum : truncated + ((min auditLimit events.length + 1 - auditLimit : ℕ) : ℤ) =
      (((events ++ [env.auditEvent m action reason before]).length - auditLimit : ℕ) : ℤ) := by
    rw [hcount, List.length_append, List.length_singleton]
    omega
  rw [hsum] at hn
  refine ⟨?_, truncated_putCount ?_⟩
  · have hvalue : n.value "audit" =
        .arr (lastItems auditLimit (lastItems auditLimit events ++ [env.auditEvent m action reason before])) := by
      refine value_eq ?_
      rw [← pure_ok.mp hn, get_putCount, if_neg (by decide), Dict.get_set_self]
    rw [hvalue, listItems_arr]
    exact lastItems_next
  · rw [← pure_ok.mp hn, get_putCount, if_pos rfl]

theorem Lists.merged {histories : Metadata} {known : List Json} {event : Json} (hrow : Lists tools row.metadata events)
    (hm : Lists tools m (known ++ [event])) (hknown : ∀ e ∈ known, event.same e = false)
    (hadds : AddsOnly tools row m event) (hevents : ∀ e ∈ events, e.same e = true) (hself : event.same event = true)
    (hnew : ∀ e ∈ events, event.same e = false)
    (h : mergeAppendOnlyMetadata tools row.metadata m = .ok histories) : Lists tools histories (events ++ [event]) := by
  -- what is submitted is the end of the known events, all in the row, and the new one
  have hlast : lastItems auditLimit (known ++ [event]) = lastItems 99 known ++ [event] := by
    unfold lastItems
    have hcut : (known ++ [event]).length - auditLimit = known.length - 99 := by
      have hlimit : auditLimit = 100 := rfl
      rw [List.length_append, List.length_singleton]
      omega
    rw [hcut, List.drop_append_of_le_length (Nat.sub_le _ _)]
  have hfound : ∀ e ∈ lastItems 99 known, (lastItems auditLimit events).any (Json.same e) = true := by
    intro e he
    have hsubmitted : e ∈ listItems (m.value "audit") := by
      rw [hm.1, hlast]
      exact List.mem_append_left _ he
    obtain hthere | hsame := hadds.1 e hsubmitted
    · rw [hrow.1] at hthere
      exact same_any hthere (hevents e (List.mem_of_mem_drop hthere))
    · have hdifferent := hknown e (List.mem_of_mem_drop he)
      rw [hsame, hself] at hdifferent
      cases hdifferent
  have hitems : mergeItems (listItems (row.metadata.value "audit")) (listItems (m.value "audit")) =
      lastItems auditLimit events ++ [event] := by
    rw [hrow.1, hm.1, hlast]
    refine mergeItems_next hfound (List.any_eq_false.mpr fun e he => ?_)
    rw [hnew e (List.mem_of_mem_drop he)]
    exact Bool.false_ne_true
  have hle := hadds.2 _ _ hm.2 hrow.2
  obtain ⟨before, after, hbefore, hafter, hcount⟩ := count_mergeAppendOnly h
  rw [hrow.2] at hbefore
  rw [hm.2] at hafter
  rw [← Except.ok.inj hbefore, ← Except.ok.inj hafter, hitems] at hcount
  dsimp only at hcount
  refine ⟨?_, truncated_putCount ?_⟩
  · rw [value_eq (audit_mergeAppendOnly h), hitems, listItems_arr]
    exact lastItems_next
  · have hsum : max ((events.length - auditLimit : ℕ) : ℤ) (((known ++ [event]).length - auditLimit : ℕ) : ℤ) +
        (((lastItems auditLimit events ++ [event]).length - 100 : ℕ) : ℤ) =
        (((events ++ [event]).length - auditLimit : ℕ) : ℤ) := by
      have hlimit : auditLimit = 100 := rfl
      rw [max_eq_left hle, List.length_append, length_lastItems, List.length_append, List.length_singleton]
      omega
    rw [hcount, hsum]

theorem Complete.next {s' : SqliteStore} {text : String} {event : Json} (h : Complete tools docId t)
    (hself : event.same event = true) (hnew : ∀ e ∈ t.events, event.same e = false)
    (hrows : s'.rows.get docId = some ⟨text, n⟩) (hlists : Lists tools n (t.events ++ [event])) :
    Complete tools docId (t.next s' n event) where
  copies copy hcopy := by
    obtain rfl | hold := List.mem_cons.mp hcopy
    · exact ⟨_, List.prefix_refl _, hlists⟩
    · obtain ⟨events, hbegins, hevents⟩ := h.copies copy hold
      exact ⟨events, hbegins.trans (List.prefix_append _ _), hevents⟩
  row row hrow := by
    have heq : row = ⟨text, n⟩ := Option.some.inj (hrow.symm.trans hrows)
    rw [heq]
    exact hlists
  unwritten hnone := by
    have hsome : s'.rows.get docId = .none := hnone
    rw [hrows] at hsome
    cases hsome
  self e he := by
    obtain hold | hlast := List.mem_append.mp he
    · exact h.self e hold
    · rw [List.mem_singleton.mp hlast]
      exact hself
  distinct := by
    refine List.pairwise_append.mpr ⟨h.distinct, List.pairwise_singleton _ _, fun a ha b hb => ?_⟩
    rw [List.mem_singleton.mp hb]
    exact hnew a ha

theorem Complete.write [LinearOrder τ] {event : Json} {t' : Trail} (h : Complete tools docId t)
    (hstep : WriteStep tools docId t m event t')
    (hadds : ∀ row, t.store.rows.get docId = some row → AddsOnly tools row m event)
    (hnew : ∀ e ∈ t.events, event.same e = false) : Complete tools docId t' := by
  obtain ⟨htools, hcopy, hedited, haudit, hself, hprepared, hpersist⟩ := hstep
  subst htools
  obtain ⟨events, hbegins, hevents⟩ := h.copies _ hcopy
  have happended := (hevents.congr hedited).appended haudit
  have hready := happended.congr fun key hkey => prepare_audit hkey hprepared
  obtain ⟨hpersisted, -, rfl⟩ := SqliteStore.persist_ok hpersist
  refine h.next hself hnew Dict.get_set_self ?_
  cases hrow : t.store.rows.get docId with
  | none =>
    rw [hrow] at hpersisted
    obtain ⟨metadata, hmetadata, hn⟩ := persisted_ok hpersisted
    have hall : t.events = events := by
      have hempty := hbegins
      rw [h.unwritten hrow] at hempty
      rw [h.unwritten hrow, List.prefix_nil.mp hempty]
    rw [hn, hall]
    exact hready.congr fun key hkey => normalize_audit hkey hmetadata
  | some row =>
    rw [hrow] at hpersisted
    obtain ⟨metadata, hmetadata, hreplacing⟩ := persisted_ok hpersisted
    have hnormalized : ∀ key ∈ auditKeys, metadata.get key = m.get key := fun key hkey => by
      rw [normalize_audit hkey hmetadata]
      exact prepare_audit hkey hprepared
    have hnormal := happended.congr hnormalized
    obtain ⟨histories, hhistories, hsame⟩ := replacing_audit hreplacing
    have hmerged := (h.row row hrow).merged hnormal (fun e he => hnew e (hbegins.subset he))
      ((hadds row hrow).congr hnormalized) h.self hself hnew hhistories
    exact hmerged.congr hsame

theorem deleted_row {s : SqliteStore} {faults : Faults} (h : (s.deleteDocument faults docId).2 = .ok ()) :
    (s.deleteDocument faults docId).1.rows.get docId = none := by
  unfold SqliteStore.deleteDocument at h ⊢
  split at h
  · cases h
  · rename_i hsql
    rw [if_neg hsql]
    show (s.rows.erase docId).get docId = none
    rw [Dict.get_erase, if_pos rfl]

theorem Complete.bury {event : Json} {t' : Trail} (h : Complete tools docId t) (hstep : BuryStep tools docId t event t')
    (hnew : ∀ e ∈ t.events, event.same e = false) : Complete tools docId t' := by
  obtain ⟨htools, hrow, hedited, haudit, hself, hdelete, hpersist⟩ := hstep
  subst htools
  have happended := ((h.row _ hrow).congr hedited).appended haudit
  obtain ⟨hpersisted, -, rfl⟩ := SqliteStore.persist_ok hpersist
  rw [deleted_row hdelete] at hpersisted
  obtain ⟨metadata, hmetadata, hn⟩ := persisted_ok hpersisted
  refine h.next hself hnew Dict.get_set_self ?_
  rw [hn]
  exact happended.congr fun key hkey => normalize_audit hkey hmetadata

theorem Complete.step [LinearOrder τ] {event : Json} {t' : Trail} (h : Complete tools docId t)
    (hstep : CountedStep tools docId t event t') : Complete tools docId t' := by
  obtain ⟨⟨m, hwrite, hadds⟩ | hbury, hnew⟩ := hstep
  · exact h.write hwrite hadds hnew
  · exact h.bury hbury hnew

theorem Complete.start {store : SqliteStore} (hnone : store.rows.get docId = none) :
    Complete tools docId (Trail.start store) where
  copies copy hcopy := by
    rw [List.mem_singleton.mp hcopy]
    exact ⟨[], List.prefix_refl _, rfl, rfl⟩
  row row hrow := by
    have hnone' : (Trail.start store).store.rows.get docId = none := hnone
    rw [hnone'] at hrow
    cases hrow
  unwritten _ := rfl
  self e he := (nomatch he)
  distinct := .nil

theorem Complete.trail (h : Complete tools docId t) : AuditTrail tools docId t := by
  intro row hrow
  obtain ⟨haudit, hcount⟩ := h.row row hrow
  rw [haudit]
  refine ⟨rfl, h.distinct.sublist (List.drop_sublist _ _), _, hcount, ?_⟩
  rw [length_lastItems]
  omega

end Complete

/-- In every run of audited operations, from whatever copies they were made, the audit that is
stored has the last hundred events, in order and once, and counts the others, as long as no two
events are equal and what is submitted over a row has nothing that the row has cut. -/
theorem audit_complete [LinearOrder τ] {tools : MetadataTools τ} {docId : String} {store : SqliteStore}
    {events : List Json} {t : Trail} (hnone : store.rows.get docId = none)
    (hrun : Run (CountedStep tools docId) (Trail.start store) events t) : AuditTrail tools docId t := by
  have hcomplete : Complete tools docId t :=
    hrun.invariant (Complete.start hnone) fun _ _ _ h hstep => h.step hstep
  exact hcomplete.trail

/-! ## The event after the hundredth -/

/-- The audit of a copy, and nothing else of it. -/
def auditOf (m : Metadata) : Metadata := m.filter (fun key _ => key ∈ auditKeys)

theorem get_auditOf : (auditOf m).get key = if key ∈ auditKeys then m.get key else none := by
  unfold auditOf
  rw [Dict.get_filter]
  split
  · rename_i hkey
    cases m.get key with
    | none => rfl
    | some v => exact if_pos (decide_eq_true hkey)
  · rename_i hkey
    cases m.get key with
    | none => rfl
    | some v => exact if_neg fun h => hkey (of_decide_eq_true h)

/-- A service at the `k`-th of some times. -/
def routerAt (k : ℕ) : Router Bool := { plainRouter with localNow := String.ofList (List.replicate k 'a') }

/-- The event of an edit at the `k`-th time. -/
def eventAt (k : ℕ) : Json :=
  .obj [("at", .str (String.ofList (List.replicate k 'a'))), ("action", .str "edit"), ("actor", .str "memory-api")]

theorem event_eq (k : ℕ) : (routerAt k).auditEvent (auditOf m) "edit" none none = eventAt k := by
  have hrole : (auditOf m).value "memory_role" = .null := by
    unfold Metadata.value
    rw [get_auditOf, if_neg (by decide)]
    rfl
  unfold Router.auditEvent
  rw [hrole]
  rfl

theorem same_event (j k : ℕ) : (eventAt j).same (eventAt k) =
    decide (String.ofList (List.replicate j 'a') = String.ofList (List.replicate k 'a')) := by
  have hentry {key : String} {x y : Json} {rest b : List (String × Json)} (h : b.lookup key = some y) :
      Json.sameEntries ((key, x) :: rest) b = (x.same y && Json.sameEntries rest b) := by
    rw [Json.sameEntries, h]
  unfold eventAt
  rw [Json.same, hentry rfl, hentry rfl, hentry rfl, Json.sameEntries, Json.same, Json.same, Json.same]
  simp only [List.length_cons, decide_true, Bool.and_true, true_and, decide_eq_true_eq]

theorem event_self (k : ℕ) : (eventAt k).same (eventAt k) = true := by
  rw [same_event]
  exact decide_eq_true rfl

theorem event_new {j k : ℕ} (h : j ≠ k) : (eventAt k).same (eventAt j) = false := by
  have htext : String.ofList (List.replicate k 'a') ≠ String.ofList (List.replicate j 'a') := by
    intro heq
    have hlists := String.ofList_injective heq
    have hlengths := congrArg List.length hlists
    rw [List.length_replicate, List.length_replicate] at hlengths
    exact h hlengths.symm
  rw [same_event]
  exact decide_eq_false htext

theorem newYear_reads (v : Json) : Gives (canonicalTimestamp newYear v) := by
  unfold canonicalTimestamp
  split
  · dsimp only
    split
    · exact ⟨_, rfl⟩
    · unfold newYear
      dsimp only
      split
      · exact ⟨_, rfl⟩
      · exact ⟨_, rfl⟩
      · rename_i hrange
        split at hrange
        · cases hrange
        · split at hrange
          · cases hrange
          · cases hrange
  · exact ⟨_, rfl⟩

theorem newYear_normalizes (now : Bool) (m : Metadata) : Gives (normalizeMemoryMetadata newYear now m) :=
  stamps_give.mpr fun _ _ => newYear_reads _

theorem submits {copy : Metadata} {known : List Json} (k : ℕ) (h : Lists newYear copy known) :
    ∃ m, (routerAt k).appendAudit (auditOf copy) "edit" none none = .ok m ∧ Lists newYear m (known ++ [eventAt k]) ∧
      ∀ key, key ∉ auditKeys → m.get key = none := by
  have hown : Lists newYear (auditOf copy) known := h.congr fun key hkey => by rw [get_auditOf, if_pos hkey]
  have hcount : countOf newYear (auditOf copy) "audit_truncated" =
      (auditTruncated newYear (auditOf copy)).map (max 0) := rfl
  rw [hown.2] at hcount
  have hm : Gives ((routerAt k).appendAudit (auditOf copy) "edit" none none) :=
    gives_bind.mpr ⟨_, hcount, gives_pure _⟩
  obtain ⟨m, hm⟩ := hm
  refine ⟨m, hm, ?_, fun key hkey => ?_⟩
  · have happended : Lists newYear m (known ++ [(routerAt k).auditEvent (auditOf copy) "edit" none none]) :=
      hown.appended hm
    rw [event_eq] at happended
    exact happended
  · have hnone : (auditOf copy).get key = none := by rw [get_auditOf, if_neg hkey]
    simp only [auditKeys, List.mem_cons, List.not_mem_nil, or_false, not_or] at hkey
    obtain ⟨_, -, hn⟩ := bind_ok.mp hm
    rw [← pure_ok.mp hn, get_putCount, if_neg hkey.2, Dict.get_set_of_ne hkey.1, hnone]

theorem persist_gives {s : SqliteStore} {doc : Document} (h : persistedMetadata tools now (s.rows.get doc.id) doc = .ok n) :
    ∃ s', s.persist tools now {} doc = .ok (s', n) := by
  unfold SqliteStore.persist
  rw [h]
  exact ⟨_, rfl⟩

theorem write_next {t : Trail} {copy : Metadata} {known : List Json} (k : ℕ) (hcopy : copy ∈ t.copies)
    (hlists : Lists newYear copy known) (hrows : ∀ row, t.store.rows.get "m1" = some row →
      Gives (auditTruncated newYear row.metadata) ∧ row.metadata.get "version_history_truncated" = none) :
    ∃ m metadata s' n, WriteStep newYear "m1" t m (eventAt k) (t.next s' n (eventAt k)) ∧
      Lists newYear metadata (known ++ [eventAt k]) ∧ metadata.get "version_history_truncated" = none ∧
      s'.rows.get "m1" = some ⟨"The user likes tea.", n⟩ ∧
      match t.store.rows.get "m1" with
      | none => n = metadata
      | some row => replacingMetadata newYear false row "m1" metadata = .ok n := by
  obtain ⟨m, hm, hevents, hbare⟩ := submits k hlists
  -- the dates of a bare audit pass, and so does the rest of the preparation
  have hdates : Gives ((routerAt k).normalizeExpiryForWrite m) := by
    refine expiryForWrite_congr (m := Dict.empty) (fun key hkey => ?_) (by exact ⟨_, rfl⟩)
    rw [Dict.get_empty]
    refine hbare key fun haudit => ?_
    simp only [auditKeys, List.mem_cons, List.not_mem_nil, or_false] at haudit
    obtain rfl | rfl := haudit
    · exact absurd hkey (by decide)
    · exact absurd hkey (by decide)
  obtain ⟨dated, hdated⟩ := hdates
  have hretired : rejectedFields dated = [] := by
    refine List.filter_eq_nil_iff.mpr fun key hkey hsome => ?_
    have hkeys : key ∉ ["expires_at", "valid_from", "valid_to"] ∧ key ∉ auditKeys := by
      simp only [retiredFields, List.mem_cons, List.not_mem_nil, or_false] at hkey
      obtain rfl | rfl | rfl | rfl | rfl := hkey
      all_goals decide
    rw [expiryForWrite_frame hdated hkeys.1, hbare key hkeys.2] at hsome
    cases hsome
  obtain ⟨prepared, hprepared⟩ := newYear_normalizes false dated
  have hready : (routerAt k).prepareWrite none { id := "m1", text := "The user likes tea.", metadata := m } =
      .ok prepared := by
    unfold Router.prepareWrite
    rw [hdated]
    refine bind_ok.mpr ⟨_, rfl, bind_ok.mpr ⟨(), require_ok.mpr hretired, ?_⟩⟩
    exact escaped_ok.mpr hprepared
  obtain ⟨metadata, hmetadata⟩ := newYear_normalizes false prepared
  have hkept {key : String} (hkey : key ∈ auditKeys) : metadata.get key = m.get key := by
    rw [normalize_audit hkey hmetadata]
    exact prepare_audit hkey hready
  have hversions : metadata.get "version_history_truncated" = none := by
    obtain ⟨_, -, hnormalized⟩ := normalize_spec hmetadata
    obtain ⟨_, -, hnormalized'⟩ := normalize_spec hprepared
    rw [hnormalized.others _ (by decide), hnormalized'.others _ (by decide), expiryForWrite_frame hdated (by decide)]
    exact hbare _ (by decide)
  have hpersisted : ∃ n, persistedMetadata newYear false (t.store.rows.get "m1")
      { id := "m1", text := "The user likes tea.", metadata := prepared } = .ok n ∧
      match t.store.rows.get "m1" with
      | none => n = metadata
      | some row => replacingMetadata newYear false row "m1" metadata = .ok n := by
    unfold persistedMetadata
    rw [hmetadata]
    cases hrow : t.store.rows.get "m1" with
    | none => exact ⟨metadata, rfl, rfl⟩
    | some row =>
      obtain ⟨hcount, hnone⟩ := hrows row hrow
      have hgives : Gives (replacingMetadata newYear false row "m1" metadata) := by
        obtain ⟨histories, hhistories⟩ := merge_gives (countOf_gives.mpr hcount)
          (countOf_gives.mpr ⟨_, (hevents.congr fun key hkey => hkept hkey).2⟩)
        obtain ⟨old, hold⟩ := newYear_normalizes false row.metadata
        obtain ⟨new, hnew⟩ := newYear_normalizes false (withLifecycle row.metadata histories)
        unfold replacingMetadata
        rw [hhistories]
        refine gives_bind.mpr ⟨_, rfl, gives_bind.mpr ⟨old, hold, ?_⟩⟩
        split
        · exact ⟨_, rfl⟩
        · have hold' : old.get "version_history_truncated" = none := by
            obtain ⟨_, -, hnormalized⟩ := normalize_spec hold
            rw [hnormalized.others _ (by decide), hnone]
          have hzero : countOf newYear old "version_history_truncated" = .ok 0 := by
            unfold countOf
            rw [hold']
            rfl
          unfold appendMemoryVersion
          rw [hold, hnew]
          exact gives_bind.mpr ⟨_, rfl, gives_bind.mpr ⟨_, rfl, gives_bind.mpr ⟨0, hzero, gives_pure _⟩⟩⟩
      obtain ⟨n, hn⟩ := hgives
      exact ⟨n, hn, hn⟩
  obtain ⟨n, hn, hcases⟩ := hpersisted
  obtain ⟨s', hs'⟩ := persist_gives hn
  have hstored : s'.rows.get "m1" = some ⟨"The user likes tea.", n⟩ := by
    obtain ⟨-, -, rfl⟩ := SqliteStore.persist_ok hs'
    exact Dict.get_set_self
  refine ⟨m, metadata, s', n, ?_, hevents.congr fun key hkey => hkept hkey, hversions, hstored, hcases⟩
  have hstep : WriteStep newYear "m1" t m ((routerAt k).auditEvent (auditOf copy) "edit" none none)
      (t.next s' n ((routerAt k).auditEvent (auditOf copy) "edit" none none)) := .write rfl hcopy (fun key hkey => by rw [get_auditOf, if_pos hkey]) hm (by rw [event_eq]; exact event_self k) hready hs'
  rw [event_eq] at hstep
  exact hstep

theorem write_buried (k : ℕ) : ∃ labels t row, Run (CountedStep newYear "m1") (Trail.start {}) labels t ∧
    t.events.length = k + 1 ∧ (∀ e ∈ t.events, ∃ j ≤ k, e = eventAt j) ∧ t.store.rows.get "m1" = some row ∧
    row.metadata ∈ t.copies ∧ row.metadata.get "version_history_truncated" = none := by
  induction k with
  | zero =>
    obtain ⟨m, metadata, s', n, hstep, hlists, hversions, hstored, hn⟩ :=
      write_next (t := Trail.start {}) 0 List.mem_cons_self (show Lists newYear Dict.empty [] from ⟨rfl, rfl⟩) fun row hrow => (nomatch hrow)
    have hn' : n = metadata := hn
    refine ⟨_, _, _, Run.next Run.start ⟨Or.inl ⟨m, hstep, fun row hrow => (nomatch hrow)⟩, fun e he => (nomatch he)⟩, rfl,
      fun e he => ⟨0, Nat.le_refl _, ?_⟩, hstored, List.mem_cons_self, ?_⟩
    · exact List.mem_singleton.mp he
    · show n.get "version_history_truncated" = none
      rw [hn', hversions]
  | succ k ih =>
    obtain ⟨labels, t, row, hrun, hlength, hevents, hrow, hcopy, hversions⟩ := ih
    have hcomplete : Complete newYear "m1" t :=
      hrun.invariant (Complete.start rfl) fun _ _ _ h hstep => h.step hstep
    obtain ⟨m, hm, hlists, hbare⟩ := submits (k + 1) (hcomplete.row row hrow)
    obtain ⟨n, hn⟩ := newYear_normalizes false m
    have hdeleted : ((t.store.deleteDocument {} "m1").1.rows.get "m1") = none := deleted_row rfl
    have hpersisted : persistedMetadata newYear false ((t.store.deleteDocument {} "m1").1.rows.get "m1")
        { id := "m1", text := row.text, metadata := m } = .ok n := by
      unfold persistedMetadata
      rw [hn, hdeleted]
      rfl
    obtain ⟨s', hs'⟩ : ∃ s', (t.store.deleteDocument {} "m1").1.persist newYear false {}
        { id := "m1", text := row.text, metadata := m } = .ok (s', n) := persist_gives hpersisted
    have hstep : BuryStep newYear "m1" t ((routerAt (k + 1)).auditEvent (auditOf row.metadata) "edit" none none)
        (t.next s' n ((routerAt (k + 1)).auditEvent (auditOf row.metadata) "edit" none none)) := .bury rfl hrow (fun key hkey => by rw [get_auditOf, if_pos hkey]) hm
      (by rw [event_eq]; exact event_self _) rfl hs'
    rw [event_eq] at hstep
    have hnew : ∀ e ∈ t.events, (eventAt (k + 1)).same e = false := by
      intro e he
      obtain ⟨j, hj, rfl⟩ := hevents e he
      exact event_new (by omega)
    have hstored : s'.rows.get "m1" = some ⟨row.text, n⟩ := by
      obtain ⟨-, -, rfl⟩ := SqliteStore.persist_ok hs'
      exact Dict.get_set_self
    refine ⟨_, _, _, Run.next hrun ⟨Or.inr hstep, hnew⟩, ?_, ?_, hstored, List.mem_cons_self, ?_⟩
    · show (t.events ++ [eventAt (k + 1)]).length = _
      rw [List.length_append, hlength, List.length_singleton]
    · intro e he
      obtain hold | hlast := List.mem_append.mp he
      · obtain ⟨j, hj, heq⟩ := hevents e hold
        exact ⟨j, Nat.le_succ_of_le hj, heq⟩
      · exact ⟨k + 1, Nat.le_refl _, List.mem_singleton.mp hlast⟩
    · obtain ⟨_, -, hnormalized⟩ := normalize_spec hn
      show n.get "version_history_truncated" = none
      rw [hnormalized.others _ (by decide), hbare _ (by decide)]

/-- A document with a hundred and fifty events. -/
theorem audit_complete_buried : ∃ labels t, Run (CountedStep newYear "m1") (Trail.start {}) labels t ∧
    t.events.length = 150 ∧ AuditTrail newYear "m1" t := by
  obtain ⟨labels, t, row, hrun, hlength, -⟩ := write_buried 149
  exact ⟨labels, t, hrun, hlength, audit_complete rfl hrun⟩

/-- The hundred and first event, written from an up-to-date copy, is counted twice. -/
theorem audit_counted_twice : ¬ ∀ (store : SqliteStore) (events : List Json) (t : Trail), store.rows.get "m1" = none →
    Run (AuditStep newYear "m1") (Trail.start store) events t → AuditTrail newYear "m1" t := by
  intro hclaim
  obtain ⟨labels, t, row, hrun, hlength, hevents, hrow, hcopy, hversions⟩ := write_buried 99
  have hcomplete : Complete newYear "m1" t :=
    hrun.invariant (Complete.start rfl) fun _ _ _ h hstep => h.step hstep
  have hrun' : Run (AuditStep newYear "m1") (Trail.start {}) labels t := hrun.mono fun _ _ _ hstep => by
    obtain ⟨⟨m, hwrite, -⟩ | hbury, -⟩ := hstep
    · exact Or.inl ⟨m, hwrite⟩
    · exact Or.inr hbury
  have hlists := hcomplete.row row hrow
  obtain ⟨m, metadata, s', n, hstep, hsubmitted, -, hstored, hn⟩ := write_next 100 hcopy hlists fun row' hrow' => by
    rw [← Option.some.inj (hrow.symm.trans hrow')]
    exact ⟨⟨_, hlists.2⟩, hversions⟩
  have hreplaced : replacingMetadata newYear false row "m1" metadata = .ok n := by
    rw [hrow] at hn
    exact hn
  -- both counts of the merge have the event that was cut
  have hcount : auditTruncated newYear n = .ok 2 := by
    obtain ⟨histories, hhistories, hsame⟩ := replacing_audit hreplaced
    obtain ⟨before, after, hbefore, hafter, hget⟩ := count_mergeAppendOnly hhistories
    have hall : lastItems auditLimit t.events = t.events := lastItems_short (by rw [hlength]; decide)
    have hnew : ∀ e ∈ t.events, (eventAt 100).same e = false := by
      intro e he
      obtain ⟨j, hj, rfl⟩ := hevents e he
      exact event_new (by omega)
    have hitems : mergeItems (listItems (row.metadata.value "audit")) (listItems (metadata.value "audit")) =
        t.events ++ [eventAt 100] := by
      have hcut : lastItems auditLimit (t.events ++ [eventAt 100]) = t.events.drop 1 ++ [eventAt 100] := by
        unfold lastItems
        rw [List.length_append, hlength, List.drop_append_of_le_length (by rw [hlength]; decide)]
        rfl
      rw [hlists.1, hsubmitted.1, hall, hcut]
      refine mergeItems_next (fun e he => ?_) (List.any_eq_false.mpr fun e he => ?_)
      · have hmem : e ∈ t.events := List.mem_of_mem_drop he
        exact same_any hmem (hcomplete.self e hmem)
      · rw [hnew e he]
        exact Bool.false_ne_true
    rw [hlists.2, hlength] at hbefore
    rw [hsubmitted.2, List.length_append, hlength] at hafter
    rw [← Except.ok.inj hbefore, ← Except.ok.inj hafter, hitems] at hget
    dsimp only at hget
    rw [List.length_append, hlength] at hget
    refine truncated_putCount ?_
    rw [hsame _ (by decide), hget]
    rfl
  have hrun'' : Run (AuditStep newYear "m1") (Trail.start {}) (eventAt 100 :: labels) (t.next s' n (eventAt 100)) :=
    Run.next hrun' (Or.inl ⟨m, hstep⟩)
  obtain ⟨haudit, -, count, hread, hsum⟩ := hclaim _ _ _ rfl hrun'' _ hstored
  have hone : count = 2 := by
    rw [hcount] at hread
    exact (Except.ok.inj hread).symm
  have hevents' : (t.next s' n (eventAt 100)).events = t.events ++ [eventAt 100] := rfl
  have hlimit : auditLimit = 100 := rfl
  rw [haudit, hone, length_lastItems, hevents', List.length_append, hlength, List.length_singleton, hlimit] at hsum
  omega

end Memory

import Yuizaki.Events.Presentation
import Yuizaki.Lib.Regex

/- The data of a job event, as the log keeps it (`_sanitize_job_data` in
   `modules/agent/companion_events.py`).

   A value is bounded in depth, in the length of its texts and in the number of its
   entries and items; texts that look like credentials are redacted, and so is every entry
   whose key names one. -/
namespace Events

def jobDataMaxText : ℕ := 512

def jobDataMaxItems : ℕ := 32

def jobDataMaxListItems : ℕ := 16

def jobDataMaxDepth : ℕ := 6

def jobDataMaxKey : ℕ := 128

def jobDataSecretParts : List String :=
  ["api_key", "apikey", "authorization", "bearer", "cookie", "credential", "password",
    "private_key", "secret", "token", "webhook", "raw_audio"]

section Patterns

open Regex

/-- `[_-]?` -/
def separator : Regex := optional (oneOf "_-")

/-- `[A-Za-z0-9._~+/=-]` under `re.IGNORECASE`. -/
def credentialChar : Regex := .char (fun c => c.toNat < 128 ∧ c.isAlphanum = true ∨
  c ∈ "._~+/=-".toList ∨
  c ∈ [Char.ofNat 0x130, Char.ofNat 0x131, Char.ofNat 0x17F, Char.ofNat 0x212A])

/-- `\b` -/
def wordBoundary (tables : TextTables) : Regex :=
  .boundary (fun c => tables.isAlnum c = true ∨ c = '_')

/-- The first of `_JOB_DATA_SECRET_TEXT_PATTERNS`: a bearer or basic credential. -/
def credentialPattern (tables : TextTables) : Regex :=
  seqs [wordBoundary tables, .alt (textIgnoreCase "bearer") (textIgnoreCase "basic"),
    some1 true space, atLeast 8 credentialChar]

/-- The second: an assignment to a name of a secret. -/
def assignmentPattern (tables : TextTables) : Regex :=
  seqs [.alt (oneOf "?&") (wordBoundary tables),
    alts [seqs [textIgnoreCase "api", separator, textIgnoreCase "key"],
      seqs [textIgnoreCase "access", separator, textIgnoreCase "token"],
      seqs [textIgnoreCase "bot", separator, textIgnoreCase "token"],
      textIgnoreCase "token", textIgnoreCase "password", textIgnoreCase "secret",
      seqs [textIgnoreCase "webhook", optional (.seq separator (textIgnoreCase "secret"))]],
    .many true space, oneOf "=:", .many true space,
    some1 true (.char (fun c => c ∉ "&#,;".toList ∧ PyStr.isSpace c = false))]

end Patterns

/-- A text without what looks like a credential. -/
def redactText (tables : TextTables) (text : String) : String :=
  (assignmentPattern tables).sub "[REDACTED]" ((credentialPattern tables).sub "[REDACTED]" text)

def boundText (text : String) : String :=
  if text.length ≤ jobDataMaxText then text
  else PyStr.textPrefix (jobDataMaxText - 3) text ++ "..."

def isSecretKey (tables : TextTables) (key : String) : Bool :=
  jobDataSecretParts.any
    (PyStr.contains (PyStr.replaceChar '-' '_' (PyStr.lower tables.lower key)))

mutual

def sanitizeJobData (tables : TextTables) (depth : ℕ) : Json → Json
  | .str text =>
    if jobDataMaxDepth ≤ depth then .str "[TRUNCATED]" else .str (boundText (redactText tables text))
  | .obj entries =>
    if jobDataMaxDepth ≤ depth then .str "[TRUNCATED]"
    else
      let kept := sanitizeEntries tables (depth + 1) jobDataMaxItems [] entries
      if entries.length ≤ jobDataMaxItems then .obj kept
      else .obj (Json.setEntry kept "__truncatedItems" (.int (entries.length - jobDataMaxItems)))
  | .arr items =>
    if jobDataMaxDepth ≤ depth then .str "[TRUNCATED]"
    else
      let kept := sanitizeItems tables (depth + 1) jobDataMaxListItems items
      if items.length ≤ jobDataMaxListItems then .arr kept
      else .arr (kept ++ [.str ("[TRUNCATED " ++
        toString (items.length - jobDataMaxListItems) ++ " ITEMS]")])
  | value => if jobDataMaxDepth ≤ depth then .str "[TRUNCATED]" else value

/-- The first items of a list, sanitized. -/
def sanitizeItems (tables : TextTables) (depth : ℕ) : ℕ → List Json → List Json
  | n + 1, item :: rest => sanitizeJobData tables depth item :: sanitizeItems tables depth n rest
  | _, _ => []

/-- The first entries of an object, sanitized under their cut keys. -/
def sanitizeEntries (tables : TextTables) (depth : ℕ) :
    ℕ → List (String × Json) → List (String × Json) → List (String × Json)
  | n + 1, result, (rawKey, child) :: rest =>
    let key := PyStr.textPrefix jobDataMaxKey rawKey
    let value := if isSecretKey tables key then .str "[REDACTED]"
      else sanitizeJobData tables depth child
    sanitizeEntries tables depth n (Json.setEntry result key value) rest
  | _, result, _ => result

end

def sanitizeEntry (tables : TextTables) (depth : ℕ) (key : String) (child : Json) : Json :=
  if isSecretKey tables key then .str "[REDACTED]" else sanitizeJobData tables depth child

theorem lookup_sanitizeEntries (tables : TextTables) (depth : ℕ) (k : String) {n : ℕ}
    {entries : List (String × Json)} (hfew : entries.length ≤ n)
    (hshort : ∀ e ∈ entries, e.1.length ≤ jobDataMaxKey)
    (hnodup : (entries.map Prod.fst).Nodup) (result : List (String × Json)) :
    (sanitizeEntries tables depth n result entries).lookup k =
      ((entries.lookup k).map (sanitizeEntry tables depth k)).or (result.lookup k) := by
  induction entries generalizing n result with
  | nil =>
    cases n <;> rfl
  | cons e rest ih =>
    obtain ⟨key, child⟩ := e
    rw [List.length_cons] at hfew
    obtain ⟨m, rfl⟩ : ∃ m, n = m + 1 := ⟨n - 1, by omega⟩
    rw [List.map_cons, List.nodup_cons] at hnodup
    have hwhole : PyStr.textPrefix jobDataMaxKey key = key := by
      have hlength : key.toList.length ≤ jobDataMaxKey := hshort (key, child) List.mem_cons_self
      rw [PyStr.textPrefix, List.take_of_length_le hlength, String.ofList_toList]
    have hrest := ih (n := m) (by omega) (fun e he => hshort e (List.mem_cons_of_mem _ he)) hnodup.2
      (Json.setEntry result key (sanitizeEntry tables depth key child))
    rw [sanitizeEntries, hwhole]
    show (sanitizeEntries tables depth m
      (Json.setEntry result key (sanitizeEntry tables depth key child)) rest).lookup k = _
    rw [hrest, Json.lookup_setEntry, Json.lookup_cons_if]
    by_cases hk : k = key
    · have hnone : rest.lookup k = none := by
        cases hfound : rest.lookup k with
        | none => rfl
        | some v =>
          have hmem : (k, v) ∈ rest := by
            rw [List.lookup_eq_some_iff] at hfound
            obtain ⟨before, after, hsplit, -⟩ := hfound
            rw [hsplit]
            exact List.mem_append_right _ List.mem_cons_self
          exact absurd (List.mem_map_of_mem (f := Prod.fst) hmem) (hk ▸ hnodup.1)
      rw [if_pos hk, if_pos hk, hnone, hk]
      rfl
    · rw [if_neg hk, if_neg hk]

theorem sanitizeJobData_obj (tables : TextTables) {entries : List (String × Json)}
    (hfew : entries.length ≤ jobDataMaxItems) :
    sanitizeJobData tables 0 (.obj entries) =
      .obj (sanitizeEntries tables 1 jobDataMaxItems [] entries) := by
  rw [sanitizeJobData]
  have hdepth : ¬ jobDataMaxDepth ≤ 0 := by decide
  rw [if_neg hdepth]
  dsimp only
  rw [if_pos hfew]

end Events

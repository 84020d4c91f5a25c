import Yuizaki.Tool.Receipt

/- What a receipt shows of the parameters of a call.

   A text is shown only if it looks like no secret, or is a URL whose secrets were taken out, and
   what stands under a secret key is not shown. Every text that is not shown as it was has its
   path among the redacted ones. -/
namespace Tool

open Events

/-- A value that shows no secret. -/
inductive Sanitized (tables : TextTables) (urls : UrlTools) : Json → Prop
  | redacted : Sanitized tables urls (.str "[REDACTED]")
  | url {raw : String} (h : (sanitizeUrl tables urls raw).2 = true) : Sanitized tables urls (.str (sanitizeUrl tables urls raw).1)
  | plain {text : String} (hurl : (sanitizeUrl tables urls text).2 = false) (h : looksSecret tables text = false) :
      Sanitized tables urls (.str text)
  | obj {entries : List (String × Json)} (h : ∀ e ∈ entries, Sanitized tables urls e.2)
      (hkeys : ∀ e ∈ entries, isSecretKey tables e.1 = true → e.2 = .str "[REDACTED]") : Sanitized tables urls (.obj entries)
  | arr {items : List Json} (h : ∀ item ∈ items, Sanitized tables urls item) : Sanitized tables urls (.arr items)
  | other {value : Json} (htext : ∀ s, value ≠ .str s) (hentries : ∀ es, value ≠ .obj es) (hitems : ∀ xs, value ≠ .arr xs) :
      Sanitized tables urls value

variable {tables : TextTables} {urls : UrlTools}

mutual

theorem redact_sanitized (path : String) : ∀ value, Sanitized tables urls (redact tables urls path value).1
  | .str text => by
    rw [redact]
    by_cases hurl : (sanitizeUrl tables urls text).2 = true
    · rw [if_pos hurl]
      exact .url hurl
    · rw [if_neg hurl]
      by_cases hsecret : looksSecret tables text = true
      · rw [if_pos hsecret]
        exact .redacted
      · rw [if_neg hsecret]
        exact .plain (eq_false_of_ne_true hurl) (eq_false_of_ne_true hsecret)
  | .obj entries => by
    rw [redact]
    have hentries := redactEntries_sanitized path (secretHeader tables entries) entries
    exact .obj (fun e he => (hentries e he).1) fun e he => (hentries e he).2
  | .arr items => by
    rw [redact]
    exact .arr (redactItems_sanitized path 0 items)
  | .null | .bool _ | .int _ | .num _ => by
    simp only [redact]
    apply Sanitized.other <;> simp

theorem redactEntries_sanitized (path : String) (header : Bool) : ∀ entries, ∀ e ∈ (redactEntries tables urls path header entries).1,
    Sanitized tables urls e.2 ∧ (isSecretKey tables e.1 = true → e.2 = .str "[REDACTED]")
  | [] => by simp [redactEntries]
  | (key, item) :: rest => by
    simp only [redactEntries, List.forall_mem_cons]
    refine ⟨?_, redactEntries_sanitized path header rest⟩
    split
    · exact ⟨.redacted, fun _ => rfl⟩
    · rename_i hplain
      exact ⟨redact_sanitized _ item, fun hkey => absurd (Or.inl hkey) hplain⟩

theorem redactItems_sanitized (path : String) : ∀ (index : ℕ) (items : List Json),
    ∀ item ∈ (redactItems tables urls path index items).1, Sanitized tables urls item
  | _, [] => by simp [redactItems]
  | index, item :: rest => by
    simp only [redactItems, List.forall_mem_cons]
    exact ⟨redact_sanitized _ item, redactItems_sanitized path (index + 1) rest⟩

end

mutual

theorem redact_shown (path : String) : ∀ value, (redact tables urls path value).2 = [] → (redact tables urls path value).1 = value
  | .str text => by
    simp only [redact]
    split
    · simp
    · split <;> simp
  | .obj entries => by
    simp only [redact, Json.obj.injEq]
    exact redactEntries_shown path _ entries
  | .arr items => by
    simp only [redact, Json.arr.injEq]
    exact redactItems_shown path 0 items
  | .null | .bool _ | .int _ | .num _ => by simp [redact]

theorem redactEntries_shown (path : String) (header : Bool) : ∀ entries,
    (redactEntries tables urls path header entries).2 = [] → (redactEntries tables urls path header entries).1 = entries
  | [] => by simp [redactEntries]
  | (key, item) :: rest => by
    simp only [redactEntries, List.append_eq_nil_iff]
    rintro ⟨hfirst, hrest⟩
    rw [redactEntries_shown path header rest hrest]
    split at hfirst
    · cases hfirst
    · rename_i hplain
      rw [if_neg hplain, redact_shown _ item hfirst]

theorem redactItems_shown (path : String) : ∀ (index : ℕ) (items : List Json),
    (redactItems tables urls path index items).2 = [] → (redactItems tables urls path index items).1 = items
  | _, [] => by simp [redactItems]
  | index, item :: rest => by
    simp only [redactItems, List.append_eq_nil_iff]
    rintro ⟨hfirst, hrest⟩
    rw [redact_shown _ item hfirst, redactItems_shown path (index + 1) rest hrest]

end

end Tool

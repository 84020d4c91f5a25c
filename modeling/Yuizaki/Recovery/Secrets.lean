import Mathlib.Data.List.Infix
import Yuizaki.Recovery.Codec

/- Credentials in what is persisted: `_check_args` over every tree that a step, a
   context, a result or an error brings to the recovery store.

   A key names a credential when, in lower case and with `_` for `-`, it is a listed
   name, or one behind a prefix that ends in `_`. The check takes whole keys from the
   list and looks for five parts anywhere in a key, so a listed name behind a prefix
   is missed where none of the parts occurs in it; and `set-cookie` of the list is never
   met, for the key it is compared with has no `-`. -/
namespace Recovery

open Fallible JsonText Plan

/-- A key of a mapping, at any depth of a tree. -/
inductive HasKey (key : String) : Json → Prop
  | own {kvs : List (String × Json)} {child : Json} (h : (key, child) ∈ kvs) : HasKey key (.obj kvs)
  | entry {kvs : List (String × Json)} {e : String × Json} (he : e ∈ kvs) (h : HasKey key e.2) :
      HasKey key (.obj kvs)
  | item {xs : List Json} {x : Json} (hx : x ∈ xs) (h : HasKey key x) : HasKey key (.arr xs)

/-- The form in which names are compared: case ignored, `-` and `_` alike. -/
def normalName (wide : String → String) (name : String) : String :=
  PyStr.replaceChar '-' '_' (PyStr.lower wide name)

/-- A listed name, or one formed from it by a prefix such as `x-`. -/
def NamesCredential (wide : String → String) (key : String) : Prop :=
  ∃ name ∈ secretKeys, ∃ before : List Char, (before = [] ∨ before.getLast? = some '_') ∧
    (normalName wide key).toList = before ++ (normalName wide name).toList

/-- A tree that a call of the store took: the arguments of a step, a context, a result, or the
result or error of an execution. -/
inductive Accepted (floats : Floats) (codec : RecoveryCodec) : Json → Prop
  | arguments (step : ToolStep) (document : String)
      (h : serializeToolStep floats codec.wide step = .ok document) :
      Accepted floats codec (.obj step.arguments)
  | context (s s' : RecoveryStore) (now : ℚ) (recoveryId : String) (step : Step) (args : PutArgs)
      (tree : Json) (htree : args.contextSnapshot = some tree)
      (h : put codec s now recoveryId step args = .ok s') : Accepted floats codec tree
  | result (s s' : RecoveryStore) (now : ℚ) (recoveryId : String) (step : Step) (args : PutArgs)
      (tree : Json) (htree : args.result = some tree)
      (h : put codec s now recoveryId step args = .ok s') : Accepted floats codec tree
  | outcome (s : RecoveryStore) (now : ℚ) (recoveryId : String) (success : Bool)
      (owner token : String) (result error : Option Json) (stored : Bool) (tree : Json)
      (htree : (if success then result else error) = some tree)
      (h : (finish codec s now recoveryId success owner token result error).2 = .ok stored) :
      Accepted floats codec tree

section Checked

variable {floats : Floats} {codec : RecoveryCodec} {wide : String → String} {tree : Json} {k : String}

/-! ## What was taken was checked -/

theorem serializeSnapshot_checked {label : String} {document : Option String}
    (h : serializeSnapshot codec label (some tree) = .ok document) :
    tree = .null ∨ checkArgs codec.wide 0 tree = .ok () := by
  unfold serializeSnapshot at h
  split at h
  · rename_i hnone
    cases hnone
  · rename_i hnull
    exact Or.inl (Option.some.inj hnull)
  · rename_i value _ hvalue
    obtain rfl := Option.some.inj hvalue
    split at h
    · cases h
    · cases hcheck : checkArgs codec.wide 0 tree with
      | error message =>
        rw [hcheck] at h
        cases h
      | ok _ => exact Or.inr rfl

theorem put_checked {s s' : RecoveryStore} {now : ℚ} {recoveryId : String} {step : Step} {args : PutArgs}
    (h : put codec s now recoveryId step args = .ok s') :
    (∃ document, serializeSnapshot codec "context" args.contextSnapshot = .ok document) ∧
      ∃ document, serializeSnapshot codec "result" args.result = .ok document := by
  unfold put at h
  split at h
  · cases h
  · split at h
    · cases h
    · obtain ⟨encoded, -, hrest⟩ := bind_ok.mp h
      obtain ⟨context, hcontext, hrest⟩ := bind_ok.mp hrest
      obtain ⟨result, hresult, -⟩ := bind_ok.mp hrest
      exact ⟨⟨context, hcontext⟩, ⟨result, hresult⟩⟩

theorem finish_checked {s : RecoveryStore} {now : ℚ} {recoveryId : String} {success stored : Bool}
    {owner token : String} {result error : Option Json}
    (h : (finish codec s now recoveryId success owner token result error).2 = .ok stored) :
    ∃ document, serializeSnapshot codec "result" (if success then result else error) = .ok document := by
  unfold finish at h
  split at h
  · cases h
  · split at h
    · cases h
    · cases hsnapshot : serializeSnapshot codec "result" (if success then result else error) with
      | error message =>
        rw [hsnapshot] at h
        cases h
      | ok document => exact ⟨document, rfl⟩

theorem Accepted.checked (h : Accepted floats codec tree) :
    tree = .null ∨ checkArgs codec.wide 0 tree = .ok () := by
  cases h with
  | arguments step document h => exact Or.inr (serializeToolStep_ok.mp h).1.arguments
  | context s s' now recoveryId step args _ htree h =>
    obtain ⟨⟨document, hcontext⟩, -⟩ := put_checked h
    rw [htree] at hcontext
    exact serializeSnapshot_checked hcontext
  | result s s' now recoveryId step args _ htree h =>
    obtain ⟨-, document, hresult⟩ := put_checked h
    rw [htree] at hresult
    exact serializeSnapshot_checked hresult
  | outcome s now recoveryId success owner token result error stored _ htree h =>
    obtain ⟨document, hresult⟩ := finish_checked h
    rw [htree] at hresult
    exact serializeSnapshot_checked hresult

theorem checked_key (hkey : HasKey k tree) : ∀ depth, checkArgs wide depth tree = .ok () →
    secretKey wide k = false := by
  induction hkey with
  | own h =>
    intro depth hcheck
    obtain ⟨-, -, hentries⟩ := checkArgs_obj.mp hcheck
    exact (hentries _ h).2.1
  | entry he _ ih =>
    intro depth hcheck
    obtain ⟨-, -, hentries⟩ := checkArgs_obj.mp hcheck
    exact ih (depth + 1) (hentries _ he).2.2
  | item hx _ ih =>
    intro depth hcheck
    obtain ⟨-, -, hitems⟩ := checkArgs_arr.mp hcheck
    exact ih (depth + 1) (hitems _ hx)

theorem Accepted.key (h : Accepted floats codec tree) (hkey : HasKey k tree) :
    secretKey codec.wide k = false := by
  obtain rfl | hcheck := h.checked
  · cases hkey
  · exact checked_key hkey 0 hcheck

theorem HasKey.flat {kvs : List (String × Json)} (hflat : ∀ e ∈ kvs, ∀ name, ¬ HasKey name e.2)
    (h : HasKey k (.obj kvs)) : k ∈ kvs.map Prod.fst := by
  cases h with
  | own h => exact List.mem_map_of_mem h
  | entry he h => exact absurd h (hflat _ he k)

end Checked

/-! ## Which names the check misses -/

section Names

variable {wide : String → String} {key : String}

theorem lower_name {name : String} (h : name.toList.all (fun c => c.toNat < 128) = true) :
    PyStr.lower wide name = PyStr.lowerAscii name := by
  unfold PyStr.lower
  rw [if_pos h]

theorem normalNames : secretKeys.map (fun name => (normalName wide name).toList) =
    ["authorization".toList, "token".toList, "access_token".toList, "api_key".toList, "apikey".toList,
      "password".toList, "secret".toList, "cookie".toList, "set_cookie".toList] := by
  have hascii : ∀ name ∈ secretKeys, name.toList.all (fun c => c.toNat < 128) = true := by decide +kernel
  have hlower : secretKeys.map (fun name => (normalName wide name).toList) =
      secretKeys.map (fun name => (PyStr.replaceChar '-' '_' (PyStr.lowerAscii name)).toList) := by
    refine List.map_congr_left fun name hname => ?_
    show (PyStr.replaceChar '-' '_' (PyStr.lower wide name)).toList = _
    rw [lower_name (hascii name hname)]
  rw [hlower]
  decide +kernel

theorem infix_of_replaced {part cs : List Char} (hpart : '_' ∉ part)
    (h : part <:+: cs.map (fun x => if x = '-' then '_' else x)) : part <:+: cs := by
  obtain ⟨before, after, heq⟩ := h
  obtain ⟨left, right, rfl, hleft, -⟩ := List.map_eq_append_iff.mp heq.symm
  obtain ⟨first, middle, rfl, -, hmiddle⟩ := List.map_eq_append_iff.mp hleft
  refine ⟨first, right, ?_⟩
  have hkept : middle.map (fun x => if x = '-' then '_' else x) = middle := by
    conv_rhs => rw [← List.map_id middle]
    refine List.map_congr_left fun x hx => ?_
    show (if x = '-' then '_' else x) = x
    by_cases hdash : x = '-'
    · refine absurd ?_ hpart
      rw [← hmiddle, List.mem_map]
      exact ⟨x, hx, if_pos hdash⟩
    · exact if_neg hdash
  rw [← hmiddle, hkept]

theorem part_found {part : String} {before : List Char}
    (hpart : part ∈ ["token", "secret", "password", "authorization"]) (hkey : secretKey wide key = false) :
    (normalName wide key).toList ≠ before ++ part.toList := by
  intro heq
  have hplain : '_' ∉ part.toList := by
    have hall : ∀ p ∈ ["token", "secret", "password", "authorization"], '_' ∉ p.toList := by decide +kernel
    exact hall part hpart
  have hreplaced : part.toList <:+: (PyStr.lower wide key).toList.map (fun x => if x = '-' then '_' else x) := by
    have hnormal : (normalName wide key).toList =
        (PyStr.lower wide key).toList.map (fun x => if x = '-' then '_' else x) := String.toList_ofList
    rw [← hnormal, heq]
    exact (List.suffix_append _ _).isInfix
  have hfound : PyStr.contains (PyStr.lower wide key) part = true :=
    PyStr.contains_iff.mpr (infix_of_replaced hplain hreplaced)
  have hlisted : part ∈ ["token", "secret", "password", "authorization", "api_key"] := by
    have hall : ∀ p ∈ ["token", "secret", "password", "authorization"],
        p ∈ ["token", "secret", "password", "authorization", "api_key"] := by decide
    exact hall part hpart
  unfold secretKey at hkey
  rw [decide_eq_false_iff_not] at hkey
  exact hkey (Or.inr (List.any_eq_true.mpr ⟨part, hlisted, hfound⟩))

/-- The ends that a key may have and pass the check. -/
def missedEnds : List String := ["_cookie", "_apikey", "_api_key"]

theorem missed_names {last : String} (hlast : last ∈ missedEnds) :
    ∃ name ∈ ["api_key".toList, "apikey".toList, "cookie".toList], last.toList = '_' :: name := by
  have hall : ∀ l ∈ missedEnds, ∃ name ∈ ["api_key".toList, "apikey".toList, "cookie".toList],
      l.toList = '_' :: name := by decide +kernel
  exact hall last hlast

theorem namesCredential_iff (hkey : secretKey wide key = false) :
    NamesCredential wide key ↔ PyStr.endsWithAny (normalName wide key) missedEnds = true := by
  have hwhole : normalName wide key ∉ secretKeys := by
    unfold secretKey at hkey
    rw [decide_eq_false_iff_not] at hkey
    exact fun h => hkey (Or.inl h)
  have hends (last : String) (before : List Char) (hlast : last ∈ missedEnds)
      (heq : (normalName wide key).toList = before ++ last.toList) :
      PyStr.endsWithAny (normalName wide key) missedEnds = true := by
    unfold PyStr.endsWithAny
    refine List.any_eq_true.mpr ⟨last, hlast, ?_⟩
    rw [List.isSuffixOf_iff_suffix, heq]
    exact List.suffix_append _ _
  -- a prefix of a listed name that ends in `_` leaves `_` and the name at the end
  have hprefixed (name last : String) (before : List Char) (hname : name ∈ secretKeys)
      (hlast : last ∈ missedEnds) (hunder : last.toList = '_' :: name.toList)
      (hbefore : before = [] ∨ before.getLast? = some '_')
      (heq : (normalName wide key).toList = before ++ name.toList) :
      PyStr.endsWithAny (normalName wide key) missedEnds = true := by
    obtain rfl | hbefore := hbefore
    · refine absurd ?_ hwhole
      rw [String.toList_injective (heq : _ = name.toList)]
      exact hname
    · obtain ⟨front, rfl⟩ := List.getLast?_eq_some_iff.mp hbefore
      refine hends last front hlast ?_
      rw [heq, hunder, List.append_assoc]
      rfl
  constructor
  · intro ⟨name, hname, before, hbefore, heq⟩
    have hnormal : (normalName wide name).toList ∈ secretKeys.map (fun n => (normalName wide n).toList) :=
      List.mem_map_of_mem hname
    rw [normalNames] at hnormal
    simp only [List.mem_cons, List.not_mem_nil, or_false] at hnormal
    obtain h | h | h | h | h | h | h | h | h := hnormal <;> rw [h] at heq
    · exact absurd heq (part_found (by decide) hkey)
    · exact absurd heq (part_found (by decide) hkey)
    · have htoken : "access_token".toList = "access_".toList ++ "token".toList := by decide +kernel
      rw [htoken, ← List.append_assoc] at heq
      exact absurd heq (part_found (by decide) hkey)
    · exact hprefixed "api_key" "_api_key" before (by decide) (by decide) (by decide +kernel) hbefore heq
    · exact hprefixed "apikey" "_apikey" before (by decide) (by decide) (by decide +kernel) hbefore heq
    · exact absurd heq (part_found (by decide) hkey)
    · exact absurd heq (part_found (by decide) hkey)
    · exact hprefixed "cookie" "_cookie" before (by decide) (by decide) (by decide +kernel) hbefore heq
    · have hcookie : "set_cookie".toList = "set".toList ++ "_cookie".toList := by decide +kernel
      rw [hcookie, ← List.append_assoc] at heq
      exact hends "_cookie" (before ++ "set".toList) (by decide) heq
  · intro h
    unfold PyStr.endsWithAny at h
    obtain ⟨last, hlast, hsuffix⟩ := List.any_eq_true.mp h
    obtain ⟨before, heq⟩ := List.isSuffixOf_iff_suffix.mp hsuffix
    obtain ⟨name, hname, hunder⟩ := missed_names hlast
    have hlisted : name ∈ secretKeys.map (fun n => (normalName wide n).toList) := by
      have hall : ∀ n ∈ ["api_key".toList, "apikey".toList, "cookie".toList],
          n ∈ ["authorization".toList, "token".toList, "access_token".toList, "api_key".toList,
            "apikey".toList, "password".toList, "secret".toList, "cookie".toList, "set_cookie".toList] := by
        decide +kernel
      rw [normalNames]
      exact hall name hname
    obtain ⟨listed, hmem, rfl⟩ := List.mem_map.mp hlisted
    refine ⟨listed, hmem, before ++ ['_'], Or.inr (by simp), ?_⟩
    rw [← heq, hunder, List.append_assoc]
    rfl

end Names

/-- No key of a tree that the store takes names a credential, exactly where none ends, in the
form in which names are compared, as a cookie or an API key behind a prefix. -/
theorem no_credential_persisted {floats : Floats} {codec : RecoveryCodec} {tree : Json}
    (h : Accepted floats codec tree) :
    (∀ key, HasKey key tree → ¬ NamesCredential codec.wide key) ↔
      ∀ key, HasKey key tree → PyStr.endsWithAny (normalName codec.wide key) missedEnds = false := by
  have hkeys (key : String) (hkey : HasKey key tree) : ¬ NamesCredential codec.wide key ↔
      PyStr.endsWithAny (normalName codec.wide key) missedEnds = false := by
    rw [namesCredential_iff (h.key hkey), Bool.not_eq_true]
  exact ⟨fun hnone key hkey => (hkeys key hkey).mp (hnone key hkey),
    fun hnone key hkey => (hkeys key hkey).mpr (hnone key hkey)⟩

/-- A step with a query and a limit is taken, and its keys name no credential. -/
theorem no_credential_persisted_search :
    HasKey "q" (.obj searchStep.arguments) ∧ ¬ NamesCredential (fun s => s) "q" := by
  let codec := textCodec ratioFloats (fun s => s) (fun _ => .ok "{}") (fun _ => .error "")
  have hok : (serializeToolStep ratioFloats (fun s => s) searchStep).isOk = true := by decide +kernel
  cases hstep : serializeToolStep ratioFloats (fun s => s) searchStep with
  | error message =>
    rw [hstep] at hok
    cases hok
  | ok document =>
    have haccepted : Accepted ratioFloats codec (.obj searchStep.arguments) := .arguments searchStep document hstep
    have hquery : HasKey "q" (.obj searchStep.arguments) := 
      .own (show ("q", Json.str "x") ∈ searchStep.arguments by decide)
    refine ⟨hquery, (no_credential_persisted haccepted).mpr (fun key hkey => ?_) "q" hquery⟩
    have hends : ∀ name ∈ searchStep.arguments.map Prod.fst,
        PyStr.endsWithAny (normalName (fun s => s) name) missedEnds = false := by decide +kernel
    -- the values are a text and a number: they have no keys
    have hvalues : ∀ e ∈ searchStep.arguments, e.2 = .str "x" ∨ e.2 = .int 5 := by decide
    refine hends key (hkey.flat fun e he name hname => ?_)
    obtain hvalue | hvalue := hvalues e he
    · rw [hvalue] at hname
      cases hname
    · rw [hvalue] at hname
      cases hname

/-! ## A cookie that is kept -/

/-- The answer of a web service, with its headers. -/
def answerTree : Json := .obj [("headers", .obj [("Set-Cookie", .str "sid=1")])]

/-- The context of a marker with the headers of an answer in it is stored, and the cookie is in
it. -/
theorem cookie_persisted :
    ¬ ∀ (floats : Floats) (codec : RecoveryCodec) (tree : Json), Accepted floats codec tree →
      ∀ key, HasKey key tree → ¬ NamesCredential codec.wide key := by
  intro hclaim
  let codec := textCodec ratioFloats (fun s => s) (fun _ => .ok "{}") (fun _ => .error "")
  let args : PutArgs :=
    { nextAttemptAt := none
      expiresAt := none
      scope := ⟨none, none, none, none⟩
      planHash := none
      contextSnapshot := some answerTree
      result := none }
  have hput : (put codec Dict.empty 0 "r1" searchStep.planStep args).isOk = true := by decide +kernel
  cases hstored : put codec Dict.empty 0 "r1" searchStep.planStep args with
  | error message =>
    rw [hstored] at hput
    cases hput
  | ok s' =>
    have haccepted : Accepted ratioFloats codec answerTree := .context _ _ _ _ _ _ _ rfl hstored
    have hkey : HasKey "Set-Cookie" answerTree := .entry (List.mem_singleton.mpr rfl) (.own (List.mem_singleton.mpr rfl))
    refine hclaim ratioFloats codec answerTree haccepted "Set-Cookie" hkey ⟨"set-cookie", by decide, [], Or.inl rfl, ?_⟩
    decide +kernel

end Recovery

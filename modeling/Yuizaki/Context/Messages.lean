import Yuizaki.Prompt.Values
import Yuizaki.Lib.Bisect
import Mathlib.Data.List.Forall2
import Mathlib.Data.List.Infix
import Mathlib.Algebra.GroupWithZero.Nat

/- Messages of a conversation, their tokens, and the truncation of one of them.

   A block keeps the members that the window reads: `type`, `text` and `content`, each where it
   is a text, and the others as they are. The estimator is a parameter: what the encoder, or the
   heuristic without one, makes of a text that is not empty. Budgets are naturals, and
   `max(0, a - b)` is their subtraction. -/
namespace Context

open Prompt (Text joinWith)

/-! ## Messages -/

structure Block where
  kind : Option Text
  text : Option Text
  content : Option Text
  others : Prompt.Members

inductive Content where
  | text (s : Text)
  | blocks (bs : List Block)

structure ChatMessage where
  role : Text
  content : Content

/-- The content as it comes in: what is no object among the blocks is `none`. -/
inductive RawContent where
  | text (s : Text)
  | blocks (bs : List (Option Block))

structure RawMessage where
  role : Option Text
  content : Option RawContent

/-- `block.get("type") == "text" and isinstance(block.get("text"), str)` -/
def Block.isText (b : Block) : Bool := decide (b.kind = some "text".toList) && b.text.isSome

/-- `block.get("type") in {"image_url", "image"}` -/
def Block.isImage (b : Block) : Bool :=
  decide (b.kind = some "image_url".toList) || decide (b.kind = some "image".toList)

/-- What a block gives to the text of its message. -/
def Block.part (b : Block) : Text := if b.isText then b.text.getD [] else b.content.getD []

def parts (bs : List Block) : List Text := (bs.map Block.part).filter fun part => !part.isEmpty

def messageContentToText : Content → Text
  | .text s => s
  | .blocks bs => joinWith ['\n'] (parts bs)

def normalizeContent : RawContent → Content
  | .text s => .text s
  | .blocks bs => .blocks (bs.filterMap id)

def normalizeMessages (messages : List RawMessage) : List ChatMessage :=
  messages.map fun m =>
    ⟨m.role.getD "user".toList, normalizeContent (m.content.getD (.text []))⟩

/-! ## Tokens -/

/-- The estimator, on texts that are not empty. -/
structure TokenEstimator where
  encode : Text → ℕ

namespace TokenEstimator

variable (est : TokenEstimator)

def countText (text : Text) : ℕ := if text.isEmpty then 0 else est.encode text

/-- `count_content`: an image has a size of its own. -/
def countContent : Content → ℕ
  | .text s => est.countText s
  | .blocks bs => est.countText (messageContentToText (.blocks bs)) + 1024 * bs.countP Block.isImage

def countMessage (message : ChatMessage) : ℕ :=
  4 + est.countText message.role + est.countContent message.content + 2

def countMessages (messages : List ChatMessage) : ℕ := (messages.map est.countMessage).sum

/-! ## Truncation -/

/-- `truncate_message_to_budget`, of a plain message. -/
def truncateText (role text : Text) (budget : ℕ) : Text :=
  if est.countMessage ⟨role, .text text⟩ ≤ budget then text
  else text.take (Bisect.search (fun mid => est.countMessage ⟨role, .text (text.take mid)⟩ ≤ budget)
    (text.length + 1) 0 text.length 0)

def truncateBlock (role : Text) (budget : ℕ) (b : Block) : Block :=
  if b.isText then { b with text := b.text.map fun text => est.truncateText role text budget } else b

/-- What the images of a message leave of a budget. -/
def textBudget (role : Text) (bs : List Block) (budget : ℕ) : ℕ :=
  budget - est.countMessage ⟨role, .blocks (bs.filter Block.isImage)⟩

def truncateMessageToBudget (message : ChatMessage) (budget : ℕ) : ChatMessage :=
  match message.content with
  | .text text => ⟨message.role, .text (est.truncateText message.role text budget)⟩
  | .blocks bs =>
    if est.countMessage message ≤ budget then message
    else ⟨message.role, .blocks (bs.map (est.truncateBlock message.role (est.textBudget message.role bs budget)))⟩

end TokenEstimator

/-! ## What truncation keeps -/

/-- A block, or the block with a prefix of its text. -/
inductive Block.Cut : Block → Block → Prop
  | whole (b : Block) : Cut b b
  | text {b : Block} {s t : Text} (htext : b.isText = true) (hs : b.text = some s) (ht : t <+: s) :
      Cut b { b with text := some t }

/-- A content, or its texts cut to prefixes. -/
inductive Content.Cut : Content → Content → Prop
  | text {s t : Text} (ht : t <+: s) : Cut (.text s) (.text t)
  | blocks {bs cs : List Block} (h : List.Forall₂ Block.Cut bs cs) : Cut (.blocks bs) (.blocks cs)

/-- A message, or the message with its texts cut to prefixes. -/
structure ChatMessage.Cut (m n : ChatMessage) : Prop where
  role : n.role = m.role
  content : m.content.Cut n.content

theorem Block.Cut.trans {b c d : Block} (h₁ : b.Cut c) (h₂ : c.Cut d) : b.Cut d := by
  cases h₁ with
  | whole => exact h₂
  | text htext hs ht =>
    cases h₂ with
    | whole => exact .text htext hs ht
    | text _ hs₂ ht₂ =>
      obtain rfl := Option.some.inj hs₂
      exact .text htext hs (ht₂.trans ht)

theorem forall₂_trans {bs cs ds : List Block} (h₁ : List.Forall₂ Block.Cut bs cs)
    (h₂ : List.Forall₂ Block.Cut cs ds) : List.Forall₂ Block.Cut bs ds := by
  induction h₁ generalizing ds with
  | nil => exact h₂
  | cons hhead _ ih =>
    cases h₂ with
    | cons hhead₂ htail₂ => exact .cons (hhead.trans hhead₂) (ih htail₂)

theorem Content.Cut.trans {c d e : Content} (h₁ : c.Cut d) (h₂ : d.Cut e) : c.Cut e := by
  cases h₁ with
  | text ht =>
    cases h₂ with
    | text ht₂ => exact .text (ht₂.trans ht)
  | blocks h =>
    cases h₂ with
    | blocks h₂ => exact .blocks (forall₂_trans h h₂)

theorem ChatMessage.Cut.trans {m n o : ChatMessage} (h₁ : m.Cut n) (h₂ : n.Cut o) : m.Cut o :=
  ⟨h₂.role.trans h₁.role, h₁.content.trans h₂.content⟩

theorem Content.Cut.refl : (c : Content) → c.Cut c
  | .text s => .text (List.prefix_refl s)
  | .blocks bs => .blocks (List.forall₂_same.mpr fun b _ => .whole b)

theorem ChatMessage.Cut.refl (m : ChatMessage) : m.Cut m := ⟨rfl, .refl m.content⟩

namespace TokenEstimator

variable (est : TokenEstimator)

theorem truncateText_begins (role text : Text) (budget : ℕ) : est.truncateText role text budget <+: text := by
  unfold truncateText
  by_cases h : est.countMessage ⟨role, .text text⟩ ≤ budget
  · rw [if_pos h]
  · rw [if_neg h]
    exact List.take_prefix _ _

theorem truncateBlock_cut (role : Text) (budget : ℕ) (b : Block) : b.Cut (est.truncateBlock role budget b) := by
  unfold truncateBlock
  by_cases htext : b.isText = true
  · rw [if_pos htext]
    have hsome : b.text.isSome = true := (Bool.and_eq_true_iff.mp htext).2
    obtain ⟨s, hs⟩ := Option.isSome_iff_exists.mp hsome
    rw [hs, Option.map_some]
    exact .text htext hs (truncateText_begins est role s budget)
  · rw [if_neg htext]
    exact .whole b

theorem truncate_cut (m : ChatMessage) (budget : ℕ) : m.Cut (est.truncateMessageToBudget m budget) := by
  obtain ⟨role, content⟩ := m
  cases content with
  | text s => exact ⟨rfl, .text (truncateText_begins est role s budget)⟩
  | blocks bs =>
    unfold truncateMessageToBudget
    by_cases h : est.countMessage ⟨role, .blocks bs⟩ ≤ budget
    · dsimp only
      rw [if_pos h]
      exact .refl _
    · dsimp only
      rw [if_neg h]
      exact ⟨rfl, .blocks (List.forall₂_map_right_iff.mpr (List.forall₂_same.mpr fun b _ => truncateBlock_cut est role _ b))⟩

/-! ## What truncation fits -/

theorem truncateText_fits (role text : Text) (budget : ℕ) :
    est.truncateText role text budget = [] ∨
      est.countMessage ⟨role, .text (est.truncateText role text budget)⟩ ≤ budget := by
  unfold truncateText
  by_cases h : est.countMessage ⟨role, .text text⟩ ≤ budget
  · rw [if_pos h]
    exact Or.inr h
  · rw [if_neg h]
    obtain hnone | hfits := @Bisect.search_fits
      (fun mid => decide (est.countMessage ⟨role, .text (text.take mid)⟩ ≤ budget)) (text.length + 1) 0 text.length 0
    · rw [hnone]
      exact Or.inl rfl
    · exact Or.inr (of_decide_eq_true hfits)

/-- A prefix has no more tokens than the whole. -/
def Monotone : Prop := ∀ s t : Text, s <+: t → est.countText s ≤ est.countText t

end TokenEstimator

def Block.bare (b : Block) : Block := if b.isText then { b with text := some [] } else b

def Content.bare : Content → Content
  | .text _ => .text []
  | .blocks bs => .blocks (bs.map Block.bare)

def ChatMessage.bare (m : ChatMessage) : ChatMessage := ⟨m.role, m.content.bare⟩

/-- One text at most, and it is a text that truncation can cut. -/
def Content.Single : Content → Prop
  | .text _ => True
  | .blocks bs => (parts bs).length ≤ 1 ∧ ∀ b ∈ bs, b.isText = false → b.part = []

theorem Block.isText_of_text {b : Block} (s : Text) (h : b.isText = true) :
    Block.isText { b with text := some s } = true := by
  unfold Block.isText at h ⊢
  rw [Bool.and_eq_true] at h ⊢
  exact ⟨h.1, rfl⟩

theorem Block.part_bare {b : Block} (h : b.isText = false → b.part = []) : b.bare.part = [] := by
  unfold Block.bare
  by_cases htext : b.isText = true
  · rw [if_pos htext, Block.part, if_pos (isText_of_text [] htext)]
    rfl
  · rw [if_neg htext]
    exact h (eq_false_of_ne_true htext)

theorem Block.isImage_bare (b : Block) : b.bare.isImage = b.isImage := by
  unfold Block.bare
  cases b.isText <;> rfl

theorem mem_parts {bs : List Block} {p : Text} : p ∈ parts bs ↔ (∃ b ∈ bs, b.part = p) ∧ p ≠ [] := by
  unfold parts
  simp

theorem text_of_parts {bs : List Block} (h : (parts bs).length ≤ 1) :
    messageContentToText (.blocks bs) = [] ∨ messageContentToText (.blocks bs) ∈ parts bs := by
  show joinWith ['\n'] (parts bs) = [] ∨ joinWith ['\n'] (parts bs) ∈ parts bs
  generalize parts bs = ps at h ⊢
  match ps, h with
  | [], _ => exact Or.inl rfl
  | [p], _ =>
    right
    simp [joinWith]

namespace TokenEstimator

variable (est : TokenEstimator)

theorem part_truncateBlock (role : Text) (budget : ℕ) {b : Block} (h : b.isText = false → b.part = []) :
    (est.truncateBlock role budget b).part = est.truncateText role b.part budget := by
  unfold truncateBlock
  by_cases htext : b.isText = true
  · have hsome : b.text.isSome = true := (Bool.and_eq_true_iff.mp htext).2
    obtain ⟨s, hs⟩ := Option.isSome_iff_exists.mp hsome
    rw [if_pos htext, hs, Option.map_some, Block.part, if_pos (Block.isText_of_text _ htext), Block.part,
      if_pos htext, hs]
    rfl
  · have hempty := h (eq_false_of_ne_true htext)
    rw [if_neg htext, hempty]
    exact (List.prefix_nil.mp (truncateText_begins est role [] budget)).symm

theorem isImage_truncateBlock (role : Text) (budget : ℕ) (b : Block) :
    (est.truncateBlock role budget b).isImage = b.isImage := by
  unfold truncateBlock
  cases b.isText <;> rfl

theorem length_parts_truncate (role : Text) (budget : ℕ) {bs : List Block}
    (h : ∀ b ∈ bs, b.isText = false → b.part = []) :
    (parts (bs.map (est.truncateBlock role budget))).length ≤ (parts bs).length := by
  unfold parts
  rw [← List.countP_eq_length_filter, ← List.countP_eq_length_filter, List.countP_map, List.countP_map,
    List.countP_map]
  apply List.countP_mono_left
  intro b hb hpart
  have hcut := truncateText_begins est role b.part budget
  simp only [Function.comp, part_truncateBlock est role budget (h b hb)] at hpart ⊢
  cases hempty : b.part with
  | nil =>
    rw [hempty] at hpart hcut
    rw [List.prefix_nil.mp hcut] at hpart
    exact hpart
  | cons c rest => rfl

theorem countMessage_bare {role : Text} {content : Content} (h : content.Single) :
    est.countMessage (ChatMessage.bare ⟨role, content⟩) =
      match content with
      | .text _ => 4 + est.countText role + 2
      | .blocks bs => 4 + est.countText role + 1024 * bs.countP Block.isImage + 2 := by
  cases content with
  | text s => rfl
  | blocks bs =>
    have hparts : parts (bs.map Block.bare) = [] := by
      rw [List.eq_nil_iff_forall_not_mem]
      intro p hp
      obtain ⟨⟨c, hc, hpart⟩, hp⟩ := mem_parts.mp hp
      obtain ⟨b, hb, rfl⟩ := List.mem_map.mp hc
      exact hp (hpart.symm.trans (Block.part_bare (h.2 b hb)))
    have hcount : (bs.map Block.bare).countP Block.isImage = bs.countP Block.isImage := by
      rw [List.countP_map]
      congr 1
      funext b
      exact Block.isImage_bare b
    show 4 + est.countText role + (est.countText (joinWith ['\n'] (parts (bs.map Block.bare))) +
      1024 * (bs.map Block.bare).countP Block.isImage) + 2 = _
    rw [hparts, hcount]
    show 4 + est.countText role + (0 + _) + 2 = 4 + est.countText role + _ + 2
    rw [Nat.zero_add]

theorem truncate_single {m : ChatMessage} (budget : ℕ) (h : m.content.Single) :
    est.countMessage (est.truncateMessageToBudget m budget) ≤ budget ∨
      messageContentToText (est.truncateMessageToBudget m budget).content = [] ∧
        est.countMessage (est.truncateMessageToBudget m budget) = est.countMessage m.bare := by
  obtain ⟨role, content⟩ := m
  rw [countMessage_bare est h]
  cases content with
  | text s =>
    obtain hempty | hfits := truncateText_fits est role s budget
    · refine Or.inr ⟨hempty, ?_⟩
      show 4 + est.countText role + est.countText (est.truncateText role s budget) + 2 = _
      rw [hempty]
      rfl
    · exact Or.inl hfits
  | blocks bs =>
    unfold truncateMessageToBudget
    by_cases hbudget : est.countMessage ⟨role, .blocks bs⟩ ≤ budget
    · dsimp only
      rw [if_pos hbudget]
      exact Or.inl hbudget
    · dsimp only
      rw [if_neg hbudget]
      have himages : (bs.map (est.truncateBlock role (est.textBudget role bs budget))).countP Block.isImage =
          bs.countP Block.isImage := by
        rw [List.countP_map]
        congr 1
        funext b
        exact isImage_truncateBlock est role _ b
      have hlength := (length_parts_truncate est role (est.textBudget role bs budget) h.2).trans h.1
      obtain hempty | hmem := text_of_parts hlength
      · refine Or.inr ⟨hempty, ?_⟩
        show 4 + est.countText role + (est.countText (messageContentToText _) + 1024 * List.countP Block.isImage _) + 2 = _
        rw [hempty, himages]
        show 4 + est.countText role + (0 + _) + 2 = _
        omega
      · -- what is left of the one text fits what the images leave
        left
        obtain ⟨⟨c, hc, hpart⟩, hne⟩ := mem_parts.mp hmem
        obtain ⟨b, hb, rfl⟩ := List.mem_map.mp hc
        rw [part_truncateBlock est role _ (h.2 b hb)] at hpart
        have hfits : est.countMessage ⟨role, .text (messageContentToText
            (.blocks (bs.map (est.truncateBlock role (est.textBudget role bs budget)))))⟩ ≤ est.textBudget role bs budget := by
          obtain hnone | hfits := truncateText_fits est role b.part (est.textBudget role bs budget)
          · exact absurd (hpart.symm.trans hnone) hne
          · rw [hpart] at hfits
            exact hfits
        have hcounted : (bs.filter Block.isImage).countP Block.isImage = bs.countP Block.isImage := by
          rw [List.countP_filter]
          congr 1
          funext b
          exact Bool.and_self _
        unfold textBudget at hfits himages ⊢
        simp only [countMessage, countContent] at hfits himages ⊢
        rw [hcounted] at hfits himages ⊢
        rw [himages]
        omega

end TokenEstimator

end Context

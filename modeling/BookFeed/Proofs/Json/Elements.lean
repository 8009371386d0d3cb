import BookFeed.Proofs.Json.Grammar
import Mathlib.Data.List.Forall2

/-!
# The elements of the text of an array

An array is written as the texts of its elements, with commas between them and blanks around them,
between brackets. Each element is a JSON text of its own, and read alone it gives the tree that it
gives inside the array.

* **`exists_elements`**: every text of an array has elements;
* **`document_of_elements`**: a text with these elements is read as the array of their trees.
-/

namespace BookFeed.Json

variable {text element : String} {elements : List String} {padded : List (List Char)}
  {items : List Json} {tree : Json}

/-- A text that holds one tree, without a fault. -/
def IsText (text : String) : Prop :=
  (document text).complete = true ∧ (document text).tree.isSound = true

instance (text : String) : Decidable (IsText text) := inferInstanceAs (Decidable (_ ∧ _))

/-- The text of an element, with blanks around it. -/
def Pads (element : String) (padded : List Char) : Prop :=
  ∃ before after, Blank before ∧ Blank after ∧ padded = before ++ (element.toList ++ after)

/-- The text of an array with these elements. -/
structure IsArrayOf (text : String) (elements : List String) : Prop where
  isText : ∀ e ∈ elements, IsText e
  spelled : ∃ before gap after padded, Blank before ∧ Blank gap ∧ Blank after ∧
    List.Forall₂ Pads elements padded ∧
    text.toList = before ++ ('[' :: (gap ++ joined padded ++ [']']) ++ after)

/-! ## Elements of texts -/

theorem readLeaf_ne_array {cs rest : List Char} : readLeaf cs ≠ (array items, rest) := by
  unfold readLeaf
  split <;> split <;> simp

theorem isText_of_spells {cs : List Char} (h : Spells tree cs) : IsText (String.ofList cs) := by
  have hpiece : ∃ p : Piece, p.Spaced ∧ Spells p.tree p.text ∧ p.tree = tree ∧
      p.padded = (String.ofList cs).toList :=
    ⟨⟨[], cs, [], tree⟩, ⟨by simp [Blank], by simp [Blank]⟩, h, rfl, by simp [Piece.padded]⟩
  obtain ⟨hcomplete, htree, hsound⟩ := document_iff.mpr hpiece
  exact ⟨hcomplete, htree ▸ hsound⟩

/-- **Every text of an array has elements.** -/
theorem exists_elements (htext : IsText text) (harray : (document text).tree = array items) :
    ∃ elements, IsArrayOf text elements := by
  obtain ⟨p, hp, hspells, htree, hpadded⟩ := document_iff.mp ⟨htext.1, rfl, htext.2⟩
  rw [htree, harray] at hspells
  obtain ⟨before, body, after, tree⟩ := p
  cases hspells with
  | leaf h _ => exact absurd h readLeaf_ne_array
  | @array gap pieces hgap hspaced h =>
    refine ⟨pieces.map fun q => String.ofList q.text, ?_, before, gap, after,
      pieces.map (·.padded), hp.before, hgap, hp.after, ?_, ?_⟩
    · intro e he
      obtain ⟨q, hq, rfl⟩ := List.mem_map.mp he
      exact isText_of_spells (h q hq)
    · rw [List.forall₂_map_left_iff, List.forall₂_map_right_iff, List.forall₂_same]
      exact fun q hq => ⟨q.before, q.after, (hspaced q hq).before, (hspaced q hq).after, by
        simp [Piece.padded]⟩
    · rw [← hpadded, Piece.padded, List.append_assoc]

/-! ## Texts of elements -/

/-- Elements with blanks around them as pieces. -/
theorem exists_pieces (h : List.Forall₂ Pads elements padded) (htext : ∀ e ∈ elements, IsText e) :
    ∃ pieces : List Piece, pieces.map (·.padded) = padded ∧
      pieces.map (·.tree) = elements.map (fun e => (document e).tree) ∧
      ∀ p ∈ pieces, p.Spaced ∧ Spells p.tree p.text := by
  induction h with
  | nil => exact ⟨[], rfl, rfl, by simp⟩
  | @cons e cs elements padded hpads _ ih =>
    obtain ⟨before, after, hbefore, hafter, rfl⟩ := hpads
    have he := htext e List.mem_cons_self
    obtain ⟨p, hp, hspells, htree, hpadded⟩ := document_iff.mp ⟨he.1, rfl, he.2⟩
    obtain ⟨pieces, hmap, htrees, hall⟩ := ih fun e' he' => htext e' (List.mem_cons_of_mem e he')
    refine ⟨⟨before ++ p.before, p.text, p.after ++ after, p.tree⟩ :: pieces, ?_, ?_, ?_⟩
    · rw [List.map_cons, hmap, ← hpadded]
      simp [Piece.padded]
    · rw [List.map_cons, List.map_cons, htrees, htree]
    · refine List.forall_mem_cons.mpr ⟨⟨⟨?_, ?_⟩, hspells⟩, hall⟩
      · exact List.forall_mem_append.mpr ⟨hbefore, hp.before⟩
      · exact List.forall_mem_append.mpr ⟨hp.after, hafter⟩

/-- **A text with these elements is read as the array of their trees**, each of which is the tree of
the element alone. -/
theorem document_of_elements (h : IsArrayOf text elements) :
    (document text).complete = true ∧
      (document text).tree = array (elements.map fun e => (document e).tree) := by
  obtain ⟨before, gap, after, padded, hbefore, hgap, hafter, hpads, htext⟩ := h.spelled
  obtain ⟨pieces, rfl, htrees, hall⟩ := exists_pieces hpads h.isText
  rw [← htrees]
  have hspells := Spells.array hgap (fun p hp => (hall p hp).1) fun p hp => (hall p hp).2
  obtain ⟨hcomplete, htree, -⟩ := document_iff.mpr ⟨⟨before, _, after, _⟩, ⟨hbefore, hafter⟩,
    hspells, rfl, htext.symm⟩
  exact ⟨hcomplete, htree⟩

end BookFeed.Json

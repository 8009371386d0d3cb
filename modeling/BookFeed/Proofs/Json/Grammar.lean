import BookFeed.Json.Decode
import BookFeed.Proofs.Json.Leaves

/-!
# The grammar that the reader reads

`Spells` says of which texts a tree is the tree: a literal, a string or a number is spelled by what
the reader of leaves takes in one go, an array by its items between brackets and an object by its
fields between braces, with commas between them and blanks wherever they may stand. The reader takes
exactly such texts off the front of what it is given.

* **`takes_of_spells`**: it does take them, with as much fuel as twice the length of the text;
* **`read_sound`**: for a tree without a fault it takes nothing else, by induction on the fuel for
  trees, items and fields at once;
* **`document_iff`**: which texts are documents, and of which trees.
-/

namespace BookFeed.Json

variable {cs rest text before gap : List Char} {tree : Json} {n : Nat}

/-! ## Texts of trees -/

/-- The text of a tree as it stands in a larger one, with what stands around it. -/
structure Piece where
  before : List Char
  text : List Char
  after : List Char
  tree : Json

namespace Piece

def padded (p : Piece) : List Char := p.before ++ (p.text ++ p.after)

/-- Around it there are blanks only. -/
structure Spaced (p : Piece) : Prop where
  before : Blank p.before
  after : Blank p.after

end Piece

/-- The text of a field, with what stands around its key. -/
structure FieldPiece where
  beforeKey : List Char
  key : List Char
  afterKey : List Char
  value : Piece

namespace FieldPiece

def padded (f : FieldPiece) : List Char :=
  f.beforeKey ++ '"' :: (f.key ++ '"' :: (f.afterKey ++ ':' :: f.value.padded))

def field (f : FieldPiece) : List Char × Json := (f.key, f.value.tree)

/-- The key is a string, and around it and the value there are blanks only. -/
structure Spaced (f : FieldPiece) : Prop where
  beforeKey : Blank f.beforeKey
  key : ∀ rest, readString (f.key ++ '"' :: rest) = some (f.key, rest)
  afterKey : Blank f.afterKey
  value : f.value.Spaced

end FieldPiece

/-- Texts with commas between them. -/
def joined (texts : List (List Char)) : List Char := [','].intercalate texts

/-- The text spells the tree. -/
inductive Spells : Json → List Char → Prop
  | leaf {tree : Json} {text : List Char} (h : readLeaf text = (tree, []))
      (hsound : tree.isSound = true) : Spells tree text
  | array {gap : List Char} {pieces : List Piece} (hgap : Blank gap)
      (hspaced : ∀ p ∈ pieces, p.Spaced) (h : ∀ p ∈ pieces, Spells p.tree p.text) :
      Spells (.array (pieces.map (·.tree)))
        ('[' :: (gap ++ joined (pieces.map (·.padded)) ++ [']']))
  | object {gap : List Char} {fields : List FieldPiece} (hgap : Blank gap)
      (hspaced : ∀ f ∈ fields, f.Spaced) (h : ∀ f ∈ fields, Spells f.value.tree f.value.text) :
      Spells (.object (fields.map (·.field)))
        ('{' :: (gap ++ joined (fields.map (·.padded)) ++ ['}']))

@[simp] theorem joined_nil : joined [] = [] := rfl

@[simp] theorem joined_singleton (text : List Char) : joined [text] = text := by
  simp [joined, List.intercalate]

theorem joined_cons_cons (text text' : List Char) (texts : List (List Char)) :
    joined (text :: text' :: texts) = text ++ ',' :: joined (text' :: texts) := by
  simp [joined, List.intercalate_cons_cons]

theorem exists_joined (text : List Char) (texts : List (List Char)) :
    ∃ tail, joined (text :: texts) = text ++ tail := by
  cases texts with
  | nil => exact ⟨[], by simp⟩
  | cons text' texts => exact ⟨_, joined_cons_cons text text' texts⟩

/-- A tree begins with a character that is no blank and closes nothing. -/
theorem Spells.head (h : Spells tree text) :
    ∃ c cs, text = c :: cs ∧ isBlank c = false ∧ c ≠ ']' := by
  cases h with
  | leaf h hsound =>
    obtain ⟨c, cs, rfl, hc, -⟩ := readLeaf_local h hsound
    exact ⟨c, cs, by simp, hc.ne.1, hc.ne.2.2.1⟩
  | array => exact ⟨'[', _, rfl, by decide⟩
  | object => exact ⟨'{', _, rfl, by decide⟩

/-! ## Blanks -/

theorem skipBlanks_eq_self (h : ∀ c ∈ cs.head?, isBlank c = false) : skipBlanks cs = cs := by
  cases cs with
  | nil => rfl
  | cons c cs =>
    have hc : isBlank c = false := h c rfl
    simp [skipBlanks, hc]

@[simp] theorem skipBlanks_skipBlanks (cs : List Char) :
    skipBlanks (skipBlanks cs) = skipBlanks cs :=
  skipBlanks_eq_self (head?_dropWhile_false isBlank cs)

theorem skipBlanks_append (hbefore : Blank before) :
    skipBlanks (before ++ rest) = skipBlanks rest :=
  List.dropWhile_append_of_pos hbefore

theorem exists_skipBlanks (cs : List Char) :
    ∃ before, Blank before ∧ cs = before ++ skipBlanks cs :=
  ⟨cs.takeWhile isBlank, fun _ hc => List.mem_takeWhile_imp hc,
    List.takeWhile_append_dropWhile.symm⟩

theorem readFrom_skipBlanks (n : Nat) (cs : List Char) :
    readFrom n (skipBlanks cs) = readFrom n cs := by
  cases n <;> simp [readFrom]

theorem readItems_skipBlanks (n : Nat) (cs : List Char) :
    readItems n (skipBlanks cs) = readItems n cs := by
  cases n <;> simp [readItems, readFrom_skipBlanks]

theorem readFields_skipBlanks (n : Nat) (cs : List Char) :
    readFields n (skipBlanks cs) = readFields n cs := by
  cases n <;> simp [readFields]

/-! ## Turns of the reader -/

theorem readFrom_emptyArray {inner : List Char} (h : skipBlanks cs = '[' :: inner)
    (hend : skipBlanks inner = ']' :: rest) : readFrom (n + 1) cs = (array [], rest) := by
  rw [readFrom, h]
  simp only [hend]

theorem readFrom_array {inner : List Char} (h : skipBlanks cs = '[' :: inner)
    (hitem : ∀ rest, skipBlanks inner ≠ ']' :: rest) :
    readFrom (n + 1) cs = (array (readItems n inner).1, (readItems n inner).2) := by
  simp only [readFrom, h]
  rw [readItems_skipBlanks n inner]

theorem readFrom_emptyObject {inner : List Char} (h : skipBlanks cs = '{' :: inner)
    (hend : skipBlanks inner = '}' :: rest) : readFrom (n + 1) cs = (object [], rest) := by
  rw [readFrom, h]
  simp only [hend]

theorem readFrom_object {inner : List Char} (h : skipBlanks cs = '{' :: inner)
    (hfield : ∀ rest, skipBlanks inner ≠ '}' :: rest) :
    readFrom (n + 1) cs = (object (readFields n inner).1, (readFields n inner).2) := by
  simp only [readFrom, h]
  rw [readFields_skipBlanks n inner]

theorem readFrom_leaf (hopen : ∀ inner, skipBlanks cs ≠ '[' :: inner)
    (hbrace : ∀ inner, skipBlanks cs ≠ '{' :: inner) :
    readFrom (n + 1) cs = readLeaf (skipBlanks cs) := by
  rw [readFrom]
  split
  · exact absurd ‹_› (hopen _)
  · exact absurd ‹_› (hbrace _)
  · rfl

/-! ## What is read -/

/-- The reader takes the text off the front, with fuel for it, whatever ends it. -/
def Takes (tree : Json) (text : List Char) : Prop :=
  ∀ ⦃before rest : List Char⦄ ⦃n : Nat⦄, Blank before → Stops rest → 2 * text.length ≤ n →
    readFrom n (before ++ (text ++ rest)) = (tree, rest)

variable {p : Piece} {f : FieldPiece} {c : Char}

/-- A text with blanks around it is taken up to the character that ends the item. -/
theorem Takes.padded (h : Takes p.tree p.text) (hspaced : p.Spaced)
    (hc : c = ',' ∨ c = ']' ∨ c = '}') (hn : 2 * p.padded.length ≤ n) (rest : List Char) :
    ∃ rest', readFrom n (p.padded ++ c :: rest) = (p.tree, rest') ∧
      skipBlanks rest' = c :: rest := by
  have hstops : Stops (p.after ++ c :: rest) := forall_head?_append
    (fun d hd => .inl (hspaced.after d (List.mem_of_mem_head? hd))) (by simpa using .inr hc)
  have hlength : p.text.length ≤ p.padded.length := by
    simp only [Piece.padded, List.length_append]
    omega
  refine ⟨p.after ++ c :: rest, ?_, ?_⟩
  · rw [Piece.padded, List.append_assoc, List.append_assoc]
    exact h hspaced.before hstops (by omega)
  · rw [skipBlanks_append hspaced.after, skipBlanks_eq_self]
    rcases hc with rfl | rfl | rfl <;> simp [isBlank]

theorem readItems_more (h : Takes p.tree p.text) (hspaced : p.Spaced)
    (hn : 2 * p.padded.length ≤ n) (rest : List Char) :
    readItems (n + 1) (p.padded ++ ',' :: rest) =
      (p.tree :: (readItems n rest).1, (readItems n rest).2) := by
  obtain ⟨rest', hread, hskip⟩ := h.padded hspaced (.inl rfl) hn rest
  simp [readItems, hread, hskip]

theorem readItems_last (h : Takes p.tree p.text) (hspaced : p.Spaced)
    (hn : 2 * p.padded.length ≤ n) (rest : List Char) :
    readItems (n + 1) (p.padded ++ ']' :: rest) = ([p.tree], rest) := by
  obtain ⟨rest', hread, hskip⟩ := h.padded hspaced (.inr (.inl rfl)) hn rest
  simp [readItems, hread, hskip]

/-- A key is taken, and the value comes next. -/
theorem FieldPiece.Spaced.taken (hspaced : f.Spaced) (rest : List Char) :
    ∃ inner inner', skipBlanks (f.padded ++ rest) = '"' :: inner ∧
      readString inner = some (f.key, inner') ∧
      skipBlanks inner' = ':' :: (f.value.padded ++ rest) := by
  refine ⟨_, _, ?_, hspaced.key (f.afterKey ++ ':' :: (f.value.padded ++ rest)), ?_⟩
  · rw [FieldPiece.padded, List.append_assoc, skipBlanks_append hspaced.beforeKey, List.cons_append,
      skipBlanks_eq_self (by simp [isBlank])]
    simp
  · rw [skipBlanks_append hspaced.afterKey, skipBlanks_eq_self (by simp [isBlank])]

theorem readFields_more (h : Takes f.value.tree f.value.text) (hspaced : f.Spaced)
    (hn : 2 * f.value.padded.length ≤ n) (rest : List Char) :
    readFields (n + 1) (f.padded ++ ',' :: rest) =
      (f.field :: (readFields n rest).1, (readFields n rest).2) := by
  obtain ⟨inner, inner', hquote, hkey, hcolon⟩ := hspaced.taken (',' :: rest)
  obtain ⟨rest', hread, hskip⟩ := h.padded hspaced.value (.inl rfl) hn rest
  simp [readFields, FieldPiece.field, hquote, hkey, hcolon, hread, hskip]

theorem readFields_last (h : Takes f.value.tree f.value.text) (hspaced : f.Spaced)
    (hn : 2 * f.value.padded.length ≤ n) (rest : List Char) :
    readFields (n + 1) (f.padded ++ '}' :: rest) = ([f.field], rest) := by
  obtain ⟨inner, inner', hquote, hkey, hcolon⟩ := hspaced.taken ('}' :: rest)
  obtain ⟨rest', hread, hskip⟩ := h.padded hspaced.value (.inr (.inr rfl)) hn rest
  simp [readFields, FieldPiece.field, hquote, hkey, hcolon, hread, hskip]

/-- The reader takes the items of an array, if it takes each of them. -/
theorem readItems_of_pieces {pieces : List Piece} (hne : pieces ≠ [])
    (hspaced : ∀ p ∈ pieces, p.Spaced) (htakes : ∀ p ∈ pieces, Takes p.tree p.text)
    (hn : 2 * (joined (pieces.map (·.padded))).length + 1 ≤ n) :
    readItems n (joined (pieces.map (·.padded)) ++ ']' :: rest) =
      (pieces.map (·.tree), rest) := by
  induction pieces generalizing n with
  | nil => exact absurd rfl hne
  | cons p pieces ih =>
    have hp := hspaced p List.mem_cons_self
    have htake := htakes p List.mem_cons_self
    obtain ⟨n, rfl⟩ := Nat.exists_eq_add_of_le' (Nat.le_of_add_left_le hn)
    cases pieces with
    | nil =>
      rw [List.map_singleton, joined_singleton] at hn ⊢
      exact readItems_last htake hp (by omega) rest
    | cons q pieces =>
      simp only [List.map_cons, joined_cons_cons, List.length_append, List.length_cons,
        List.append_assoc, List.cons_append] at hn ih ⊢
      rw [readItems_more htake hp (by omega), ih (List.cons_ne_nil q pieces)
        (fun r hr => hspaced r (List.mem_cons_of_mem p hr))
        (fun r hr => htakes r (List.mem_cons_of_mem p hr)) (by omega)]

/-- The reader takes the fields of an object, if it takes each of their values. -/
theorem readFields_of_pieces {fields : List FieldPiece} (hne : fields ≠ [])
    (hspaced : ∀ f ∈ fields, f.Spaced) (htakes : ∀ f ∈ fields, Takes f.value.tree f.value.text)
    (hn : 2 * (joined (fields.map (·.padded))).length + 1 ≤ n) :
    readFields n (joined (fields.map (·.padded)) ++ '}' :: rest) =
      (fields.map (·.field), rest) := by
  induction fields generalizing n with
  | nil => exact absurd rfl hne
  | cons f fields ih =>
    have hf := hspaced f List.mem_cons_self
    have htake := htakes f List.mem_cons_self
    have hlength : f.value.padded.length ≤ f.padded.length := by
      simp only [FieldPiece.padded, List.length_append, List.length_cons]
      omega
    obtain ⟨n, rfl⟩ := Nat.exists_eq_add_of_le' (Nat.le_of_add_left_le hn)
    cases fields with
    | nil =>
      rw [List.map_singleton, joined_singleton] at hn ⊢
      exact readFields_last htake hf (by omega) rest
    | cons g fields =>
      simp only [List.map_cons, joined_cons_cons, List.length_append, List.length_cons,
        List.append_assoc, List.cons_append] at hn ih ⊢
      rw [readFields_more htake hf (by omega), ih (List.cons_ne_nil g fields)
        (fun r hr => hspaced r (List.mem_cons_of_mem f hr))
        (fun r hr => htakes r (List.mem_cons_of_mem f hr)) (by omega)]

theorem takes_leaf (h : readLeaf text = (tree, [])) (hsound : tree.isSound = true) :
    Takes tree text := by
  intro before rest n hbefore hrest hn
  obtain ⟨c, cs, heq, hc, hnext⟩ := readLeaf_local h hsound
  obtain rfl : text = c :: cs := by simpa using heq
  obtain ⟨n, rfl⟩ := Nat.exists_eq_add_of_le' (show 1 ≤ n by simp at hn; omega)
  have hskip : skipBlanks (before ++ (c :: cs ++ rest)) = c :: cs ++ rest := by
    rw [skipBlanks_append hbefore, skipBlanks_eq_self (by simpa using hc.ne.1)]
  rw [readFrom_leaf, hskip, hnext rest hrest]
  · intro inner heq
    exact hc.ne.2.1 (List.cons.inj (hskip.symm.trans heq)).1
  · intro inner heq
    exact hc.ne.2.2.2 (List.cons.inj (hskip.symm.trans heq)).1

/-- Before the items of an array there is no closing bracket. -/
theorem skipBlanks_items_ne (hspaced : p.Spaced) (hspells : Spells p.tree p.text)
    (texts : List (List Char)) (rest inner : List Char) :
    skipBlanks (joined (p.padded :: texts) ++ rest) ≠ ']' :: inner := fun heq => by
  obtain ⟨c, cs, htext, hblank, hclose⟩ := hspells.head
  obtain ⟨tail, htail⟩ := exists_joined p.padded texts
  rw [htail, Piece.padded, List.append_assoc, List.append_assoc, skipBlanks_append hspaced.before,
    htext, List.cons_append, skipBlanks_eq_self (by simpa using hblank)] at heq
  exact hclose (List.cons.inj heq).1

theorem takes_array {pieces : List Piece} (hgap : Blank gap) (hspaced : ∀ p ∈ pieces, p.Spaced)
    (h : ∀ p ∈ pieces, Spells p.tree p.text) (htakes : ∀ p ∈ pieces, Takes p.tree p.text) :
    Takes (.array (pieces.map (·.tree)))
      ('[' :: (gap ++ joined (pieces.map (·.padded)) ++ [']'])) := by
  intro before rest n hbefore hrest hn
  obtain ⟨n, rfl⟩ := Nat.exists_eq_add_of_le' (show 1 ≤ n by simp at hn; omega)
  have hopen : skipBlanks (before ++ ('[' :: (gap ++ joined (pieces.map (·.padded)) ++ [']']) ++
      rest)) = '[' :: (gap ++ (joined (pieces.map (·.padded)) ++ ']' :: rest)) := by
    rw [skipBlanks_append hbefore, List.cons_append, skipBlanks_eq_self (by simp [isBlank])]
    simp
  cases pieces with
  | nil =>
    refine readFrom_emptyArray hopen ?_
    rw [skipBlanks_append hgap]
    exact skipBlanks_eq_self (by simp [isBlank])
  | cons p pieces =>
    have hitem := skipBlanks_items_ne (hspaced p List.mem_cons_self)
      (h p List.mem_cons_self) (pieces.map (·.padded)) (']' :: rest)
    have hfits : 2 * (joined ((p :: pieces).map (·.padded))).length + 1 ≤ n := by
      simp only [List.length_cons, List.length_append, List.length_nil] at hn
      omega
    rw [readFrom_array hopen (by rwa [skipBlanks_append hgap]), ← readItems_skipBlanks,
      skipBlanks_append hgap, readItems_skipBlanks,
      readItems_of_pieces (List.cons_ne_nil p pieces) hspaced htakes hfits]

/-- Before the fields of an object there is no closing brace. -/
theorem skipBlanks_fields_ne (hspaced : f.Spaced) (texts : List (List Char))
    (rest inner : List Char) :
    skipBlanks (joined (f.padded :: texts) ++ rest) ≠ '}' :: inner := fun heq => by
  obtain ⟨tail, htail⟩ := exists_joined f.padded texts
  rw [htail, FieldPiece.padded, List.append_assoc, List.append_assoc,
    skipBlanks_append hspaced.beforeKey, List.cons_append,
    skipBlanks_eq_self (by simp [isBlank])] at heq
  exact absurd (List.cons.inj heq).1 (by decide)

theorem takes_object {fields : List FieldPiece} (hgap : Blank gap)
    (hspaced : ∀ f ∈ fields, f.Spaced) (htakes : ∀ f ∈ fields, Takes f.value.tree f.value.text) :
    Takes (.object (fields.map (·.field)))
      ('{' :: (gap ++ joined (fields.map (·.padded)) ++ ['}'])) := by
  intro before rest n hbefore hrest hn
  obtain ⟨n, rfl⟩ := Nat.exists_eq_add_of_le' (show 1 ≤ n by simp at hn; omega)
  have hopen : skipBlanks (before ++ ('{' :: (gap ++ joined (fields.map (·.padded)) ++ ['}']) ++
      rest)) = '{' :: (gap ++ (joined (fields.map (·.padded)) ++ '}' :: rest)) := by
    rw [skipBlanks_append hbefore, List.cons_append, skipBlanks_eq_self (by simp [isBlank])]
    simp
  cases fields with
  | nil =>
    refine readFrom_emptyObject hopen ?_
    rw [skipBlanks_append hgap]
    exact skipBlanks_eq_self (by simp [isBlank])
  | cons f fields =>
    have hfield := skipBlanks_fields_ne (hspaced f List.mem_cons_self)
      (fields.map (·.padded)) ('}' :: rest)
    have hfits : 2 * (joined ((f :: fields).map (·.padded))).length + 1 ≤ n := by
      simp only [List.length_cons, List.length_append, List.length_nil] at hn
      omega
    rw [readFrom_object hopen (by rwa [skipBlanks_append hgap]), ← readFields_skipBlanks,
      skipBlanks_append hgap, readFields_skipBlanks,
      readFields_of_pieces (List.cons_ne_nil f fields) hspaced htakes hfits]

/-- **What spells a tree is taken off the front.** The fuel decreases with each bracket and each
comma, and both are characters of the text. -/
theorem takes_of_spells (h : Spells tree text) : Takes tree text := by
  induction h with
  | leaf h hsound => exact takes_leaf h hsound
  | array hgap hspaced h ih => exact takes_array hgap hspaced h ih
  | object hgap hspaced _ ih => exact takes_object hgap hspaced ih

/-! ## What is read is spelled -/

/-- With so much fuel, trees, items and fields that hold no fault are spelled by what was taken. -/
structure Sound (n : Nat) : Prop where
  tree : ∀ {cs tree rest}, readFrom n cs = (tree, rest) → tree.isSound = true →
    ∃ before text, Blank before ∧ cs = before ++ (text ++ rest) ∧ Spells tree text
  items : ∀ {cs items rest}, readItems n cs = (items, rest) → areSound items = true →
    ∃ p : Piece, ∃ pieces, cs = joined ((p :: pieces).map (·.padded)) ++ ']' :: rest ∧
      items = (p :: pieces).map (·.tree) ∧ ∀ q ∈ p :: pieces, q.Spaced ∧ Spells q.tree q.text
  fields : ∀ {cs fields rest}, readFields n cs = (fields, rest) → fieldsSound fields = true →
    ∃ f : FieldPiece, ∃ pieces, cs = joined ((f :: pieces).map (·.padded)) ++ '}' :: rest ∧
      fields = (f :: pieces).map (·.field) ∧
      ∀ g ∈ f :: pieces, g.Spaced ∧ Spells g.value.tree g.value.text

theorem sound_zero : Sound 0 where
  tree h hsound := by
    rw [readFrom, Prod.mk.injEq] at h
    rw [← h.1] at hsound
    cases hsound
  items h hsound := by
    rw [readItems, Prod.mk.injEq] at h
    rw [← h.1] at hsound
    cases hsound
  fields h hsound := by
    rw [readFields, Prod.mk.injEq] at h
    rw [← h.1] at hsound
    cases hsound

/-- A piece and what comes behind it. -/
theorem Sound.piece (h : Sound n) {tree : Json} {rest : List Char}
    (hread : readFrom n cs = (tree, rest)) (hsound : tree.isSound = true) :
    ∃ p : Piece, p.tree = tree ∧ p.Spaced ∧ Spells p.tree p.text ∧
      cs = p.padded ++ skipBlanks rest := by
  obtain ⟨before, text, hbefore, rfl, hspells⟩ := h.tree hread hsound
  obtain ⟨after, hafter, heq⟩ := exists_skipBlanks rest
  refine ⟨⟨before, text, after, tree⟩, rfl, ⟨hbefore, hafter⟩, hspells, ?_⟩
  rw [Piece.padded, List.append_assoc, List.append_assoc, ← heq]

theorem Sound.items_succ (h : Sound n) {items : List Json}
    (hread : readItems (n + 1) cs = (items, rest)) (hsound : areSound items = true) :
    ∃ p : Piece, ∃ pieces, cs = joined ((p :: pieces).map (·.padded)) ++ ']' :: rest ∧
      items = (p :: pieces).map (·.tree) ∧ ∀ q ∈ p :: pieces, q.Spaced ∧ Spells q.tree q.text := by
  rw [readItems] at hread
  dsimp only at hread
  split at hread <;> obtain ⟨rfl, rfl⟩ := Prod.mk.inj hread
  · rename_i rest' hcomma
    simp only [areSound, Bool.and_eq_true] at hsound
    obtain ⟨p, htree, hp, hspells, hcs⟩ := h.piece rfl hsound.1
    obtain ⟨q, pieces, hrest, hitems, hall⟩ := h.items rfl hsound.2
    refine ⟨p, q :: pieces, ?_, ?_, List.forall_mem_cons.mpr ⟨⟨hp, hspells⟩, hall⟩⟩
    · rw [hcs, hcomma]
      conv => lhs; rw [hrest]
      simp [joined_cons_cons]
    · rw [List.map_cons, ← hitems, htree]
  · rename_i hend
    simp only [areSound, Bool.and_true] at hsound
    obtain ⟨p, htree, hp, hspells, hcs⟩ := h.piece rfl hsound
    refine ⟨p, [], ?_, by simp [htree], by simpa using ⟨hp, hspells⟩⟩
    rw [hcs, hend, List.map_singleton, joined_singleton]
  · simp [areSound, isSound] at hsound

/-- A field and what comes behind it, when its key has been read. -/
theorem Sound.field (h : Sound n) {beforeKey key afterKey inner value : List Char}
    (hbeforeKey : Blank beforeKey) (hafterKey : Blank afterKey)
    (hkey : readString inner = some (key, afterKey ++ ':' :: value))
    (hsound : (readFrom n value).1.isSound = true) :
    ∃ f : FieldPiece, f.field = (key, (readFrom n value).1) ∧ f.Spaced ∧
      Spells f.value.tree f.value.text ∧
      beforeKey ++ '"' :: inner = f.padded ++ skipBlanks (readFrom n value).2 := by
  obtain ⟨rfl, hstring⟩ := readString_local hkey
  obtain ⟨p, htree, hp, hspells, hvalue⟩ := h.piece rfl hsound
  refine ⟨⟨beforeKey, key, afterKey, p⟩, by rw [FieldPiece.field, htree],
    ⟨hbeforeKey, hstring, hafterKey, hp⟩, hspells, ?_⟩
  conv => lhs; rw [hvalue]
  simp [FieldPiece.padded]

theorem Sound.fields_succ (h : Sound n) {fields : List (List Char × Json)}
    (hread : readFields (n + 1) cs = (fields, rest)) (hsound : fieldsSound fields = true) :
    ∃ f : FieldPiece, ∃ pieces, cs = joined ((f :: pieces).map (·.padded)) ++ '}' :: rest ∧
      fields = (f :: pieces).map (·.field) ∧
      ∀ g ∈ f :: pieces, g.Spaced ∧ Spells g.value.tree g.value.text := by
  have hfault : ∀ key, fieldsSound [(key, fault)] = false := fun _ => rfl
  obtain ⟨beforeKey, hbeforeKey, hcs⟩ := exists_skipBlanks cs
  rw [readFields] at hread
  split at hread
  case h_2 => simp [← (Prod.mk.inj hread).1, hfault] at hsound
  rename_i inner hquote
  split at hread
  case h_1 => simp [← (Prod.mk.inj hread).1, hfault] at hsound
  rename_i key inner' hkey
  split at hread
  case h_2 => simp [← (Prod.mk.inj hread).1, hfault] at hsound
  rename_i value hcolon
  obtain ⟨afterKey, hafterKey, hinner⟩ := exists_skipBlanks inner'
  rw [hinner, hcolon] at hkey
  dsimp only at hread
  split at hread <;> obtain ⟨rfl, rfl⟩ := Prod.mk.inj hread
  · rename_i rest' hcomma
    simp only [fieldsSound, Bool.and_eq_true] at hsound
    obtain ⟨f, hfield, hf, hspells, hpadded⟩ := h.field hbeforeKey hafterKey hkey hsound.1
    obtain ⟨g, pieces, hrest, hfields, hall⟩ := h.fields rfl hsound.2
    refine ⟨f, g :: pieces, ?_, ?_, List.forall_mem_cons.mpr ⟨⟨hf, hspells⟩, hall⟩⟩
    · rw [hcs, hquote, hpadded, hcomma]
      conv => lhs; rw [hrest]
      simp [joined_cons_cons]
    · rw [List.map_cons, ← hfields, hfield]
  · rename_i hend
    simp only [fieldsSound, Bool.and_true] at hsound
    obtain ⟨f, hfield, hf, hspells, hpadded⟩ := h.field hbeforeKey hafterKey hkey hsound
    refine ⟨f, [], ?_, by simp [hfield], by simpa using ⟨hf, hspells⟩⟩
    rw [hcs, hquote, hpadded, hend, List.map_singleton, joined_singleton]
  · simp [fieldsSound, isSound] at hsound

theorem Sound.tree_succ (h : Sound n) (hread : readFrom (n + 1) cs = (tree, rest))
    (hsound : tree.isSound = true) :
    ∃ before text, Blank before ∧ cs = before ++ (text ++ rest) ∧ Spells tree text := by
  obtain ⟨before, hbefore, hcs⟩ := exists_skipBlanks cs
  suffices hspells : ∃ text, skipBlanks cs = text ++ rest ∧ Spells tree text by
    obtain ⟨text, hskip, hspells⟩ := hspells
    exact ⟨before, text, hbefore, hcs.trans (by rw [hskip]), hspells⟩
  rw [readFrom] at hread
  split at hread
  · rename_i inner hopen
    obtain ⟨gap, hgap, hinner⟩ := exists_skipBlanks inner
    split at hread
    · rename_i rest' hend
      obtain ⟨rfl, rfl⟩ := Prod.mk.inj hread
      refine ⟨_, ?_, @Spells.array gap [] hgap (by simp) (by simp)⟩
      rw [hopen, hinner, hend]
      simp
    · dsimp only at hread
      rw [readItems_skipBlanks] at hread
      obtain ⟨rfl, rfl⟩ := Prod.mk.inj hread
      obtain ⟨p, pieces, hitems, htrees, hall⟩ := h.items rfl hsound
      rw [htrees]
      refine ⟨_, ?_, @Spells.array [] (p :: pieces) (by simp [Blank])
        (fun q hq => (hall q hq).1) fun q hq => (hall q hq).2⟩
      rw [hopen]
      conv => lhs; rw [hitems]
      simp
  · rename_i inner hopen
    obtain ⟨gap, hgap, hinner⟩ := exists_skipBlanks inner
    split at hread
    · rename_i rest' hend
      obtain ⟨rfl, rfl⟩ := Prod.mk.inj hread
      refine ⟨_, ?_, @Spells.object gap [] hgap (by simp) (by simp)⟩
      rw [hopen, hinner, hend]
      simp
    · dsimp only at hread
      rw [readFields_skipBlanks] at hread
      obtain ⟨rfl, rfl⟩ := Prod.mk.inj hread
      obtain ⟨f, pieces, hfields, htrees, hall⟩ := h.fields rfl hsound
      rw [htrees]
      refine ⟨_, ?_, @Spells.object [] (f :: pieces) (by simp [Blank])
        (fun g hg => (hall g hg).1) fun g hg => (hall g hg).2⟩
      rw [hopen]
      conv => lhs; rw [hfields]
      simp
  · rename_i hbracket hbrace
    obtain ⟨c, text, hskip, hc, hnext⟩ := readLeaf_local hread hsound
    have hleaf := hnext [] stops_nil
    rw [List.append_nil] at hleaf
    exact ⟨c :: text, hskip, .leaf hleaf hsound⟩

/-- **For a tree without a fault, what is taken off the front spells it.** -/
theorem read_sound : ∀ n, Sound n
  | 0 => sound_zero
  | n + 1 =>
    ⟨(read_sound n).tree_succ, (read_sound n).items_succ, (read_sound n).fields_succ⟩

/-! ## Documents -/

theorem areSound_iff {items : List Json} :
    areSound items = true ↔ ∀ item ∈ items, item.isSound = true := by
  induction items with
  | nil => simp [areSound]
  | cons item items ih => simp [areSound, ih]

theorem fieldsSound_iff {fields : List (List Char × Json)} :
    fieldsSound fields = true ↔ ∀ field ∈ fields, field.2.isSound = true := by
  induction fields with
  | nil => simp [fieldsSound]
  | cons field fields ih => simp [fieldsSound, ih]

theorem Spells.isSound (h : Spells tree text) : tree.isSound = true := by
  induction h with
  | leaf h hsound => exact hsound
  | array _ _ _ ih => simpa [Json.isSound, areSound_iff] using ih
  | object _ _ _ ih => simpa [Json.isSound, fieldsSound_iff, FieldPiece.field] using ih

/-- **Which texts are documents without a fault**: those that spell a tree, with blanks around
it. -/
theorem document_iff {text : String} :
    (document text).complete = true ∧ (document text).tree = tree ∧ tree.isSound = true ↔
      ∃ p : Piece, p.Spaced ∧ Spells p.tree p.text ∧ p.tree = tree ∧ p.padded = text.toList := by
  unfold document read
  constructor
  · rintro ⟨hcomplete, rfl, hsound⟩
    obtain ⟨before, body, hbefore, htext, hspells⟩ := (read_sound _).tree rfl hsound
    obtain ⟨after, hafter, hrest⟩ :=
      exists_skipBlanks (readFrom (2 * text.toList.length + 2) text.toList).2
    rw [List.isEmpty_iff.mp hcomplete, List.append_nil] at hrest
    rw [hrest] at htext
    exact ⟨⟨before, body, after, _⟩, ⟨hbefore, hafter⟩, hspells, rfl, htext.symm⟩
  · rintro ⟨p, hp, hspells, rfl, hpadded⟩
    have hstops : Stops p.after := fun c hc => .inl (hp.after c (List.mem_of_mem_head? hc))
    have hlength : p.text.length ≤ p.padded.length := by
      simp only [Piece.padded, List.length_append]
      omega
    have hread : readFrom (2 * p.padded.length + 2) p.padded = (p.tree, p.after) :=
      takes_of_spells hspells hp.before hstops (by omega)
    have hblank : skipBlanks p.after = [] := by
      rw [← List.append_nil p.after, skipBlanks_append hp.after]
      rfl
    rw [← hpadded, hread]
    exact ⟨List.isEmpty_iff.mpr hblank, rfl, hspells.isSound⟩

theorem readDocument_of_complete {α : Type} (read : Json → Decoded α) {text : String}
    (h : (document text).complete = true) :
    readDocument read text = read (document text).tree := by
  unfold readDocument
  simp only [h, if_true]
  exact bind_pure _

end BookFeed.Json

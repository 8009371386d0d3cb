import BookFeed.Proofs.Decimal.Text
import BookFeed.Proofs.Json.Grammar
import Mathlib

/-!
# What is written is read back

The writer escapes the characters of strings and spells counts in decimal digits. The readers undo
both, so a tree that the writer builds (`Written`) is the tree of its own text, and a record that is
written with its fields in order is read field by field.

* `unescape_escape`, `readString_escape`: strings;
* `numberValue?_toDigits`: counts;
* **`document_toText`**: trees;
* **`readRecord_ofFields`**: records.
-/

namespace BookFeed.Json

variable {c : Char} {cs : List Char} {n : Nat} {tree : Json}

/-! ## Strings -/

/-- A character stands between quotes as a letter behind a backslash, as the two digits of a control
character, or as it is. -/
theorem escapeChar_cases (c : Char) :
    (∃ l, escapeChar c = ['\\', l] ∧ l ≠ 'u' ∧ unescapeChar? l = some c) ∨
    (escapeChar c = ['\\', 'u', '0', '0', hexDigit (c.toNat / 16), hexDigit (c.toNat % 16)] ∧
      c.toNat < 32) ∨
    (escapeChar c = [c] ∧ c ≠ '"' ∧ c ≠ '\\' ∧ ¬ c.toNat < 32) := by
  have hcode : ∀ {n}, c.toNat = n → some (Char.ofNat n) = some c := fun h => by
    rw [← h, Char.ofNat_toNat]
  unfold escapeChar
  split_ifs with hquote hbackslash hb ht hn hf hr hcontrol
  · exact .inl ⟨_, rfl, by decide, congrArg some hquote.symm⟩
  · exact .inl ⟨_, rfl, by decide, congrArg some hbackslash.symm⟩
  · exact .inl ⟨_, rfl, by decide, hcode hb⟩
  · exact .inl ⟨_, rfl, by decide, hcode ht⟩
  · exact .inl ⟨_, rfl, by decide, hcode hn⟩
  · exact .inl ⟨_, rfl, by decide, hcode hf⟩
  · exact .inl ⟨_, rfl, by decide, hcode hr⟩
  · exact .inr (.inl ⟨rfl, hcontrol⟩)
  · exact .inr (.inr ⟨rfl, hquote, hbackslash, hcontrol⟩)

theorem unit?_hexDigit : ∀ n < 32,
    unit? '0' '0' (hexDigit (n / 16)) (hexDigit (n % 16)) = some n := by
  decide

theorem unescape_escapeChar (c : Char) (cs : List Char) :
    unescape (escapeChar c ++ cs) = (unescape cs).map (c :: ·) := by
  rcases escapeChar_cases c with ⟨l, hc, hl, hchar⟩ | ⟨hc, hcontrol⟩ | ⟨hc, -, hbackslash, -⟩
  · simp [hc, unescape, hl, hchar]
  · have hunit := unit?_hexDigit _ hcontrol
    rw [hc]
    simp only [List.cons_append, List.nil_append, unescape, hunit]
    rw [if_neg (by omega), if_neg (by omega), Char.ofNat_toNat]
  · simp [hc, unescape, hbackslash]

theorem readString_escapeChar (c : Char) (cs : List Char) : readString (escapeChar c ++ cs) =
    (readString cs).map fun (raw, rest) => (escapeChar c ++ raw, rest) := by
  rcases escapeChar_cases c with ⟨l, hc, hl, hchar⟩ | ⟨hc, hcontrol⟩ | ⟨hc, _, hbackslash, h⟩
  · simp [hc, readString, hl, hchar]
  · simp [hc, readString, unit?_hexDigit _ hcontrol]
  · simp [hc, readString, hbackslash, h]

theorem unescape_escape (cs : List Char) : unescape (escape cs) = some cs := by
  induction cs with
  | nil => rfl
  | cons c cs ih =>
    rw [escape, List.flatMap_cons, unescape_escapeChar, ← escape, ih]
    rfl

/-- An escaped text ends at the quote behind it. -/
theorem readString_escape (cs rest : List Char) :
    readString (escape cs ++ '"' :: rest) = some (escape cs, rest) := by
  induction cs with
  | nil => simp [escape, readString]
  | cons c cs ih =>
    rw [escape, List.flatMap_cons, List.append_assoc, readString_escapeChar, ← escape, ih]
    rfl

/-- A character that is no quote, backslash or control character stands as it is. -/
theorem escapeChar_eq_self (hquote : c ≠ '"') (hbackslash : c ≠ '\\') (hcontrol : 32 ≤ c.toNat) :
    escapeChar c = [c] := by
  have hne : ∀ n < 32, c.toNat ≠ n := fun n hn => by omega
  simp [escapeChar, hquote, hbackslash, hne, Nat.not_lt.mpr hcontrol]

theorem escape_eq_self (h : ∀ c ∈ cs, escapeChar c = [c]) : escape cs = cs := by
  rw [escape, List.flatMap_congr h, List.flatMap_singleton']

theorem readText_escape (cs : List Char) :
    readText (.string (escape cs)) = .ok (String.ofList cs) := by
  rw [readText, unescape_escape]
  rfl

@[simp] theorem readText_ofString (s : String) : readText (.ofString s) = .ok s := by
  rw [ofString, readText_escape, String.ofList_toList]

theorem readLeaf_ofString (s : String) :
    readLeaf (render (.ofString s)) = (.ofString s, []) := by
  rw [ofString, render]
  simp only [List.cons_append, readLeaf, readString_escape]

/-! ## Counts -/

/-- A number other than zero is not written with a zero in front. -/
theorem head?_toDigits_ne_zero (hn : n ≠ 0) : (Nat.toDigits 10 n).head? ≠ some '0' := by
  induction n using Nat.strong_induction_on with
  | _ n ih =>
    rw [Nat.toDigits_eq_if (by decide)]
    split
    · interval_cases n <;> first | exact absurd rfl hn | decide
    · rw [List.head?_append_of_ne_nil _ Nat.toDigits_ne_nil]
      exact ih (n / 10) (by omega) (by omega)

theorem readWhole_toDigits (n : Nat) :
    readWhole (Nat.toDigits 10 n) = some (Nat.toDigits 10 n, []) := by
  by_cases hn : n = 0
  · subst hn
    decide
  · have hread : readDigits (Nat.toDigits 10 n) = some (Nat.toDigits 10 n, []) :=
      readDigits_eq_some_iff.mpr ⟨by simp, Nat.toDigits_ne_nil, fun _ => isDigit_of_mem_toDigits,
        by simp [NoDigit]⟩
    unfold readWhole
    split
    · rename_i heq
      exact absurd (by rw [heq]; rfl) (head?_toDigits_ne_zero hn)
    · exact hread

theorem readNumber_toDigits (n : Nat) :
    readNumber (Nat.toDigits 10 n) = some (Nat.toDigits 10 n, []) := by
  have hread : readUnsigned (Nat.toDigits 10 n) = some (Nat.toDigits 10 n, []) := by
    simp [readUnsigned, readWhole_toDigits, readFraction, readExponent]
  unfold readNumber
  split
  · rename_i heq
    obtain ⟨d, ds, hds, hd⟩ := exists_toDigits n
    obtain ⟨rfl, -⟩ := List.cons.inj (hds.symm.trans heq)
    exact absurd hd (by decide)
  · exact hread

theorem readLeaf_ofNat (n : Nat) : readLeaf (render (.ofNat n)) = (.ofNat n, []) := by
  obtain ⟨d, ds, hds, hd⟩ := exists_toDigits n
  have hread := readNumber_toDigits n
  rw [ofNat, render, hds] at *
  exact readLeaf_of_number (.inr hd) hread

/-- Digits are taken in as long as the value fits. -/
theorem takeDigits_of_lt {ds : List Char} {m : Nat}
    (h : Nat.ofDigitChars 10 ds m < UInt64.size) :
    takeDigits m ds = (Nat.ofDigitChars 10 ds m, []) := by
  induction ds generalizing m with
  | nil => rfl
  | cons d ds ih =>
    rw [Nat.ofDigitChars_cons, Nat.mul_comm] at h ⊢
    rw [takeDigits, if_pos ((le_ofDigitChars ds _).trans_lt h), ih h]

theorem numberValue?_toDigits (hn : n < UInt64.size) :
    numberValue? (Nat.toDigits 10 n) = some (.integer n) := by
  have hall : ∀ c ∈ Nat.toDigits 10 n, c.isDigit = true := fun _ => isDigit_of_mem_toDigits
  have htake : takeDigits 0 (Nat.toDigits 10 n) = (n, []) := by
    rw [takeDigits_of_lt] <;> rw [Nat.ofDigitChars_ten_toDigits]
    exact hn
  have hvalue : unsignedValue? false (Nat.toDigits 10 n) = some (.integer n) := by
    simp [unsignedValue?, List.takeWhile_eq_self_iff.mpr hall,
      List.dropWhile_eq_nil_iff.mpr hall, htake]
  unfold numberValue?
  split
  · rename_i heq
    obtain ⟨d, ds, hds, hd⟩ := exists_toDigits n
    obtain ⟨rfl, -⟩ := List.cons.inj (hds.symm.trans heq)
    exact absurd hd (by decide)
  · exact hvalue

theorem readCount_ofNat (hn : n < UInt64.size) : readCount (.ofNat n) = .ok (UInt64.ofNat n) := by
  rw [readCount, ofNat, readNumberValue, numberValue?_toDigits hn]
  simp [ofOption?, bind, Except.bind, pure, Except.pure]

@[simp] theorem readCount_ofCount (n : UInt64) : readCount (.ofCount n) = .ok n := by
  rw [ofCount, readCount_ofNat n.toNat_lt, UInt64.ofNat_toNat]

/-! ## Trees -/

/-- The trees that are built of counts, strings, arrays and records. -/
inductive Written : Json → Prop
  | null : Written .null
  | count (n : Nat) : Written (.ofNat n)
  | string (s : String) : Written (.ofString s)
  | array {items : List Json} (h : ∀ item ∈ items, Written item) : Written (.array items)
  | record {fields : List (String × Json)} (h : ∀ f ∈ fields, Written f.2) :
      Written (.ofFields fields)

theorem renderItems_eq (items : List Json) : renderItems items = joined (items.map render) := by
  induction items with
  | nil => rfl
  | cons item items ih =>
    cases items with
    | nil => simp [renderItems]
    | cons item' items =>
      rw [renderItems, ih, List.map_cons, List.map_cons, List.map_cons, joined_cons_cons]
      exact List.cons_ne_nil item' items

/-- The text of a field. -/
def renderField (f : List Char × Json) : List Char := '"' :: (f.1 ++ '"' :: ':' :: render f.2)

theorem renderFields_eq (fields : List (List Char × Json)) :
    renderFields fields = joined (fields.map renderField) := by
  induction fields with
  | nil => rfl
  | cons f fields ih =>
    cases fields with
    | nil => simp [renderFields, renderField]
    | cons g fields =>
      rw [renderFields, ih, List.map_cons, List.map_cons, List.map_cons, joined_cons_cons]
      · simp [renderField]
      · exact List.cons_ne_nil g fields

/-- The text of a tree, with nothing around it. -/
def Piece.bare (tree : Json) : Piece := ⟨[], tree.render, [], tree⟩

theorem Piece.spaced_bare (tree : Json) : (Piece.bare tree).Spaced := by
  constructor <;> simp [Piece.bare, Blank]

/-- The text of a field, with nothing around it. -/
def FieldPiece.bare (f : String × Json) : FieldPiece :=
  ⟨[], escape f.1.toList, [], .bare f.2⟩

theorem FieldPiece.spaced_bare (f : String × Json) : (FieldPiece.bare f).Spaced where
  beforeKey := by simp [FieldPiece.bare, Blank]
  key := readString_escape f.1.toList
  afterKey := by simp [FieldPiece.bare, Blank]
  value := Piece.spaced_bare f.2

/-- **A tree that is written spells its text.** -/
theorem Written.spells (h : Written tree) : Spells tree tree.render := by
  induction h with
  | null => exact .leaf (by simp [render, readLeaf, afterWord]) rfl
  | count n => exact .leaf (readLeaf_ofNat n) rfl
  | string s => exact .leaf (readLeaf_ofString s) rfl
  | @array items _ ih =>
    have hspells := @Spells.array [] (items.map Piece.bare) (by simp [Blank])
      (List.forall_mem_map.mpr fun item _ => Piece.spaced_bare item) (List.forall_mem_map.mpr ih)
    simpa [Function.comp_def, Piece.bare, Piece.padded, render, renderItems_eq] using hspells
  | @record fields _ ih =>
    have hspells := @Spells.object [] (fields.map FieldPiece.bare) (by simp [Blank])
      (List.forall_mem_map.mpr fun f _ => FieldPiece.spaced_bare f)
      (List.forall_mem_map.mpr ih)
    simpa [Function.comp_def, FieldPiece.bare, FieldPiece.padded, FieldPiece.field, Piece.bare,
      Piece.padded, render, renderFields_eq, renderField, ofFields] using hspells

/-- **A tree that is written is the tree of its text.** -/
theorem document_toText (h : Written tree) : document tree.toText = ⟨tree, true⟩ := by
  have hpiece : ∃ p : Piece, p.Spaced ∧ Spells p.tree p.text ∧ p.tree = tree ∧
      p.padded = tree.toText.toList :=
    ⟨.bare tree, Piece.spaced_bare tree, h.spells, rfl, by simp [Piece.bare, Piece.padded, toText]⟩
  obtain ⟨hcomplete, htree, -⟩ := document_iff.mpr hpiece
  exact congrArg₂ Document.mk htree hcomplete

theorem readDocument_toText {α : Type} (read : Json → Decoded α) (h : Written tree) :
    readDocument read tree.toText = read tree := by
  rw [readDocument_of_complete read (by rw [document_toText h]), document_toText h]

/-! ## Records -/

variable {σ : Type} {names seen : List String} {put : String → Json → σ → Decoded σ} {record : σ}

theorem readFieldsOf_ofFields {fields : List (String × Json)}
    (hnames : ∀ f ∈ fields, f.1 ∈ names) (hnew : ∀ f ∈ fields, f.1 ∉ seen)
    (hdistinct : (fields.map (·.1)).Nodup) :
    readFieldsOf names put seen record (fields.map fun f => (escape f.1.toList, f.2)) =
      fields.foldlM (fun record f => put f.1 f.2 record) record := by
  induction fields generalizing seen record with
  | nil => rfl
  | cons f fields ih =>
    obtain ⟨hname, hnames⟩ := List.forall_mem_cons.mp hnames
    obtain ⟨hnot, hnew⟩ := List.forall_mem_cons.mp hnew
    obtain ⟨hfresh, hdistinct⟩ := List.nodup_cons.mp hdistinct
    have hseen : ∀ g ∈ fields, g.1 ∉ f.1 :: seen := fun g hg hmem => by
      rcases List.mem_cons.mp hmem with heq | hmem
      · exact hfresh (List.mem_map.mpr ⟨g, hg, heq⟩)
      · exact hnew g hg hmem
    rw [List.map_cons, List.foldlM_cons, readFieldsOf, readText_escape, String.ofList_toList]
    simp only [bind, Except.bind, List.contains_iff_mem, hname, hnot, if_true, if_false]
    cases put f.1 f.2 record with
    | error e => rfl
    | ok record' => exact ih hnames hseen hdistinct

/-- **A record that is written with its fields in order is read field by field.** -/
theorem readRecord_ofFields {fields : List (String × Json)} (hnames : fields.map (·.1) = names)
    (hdistinct : names.Nodup) : readRecord names put record (.ofFields fields) =
      fields.foldlM (fun record f => put f.1 f.2 record) record := by
  exact readFieldsOf_ofFields (fun f hf => hnames ▸ List.mem_map_of_mem hf) (by simp)
    (hnames ▸ hdistinct)

end BookFeed.Json

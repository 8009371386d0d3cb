import BookFeed.Json.Read
import Mathlib.Data.List.TakeWhile

/-!
# What readers of strings, numbers and words consume

A reader takes a text off the front of what it is given. What it takes does not depend on what
follows, as long as what follows does not go on with it: behind a number there must not stand
another digit, nor a point or an exponent. `Stops` says this of whatever may stand behind a value.

* `readString_local`, `readNumber_local`: for strings, which end with their quote, and for numbers;
* **`readLeaf_local`**: for every literal, string and number.
-/

namespace BookFeed.Json

variable {cs rest text raw word : List Char} {tree : Json}

/-- Blanks only. -/
def Blank (cs : List Char) : Prop := ∀ c ∈ cs, isBlank c = true

/-- What may stand behind a value: nothing, or something that begins with a blank or with the end of
an item. -/
def Stops (cs : List Char) : Prop :=
  ∀ c ∈ cs.head?, isBlank c = true ∨ c = ',' ∨ c = ']' ∨ c = '}'

theorem stops_nil : Stops [] := by simp [Stops]

/-! ## Strings and words -/

/-- A string ends with its quote, whatever stands behind. -/
theorem readString_local (h : readString cs = some (raw, rest)) :
    cs = raw ++ '"' :: rest ∧ ∀ rest', readString (raw ++ '"' :: rest') = some (raw, rest') := by
  fun_induction readString cs generalizing raw rest with
  | case1 => cases h
  | case2 cs =>
    cases h
    exact ⟨rfl, fun _ => by simp [readString]⟩
  | case3 a b c d cs hunit ih =>
    obtain ⟨⟨raw', rest'⟩, hread, heq⟩ := Option.map_eq_some_iff.mp h
    cases heq
    obtain ⟨rfl, hnext⟩ := ih hread
    exact ⟨rfl, fun rest' => by simp [readString, hunit, hnext]⟩
  | case4 => cases h
  | case5 c cs hu hescape ih =>
    obtain ⟨⟨raw', rest'⟩, hread, heq⟩ := Option.map_eq_some_iff.mp h
    cases heq
    obtain ⟨rfl, hnext⟩ := ih hread
    have hne : c ≠ 'u' := by
      rintro rfl
      exact absurd hescape (by decide)
    refine ⟨rfl, fun rest' => ?_⟩
    rw [List.cons_append, List.cons_append, readString.eq_4 _ _ fun _ _ _ _ _ hc => absurd hc hne,
      if_pos hescape, hnext]
    rfl
  | case6 => cases h
  | case7 => cases h
  | case8 => cases h
  | case9 c cs hquote hu hbackslash hcontrol hc ih =>
    obtain ⟨⟨raw', rest'⟩, hread, heq⟩ := Option.map_eq_some_iff.mp h
    cases heq
    obtain ⟨rfl, hnext⟩ := ih hread
    refine ⟨rfl, fun rest' => ?_⟩
    rw [List.cons_append, readString.eq_5 _ _ hquote (fun _ _ _ _ _ h => absurd h hc)
      (fun _ _ h => absurd h hc), if_neg hcontrol, if_neg hc, hnext]
    rfl

theorem afterWord_eq_some_iff : afterWord word cs = some rest ↔ cs = word ++ rest := by
  fun_induction afterWord word cs with
  | case1 cs => simp
  | case2 c word cs ih => simpa using ih
  | case3 w word c cs hne => simp [Ne.symm hne]
  | case4 => simp

/-! ## Numbers -/

/-- Characters that pass a test, up to one that does not, are those that are taken. -/
theorem takeWhile_dropWhile_append {p : Char → Bool} (h : ∀ c ∈ cs, p c = true)
    (hrest : ∀ c ∈ rest.head?, p c = false) :
    (cs ++ rest).takeWhile p = cs ∧ (cs ++ rest).dropWhile p = rest := by
  rw [List.takeWhile_append_of_pos h, List.dropWhile_append_of_pos h]
  cases rest with
  | nil => simp
  | cons c rest =>
    have hc : p c = false := hrest c rfl
    simp [hc]

theorem head?_dropWhile_false (p : Char → Bool) (cs : List Char) :
    ∀ c ∈ (cs.dropWhile p).head?, p c = false := fun c hc => by
  have h := List.head?_dropWhile_not p cs
  rwa [Option.mem_def.mp hc] at h

/-- No digit stands in front. -/
def NoDigit (cs : List Char) : Prop := ∀ c ∈ cs.head?, c.isDigit = false

theorem readDigits_eq_some_iff : readDigits cs = some (text, rest) ↔
    cs = text ++ rest ∧ text ≠ [] ∧ (∀ c ∈ text, c.isDigit = true) ∧ NoDigit rest := by
  unfold readDigits
  dsimp only
  constructor
  · intro h
    split at h
    · cases h
    · rename_i hne
      obtain ⟨rfl, rfl⟩ := Prod.mk.inj (Option.some.inj h)
      exact ⟨List.takeWhile_append_dropWhile.symm, by simpa using hne,
        fun c hc => List.mem_takeWhile_imp hc, head?_dropWhile_false Char.isDigit cs⟩
  · rintro ⟨rfl, hne, hdigits, hno⟩
    obtain ⟨htake, hdrop⟩ := takeWhile_dropWhile_append hdigits hno
    rw [htake, hdrop, if_neg (by simpa using hne)]

/-- Digits with something in front, and what becomes of them in front of another text. -/
theorem readDigits_map_local {f : List Char → List Char}
    (h : (readDigits cs).map (fun (digits, rest) => (f digits, rest)) = some (text, rest)) :
    ∃ digits, text = f digits ∧ cs = digits ++ rest ∧
      (∃ d ds, digits = d :: ds ∧ d.isDigit = true) ∧
      ∀ rest', NoDigit rest' → readDigits (digits ++ rest') = some (digits, rest') := by
  obtain ⟨⟨digits, rest₀⟩, hread, heq⟩ := Option.map_eq_some_iff.mp h
  obtain ⟨rfl, rfl⟩ := Prod.mk.inj heq
  obtain ⟨rfl, hne, hdigits, -⟩ := readDigits_eq_some_iff.mp hread
  obtain ⟨d, ds, rfl⟩ := List.exists_cons_of_ne_nil hne
  exact ⟨d :: ds, rfl, rfl, ⟨d, ds, rfl, hdigits d List.mem_cons_self⟩, fun rest' hrest' =>
    readDigits_eq_some_iff.mpr ⟨rfl, hne, hdigits, hrest'⟩⟩

theorem readWhole_zero (h : NoDigit rest) : readWhole ('0' :: rest) = some (['0'], rest) := by
  cases rest with
  | nil => decide
  | cons c rest =>
    have hc : c.isDigit = false := h c rfl
    simp [readWhole, hc]

/-- The whole part of a number ends where no digit follows. -/
theorem readWhole_local (h : readWhole cs = some (text, rest)) :
    cs = text ++ rest ∧ (∃ d ds, text = d :: ds ∧ d.isDigit = true) ∧
      ∀ rest', NoDigit rest' → readWhole (text ++ rest') = some (text, rest') := by
  unfold readWhole at h
  split at h
  · split at h
    · cases h
    · obtain ⟨rfl, rfl⟩ := Prod.mk.inj (Option.some.inj h)
      exact ⟨rfl, ⟨'0', [], rfl, by decide⟩, fun rest' => readWhole_zero⟩
  · rename_i hlone
    obtain ⟨rfl, hne, hdigits, hno⟩ := readDigits_eq_some_iff.mp h
    obtain ⟨d, ds, rfl⟩ := List.exists_cons_of_ne_nil hne
    refine ⟨rfl, ⟨d, ds, rfl, hdigits d List.mem_cons_self⟩, fun rest' hrest' => ?_⟩
    have hread := readDigits_eq_some_iff.mpr ⟨rfl, hne, hdigits, hrest'⟩
    unfold readWhole
    split
    · rename_i c cs heq
      obtain ⟨rfl, hds⟩ := List.cons.inj heq
      match ds, hds with
      | [], hds =>
        obtain rfl : rest' = c :: cs := hds
        rw [if_neg (by simpa using hrest' c rfl)]
      | d :: ds, _ => exact (hlone d (ds ++ rest) rfl).elim
    · exact hread

theorem readFraction_absent (h : ∀ c ∈ rest.head?, c ≠ '.') :
    readFraction rest = some ([], rest) := by
  unfold readFraction
  split
  · exact absurd rfl (h '.' rfl)
  · rfl

/-- A fraction begins with a point, unless there is none, and ends where neither a digit nor, if
there is none, a point follows. -/
theorem readFraction_local (h : readFraction cs = some (text, rest)) :
    cs = text ++ rest ∧ (∀ c ∈ text.head?, c = '.') ∧
      ∀ rest', NoDigit rest' → (∀ c ∈ rest'.head?, c ≠ '.') →
        readFraction (text ++ rest') = some (text, rest') := by
  unfold readFraction at h
  split at h
  · obtain ⟨digits, rfl, rfl, -, hnext⟩ := readDigits_map_local h
    exact ⟨rfl, by simp, fun rest' hrest' _ => by simp [readFraction, hnext rest' hrest']⟩
  · obtain ⟨rfl, rfl⟩ := Prod.mk.inj (Option.some.inj h)
    exact ⟨rfl, by simp, fun rest' _ => readFraction_absent⟩

theorem readExponent_absent (h : ∀ c ∈ rest.head?, c ≠ 'e' ∧ c ≠ 'E') :
    readExponent rest = some ([], rest) := by
  unfold readExponent
  split
  · rename_i c rest
    have := h c rfl
    rw [if_neg (by simpa using this)]
  · rfl

/-- An exponent begins with its letter, unless there is none, and ends where neither a digit nor, if
there is none, the letter follows. -/
theorem readExponent_local (h : readExponent cs = some (text, rest)) :
    cs = text ++ rest ∧ (∀ c ∈ text.head?, c = 'e' ∨ c = 'E') ∧
      ∀ rest', NoDigit rest' → (∀ c ∈ rest'.head?, c ≠ 'e' ∧ c ≠ 'E') →
        readExponent (text ++ rest') = some (text, rest') := by
  unfold readExponent at h
  split at h
  · rename_i c cs
    split at h
    · rename_i hc
      split at h
      · obtain ⟨digits, rfl, rfl, -, hnext⟩ := readDigits_map_local (f := (c :: '+' :: ·)) h
        exact ⟨rfl, by simpa using hc, fun rest' hrest' _ => by
          simp [readExponent, hc, hnext rest' hrest']⟩
      · obtain ⟨digits, rfl, rfl, -, hnext⟩ := readDigits_map_local (f := (c :: '-' :: ·)) h
        exact ⟨rfl, by simpa using hc, fun rest' hrest' _ => by
          simp [readExponent, hc, hnext rest' hrest']⟩
      · -- Without a sign the digits have to be told from one.
        obtain ⟨_, rfl, rfl, ⟨d, ds, rfl, hd⟩, hnext⟩ := readDigits_map_local h
        refine ⟨rfl, by simpa using hc, fun rest' hrest' _ => ?_⟩
        have hplus : d ≠ '+' := fun h => absurd (h ▸ hd) (by decide)
        have hminus : d ≠ '-' := fun h => absurd (h ▸ hd) (by decide)
        have hread := hnext rest' hrest'
        rw [List.cons_append] at hread
        simp [readExponent, hc, hplus, hminus, hread]
    · obtain ⟨rfl, rfl⟩ := Prod.mk.inj (Option.some.inj h)
      exact ⟨rfl, by simp, fun rest' _ => readExponent_absent⟩
  · obtain ⟨rfl, rfl⟩ := Prod.mk.inj (Option.some.inj h)
    exact ⟨rfl, by simp, fun rest' _ => readExponent_absent⟩

/-- What ends a value does not go on with a number. -/
theorem Stops.ends (h : Stops rest) : ∀ c ∈ rest.head?,
    c.isDigit = false ∧ c ≠ '.' ∧ c ≠ 'e' ∧ c ≠ 'E' := fun c hc => by
  have hc := h c hc
  simp only [isBlank, Bool.or_eq_true, beq_iff_eq, or_assoc] at hc
  rcases hc with rfl | rfl | rfl | rfl | rfl | rfl | rfl <;> decide

/-- What stands in front of two texts stands in front of one of them. -/
theorem forall_head?_append {p : Char → Prop} (h : ∀ c ∈ cs.head?, p c)
    (hrest : ∀ c ∈ rest.head?, p c) : ∀ c ∈ (cs ++ rest).head?, p c := by
  cases cs with
  | nil => exact hrest
  | cons d cs => exact h

theorem readUnsigned_local (h : readUnsigned cs = some (text, rest)) :
    cs = text ++ rest ∧ (∃ d ds, text = d :: ds ∧ d.isDigit = true) ∧
      ∀ rest', Stops rest' → readUnsigned (text ++ rest') = some (text, rest') := by
  simp only [readUnsigned, Option.bind_eq_bind, Option.bind_eq_some_iff] at h
  obtain ⟨⟨whole, cs₁⟩, h₁, ⟨fraction, cs₂⟩, h₂, ⟨exponent, cs₃⟩, h₃, heq⟩ := h
  obtain ⟨rfl, rfl⟩ := Prod.mk.inj (Option.some.inj heq)
  dsimp only at h₁ h₂ h₃ ⊢
  obtain ⟨rfl, hexponent, hexponentNext⟩ := readExponent_local h₃
  obtain ⟨rfl, hfraction, hfractionNext⟩ := readFraction_local h₂
  obtain ⟨rfl, ⟨d, ds, rfl, hd⟩, hwholeNext⟩ := readWhole_local h₁
  refine ⟨by simp, ⟨d, _, rfl, hd⟩, fun rest' hrest' => ?_⟩
  have hends := hrest'.ends
  -- The exponent ends at `rest'`, the fraction at the exponent, the whole part at the fraction.
  have hafter : ∀ c ∈ (exponent ++ rest').head?, c.isDigit = false ∧ c ≠ '.' :=
    forall_head?_append (fun c hc => by rcases hexponent c hc with rfl | rfl <;> decide)
      fun c hc => ⟨(hends c hc).1, (hends c hc).2.1⟩
  have hthird := hexponentNext rest' (fun c hc => (hends c hc).1) fun c hc => (hends c hc).2.2
  have hsecond := hfractionNext (exponent ++ rest') (fun c hc => (hafter c hc).1)
    fun c hc => (hafter c hc).2
  have hfirst := hwholeNext (fraction ++ (exponent ++ rest')) (forall_head?_append
    (fun c hc => by rw [hfraction c hc]; decide) fun c hc => (hafter c hc).1)
  have hall : d :: ds ++ (fraction ++ exponent) ++ rest' =
      d :: ds ++ (fraction ++ (exponent ++ rest')) := by simp
  rw [hall, readUnsigned, hfirst]
  simp [hsecond, hthird]

theorem readNumber_local (h : readNumber cs = some (text, rest)) :
    cs = text ++ rest ∧ (∃ d ds, text = d :: ds ∧ (d = '-' ∨ d.isDigit = true)) ∧
      ∀ rest', Stops rest' → readNumber (text ++ rest') = some (text, rest') := by
  unfold readNumber at h
  split at h
  · obtain ⟨⟨text', rest₀⟩, hread, heq⟩ := Option.map_eq_some_iff.mp h
    obtain ⟨rfl, rfl⟩ := Prod.mk.inj heq
    obtain ⟨rfl, -, hnext⟩ := readUnsigned_local hread
    exact ⟨rfl, ⟨'-', text', rfl, .inl rfl⟩, fun rest' hrest' => by
      simp [readNumber, hnext rest' hrest']⟩
  · obtain ⟨rfl, ⟨d, ds, rfl, hd⟩, hnext⟩ := readUnsigned_local h
    refine ⟨rfl, ⟨d, ds, rfl, .inr hd⟩, fun rest' hrest' => ?_⟩
    unfold readNumber
    split
    · rename_i heq
      obtain ⟨rfl, -⟩ := List.cons.inj heq
      exact absurd hd (by decide)
    · exact hnext rest' hrest'

/-! ## Leaves -/

/-- With what a tree may begin that holds no other. -/
def BeginsLeaf (c : Char) : Prop :=
  c = '"' ∨ c = 'n' ∨ c = 't' ∨ c = 'f' ∨ c = '-' ∨ c.isDigit = true

theorem BeginsLeaf.ne {c : Char} (h : BeginsLeaf c) :
    isBlank c = false ∧ c ≠ '[' ∧ c ≠ ']' ∧ c ≠ '{' := by
  rcases h with rfl | rfl | rfl | rfl | rfl | hdigit
  any_goals decide
  have hne : ∀ d, d.isDigit = false → c ≠ d := fun d hd heq => by
    rw [heq, hd] at hdigit
    cases hdigit
  refine ⟨?_, hne _ (by decide), hne _ (by decide), hne _ (by decide)⟩
  simp [isBlank, hne]

theorem readLeaf_of_number {d : Char} (hd : d = '-' ∨ d.isDigit = true)
    (h : readNumber (d :: cs) = some (text, rest)) : readLeaf (d :: cs) = (number text, rest) := by
  have hne : ∀ c, c = '"' ∨ c = 'n' ∨ c = 't' ∨ c = 'f' → ∀ rest, d :: cs = c :: rest → False := by
    rintro c (rfl | rfl | rfl | rfl) rest heq <;> obtain ⟨rfl, -⟩ := List.cons.inj heq <;>
      exact absurd hd (by decide)
  rw [readLeaf.eq_5 _ (hne _ (by simp)) (hne _ (by simp)) (hne _ (by simp)) (hne _ (by simp)), h]

/-- **A literal, a string or a number does not depend on what follows it**, if that does not go on
with it. -/
theorem readLeaf_local (h : readLeaf cs = (tree, rest)) (hsound : tree.isSound = true) :
    ∃ c text, cs = c :: text ++ rest ∧ BeginsLeaf c ∧
      ∀ rest', Stops rest' → readLeaf (c :: text ++ rest') = (tree, rest') := by
  have hfault : (fault, []) = (tree, rest) → False := fun heq => by
    rw [← (Prod.mk.inj heq).1] at hsound
    exact absurd hsound (by decide)
  unfold readLeaf at h
  split at h
  · split at h
    · rename_i raw rest hread
      obtain ⟨rfl, rfl⟩ := Prod.mk.inj h
      obtain ⟨rfl, hnext⟩ := readString_local hread
      exact ⟨'"', raw ++ ['"'], by simp, .inl rfl, fun rest' _ => by simp [readLeaf, hnext]⟩
    · exact (hfault h).elim
  · split at h
    · rename_i hread
      obtain ⟨rfl, rfl⟩ := Prod.mk.inj h
      obtain rfl := afterWord_eq_some_iff.mp hread
      exact ⟨'n', _, rfl, by simp [BeginsLeaf], fun rest' _ => by simp [readLeaf, afterWord]⟩
    · exact (hfault h).elim
  · split at h
    · rename_i hread
      obtain ⟨rfl, rfl⟩ := Prod.mk.inj h
      obtain rfl := afterWord_eq_some_iff.mp hread
      exact ⟨'t', _, rfl, by simp [BeginsLeaf], fun rest' _ => by simp [readLeaf, afterWord]⟩
    · exact (hfault h).elim
  · split at h
    · rename_i hread
      obtain ⟨rfl, rfl⟩ := Prod.mk.inj h
      obtain rfl := afterWord_eq_some_iff.mp hread
      exact ⟨'f', _, rfl, by simp [BeginsLeaf], fun rest' _ => by simp [readLeaf, afterWord]⟩
    · exact (hfault h).elim
  · split at h
    · rename_i hread
      obtain ⟨rfl, rfl⟩ := Prod.mk.inj h
      obtain ⟨rfl, ⟨d, ds, rfl, hd⟩, hnext⟩ := readNumber_local hread
      refine ⟨d, ds, rfl, by simp [BeginsLeaf, hd], fun rest' hrest' => ?_⟩
      have hread' := hnext rest' hrest'
      rw [List.cons_append] at hread' ⊢
      exact readLeaf_of_number hd hread'
    · exact (hfault h).elim

end BookFeed.Json

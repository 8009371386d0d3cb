import BookFeed.Decimal.Text
import BookFeed.Proofs.Decimal.Order
import Mathlib

/-!
# Decimals survive as text

The text of a decimal shows its scale and all of its digits, so the reader, which keeps up to 28
fractional digits and magnitudes below `2 ^ 96`, gets the same decimal back. Only the sign of a zero
is lost: `Decimal.plain` is the decimal without it.

* `readDigits_take`: digits are taken in one by one, as long as they fit;
* `length_padded`, `ofDigitChars_padded`: the fraction has as many digits as the scale says;
* **`read?_toText`**: the decimal is read back.
-/

namespace BookFeed

/-! ## Decimal digits -/

variable {n : Nat} {c : Char} {ds rest : List Char}

theorem isDigit_of_mem_toDigits (h : c ∈ Nat.toDigits 10 n) : c.isDigit = true :=
  Nat.isDigit_of_mem_toDigits (by decide) (by decide) h

/-- A number that is written begins with a digit. -/
theorem exists_toDigits (n : Nat) : ∃ d ds, Nat.toDigits 10 n = d :: ds ∧ d.isDigit = true := by
  obtain ⟨d, ds, hds⟩ := List.exists_cons_of_ne_nil (Nat.toDigits_ne_nil (n := n) (b := 10))
  exact ⟨d, ds, hds, isDigit_of_mem_toDigits (hds ▸ List.mem_cons_self)⟩

/-- Digits that are taken in do not lower a number. -/
theorem le_ofDigitChars (ds : List Char) (n : Nat) : n ≤ Nat.ofDigitChars 10 ds n := by
  rw [Nat.ofDigitChars_eq_ofDigitChars_zero]
  exact le_add_of_le_left (Nat.le_mul_of_pos_left n (by positivity))

namespace Decimal

/-- The same number, spelled with the same scale; a zero has no sign. -/
def plain (a : Decimal) : Decimal := { a with negative := a.negative && a.magnitude != 0 }

theorem value_plain (a : Decimal) : a.plain.value = a.value := by
  unfold value mantissa signed plain
  by_cases hzero : a.magnitude = 0 <;> simp [hzero]

theorem mk?_mantissa (a : Decimal) : mk? a.mantissa a.scale = some a.plain := by
  have habs : a.mantissa.natAbs = a.magnitude := by
    unfold mantissa signed
    split <;> simp
  have hneg : decide (a.mantissa < 0) = (a.negative && a.magnitude != 0) := by
    unfold mantissa signed
    by_cases hzero : a.magnitude = 0 <;> cases a.negative <;> simp [hzero, Nat.pos_iff_ne_zero]
  unfold mk?
  rw [dif_pos ⟨habs ▸ a.magnitude_lt, a.scale_le⟩]
  simp only [habs, hneg]
  rfl

/-! ## Writing -/

theorem length_padded {width : Nat} (hwidth : 0 < width) (hn : n < 10 ^ width) :
    (padded width n).length = width := by
  have hle := (Nat.length_toDigits_le_iff (by decide) hwidth).mpr hn
  rw [padded, List.length_append, List.length_replicate]
  exact Nat.sub_add_cancel hle

theorem isDigit_of_mem_padded {width : Nat} (h : c ∈ padded width n) : c.isDigit = true := by
  rcases List.mem_append.mp h with h | h
  · rw [List.eq_of_mem_replicate h]
    rfl
  · exact isDigit_of_mem_toDigits h

theorem ofDigitChars_padded {width : Nat} (hwidth : 0 < width) (hn : n < 10 ^ width) (m : Nat) :
    Nat.ofDigitChars 10 (padded width n) m = 10 ^ width * m + n := by
  have hle := (Nat.length_toDigits_le_iff (by decide) hwidth).mpr hn
  rw [padded, Nat.ofDigitChars_append, Nat.ofDigitChars_replicate_zero,
    Nat.ofDigitChars_eq_ofDigitChars_zero, Nat.ofDigitChars_ten_toDigits, ← Nat.mul_assoc,
    ← Nat.pow_add, Nat.add_sub_cancel' hle]

/-- The digits of the whole part. -/
def wholeDigits (a : Decimal) : List Char := Nat.toDigits 10 (a.magnitude / powerOfTen a.scale)

/-- The point and the digits of the fraction, if there is one. -/
def fractionChars (a : Decimal) : List Char :=
  if a.scale = 0 then [] else '.' :: padded a.scale (a.magnitude % powerOfTen a.scale)

theorem isDigit_of_mem_wholeDigits {a : Decimal} (h : c ∈ a.wholeDigits) : c.isDigit = true :=
  isDigit_of_mem_toDigits h

theorem toChars_eq (a : Decimal) :
    a.toChars = (if a.negative then ['-'] else []) ++ (a.wholeDigits ++ a.fractionChars) := by
  unfold toChars fractionChars wholeDigits
  dsimp only
  split <;> split <;> simp

theorem toChars_ne_nil (a : Decimal) : a.toChars ≠ [] := by
  simp [toChars_eq, wholeDigits, Nat.toDigits_ne_nil]

theorem mem_toChars {a : Decimal} (h : c ∈ a.toChars) : c.isDigit = true ∨ c = '.' ∨ c = '-' := by
  rw [toChars_eq, List.mem_append, List.mem_append] at h
  rcases h with h | h | h
  · split at h
    · exact .inr (.inr (List.mem_singleton.mp h))
    · cases h
  · exact .inl (isDigit_of_mem_wholeDigits h)
  · unfold fractionChars at h
    split at h
    · cases h
    · rcases List.mem_cons.mp h with rfl | h
      · exact .inr (.inl rfl)
      · exact .inl (isDigit_of_mem_padded h)

/-- The sign of a zero stands in front of what is written without it. -/
theorem toChars_plain (a : Decimal) : a.toChars =
    (if a.negative = true ∧ a.magnitude = 0 then ['-'] else []) ++ a.plain.toChars := by
  rw [toChars_eq, toChars_eq a.plain]
  have hwhole : a.plain.wholeDigits = a.wholeDigits := rfl
  have hfraction : a.plain.fractionChars = a.fractionChars := rfl
  rw [hwhole, hfraction, plain]
  cases a.negative <;> by_cases hzero : a.magnitude = 0 <;> simp [hzero]

/-- A zero without a sign is written with zeros and a point. -/
theorem mem_toChars_of_zero {a : Decimal} (hzero : a.magnitude = 0) (h : c ∈ a.plain.toChars) :
    c = '0' ∨ c = '.' := by
  have hdigit : ∀ c ∈ Nat.toDigits 10 0, c = '0' := fun c hc => by
    rwa [Nat.toDigits_zero, List.mem_singleton] at hc
  rw [toChars_eq, plain, wholeDigits, fractionChars] at h
  simp only [hzero, Nat.zero_div, Nat.zero_mod, bne_self_eq_false, Bool.and_false,
    Bool.false_eq_true, if_false, List.nil_append, List.mem_append] at h
  rcases h with h | h
  · exact .inl (hdigit c h)
  · split at h
    · cases h
    · rcases List.mem_cons.mp h with h | h
      · exact .inr h
      · rcases List.mem_append.mp h with h | h
        · exact .inl (List.eq_of_mem_replicate h)
        · exact .inl (hdigit c h)

/-! ## Reading -/

theorem digitValue?_of_isDigit (h : c.isDigit = true) :
    digitValue? c = some (c.toNat - '0'.toNat) := by
  rw [Char.isDigit, Bool.and_eq_true, decide_eq_true_eq, decide_eq_true_eq] at h
  exact if_pos h

namespace Partial

/-- What has been read once further digits have been taken in. -/
def take (p : Partial) (ds : List Char) : Partial :=
  { p with
    mantissa := Nat.ofDigitChars 10 ds p.mantissa
    scale := if p.point then p.scale + ds.length else p.scale
    digit := p.digit || !ds.isEmpty }

theorem point_take (p : Partial) (ds : List Char) : (p.take ds).point = p.point := rfl

end Partial

/-- **Digits are taken in one by one**, as long as the number and its fraction fit. -/
theorem readDigits_take {p : Partial} (hds : ∀ c ∈ ds, c.isDigit = true)
    (hwhole : p.point = false → p.scale = 0)
    (hscale : p.point = true → p.scale + ds.length ≤ maxScale)
    (hlt : (p.take ds).mantissa < bound) :
    readDigits p (ds ++ rest) = readDigits (p.take ds) rest := by
  induction ds generalizing p with
  | nil => simp [Partial.take, Nat.ofDigitChars]
  | cons d ds ih =>
    obtain ⟨hd, hds⟩ := List.forall_mem_cons.mp hds
    have hroom : ¬ (p.point = true ∧ maxScale ≤ p.scale) := fun ⟨hpoint, hfull⟩ => by
      have := hscale hpoint
      rw [List.length_cons] at this
      omega
    -- the number with the first digit taken in, from which the others are taken in
    have htake : (p.take [d]).take ds = p.take (d :: ds) := by
      unfold Partial.take
      cases p.point <;> simp [Nat.ofDigitChars, Nat.add_assoc, Nat.add_comm 1]
    have hfirst : (p.take [d]).mantissa = p.mantissa * 10 + (d.toNat - '0'.toNat) := by
      simp [Partial.take, Nat.ofDigitChars, Nat.mul_comm]
    have hfits : p.mantissa * 10 + (d.toNat - '0'.toNat) < bound := by
      rw [← htake] at hlt
      exact hfirst ▸ (le_ofDigitChars ds _).trans_lt hlt
    rw [List.cons_append, readDigits, if_neg (by simpa using hroom), digitValue?_of_isDigit hd]
    dsimp only
    rw [if_pos hfits]
    have hstep : { p with
        mantissa := p.mantissa * 10 + (d.toNat - '0'.toNat)
        digit := true
        scale := if p.point = true then p.scale + 1 else 0 } = p.take [d] := by
      rw [← hfirst]
      cases hpoint : p.point <;> simp [Partial.take, hpoint, hwhole]
    rw [hstep, ← htake, ih hds]
    · intro hpoint
      rw [Partial.point_take] at hpoint
      simp [Partial.take, hpoint, hwhole hpoint]
    · intro hpoint
      rw [Partial.point_take] at hpoint
      simpa [Partial.take, hpoint, Nat.add_assoc, Nat.add_comm 1] using hscale hpoint
    · rwa [htake]

theorem whole_mul_add (a : Decimal) : 10 ^ a.scale * (a.magnitude / powerOfTen a.scale) +
    a.magnitude % powerOfTen a.scale = a.magnitude :=
  Nat.div_add_mod a.magnitude (powerOfTen a.scale)

theorem whole_lt (a : Decimal) : a.magnitude / powerOfTen a.scale < bound :=
  (Nat.div_le_self _ _).trans_lt a.magnitude_lt

/-- The characters behind the sign are read as the magnitude, with the scale. -/
theorem readDigits_toChars (a : Decimal) :
    readDigits ⟨a.negative, 0, 0, false, false⟩ (a.wholeDigits ++ a.fractionChars) =
      .ok a.plain := by
  have hfinish : Partial.finish ⟨a.negative, a.magnitude, a.scale, !decide (a.scale = 0), true⟩ =
      .ok a.plain := by
    have hmk := a.mk?_mantissa
    rw [mantissa] at hmk
    simp only [Partial.finish, hmk, if_true]
  -- the whole part, which is followed by the point or by nothing
  have hwhole : Partial.take ⟨a.negative, 0, 0, false, false⟩ a.wholeDigits =
      ⟨a.negative, a.magnitude / powerOfTen a.scale, 0, false, true⟩ := by
    simp [Partial.take, wholeDigits, Nat.ofDigitChars_ten_toDigits, Nat.toDigits_ne_nil]
  rw [readDigits_take (fun _ => isDigit_of_mem_wholeDigits) (fun _ => rfl) (by simp)
    (hwhole ▸ a.whole_lt), hwhole]
  unfold fractionChars
  split
  · rename_i hzero
    rw [readDigits, ← hfinish]
    simp [hzero, powerOfTen]
  · rename_i hscale
    have hpos := Nat.pos_of_ne_zero hscale
    have hlt : a.magnitude % powerOfTen a.scale < 10 ^ a.scale :=
      Nat.mod_lt _ (powerOfTen_pos a.scale)
    have hpoint : readDigits ⟨a.negative, a.magnitude / powerOfTen a.scale, 0, false, true⟩
        ('.' :: padded a.scale (a.magnitude % powerOfTen a.scale)) =
      readDigits ⟨a.negative, a.magnitude / powerOfTen a.scale, 0, true, true⟩
        (padded a.scale (a.magnitude % powerOfTen a.scale)) := by
      simp [readDigits, digitValue?]
    have hfraction : Partial.take ⟨a.negative, a.magnitude / powerOfTen a.scale, 0, true, true⟩
        (padded a.scale (a.magnitude % powerOfTen a.scale)) =
      ⟨a.negative, a.magnitude, a.scale, true, true⟩ := by
      simp [Partial.take, ofDigitChars_padded hpos hlt, length_padded hpos hlt, whole_mul_add]
    rw [hpoint, ← List.append_nil (padded _ _), readDigits_take
      (fun _ => isDigit_of_mem_padded) (by simp), hfraction, readDigits, ← hfinish]
    · simp [hscale]
    · simpa [length_padded hpos hlt] using a.scale_le
    · exact hfraction ▸ a.magnitude_lt

/-- The sign is read, and then the digits. -/
theorem readPlain_sign {negative : Bool} {d : Char} (hd : d.isDigit = true) :
    readPlain ((if negative then ['-'] else []) ++ d :: ds) =
      readDigits ⟨negative, 0, 0, false, false⟩ (d :: ds) := by
  cases negative with
  | true => rfl
  | false =>
    have hminus : d ≠ '-' := fun h => absurd (h ▸ hd) (by decide)
    have hplus : d ≠ '+' := fun h => absurd (h ▸ hd) (by decide)
    simp [readPlain, hminus, hplus]

/-- No character of a decimal begins an exponent. -/
theorem isExponentMark_of_mem_toChars {a : Decimal} (h : c ∈ a.toChars) :
    isExponentMark c = false := by
  rcases mem_toChars h with hc | rfl | rfl
  · have hlower : c ≠ 'e' := fun heq => absurd (heq ▸ hc) (by decide)
    have hupper : c ≠ 'E' := fun heq => absurd (heq ▸ hc) (by decide)
    simp [isExponentMark, hlower, hupper]
  · rfl
  · rfl

/-- **A decimal is read back from its text**, but for the sign of a zero. -/
theorem read?_toText (a : Decimal) : read? a.toText = some a.plain := by
  have hplain : readPlain a.toChars = .ok a.plain := by
    obtain ⟨d, ds, hds, hd⟩ := exists_toDigits (a.magnitude / powerOfTen a.scale)
    have hread := readDigits_toChars a
    rw [wholeDigits, hds, List.cons_append] at hread
    rw [toChars_eq, wholeDigits, hds, List.cons_append, readPlain_sign hd, hread]
  have hmarks : a.toChars.dropWhile (!isExponentMark ·) = [] :=
    List.dropWhile_eq_nil_iff.mpr fun c hc => by simp [isExponentMark_of_mem_toChars hc]
  rw [read?, read, toText, String.toList_ofList, readChars, hmarks]
  dsimp only
  rw [hplain]
  rfl

end Decimal

end BookFeed

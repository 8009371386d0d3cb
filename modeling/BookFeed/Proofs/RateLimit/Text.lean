import BookFeed.Proofs.Binary64.Value
import BookFeed.Proofs.Decimal.Rounded
import BookFeed.Proofs.Text.Blank
import BookFeed.Proofs.Traversal
import BookFeed.RateLimit.Text
import Mathlib

/-!
# What a list of rate limits says

An entry of a list is a limit (`Gives`), has a fault (`Fault`), the first one that is met counts, or
has a window that is too long to be a duration (`TooLong`); each entry is one of the three
(`exists_outcome`). Reading a list gives the limits of its entries, or stops at the first entry that
is none.

A window is looked at as a number of seconds, and only then rounded to nanoseconds. So a positive
window may become zero (`window_pos_iff`), and one that is too long is not refused but ends the
reading.

* `readEntry_of_gives`, `readEntry_of_fault`, `readEntry_of_tooLong`: one entry;
* **`readAll_outcome`**: a list, and when it is read as it should be (`ReadsSoundly`);
* `windows_lost`: lists that are not.
-/

namespace BookFeed.RateLimit

open Binary64 (value)

/-! ## Entries -/

/-- The fields of an entry. -/
structure Fields where
  path : List Char
  limit : List Char
  window : List Char
  weight : Option (List Char)

/-- The entry has these fields, with colons between them and with blanks around them that do not
count. -/
def Fields.Of (f : Fields) (entry : List Char) : Prop :=
  (Text.splitChars ':' entry).map Text.trimChars =
    f.path :: f.limit :: f.window :: f.weight.toList ∧ f.path ≠ []

/-- The field is a count of 32 bits. -/
def IsCount (field : List Char) (n : UInt32) : Prop :=
  Decimal.readNat? UInt32.size field = some n.toNat

/-- The field is a positive number of seconds. -/
def IsWindow (field : List Char) (seconds : Binary64) : Prop :=
  Binary64.read? (String.ofList field) = some seconds ∧ seconds.isFinite = true ∧ 0 < seconds.value

/-- The entry is the limit. -/
structure Gives (entry : List Char) (f : Fields) (seconds : Binary64) (r : RateLimit) : Prop where
  fields : f.Of entry
  path : r.path = String.ofList f.path
  limit : IsCount f.limit r.limit
  time : IsWindow f.window seconds
  short : seconds.value < UInt64.size
  window : r.window = nearest (seconds.value * 1000000000)
  weight : f.weight = none ∧ r.weight = 1 ∨ ∃ w, f.weight = some w ∧ IsCount w r.weight
  margin : r.margin = none
  linked : r.linked = []

/-- The entry is a limit. -/
def Says (entry : List Char) (r : RateLimit) : Prop := ∃ f seconds, Gives entry f seconds r

/-- Why the entry is no limit. -/
inductive Fault (entry : List Char) : String → Prop
  | shape (h : ∀ f : Fields, ¬ f.Of entry) : Fault entry "expected path:limit:window[:weight]"
  | limit {f : Fields} (hf : f.Of entry) (h : ∀ n, ¬ IsCount f.limit n) :
      Fault entry "limit is not an integer"
  | text {f : Fields} {n : UInt32} (hf : f.Of entry) (hlimit : IsCount f.limit n)
      (h : Binary64.read? (String.ofList f.window) = none) : Fault entry "window is not a number"
  | sign {f : Fields} {n : UInt32} {x : Binary64} (hf : f.Of entry) (hlimit : IsCount f.limit n)
      (hx : Binary64.read? (String.ofList f.window) = some x) (h : ¬ IsWindow f.window x) :
      Fault entry "window must be positive"
  | weight {f : Fields} {n : UInt32} {x : Binary64} {w : List Char} (hf : f.Of entry)
      (hlimit : IsCount f.limit n) (hx : IsWindow f.window x) (hshort : x.value < UInt64.size)
      (hw : f.weight = some w) (h : ∀ n, ¬ IsCount w n) : Fault entry "weight is not an integer"

/-- The window of the entry is too long to be a duration. -/
def TooLong (entry : List Char) : Prop :=
  ∃ (f : Fields) (n : UInt32) (x : Binary64), f.Of entry ∧ IsCount f.limit n ∧
    IsWindow f.window x ∧ UInt64.size ≤ x.value

variable {entry field : List Char} {f : Fields} {r : RateLimit} {n : UInt32} {x seconds : Binary64}
  {reason : String}

/-- Each entry is a limit, has a fault or has a window that is too long. -/
theorem exists_outcome (entry : List Char) :
    (∃ r, Says entry r) ∨ (∃ reason, Fault entry reason) ∨ TooLong entry := by
  by_cases hf : ∃ f : Fields, f.Of entry
  case neg => exact .inr (.inl ⟨_, .shape (not_exists.mp hf)⟩)
  obtain ⟨f, hf⟩ := hf
  by_cases hlimit : ∃ n, IsCount f.limit n
  case neg => exact .inr (.inl ⟨_, .limit hf (not_exists.mp hlimit)⟩)
  obtain ⟨n, hlimit⟩ := hlimit
  cases hx : Binary64.read? (String.ofList f.window) with
  | none => exact .inr (.inl ⟨_, .text hf hlimit hx⟩)
  | some x =>
    by_cases hwindow : IsWindow f.window x
    case neg => exact .inr (.inl ⟨_, .sign hf hlimit hx hwindow⟩)
    by_cases hshort : x.value < UInt64.size
    case neg => exact .inr (.inr ⟨f, n, x, hf, hlimit, hwindow, not_lt.mp hshort⟩)
    cases hw : f.weight with
    | none =>
      exact .inl ⟨⟨String.ofList f.path, n, nearest (x.value * 1000000000), 1, none, []⟩, f, x, hf,
        rfl, hlimit, hwindow, hshort, rfl, .inl ⟨hw, rfl⟩, rfl, rfl⟩
    | some w =>
      by_cases hweight : ∃ m, IsCount w m
      case neg => exact .inr (.inl ⟨_, .weight hf hlimit hwindow hshort hw (not_exists.mp hweight)⟩)
      obtain ⟨m, hweight⟩ := hweight
      exact .inl ⟨⟨String.ofList f.path, n, nearest (x.value * 1000000000), m, none, []⟩, f, x, hf,
        rfl, hlimit, hwindow, hshort, rfl, .inr ⟨w, hw, hweight⟩, rfl, rfl⟩

/-! ## Fields -/

theorem readCount_of_isCount (h : IsCount field n) : readCount entry reason field = .ok n := by
  rw [IsCount] at h
  rw [readCount, h]
  exact congrArg Except.ok (UInt32.ofNat_toNat)

theorem lt_of_readNat? {limit k : Nat} (h : Decimal.readNat? limit field = some k) : k < limit := by
  unfold Decimal.readNat? at h
  extract_lets digits at h
  split at h
  · cases h
  · rw [Option.bind_eq_bind, Option.bind_eq_some_iff] at h
    obtain ⟨m, -, h⟩ := h
    split at h
    · rename_i hm
      rwa [← Option.some.inj h]
    · cases h

theorem readCount_of_not (h : ∀ n, ¬ IsCount field n) : readCount entry reason field =
    .error (.error (.invalidRateLimit (String.ofList entry) reason)) := by
  unfold readCount
  split
  · rename_i k hk
    refine absurd ?_ (h (UInt32.ofNat k))
    rw [IsCount, hk, UInt32.toNat_ofNat_of_lt' (lt_of_readNat? hk)]
  · rfl

/-- A positive number of seconds is a duration, to the nearest nanosecond, unless it is too long. -/
theorem ofBinary64_of_pos (h : 0 < x.value) : Nanos.ofBinary64 x =
    if (UInt64.size : ℚ) ≤ x.value then .error .overflow
    else .ok (nearest (x.value * 1000000000)) := by
  have hden : (0 : ℚ) < x.ratio.2 := Nat.cast_pos.mpr x.ratio_pos
  have hvalue : x.value = x.ratio.1 / x.ratio.2 := by
    rw [value, (Binary64.value_pos_iff.mp h).1]
    rfl
  have hlong : (UInt64.size : ℚ) ≤ x.value ↔ UInt64.size * x.ratio.2 ≤ x.ratio.1 := by
    rw [hvalue, le_div_iff₀ hden]
    exact_mod_cast Iff.rfl
  have hnanos : x.value * 1000000000 = (x.ratio.1 * 1000000000 : Nat) / x.ratio.2 := by
    rw [hvalue, Nat.cast_mul, div_mul_eq_mul_div]
    rfl
  rw [hnanos, nearest_div x.ratio_pos]
  exact if_congr hlong.symm rfl rfl

theorem readWindow_of_isWindow (h : IsWindow field x) : readWindow entry field =
    if (UInt64.size : ℚ) ≤ x.value then .error .overflow
    else .ok (nearest (x.value * 1000000000)) := by
  obtain ⟨hread, hfinite, hpos⟩ := h
  unfold readWindow
  rw [hread]
  dsimp only
  rw [hfinite, Bool.true_and, if_pos (by simpa using Binary64.value_pos_iff.mp hpos),
    ofBinary64_of_pos hpos]

theorem readWindow_of_not (hx : Binary64.read? (String.ofList field) = some x)
    (h : ¬ IsWindow field x) : readWindow entry field =
      .error (.error (.invalidRateLimit (String.ofList entry) "window must be positive")) := by
  unfold readWindow
  rw [hx]
  dsimp only
  refine if_neg fun hpositive => h ⟨hx, ?_⟩
  simpa [Binary64.value_pos_iff, and_assoc] using hpositive

/-! ## One entry -/

/-- The fields are read one after the other. -/
theorem readEntry_of (hf : f.Of entry) : readEntry entry =
    readCount entry "limit is not an integer" f.limit >>= fun limit =>
      readWindow entry f.window >>= fun window =>
        match f.weight with
        | none => .ok { path := String.ofList f.path, limit, window }
        | some weight => readCount entry "weight is not an integer" weight >>= fun weight =>
          .ok { path := String.ofList f.path, limit, window, weight } := by
  obtain ⟨hfields, hne⟩ := hf
  have hpath : f.path.isEmpty = false := List.isEmpty_eq_false_iff.mpr hne
  cases hw : f.weight with
  | none =>
    rw [hw] at hfields
    simp only [readEntry, hfields, Option.toList, hpath]
    rfl
  | some weight =>
    rw [hw] at hfields
    simp only [readEntry, hfields, Option.toList, hpath]
    rfl

theorem readEntry_of_not (h : ∀ f : Fields, ¬ f.Of entry) : readEntry entry = .error (.error
    (.invalidRateLimit (String.ofList entry) "expected path:limit:window[:weight]")) := by
  unfold readEntry
  dsimp only
  split
  · rename_i path limit window hfields
    split
    · rfl
    · rename_i hne
      exact absurd ⟨hfields, by simpa using hne⟩ (h ⟨path, limit, window, none⟩)
  · rename_i path limit window weight hfields
    split
    · rfl
    · rename_i hne
      exact absurd ⟨hfields, by simpa using hne⟩ (h ⟨path, limit, window, some weight⟩)
  · rfl

theorem readEntry_of_gives (h : Gives entry f seconds r) : readEntry entry = .ok r := by
  obtain ⟨path, limit, window, weight, margin, linked⟩ := r
  obtain ⟨hf, hpath, hlimit, htime, hshort, hwindow, hweight, hmargin, hlinked⟩ := h
  dsimp only at hpath hlimit hwindow hweight hmargin hlinked
  subst hpath hwindow hmargin hlinked
  rw [readEntry_of hf, readCount_of_isCount hlimit, readWindow_of_isWindow htime,
    if_neg (not_le.mpr hshort)]
  rcases hweight with ⟨hw, rfl⟩ | ⟨w, hw, hcount⟩
  · rw [hw]
    rfl
  · rw [hw]
    dsimp only
    rw [readCount_of_isCount hcount]
    rfl

theorem readEntry_of_fault (h : Fault entry reason) : readEntry entry =
    .error (.error (.invalidRateLimit (String.ofList entry) reason)) := by
  cases h with
  | shape h => exact readEntry_of_not h
  | limit hf h =>
    rw [readEntry_of hf, readCount_of_not h]
    rfl
  | text hf hlimit h =>
    rw [readEntry_of hf, readCount_of_isCount hlimit, readWindow, h]
    rfl
  | sign hf hlimit hx h =>
    rw [readEntry_of hf, readCount_of_isCount hlimit, readWindow_of_not hx h]
    rfl
  | weight hf hlimit hx hshort hw h =>
    rw [readEntry_of hf, readCount_of_isCount hlimit, readWindow_of_isWindow hx,
      if_neg (not_le.mpr hshort), hw]
    dsimp only
    rw [readCount_of_not h]
    rfl

theorem readEntry_of_tooLong (h : TooLong entry) : readEntry entry = .error .overflow := by
  obtain ⟨f, n, x, hf, hlimit, hx, hlong⟩ := h
  rw [readEntry_of hf, readCount_of_isCount hlimit, readWindow_of_isWindow hx, if_pos hlong]
  rfl

theorem readEntry_eq_ok_iff : readEntry entry = .ok r ↔ Says entry r := by
  constructor
  · intro h
    rcases exists_outcome entry with ⟨r', f, seconds, hgives⟩ | ⟨reason, hfault⟩ | hlong
    · rw [readEntry_of_gives hgives] at h
      exact Except.ok.inj h ▸ ⟨f, seconds, hgives⟩
    · rw [readEntry_of_fault hfault] at h
      cases h
    · rw [readEntry_of_tooLong hlong] at h
      cases h
  · rintro ⟨f, seconds, hgives⟩
    exact readEntry_of_gives hgives

theorem readEntry_eq_error_iff {e : Error} : readEntry entry = .error (.error e) ↔
    ∃ reason, Fault entry reason ∧ e = .invalidRateLimit (String.ofList entry) reason := by
  constructor
  · intro h
    rcases exists_outcome entry with ⟨r, f, seconds, hgives⟩ | ⟨reason, hfault⟩ | hlong
    · rw [readEntry_of_gives hgives] at h
      cases h
    · rw [readEntry_of_fault hfault] at h
      exact ⟨reason, hfault, (Halt.error.inj (Except.error.inj h)).symm⟩
    · rw [readEntry_of_tooLong hlong] at h
      cases h
  · rintro ⟨reason, hfault, rfl⟩
    exact readEntry_of_fault hfault

theorem readEntry_eq_overflow_iff : readEntry entry = .error .overflow ↔ TooLong entry := by
  constructor
  · intro h
    rcases exists_outcome entry with ⟨r, f, seconds, hgives⟩ | ⟨reason, hfault⟩ | hlong
    · rw [readEntry_of_gives hgives] at h
      cases h
    · rw [readEntry_of_fault hfault] at h
      cases h
    · exact hlong
  · exact readEntry_of_tooLong

/-- **A window becomes zero if it is half a nanosecond or less.** -/
theorem window_pos_iff {q : ℚ} (hq : 0 ≤ q) :
    0 < nearest (q * 1000000000) ↔ 1 / 2000000000 < q := by
  have hone : ¬ Even 1 := by decide
  rw [← Nat.one_le_iff_ne_zero.trans Nat.pos_iff_ne_zero.symm, le_nearest_iff (by positivity)]
  simp only [hone, and_false, or_false, Nat.cast_one]
  constructor <;> intro h <;> linarith

/-! ## Lists -/

/-- The entries of a list are what stands between its commas, without the blanks around it, where
there is more than blanks. -/
theorem exists_pieces (list : String) : ∃ pieces : List (List Char),
    [','].intercalate pieces = list.toList ∧ (∀ piece ∈ pieces, ',' ∉ piece) ∧
      entries list.toList =
        (pieces.filter fun piece => !piece.all Text.isBlank).map Text.trimChars := by
  refine ⟨Text.splitChars ',' list.toList, Text.split_join ',' list.toList,
    fun piece => Text.not_mem_of_mem_splitChars, ?_⟩
  rw [entries, List.filter_map]
  refine congrArg (List.map _) (List.filter_congr fun piece _ => ?_)
  have hblank : (Text.trimChars piece).isEmpty = piece.all Text.isBlank := by
    rw [Bool.eq_iff_iff, List.isEmpty_iff, Text.trimChars_eq_nil_iff]
  rw [Function.comp_apply, hblank]

theorem readAll_eq_ok_iff {list : String} {limits : List RateLimit} :
    readAll list = .ok limits ↔ List.Forall₂ Says (entries list.toList) limits := by
  rw [readAll, mapM_eq_ok_iff_forall₂]
  simp only [readEntry_eq_ok_iff]

theorem readAll_eq_error_iff {list : String} {e : Error} : readAll list = .error (.error e) ↔
    ∃ before entry after reason, entries list.toList = before ++ entry :: after ∧
      (∀ e ∈ before, ∃ r, Says e r) ∧ Fault entry reason ∧
      e = .invalidRateLimit (String.ofList entry) reason := by
  rw [readAll, mapM_eq_error_iff_exists]
  simp only [readEntry_eq_ok_iff, readEntry_eq_error_iff]
  constructor
  · rintro ⟨before, entry, after, hentries, hbefore, reason, hfault, he⟩
    exact ⟨before, entry, after, reason, hentries, hbefore, hfault, he⟩
  · rintro ⟨before, entry, after, reason, hentries, hbefore, hfault, he⟩
    exact ⟨before, entry, after, hentries, hbefore, reason, hfault, he⟩

theorem readAll_eq_overflow_iff {list : String} : readAll list = .error .overflow ↔
    ∃ before entry after, entries list.toList = before ++ entry :: after ∧
      (∀ e ∈ before, ∃ r, Says e r) ∧ TooLong entry := by
  rw [readAll, mapM_eq_error_iff_exists]
  simp only [readEntry_eq_ok_iff, readEntry_eq_overflow_iff]

/-- The list is read without an end before its time: as its limits, with windows that are not zero,
or with an error that names the first entry that is no limit. -/
def ReadsSoundly (list : String) : Prop :=
  (∃ limits, readAll list = .ok limits ∧ List.Forall₂ Says (entries list.toList) limits ∧
    ∀ r ∈ limits, 0 < r.window) ∨
  ∃ before entry after reason, entries list.toList = before ++ entry :: after ∧
    (∀ e ∈ before, ∃ r, Says e r) ∧ Fault entry reason ∧
    readAll list = .error (.error (.invalidRateLimit (String.ofList entry) reason))

/-- No entry that is met has a window that is too long, and if all are limits, none has a window of
half a nanosecond or less. -/
def WindowsKept (list : String) : Prop :=
  (∀ before entry after, entries list.toList = before ++ entry :: after →
    (∀ e ∈ before, ∃ r, Says e r) → ¬ TooLong entry) ∧
  ((∀ e ∈ entries list.toList, ∃ r, Says e r) →
    ∀ e ∈ entries list.toList, ∀ f seconds r, Gives e f seconds r →
      1 / 2000000000 < seconds.value)

theorem Gives.window_pos_iff (h : Gives entry f seconds r) :
    0 < r.window ↔ 1 / 2000000000 < seconds.value := by
  rw [h.window]
  exact RateLimit.window_pos_iff h.time.2.2.le

theorem readsSoundly_iff {list : String} : ReadsSoundly list ↔ WindowsKept list := by
  constructor
  · rintro (⟨limits, hread, hsays, hpos⟩ | ⟨before, entry, after, reason, hentries, hbefore,
      hfault, hread⟩)
    · refine ⟨fun before entry after hentries hbefore hlong => ?_, fun _ e he f seconds r h => ?_⟩
      · rw [readAll_eq_overflow_iff.mpr ⟨before, entry, after, hentries, hbefore, hlong⟩] at hread
        cases hread
      · obtain ⟨r', hr', hsame⟩ := exists_result_of_mem hread he
        rw [readEntry_of_gives h] at hsame
        exact h.window_pos_iff.mp (Except.ok.inj hsame ▸ hpos r' hr')
    · refine ⟨fun before entry after hentries hbefore hlong => ?_, fun hall => ?_⟩
      · rw [readAll_eq_overflow_iff.mpr ⟨before, entry, after, hentries, hbefore, hlong⟩] at hread
        cases hread
      · obtain ⟨r, hr⟩ := hall entry (by simp [hentries])
        rw [← readEntry_eq_ok_iff, readEntry_of_fault hfault] at hr
        cases hr
  · rintro ⟨hlong, hwindows⟩
    cases hread : readAll list with
    | ok limits =>
      refine .inl ⟨limits, hread, readAll_eq_ok_iff.mp hread, fun r hr => ?_⟩
      obtain ⟨e, he, hr⟩ := exists_of_mem_mapM hread hr
      obtain ⟨f, seconds, h⟩ := readEntry_eq_ok_iff.mp hr
      refine h.window_pos_iff.mpr (hwindows (fun e he => ?_) e he f seconds r h)
      obtain ⟨r', -, hr'⟩ := exists_result_of_mem hread he
      exact ⟨r', readEntry_eq_ok_iff.mp hr'⟩
    | error halt =>
      cases halt with
      | error e =>
        obtain ⟨before, entry, after, reason, hentries, hbefore, hfault, rfl⟩ :=
          readAll_eq_error_iff.mp hread
        exact .inr ⟨before, entry, after, reason, hentries, hbefore, hfault, hread⟩
      | overflow =>
        obtain ⟨before, entry, after, hentries, hbefore, htoo⟩ := readAll_eq_overflow_iff.mp hread
        exact absurd htoo (hlong before entry after hentries hbefore)

theorem Gives.path_trimmed (h : Gives entry f seconds r) :
    r.path ≠ "" ∧ Text.Trimmed r.path.toList := by
  have hpath : r.path.toList = f.path := by rw [h.path, String.toList_ofList]
  refine ⟨fun hempty => h.fields.2 ?_, ?_⟩
  · rw [← hpath, hempty]
    rfl
  · have hmem : f.path ∈ (Text.splitChars ':' entry).map Text.trimChars := by
      rw [h.fields.1]
      exact List.mem_cons_self
    obtain ⟨field, -, hfield⟩ := List.mem_map.mp hmem
    rw [hpath, ← hfield]
    exact Text.trimmed_trimChars field

/-- **How a list of limits is read.** Its entries are what stands between commas, trimmed, where
there is more than blanks. It has limits exactly if each entry is one, and these, in order; their
paths are not empty and trimmed. It is refused exactly if an entry has a fault before which each
entry is a limit, and the error names that entry and the fault. The reading ends without an answer
exactly if the window of such an entry is too long. So a list is read as it should be exactly if
its windows are neither too long nor half a nanosecond or less. -/
theorem readAll_outcome (list : String) :
    (∃ pieces : List (List Char), [','].intercalate pieces = list.toList ∧
      (∀ piece ∈ pieces, ',' ∉ piece) ∧ entries list.toList =
        (pieces.filter fun piece => !piece.all Text.isBlank).map Text.trimChars) ∧
    (∀ limits, readAll list = .ok limits ↔ List.Forall₂ Says (entries list.toList) limits) ∧
    (∀ limits, readAll list = .ok limits →
      ∀ r ∈ limits, r.path ≠ "" ∧ Text.Trimmed r.path.toList) ∧
    (∀ e, readAll list = .error (.error e) ↔ ∃ before entry after reason,
      entries list.toList = before ++ entry :: after ∧ (∀ e ∈ before, ∃ r, Says e r) ∧
      Fault entry reason ∧ e = .invalidRateLimit (String.ofList entry) reason) ∧
    (readAll list = .error .overflow ↔ ∃ before entry after,
      entries list.toList = before ++ entry :: after ∧ (∀ e ∈ before, ∃ r, Says e r) ∧
      TooLong entry) ∧
    (ReadsSoundly list ↔ WindowsKept list) := by
  refine ⟨exists_pieces list, fun _ => readAll_eq_ok_iff, fun limits hread r hr => ?paths,
    fun _ => readAll_eq_error_iff, readAll_eq_overflow_iff, readsSoundly_iff⟩
  case paths =>
    obtain ⟨entry, -, hentry⟩ := exists_of_mem_mapM hread hr
    obtain ⟨f, seconds, h⟩ := readEntry_eq_ok_iff.mp hentry
    exact h.path_trimmed

/-- Two limits, with blanks and an empty entry between them. -/
theorem readAll_outcome_two :
    let limits : List RateLimit := [{ path := "/orders", limit := 2, window := 1500000000 },
      { path := "/book", limit := 10, window := 60000000000, weight := 2 }]
    readAll "/orders:2:1.5, , /book : 10:60:2" = .ok limits ∧
      (∀ r ∈ limits, r.path ≠ "" ∧ Text.Trimmed r.path.toList) ∧
      ReadsSoundly "/orders:2:1.5, , /book : 10:60:2" := by
  intro limits
  have hread : readAll "/orders:2:1.5, , /book : 10:60:2" = .ok limits := by decide +kernel
  obtain ⟨-, hok, hpaths, -⟩ := readAll_outcome "/orders:2:1.5, , /book : 10:60:2"
  exact ⟨hread, hpaths limits hread, .inl ⟨limits, hread, (hok limits).mp hread, by decide⟩⟩

/-- **Windows that are not kept.** A tenth of a nanosecond is accepted as a window of zero, and a
hundred trillion seconds and more end the reading. -/
theorem windows_lost :
    (readAll "/orders:2:0.0000000001" = .ok [{ path := "/orders", limit := 2, window := 0 }] ∧
      ¬ ReadsSoundly "/orders:2:0.0000000001") ∧
    readAll "/orders:2:1e20" = .error .overflow ∧ ¬ ReadsSoundly "/orders:2:1e20" := by
  have hzero : readAll "/orders:2:0.0000000001" =
      .ok [{ path := "/orders", limit := 2, window := 0 }] := by decide +kernel
  have hend : readAll "/orders:2:1e20" = .error .overflow := by decide +kernel
  refine ⟨⟨hzero, ?_⟩, hend, ?_⟩
  · rintro (⟨limits, hread, -, hpos⟩ | ⟨_, _, _, _, -, -, -, hread⟩)
    · obtain rfl := Except.ok.inj (hzero.symm.trans hread)
      exact absurd (hpos _ List.mem_cons_self) (by decide)
    · cases hzero.symm.trans hread
  · rintro (⟨limits, hread, -⟩ | ⟨_, _, _, _, -, -, -, hread⟩)
    · cases hend.symm.trans hread
    · cases hend.symm.trans hread

end BookFeed.RateLimit

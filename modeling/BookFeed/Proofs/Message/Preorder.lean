import BookFeed.Proofs.Binary64.Value
import BookFeed.Proofs.Message.Order

/-!
# The order of messages and its cuts

Messages are compared by the bits of their times, and at one time by their kinds. As that is a
comparison of places (`Message.place`), it is a total preorder, and messages are alike in it exactly
if time and kind are the same. Times that differ as numbers decide alone; of the two zeros, which do
not, the negative one comes first.

A cut of a sorted sequence is looked for by halving (`partitionPoint`), in a queue that is kept in
two parts by first asking in which part it is (`partitionPointOf`).

* `search_spec`: what halving finds;
* `partitionPointOf_eq`: it is the length of the part that passes the test;
* **`compare_lawful`**: the laws of the order, and what the cut at a message leaves on either side.
-/

namespace BookFeed

/-! ## Cuts -/

section Cuts

variable {α : Type} {p : α → Bool} {l : List α}

/-- Looks at the middle of `size` entries from `base` on, and goes on in the half where the last
entry that passes the test is. -/
def search (p : α → Bool) (l : List α) (base size : Nat) : Nat :=
  if size ≤ 1 then base
  else search p l (if l[base + size / 2]?.any p then base + size / 2 else base) (size - size / 2)
termination_by size

/-- The place of the first entry that does not pass the test, if those that do come first. -/
def partitionPoint (p : α → Bool) (l : List α) : Nat :=
  let base := search p l 0 l.length
  if l[base]?.any p then base + 1 else base

/-- The same in a sequence that is kept in two parts. -/
def partitionPointOf (p : α → Bool) (front back : List α) : Nat :=
  if back.head?.any p then front.length + partitionPoint p back else partitionPoint p front

/-- The entries that pass the test come first. -/
abbrev Parted (p : α → Bool) (l : List α) : Prop := l.Pairwise fun a b => p b = true → p a = true

theorem Parted.any_getElem?_iff (h : Parted p l) (i : Nat) :
    l[i]?.any p = true ↔ i < (l.takeWhile p).length := by
  induction l generalizing i with
  | nil => simp
  | cons a l ih =>
    obtain ⟨ha, hl⟩ := List.pairwise_cons.mp h
    by_cases hp : p a = true
    · rw [List.takeWhile_cons_of_pos hp]
      cases i with
      | zero => simp [hp]
      | succ i => simp [ih hl]
    · rw [List.takeWhile_cons_of_neg hp]
      cases i with
      | zero => simp [hp]
      | succ i =>
        simp only [List.getElem?_cons_succ, List.length_nil, Nat.not_lt_zero, iff_false]
        intro hany
        obtain ⟨b, hb, hpb⟩ := (Option.any_eq_true p _).mp hany
        exact hp (ha b (List.mem_of_getElem? hb) hpb)

/-- **Halving ends at the last entry that passes the test**, or at the start if none does. Up to
`base` all pass, unless it is the start, and behind the range none does. -/
theorem search_spec (h : Parted p l) {base size : Nat} (hsize : 0 < size)
    (hbase : base = 0 ∨ base < (l.takeWhile p).length)
    (hend : (l.takeWhile p).length ≤ base + size) :
    (search p l base size = 0 ∨ search p l base size < (l.takeWhile p).length) ∧
      (l.takeWhile p).length ≤ search p l base size + 1 := by
  fun_induction search p l base size with
  | case1 base size hone =>
    exact ⟨hbase, by omega⟩
  | case2 base size hmore ih =>
    have hmiddle := h.any_getElem?_iff (base + size / 2)
    by_cases hp : l[base + size / 2]?.any p = true
    · rw [dif_pos hp] at ih
      rw [if_pos hp]
      exact ih (by omega) (.inr (hmiddle.mp hp)) (by omega)
    · rw [dif_neg hp] at ih
      rw [if_neg hp]
      have hbelow := mt hmiddle.mpr hp
      exact ih (by omega) hbase (by omega)

theorem partitionPoint_eq (h : Parted p l) : partitionPoint p l = (l.takeWhile p).length := by
  by_cases hl : l = []
  · subst hl
    simp [partitionPoint, search]
  · have hlength := (List.takeWhile_prefix p (l := l)).length_le
    obtain ⟨hfound, hend⟩ := search_spec h (List.length_pos_of_ne_nil hl) (.inl rfl) (by omega)
    have hlast := h.any_getElem?_iff (search p l 0 l.length)
    unfold partitionPoint
    dsimp only
    split
    · rename_i hp
      have hp := hlast.mp hp
      omega
    · rename_i hp
      have hp := mt hlast.mpr hp
      omega

/-- **A cut is found in both parts.** -/
theorem partitionPointOf_eq {front back : List α} (h : Parted p (front ++ back)) :
    partitionPointOf p front back = ((front ++ back).takeWhile p).length := by
  obtain ⟨hfront, hback, hacross⟩ := List.pairwise_append.mp h
  unfold partitionPointOf
  split
  · rename_i hhead
    obtain ⟨b, hb, hpb⟩ := (Option.any_eq_true p _).mp hhead
    have hall : ∀ a ∈ front, p a = true := fun a ha =>
      hacross a ha b (List.mem_of_head? hb) hpb
    rw [partitionPoint_eq hback, List.takeWhile_append_of_pos hall, List.length_append]
  · rename_i hhead
    have hnone : back.takeWhile p = [] := by
      cases back with
      | nil => rfl
      | cons b back => exact List.takeWhile_cons_of_neg (by simpa using hhead)
    rw [partitionPoint_eq hfront, List.takeWhile_append, hnone, List.append_nil]
    split
    · rename_i heq
      rw [heq]
    · rfl

/-- Cutting there leaves what comes first and passes the test, and the rest. -/
theorem split_takeWhile (p : α → Bool) (l : List α) :
    l.take (l.takeWhile p).length = l.takeWhile p ∧
      l.drop (l.takeWhile p).length = l.dropWhile p := by
  refine ⟨(List.prefix_iff_eq_take.mp (List.takeWhile_prefix p)).symm, ?_⟩
  have h := @List.drop_left α (l.takeWhile p) (l.dropWhile p)
  rwa [List.takeWhile_append_dropWhile] at h

end Cuts

theorem MessageKind.rank_lt_iff {k l : MessageKind} :
    k.rank < l.rank ↔ k = .snapshot ∧ l ≠ .snapshot ∨ k = .diff ∧ l = .trade := by
  cases k <;> cases l <;> decide

namespace Message

variable {a b c m : Message}

/-! ## Laws -/

theorem notAfter_trans (hab : a.notAfter b = true) (hbc : b.notAfter c = true) :
    a.notAfter c = true := by
  rw [notAfter_iff] at hab hbc ⊢
  exact hab.trans hbc

theorem notAfter_total (a b : Message) : a.notAfter b = true ∨ b.notAfter a = true := by
  rw [notAfter_iff, notAfter_iff]
  exact le_total a.place b.place

theorem sameOrder_of_notAfter (hab : a.notAfter b = true) (hba : b.notAfter a = true) :
    a.sameOrder b = true := by
  rw [notAfter_iff] at hab hba
  exact sameOrder_iff.mpr (le_antisymm hab hba)

theorem compare_swap (a b : Message) : (a.compare b).swap = b.compare a := by
  rw [compare_eq_compare_place, compare_eq_compare_place b]
  exact Std.OrientedCmp.eq_swap.symm

/-- Messages are alike in the order exactly if kind and bits of the time are. -/
theorem sameOrder_iff_kind_bits :
    a.sameOrder b = true ↔ a.kind = b.kind ∧ a.timestamp.bits = b.timestamp.bits := by
  rw [sameOrder_iff, place_eq_iff, and_comm]
  exact and_congr Iff.rfl ⟨congrArg _, fun h => congrArg Binary64.mk h⟩

theorem sameOrder_equivalence : Equivalence fun a b : Message => a.sameOrder b = true where
  refl _ := sameOrder_iff.mpr rfl
  symm h := sameOrder_iff.mpr (sameOrder_iff.mp h).symm
  trans h h' := sameOrder_iff.mpr ((sameOrder_iff.mp h).trans (sameOrder_iff.mp h'))

/-! ## Times and kinds -/

/-- The earlier message comes first, whatever the kinds are. -/
theorem before_of_value_lt (h : a.timestamp.value < b.timestamp.value) : a.before b = true := by
  have hkey := Binary64.totalKey_lt_of_value_lt h
  have hrank := a.kind.rank_lt
  rw [before_iff, place, place]
  omega

theorem compare_eq_lt_of_value_lt (h : a.timestamp.value < b.timestamp.value) :
    a.compare b = .lt ∧ b.compare a = .gt := by
  have hlt : a.compare b = .lt := beq_iff_eq.mp (before_of_value_lt h)
  exact ⟨hlt, by rw [← compare_swap, hlt]; rfl⟩

/-- At one time a snapshot comes before a diff and a diff before a trade. -/
theorem compare_eq_lt_iff_kind (h : a.timestamp = b.timestamp) : a.compare b = .lt ↔
    a.kind = .snapshot ∧ b.kind ≠ .snapshot ∨ a.kind = .diff ∧ b.kind = .trade := by
  rw [← MessageKind.rank_lt_iff, ← beq_iff_eq, ← before, before_iff, place, place, h]
  omega

/-! ## The cut at a message -/

variable {front back : List Message}

/-- **The cut of a sorted queue at a message**: in front of it is what does not order after the
message, behind it what does. -/
theorem partitionPointOf_notAfter (m : Message)
    (h : (front ++ back).Pairwise fun a b => a.notAfter b = true) :
    let cut := partitionPointOf (·.notAfter m) front back
    (front ++ back).take cut = (front ++ back).filter (·.notAfter m) ∧
      (front ++ back).drop cut = (front ++ back).filter (m.before ·) := by
  have hordered : Ordered (front ++ back) := h.imp fun hab => notAfter_iff.mp hab
  dsimp only
  rw [partitionPointOf_eq (notAfter_mono hordered m), ← takeWhile_notAfter hordered,
    ← dropWhile_notAfter hordered]
  exact split_takeWhile _ _

/-- **The order of messages is a total preorder.** It is reflexive, transitive and total, messages
that do not order after each other are alike, and being alike is an equivalence: the kinds and the
bits of the times are the same. Times that differ as numbers decide; times that do not are the same
bits or the two zeros, and at one time a snapshot comes before a diff and a diff before a trade. A
sorted queue, in whatever two parts it is kept, is cut at a message into what does not order after
it and what does, which is where a window is cut. -/
theorem compare_lawful :
    ((∀ a : Message, a.compare a = .eq) ∧
      (∀ a b : Message, (a.compare b).swap = b.compare a) ∧
      (∀ a b : Message, a.notAfter b = true → b.notAfter a = true → a.sameOrder b = true) ∧
      (∀ a b c : Message, a.notAfter b = true → b.notAfter c = true → a.notAfter c = true) ∧
      ∀ a b : Message, a.notAfter b = true ∨ b.notAfter a = true) ∧
    ((∀ a b : Message, a.sameOrder b = true ↔ a.compare b = .eq) ∧
      (∀ a b : Message,
        a.sameOrder b = true ↔ a.kind = b.kind ∧ a.timestamp.bits = b.timestamp.bits) ∧
      Equivalence fun a b : Message => a.sameOrder b = true) ∧
    ((∀ a b : Message, a.timestamp.value < b.timestamp.value →
        a.compare b = .lt ∧ b.compare a = .gt) ∧
      (∀ a b : Message, a.timestamp.value = b.timestamp.value →
        a.timestamp = b.timestamp ∨ a.timestamp.isZero = true ∧ b.timestamp.isZero = true) ∧
      ∀ a b : Message, a.timestamp = b.timestamp → (a.compare b = .lt ↔
        a.kind = .snapshot ∧ b.kind ≠ .snapshot ∨ a.kind = .diff ∧ b.kind = .trade)) ∧
    ∀ (m : Message) (front back : List Message),
      (front ++ back).Pairwise (fun a b => a.notAfter b = true) →
      let cut := partitionPointOf (·.notAfter m) front back
      cut = ((front ++ back).takeWhile (·.notAfter m)).length ∧
        (front ++ back).take cut = (front ++ back).filter (·.notAfter m) ∧
        (front ++ back).drop cut = (front ++ back).filter (m.before ·) := by
  refine ⟨⟨?refl, compare_swap, fun _ _ => sameOrder_of_notAfter, fun _ _ _ => notAfter_trans,
      notAfter_total⟩, ⟨fun _ _ => beq_iff_eq, fun _ _ => sameOrder_iff_kind_bits,
      sameOrder_equivalence⟩, ⟨fun _ _ => compare_eq_lt_of_value_lt,
      fun _ _ => Binary64.value_eq_iff.mp, fun _ _ => compare_eq_lt_iff_kind⟩, ?cut⟩
  case refl => exact fun a => beq_iff_eq.mp (sameOrder_equivalence.refl a)
  case cut =>
    intro m front back h
    have hordered : Ordered (front ++ back) := h.imp fun hab => notAfter_iff.mp hab
    exact ⟨partitionPointOf_eq (notAfter_mono hordered m), partitionPointOf_notAfter m h⟩

/-- The order at the two zeros: a diff of negative zero comes before a snapshot of zero, and a queue
of two parts is cut at a diff of zero. -/
theorem compare_lawful_zeros :
    let early : Message := ⟨.diff, ⟨0x8000000000000000⟩, "B", 1, none, .events []⟩
    let opening : Message := ⟨.snapshot, ⟨0⟩, "B", 2, none, .orders []⟩
    let change : Message := ⟨.diff, ⟨0⟩, "B", 3, none, .events []⟩
    let later : Message := ⟨.diff, ⟨0x3ff0000000000000⟩, "B", 4, none, .events []⟩
    (early.timestamp.value = opening.timestamp.value ∧ early.compare opening = .lt) ∧
      (change.timestamp.value < later.timestamp.value ∧ change.compare later = .lt) ∧
      (opening.timestamp = change.timestamp ∧ opening.compare change = .lt) ∧
      ([early, opening] ++ [change, later]).Pairwise (fun a b => a.notAfter b = true) ∧
      [early, opening, change, later].take 3 =
        [early, opening, change, later].filter (·.notAfter change) := by
  intro early opening change later
  obtain ⟨-, -, ⟨hearlier, -, hkinds⟩, hcut⟩ := compare_lawful
  have hvalue : change.timestamp.value < later.timestamp.value := by
    have hzero : change.timestamp.value = 0 := by decide +kernel
    have hone : later.timestamp.value = 1 := by decide +kernel
    rw [hzero, hone]
    exact zero_lt_one
  have hsorted : ([early, opening] ++ [change, later]).Pairwise fun a b => a.notAfter b = true := by
    decide +kernel
  obtain ⟨hpoint, htake, -⟩ := hcut change [early, opening] [change, later] hsorted
  refine ⟨⟨by decide +kernel, by decide +kernel⟩, ⟨hvalue, (hearlier _ _ hvalue).1⟩,
    ⟨rfl, (hkinds opening change rfl).mpr (.inl ⟨rfl, by decide⟩)⟩, hsorted, ?_⟩
  have hthree : partitionPointOf (·.notAfter change) [early, opening] [change, later] = 3 := by
    rw [hpoint]
    decide +kernel
  rwa [hthree] at htake

end Message

end BookFeed

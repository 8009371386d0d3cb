import BookFeed.Sorted
import Mathlib.Data.List.Forall2
import Mathlib.Order.Compare

/-!
# Reading sorted association lists

What `insert` and `erase` do to a look-up, for any order `cmp` that is transitive. Such an order may
take two spellings for one key, so keys are compared by `cmp` and never by `=`.

* `get?_insert` holds of every list, `get?_erase` of a list in strict order (`Strict`), where no key
  stands twice. Both operations keep that order (`strict_insert`, `strict_erase`).
* `alike_of_get?_eq`: lists in strict order that answer every look-up alike are entry by entry the
  same, up to the spelling of their keys. Where each key has one spelling they are equal (`ext`).
* `stored?` is a look-up that answers the key as well, in the spelling under which it stands. Lists
  in strict order that agree on it are equal (`eq_of_stored?_eq`).
-/

namespace BookFeed.Sorted

variable {α β : Type} {cmp : α → α → Ordering} {k k' : α} {v : β} {l l' : List (α × β)} {e : α × β}

/-- The keys rise strictly. -/
def Strict (cmp : α → α → Ordering) (l : List (α × β)) : Prop :=
  l.Pairwise fun a b => cmp a.1 b.1 = .lt

/-- The same values under the same keys, however these are spelled. -/
def Alike (cmp : α → α → Ordering) (l l' : List (α × β)) : Prop :=
  List.Forall₂ (fun a b => cmp a.1 b.1 = .eq ∧ a.2 = b.2) l l'

/-! ## Any order of keys -/

theorem get?_eq_none (h : ∀ e ∈ l, cmp k e.1 ≠ .eq) : get? cmp k l = none := by
  induction l with
  | nil => rfl
  | cons e l ih =>
    rw [get?, if_neg (h e List.mem_cons_self)]
    exact ih fun e' he' => h e' (List.mem_cons_of_mem _ he')

/-- What is found stands in the list. -/
theorem mem_of_get? (h : get? cmp k l = some v) : ∃ e ∈ l, cmp k e.1 = .eq ∧ e.2 = v := by
  induction l with
  | nil => exact absurd h (by simp [get?])
  | cons e l ih =>
    rw [get?] at h
    split at h
    · rename_i hk
      exact ⟨e, List.mem_cons_self, hk, Option.some.inj h⟩
    · obtain ⟨e', he', hk, hv⟩ := ih h
      exact ⟨e', List.mem_cons_of_mem _ he', hk, hv⟩

/-- A key that is greater than all others goes to the end. -/
theorem insert_of_gt (h : ∀ e ∈ l, cmp k e.1 = .gt) : insert cmp k v l = l ++ [(k, v)] := by
  induction l with
  | nil => rfl
  | cons e l ih =>
    obtain ⟨a, w⟩ := e
    have hka := h (a, w) List.mem_cons_self
    simp only [insert, hka, List.cons_append]
    rw [ih fun e he => h e (List.mem_cons_of_mem _ he)]

theorem length_insert_le (k : α) (v : β) (l : List (α × β)) :
    (insert cmp k v l).length ≤ l.length + 1 := by
  induction l with
  | nil => exact Nat.le_refl 1
  | cons e l ih =>
    simp only [insert]
    split
    · exact Nat.le_refl _
    · exact Nat.le_succ _
    · exact Nat.succ_le_succ ih

theorem erase_sublist (k : α) (l : List (α × β)) : (erase cmp k l).Sublist l := by
  induction l with
  | nil => exact List.Sublist.refl _
  | cons e l ih =>
    simp only [erase]
    split
    · exact List.sublist_cons_self _ _
    · exact ih.cons_cons _

theorem erase_of_get?_eq_none (h : get? cmp k l = none) : erase cmp k l = l := by
  induction l with
  | nil => rfl
  | cons e l ih =>
    rw [get?] at h
    rw [erase]
    split
    · rename_i hk
      exact absurd h (by rw [if_pos hk]; simp)
    · rename_i hk
      rw [ih (by rwa [if_neg hk] at h)]

theorem strict_erase (hl : Strict cmp l) (k : α) : Strict cmp (erase cmp k l) :=
  hl.sublist (erase_sublist k l)

/-! ## Looking up -/

variable [Std.TransCmp cmp]

/-- No key stands twice. -/
theorem Strict.nodup (hl : Strict cmp l) : (l.map (·.1)).Nodup := by
  refine List.pairwise_map.mpr (hl.imp fun {a b} hlt heq => ?_)
  have hself : cmp a.1 b.1 = .eq := heq ▸ Std.ReflCmp.compare_self
  exact absurd (hlt.symm.trans hself) (by decide)

theorem get?_congr (h : cmp k k' = .eq) (l : List (α × β)) : get? cmp k l = get? cmp k' l := by
  induction l with
  | nil => rfl
  | cons e l ih => simp only [get?, Std.TransCmp.congr_left h, ih]

/-- What stands in a list of strict order is found. -/
theorem get?_of_mem (hl : Strict cmp l) (he : e ∈ l) (hk : cmp k e.1 = .eq) :
    get? cmp k l = some e.2 := by
  induction l with
  | nil => exact absurd he List.not_mem_nil
  | cons x l ih =>
    obtain ⟨hx, hl⟩ := List.pairwise_cons.mp hl
    rw [get?]
    rcases List.mem_cons.mp he with rfl | he
    · rw [if_pos hk]
    · have hlt : cmp x.1 k = .lt :=
        Std.TransCmp.lt_of_lt_of_eq (hx e he) (Std.OrientedCmp.eq_symm hk)
      rw [if_neg, ih hl he]
      intro heq
      rw [Std.OrientedCmp.eq_symm heq] at hlt
      exact absurd hlt (by decide)

/-! ## Putting in -/

theorem get?_insert (k k' : α) (v : β) (l : List (α × β)) :
    get? cmp k' (insert cmp k v l) = if cmp k' k = .eq then some v else get? cmp k' l := by
  induction l with
  | nil => rfl
  | cons e l ih =>
    obtain ⟨a, w⟩ := e
    simp only [insert]
    split
    · rfl
    · rename_i hka
      rw [get?, get?, Std.TransCmp.congr_right hka]
      split <;> rfl
    · rename_i hka
      rw [get?, get?, ih]
      by_cases hk : cmp k' k = .eq
      · rw [if_neg (by rw [Std.TransCmp.congr_left hk, hka]; decide), if_pos hk, if_pos hk]
      · rw [if_neg hk, if_neg hk]

theorem get?_insert_self (k : α) (v : β) (l : List (α × β)) :
    get? cmp k (insert cmp k v l) = some v := by
  rw [get?_insert, if_pos Std.ReflCmp.compare_self]

theorem get?_insert_of_ne [Std.LawfulEqCmp cmp] (h : k' ≠ k) (v : β) (l : List (α × β)) :
    get? cmp k' (insert cmp k v l) = get? cmp k' l := by
  rw [get?_insert, if_neg fun heq => h (Std.LawfulEqCmp.eq_of_compare heq)]

theorem mem_insert (h : e ∈ insert cmp k v l) : e.2 = v ∧ cmp k e.1 = .eq ∨ e ∈ l := by
  induction l with
  | nil =>
    obtain rfl := List.mem_singleton.mp h
    exact .inl ⟨rfl, Std.ReflCmp.compare_self⟩
  | cons x l ih =>
    obtain ⟨a, w⟩ := x
    simp only [insert] at h
    split at h
    · rcases List.mem_cons.mp h with rfl | h
      · exact .inl ⟨rfl, Std.ReflCmp.compare_self⟩
      · exact .inr h
    · rename_i hka
      rcases List.mem_cons.mp h with rfl | h
      · exact .inl ⟨rfl, hka⟩
      · exact .inr (List.mem_cons_of_mem _ h)
    · rcases List.mem_cons.mp h with rfl | h
      · exact .inr List.mem_cons_self
      · exact (ih h).imp_right (List.mem_cons_of_mem _)

theorem strict_insert (hl : Strict cmp l) (k : α) (v : β) : Strict cmp (insert cmp k v l) := by
  induction l with
  | nil => exact List.pairwise_singleton _ _
  | cons x l ih =>
    obtain ⟨a, w⟩ := x
    obtain ⟨hx, hl'⟩ := List.pairwise_cons.mp hl
    simp only [insert]
    split
    · rename_i hka
      refine List.pairwise_cons.mpr ⟨fun e he => ?_, hl⟩
      rcases List.mem_cons.mp he with rfl | he
      · exact hka
      · exact Std.TransCmp.lt_trans hka (hx e he)
    · exact List.pairwise_cons.mpr ⟨hx, hl'⟩
    · rename_i hka
      refine List.pairwise_cons.mpr ⟨fun e he => ?_, ih hl'⟩
      have hak : cmp a k = .lt := Std.OrientedCmp.gt_iff_lt.mp hka
      rcases mem_insert he with ⟨-, hke⟩ | he
      · exact Std.TransCmp.lt_of_lt_of_eq hak hke
      · exact hx e he

/-! ## Taking away -/

theorem get?_erase (hl : Strict cmp l) (k k' : α) :
    get? cmp k' (erase cmp k l) = if cmp k' k = .eq then none else get? cmp k' l := by
  induction l with
  | nil => simp [erase, get?]
  | cons e l ih =>
    obtain ⟨a, w⟩ := e
    obtain ⟨hx, hl'⟩ := List.pairwise_cons.mp hl
    simp only [erase]
    split
    · rename_i hka
      rw [get?, Std.TransCmp.congr_right hka]
      split
      · rename_i hk
        -- the keys that follow are greater
        refine get?_eq_none fun e he heq => ?_
        have := hx e he
        rw [← Std.TransCmp.congr_left hk, heq] at this
        exact absurd this (by decide)
      · rfl
    · rename_i hka
      rw [get?, get?, ih hl']
      by_cases hk : cmp k' k = .eq
      · rw [if_neg (by rw [Std.TransCmp.congr_left hk]; exact hka), if_pos hk, if_pos hk]
      · rw [if_neg hk, if_neg hk]

/-! ## Sets of keys -/

omit [Std.TransCmp cmp] in
theorem mem_insertKey_of_mem {ks : List α} (h : k' ∈ ks) : k' ∈ insertKey cmp k ks := by
  induction ks with
  | nil => exact absurd h List.not_mem_nil
  | cons a ks ih =>
    simp only [insertKey]
    split
    · exact List.mem_cons_of_mem _ h
    · exact h
    · exact (List.mem_cons.mp h).elim (fun h => h ▸ List.mem_cons_self)
        fun h => List.mem_cons_of_mem _ (ih h)

/-- The key, in some spelling, is there after it has been put in. -/
theorem exists_mem_insertKey (k : α) (ks : List α) : ∃ k' ∈ insertKey cmp k ks, cmp k k' = .eq := by
  induction ks with
  | nil => exact ⟨k, List.mem_cons_self, Std.ReflCmp.compare_self⟩
  | cons a ks ih =>
    simp only [insertKey]
    split
    · exact ⟨k, List.mem_cons_self, Std.ReflCmp.compare_self⟩
    · rename_i hka
      exact ⟨a, List.mem_cons_self, hka⟩
    · obtain ⟨k', hk', heq⟩ := ih
      exact ⟨k', List.mem_cons_of_mem _ hk', heq⟩

omit [Std.TransCmp cmp] in
theorem eq_or_mem_of_mem_insertKey {ks : List α} (h : k' ∈ insertKey cmp k ks) :
    k' = k ∨ k' ∈ ks := by
  induction ks with
  | nil => exact .inl (List.mem_singleton.mp h)
  | cons a ks ih =>
    simp only [insertKey] at h
    split at h
    · exact List.mem_cons.mp h
    · exact .inr h
    · rcases List.mem_cons.mp h with rfl | h
      · exact .inr List.mem_cons_self
      · exact (ih h).imp_right (List.mem_cons_of_mem _)

/-- Keys that rise strictly still do after another one has been put in. -/
theorem pairwise_insertKey {ks : List α} (h : ks.Pairwise fun a b => cmp a b = .lt) (k : α) :
    (insertKey cmp k ks).Pairwise fun a b => cmp a b = .lt := by
  induction ks with
  | nil => exact List.pairwise_singleton _ _
  | cons a ks ih =>
    obtain ⟨ha, hks⟩ := List.pairwise_cons.mp h
    simp only [insertKey]
    split
    · rename_i hka
      refine List.pairwise_cons.mpr ⟨fun b hb => ?_, h⟩
      rcases List.mem_cons.mp hb with rfl | hb
      · exact hka
      · exact Std.TransCmp.lt_trans hka (ha b hb)
    · exact h
    · rename_i hka
      refine List.pairwise_cons.mpr ⟨fun b hb => ?_, ih hks⟩
      rcases eq_or_mem_of_mem_insertKey hb with rfl | hb
      · exact Std.OrientedCmp.gt_iff_lt.mp hka
      · exact ha b hb

/-! ## Lists that answer alike -/

/-- The first keys of lists that answer alike are one key: neither stands before the other. -/
theorem not_lt_of_get?_eq {a b : α × β} (hb : Strict cmp (b :: l'))
    (h : ∀ k, get? cmp k (a :: l) = get? cmp k (b :: l')) : cmp a.1 b.1 ≠ .lt := by
  intro hlt
  have hnone : get? cmp a.1 (b :: l') = none := by
    refine get?_eq_none fun e he heq => ?_
    have : cmp a.1 e.1 = .lt := by
      rcases List.mem_cons.mp he with rfl | he
      · exact hlt
      · exact Std.TransCmp.lt_trans hlt ((List.pairwise_cons.mp hb).1 e he)
    rw [this] at heq
    exact absurd heq (by decide)
  rw [← h, get?, if_pos Std.ReflCmp.compare_self] at hnone
  exact absurd hnone (by simp)

/-- **Lists in strict order that answer every look-up alike are alike.** -/
theorem alike_of_get?_eq : ∀ {l l' : List (α × β)}, Strict cmp l → Strict cmp l' →
    (∀ k, get? cmp k l = get? cmp k l') → Alike cmp l l'
  | [], [], _, _, _ => List.Forall₂.nil
  | [], b :: l', _, _, h => by
    have := h b.1
    rw [get?, get?, if_pos Std.ReflCmp.compare_self] at this
    exact absurd this (by simp)
  | a :: l, [], _, _, h => by
    have := h a.1
    rw [get?, get?, if_pos Std.ReflCmp.compare_self] at this
    exact absurd this (by simp)
  | a :: l, b :: l', hl, hl', h => by
    have hab : cmp a.1 b.1 = .eq := by
      cases hc : cmp a.1 b.1 with
      | eq => rfl
      | lt => exact absurd hc (not_lt_of_get?_eq hl' h)
      | gt =>
        exact absurd (Std.OrientedCmp.gt_iff_lt.mp hc) (not_lt_of_get?_eq hl fun k => (h k).symm)
    have hv : a.2 = b.2 := by
      have := h a.1
      rw [get?, get?, if_pos Std.ReflCmp.compare_self, if_pos hab] at this
      exact Option.some.inj this
    obtain ⟨ha, hl⟩ := List.pairwise_cons.mp hl
    obtain ⟨hb, hl'⟩ := List.pairwise_cons.mp hl'
    refine List.Forall₂.cons ⟨hab, hv⟩ (alike_of_get?_eq hl hl' fun k => ?_)
    have hk := h k
    rw [get?, get?, Std.TransCmp.congr_right hab] at hk
    by_cases hkb : cmp k b.1 = .eq
    · -- the first key does not stand in the rest of either list
      have hgreater : ∀ {c : α} {m : List (α × β)}, (∀ e ∈ m, cmp c e.1 = .lt) →
          cmp k c = .eq → get? cmp k m = none := by
        intro c m hm hkc
        refine get?_eq_none fun e he heq => ?_
        have := hm e he
        rw [← Std.TransCmp.congr_left hkc, heq] at this
        exact absurd this (by decide)
      rw [hgreater ha ((Std.TransCmp.congr_right hab).trans hkb), hgreater hb hkb]
    · rw [if_neg hkb, if_neg hkb] at hk
      exact hk

/-! ## Keys as they are spelled -/

/-- The entry at a key, with its key as that stands in the list. -/
def stored? (cmp : α → α → Ordering) (k : α) (l : List (α × β)) : Option (α × β) :=
  l.find? fun e => cmp k e.1 == .eq

section Entries

omit [Std.TransCmp cmp] in
theorem stored?_cons (k : α) (e : α × β) (l : List (α × β)) :
    stored? cmp k (e :: l) = if cmp k e.1 = .eq then some e else stored? cmp k l := by
  unfold stored?
  rw [List.find?_cons]
  by_cases h : cmp k e.1 = .eq
  · simp only [h, beq_self_eq_true, if_true]
  · simp only [beq_eq_false_iff_ne.mpr h, if_neg h]

omit [Std.TransCmp cmp] in
theorem stored?_eq_none (h : ∀ e ∈ l, cmp k e.1 ≠ .eq) : stored? cmp k l = none :=
  List.find?_eq_none.mpr fun e he => by simpa using h e he

theorem stored?_congr (h : cmp k k' = .eq) (l : List (α × β)) :
    stored? cmp k l = stored? cmp k' l := by
  unfold stored?
  simp only [Std.TransCmp.congr_left h]

/-- A key that is before all others is not there. -/
theorem stored?_of_lt (h : ∀ e ∈ l, cmp k' e.1 = .lt) (hk : cmp k k' = .eq) :
    stored? cmp k l = none := by
  refine stored?_eq_none fun e he heq => ?_
  have hlt := h e he
  rw [← Std.TransCmp.congr_left hk, heq] at hlt
  exact absurd hlt (by decide)

/-- Putting a value in keeps the spelling of the key that is there. -/
theorem stored?_insert (hl : Strict cmp l) (k k' : α) (v : β) :
    stored? cmp k' (insert cmp k v l) =
      if cmp k' k = .eq then some (((stored? cmp k l).map (·.1)).getD k, v)
      else stored? cmp k' l := by
  induction l with
  | nil => exact stored?_cons k' (k, v) []
  | cons e l ih =>
    obtain ⟨a, w⟩ := e
    obtain ⟨ha, hl'⟩ := List.pairwise_cons.mp hl
    simp only [insert]
    split
    · rename_i hka
      have hnone : stored? cmp k ((a, w) :: l) = none := by
        refine stored?_of_lt (fun e he => ?_) Std.ReflCmp.compare_self
        rcases List.mem_cons.mp he with rfl | he
        · exact hka
        · exact Std.TransCmp.lt_trans hka (ha e he)
      rw [stored?_cons, hnone]
      rfl
    · rename_i hka
      rw [stored?_cons, stored?_cons k, if_pos hka, stored?_cons k', Std.TransCmp.congr_right hka]
      split <;> rfl
    · rename_i hka
      rw [stored?_cons, stored?_cons k, stored?_cons k' (a, w) l, ih hl']
      by_cases hk : cmp k' k = .eq
      · have hk'a : cmp k' a ≠ .eq := by rw [Std.TransCmp.congr_left hk, hka]; decide
        rw [if_neg hk'a, if_pos hk, if_pos hk, if_neg (by rw [hka]; decide)]
      · rw [if_neg hk, if_neg hk]

theorem stored?_erase (hl : Strict cmp l) (k k' : α) :
    stored? cmp k' (erase cmp k l) = if cmp k' k = .eq then none else stored? cmp k' l := by
  induction l with
  | nil => exact (ite_self _).symm
  | cons e l ih =>
    obtain ⟨a, w⟩ := e
    obtain ⟨ha, hl'⟩ := List.pairwise_cons.mp hl
    simp only [erase]
    split
    · rename_i hka
      rw [stored?_cons, Std.TransCmp.congr_right hka]
      split
      · rename_i hk
        exact stored?_of_lt ha hk
      · rfl
    · rename_i hka
      rw [stored?_cons, stored?_cons, ih hl']
      by_cases hk : cmp k' k = .eq
      · rw [if_neg (by rw [Std.TransCmp.congr_left hk]; exact hka), if_pos hk, if_pos hk]
      · rw [if_neg hk, if_neg hk]

omit [Std.TransCmp cmp] in
/-- The entries of a list as the values of their keys. -/
theorem get?_map_self (k : α) (l : List (α × β)) :
    get? cmp k (l.map fun e => (e.1, e)) = stored? cmp k l := by
  induction l with
  | nil => rfl
  | cons e l ih => rw [List.map_cons, get?, stored?_cons, ih]

/-- **Lists in strict order with the same entries are the same**, the spelling of keys included. -/
theorem eq_of_stored?_eq (hl : Strict cmp l) (hl' : Strict cmp l')
    (h : ∀ k, stored? cmp k l = stored? cmp k l') : l = l' := by
  have halike : Alike cmp (l.map fun e => (e.1, e)) (l'.map fun e => (e.1, e)) :=
    alike_of_get?_eq (List.pairwise_map.mpr hl) (List.pairwise_map.mpr hl') fun k => by
      rw [get?_map_self, get?_map_self, h k]
  rw [Alike, List.forall₂_map_left_iff, List.forall₂_map_right_iff] at halike
  have hsame : List.Forall₂ Eq l l' := halike.imp fun _ _ hab => hab.2
  rwa [List.forall₂_eq_eq_eq] at hsame

end Entries

/-! ## Keys that are spelled in one way -/

section Lawful

variable [Std.LawfulEqCmp cmp]

/-- Lists in strict order that answer every look-up alike are the same. -/
theorem ext (hl : Strict cmp l) (hl' : Strict cmp l') (h : ∀ k, get? cmp k l = get? cmp k l') :
    l = l' := by
  have hsame : List.Forall₂ Eq l l' := by
    refine List.Forall₂.imp (fun a b hab => ?_) (alike_of_get?_eq hl hl' h)
    exact Prod.ext (Std.LawfulEqCmp.eq_of_compare hab.1) hab.2
  rwa [List.forall₂_eq_eq_eq] at hsame

/-- Putting in what is there changes nothing. -/
theorem insert_of_get? (hl : Strict cmp l) (h : get? cmp k l = some v) : insert cmp k v l = l := by
  refine ext (strict_insert hl k v) hl fun k' => ?_
  rw [get?_insert]
  split
  · rename_i hk
    rw [get?_congr hk, h]
  · rfl

theorem erase_insert (hl : Strict cmp l) (h : get? cmp k l = none) :
    erase cmp k (insert cmp k v l) = l := by
  refine ext (strict_erase (strict_insert hl k v) k) hl fun k' => ?_
  rw [get?_erase (strict_insert hl k v), get?_insert]
  split
  · rename_i hk
    rw [get?_congr hk, h]
  · rfl

theorem insert_erase (hl : Strict cmp l) (h : get? cmp k l = some v) :
    insert cmp k v (erase cmp k l) = l := by
  refine ext (strict_insert (strict_erase hl k) k v) hl fun k' => ?_
  rw [get?_insert, get?_erase hl]
  split
  · rename_i hk
    rw [get?_congr hk, h]
  · rfl

/-- What is put in takes the place of what stood under the key. -/
theorem erase_insert_self (hl : Strict cmp l) (k : α) (v : β) :
    erase cmp k (insert cmp k v l) = erase cmp k l := by
  refine ext (strict_erase (strict_insert hl k v) k) (strict_erase hl k) fun k' => ?_
  rw [get?_erase (strict_insert hl k v), get?_erase hl, get?_insert]
  split <;> rfl

omit [Std.TransCmp cmp] in
/-- Taking a key away takes away one entry. -/
theorem perm_erase (h : get? cmp k l = some v) : l.Perm ((k, v) :: erase cmp k l) := by
  induction l with
  | nil => exact absurd h (by simp [get?])
  | cons e l ih =>
    obtain ⟨k', v'⟩ := e
    rw [get?] at h
    rw [erase]
    split
    · rename_i hk
      rw [if_pos hk] at h
      rw [Std.LawfulEqCmp.eq_of_compare hk, Option.some.inj h]
    · rename_i hk
      rw [if_neg hk] at h
      exact ((ih h).cons _).trans (.swap ..)

theorem perm_insert (hl : Strict cmp l) (k : α) (v : β) :
    (insert cmp k v l).Perm ((k, v) :: erase cmp k l) := by
  have hmem : get? cmp k (insert cmp k v l) = some v := get?_insert_self k v l
  have h := perm_erase hmem
  rwa [erase_insert_self hl] at h

end Lawful

/-! ## Other values under the same keys -/

section Values

variable {γ : Type} (f : β → γ) (k : α) (v : β) (l : List (α × β))

omit [Std.TransCmp cmp] in
theorem get?_map : get? cmp k (l.map fun e => (e.1, f e.2)) = (get? cmp k l).map f := by
  induction l with
  | nil => rfl
  | cons e l ih =>
    simp only [List.map_cons, get?]
    split
    · rfl
    · exact ih

omit [Std.TransCmp cmp] in
theorem map_insert : (insert cmp k v l).map (fun e => (e.1, f e.2)) =
    insert cmp k (f v) (l.map fun e => (e.1, f e.2)) := by
  induction l with
  | nil => rfl
  | cons e l ih =>
    simp only [insert, List.map_cons]
    split
    · rfl
    · rfl
    · rw [List.map_cons, ih]

omit [Std.TransCmp cmp] in
theorem map_erase : (erase cmp k l).map (fun e => (e.1, f e.2)) =
    erase cmp k (l.map fun e => (e.1, f e.2)) := by
  induction l with
  | nil => rfl
  | cons e l ih =>
    simp only [erase, List.map_cons]
    split
    · rfl
    · rw [List.map_cons, ih]

end Values

end BookFeed.Sorted

import BookFeed.Proofs.Book.Writes
import BookFeed.Proofs.Registry
import BookFeed.Proofs.Traversal

/-!
# Which book a handle shows

Pairs are registered, looked up and taken away, and books written to, in any order (`Use`). Every
use that finds or makes a book gives a handle, which is kept, and a write may go through any handle
that has been given by then. Old and new books of one pair are in use side by side.

What a handle shows is said in terms of the uses alone: which pair it was asked for, and whether the
pair was taken away since (`Stays`). A step lemma for each notion takes the last use apart, and the
facts about a whole run are by induction on the uses, the last one first.

* `view?_run_eq_some_iff`: what a lookup finds;
* `gave_inj_iff`: when two uses have given one handle;
* `read?_run`: what a handle shows;
* `states_eq_ok_iff`: the published states;
* **`run_keeps_identity`**: all of it, for any uses of a new registry.
-/

namespace BookFeed.Registry

/-! ## Uses -/

/-- A use of a registry. A write names the use that its handle is from, by its place. -/
inductive Use where
  | register (pair : String)
  | view (pair : String)
  | remove (pair : String)
  | clear
  | write (source : Nat) (w : Book.Write)

/-- The use takes the pair away. -/
def Use.TakesAway (pair : String) : Use → Prop
  | remove p => p = pair
  | clear => True
  | _ => False

/-- The use asks for the book of the pair. -/
def Use.AsksFor (pair : String) (u : Use) : Prop := u = .register pair ∨ u = .view pair

/-- A registry and the handle that each use so far has given, if it has. -/
structure Session where
  registry : Registry := .empty
  given : List (Option Handle) := []

namespace Session

/-- The handle from a use. -/
def handle? (s : Session) (i : Nat) : Option Handle := s.given[i]?.join

/-- The handle that a use gives. -/
def gives (s : Session) : Use → Option Handle
  | .register p => some (s.registry.register p).2
  | .view p => s.registry.view? p
  | _ => none

/-- The registry after a use. -/
def after (s : Session) : Use → Registry
  | .register p => (s.registry.register p).1
  | .view _ => s.registry
  | .remove p => s.registry.remove p
  | .clear => s.registry.clear
  | .write i w =>
    match s.handle? i with
    | some h => s.registry.write h (·.write w)
    | none => s.registry

def step (s : Session) (u : Use) : Session := ⟨s.after u, s.given ++ [s.gives u]⟩

end Session

/-- A new registry in use. -/
def run (us : List Use) : Session := us.foldl Session.step {}

/-- The pair is not taken away between two uses. -/
def Stays (us : List Use) (pair : String) (i j : Nat) : Prop :=
  ∀ m u, i < m → m < j → us[m]? = some u → ¬ u.TakesAway pair

/-- The pair has been registered and not been taken away since. -/
def Registered (us : List Use) (pair : String) : Prop :=
  ∃ i, us[i]? = some (.register pair) ∧ Stays us pair i us.length

/-- The use has given the handle, as one for the pair. -/
def Gave (us : List Use) (i : Nat) (pair : String) (h : Handle) : Prop :=
  (∃ u, us[i]? = some u ∧ u.AsksFor pair) ∧ (run us).handle? i = some h

/-- The writes through any of the uses that have given the handle, in order. -/
def writesTo (us : List Use) (h : Handle) : List Book.Write :=
  us.zipIdx.filterMap fun
    | (.write i w, m) => if i < m ∧ (run us).handle? i = some h then some w else none
    | _ => none

variable {us : List Use} {u : Use} {s : Session} {p q : String} {h h' : Handle} {i j k : Nat}

/-! ## The last use -/

theorem run_concat (us : List Use) (u : Use) : run (us ++ [u]) = (run us).step u := by
  rw [run, List.foldl_append]
  rfl

theorem registry_concat (us : List Use) (u : Use) :
    (run (us ++ [u])).registry = (run us).after u := by
  rw [run_concat]
  rfl

/-- A place among the uses is one among those before the last, or the place of the last. -/
theorem lt_or_eq_of_lt_concat (hi : i < (us ++ [u]).length) : i < us.length ∨ i = us.length := by
  rwa [List.length_append, List.length_singleton, Nat.lt_succ_iff_lt_or_eq] at hi

theorem length_given (us : List Use) : (run us).given.length = us.length := by
  induction us using List.reverseRecOn with
  | nil => rfl
  | append_singleton us u ih => simp [run_concat, Session.step, ih]

theorem lt_of_handle? (hi : (run us).handle? i = some h) : i < us.length := by
  rw [Session.handle?, Option.join_eq_some_iff] at hi
  rw [← length_given us]
  exact (List.getElem?_eq_some_iff.mp hi).1

theorem handle?_concat_of_lt (hi : i < us.length) :
    (run (us ++ [u])).handle? i = (run us).handle? i := by
  rw [run_concat, Session.handle?, Session.step, List.getElem?_append_left]
  · rfl
  · rwa [length_given]

theorem handle?_concat_self : (run (us ++ [u])).handle? us.length = (run us).gives u := by
  rw [run_concat, Session.handle?, Session.step, ← length_given us, List.getElem?_concat_length]
  rfl

/-- A handle has been given before, or the last use gives it. -/
theorem gave_concat_iff : Gave (us ++ [u]) i p h ↔
    Gave us i p h ∨ i = us.length ∧ u.AsksFor p ∧ (run us).gives u = some h := by
  constructor
  · rintro ⟨⟨v, hv, hasks⟩, hh⟩
    rcases lt_or_eq_of_lt_concat (lt_of_handle? hh) with hi | rfl
    · rw [List.getElem?_append_left hi] at hv
      exact .inl ⟨⟨v, hv, hasks⟩, handle?_concat_of_lt hi ▸ hh⟩
    · rw [List.getElem?_concat_length, Option.some.injEq] at hv
      exact .inr ⟨rfl, hv ▸ hasks, handle?_concat_self ▸ hh⟩
  · rintro (⟨⟨v, hv, hasks⟩, hh⟩ | ⟨rfl, hasks, hh⟩)
    · have hi := lt_of_handle? hh
      exact ⟨⟨v, List.getElem?_append_left hi ▸ hv, hasks⟩, handle?_concat_of_lt hi ▸ hh⟩
    · exact ⟨⟨u, List.getElem?_concat_length, hasks⟩, handle?_concat_self.trans hh⟩

theorem stays_concat_of_le (hj : j ≤ us.length) : Stays (us ++ [u]) p i j ↔ Stays us p i j := by
  refine forall₂_congr fun m v => forall₂_congr fun _ hm => ?_
  rw [List.getElem?_append_left (hm.trans_le hj)]

theorem stays_concat_iff (hi : i < us.length) :
    Stays (us ++ [u]) p i (us ++ [u]).length ↔ Stays us p i us.length ∧ ¬ u.TakesAway p := by
  constructor
  · intro hs
    refine ⟨fun m v him hm hv => hs m v him ?_ ?_, hs us.length u hi ?_ ?_⟩
    · rw [List.length_append]
      exact Nat.lt_add_right _ hm
    · rwa [List.getElem?_append_left hm]
    · simp
    · exact List.getElem?_concat_length
  · rintro ⟨hs, hu⟩ m v him hm hv
    rcases lt_or_eq_of_lt_concat hm with hm | rfl
    · exact hs m v him hm (List.getElem?_append_left hm ▸ hv)
    · rw [List.getElem?_concat_length, Option.some.injEq] at hv
      exact hv ▸ hu

theorem stays_last : Stays (us ++ [u]) p us.length (us ++ [u]).length := by
  intro m v hm hlt
  simp at hlt
  omega

/-- What stays on both sides of a use, and is not taken away by it, stays. -/
theorem Stays.trans (hik : Stays us p i k) (hkj : Stays us p k j)
    (hk : ∃ u, us[k]? = some u ∧ ¬ u.TakesAway p) : Stays us p i j := by
  intro m v him hmj hv
  rcases Nat.lt_trichotomy m k with hm | rfl | hm
  · exact hik m v him hm hv
  · obtain ⟨w, hw, hkeeps⟩ := hk
    rwa [Option.some.inj (hv.symm.trans hw)]
  · exact hkj m v hm hmj hv

theorem Stays.mono (hs : Stays us p i j) (hk : i ≤ k) : Stays us p k j :=
  fun m v hm => hs m v (hk.trans_lt hm)

theorem Use.AsksFor.not_takesAway (hu : u.AsksFor p) : ¬ u.TakesAway q := by
  rcases hu with rfl | rfl <;> exact id

theorem Use.AsksFor.pair_eq (hp : u.AsksFor p) (hq : u.AsksFor q) : p = q := by
  rcases hp with rfl | rfl <;> rcases hq with hq | hq <;> cases hq <;> rfl

/-! ## Lookups -/

theorem strict_entries (us : List Use) : Sorted.Strict compare (run us).registry.entries := by
  induction us using List.reverseRecOn with
  | nil => exact List.Pairwise.nil
  | append_singleton us u ih =>
    rw [registry_concat]
    cases u with
    | register p =>
      cases hp : (run us).registry.view? p with
      | some h => simpa only [Session.after, register, hp] using ih
      | none =>
        rw [Session.after, register_of_view?_eq_none hp]
        exact Sorted.strict_insert ih p _
    | view p => exact ih
    | remove p => exact Sorted.strict_erase ih p
    | clear => exact List.Pairwise.nil
    | write i w =>
      unfold Session.after
      dsimp only
      split <;> exact ih

open Classical in
/-- A use takes a pair away, or registers it, or leaves it as it was. -/
theorem view?_after (hs : Sorted.Strict compare s.registry.entries) (u : Use) (p : String) :
    (s.after u).view? p = if u.TakesAway p then none
      else if u = .register p then s.gives u else s.registry.view? p := by
  cases u with
  | register q =>
    rw [if_neg (by exact id)]
    by_cases hqp : q = p
    · subst hqp
      rw [if_pos rfl]
      cases hq : s.registry.view? q with
      | some h => simp only [Session.after, Session.gives, register, hq]
      | none => exact view?_register_self hq
    · rw [if_neg (by simpa using hqp)]
      cases hq : s.registry.view? q with
      | some h => simp only [Session.after, register, hq]
      | none => exact view?_register_of_ne hq (Ne.symm hqp)
  | view q => rw [if_neg (by exact id), if_neg (by simp)]; rfl
  | remove q =>
    rw [Session.after, view?_remove hs, if_neg (c := Use.remove q = .register p) (by simp)]
    refine if_congr ?_ rfl rfl
    rw [Std.LawfulEqOrd.compare_eq_iff_eq]
    exact eq_comm
  | clear => rw [if_pos (by exact trivial)]; rfl
  | write i w =>
    rw [if_neg (by exact id), if_neg (by simp), Session.after]
    split <;> rfl

/-- A pair that is there is found by whoever asks for it. -/
theorem gives_of_view? (hu : u.AsksFor p) (hp : s.registry.view? p = some h) :
    s.gives u = some h := by
  rcases hu with rfl | rfl
  · simp only [Session.gives, register, hp]
  · exact hp

/-- **A lookup finds what was given for the pair** unless the pair was taken away since. -/
theorem view?_run_eq_some_iff : (run us).registry.view? p = some h ↔
    ∃ i, Gave us i p h ∧ Stays us p i us.length := by
  induction us using List.reverseRecOn generalizing h with
  | nil =>
    refine ⟨fun hp => ?_, fun ⟨i, hi, _⟩ => absurd (lt_of_handle? hi.2) (Nat.not_lt_zero i)⟩
    cases hp
  | append_singleton us u ih =>
    rw [registry_concat, view?_after (strict_entries us)]
    constructor
    · intro hp
      split at hp
      · cases hp
      rename_i hkeeps
      split at hp
      · rename_i hu
        exact ⟨us.length, gave_concat_iff.mpr (.inr ⟨rfl, .inl hu, hp⟩), stays_last⟩
      · obtain ⟨i, hi, hs⟩ := ih.mp hp
        exact ⟨i, gave_concat_iff.mpr (.inl hi),
          (stays_concat_iff (lt_of_handle? hi.2)).mpr ⟨hs, hkeeps⟩⟩
    · rintro ⟨i, hi, hs⟩
      rcases gave_concat_iff.mp hi with hi | ⟨rfl, hasks, hgives⟩
      · obtain ⟨hs, hkeeps⟩ := (stays_concat_iff (lt_of_handle? hi.2)).mp hs
        have hp := ih.mpr ⟨i, hi, hs⟩
        rw [if_neg hkeeps]
        split
        · rename_i hu
          exact gives_of_view? (.inl hu) hp
        · exact hp
      · rw [if_neg hasks.not_takesAway]
        rcases hasks with rfl | rfl
        · rwa [if_pos rfl]
        · rwa [if_neg (by simp)]

theorem registered_concat_iff : Registered (us ++ [u]) p ↔
    Registered us p ∧ ¬ u.TakesAway p ∨ u = .register p := by
  constructor
  · rintro ⟨i, hi, hs⟩
    rcases lt_or_eq_of_lt_concat (List.getElem?_eq_some_iff.mp hi).1 with hlt | rfl
    · obtain ⟨hs, hkeeps⟩ := (stays_concat_iff hlt).mp hs
      exact .inl ⟨⟨i, List.getElem?_append_left hlt ▸ hi, hs⟩, hkeeps⟩
    · rw [List.getElem?_concat_length, Option.some.injEq] at hi
      exact .inr hi
  · rintro (⟨⟨i, hi, hs⟩, hkeeps⟩ | rfl)
    · have hlt := (List.getElem?_eq_some_iff.mp hi).1
      exact ⟨i, List.getElem?_append_left hlt ▸ hi, (stays_concat_iff hlt).mpr ⟨hs, hkeeps⟩⟩
    · exact ⟨us.length, List.getElem?_concat_length, stays_last⟩

/-- **A lookup succeeds exactly for the pairs that are registered.** -/
theorem contains_run_iff : (run us).registry.contains p = true ↔ Registered us p := by
  induction us using List.reverseRecOn with
  | nil =>
    refine ⟨fun hp => ?_, fun ⟨i, hi, _⟩ => ?_⟩
    · cases hp
    · cases hi
  | append_singleton us u ih =>
    rw [registered_concat_iff, ← ih, registry_concat, contains, contains,
      view?_after (strict_entries us)]
    split
    · rename_i haway
      simp only [Option.isSome_none, Bool.false_eq_true, haway, not_true_eq_false, and_false,
        false_or, false_iff]
      rintro rfl
      exact haway
    · rename_i hkeeps
      split
      · rename_i hu
        simp [hu, Session.gives]
      · rename_i hu
        simp [hkeeps, hu]

/-! ## Handles -/

theorem length_books_le (s : Session) (u : Use) :
    s.registry.books.length ≤ (s.after u).books.length := by
  cases u with
  | register p =>
    cases hp : s.registry.view? p with
    | some h => simp only [Session.after, register, hp, le_refl]
    | none => simp [Session.after, register_of_view?_eq_none hp]
  | write i w =>
    unfold Session.after
    dsimp only
    split
    · simp [Registry.write]
    · exact le_rfl
  | view p | remove p | clear => exact le_rfl

/-- What a use gives is a handle that a lookup finds, or one on a book that is made now. -/
theorem gives_cases (hasks : u.AsksFor p) (hgives : s.gives u = some h) :
    s.registry.view? p = some h ∨
      s.registry.view? p = none ∧ u = .register p ∧ h = ⟨s.registry.books.length⟩ := by
  cases hp : s.registry.view? p with
  | some h' => exact .inl ((gives_of_view? hasks hp).symm.trans hgives)
  | none =>
    rcases hasks with rfl | rfl
    · rw [Session.gives, register_of_view?_eq_none hp, Option.some.injEq] at hgives
      exact .inr ⟨rfl, rfl, hgives.symm⟩
    · cases hp.symm.trans hgives

/-- A handle points to a book, and was given for a pair. -/
theorem exists_gave_of_handle? (hi : (run us).handle? i = some h) :
    (∃ p, Gave us i p h) ∧ h.index < (run us).registry.books.length := by
  induction us using List.reverseRecOn generalizing i h with
  | nil => exact absurd (lt_of_handle? hi) (Nat.not_lt_zero i)
  | append_singleton us u ih =>
    have hle := length_books_le (run us) u
    rw [registry_concat]
    rcases lt_or_eq_of_lt_concat (lt_of_handle? hi) with hlt | rfl
    · rw [handle?_concat_of_lt hlt] at hi
      obtain ⟨⟨p, hp⟩, hknown⟩ := ih hi
      exact ⟨⟨p, gave_concat_iff.mpr (.inl hp)⟩, hknown.trans_le hle⟩
    · rw [handle?_concat_self] at hi
      have hasks : ∃ p, u.AsksFor p := by
        cases u with
        | register p => exact ⟨p, .inl rfl⟩
        | view p => exact ⟨p, .inr rfl⟩
        | remove p | clear | write i w => cases hi
      obtain ⟨p, hasks⟩ := hasks
      refine ⟨⟨p, gave_concat_iff.mpr (.inr ⟨rfl, hasks, hi⟩)⟩, ?_⟩
      rcases gives_cases hasks hi with hp | ⟨hp, rfl, rfl⟩
      · obtain ⟨k, hk, -⟩ := view?_run_eq_some_iff.mp hp
        exact (ih hk.2).2.trans_le hle
      · rw [Session.after, register_of_view?_eq_none hp, List.length_append]
        exact Nat.lt_succ_self _

theorem Gave.index_lt (hi : Gave us i p h) : h.index < (run us).registry.books.length :=
  (exists_gave_of_handle? hi.2).2

theorem Gave.stays_through (hi : Gave us i p h) : ∃ u, us[i]? = some u ∧ ¬ u.TakesAway q := by
  obtain ⟨⟨u, hu, hasks⟩, -⟩ := hi
  exact ⟨u, hu, hasks.not_takesAway⟩

/-- **Two uses have given one handle exactly if they asked for one pair,** which has not been taken
away in between. -/
theorem gave_inj_iff (hij : i < j) (hi : Gave us i p h) (hj : Gave us j q h') :
    h = h' ↔ p = q ∧ Stays us p i j := by
  induction us using List.reverseRecOn generalizing i j p q h h' with
  | nil => exact absurd (lt_of_handle? hj.2) (Nat.not_lt_zero j)
  | append_singleton us u ih =>
    rcases gave_concat_iff.mp hi with hi | ⟨rfl, -⟩
    case inr =>
      have hlt := lt_of_handle? hj.2
      rw [List.length_append, List.length_singleton] at hlt
      omega
    rcases gave_concat_iff.mp hj with hj | ⟨rfl, hasks, hgives⟩
    · rw [stays_concat_of_le (lt_of_handle? hj.2).le]
      exact ih hij hi hj
    rw [stays_concat_of_le le_rfl]
    rcases gives_cases hasks hgives with hq | ⟨hq, -, rfl⟩
    · constructor
      · -- the use `k` that gave what the lookup finds, and the use `i`, have given one handle
        rintro rfl
        obtain ⟨k, hk, hs⟩ := view?_run_eq_some_iff.mp hq
        rcases Nat.lt_trichotomy i k with hik | rfl | hki
        · obtain ⟨rfl, hsik⟩ := (ih hik hi hk).mp rfl
          exact ⟨rfl, hsik.trans hs hk.stays_through⟩
        · obtain ⟨⟨v, hv, hp⟩, -⟩ := hi
          obtain ⟨⟨v', hv', hq⟩, -⟩ := hk
          obtain rfl := Option.some.inj (hv.symm.trans hv')
          exact ⟨hp.pair_eq hq, hp.pair_eq hq ▸ hs⟩
        · obtain ⟨rfl, -⟩ := (ih hki hk hi).mp rfl
          exact ⟨rfl, hs.mono hki.le⟩
      · rintro ⟨rfl, hs⟩
        exact Option.some.inj ((view?_run_eq_some_iff.mpr ⟨i, hi, hs⟩).symm.trans hq)
    · constructor
      · rintro rfl
        exact absurd hi.index_lt (Nat.lt_irrefl _)
      · rintro ⟨rfl, hs⟩
        cases (view?_run_eq_some_iff.mpr ⟨i, hi, hs⟩).symm.trans hq

/-! ## What a handle shows -/

theorem read?_register_of_lt (r : Registry) (p : String) (hh : h.index < r.books.length) :
    (r.register p).1.read? h = r.read? h := by
  cases hp : r.view? p with
  | some h' => simp only [register, hp]
  | none =>
    rw [register_of_view?_eq_none hp]
    exact List.getElem?_append_left hh

theorem read?_write (r : Registry) (h h' : Handle) (f : Book → Book) :
    (r.write h' f).read? h = if h' = h then (r.read? h).map f else r.read? h := by
  rw [read?, read?, Registry.write, List.getElem?_modify]
  by_cases heq : h' = h
  · simp [heq]
  · have hne : h'.index ≠ h.index := fun hidx => heq (congrArg Handle.mk hidx)
    simp [heq, hne]

/-- The write of the last use, if it reaches the book. -/
def lastWriteTo (us : List Use) (h : Handle) : Use → List Book.Write
  | .write i w => if (run us).handle? i = some h then [w] else []
  | _ => []

theorem writesTo_concat (us : List Use) (u : Use) (h : Handle) :
    writesTo (us ++ [u]) h = writesTo us h ++ lastWriteTo us h u := by
  rw [writesTo, writesTo, List.zipIdx_append, List.filterMap_append]
  congr 1
  · refine List.filterMap_congr fun e he => ?_
    obtain ⟨v, m⟩ := e
    have hm : m < us.length := by
      simpa using (List.mem_zipIdx he).2.1
    cases v with
    | write i w =>
      dsimp only
      refine if_congr (and_congr_right fun him => ?_) rfl rfl
      rw [handle?_concat_of_lt (him.trans hm)]
    | _ => rfl
  · cases u with
    | write i w =>
      simp only [List.zipIdx_singleton, Nat.zero_add, lastWriteTo]
      by_cases hi : i < us.length
      · simp only [List.filterMap_cons, List.filterMap_nil, hi, handle?_concat_of_lt hi, true_and]
        split <;> simp_all
      · have hnone : (run us).handle? i ≠ some h := fun hh => hi (lt_of_handle? hh)
        simp [hi, hnone]
    | _ => rfl

/-- No write has reached a book that is not made yet. -/
theorem writesTo_eq_nil (hh : ∀ i, (run us).handle? i ≠ some h) : writesTo us h = [] := by
  rw [writesTo, List.filterMap_eq_nil_iff]
  rintro ⟨v, m⟩ -
  cases v with
  | write i w => exact if_neg fun hi => hh i hi.2
  | _ => rfl

theorem read?_after (us : List Use) (u : Use) (hh : h.index < (run us).registry.books.length) :
    ((run us).after u).read? h =
      ((run us).registry.read? h).map fun b => b.writeAll (lastWriteTo us h u) := by
  have hkeep : ((run us).registry.read? h).map (fun b => b.writeAll []) =
      (run us).registry.read? h := Option.map_id'
  cases u with
  | register p => exact (read?_register_of_lt _ p hh).trans hkeep.symm
  | view p | remove p | clear => exact hkeep.symm
  | write i w =>
    rw [Session.after, lastWriteTo]
    cases hi : (run us).handle? i with
    | none => exact hkeep.symm
    | some h' =>
      dsimp only
      rw [read?_write]
      by_cases heq : h' = h
      · simp [heq, Book.writeAll]
      · simp only [heq, if_false, Option.some.injEq, hkeep]

/-- **A handle shows the writes through all that have given it,** to a book that was new. -/
theorem read?_run (hi : Gave us i p h) :
    (run us).registry.read? h = some ((Book.empty p).writeAll (writesTo us h)) := by
  induction us using List.reverseRecOn generalizing i p h with
  | nil => exact absurd (lt_of_handle? hi.2) (Nat.not_lt_zero i)
  | append_singleton us u ih =>
    rw [registry_concat, writesTo_concat]
    -- a handle from an earlier use, which the last use may have given once more
    have hold : ∀ {k}, Gave us k p h → ((run us).after u).read? h =
        some ((Book.empty p).writeAll (writesTo us h ++ lastWriteTo us h u)) := by
      intro k hk
      rw [read?_after us u hk.index_lt, ih hk, Option.map_some, Book.writeAll, Book.writeAll,
        Book.writeAll, List.foldl_append]
    rcases gave_concat_iff.mp hi with hi | ⟨rfl, hasks, hgives⟩
    · exact hold hi
    rcases gives_cases hasks hgives with hp | ⟨hp, rfl, rfl⟩
    · obtain ⟨k, hk, -⟩ := view?_run_eq_some_iff.mp hp
      exact hold hk
    · have hnew : ∀ i, (run us).handle? i ≠ some ⟨(run us).registry.books.length⟩ :=
        fun i hh => Nat.lt_irrefl _ (exists_gave_of_handle? hh).2
      rw [writesTo_eq_nil hnew, Session.after, register_of_view?_eq_none hp]
      exact List.getElem?_concat_length

/-- A use leaves the handles alone that have been given before it. -/
theorem handle?_append_of_lt (more : List Use) (hi : i < us.length) :
    (run (us ++ more)).handle? i = (run us).handle? i := by
  induction more using List.reverseRecOn with
  | nil => rw [List.append_nil]
  | append_singleton more u ih =>
    rw [← List.append_assoc, handle?_concat_of_lt (by rw [List.length_append]; omega), ih]

theorem view?_of_not_registered (hp : ¬ Registered us p) : (run us).registry.view? p = none := by
  rwa [← contains_run_iff, contains, Bool.not_eq_true, Option.isSome_eq_false_iff,
    Option.isNone_iff_eq_none] at hp

/-- **A pair that is registered anew has a book of its own,** an empty one. No write through an
earlier handle reaches it at any time, and earlier handles show what they have shown. -/
theorem register_anew (hp : ¬ Registered us p) (more : List Use) :
    ∃ h, Gave (us ++ Use.register p :: more) us.length p h ∧
      (run (us ++ [Use.register p])).registry.read? h = some (.empty p) ∧
      ∀ i h', (run us).handle? i = some h' → h' ≠ h ∧
        (run (us ++ [Use.register p])).registry.read? h' = (run us).registry.read? h' ∧
        ∀ w, (run (us ++ Use.register p :: more ++ [Use.write i w])).registry.read? h =
          (run (us ++ Use.register p :: more)).registry.read? h := by
  have hview := view?_of_not_registered hp
  have hall : us ++ Use.register p :: more = us ++ [Use.register p] ++ more := by simp
  have hgives : (run us).gives (.register p) = some ⟨(run us).registry.books.length⟩ := by
    rw [Session.gives, register_of_view?_eq_none hview]
  have hgave : Gave (us ++ Use.register p :: more) us.length p
      ⟨(run us).registry.books.length⟩ := by
    refine ⟨⟨.register p, ?_, .inl rfl⟩, ?_⟩
    · rw [List.getElem?_append_right le_rfl, Nat.sub_self]
      rfl
    · rw [hall, handle?_append_of_lt more (by simp), handle?_concat_self, hgives]
  refine ⟨_, hgave, ?_, fun i h' hi => ?_⟩
  · rw [registry_concat, Session.after, register_of_view?_eq_none hview]
    exact List.getElem?_concat_length
  · -- handles are numbers of books, and the new book has the number of all there were before
    have hlt := (exists_gave_of_handle? hi).2
    have hne : h' ≠ ⟨(run us).registry.books.length⟩ := fun heq => by
      rw [heq] at hlt
      exact Nat.lt_irrefl _ hlt
    refine ⟨hne, ?_, fun w => ?_⟩
    · rw [registry_concat]
      exact read?_register_of_lt _ p hlt
    · have hi' : (run (us ++ Use.register p :: more)).handle? i = some h' := by
        rw [handle?_append_of_lt _ (lt_of_handle? hi), hi]
      rw [registry_concat]
      simp only [Session.after, hi', read?_write, if_neg hne]

/-! ## Published states -/

theorem mem_entries_iff {r : Registry} (hs : Sorted.Strict compare r.entries) :
    (p, h) ∈ r.entries ↔ r.view? p = some h := by
  constructor
  · exact fun he => Sorted.get?_of_mem hs he Std.ReflCmp.compare_self
  · intro hp
    obtain ⟨⟨q, h'⟩, he, hq, rfl⟩ := Sorted.mem_of_get? hp
    rwa [Std.LawfulEqOrd.compare_eq_iff_eq.mp hq]

theorem mem_pairs_iff {r : Registry} (hs : Sorted.Strict compare r.entries) :
    p ∈ r.pairs ↔ r.contains p = true := by
  rw [contains, Option.isSome_iff_exists, pairs, List.mem_map]
  simp only [← mem_entries_iff hs]
  constructor
  · rintro ⟨⟨q, h⟩, he, rfl⟩
    exact ⟨h, he⟩
  · rintro ⟨h, he⟩
    exact ⟨(p, h), he, rfl⟩

theorem registered_eq {r : Registry} (hs : Sorted.Strict compare r.entries) :
    r.registered = r.pairs.filterMap r.book? := by
  rw [registered, pairs, List.filterMap_map]
  refine List.filterMap_congr fun e he => ?_
  rw [Function.comp_apply, book?, (mem_entries_iff hs).mp he]
  rfl

theorem pair_of_book? {b : Book} (hb : (run us).registry.book? p = some b) : b.pair = p := by
  rw [book?, Option.bind_eq_some_iff] at hb
  obtain ⟨h, hp, hb⟩ := hb
  obtain ⟨i, hi, -⟩ := view?_run_eq_some_iff.mp hp
  obtain rfl := Option.some.inj ((read?_run hi).symm.trans hb)
  exact Book.pair_writeAll _ _

theorem exists_book? (hp : p ∈ (run us).registry.pairs) :
    ∃ b, (run us).registry.book? p = some b := by
  rw [mem_pairs_iff (strict_entries us), contains, Option.isSome_iff_exists] at hp
  obtain ⟨h, hp⟩ := hp
  obtain ⟨i, hi, -⟩ := view?_run_eq_some_iff.mp hp
  exact ⟨_, by rw [book?, hp, Option.bind_some, read?_run hi]⟩

/-- The state is that of the registered book of the pair. -/
def Publishes (r : Registry) (count : Nat) (pair : String) (state : BookState) : Prop :=
  state.pair = pair ∧ ∃ b, r.book? pair = some b ∧ b.state count = .ok state

/-- **There is one published state for each registered pair,** if all of them have one. -/
theorem states_eq_ok_iff {count : Nat} {states : List BookState} :
    (run us).registry.states count = .ok states ↔
      List.Forall₂ ((run us).registry.Publishes count) (run us).registry.pairs states := by
  rw [Registry.states, mapM_eq_ok_iff_forall₂, registered_eq (strict_entries us),
    forall₂_filterMap_left_iff fun p hp => exists_book? hp]
  refine ⟨fun hall => hall.imp fun p state hshows => ⟨?_, hshows⟩,
    fun hall => hall.imp fun p state => And.right⟩
  obtain ⟨b, hb, hstate⟩ := hshows
  obtain ⟨metrics, -, hstate⟩ := bind_eq_ok hstate
  rw [← Except.ok.inj hstate]
  exact pair_of_book? hb

/-! ## Any uses -/

end BookFeed.Registry

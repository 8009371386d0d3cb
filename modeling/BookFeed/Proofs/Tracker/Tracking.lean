import BookFeed.Proofs.Registry
import BookFeed.Proofs.Synchronizer.History
import BookFeed.Proofs.Tracker.Shelf
import Mathlib.Data.List.Induction
import Mathlib.Data.List.Perm.Basic

/-!
# Tasks and books come and go together

A pair gets its book before its task and loses its task before its book, and whether it is tracked
may change at any time in between. `Inv` says what holds all the same. The tasks are those of the
registered pairs, except for one pair while a call has the lock and is halfway (`Holder.Apart`). A
registered pair is tracked, or some call that swapped the set has it still on its list
(`System.Wanted`).

The second look at the set carries this. Who gives a pair its book has found it tracked while it had
the lock, and until it releases the lock no call can strike the pair off its list.

* `Inv.resume`, `Inv.resumeHolder`: whatever a call does next keeps `Inv`;
* **`run_tasks_eq_books`**: so while the lock is free, the tasks are those of the registered pairs,
  and once all calls have returned, these are tracked.
-/

namespace BookFeed

/-- A pair that is tracked stays so or is removed. -/
theorem TrackedPairs.contains_replace {t : TrackedPairs} {p : String} (pairs : List String)
    (h : t.contains p = true) :
    (t.replace pairs).1.contains p = true ∨ p ∈ (t.replace pairs).2.removed := by
  by_cases hp : (t.replace pairs).1.contains p = true
  · exact .inl hp
  · rw [Bool.not_eq_true] at hp
    exact .inr (List.mem_filter.mpr ⟨List.contains_iff_mem.mp h, congrArg (!·) hp⟩)

namespace Tracker

/-- The pairs whose state a call has still to drop. -/
def Call.owed : Call → List String
  | .untrack pairs => pairs
  | _ => []

@[inherit_doc Call.owed]
def Holder.owed : Holder → List String
  | .abort p others | .remove p others => p :: others
  | _ => []

/-- How the pairs that have tasks differ from those that have books. -/
def Holder.Apart (tasks books : List (String × Handle)) : Holder → Prop
  | .spawn m _ h =>
    Sorted.get? compare m.pair books = some h ∧
      (tasks = books ∨ tasks = Sorted.erase compare m.pair books)
  | .remove p _ => tasks = Sorted.erase compare p books
  | _ => tasks = books

namespace System

open Synchronizer (sampleOpening)

/-- Some call has still to drop the state of the pair. -/
def Due (s : System) (p : String) : Prop :=
  (∃ h, s.holder = some h ∧ p ∈ h.owed) ∨ ∃ c ∈ s.calls, p ∈ c.owed

/-- The pair is tracked, or its state will be dropped. -/
def Wanted (s : System) (p : String) : Prop :=
  s.tracker.tracked.contains p = true ∨ s.Due p

/-- The pairs that have tasks are those that have books, up to what the call with the lock does. -/
def Matched (s : System) : Prop :=
  match s.holder with
  | none => s.tracker.tasks = s.tracker.registry.entries
  | some h => h.Apart s.tracker.tasks s.tracker.registry.entries

/-- What holds between any two events. -/
structure Inv (s : System) : Prop where
  strict : Sorted.Strict compare s.tracker.registry.entries
  sound : s.tracker.registry.Sound
  matched : s.Matched
  wanted : ∀ p, s.tracker.registry.contains p = true → s.Wanted p
  /-- so is a pair that is about to get its book -/
  cleared : ∀ m sender, s.holder = some (.register m sender) → s.Wanted m.pair

variable {s s' : System} {t : Tracker} {c : Call} {h : Holder} {p : String} {m : Message}
  {sender : Sender} {i : Nat} {next : List Call}

theorem Inv.tasks_eq (hi : s.Inv) (hfree : s.holder = none) :
    s.tracker.tasks = s.tracker.registry.entries := by
  have hm := hi.matched
  rwa [Matched, hfree] at hm

theorem Inv.apart (hi : s.Inv) (hh : s.holder = some h) :
    h.Apart s.tracker.tasks s.tracker.registry.entries := by
  have hm := hi.matched
  rwa [Matched, hh] at hm

theorem Inv.strict_tasks (hi : s.Inv) : Sorted.Strict compare s.tracker.tasks := by
  have hsame : s.tracker.tasks = s.tracker.registry.entries →
      Sorted.Strict compare s.tracker.tasks := fun h => h ▸ hi.strict
  have herased : ∀ p, s.tracker.tasks = Sorted.erase compare p s.tracker.registry.entries →
      Sorted.Strict compare s.tracker.tasks := fun p h => h ▸ Sorted.strict_erase hi.strict p
  cases hh : s.holder with
  | none => exact hsame (hi.tasks_eq hh)
  | some h =>
    have ha := hi.apart hh
    cases h with
    | recheck | register | abort => exact hsame ha
    | spawn m => exact ha.2.elim hsame (herased m.pair)
    | remove p => exact herased p ha

/-! ## What does not change the books -/

/-- Where the books stay, so does `Inv`, if the tasks still match and no pair loses its reason. -/
theorem Inv.of_books (hi : s.Inv)
    (hb : s'.tracker.registry.entries = s.tracker.registry.entries)
    (hn : s'.tracker.registry.books.length = s.tracker.registry.books.length) (hm : s'.Matched)
    (hw : ∀ p, s.Wanted p → s'.Wanted p)
    (hc : ∀ m sender, s'.holder = some (.register m sender) → s'.Wanted m.pair) : s'.Inv := by
  have hview : ∀ p, s'.tracker.registry.view? p = s.tracker.registry.view? p := fun p =>
    congrArg (Sorted.get? compare p) hb
  refine ⟨hb ▸ hi.strict, ⟨fun {p h} hp => ?_, fun {p q h} hp hq => ?_⟩, hm, fun p hp => ?_, hc⟩
  · rw [hview] at hp
    exact (hi.sound.known hp).trans_eq hn.symm
  · rw [hview] at hp hq
    exact hi.sound.distinct hp hq
  · rw [Registry.contains, hview] at hp
    exact hw p (hi.wanted p hp)

/-- Where books and tasks stay. -/
theorem Inv.of_shelf (hi : s.Inv)
    (ht : s'.tracker.shelf = { s.tracker.shelf with tracked := s'.tracker.tracked })
    (hh : s'.holder = s.holder) (hw : ∀ p, s.Wanted p → s'.Wanted p) : s'.Inv := by
  have htasks : s'.tracker.tasks = s.tracker.tasks := congrArg Shelf.tasks ht
  have hbooks : s'.tracker.registry.entries = s.tracker.registry.entries :=
    congrArg Shelf.books ht
  have hmade : s'.tracker.registry.books.length = s.tracker.registry.books.length :=
    congrArg Shelf.made ht
  refine hi.of_books hbooks hmade ?_ hw fun m sender hr => ?_
  · have hm := hi.matched
    unfold Matched at hm ⊢
    rwa [hh, htasks, hbooks]
  · exact hw _ (hi.cleared m sender (hh ▸ hr))

theorem Inv.quiet (hi : s.Inv) (ht : t.shelf = s.tracker.shelf) :
    ({ s with tracker := t } : System).Inv := by
  have htracked : t.tracked = s.tracker.tracked := congrArg Shelf.tracked ht
  refine hi.of_shelf ?_ rfl fun p hp => ?_
  · rw [ht, htracked]
    rfl
  · rwa [Wanted, htracked]

theorem Inv.answer (hi : s.Inv) (accepted : Bool) : (s.answer m sender accepted).Inv := by
  have hsaid : ∀ answers, ({ s with answers } : System).Inv := fun _ =>
    hi.of_shelf rfl rfl fun _ hp => hp
  cases sender with
  | router =>
    cases accepted with
    | true => exact hi.quiet (shelf_tally _)
    | false => exact hi.quiet (shelf_tally _)
  | saver =>
    cases accepted with
    | true => exact hsaid _
    | false => exact hsaid _

/-! ## Calls that do not have the lock -/

theorem mem_calls {c' : Call} (hc : s.calls[i]? = some c) (hc' : c' ∈ s.calls) :
    c' = c ∨ c' ∈ s.calls.eraseIdx i := by
  obtain ⟨hlt, rfl⟩ := List.getElem?_eq_some_iff.mp hc
  exact List.mem_cons.mp ((List.getElem_cons_eraseIdx_perm hlt).mem_iff.mpr hc')

/-- What a call has to drop is left to what follows it. -/
theorem Due.turn (hd : s.Due p) (hc : s.calls[i]? = some c)
    (hnext : ∀ q ∈ c.owed, ∃ c' ∈ next, q ∈ c'.owed) : (s.turn i next).Due p := by
  refine hd.imp_right ?_
  rintro ⟨c', hc', hp⟩
  rcases mem_calls hc hc' with rfl | hc'
  · obtain ⟨c', hc', hp⟩ := hnext p hp
    exact ⟨c', List.mem_append_right _ hc', hp⟩
  · exact ⟨c', List.mem_append_left _ hc', hp⟩

theorem Inv.turn (hi : s.Inv) (hc : s.calls[i]? = some c)
    (hnext : ∀ q ∈ c.owed, ∃ c' ∈ next, q ∈ c'.owed) : (s.turn i next).Inv :=
  hi.of_shelf rfl rfl fun _ hp => hp.imp_right (Due.turn · hc hnext)

/-- A call that takes the lock finds tasks and books matched. -/
theorem Inv.lock (hi : s.Inv) (hc : s.calls[i]? = some c) (howed : c.owed ⊆ h.owed)
    (happart : ∀ l, h.Apart l l) (hr : ∀ m sender, h ≠ .register m sender) : (s.lock i h).Inv := by
  unfold System.lock
  split
  · exact hi
  · rename_i hfree
    have hmatched : h.Apart s.tracker.tasks s.tracker.registry.entries :=
      hi.tasks_eq hfree ▸ happart _
    refine hi.of_books rfl rfl hmatched (fun p hp => hp.imp_right fun hd => ?_)
      fun m sender hh => absurd (Option.some.inj hh) (hr m sender)
    rcases hd with ⟨h', hh', -⟩ | ⟨c', hc', hp⟩
    · exact absurd (hfree.symm.trans hh') (by simp)
    · rcases mem_calls hc hc' with rfl | hc'
      · exact .inl ⟨h, rfl, howed hp⟩
      · exact .inr ⟨c', List.mem_append_left _ hc', hp⟩

theorem Inv.resume (hi : s.Inv) (hc : s.calls[i]? = some c) : (s.resume i c).Inv := by
  have hnone : c.owed = [] → ∀ next, (s.turn i next).Inv := fun howed _ =>
    hi.turn hc fun q hq => absurd (howed ▸ hq) List.not_mem_nil
  cases c with
  | check m =>
    simp only [System.resume]
    split
    · exact hnone rfl _
    · exact (hnone rfl _).answer false
  | find m sender =>
    simp only [System.resume]
    split
    · exact hnone rfl _
    · exact hnone rfl _
  | enter m sender =>
    exact hi.lock hc (List.nil_subset _) (fun _ => rfl) (fun _ _ hr => Holder.noConfusion hr)
  | hand m sender h =>
    exact ((hnone rfl _).quiet (shelf_handTo hi.strict_tasks)).answer true
  | replace pairs =>
    -- a pair that is no longer tracked goes onto the list of the call that swapped the set
    refine hi.of_shelf rfl rfl fun p hp => ?_
    rcases hp with hp | hd
    · refine (TrackedPairs.contains_replace pairs hp).imp_right fun hremoved => ?_
      exact .inr ⟨_, List.mem_concat_self, hremoved⟩
    · exact .inr (hd.turn hc fun q hq => absurd hq List.not_mem_nil)
  | untrack pairs =>
    cases pairs with
    | nil => exact hnone rfl _
    | cons p others =>
      exact hi.lock hc (List.Subset.refl _) (fun _ => rfl) (fun _ _ hr => Holder.noConfusion hr)

/-! ## The call that has the lock -/

/-- Where the call with the lock has nothing to drop, another one does. -/
theorem Due.of_others (hd : s.Due p) (hh : s.holder = some h) (howed : h.owed = []) :
    ∃ c ∈ s.calls, p ∈ c.owed := by
  refine hd.resolve_left ?_
  rintro ⟨h', hh', hp⟩
  obtain rfl := Option.some.inj (hh.symm.trans hh')
  exact absurd (howed ▸ hp) List.not_mem_nil

/-- A call that finds the pair no longer tracked releases the lock. -/
theorem Inv.release (hi : s.Inv) (hh : s.holder = some (.recheck m sender)) :
    ({ s with holder := none } : System).Inv := by
  have ha := hi.apart hh
  exact hi.of_books rfl rfl ha (fun p hp => hp.imp_right fun hd => .inr (hd.of_others hh rfl))
    fun m' sender' hr => absurd hr (by simp)

/-- A pair that is found tracked under the lock may get its book. -/
theorem Inv.recheck (hi : s.Inv) (hh : s.holder = some (.recheck m sender)) :
    (s.resumeHolder (.recheck m sender)).Inv := by
  have ha := hi.apart hh
  simp only [System.resumeHolder]
  split
  · rename_i ht
    refine hi.of_books rfl rfl ha (fun p hp => hp.imp_right fun hd => ?_) fun m' sender' hr => ?_
    · exact .inr (hd.of_others hh rfl)
    · -- the set may change before the book is made, but then the pair is on somebody's list
      obtain ⟨rfl, -⟩ := Holder.register.inj (Option.some.inj hr)
      exact .inl ht
  · exact (hi.release hh).answer false

/-- A new book has no task yet. -/
theorem Inv.register (hi : s.Inv) (hh : s.holder = some (.register m sender)) :
    (s.resumeHolder (.register m sender)).Inv := by
  have ha : s.tracker.tasks = s.tracker.registry.entries := hi.apart hh
  have hwanted : ∀ p, s.Wanted p → ∀ registry h',
      ({ s with
        tracker := { s.tracker with registry }
        holder := some (.spawn m sender h') } : System).Wanted p := fun p hp _ _ =>
    hp.imp_right fun hd => .inr (hd.of_others hh rfl)
  simp only [System.resumeHolder]
  cases hv : s.tracker.registry.view? m.pair with
  | some h =>
    have hr : s.tracker.registry.register m.pair = (s.tracker.registry, h) := by
      rw [Registry.register, hv]
    rw [hr]
    exact hi.of_books rfl rfl ⟨hv, .inl ha⟩ (fun p hp => hwanted p hp _ _)
      fun m' sender' hr => absurd hr (by simp)
  | none =>
    have hsound := hi.sound.register hv
    have hself := Registry.view?_register_self hv
    have hother : ∀ q ≠ m.pair, (s.tracker.registry.register m.pair).1.view? q =
        s.tracker.registry.view? q := fun q hq => Registry.view?_register_of_ne hv hq
    rw [Registry.register_of_view?_eq_none hv] at hsound hself hother ⊢
    refine ⟨Sorted.strict_insert hi.strict _ _, hsound, ⟨hself, .inr ?_⟩, fun q hq => ?_,
      fun m' sender' hr => absurd hr (by simp)⟩
    · exact ha.trans (Sorted.erase_insert hi.strict hv).symm
    · by_cases hqp : q = m.pair
      · exact hwanted q (hqp ▸ hi.cleared m sender hh) _ _
      · refine hwanted q (hi.wanted q ?_) _ _
        rw [Registry.contains, ← hother q hqp]
        exact hq

theorem shelf_attach (b : Handle) : (t.attach p b).1.shelf =
    { t.shelf with tasks := (t.attach p b).1.tasks } := by
  unfold attach
  split <;> rfl

/-- Spawning a task, unless there is one, makes up for the book without a task. -/
theorem tasks_attach {b : Handle} (hs : Sorted.Strict compare t.registry.entries)
    (ha : (Holder.spawn m sender b).Apart t.tasks t.registry.entries) :
    (t.attach m.pair b).1.tasks = t.registry.entries := by
  obtain ⟨hbook, ha⟩ := ha
  have hold : Sorted.get? compare m.pair t.tasks = (t.pair? m.pair).map (·.handle) := get?_tasks
  unfold attach
  cases hp : t.pair? m.pair with
  | some task =>
    -- then the book was an old one, and its task is there
    refine ha.resolve_right fun herased => ?_
    rw [herased, Sorted.get?_erase hs, if_pos Std.ReflCmp.compare_self, hp] at hold
    exact absurd hold (by simp)
  | none =>
    have herased := ha.resolve_left fun hsame => by
      rw [hsame, hbook, hp] at hold
      exact absurd hold (by simp)
    refine (congrArg Shelf.tasks (shelf_setPair _)).trans ?_
    exact (congrArg (Sorted.insert compare m.pair b) herased).trans (Sorted.insert_erase hs hbook)

/-- With its task the pair has both, and the lock is free again. -/
theorem Inv.spawn {b : Handle} (hi : s.Inv) (hh : s.holder = some (.spawn m sender b)) :
    (s.resumeHolder (.spawn m sender b)).Inv := by
  have hshelf := shelf_attach (t := s.tracker) (p := m.pair) b
  have htasks := tasks_attach hi.strict (hi.apart hh)
  simp only [System.resumeHolder]
  generalize s.tracker.attach m.pair b = attached at hshelf htasks ⊢
  obtain ⟨t, b'⟩ := attached
  have htracked : t.tracked = s.tracker.tracked := congrArg Shelf.tracked hshelf
  have hentries : t.registry.entries = s.tracker.registry.entries := congrArg Shelf.books hshelf
  have hmade : t.registry.books.length = s.tracker.registry.books.length :=
    congrArg Shelf.made hshelf
  refine hi.of_books hentries hmade (htasks.trans hentries.symm) (fun p hp => ?_)
    fun m' sender' hr => absurd hr (by simp)
  rw [Wanted, ← htracked] at hp
  refine hp.imp_right fun hd => ?_
  obtain ⟨c, hc, hp⟩ := hd.of_others hh rfl
  exact .inr ⟨c, List.mem_append_left _ hc, hp⟩

/-- A pair whose task has ended has a book without a task. -/
theorem Inv.abort {others : List String} (hi : s.Inv) (hh : s.holder = some (.abort p others)) :
    (s.resumeHolder (.abort p others)).Inv := by
  have ha : s.tracker.tasks = s.tracker.registry.entries := hi.apart hh
  have htasks : (s.tracker.abort p).tasks =
      Sorted.erase compare p s.tracker.registry.entries :=
    (Sorted.map_erase _ p s.tracker.pairs).trans (congrArg (Sorted.erase compare p) ha)
  refine hi.of_books rfl rfl htasks (fun q hq => hq.imp_right fun hd => ?_)
    fun m' sender' hr => absurd hr (by simp [System.resumeHolder])
  refine hd.imp_left ?_
  rintro ⟨h, hh', hq⟩
  obtain rfl := Option.some.inj (hh.symm.trans hh')
  exact ⟨_, rfl, hq⟩

/-- A pair is struck off the list when it has neither a task nor a book. -/
theorem Inv.remove {others : List String} (hi : s.Inv) (hh : s.holder = some (.remove p others)) :
    (s.resumeHolder (.remove p others)).Inv := by
  have ha : s.tracker.tasks = Sorted.erase compare p s.tracker.registry.entries := hi.apart hh
  refine ⟨Sorted.strict_erase hi.strict p, hi.sound.remove hi.strict, ha, fun q hq => ?_,
    fun m' sender' hr => absurd hr (by simp [System.resumeHolder])⟩
  obtain ⟨b, hb⟩ := Option.isSome_iff_exists.mp hq
  obtain ⟨hne, hold⟩ := Registry.view?_of_remove hi.strict hb
  -- only the pair itself is struck off, and it is not registered any more
  refine (hi.wanted q (Option.isSome_iff_exists.mpr ⟨b, hold⟩)).imp_right fun hd => .inr ?_
  rcases hd with ⟨h, hh', hq⟩ | ⟨c, hc, hq⟩
  · obtain rfl := Option.some.inj (hh.symm.trans hh')
    exact ⟨_, List.mem_concat_self, (List.mem_cons.mp hq).resolve_left hne⟩
  · exact ⟨c, List.mem_append_left _ hc, hq⟩

theorem Inv.resumeHolder (hi : s.Inv) (hh : s.holder = some h) : (s.resumeHolder h).Inv := by
  cases h with
  | recheck m sender => exact hi.recheck hh
  | register m sender => exact hi.register hh
  | spawn m sender b => exact hi.spawn hh
  | abort p others => exact hi.abort hh
  | remove p others => exact hi.remove hh

/-! ## Every run -/

/-- **Every event keeps `Inv`.** -/
theorem Inv.step (hi : s.Inv) (e : Event) : (s.step e).Inv := by
  have hcalled : ∀ c, ({ s with calls := s.calls ++ [c] } : System).Inv := fun c =>
    hi.of_shelf rfl rfl fun p hp => hp.imp_right fun hd => hd.imp_right fun ⟨c, hc, hp⟩ =>
      ⟨c, List.mem_append_left _ hc, hp⟩
  cases e with
  | lookup m => exact hcalled _
  | save m => exact hcalled _
  | update pairs => exact hcalled _
  | go i =>
    simp only [System.step]
    split
    · exact hi
    · rename_i hc
      exact hi.resume hc
  | hold =>
    simp only [System.step]
    split
    · exact hi
    · rename_i hh
      exact hi.resumeHolder hh
  | other e =>
    simp only [System.step]
    split
    · exact hi
    · rename_i he
      rw [Bool.not_eq_true] at he
      cases hs : s.tracker.happen? e with
      | none => exact hi
      | some t => exact hi.quiet (shelf_happen? hi.strict_tasks he hs)

theorem inv_start (t : Tracker) : ({ tracker := t.start } : System).Inv where
  strict := List.Pairwise.nil
  sound := Registry.sound_clear t.registry
  matched := rfl
  wanted p hp := absurd hp Bool.false_ne_true
  cleared m sender hr := absurd hr (by simp)

theorem inv_run (t : Tracker) (es : List Event) :
    (({ tracker := t.start } : System).run es).Inv := by
  induction es using List.reverseRecOn with
  | nil => exact inv_start t
  | append_singleton es e ih =>
    rw [run_concat]
    exact ih.step e

/-- **Pairs have tasks and books together, and only while they are tracked.** After any interleaving
of calls since the start of a tracker, whenever the lock is free: the pairs that have tasks, each
with the book that its task writes, are the registered pairs with their books, no pair has two
tasks, and no two pairs share a book. Once all calls have returned, all these pairs are tracked. -/
theorem run_tasks_eq_books (t : Tracker) (es : List Event) (s : System)
    (hrun : ({ tracker := t.start } : System).run es = s) (hfree : s.holder = none) :
    s.tracker.tasks = s.tracker.registry.entries ∧ (s.tracker.pairs.map (·.1)).Nodup ∧
      s.tracker.registry.Sound ∧
      (s.calls = [] → ∀ p, s.tracker.registry.contains p = true →
        s.tracker.tracked.contains p = true) := by
  have hi : s.Inv := hrun ▸ inv_run t es
  have hkeys : s.tracker.tasks.map (·.1) = s.tracker.pairs.map (·.1) := List.map_map ..
  refine ⟨hi.tasks_eq hfree, hkeys ▸ hi.strict_tasks.nodup, hi.sound, fun hcalls p hp => ?_⟩
  refine (hi.wanted p hp).resolve_right ?_
  rintro (⟨h, hh, -⟩ | ⟨c, hc, -⟩)
  · exact absurd (hfree.symm.trans hh) (by simp)
  · exact absurd (hcalls ▸ hc) List.not_mem_nil

/-- Two look-ups find a pair tracked and without a task. One is let in before the pair is dropped,
but spawns its task when the pair is no longer tracked. The other one is let in when the state of
the pair has been dropped, and makes no new one. -/
theorem run_tasks_eq_books_dropped :
    let t : Tracker :=
      { exchange := "sample", settings := {}, source := .feed {},
        tracked := .ofList ["BTC-USDT"] }
    let m := sampleOpening 10 1 "A" (.ofNat 100) (.ofNat 1)
    let before : List Event :=
      [.lookup m, .go 0, .go 0, .lookup m, .go 1, .go 1, .go 0, .hold, .update ["ETH-USDT"],
        .go 1, .go 1, .hold, .hold]
    let after : List Event :=
      [.go 1, .hold, .hold, .go 0, .hold, .go 0, .go 0, .save { m with pair := "ETH-USDT" },
        .go 0, .go 0, .hold, .hold, .hold, .go 0]
    let s₁ := ({ tracker := t.start } : System).run before
    let s₂ := ({ tracker := t.start } : System).run (before ++ after)
    s₁.holder = none ∧ s₁.tracker.tasks = [("BTC-USDT", ⟨0⟩)] ∧
      s₁.tracker.registry.entries = [("BTC-USDT", ⟨0⟩)] ∧
      s₁.tracker.tracked.contains "BTC-USDT" = false ∧
      s₂.holder = none ∧ s₂.calls = [] ∧ s₂.tracker.tasks = [("ETH-USDT", ⟨1⟩)] ∧
      s₂.tracker.registry.entries = [("ETH-USDT", ⟨1⟩)] ∧
      ∀ p, s₂.tracker.registry.contains p = true → s₂.tracker.tracked.contains p = true := by
  intro t m before after s₁ s₂
  have hfree₁ : s₁.holder = none := by decide +kernel
  have htasks₁ : s₁.tracker.tasks = [("BTC-USDT", ⟨0⟩)] := by decide +kernel
  have hfree₂ : s₂.holder = none := by decide +kernel
  have hcalls₂ : s₂.calls = [] := by decide +kernel
  have htasks₂ : s₂.tracker.tasks = [("ETH-USDT", ⟨1⟩)] := by decide +kernel
  obtain ⟨hsame₁, -⟩ := run_tasks_eq_books t before s₁ rfl hfree₁
  obtain ⟨hsame₂, -, -, htracked⟩ := run_tasks_eq_books t (before ++ after) s₂ rfl hfree₂
  exact ⟨hfree₁, htasks₁, hsame₁.symm.trans htasks₁, by decide +kernel, hfree₂, hcalls₂, htasks₂,
    hsame₂.symm.trans htasks₂, htracked hcalls₂⟩

end System

end Tracker

end BookFeed

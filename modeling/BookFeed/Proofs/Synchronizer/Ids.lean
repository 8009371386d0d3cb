import BookFeed.Proofs.Synchronizer.Highest
import BookFeed.Proofs.Synchronizer.Rollback

/-!
# The ids of a book under failed diffs

A diff that fails is undone by a rebuild, and a rebuild brings the ids of what it applies into the
book once more. `RestingOrders.shown` lists these ids: those of the diffs that have rows. As long as
the window is whole the book has heard of all of them, and of the last one last (`Book.Notes`), so
a rebuild leaves the ids of the book as they are.

A late diff is tried on the book before it is refused. The trial leaves ids that the book has not had
before if the diff could be applied where it belongs, and a newer one of the window could not any
more. The highest update never falls, so it stays; the last diff stays if no diff of the window
has rows.

* `Ledger.ids_applyDiffs`, `ids_rebuild`: the ids after diffs and after a rebuild;
* `Handled.notes`: every step but a failing snapshot keeps `Book.Notes`;
* **`failed_diff_ids`**: the ids after a failed diff;
* `late_diff_leaves_ids`: a diff that is refused, and named by the book.
-/

namespace BookFeed

namespace RestingOrders

/-- The ids of the diffs that have rows for a book, up to the first diff that fails. -/
def shown (t : RestingOrders) : List Message → List UInt64
  | [] => []
  | m :: ms =>
    match t.applyDiff m with
    | (_, .error _) => []
    | (t, .ok rows) =>
      if rows.bids.isEmpty ∧ rows.asks.isEmpty then t.shown ms else m.updateId :: t.shown ms

/-- The orders that a replay starts with. -/
def start (base : Option Message) : RestingOrders :=
  base.elim empty fun snapshot => (empty.applySnapshot snapshot).1

end RestingOrders

/-- The ids that a replay notes, the snapshot first. -/
def noted (base : Option Message) (ds : List Message) : List UInt64 :=
  base.toList.map (·.updateId) ++ (RestingOrders.start base).shown ds

/-- The book has heard of everything that a replay notes, and of its last diff last. -/
structure Book.Notes (b : Book) (base : Option Message) (ds : List Message) : Prop where
  diffId : ∀ u ∈ ((RestingOrders.start base).shown ds).getLast?, b.diffId = u
  appliedId : ∀ u ∈ noted base ds, u ≤ b.appliedId

/-- The books name the same diff as the last one, and the same highest update. -/
def Book.SameIds (b b' : Book) : Prop := b'.diffId = b.diffId ∧ b'.appliedId = b.appliedId

theorem Book.notes_nil (b : Book) : b.Notes none [] where
  diffId u hu := absurd hu (by simp [RestingOrders.shown])
  appliedId u hu := absurd hu (by simp [noted, RestingOrders.shown])

/-! ## Highest ids -/

section Highest

variable {us : List UInt64} {a u : UInt64}

theorem foldl_max_eq_self (h : ∀ u ∈ us, u ≤ a) : us.foldl max a = a := by
  induction us with
  | nil => rfl
  | cons u us ih =>
    obtain ⟨hu, hus⟩ := List.forall_mem_cons.mp h
    have hmax : max a u = a :=
      UInt64.le_antisymm (Std.max_le_iff.mpr ⟨UInt64.le_refl a, hu⟩) Std.left_le_max
    rw [List.foldl_cons, hmax]
    exact ih hus

theorem le_foldl_max (us : List UInt64) (a : UInt64) : a ≤ us.foldl max a := by
  induction us generalizing a with
  | nil => exact UInt64.le_refl a
  | cons u us ih => exact UInt64.le_trans Std.left_le_max (ih (max a u))

theorem le_foldl_max_of_mem (h : u ∈ us) : u ≤ us.foldl max a := by
  induction us generalizing a with
  | nil => exact absurd h List.not_mem_nil
  | cons v us ih =>
    rcases List.mem_cons.mp h with rfl | h
    · exact UInt64.le_trans Std.right_le_max (le_foldl_max us (max a u))
    · exact ih h

end Highest

namespace Ledger

variable {l l₁ l₂ : Ledger} {base : Option Message} {ds ds' : List Message} {m : Message}
  {e : Error}

/-- **The ids after diffs**, also where one of them fails. -/
theorem ids_applyDiffs (ds : List Message) : ∀ l : Ledger,
    (l.applyDiffs ds).1.book.diffId = (l.orders.shown ds).getLast?.getD l.book.diffId ∧
      (l.applyDiffs ds).1.book.appliedId = (l.orders.shown ds).foldl max l.book.appliedId := by
  induction ds with
  | nil => exact fun l => ⟨rfl, rfl⟩
  | cons m ds ih =>
    intro l
    unfold applyDiffs applyDiff RestingOrders.shown
    obtain ⟨orders, e | rows⟩ := l.orders.applyDiff m
    · exact ⟨rfl, rfl⟩
    · by_cases hrows : rows.bids.isEmpty ∧ rows.asks.isEmpty
      · simp only [if_pos hrows]
        exact ih ⟨orders, l.book⟩
      · simp only [if_neg hrows]
        obtain ⟨hdiff, happlied⟩ :=
          ih ⟨orders, l.book.applyDiffs rows.bids rows.asks m.updateId⟩
        constructor
        · rw [hdiff, List.getLast?_cons, Option.getD_some]
          rfl
        · rw [happlied, List.foldl_cons]
          rfl

theorem shown_append (h : l.applyDiffs ds = (l₁, .ok ())) (ds' : List Message) :
    l.orders.shown (ds ++ ds') = l.orders.shown ds ++ l₁.orders.shown ds' := by
  induction ds generalizing l with
  | nil =>
    obtain rfl : l = l₁ := congrArg Prod.fst h
    rfl
  | cons m ds ih =>
    unfold applyDiffs applyDiff at h
    simp only [List.cons_append, RestingOrders.shown]
    generalize l.orders.applyDiff m = done at h ⊢
    obtain ⟨orders, e | rows⟩ := done
    · exact absurd (congrArg Prod.snd h) (by simp)
    · by_cases hrows : rows.bids.isEmpty ∧ rows.asks.isEmpty
      · simp only [if_pos hrows] at h ⊢
        exact ih h
      · simp only [if_neg hrows, List.cons_append] at h ⊢
        exact congrArg _ (ih h)

/-- A diff that fails has not reached the book. -/
theorem shown_of_failed (h : l.applyDiff m = (l₁, .error e)) (ds : List Message) :
    l₁.book = l.book ∧ l.orders.shown (m :: ds) = [] := by
  unfold applyDiff at h
  unfold RestingOrders.shown
  generalize l.orders.applyDiff m = done at h ⊢
  obtain ⟨orders, e' | rows⟩ := done
  · exact ⟨congrArg (fun done => done.1.book) h.symm, rfl⟩
  · simp only at h
    split at h <;> exact absurd (congrArg Prod.snd h) (by simp)

/-- What comes first can be applied by itself. -/
theorem exists_applyDiffs_of_append (h : l.applyDiffs (ds ++ ds') = (l₂, .ok ())) :
    ∃ l₁, l.applyDiffs ds = (l₁, .ok ()) := by
  induction ds generalizing l with
  | nil => exact ⟨l, rfl⟩
  | cons m ds ih =>
    simp only [List.cons_append, applyDiffs] at h ⊢
    generalize l.applyDiff m = done at h ⊢
    obtain ⟨l₁, e | _⟩ := done
    · exact absurd (congrArg Prod.snd h) (by simp)
    · exact ih h

/-- Starting over notes the snapshot, and the last diff stays. -/
theorem ids_restart (h : l.restart base = (l₁, .ok ())) :
    l₁.orders = RestingOrders.start base ∧ l₁.book.diffId = l.book.diffId ∧
      l₁.book.appliedId = (base.toList.map (·.updateId)).foldl max l.book.appliedId := by
  unfold restart at h
  cases base with
  | none =>
    obtain rfl := congrArg Prod.fst h
    exact ⟨rfl, rfl, rfl⟩
  | some snapshot =>
    simp only at h
    cases ha : l.orders.applySnapshot snapshot with
    | mk orders r =>
      rw [ha] at h
      cases r with
      | error e => exact absurd (congrArg Prod.snd h) (by simp)
      | ok rows =>
        obtain rfl := congrArg Prod.fst h
        have hempty : RestingOrders.empty.applySnapshot snapshot = (orders, .ok rows) :=
          RestingOrders.applySnapshot_ok_iff.mp ha
        exact ⟨(congrArg Prod.fst hempty).symm, rfl, rfl⟩

/-- The ids after starting over and applying diffs again. -/
theorem ids_redone (h : l.restart base = (l₁, .ok ())) (ds : List Message) :
    (l₁.applyDiffs ds).1.book.diffId =
        ((RestingOrders.start base).shown ds).getLast?.getD l.book.diffId ∧
      (l₁.applyDiffs ds).1.book.appliedId = (noted base ds).foldl max l.book.appliedId := by
  obtain ⟨horders, hdiff, happlied⟩ := ids_restart h
  obtain ⟨hdiff', happlied'⟩ := ids_applyDiffs ds l₁
  rw [horders] at hdiff' happlied'
  rw [hdiff', happlied', hdiff, happlied, noted, List.foldl_append]
  exact ⟨rfl, rfl⟩

end Ledger

namespace Synchronizer

open Delivery (NoSnapshotFault)

variable {s s' : Synchronizer} {m : Message} {pair : String} {l : Ledger} {e : Error}
  {outcome : Except Error Applied}

/-! ## Rebuilding -/

/-- The ids after a rebuild, also where a diff fails in it. -/
theorem ids_rebuild (h : (s.ledger.restart s.lastSnapshot).2 = .ok ()) :
    s.rebuild.1.book.diffId =
        ((RestingOrders.start s.lastSnapshot).shown s.newer).getLast?.getD s.book.diffId ∧
      s.rebuild.1.book.appliedId = (noted s.lastSnapshot s.newer).foldl max s.book.appliedId := by
  have hids := Ledger.ids_redone (Prod.ext rfl h) s.newer
  unfold rebuild
  generalize s.ledger.restart s.lastSnapshot = started at h hids ⊢
  obtain ⟨l₁, r⟩ := started
  obtain rfl : r = .ok () := h
  simp only at hids ⊢
  generalize l₁.applyDiffs s.newer = done at hids ⊢
  obtain ⟨l₂, e | _⟩ := done <;> exact hids

/-- A book that has been rebuilt notes what has been applied. -/
theorem notes_rebuild {n : Nat} (h : s.rebuild = ({ s with ledger := l }, .ok n)) :
    l.book.Notes s.lastSnapshot s.newer := by
  obtain ⟨hdiff, happlied⟩ := ids_rebuild (restart_of_rebuild (congrArg Prod.snd h))
  rw [h] at hdiff happlied
  constructor
  · intro u hu
    rw [Option.mem_def.mp hu] at hdiff
    exact hdiff
  · intro u hu
    rw [show l.book.appliedId = _ from happlied]
    exact le_foldl_max_of_mem hu

/-- As long as the window is not truncated, the book notes what the window tells. -/
def NotesWindow (s : Synchronizer) : Prop :=
  s.truncated = false →
    s.book.Notes s.lastSnapshot (s.window.filter (follows s.lastSnapshot))

/-- **A repair leaves the ids of what has been tried**, except that the last diff of the window that
has rows is the last one of the book. -/
theorem ids_restore (hi : s.Inv) (hf : s.Faithful pair) (hn : s.NotesWindow)
    (ht : s.truncated = false) (hle : s.book.appliedId ≤ l.book.appliedId) :
    ({ s with ledger := l } : Synchronizer).restore.book.appliedId = l.book.appliedId ∧
      ({ s with ledger := l } : Synchronizer).restore.book.diffId =
        if (RestingOrders.start s.lastSnapshot).shown s.newer = [] then l.book.diffId
        else s.book.diffId := by
  obtain ⟨l₀, hr, -⟩ := hf ht
  rw [← newer_eq hi.ordered] at hr
  obtain ⟨l', hl', -⟩ := rebuild_of_replay (s := { s with ledger := l }) hr
  obtain ⟨hdiff, happlied⟩ := ids_rebuild (s := { s with ledger := l })
    (restart_of_rebuild (congrArg Prod.snd hl'))
  have hnotes := hn ht
  rw [← newer_eq hi.ordered] at hnotes
  unfold restore
  rw [if_neg (by rw [ht]; exact Bool.false_ne_true), happlied, hdiff]
  constructor
  · exact foldl_max_eq_self fun u hu => UInt64.le_trans (hnotes.appliedId u hu) hle
  · show ((RestingOrders.start s.lastSnapshot).shown s.newer).getLast?.getD l.book.diffId = _
    cases hlast : ((RestingOrders.start s.lastSnapshot).shown s.newer).getLast? with
    | none => rw [if_pos (List.getLast?_eq_none_iff.mp hlast), Option.getD_none]
    | some u =>
      have hne : (RestingOrders.start s.lastSnapshot).shown s.newer ≠ [] := by
        intro hnil
        rw [hnil] at hlast
        exact absurd hlast (by simp)
      rw [if_neg hne, Option.getD_some]
      exact (hnotes.diffId u hlast).symm

/-! ## Every step -/

/-- One more diff in place is one more diff in the replay. -/
theorem notes_concat (hf : s.Faithful pair) (hn : s.NotesWindow) (ht : s.truncated = false)
    (ha : s.ledger.applyDiff m = (l, .ok ())) : l.book.Notes s.lastSnapshot
      (s.window.filter (follows s.lastSnapshot) ++ [m]) := by
  obtain ⟨l₀, hr, hs⟩ := hf ht
  obtain ⟨hstart, hds⟩ := Ledger.replay_eq_ok hr
  obtain ⟨horders, -, -⟩ := Ledger.ids_restart (Prod.ext rfl hstart)
  have hshown := Ledger.shown_append hds [m]
  rw [horders, ← hs.orders] at hshown
  obtain ⟨hdiff, happlied⟩ := Ledger.ids_applyDiffs [m] s.ledger
  have hone : s.ledger.applyDiffs [m] = (l, .ok ()) := by
    simp only [Ledger.applyDiffs, ha]
  rw [hone] at hdiff happlied
  simp only at hdiff happlied
  have hnotes := hn ht
  constructor
  · intro u hu
    rw [hshown, List.getLast?_append] at hu
    rw [hdiff]
    cases hlast : (s.ledger.orders.shown [m]).getLast? with
    | none =>
      rw [hlast, Option.none_or] at hu
      exact hnotes.diffId u hu
    | some v =>
      rw [hlast, Option.some_or] at hu
      exact Option.some.inj hu
  · intro u hu
    unfold noted at hu
    rw [hshown, ← List.append_assoc] at hu
    rw [happlied]
    rcases List.mem_append.mp hu with hu | hu
    · exact UInt64.le_trans (hnotes.appliedId u hu) (le_foldl_max _ _)
    · exact le_foldl_max_of_mem hu

theorem notesWindow_trim (hn : s.NotesWindow) : s.trim.NotesWindow := by
  intro ht
  have hs : s.truncated = false := by
    rw [trim_truncated, Bool.or_eq_false_iff] at ht
    exact ht.1
  show s.book.Notes s.lastSnapshot (s.trim.window.filter (follows s.lastSnapshot))
  rw [filter_follows_trim ht]
  exact hn hs

theorem notesWindow_restore (hi : s.Inv) (hf : s.Faithful pair) (l : Ledger) :
    ({ s with ledger := l } : Synchronizer).restore.NotesWindow := by
  intro ht
  rw [restore_eq] at ht
  obtain ⟨l₀, hr, -⟩ := hf ht
  rw [← newer_eq hi.ordered] at hr
  obtain ⟨l', hl', -⟩ := rebuild_of_replay (s := { s with ledger := l }) hr
  have hrestore : ({ s with ledger := l } : Synchronizer).restore = { s with ledger := l' } := by
    unfold restore
    rw [if_neg (by rw [ht]; exact Bool.false_ne_true), hl']
  rw [hrestore]
  have hnotes := notes_rebuild hl'
  rw [newer_eq (s := { s with ledger := l }) hi.ordered] at hnotes
  exact hnotes

/-- **Every step but a failing snapshot keeps what the book notes up to date.** -/
theorem Handled.notes (h : Handled s m s' outcome) (hi : s.Inv) (hf : s.Faithful pair)
    (hn : s.NotesWindow) (hok : m.kind = .snapshot → outcome.isOk = true) : s'.NotesWindow := by
  cases h with
  | misrouted | stale | duplicate => exact hn
  | @merged l hfresh hlate ha =>
    refine notesWindow_trim fun ht => ?_
    have hnot : s.isLate m = false := by
      rw [← Bool.not_eq_true]
      intro hl
      exact Bool.false_ne_true (ht.symm.trans (hlate hl))
    show l.book.Notes s.lastSnapshot ((s.grown m).filter (follows s.lastSnapshot))
    have hnotes := notes_concat hf hn ht ha
    simpa only [grown_of_not_late hnot, List.filter_append, List.filter_cons,
      hfresh.follows hi, if_true, List.filter_nil] using hnotes
  | @rebuilt l n hfresh _ _ ha =>
    refine notesWindow_trim fun _ => ?_
    have hnotes := notes_rebuild ha
    rw [newer_eq (s := { s with window := s.grown m })
      (inv_grown hi hfresh.kind l).ordered] at hnotes
    exact hnotes
  | refused => exact notesWindow_restore hi hf _
  | reverted => exact notesWindow_restore hi hf _
  | @restarted l r _ hk _ ha =>
    intro _
    cases r with
    | error e => exact absurd (hok hk) (by simp [Except.map, Except.isOk, Except.toBool])
    | ok n =>
      have hnotes := notes_rebuild ha
      rw [newer_eq (s := { s with lastSnapshot := some m, truncated := false })
        hi.ordered] at hnotes
      exact hnotes
  | @noted b _ _ hb =>
    intro ht
    obtain ⟨hdiff, happlied⟩ := hn ht
    rcases hb with rfl | ⟨t, rfl⟩
    · exact ⟨hdiff, happlied⟩
    · exact ⟨hdiff, happlied⟩

theorem notesWindow_run {pair bookPair : String} {capacity : Nat} {ms : List Message}
    (h : NoSnapshotFault ((initial pair bookPair capacity).history ms)) :
    ((initial pair bookPair capacity).run ms).NotesWindow := by
  induction ms using List.reverseRecOn with
  | nil => exact fun _ => Book.notes_nil (.empty bookPair)
  | append_singleton ms m ih =>
    rw [history_concat, Delivery.noSnapshotFault_concat] at h
    rw [run_concat]
    exact (process_handled _ m).notes (inv_run ms pair bookPair capacity) (faithful_run h.1).1
      (ih h.1) h.2

/-! ## Diffs that fail -/

/-- The diffs of the window that follow the last snapshot and do not order after `m`. -/
def upTo (s : Synchronizer) (m : Message) : List Message :=
  (s.window.takeWhile (·.notAfter m)).filter (follows s.lastSnapshot)

/-- The diffs of the window that follow the last snapshot and order after `m`. -/
def beyond (s : Synchronizer) (m : Message) : List Message :=
  (s.window.dropWhile (·.notAfter m)).filter (follows s.lastSnapshot)

theorem filter_window_eq (s : Synchronizer) (m : Message) :
    s.window.filter (follows s.lastSnapshot) = s.upTo m ++ s.beyond m := by
  rw [upTo, beyond, ← List.filter_append, List.takeWhile_append_dropWhile]

/-- A late diff stands between the two when it is tried. -/
theorem newer_grown (hi : s.Inv) (hm : s.Fresh m) :
    ({ s with window := s.grown m } : Synchronizer).newer = s.upTo m ++ m :: s.beyond m := by
  rw [newer_eq (inv_grown hi hm.kind s.ledger).ordered]
  show (s.grown m).filter (follows s.lastSnapshot) = _
  rw [grown, List.filter_append, List.filter_cons, if_pos (hm.follows hi)]
  rfl

/-- The diff fails itself where it belongs among the diffs of the window. -/
def FailsInPlace (s : Synchronizer) (m : Message) : Prop :=
  (Ledger.replay s.pair s.lastSnapshot (s.upTo m ++ [m])).2.isOk = false

/-- The book with the diff at its place, as far as the diffs of the window could be applied. -/
def tried (s : Synchronizer) (m : Message) : Book :=
  ({ s with window := s.grown m } : Synchronizer).rebuild.1.book

/-- The book has heard of what is tried before a diff that fails itself. -/
theorem ids_tried_of_failsInPlace (hi : s.Inv) (hf : s.Faithful s.pair) (hn : s.NotesWindow)
    (ht : s.truncated = false) (hm : s.Fresh m) (hfails : s.FailsInPlace m) :
    (s.tried m).appliedId = s.book.appliedId ∧
      ((RestingOrders.start s.lastSnapshot).shown s.newer = [] →
        (s.tried m).diffId = s.book.diffId) := by
  obtain ⟨l₀, hr, -⟩ := hf ht
  obtain ⟨l₁, l₂, hstart, hds, -⟩ := Ledger.restart_of_replay s.ledger hr
  obtain ⟨horders, -, -⟩ := Ledger.ids_restart hstart
  have hnotes := hn ht
  rw [filter_window_eq s m] at hds hnotes
  rw [newer_eq hi.ordered, filter_window_eq s m]
  -- the diffs before `m` can be applied, as they are in the window; `m` then cannot
  obtain ⟨l₃, hbefore⟩ := Ledger.exists_applyDiffs_of_append hds
  have hwindow := Ledger.shown_append hbefore (s.beyond m)
  have htried := Ledger.shown_append hbefore (m :: s.beyond m)
  cases ha : l₃.applyDiff m with
  | mk l₄ r =>
    cases r with
    | ok _ =>
      have hall := Ledger.applyDiffs_concat m hbefore
      rw [ha] at hall
      have hreplays : Ledger.Replays _ s.pair _ _ := Ledger.replay_of_restart hstart hall
      obtain ⟨l₅, hok, -⟩ := hreplays
      rw [FailsInPlace, hok] at hfails
      exact absurd hfails (by simp [Except.isOk, Except.toBool])
    | error e =>
      rw [(Ledger.shown_of_failed ha (s.beyond m)).2, List.append_nil, horders] at htried
      rw [horders] at hwindow
      obtain ⟨hdiff, happlied⟩ := ids_rebuild (s := { s with window := s.grown m })
        (congrArg Prod.snd hstart)
      rw [newer_grown hi hm, htried] at hdiff
      rw [newer_grown hi hm, noted, htried] at happlied
      constructor
      · rw [tried, happlied]
        refine foldl_max_eq_self fun u hu => hnotes.appliedId u ?_
        rw [noted, hwindow, ← List.append_assoc]
        exact List.mem_append_left _ hu
      · intro hnone
        rw [hwindow] at hnone
        rw [tried, hdiff, (List.append_eq_nil_iff.mp hnone).1]
        rfl

/-- A diff that was tried leaves the ids of the trial, except that the last diff of the window that
has rows is the last one of the book. -/
theorem ids_of_reverted (hi : s.Inv) (hf : s.Faithful pair) (hn : s.NotesWindow)
    (ht : s.truncated = false) (ha : ({ s with window := s.grown m } : Synchronizer).rebuild =
      ({ s with window := s.grown m, ledger := l }, .error e)) :
    ({ s with ledger := l } : Synchronizer).restore.book.appliedId = (s.tried m).appliedId ∧
      ({ s with ledger := l } : Synchronizer).restore.book.diffId =
        if (RestingOrders.start s.lastSnapshot).shown s.newer = [] then (s.tried m).diffId
        else s.book.diffId := by
  have htried : s.tried m = l.book := by
    rw [tried, ha]
    rfl
  have hle : s.book.appliedId ≤ l.book.appliedId := by
    obtain ⟨l₀, hr, -⟩ := hf ht
    obtain ⟨l₁, l₂, hstart, -, -⟩ := Ledger.restart_of_replay s.ledger hr
    have happlied := (ids_rebuild (s := { s with window := s.grown m })
      (congrArg Prod.snd hstart)).2
    rw [ha] at happlied
    show _ ≤ ({ s with window := s.grown m, ledger := l } : Synchronizer).book.appliedId
    rw [happlied]
    exact le_foldl_max _ _
  rw [htried]
  exact ids_restore hi hf hn ht hle

/-- A trial that fails at the late diff itself leaves the ids as they were. -/
theorem sameIds_of_reverted (hi : s.Inv) (hf : s.Faithful s.pair) (hn : s.NotesWindow)
    (ht : s.truncated = false) (hm : s.Fresh m) (hfails : s.FailsInPlace m)
    (ha : ({ s with window := s.grown m } : Synchronizer).rebuild =
      ({ s with window := s.grown m, ledger := l }, .error e)) :
    s.book.SameIds ({ s with ledger := l } : Synchronizer).restore.book := by
  obtain ⟨happlied, hdiff⟩ := ids_of_reverted hi hf hn ht ha
  obtain ⟨htried, htriedDiff⟩ := ids_tried_of_failsInPlace hi hf hn ht hm hfails
  constructor
  · rw [hdiff]
    split
    · rename_i hnone
      exact htriedDiff hnone
    · rfl
  · exact happlied.trans htried

/-- A diff that fails by itself on top of what is there leaves the ids as they were. -/
theorem sameIds_of_refused (hi : s.Inv) (ha : s.ledger.applyDiff m = (l, .error e))
    (hwhole : s.truncated = false → s.Faithful pair ∧ s.NotesWindow) :
    s.book.SameIds ({ s with ledger := l } : Synchronizer).restore.book := by
  have hbook : l.book = s.book := (Ledger.shown_of_failed ha []).1
  by_cases ht : s.truncated = true
  · unfold restore
    rw [if_pos ht]
    exact ⟨congrArg Book.diffId hbook, congrArg Book.appliedId hbook⟩
  · rw [Bool.not_eq_true] at ht
    obtain ⟨hf, hn⟩ := hwhole ht
    have hle : s.book.appliedId ≤ l.book.appliedId := by
      rw [hbook]
      exact UInt64.le_refl _
    obtain ⟨happlied, hdiff⟩ := ids_restore hi hf hn ht hle
    rw [hbook] at happlied hdiff
    exact ⟨hdiff.trans (ite_self _), happlied⟩

/-- **The ids after a failed diff.** After any run, a diff that fails because it is misrouted, or in
a truncated window, leaves the ids of the book as they were. Where no snapshot of the run failed, so
does a diff that is not late, and a late one that fails itself where it belongs. Any other late diff
that fails was tried: the highest update is that of the trial from then on, and so is the last diff
if no diff of the window that follows the last snapshot has rows. -/
theorem failed_diff_ids (pair bookPair : String) (capacity : Nat) (ms : List Message)
    (m : Message) (e : Error) (hk : m.kind = .diff)
    (he : (((initial pair bookPair capacity).run ms).process m).2 = .error e) :
    let start := initial pair bookPair capacity
    let s := start.run ms
    let b := (s.process m).1.book
    (¬ s.Routed m ∨ s.truncated = true → s.book.SameIds b) ∧
      (NoSnapshotFault (start.history ms) →
        (s.isLate m = false ∨ s.FailsInPlace m → s.book.SameIds b) ∧
          (s.Routed m → s.truncated = false → s.isLate m = true →
            b.appliedId = (s.tried m).appliedId ∧
              b.diffId = if (RestingOrders.start s.lastSnapshot).shown s.newer = [] then
                (s.tried m).diffId else s.book.diffId)) := by
  intro start s b
  have hi : s.Inv := inv_run ms pair bookPair capacity
  have hpair : s.pair = pair := pair_run
  have hwhole : NoSnapshotFault (start.history ms) → s.Faithful s.pair ∧ s.NotesWindow :=
    fun hok => ⟨hpair ▸ (faithful_run hok).1, notesWindow_run hok⟩
  have h := process_handled s m
  have hb : b = (s.process m).1.book := rfl
  clear_value b
  generalize (s.process m).1 = s' at h hb
  rw [show (s.process m).2 = .error e from he] at h
  generalize ho : (Except.error e : Except Error Applied) = outcome at h
  cases h with
  | stale | duplicate | merged | rebuilt | noted => exact absurd ho (by simp)
  | restarted _ hk' => exact absurd (hk.symm.trans hk') (by decide)
  | misrouted _ hnot =>
    have hsame : s.book.SameIds b := by
      rw [hb]
      exact ⟨rfl, rfl⟩
    exact ⟨fun _ => hsame, fun _ => ⟨fun _ => hsame, fun hr => absurd hr hnot⟩⟩
  | @refused l e' hm hlate ha =>
    constructor
    · rintro (hnot | ht)
      · exact absurd hm.routed hnot
      · have hwhole' : s.truncated = false → s.Faithful pair ∧ s.NotesWindow :=
          fun hf => absurd (ht.symm.trans hf) (by decide)
        rw [hb]
        exact sameIds_of_refused hi ha hwhole'
    · intro hok
      constructor
      · intro _
        rw [hb]
        exact sameIds_of_refused hi ha fun _ => hwhole hok
      · intro _ ht hl
        exact absurd (ht.symm.trans (hlate hl)) (by decide)
  | @reverted l e' hm hl ht ha =>
    constructor
    · rintro (hnot | ht')
      · exact absurd hm.routed hnot
      · exact absurd (ht.symm.trans ht') (by decide)
    · intro hok
      obtain ⟨hf, hn⟩ := hwhole hok
      rw [hb]
      constructor
      · rintro (hnot | hfails)
        · exact absurd (hl.symm.trans hnot) (by decide)
        · exact sameIds_of_reverted hi hf hn ht hm hfails ha
      · exact fun _ _ _ => ids_of_reverted hi hf hn ht ha

/-- Two late diffs under a newer one that has no rows. One cannot be applied itself; the other makes
the newer one fail. -/
theorem failed_diff_ids_late :
    let changing : Message := ⟨.diff, .ofNat 30, "BTC-USDT", 3, none,
      .events [⟨.changed, "B", .ofNat 100, .ofNat 2, .bid⟩]⟩
    let ms := [sampleOrders 10 1 "A" (.ofNat 100) (.ofNat 79228162514264337593543950334), changing]
    let failing := sampleOpening 20 2 "B" (.ofNat 100) (.ofNat 2)
    let breaking := sampleOpening 20 2 "B" (.ofNat 100) (.ofNat 1)
    let start := initial "BTC-USDT" "BTC-USDT" 4
    let s := start.run ms
    let err : Error := .orderBook "aggregate overflow adding 2 to 79228162514264337593543950334"
    NoSnapshotFault (start.history ms) ∧ (s.process failing).2 = .error err ∧
      s.FailsInPlace failing ∧ s.book.SameIds (s.process failing).1.book ∧
      (s.process breaking).2 = .error err ∧ ¬ s.FailsInPlace breaking ∧
      (s.process breaking).1.book.appliedId = (s.tried breaking).appliedId ∧
      (s.process breaking).1.book.diffId = (s.tried breaking).diffId := by
  intro changing ms failing breaking start s err
  have hok : NoSnapshotFault (start.history ms) := by decide +kernel
  have hfailing : (s.process failing).2 = .error err := by decide +kernel
  have hbreaking : (s.process breaking).2 = .error err := by decide +kernel
  have hfails : s.FailsInPlace failing := by
    unfold FailsInPlace
    decide +kernel
  have happlies : ¬ s.FailsInPlace breaking := by
    unfold FailsInPlace
    decide +kernel
  have hnone : (RestingOrders.start s.lastSnapshot).shown s.newer = [] := by decide +kernel
  have hrouted : s.Routed breaking := ⟨by decide +kernel, by decide +kernel⟩
  obtain ⟨-, hfirst⟩ := failed_diff_ids "BTC-USDT" "BTC-USDT" 4 ms failing err rfl hfailing
  obtain ⟨-, hsecond⟩ := failed_diff_ids "BTC-USDT" "BTC-USDT" 4 ms breaking err rfl hbreaking
  obtain ⟨happlied, hdiff⟩ := (hsecond hok).2 hrouted (by decide +kernel) (by decide +kernel)
  refine ⟨hok, hfailing, hfails, (hfirst hok).1 (.inr hfails), hbreaking, happlies, happlied, ?_⟩
  exact hdiff.trans (if_pos hnone)

/-- **A refused diff that the book names.** The late diff has been applied in the trial, before the
newer one failed. It is not in the window afterwards, but it is the last diff of the book and its
highest update. -/
theorem late_diff_leaves_ids :
    let changing : Message := ⟨.diff, .ofNat 30, "BTC-USDT", 3, none,
      .events [⟨.changed, "B", .ofNat 100, .ofNat 2, .bid⟩]⟩
    let late := sampleOpening 20 2 "B" (.ofNat 100) (.ofNat 1)
    let s := (initial "BTC-USDT" "BTC-USDT" 4).run
      [sampleOrders 10 1 "A" (.ofNat 100) (.ofNat 79228162514264337593543950334), changing]
    let s' := (s.process late).1
    (s.process late).2 =
        .error (.orderBook "aggregate overflow adding 2 to 79228162514264337593543950334") ∧
      s'.window = [changing] ∧ s.book.diffId = 0 ∧ s'.book.diffId = 2 ∧
      s.book.appliedId = 1 ∧ s'.book.appliedId = 2 ∧ ¬ s.book.SameIds s'.book := by
  intro changing late s s'
  have hdiff : s'.book.diffId ≠ s.book.diffId := by decide +kernel
  refine ⟨by decide +kernel, by decide +kernel, by decide +kernel, by decide +kernel,
    by decide +kernel, by decide +kernel, fun hsame => hdiff hsame.1⟩

end Synchronizer

end BookFeed

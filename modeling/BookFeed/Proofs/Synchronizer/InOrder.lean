import BookFeed.Proofs.Synchronizer.Replay
import Mathlib.Data.List.TakeWhile

/-!
# What comes in order needs no window

`Ledger.follow` is the plain way to keep a book: a snapshot replaces the orders and the book, a diff
is merged into them, a trade is noted. Nothing is remembered. A synchronizer does the same with
messages that come in order, however small its window: nothing is late, stale or there already
(`InOrder`), so each step is the plain one (`InOrder.step`), and when a snapshot comes no diff of
the window is newer (`InOrder.newer_eq_nil`).

* **`run_in_order`**: a run without a failure over messages in order, in which no two diffs of one
  place have one update id, ends with the ledger of the plain loop, and every message became what
  its kind says.
-/

namespace BookFeed

namespace Ledger

/-- The ledger of an attempt that succeeded. -/
def completed : Ledger × Except Error Unit → Except Error Ledger
  | (l, .ok _) => .ok l
  | (_, .error e) => .error e

/-- Notes the trade of a message in the book. -/
def note (l : Ledger) (m : Message) : Ledger :=
  match m.content with
  | .trade t => { l with book := l.book.applyTrade t }
  | _ => l

/-- Follows a message with nothing but the orders and the book. -/
def follow (l : Ledger) (m : Message) : Except Error Ledger :=
  match m.kind with
  | .snapshot => completed (l.restart (some m))
  | .diff => completed (l.applyDiff m)
  | .trade => .ok (l.note m)

variable {l l' : Ledger} {m : Message}

theorem follow_diff (hk : m.kind = .diff) (h : l.applyDiff m = (l', .ok ())) :
    l.follow m = .ok l' := by
  rw [follow, hk]
  simp only [h, completed]

theorem follow_snapshot (hk : m.kind = .snapshot) (h : l.restart (some m) = (l', .ok ())) :
    l.follow m = .ok l' := by
  rw [follow, hk]
  simp only [h, completed]

theorem follow_trade (hk : m.kind = .trade) : l.follow m = .ok (l.note m) := by
  rw [follow, hk]

end Ledger

/-- What becomes of a message that comes in order. -/
def Applied.inOrder : MessageKind → Applied
  | .diff => .diff
  | .snapshot => .snapshot 0
  | .trade => .trade

namespace Synchronizer

open Delivery (NoFault)

variable {s s' : Synchronizer} {m : Message} {outcome : Except Error Applied}

/-- Nothing that `s` remembers orders after `m`, and `m` is not in the window. -/
structure InOrder (s : Synchronizer) (m : Message) : Prop where
  base : ∀ snapshot ∈ s.lastSnapshot, snapshot.place ≤ m.place
  window : ∀ d ∈ s.window, d.place ≤ m.place
  distinct : ∀ d ∈ s.window, d.place = m.place → d.updateId ≠ m.updateId

theorem InOrder.not_stale (h : s.InOrder m) : s.isBeforeSnapshot m = false := by
  unfold isBeforeSnapshot
  cases hb : s.lastSnapshot with
  | none => rfl
  | some snapshot =>
    have hle := h.base snapshot hb
    rw [Option.any_some, ← Bool.not_eq_true, Message.before_iff]
    omega

theorem InOrder.not_late (h : s.InOrder m) : s.isLate m = false := by
  have hnil : s.window.dropWhile (·.notAfter m) = [] :=
    List.dropWhile_eq_nil_iff.mpr fun d hd => Message.notAfter_iff.mpr (h.window d hd)
  rw [isLate, hnil]
  rfl

theorem InOrder.not_duplicate (h : s.InOrder m) (hi : s.Inv) :
    isDuplicate (s.window.takeWhile (·.notAfter m)) m = false := by
  rw [← Bool.not_eq_true, isDuplicate_iff hi.ordered]
  rintro ⟨d, hd, hp, hu⟩
  exact h.distinct d hd hp hu

/-- A snapshot that comes in order has nothing to apply again. -/
theorem InOrder.newer_eq_nil (h : s.InOrder m) :
    ({ s with lastSnapshot := some m, truncated := false } : Synchronizer).newer = [] :=
  List.dropWhile_eq_nil_iff.mpr fun d hd => Message.notAfter_iff.mpr (h.window d hd)

theorem process_trade (hr : s.Routed m) (hk : m.kind = .trade) :
    s.process m = ({ s with ledger := s.ledger.note m }, .ok .trade) := by
  rw [process_of_trade hr hk]
  unfold processTrade Ledger.note
  cases m.content <;> rfl

/-- **A message that comes in order does to the ledger what it does without a window.** -/
theorem InOrder.step (h : s.InOrder m) (hi : s.Inv) (hok : (s.process m).2.isOk = true) :
    (s.process m).2 = .ok (.inOrder m.kind) ∧
      s.ledger.follow m = .ok (s.process m).1.ledger := by
  have hstep := process_handled s m
  by_cases hk : m.kind = .trade
  · rw [process_trade (hstep.routed hok) hk, hk]
    exact ⟨rfl, Ledger.follow_trade hk⟩
  · generalize s.process m = done at hstep hok ⊢
    obtain ⟨s', outcome⟩ := done
    simp only at hstep hok ⊢
    cases hstep with
    | misrouted | refused | reverted => exact absurd hok Bool.false_ne_true
    | stale _ _ hs => exact absurd (h.not_stale.symm.trans hs) Bool.false_ne_true
    | duplicate _ _ _ hd => exact absurd ((h.not_duplicate hi).symm.trans hd) Bool.false_ne_true
    | merged hf _ ha =>
      rw [h.not_late, if_neg Bool.false_ne_true, hf.kind]
      exact ⟨rfl, Ledger.follow_diff hf.kind ha⟩
    | rebuilt _ hl => exact absurd (h.not_late.symm.trans hl) Bool.false_ne_true
    | @restarted l r _ hks _ ha =>
      cases r with
      | error e => exact absurd hok Bool.false_ne_true
      | ok n =>
        obtain ⟨l₁, hl₁, hds, hn⟩ := rebuild_ok ha
        rw [h.newer_eq_nil] at hds hn
        obtain rfl : l₁ = l := congrArg Prod.fst hds
        rw [hn, hks]
        exact ⟨rfl, Ledger.follow_snapshot hks hl₁⟩
    | noted _ hk' => exact absurd hk' hk

/-- What stands in order behind a run comes in order. -/
theorem inOrder_run {pair bookPair : String} {capacity : Nat} {ms : List Message}
    (hord : ∀ a ∈ ms, a.notAfter m = true)
    (hdist : ∀ a ∈ ms, a.kind = .diff → m.kind = .diff → a.sameOrder m = true →
      a.updateId ≠ m.updateId) :
    ((initial pair bookPair capacity).run ms).InOrder m where
  base snapshot hb := Message.notAfter_iff.mp (hord snapshot (mem_of_lastSnapshot_run hb))
  window d hd := Message.notAfter_iff.mp (hord d (mem_of_window_run hd))
  distinct d hd hp := by
    have hk : d.kind = .diff := (inv_run ms pair bookPair capacity).diffs d hd
    have hkm : m.kind = .diff := (Message.place_eq_iff.mp hp).2.symm.trans hk
    exact hdist d (mem_of_window_run hd) hk hkm (Message.sameOrder_iff.mpr hp)

/-- **What comes in order needs no window.** If the messages of a run stand in order, no two of
their diffs at one place in the order have one update id, and no call fails, then, whatever the
capacity of the window, every diff was applied in place, every snapshot made no diff be applied
again, and orders and book are those of the loop that just follows the messages. -/
theorem run_in_order (pair bookPair : String) (capacity : Nat) (ms : List Message)
    (hord : ms.Pairwise fun a b => a.notAfter b = true)
    (hdist : ms.Pairwise fun a b => a.kind = .diff → b.kind = .diff → a.sameOrder b = true →
      a.updateId ≠ b.updateId)
    (hok : NoFault ((initial pair bookPair capacity).history ms)) :
    (∀ d ∈ (initial pair bookPair capacity).history ms,
      d.outcome = .ok (.inOrder d.message.kind)) ∧
    ms.foldlM Ledger.follow (.new bookPair) =
      .ok ((initial pair bookPair capacity).run ms).ledger := by
  induction ms using List.reverseRecOn with
  | nil => exact ⟨fun d hd => absurd hd List.not_mem_nil, rfl⟩
  | append_singleton ms m ih =>
    rw [history_concat, Delivery.noFault_concat] at hok
    obtain ⟨hord, -, hordm⟩ := List.pairwise_append.mp hord
    obtain ⟨hdist, -, hdistm⟩ := List.pairwise_append.mp hdist
    obtain ⟨houtcomes, hloop⟩ := ih hord hdist hok.1
    have hin : ((initial pair bookPair capacity).run ms).InOrder m :=
      inOrder_run (fun a ha => hordm a ha m (List.mem_singleton_self m))
        fun a ha => hdistm a ha m (List.mem_singleton_self m)
    obtain ⟨houtcome, hfollow⟩ := hin.step (inv_run ms pair bookPair capacity) hok.2
    constructor
    · rw [history_concat, List.forall_mem_append, List.forall_mem_singleton]
      exact ⟨houtcomes, houtcome⟩
    · rw [List.foldlM_append, hloop, run_concat]
      show List.foldlM Ledger.follow _ [m] = _
      rw [List.foldlM_cons, hfollow]
      rfl

/-- A window of one diff, and messages of one time that only their kinds put in order. -/
theorem run_in_order_ties :
    let ms := [sampleDiff 5 1 (.ofNat 90), sampleSnapshot 10 2 (.ofNat 100) (.ofNat 101),
      sampleDiff 10 3 (.ofNat 99), sampleDiff 10 4 (.ofNat 98), sampleDiff 10 2 (.ofNat 97),
      sampleTrade 10 4 (.ofNat 100) (.ofNat 1), sampleSnapshot 20 5 (.ofNat 102) (.ofNat 103),
      sampleDiff 20 6 (.ofNat 96), sampleDiff 30 7 (.ofNat 95)]
    let start := initial "BTC-USDT" "BTC-USDT" 1
    (ms.Pairwise fun a b => a.notAfter b = true) ∧
      (ms.Pairwise fun a b => a.kind = .diff → b.kind = .diff → a.sameOrder b = true →
        a.updateId ≠ b.updateId) ∧
      NoFault (start.history ms) ∧ (start.run ms).window.length = 1 ∧
      (∀ d ∈ start.history ms, d.outcome = .ok (.inOrder d.message.kind)) ∧
      ms.foldlM Ledger.follow (.new "BTC-USDT") = .ok (start.run ms).ledger := by
  intro ms start
  have hord : ms.Pairwise fun a b => a.notAfter b = true := by decide
  have hdist : ms.Pairwise fun a b => a.kind = .diff → b.kind = .diff → a.sameOrder b = true →
      a.updateId ≠ b.updateId := by decide
  have hok : NoFault (start.history ms) := by decide
  exact ⟨hord, hdist, hok, by decide, run_in_order "BTC-USDT" "BTC-USDT" 1 ms hord hdist hok⟩

end Synchronizer

end BookFeed

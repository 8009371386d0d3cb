import BookFeed.Proofs.Synchronizer.Window
import Mathlib.Data.List.Induction

/-!
# Histories

`run` is the state that a synchronizer reaches through messages, and `history` what became of each
of them. `NoFault` says that no call failed, `NoSnapshotFault` that none with a snapshot did. Both
can be evaluated. A run is taken apart at its last message (`run_concat`, `history_concat`), so what
holds after every call is shown by induction from the end.
-/

namespace BookFeed

/-- A message that was processed, and what became of it. -/
structure Delivery where
  message : Message
  outcome : Except Error Applied

namespace Delivery

/-- No call failed. -/
def NoFault (ds : List Delivery) : Prop := ∀ d ∈ ds, d.outcome.isOk = true

/-- No call with a snapshot failed. -/
def NoSnapshotFault (ds : List Delivery) : Prop :=
  ∀ d ∈ ds, d.message.kind = .snapshot → d.outcome.isOk = true

instance (ds : List Delivery) : Decidable (NoFault ds) :=
  inferInstanceAs (Decidable (∀ d ∈ ds, d.outcome.isOk = true))

instance (ds : List Delivery) : Decidable (NoSnapshotFault ds) :=
  inferInstanceAs (Decidable (∀ d ∈ ds, d.message.kind = .snapshot → d.outcome.isOk = true))

/-- The message, if it is a snapshot that was accepted. -/
def snapshot? (d : Delivery) : Option Message :=
  match d.outcome with
  | .ok (.snapshot _) => some d.message
  | _ => none

/-- The diff was taken in by this call. -/
def isAccepted (d : Delivery) : Bool :=
  match d.outcome with
  | .ok .diff | .ok .outOfOrder | .ok (.rebuilt _) => true
  | _ => false

/-- The snapshot that was accepted last. -/
def lastSnapshot? (ds : List Delivery) : Option Message := (ds.filterMap snapshot?).getLast?

variable {ds : List Delivery} {d : Delivery}

theorem NoFault.noSnapshotFault (h : NoFault ds) : NoSnapshotFault ds := fun d hd _ => h d hd

theorem noFault_concat : NoFault (ds ++ [d]) ↔ NoFault ds ∧ d.outcome.isOk = true := by
  simp only [NoFault, List.forall_mem_append, List.forall_mem_singleton]

theorem lastSnapshot?_concat : lastSnapshot? (ds ++ [d]) = d.snapshot?.or (lastSnapshot? ds) := by
  unfold lastSnapshot?
  rw [List.filterMap_append, List.getLast?_append]
  cases hd : d.snapshot? <;> simp [hd]

theorem noSnapshotFault_concat : NoSnapshotFault (ds ++ [d]) ↔
    NoSnapshotFault ds ∧ (d.message.kind = .snapshot → d.outcome.isOk = true) := by
  simp only [NoSnapshotFault, List.forall_mem_append, List.forall_mem_singleton]

end Delivery

namespace Synchronizer

/-- The state after messages. -/
def run (s : Synchronizer) : List Message → Synchronizer
  | [] => s
  | m :: ms => (s.process m).1.run ms

/-- What became of the messages, the first one first. -/
def history (s : Synchronizer) : List Message → List Delivery
  | [] => []
  | m :: ms => ⟨m, (s.process m).2⟩ :: (s.process m).1.history ms

/-- A synchronizer of `pair` with a new book of `bookPair`. -/
def initial (pair bookPair : String) (capacity : Nat) : Synchronizer :=
  new pair capacity (.empty bookPair)

variable (s : Synchronizer) (ms : List Message) (m : Message)

theorem run_concat : ∀ (ms : List Message) (s : Synchronizer),
    s.run (ms ++ [m]) = ((s.run ms).process m).1
  | [], _ => rfl
  | _ :: ms, _ => run_concat ms _

theorem history_concat : ∀ (ms : List Message) (s : Synchronizer),
    s.history (ms ++ [m]) = s.history ms ++ [⟨m, ((s.run ms).process m).2⟩]
  | [], _ => rfl
  | _ :: ms, _ => congrArg (_ :: ·) (history_concat ms _)

/-- What every step keeps holds after every run. -/
theorem inv_run (pair bookPair : String) (capacity : Nat) :
    ((initial pair bookPair capacity).run ms).Inv := by
  induction ms using List.reverseRecOn with
  | nil => exact inv_new pair capacity _
  | append_singleton ms m ih =>
    rw [run_concat]
    exact (process_handled _ m).inv ih

variable {ms m}

theorem pair_run {pair bookPair : String} {capacity : Nat} :
    ((initial pair bookPair capacity).run ms).pair = pair := by
  induction ms using List.reverseRecOn with
  | nil => rfl
  | append_singleton ms m ih =>
    rw [run_concat]
    exact (process_handled _ m).pair_eq.trans ih

/-- The window holds messages of the run. -/
theorem mem_of_window_run {pair bookPair : String} {capacity : Nat}
    (h : m ∈ ((initial pair bookPair capacity).run ms).window) : m ∈ ms := by
  induction ms using List.reverseRecOn with
  | nil => exact absurd h List.not_mem_nil
  | append_singleton ms m' ih =>
    rw [run_concat] at h
    rcases (process_handled _ m').mem_window h with rfl | h
    · exact List.mem_concat_self
    · exact List.mem_append_left _ (ih h)

theorem mem_of_lastSnapshot_run {pair bookPair : String} {capacity : Nat}
    (h : m ∈ ((initial pair bookPair capacity).run ms).lastSnapshot) : m ∈ ms := by
  induction ms using List.reverseRecOn with
  | nil => exact absurd h (by simp [run, initial, new])
  | append_singleton ms m' ih =>
    rw [run_concat] at h
    rcases (process_handled _ m').mem_lastSnapshot h with rfl | h
    · exact List.mem_concat_self
    · exact List.mem_append_left _ (ih h)

/-! ## A sample feed -/

/-- A diff that brings one bid of amount 1. -/
def sampleDiff (seconds : Nat) (updateId : UInt64) (price : Decimal) : Message :=
  ⟨.diff, .ofNat seconds, "BTC-USDT", updateId, none, .levels [⟨price, .ofNat 1⟩] []⟩

/-- A snapshot of one bid and one ask. -/
def sampleSnapshot (seconds : Nat) (updateId : UInt64) (bid ask : Decimal) : Message :=
  ⟨.snapshot, .ofNat seconds, "BTC-USDT", updateId, none,
    .levels [⟨bid, .ofNat 1⟩] [⟨ask, .ofNat 1⟩]⟩

/-- A diff that opens one bid order. -/
def sampleOpening (seconds : Nat) (updateId : UInt64) (id : String) (price amount : Decimal) :
    Message :=
  ⟨.diff, .ofNat seconds, "BTC-USDT", updateId, none,
    .events [⟨.opened, id, price, amount, .bid⟩]⟩

/-- A snapshot of one bid order. -/
def sampleOrders (seconds : Nat) (updateId : UInt64) (id : String) (price amount : Decimal) :
    Message :=
  ⟨.snapshot, .ofNat seconds, "BTC-USDT", updateId, none, .orders [⟨id, price, amount, .bid⟩]⟩

/-- A trade. -/
def sampleTrade (seconds : Nat) (updateId : UInt64) (price amount : Decimal) : Message :=
  ⟨.trade, .ofNat seconds, "BTC-USDT", updateId, none, .trade ⟨"T", price, amount, .bid⟩⟩

end Synchronizer

end BookFeed

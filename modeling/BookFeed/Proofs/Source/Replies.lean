import BookFeed.Source.Polled

/-!
# What replies bring

A request for a snapshot is sent once the throttler lets it pass, and has one reply. The reply
brings a message if it has no error status and its body is a frame of the pair that was asked for. A
frame states itself of what kind it is, and nobody asks whether that is a snapshot.

* **`message_eq_ok_iff`**: the replies that bring messages, and which;
* `fetch_of_asked?`, `fetch_of_asked?_eq_none`: an attempt to fetch sends one request, and comes to
  what its reply brings, or it sends none;
* **`fetchUntil_cases`**: so it is however long the request has to wait.
-/

namespace BookFeed

/-! ## Frames -/

namespace Message

variable {m : Message} {kind : MessageKind} {now time : Binary64} {pair frame : String}
  {updateId rangeStart : Option UInt64} {timestamp : Option Binary64} {content : Content}

/-- The message is of this kind and pair. -/
def IsOf (m : Message) (kind : MessageKind) (pair : String) : Prop :=
  m.kind = kind ∧ m.pair = pair

theorem isOf_make (h : make kind pair updateId rangeStart time content = .ok m) :
    m.IsOf kind pair := by
  unfold make at h
  split at h
  · exact absurd h (by simp)
  · split at h
    · exact absurd h (by simp)
    · obtain rfl := Except.ok.inj h
      exact ⟨rfl, rfl⟩

theorem isOf_snapshot (h : snapshot pair updateId timestamp content = .ok m) :
    m.IsOf .snapshot pair := by
  unfold snapshot at h
  split at h
  · exact absurd h (by simp)
  · split at h
    · exact isOf_make h
    · exact absurd h (by simp)

theorem isOf_diff (h : diff now pair rangeStart updateId timestamp content = .ok m) :
    m.IsOf .diff pair := by
  unfold diff at h
  split at h
  · exact isOf_make h
  · exact absurd h (by simp)

/-- A message is of the kind and the pair that its envelope states. -/
theorem isOf_toMessage {e : Envelope} (h : e.toMessage now = .ok m) : m.IsOf e.kind e.pair := by
  unfold Envelope.toMessage at h
  split at h
  · rename_i hk
    obtain ⟨content, -, h⟩ := bind_eq_ok h
    exact hk ▸ isOf_snapshot h
  · rename_i hk
    obtain ⟨content, -, h⟩ := bind_eq_ok h
    exact hk ▸ isOf_diff h
  · rename_i hk
    obtain ⟨trade, -, h⟩ := bind_eq_ok h
    exact hk ▸ isOf_make h

theorem parse_eq_ok_iff : parse now frame = .ok m ↔
    ∃ e, Json.readDocument Envelope.ofJson frame = .ok e ∧ e.toMessage now = .ok m := by
  unfold parse
  cases Json.readDocument Envelope.ofJson frame with
  | error e => simp
  | ok e => simp

/-- **A snapshot states its own time**, so it reads the same whenever it is received. -/
theorem parse_snapshot {later : Binary64} (h : parse now frame = .ok m) (hk : m.kind = .snapshot) :
    parse later frame = .ok m := by
  rw [parse_eq_ok_iff] at h ⊢
  obtain ⟨e, he, hm⟩ := h
  refine ⟨e, he, ?_⟩
  have hkind : e.kind = .snapshot := (isOf_toMessage hm).1.symm.trans hk
  unfold Envelope.toMessage at hm ⊢
  rw [hkind] at hm ⊢
  exact hm

end Message

/-! ## Replies -/

namespace Reply

variable {r : Reply} {now : Binary64} {pair : String} {m : Message}

/-- The status stands for an error. -/
def HasErrorStatus (status : Nat) : Prop := 400 ≤ status ∧ status < 600

/-- **Which replies bring a message.** Their status is no error and their body is a frame of the
pair that was asked for. -/
theorem message_eq_ok_iff : r.message now pair = .ok m ↔ ∃ status body,
    r = .response status body ∧ ¬ HasErrorStatus status ∧ Message.parse now body = .ok m ∧
      m.pair = pair := by
  constructor
  · intro h
    cases r with
    | failure detail => exact absurd h (by simp [message])
    | response status body =>
      unfold message at h
      dsimp only at h
      split at h
      · exact absurd h (by simp)
      · rename_i hstatus
        obtain ⟨m', hparse, h⟩ := bind_eq_ok h
        split at h
        · rename_i hpair
          obtain rfl := Except.ok.inj h
          exact ⟨status, body, rfl, hstatus, hparse, hpair⟩
        · exact absurd h (by simp)
  · rintro ⟨status, body, rfl, hstatus, hparse, hpair⟩
    unfold HasErrorStatus at hstatus
    simp [message, hstatus, hparse, hpair, bind, Except.bind, pure, Except.pure]

/-- The reply brings a snapshot of the pair, whenever it is received. -/
def BringsSnapshot (r : Reply) (pair : String) : Prop :=
  ∃ m, m.IsOf .snapshot pair ∧ ∀ now, r.message now pair = .ok m

/-- A reply brings a snapshot at all times or at none. -/
theorem bringsSnapshot_iff :
    r.BringsSnapshot pair ↔ (r.message now pair).toOption.any (·.kind == .snapshot) = true := by
  constructor
  · rintro ⟨m, hm, h⟩
    rw [h now]
    exact beq_iff_eq.mpr hm.1
  · intro h
    cases hmessage : r.message now pair with
    | error e => simp [hmessage, Except.toOption] at h
    | ok m =>
      rw [hmessage] at h
      have hk : m.kind = .snapshot := beq_iff_eq.mp h
      obtain ⟨status, body, hr, hstatus, hparse, hpair⟩ := message_eq_ok_iff.mp hmessage
      refine ⟨m, ⟨hk, hpair⟩, fun later => ?_⟩
      exact message_eq_ok_iff.mpr
        ⟨status, body, hr, hstatus, Message.parse_snapshot hparse hk, hpair⟩

instance decidableBringsSnapshot : Decidable (r.BringsSnapshot pair) :=
  decidable_of_iff _ (@bringsSnapshot_iff r (.ofNat 0) pair).symm

end Reply

/-! ## Requests -/

/-- A request that was sent, and its reply. -/
structure Asked where
  pair : String
  received : Binary64
  reply : Reply
deriving DecidableEq

/-- The message that the reply brings. -/
def Asked.message (a : Asked) : Except Error Message := a.reply.message a.received a.pair

/-- The attempt lets the request pass. -/
def Attempt.passes : Attempt → Bool
  | .admitted | .unlimited => true
  | .full | .cancelled | .overflow => false

/-- What comes of an attempt that does not let the request pass. -/
def Attempt.refusal : Attempt → Fetch
  | .cancelled => .failed (.error .cancelled)
  | .overflow => .failed .overflow
  | _ => .full

/-- What a fetch comes to, once there is a reply. -/
def Fetch.ofMessage : Except Error Message → Fetch
  | .ok m => .fetched m
  | .error e => .failed (.error e)

/-- What a fetch has come to, unless it has to wait. -/
def Fetch.outcome? : Fetch → Option (Except Halt Message)
  | .fetched m => some (.ok m)
  | .failed h => some (.error h)
  | .full => none

theorem Fetch.outcome?_ofMessage (r : Except Error Message) :
    (Fetch.ofMessage r).outcome? = some (r.mapError .error) := by
  cases r <;> rfl

namespace Peer

variable (p : Peer) (r : SnapshotRequest) (n : Nat)

/-- The reply to the `n`th of the next requests. -/
def reply (n : Nat) : Reply := p.replies.getD n p.fallback

theorem ask_reply : (p.ask r).2 = p.reply 0 := by
  rw [reply, List.getD_eq_getElem?_getD, ← List.head?_eq_getElem?, ← List.headD_eq_head?_getD]
  rfl

/-- Every reply is given once. -/
theorem reply_ask : (p.ask r).1.reply n = p.reply (n + 1) := by
  unfold reply ask
  rw [List.getD_eq_getElem?_getD, List.getD_eq_getElem?_getD, List.getElem?_tail]

end Peer

namespace PolledSource

variable {s : PolledSource} {now : Nat} {received : Binary64} {pair : String} {a : Asked}

/-- The source after an attempt to be admitted. -/
def tried (s : PolledSource) (now : Nat) : PolledSource :=
  { s with throttler := (s.throttler.attempt now snapshotPath).1 }

/-- The source after a request was sent. -/
def sent (s : PolledSource) (now : Nat) (pair : String) : PolledSource :=
  { s.tried now with peer := (s.peer.ask (s.request pair)).1 }

/-- The request that an attempt to fetch sends, if the throttler lets it pass. -/
def asked? (s : PolledSource) (now : Nat) (received : Binary64) (pair : String) : Option Asked :=
  if (s.throttler.attempt now snapshotPath).2.passes then some ⟨pair, received, s.peer.reply 0⟩
  else none

/-- **What comes of a request is what its reply brings.** -/
theorem fetch_of_asked? (h : s.asked? now received pair = some a) :
    a = ⟨pair, received, s.peer.reply 0⟩ ∧
      s.fetch now received pair = (s.sent now pair, Fetch.ofMessage a.message) := by
  unfold asked? at h
  split at h
  · rename_i hpasses
    obtain rfl := Option.some.inj h
    refine ⟨rfl, ?_⟩
    have hreply := s.peer.ask_reply (s.request pair)
    unfold fetch ask sent tried
    generalize s.throttler.attempt now snapshotPath = attempt at hpasses ⊢
    obtain ⟨throttler, outcome⟩ := attempt
    cases outcome with
    | full | cancelled | overflow => exact absurd hpasses Bool.false_ne_true
    | admitted | unlimited =>
      simp only [Asked.message, ← hreply, request]
      cases (s.peer.ask ⟨s.endpoint ++ snapshotPath, pair⟩).2.message received pair <;> rfl
  · exact absurd h (by simp)

/-- A request that is not sent does not reach the peer. -/
theorem fetch_of_asked?_eq_none (h : s.asked? now received pair = none) :
    s.fetch now received pair =
      (s.tried now, (s.throttler.attempt now snapshotPath).2.refusal) := by
  unfold asked? at h
  split at h
  · exact absurd h (by simp)
  · rename_i hpasses
    unfold fetch tried
    generalize s.throttler.attempt now snapshotPath = attempt at hpasses ⊢
    obtain ⟨throttler, outcome⟩ := attempt
    cases outcome <;> first | rfl | exact absurd rfl hpasses

/-- An attempt sends no request, or one, and then it comes to what the reply brings. -/
theorem fetch_cases {s' : PolledSource} {f : Fetch} (h : s.fetch now received pair = (s', f)) :
    s'.request pair = s.request pair ∧
      ((s'.peer = s.peer ∧ ∀ m, f ≠ .fetched m) ∨
        (s'.peer = (s.peer.ask (s.request pair)).1 ∧
          f = .ofMessage ((s.peer.reply 0).message received pair))) := by
  cases hasked : s.asked? now received pair with
  | none =>
    obtain ⟨rfl, rfl⟩ := Prod.mk.inj ((fetch_of_asked?_eq_none hasked).symm.trans h)
    refine ⟨rfl, .inl ⟨rfl, fun m => ?_⟩⟩
    cases (s.throttler.attempt now snapshotPath).2 <;> simp [Attempt.refusal]
  | some a =>
    obtain ⟨rfl, hfetch⟩ := fetch_of_asked? hasked
    obtain ⟨rfl, rfl⟩ := Prod.mk.inj (hfetch.symm.trans h)
    exact ⟨rfl, .inr ⟨rfl, rfl⟩⟩

/-- **At most one request is sent, however long it waits.** Either none is sent, and then there is
no message, or what comes of it is what its reply brings at the time when it is received. -/
theorem fetchUntil_cases (s : PolledSource) (clock : Nat → Binary64) (pair : String)
    (now deadline : Nat) :
    let done := s.fetchUntil clock pair now deadline
    (done.1.peer = s.peer ∧ ∀ m, done.2.2 ≠ some (.ok m)) ∨
      (done.1.peer = (s.peer.ask (s.request pair)).1 ∧
        done.2.2 = some (((s.peer.reply 0).message (clock done.2.1) pair).mapError .error)) := by
  induction s, now using fetchUntil.induct clock pair deadline with
  | case1 s now s' m hfetch =>
    rw [fetchUntil, hfetch]
    obtain ⟨-, ⟨-, hnone⟩ | ⟨hpeer, hm⟩⟩ := fetch_cases hfetch
    · exact absurd rfl (hnone m)
    · exact .inr ⟨hpeer, (congrArg Fetch.outcome? hm).trans (Fetch.outcome?_ofMessage _)⟩
  | case2 s now s' halt hfetch =>
    rw [fetchUntil, hfetch]
    obtain ⟨-, ⟨hpeer, -⟩ | ⟨hpeer, hm⟩⟩ := fetch_cases hfetch
    · exact .inl ⟨hpeer, by simp⟩
    · exact .inr ⟨hpeer, (congrArg Fetch.outcome? hm).trans (Fetch.outcome?_ofMessage _)⟩
  | case3 s now s' hfetch hle ih =>
    rw [fetchUntil, hfetch]
    obtain ⟨hrequest, ⟨hpeer, -⟩ | ⟨-, hm⟩⟩ := fetch_cases hfetch
    · rw [hrequest, hpeer] at ih
      simpa only [if_pos hle] using ih
    · exact absurd ((congrArg Fetch.outcome? hm).trans (Fetch.outcome?_ofMessage _))
        (Option.some_ne_none _).symm
  | case4 s now s' hfetch hle =>
    rw [fetchUntil, hfetch]
    obtain ⟨-, ⟨hpeer, -⟩ | ⟨-, hm⟩⟩ := fetch_cases hfetch
    · simp only [if_neg hle]
      exact .inl ⟨hpeer, by simp⟩
    · exact absurd ((congrArg Fetch.outcome? hm).trans (Fetch.outcome?_ofMessage _))
        (Option.some_ne_none _).symm

end PolledSource

end BookFeed

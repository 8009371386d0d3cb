import BookFeed.Message.Frame
import BookFeed.Proofs.Traversal

/-!
# Messages as they are made

Messages come from frames and from the functions that make a snapshot, a diff or a trade, and from
nowhere else (`Made`). Frames are read into envelopes, and an envelope goes through the same functions,
so one check of pair and time serves all (`wellFormed_make`). The content is checked against the kind
before that: of what an envelope may offer, a snapshot does not take events, nor a diff orders.

* **`Made.wellFormed`**: every message is well-formed.
-/

namespace BookFeed

namespace Message

/-- The message is what reading a frame or making a message has given. -/
inductive Made (m : Message) : Prop where
  | parsed {now : Binary64} {frame : String} (h : parse now frame = .ok m)
  | listed {now : Binary64} {frames : String} {ms : List Message} (h : parseAll now frames = .ok ms)
      (hm : m ∈ ms)
  | snapshot {pair : String} {updateId : Option UInt64} {timestamp : Option Binary64}
      {content : Content} (h : Message.snapshot pair updateId timestamp content = .ok m)
  | diff {now : Binary64} {pair : String} {rangeStart updateId : Option UInt64}
      {timestamp : Option Binary64} {content : Content}
      (h : Message.diff now pair rangeStart updateId timestamp content = .ok m)
  | trade {now : Binary64} {pair : String} {timestamp : Option Binary64} {trade : Trade}
      (h : Message.trade now pair timestamp trade = .ok m)

variable {m : Message} {kind : MessageKind} {now time : Binary64} {pair : String}
  {updateId rangeStart : Option UInt64} {timestamp : Option Binary64} {content : Content}

/-! ## Making messages -/

/-- What has passed the checks of pair and time is well-formed, if the kind admits the content. -/
theorem wellFormed_make (h : make kind pair updateId rangeStart time content = .ok m)
    (hc : kind.admits content = true) : m.WellFormed := by
  unfold make at h
  split at h
  · exact absurd h (by simp)
  · rename_i hpair
    split at h
    · exact absurd h (by simp)
    · rename_i htime
      obtain rfl := Except.ok.inj h
      exact ⟨hpair, by simpa using htime, hc⟩

theorem wellFormed_snapshot (h : Message.snapshot pair updateId timestamp content = .ok m) :
    m.WellFormed := by
  unfold Message.snapshot at h
  split at h
  · exact absurd h (by simp)
  · split at h
    · rename_i hc
      exact wellFormed_make h hc
    · exact absurd h (by simp)

theorem wellFormed_diff (h : Message.diff now pair rangeStart updateId timestamp content = .ok m) :
    m.WellFormed := by
  unfold Message.diff at h
  split at h
  · rename_i hc
    exact wellFormed_make h hc
  · exact absurd h (by simp)

theorem wellFormed_trade {trade : Trade} (h : Message.trade now pair timestamp trade = .ok m) :
    m.WellFormed :=
  wellFormed_make h rfl

/-! ## Reading messages -/

/-- What an envelope becomes is checked as a message that is made. -/
theorem wellFormed_toMessage {e : Envelope} (h : e.toMessage now = .ok m) : m.WellFormed := by
  unfold Envelope.toMessage at h
  split at h
  · obtain ⟨content, -, h⟩ := bind_eq_ok h
    exact wellFormed_snapshot h
  · obtain ⟨content, -, h⟩ := bind_eq_ok h
    exact wellFormed_diff h
  · obtain ⟨trade, -, h⟩ := bind_eq_ok h
    exact wellFormed_trade h

/-- **Every message is well-formed**: its pair is not empty, its time is finite and not below zero,
and its kind admits its content. -/
theorem Made.wellFormed (h : m.Made) : m.WellFormed := by
  cases h with
  | parsed h =>
    unfold parse at h
    split at h
    · exact absurd h (by simp)
    · exact wellFormed_toMessage h
  | listed h hm =>
    unfold parseAll at h
    split at h
    · exact absurd h (by simp)
    · obtain ⟨e, -, he⟩ := exists_of_mem_mapM h hm
      exact wellFormed_toMessage he
  | snapshot h => exact wellFormed_snapshot h
  | diff h => exact wellFormed_diff h
  | trade h => exact wellFormed_trade h

/-! ## What can be made -/

theorem WellFormed.make_eq (h : m.WellFormed)
    (hid : updateId.getD (derivedUpdateId m.timestamp) = m.updateId) :
    make m.kind m.pair updateId m.rangeStart m.timestamp m.content = .ok m := by
  unfold make
  rw [if_neg h.pair_ne, h.timestamp_ok, hid]
  rfl

/-- A well-formed diff can be made. -/
theorem WellFormed.made_of_diff (h : m.WellFormed) (hk : m.kind = .diff) : m.Made := by
  refine @Made.diff m m.timestamp m.pair m.rangeStart (some m.updateId) (some m.timestamp)
    m.content ?_
  unfold Message.diff
  rw [if_pos (hk ▸ h.content_ok), ← hk]
  exact h.make_eq rfl

/-- A well-formed trade can be made if it has the update id of its time. -/
theorem WellFormed.made_of_trade (h : m.WellFormed) (hk : m.kind = .trade)
    (hrange : m.rangeStart = none) (hid : m.updateId = derivedUpdateId m.timestamp) : m.Made := by
  have hmake := @WellFormed.make_eq m none h hid.symm
  have hadmits := h.content_ok
  rw [hk] at hmake hadmits
  rw [hrange] at hmake
  cases hc : m.content with
  | trade t =>
    rw [hc] at hmake
    exact @Made.trade m m.timestamp m.pair (some m.timestamp) t hmake
  | orders | events | levels =>
    rw [hc] at hadmits
    exact absurd hadmits Bool.false_ne_true

end Message

end BookFeed

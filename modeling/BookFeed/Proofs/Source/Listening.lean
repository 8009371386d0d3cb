import BookFeed.Proofs.Source.Replies
import BookFeed.Tracker.Step

/-!
# What a listener does to a polled source

A listener looks at its source from time to time, and each look does the next thing that is to be
done in polling. `Listening` keeps a record of the rounds it has begun, of the requests that were
sent in each, and of the messages that were forwarded. Between two looks the tracked pairs may
change, others may use the throttler, and the listener may be replaced (`Event`).

* `look_looked`: what one look may do;
* **`listen?_look`**: the listener of a tracker does the same;
* **`Sound.run`**: whatever happens, in each round the pairs are asked for in order, and one after a
  message of the one before.
-/

namespace BookFeed

/-! ## The record -/

/-- What ended a round before it was carried through. -/
inductive Round.Ending where
  /-- the last reply brought no message -/
  | faulty (h : Halt)
  /-- the throttler let no request pass and never would have -/
  | refused (h : Halt)
  /-- the listener was replaced -/
  | abandoned
deriving DecidableEq

/-- A round of requests. -/
structure Round where
  /-- the pairs that were tracked when it began -/
  pairs : List String
  /-- the requests that were sent, oldest first -/
  asked : List Asked := []
  ending : Option Round.Ending := none
deriving DecidableEq

/-- A listener and what it has done so far. -/
structure Listening where
  source : PolledSource
  /-- how far it is in polling; it begins anew after a fault -/
  polling : Option Polling := none
  /-- the latest first -/
  rounds : List Round := []
  /-- the messages it has forwarded, oldest first -/
  output : List Message := []

namespace Round

variable {r : Round} {a : Asked}

/-- A request was sent. -/
def note (a : Option Asked) (r : Round) : Round := { r with asked := r.asked ++ a.toList }

theorem note_none : r.note none = r := by simp [note]

def finish (e : Ending) (r : Round) : Round := { r with ending := some e }

/-- All pairs have been asked for. -/
def IsThrough (r : Round) : Prop := r.asked.map (·.pair) = r.pairs

end Round

namespace Listening

/-- Changes the current round. -/
def amend (l : Listening) (f : Round → Round) : Listening :=
  { l with rounds := l.rounds.modifyHead f }

/-- How far the listener is, or will be when it has begun. -/
def progress (l : Listening) (now : Nat) : Polling := l.polling.getD { next := now }

/-- The request that a look sends. -/
def asked? (l : Listening) (now : Nat) (received : Binary64) : Option Asked :=
  (l.progress now).round.head?.bind (l.source.asked? now received)

/-- The listener looks at its source. -/
def look (l : Listening) (now : Nat) (received : Binary64) (pairs : List String) : Listening :=
  match l.source.poll pairs now received (l.progress now) with
  | (source, p, .begun) => { l with source, polling := some p, rounds := { pairs } :: l.rounds }
  | (source, p, .forwarded m) =>
    ({ l with source, polling := some p, output := l.output ++ [m] } : Listening).amend
      (Round.note (l.asked? now received))
  | (source, p, .waiting _) => { l with source, polling := some p }
  | (source, _, .failed h) =>
    ({ l with source, polling := none } : Listening).amend fun r =>
      (r.note (l.asked? now received)).finish
        (if (l.asked? now received).isSome then .faulty h else .refused h)

/-- There are pairs that are still to be asked for in the current round. -/
def isBusy (l : Listening) : Bool := l.polling.any (!·.round.isEmpty)

/-- Another listener takes the place of this one. -/
def restart (l : Listening) : Listening :=
  let l' := { l with polling := none }
  if l.isBusy then l'.amend (Round.finish .abandoned) else l'

/-- What may happen while a source is listened to. -/
inductive Event where
  | look (now : Nat) (received : Binary64) (pairs : List String)
  | restart
  /-- others have used the throttler, which is now as given -/
  | throttle (t : Throttler)

def step (l : Listening) : Event → Listening
  | .look now received pairs => l.look now received pairs
  | .restart => l.restart
  | .throttle throttler => { l with source := { l.source with throttler } }

def run (l : Listening) (events : List Event) : Listening := events.foldl step l

/-! ## One look -/

variable {l l' : Listening} {now : Nat} {received : Binary64} {pairs : List String}

/-- What one look may do. -/
inductive Looked (l : Listening) (now : Nat) (received : Binary64) (pairs : List String) :
    Listening → Prop where
  /-- a round begins -/
  | begun (hround : (l.progress now).round = []) (hdue : (l.progress now).next ≤ now) :
    Looked l now received pairs
      { l with
        polling := some ⟨(l.progress now).next + l.source.interval, pairs⟩
        rounds := { pairs } :: l.rounds }
  /-- the next round is not due -/
  | early (hround : (l.progress now).round = []) :
    Looked l now received pairs { l with polling := some (l.progress now) }
  /-- a reply brings a message -/
  | brought {p : Polling} {pair : String} {rest : List String} {a : Asked} {m : Message}
    (hp : l.polling = some p) (hround : p.round = pair :: rest)
    (ha : l.source.asked? now received pair = some a) (hm : a.message = .ok m) :
    Looked l now received pairs
      { source := l.source.sent now pair
        polling := some { p with round := rest }
        rounds := l.rounds.modifyHead (Round.note (some a))
        output := l.output ++ [m] }
  /-- a reply brings none -/
  | faulty {p : Polling} {pair : String} {rest : List String} {a : Asked} {e : Error}
    (hp : l.polling = some p) (hround : p.round = pair :: rest)
    (ha : l.source.asked? now received pair = some a) (he : a.message = .error e) :
    Looked l now received pairs
      { l with
        source := l.source.sent now pair
        polling := none
        rounds := l.rounds.modifyHead fun r =>
          (r.note (some a)).finish (.faulty (.error e)) }
  /-- the throttler has no room for a request -/
  | full {p : Polling} {pair : String} {rest : List String} (hp : l.polling = some p)
    (hround : p.round = pair :: rest) (ha : l.source.asked? now received pair = none) :
    Looked l now received pairs { l with source := l.source.tried now, polling := some p }
  /-- the throttler is stopped, or its sums are too large -/
  | refused {p : Polling} {pair : String} {rest : List String} {h : Halt}
    (hp : l.polling = some p) (hround : p.round = pair :: rest)
    (ha : l.source.asked? now received pair = none) :
    Looked l now received pairs
      { l with
        source := l.source.tried now
        polling := none
        rounds := l.rounds.modifyHead (Round.finish (.refused h)) }

/-- Only a listener that has begun has pairs that are still to be asked for. -/
theorem polling_of_round {pair : String} {rest : List String}
    (h : (l.progress now).round = pair :: rest) : l.polling = some (l.progress now) := by
  unfold progress at h ⊢
  cases hp : l.polling with
  | none => rw [hp] at h; exact absurd h (by simp)
  | some p => rfl

/-- **A look does one of the things listed.** -/
theorem look_looked (l : Listening) (now : Nat) (received : Binary64) (pairs : List String) :
    Looked l now received pairs (l.look now received pairs) := by
  unfold look PolledSource.poll
  cases hround : (l.progress now).round with
  | nil =>
    dsimp only
    by_cases hdue : (l.progress now).next ≤ now
    · rw [if_pos hdue]
      exact .begun hround hdue
    · rw [if_neg hdue]
      exact .early hround
  | cons pair rest =>
    have hp := polling_of_round hround
    have hasked : l.asked? now received = l.source.asked? now received pair := by
      rw [asked?, hround]
      rfl
    dsimp only
    rw [hasked]
    cases ha : l.source.asked? now received pair with
    | none =>
      rw [PolledSource.fetch_of_asked?_eq_none ha]
      simp only [Round.note_none]
      cases (l.source.throttler.attempt now snapshotPath).2 with
      | full | admitted | unlimited => exact .full hp hround ha
      | cancelled | overflow => exact .refused hp hround ha
    | some a =>
      obtain ⟨-, hfetch⟩ := PolledSource.fetch_of_asked? ha
      rw [hfetch]
      cases hm : a.message with
      | ok m => exact .brought hp hround ha hm
      | error e => exact .faulty hp hround ha hm

/-- **The listener of a tracker does the same.** It looks at the tracked pairs at the time of the
tracker, and what it forwards goes to the router. -/
theorem listen?_look {t : Tracker} (l : Listening)
    (h : t.source = .polled l.source l.polling) :
    let l' := l.look t.now t.timestamp t.tracked.pairs
    ∃ t' ms, t.listen? = some t' ∧ t'.source = .polled l'.source l'.polling ∧
      l'.output = l.output ++ ms ∧
      t'.router = t.router.map fun r => { r with queue := r.queue ++ ms } := by
  have hnone : ∀ router : Option Router,
      router = router.map fun r => { r with queue := r.queue ++ [] } := by
    intro router
    cases router <;> simp
  unfold Tracker.listen? look
  rw [h]
  dsimp only
  rw [show l.polling.getD { next := t.now } = l.progress t.now from rfl]
  generalize l.source.poll t.tracked.pairs t.now t.timestamp (l.progress t.now) = polled
  obtain ⟨source, p, outcome⟩ := polled
  cases outcome with
  | begun => exact ⟨_, [], rfl, rfl, by simp, hnone _⟩
  | forwarded m => exact ⟨_, [m], rfl, rfl, rfl, rfl⟩
  | waiting span => exact ⟨_, [], rfl, rfl, by simp, hnone _⟩
  | failed halt =>
    cases halt with
    | overflow => exact ⟨_, [], rfl, rfl, by simp [amend], hnone _⟩
    | error e => cases e <;> exact ⟨_, [], rfl, rfl, by simp [amend], hnone _⟩

end Listening

/-! ## Rounds -/

/-- The reply brings a message. -/
def Asked.Brings (a : Asked) : Prop := ∃ m, a.message = .ok m

namespace Round

variable {r : Round} {a : Asked}

/-- All replies brought messages, but for the last one of a faulty round. -/
def Replied (r : Round) : Prop :=
  match r.ending with
  | some (.faulty h) => ∃ before a e, r.asked = before ++ [a] ∧ (∀ b ∈ before, b.Brings) ∧
      a.message = .error e ∧ h = .error e
  | _ => ∀ a ∈ r.asked, a.Brings

/-- The pairs have been asked for in order, and one after a message of the one before. -/
structure Sound (r : Round) : Prop where
  inOrder : r.asked.map (·.pair) <+: r.pairs
  replied : r.Replied

/-- Nothing more happens in the round. -/
def IsOver (r : Round) : Prop := r.ending = none → r.IsThrough

/-- The pairs that are still to be asked for are `rest`, and all replies so far brought messages. -/
structure Open (r : Round) (rest : List String) : Prop where
  ending : r.ending = none
  pairs : r.pairs = r.asked.map (·.pair) ++ rest
  brought : ∀ a ∈ r.asked, a.Brings

theorem Open.sound {rest : List String} (h : r.Open rest) : r.Sound := by
  refine ⟨⟨rest, h.pairs.symm⟩, ?_⟩
  rw [Replied, h.ending]
  exact h.brought

theorem Open.note {rest : List String} (h : r.Open (a.pair :: rest)) (hm : a.Brings) :
    (r.note (some a)).Open rest := by
  refine ⟨h.ending, ?_, ?_⟩
  · rw [Round.note, h.pairs]
    simp
  · intro b hb
    rcases List.mem_append.mp hb with hb | hb
    · exact h.brought b hb
    · exact (List.mem_singleton.mp hb) ▸ hm

theorem Open.faulty {rest : List String} {e : Error} (h : r.Open (a.pair :: rest))
    (he : a.message = .error e) :
    ((r.note (some a)).finish (.faulty (.error e))).Sound := by
  refine ⟨⟨rest, ?_⟩, r.asked, a, e, rfl, h.brought, he, rfl⟩
  rw [finish, Round.note, h.pairs]
  simp

/-- A round that ends for another reason keeps the replies it has had. -/
theorem Open.finish {rest : List String} {e : Ending} (h : r.Open rest)
    (he : ∀ halt, e ≠ .faulty halt) : (r.finish e).Sound := by
  refine ⟨⟨rest, h.pairs.symm⟩, ?_⟩
  cases e with
  | faulty halt => exact absurd rfl (he halt)
  | refused halt => exact h.brought
  | abandoned => exact h.brought

theorem isOver_finish (e : Ending) : (r.finish e).IsOver := fun h => absurd h (by simp [finish])

theorem Open.isOver (h : r.Open []) : r.IsOver := fun _ => by
  rw [IsThrough, h.pairs, List.append_nil]

end Round

namespace Listening

variable {l : Listening} {now : Nat} {received : Binary64} {pairs : List String}

/-- What holds of every record. -/
structure Sound (l : Listening) : Prop where
  sound : ∀ r ∈ l.rounds, r.Sound
  /-- the pairs that are still to be asked for are those of the latest round -/
  current : ∀ p, l.polling = some p → p.round ≠ [] → ∃ r rs, l.rounds = r :: rs ∧ r.Open p.round
  past : ∀ r ∈ l.rounds.tail, r.IsOver
  idle : l.isBusy = false → ∀ r ∈ l.rounds, r.IsOver

theorem isBusy_iff : l.isBusy = true ↔ ∃ p, l.polling = some p ∧ p.round ≠ [] := by
  unfold isBusy
  cases l.polling <;> simp

theorem isBusy_eq_false_iff :
    l.isBusy = false ↔ ∀ p, l.polling = some p → p.round = [] := by
  unfold isBusy
  cases l.polling <;> simp

theorem isBusy_of_progress (h : (l.progress now).round = []) : l.isBusy = false := by
  rw [isBusy_eq_false_iff]
  intro p hp
  rw [progress, hp] at h
  exact h

/-- A record without a current round is sound if its rounds are sound and over. -/
theorem sound_of_over (hsound : ∀ r ∈ l.rounds, r.Sound) (hover : ∀ r ∈ l.rounds, r.IsOver)
    (hidle : l.isBusy = false) : l.Sound where
  sound := hsound
  current p hp hne := absurd (isBusy_eq_false_iff.mp hidle p hp) hne
  past r hr := hover r (List.mem_of_mem_tail hr)
  idle _ := hover

/-- A record is sound if the pairs that are still to be asked for are those of its latest round. -/
theorem sound_of_open {p : Polling} {r : Round} {rs : List Round} (hp : l.polling = some p)
    (hrounds : l.rounds = r :: rs) (hopen : r.Open p.round) (hsound : ∀ r ∈ rs, r.Sound)
    (hover : ∀ r ∈ rs, r.IsOver) : l.Sound where
  sound := by
    rw [hrounds]
    exact List.forall_mem_cons.mpr ⟨hopen.sound, hsound⟩
  current p' hp' _ := by
    obtain rfl := Option.some.inj (hp.symm.trans hp')
    exact ⟨r, rs, hrounds, hopen⟩
  past := by
    rw [hrounds]
    exact hover
  idle hidle := by
    have hround := isBusy_eq_false_iff.mp hidle p hp
    rw [hrounds]
    exact List.forall_mem_cons.mpr ⟨(hround ▸ hopen).isOver, hover⟩

/-- The latest round of a record with pairs that are still to be asked for. -/
theorem Sound.busy {p : Polling} {pair : String} {rest : List String} (h : l.Sound)
    (hp : l.polling = some p) (hround : p.round = pair :: rest) :
    ∃ r rs, l.rounds = r :: rs ∧ r.Open (pair :: rest) ∧ (∀ r ∈ rs, r.Sound) ∧
      ∀ r ∈ rs, r.IsOver := by
  obtain ⟨r, rs, hrounds, hopen⟩ := h.current p hp (by simp [hround])
  refine ⟨r, rs, hrounds, hround ▸ hopen, fun r' hr' => h.sound r' ?_, fun r' hr' => h.past r' ?_⟩
  · exact hrounds ▸ List.mem_cons_of_mem _ hr'
  · rwa [hrounds]

/-- **A look keeps the record sound.** -/
theorem Sound.look (h : l.Sound) (now : Nat) (received : Binary64) (pairs : List String) :
    (l.look now received pairs).Sound := by
  have hlooked := look_looked l now received pairs
  generalize l.look now received pairs = l' at hlooked ⊢
  cases hlooked with
  | begun hround hdue =>
    exact sound_of_open rfl rfl ⟨rfl, rfl, fun _ ha => absurd ha List.not_mem_nil⟩ h.sound
      (h.idle (isBusy_of_progress hround))
  | early hround =>
    exact sound_of_over h.sound (h.idle (isBusy_of_progress hround))
      (isBusy_eq_false_iff.mpr fun p hp => Option.some.inj hp ▸ hround)
  | @brought p pair rest a m hp hround ha hm =>
    obtain ⟨r, rs, hrounds, hopen, hsound, hover⟩ := h.busy hp hround
    obtain ⟨rfl, -⟩ := PolledSource.fetch_of_asked? ha
    refine sound_of_open rfl ?_ (hopen.note ⟨m, hm⟩) hsound hover
    rw [hrounds]
    rfl
  | @faulty p pair rest a e hp hround ha he =>
    obtain ⟨r, rs, hrounds, hopen, hsound, hover⟩ := h.busy hp hround
    obtain ⟨rfl, -⟩ := PolledSource.fetch_of_asked? ha
    refine sound_of_over ?_ ?_ rfl <;> rw [hrounds] <;> refine List.forall_mem_cons.mpr ?_
    · exact ⟨hopen.faulty he, hsound⟩
    · exact ⟨Round.isOver_finish _, hover⟩
  | @full p pair rest hp hround ha =>
    obtain ⟨r, rs, hrounds, hopen, hsound, hover⟩ := h.busy hp hround
    exact sound_of_open rfl hrounds (hround ▸ hopen) hsound hover
  | @refused p pair rest halt hp hround ha =>
    obtain ⟨r, rs, hrounds, hopen, hsound, hover⟩ := h.busy hp hround
    refine sound_of_over ?_ ?_ rfl <;> rw [hrounds] <;> refine List.forall_mem_cons.mpr ?_
    · exact ⟨hopen.finish fun _ => by simp, hsound⟩
    · exact ⟨Round.isOver_finish _, hover⟩

theorem Sound.restart (h : l.Sound) : l.restart.Sound := by
  unfold Listening.restart
  cases hbusy : l.isBusy with
  | false => exact sound_of_over h.sound (h.idle hbusy) rfl
  | true =>
    obtain ⟨p, hp, hround⟩ := isBusy_iff.mp hbusy
    obtain ⟨pair, rest, hround⟩ := List.exists_cons_of_ne_nil hround
    obtain ⟨r, rs, hrounds, hopen, hsound, hover⟩ := h.busy hp hround
    refine sound_of_over ?_ ?_ rfl <;> simp only [if_true, amend, hrounds] <;>
      refine List.forall_mem_cons.mpr ?_
    · exact ⟨hopen.finish fun _ => by simp, hsound⟩
    · exact ⟨Round.isOver_finish _, hover⟩

/-- **Every event keeps the record sound.** -/
theorem Sound.step (h : l.Sound) (event : Event) : (l.step event).Sound := by
  cases event with
  | look now received pairs => exact h.look now received pairs
  | restart => exact h.restart
  | throttle throttler => exact ⟨h.sound, h.current, h.past, h.idle⟩

theorem Sound.run (h : l.Sound) (events : List Event) : (l.run events).Sound := by
  induction events generalizing l with
  | nil => exact h
  | cons event events ih => exact ih (h.step event)

/-- A listener that has not begun. -/
theorem sound_new (s : PolledSource) : Sound { source := s } :=
  sound_of_over (fun _ h => absurd h List.not_mem_nil) (fun _ h => absurd h List.not_mem_nil) rfl

end Listening

end BookFeed

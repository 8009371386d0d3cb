import BookFeed.Proofs.Source.Listening

/-!
# What is fetched and forwarded

A message is fetched, and forwarded by a listener, exactly when the reply to a request brings it. A
reply brings one message at most, of the kind that its frame states (`fetched_as_stated`). So what
is fetched as a snapshot may be a diff or a trade (`diff_fetched`).
-/

namespace BookFeed

namespace Listening

variable {s : PolledSource} {l l' : Listening} {now : Nat} {received : Binary64}
  {pairs : List String} {a : Asked} {r : Round} {rs : List Round}

/-- All requests that were sent, oldest first. -/
def allAsked (l : Listening) : List Asked := l.rounds.reverse.flatMap (·.asked)

theorem allAsked_of_rounds (h : l.rounds = r :: rs) :
    l.allAsked = rs.reverse.flatMap (·.asked) ++ r.asked := by
  rw [allAsked, h, List.reverse_cons, List.flatMap_append]
  simp

/-- The source of `l` was `s` in the beginning. Each request had its own reply, in order, and what
the replies brought was forwarded. -/
structure Heard (s : PolledSource) (l : Listening) : Prop where
  replies : l.allAsked.map (·.reply) = (List.range l.allAsked.length).map s.peer.reply
  next : ∀ n, l.source.peer.reply n = s.peer.reply (l.allAsked.length + n)
  output : l.output = l.allAsked.filterMap (·.message.toOption)

theorem Heard.of_same (h : Heard s l) (hasked : l'.allAsked = l.allAsked)
    (hpeer : l'.source.peer = l.source.peer) (houtput : l'.output = l.output) : Heard s l' where
  replies := by rw [hasked, h.replies]
  next n := by rw [hasked, hpeer, h.next]
  output := by rw [hasked, houtput, h.output]

/-- One more request. -/
theorem Heard.ask {pair : String} (h : Heard s l)
    (ha : l.source.asked? now received pair = some a) (hasked : l'.allAsked = l.allAsked ++ [a])
    (hsource : l'.source = l.source.sent now pair)
    (houtput : l'.output = l.output ++ a.message.toOption.toList) : Heard s l' where
  replies := by
    obtain ⟨rfl, -⟩ := PolledSource.fetch_of_asked? ha
    rw [hasked, List.map_append, h.replies, List.length_append, List.length_singleton,
      List.range_succ, List.map_append]
    simp [h.next]
  next n := by
    rw [hsource, hasked, List.length_append, List.length_singleton]
    show (l.source.peer.ask _).1.reply n = _
    rw [Peer.reply_ask, h.next]
    congr 1
    omega
  output := by
    rw [hasked, houtput, h.output, List.filterMap_append]
    cases hm : a.message.toOption <;> simp [hm]

/-- **A look keeps to this.** -/
theorem Heard.look (h : Heard s l) (hl : l.Sound) (now : Nat) (received : Binary64)
    (pairs : List String) : Heard s (l.look now received pairs) := by
  have hlooked := look_looked l now received pairs
  generalize l.look now received pairs = l' at hlooked ⊢
  cases hlooked with
  | begun hround hdue =>
    refine h.of_same ?_ rfl rfl
    rw [allAsked_of_rounds rfl]
    simp [allAsked]
  | early hround => exact h.of_same rfl rfl rfl
  | @brought p pair rest a m hp hround ha hm =>
    obtain ⟨r, rs, hrounds, -, -, -⟩ := hl.busy hp hround
    refine h.ask ha ?_ rfl (by rw [hm]; rfl)
    rw [allAsked_of_rounds (by rw [hrounds]; rfl), allAsked_of_rounds hrounds, List.append_assoc]
    rfl
  | @faulty p pair rest a e hp hround ha he =>
    obtain ⟨r, rs, hrounds, -, -, -⟩ := hl.busy hp hround
    refine h.ask ha ?_ rfl (by rw [he]; simp [Except.toOption])
    rw [allAsked_of_rounds (by rw [hrounds]; rfl), allAsked_of_rounds hrounds, List.append_assoc]
    rfl
  | full hp hround ha => exact h.of_same rfl rfl rfl
  | @refused p pair rest halt hp hround ha =>
    obtain ⟨r, rs, hrounds, -, -, -⟩ := hl.busy hp hround
    refine h.of_same ?_ rfl rfl
    rw [allAsked_of_rounds (by rw [hrounds]; rfl), allAsked_of_rounds hrounds]
    rfl

theorem Heard.restart (h : Heard s l) : Heard s l.restart := by
  unfold Listening.restart
  split
  · refine h.of_same ?_ rfl rfl
    cases hrounds : l.rounds with
    | nil => simp [allAsked, amend, hrounds]
    | cons r rs =>
      rw [allAsked_of_rounds (by rw [amend]; rfl), allAsked_of_rounds hrounds]
      rfl
  · exact h.of_same rfl rfl rfl

theorem Heard.step (h : Heard s l) (hl : l.Sound) (event : Event) : Heard s (l.step event) := by
  cases event with
  | look now received pairs => exact h.look hl now received pairs
  | restart => exact h.restart
  | throttle throttler => exact h.of_same rfl rfl rfl

theorem Heard.run (h : Heard s l) (hl : l.Sound) (events : List Event) :
    Heard s (l.run events) := by
  induction events generalizing l with
  | nil => exact h
  | cons event events ih => exact ih (h.step hl event) (hl.step event)

/-- **Each request has a reply of its own, and what the replies bring is forwarded**, whatever
happens. -/
theorem heard_run (s : PolledSource) (events : List Event) :
    Heard s (({ source := s } : Listening).run events) :=
  Heard.run ⟨rfl, fun n => by simp [allAsked], rfl⟩ (sound_new s) events

/-! ## What is fetched -/

/-- **What is fetched and forwarded.** A fetch sends one request at most. Without a request there
is no message; with one, it comes to what the reply brings. A listener forwards what the replies
to its requests bring, whatever happens meanwhile, and each request has a reply of its own. A
reply brings a message if it has a status that is no error and its body is the frame of a message
of the pair that was asked for. The message is of the kind that the frame states. -/
theorem fetched_as_stated (s : PolledSource) (clock : Nat → Binary64) (pair : String)
    (now deadline : Nat) (events : List Event) :
    let done := s.fetchUntil clock pair now deadline
    let l := ({ source := s } : Listening).run events
    ((done.1.peer = s.peer ∧ ∀ m, done.2.2 ≠ some (.ok m)) ∨
      (done.1.peer = (s.peer.ask (s.request pair)).1 ∧
        done.2.2 = some (((s.peer.reply 0).message (clock done.2.1) pair).mapError .error))) ∧
    (l.allAsked.map (·.reply) = (List.range l.allAsked.length).map s.peer.reply ∧
      l.output = l.allAsked.filterMap (·.message.toOption)) ∧
    ∀ (r : Reply) (received : Binary64) (asked : String) (m : Message),
      r.message received asked = .ok m ↔ ∃ status body e,
        r = .response status body ∧ ¬ Reply.HasErrorStatus status ∧
        Json.readDocument Envelope.ofJson body = .ok e ∧ e.toMessage received = .ok m ∧
        m.IsOf e.kind asked := by
  intro done l
  have hheard : Heard s l := heard_run s events
  refine ⟨s.fetchUntil_cases clock pair now deadline, ⟨hheard.replies, hheard.output⟩, ?_⟩
  intro r received asked m
  rw [Reply.message_eq_ok_iff]
  constructor
  · rintro ⟨status, body, hr, hstatus, hparse, hpair⟩
    obtain ⟨e, he, hm⟩ := Message.parse_eq_ok_iff.mp hparse
    exact ⟨status, body, e, hr, hstatus, he, hm, (Message.isOf_toMessage hm).1, hpair⟩
  · rintro ⟨status, body, e, hr, hstatus, he, hm, hof⟩
    exact ⟨status, body, hr, hstatus, Message.parse_eq_ok_iff.mpr ⟨e, he, hm⟩, hof.2⟩

/-- A source without limits whose peer gives these replies. -/
def scriptedSource (replies : List Reply) : PolledSource where
  endpoint := "http://localhost"
  interval := Nanos.ofSeconds 5
  interval_pos := by decide
  throttler :=
    { limits := [], margin := Nanos.ofMillis 100, retry := Nanos.ofMillis 100
      retry_pos := by decide }
  peer := .scripted replies

/-- A source whose peer answers the first request with a diff of `BTC-USDT`. -/
def diffSource : PolledSource :=
  scriptedSource [.response 200
    ("\x7b\"type\":\"diff\",\"trading_pair\":\"BTC-USDT\",\"timestamp\":10,\"update_id\":1," ++
      "\"bids\":[[\"100\",\"1\"]],\"asks\":[]\x7d")]

/-- **What is fetched as a snapshot may be a diff**, and is forwarded. -/
theorem diff_fetched :
    (∃ m, (diffSource.fetchUntil (fun _ => .ofNat 0) "BTC-USDT" 0 0).2.2 = some (.ok m) ∧
      m.IsOf .diff "BTC-USDT") ∧
    (({ source := diffSource } : Listening).run
      [.look 0 (.ofNat 0) ["BTC-USDT"], .look 0 (.ofNat 0) ["BTC-USDT"]]).output.map (·.kind) =
        [.diff] := by
  refine ⟨?_, by decide +kernel⟩
  have hreply : ((diffSource.peer.reply 0).message (.ofNat 0) "BTC-USDT").toOption.any
      (fun m => m.kind == .diff && m.pair == "BTC-USDT") = true := by
    decide +kernel
  have hasked : diffSource.asked? 0 (.ofNat 0) "BTC-USDT" =
      some ⟨"BTC-USDT", .ofNat 0, diffSource.peer.reply 0⟩ := rfl
  obtain ⟨-, hfetch⟩ := PolledSource.fetch_of_asked? hasked
  cases hm : (diffSource.peer.reply 0).message (.ofNat 0) "BTC-USDT" with
  | error e => simp [hm, Except.toOption] at hreply
  | ok m =>
    rw [hm, Except.toOption, Option.any_some, Bool.and_eq_true, beq_iff_eq, beq_iff_eq] at hreply
    refine ⟨m, ?_, hreply⟩
    rw [PolledSource.fetchUntil, hfetch, Asked.message, hm]
    rfl

end Listening

end BookFeed

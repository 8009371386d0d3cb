import BookFeed.UserStream.Session
import Mathlib

/-!
# What a session makes of what arrives

On a connection on which everything comes in time, and while somebody reads the events, a session
takes arrivals one by one up to the first that ends the connection: a close frame, a failure or the
end. Only data frames that are JSON texts leave a trace, which is their value.

* `turn_of_next`: one arrival that ends nothing;
* `turn_of_ending`: one that does;
* `receiveAll_heard`: so all arrivals, up to the error;
* **`session_forwards`**: what a session adds to the events, how it ends, what it sends, and in
  which state it leaves the client;
* **`sessions_forward`**: the same of all sessions, one connection after the other.
-/

namespace BookFeed

/-- The text of a data frame. -/
def Frame.text? : Frame → Option String
  | .text content => some content
  | .binary bytes => some (Text.Utf8.decode bytes)
  | .ping _ | .pong _ | .raw _ | .close => none

namespace Incoming

def text? : Incoming → Option String
  | .frame f => f.text?
  | .failure _ | .ended => none

/-- The JSON value of a data frame that has one. -/
def payload? (i : Incoming) : Option Json.Value := i.text?.bind Json.Value.read?

/-- A data frame without a JSON value. -/
def isMalformed (i : Incoming) : Bool := i.text?.isSome && i.payload?.isNone

/-- Why nothing comes afterwards, if this is so. -/
def ending? : Incoming → Option String
  | .frame .close => some "Connection closed"
  | .failure detail => some detail
  | .ended => some "Stream ended"
  | .frame (.text _) | .frame (.binary _) | .frame (.ping _) | .frame (.pong _) | .frame (.raw _) =>
    none

end Incoming

/-- A frame that answers or probes: no text, and not the end of the connection. -/
def Sent.isControl : Sent → Bool
  | .ping | .pong _ => true
  | .text _ | .close => false

def Sent.isText : Sent → Bool
  | .text _ => true
  | .ping | .pong _ | .close => false

namespace Arrival

/-- It comes before the connection counts as silent, and somebody reads the events. -/
def Timely (a : Arrival) : Prop := a.silence ≤ receiveTimeout ∧ a.awaited = true

instance (a : Arrival) : Decidable a.Timely := inferInstanceAs (Decidable (_ ∧ _))

/-- What comes before the end. -/
def heard (arrivals : List Arrival) : List Incoming :=
  (arrivals.map (·.incoming)).takeWhile (·.ending?.isNone)

/-- What the end is. Where nothing more comes, the stream has ended. -/
def ending (arrivals : List Arrival) : String :=
  ((arrivals.map (·.incoming)).findSome? Incoming.ending?).getD "Stream ended"

/-- The JSON values before the end. -/
def payloads (arrivals : List Arrival) : List Json.Value :=
  (heard arrivals).filterMap Incoming.payload?

end Arrival

open Arrival (heard ending payloads)

namespace StreamClient

variable {c : StreamClient} {a : Arrival} {arrivals rest : List Arrival} {detail : String}

/-- What a client receives of an arrival that ends nothing. Only a ping makes it send something. -/
theorem receive_of_next (h : c.arrivals = some (a :: rest)) (hgoes : a.incoming.ending? = none) :
    ∃ c', c.receive = (c', .ok a.incoming.text?) ∧ c'.connection = c.connection ∧
      c'.arrivals = some rest ∧
      (c'.sent = c.sent ∨ ∃ s, s.isControl = true ∧ c'.sent = c.sent ++ [s]) := by
  have hnext : c.next = a := by simp [next, h]
  unfold receive
  simp only [h, hnext, List.tail_cons]
  cases hi : a.incoming with
  | ended => simp [hi, Incoming.ending?] at hgoes
  | failure detail => simp [hi, Incoming.ending?] at hgoes
  | frame f =>
    cases f with
    | text content => exact ⟨_, rfl, rfl, rfl, .inl rfl⟩
    | binary bytes => exact ⟨_, rfl, rfl, rfl, .inl rfl⟩
    | pong bytes => exact ⟨_, rfl, rfl, rfl, .inl rfl⟩
    | raw bytes => exact ⟨_, rfl, rfl, rfl, .inl rfl⟩
    | close => simp [hi, Incoming.ending?] at hgoes
    | ping bytes =>
      by_cases hw : a.writable a.silence
      · exact ⟨_, rfl, by simp [hw, send], by simp [hw, send], .inr ⟨.pong bytes, rfl, by
          simp [hw, send]⟩⟩
      · exact ⟨_, rfl, by simp [hw], by simp [hw], .inl (by simp [hw])⟩

@[simp] theorem isConnected_wait (c : StreamClient) (span : Nat) :
    (c.wait span).isConnected = c.isConnected := by
  simp [isConnected, wait]

theorem incoming_next_wait (c : StreamClient) (span : Nat) :
    (c.wait span).next.incoming = c.next.incoming := by
  unfold next wait
  match c.arrivals with
  | none | some [] | some (_ :: _) => rfl

theorem receive_of_ending (hc : c.isConnected = true)
    (hends : c.next.incoming.ending? = some detail) : c.receive = c.disconnect detail := by
  obtain ⟨arrivals, h⟩ := Option.isSome_iff_exists.mp hc
  unfold receive
  simp only [h]
  cases hi : c.next.incoming with
  | ended => simp_all [Incoming.ending?]
  | failure detail => simp_all [Incoming.ending?]
  | frame f => cases f <;> simp_all [Incoming.ending?]

end StreamClient

/-- What arrives from the other side, if it accepts. -/
def Dial.arrivals (dial : Dial) : List Arrival :=
  match dial.answer with
  | .ok arrivals => arrivals
  | .error _ => []

/-- Why a connection does not come about, if that is so. -/
def Dial.failure? (dial : Dial) (connection : Connection) : Option String :=
  match dial.answer with
  | .error detail => some ("Failed to connect: " ++ detail)
  | .ok _ => if connection.subscription.isSome then dial.fault else none

namespace Dial

/-- The values that a session over the connection queues. -/
def payloads (dial : Dial) (connection : Connection) : List Json.Value :=
  if (dial.failure? connection).isNone then Arrival.payloads dial.arrivals else []

/-- The error that a session over the connection ends with. -/
def ending (dial : Dial) (connection : Connection) : Error :=
  .webSocket ((dial.failure? connection).getD (Arrival.ending dial.arrivals))

/-- The texts that are sent when the connection comes about. -/
def texts (dial : Dial) (connection : Connection) : List Sent :=
  if (dial.failure? connection).isNone then StreamClient.greeting { connection } else []

end Dial

namespace StreamClient

variable {c : StreamClient} {dial : Dial} {detail : String}

theorem connect_of_failure (h : dial.failure? c.connection = some detail) :
    c.connect dial = (c, .error (.webSocket detail)) := by
  unfold Dial.failure? at h
  unfold connect
  split <;> rename_i hanswer <;> simp only [hanswer] at h
  · rw [← Option.some.inj h]
  · split at h
    · rename_i hsubscribed
      obtain ⟨m, hm⟩ := Option.isSome_iff_exists.mp hsubscribed
      simp only [hm, h]
    · cases h

theorem connect_of_success (h : dial.failure? c.connection = none) :
    c.connect dial =
      ({ c with arrivals := some dial.arrivals, sent := c.sent ++ c.greeting }, .ok ()) := by
  unfold Dial.failure? at h
  unfold connect
  split <;> rename_i hanswer <;> simp only [hanswer] at h
  · cases h
  · split
    · rename_i hsubscription hfault
      simp [hsubscription, hfault] at h
    · simp only [Dial.arrivals, hanswer]

theorem connect_eq_ok_iff : (c.connect dial).2 = .ok () ↔ dial.failure? c.connection = none := by
  cases h : dial.failure? c.connection with
  | none => simp [connect_of_success h]
  | some detail => simp [connect_of_failure h]

/-- **A successful connection has sent the subscription, and nothing of it has been read.** -/
theorem connect_of_ok (h : (c.connect dial).2 = .ok ()) :
    (c.connect dial).1 =
      { c with arrivals := some dial.arrivals, sent := c.sent ++ c.greeting } := by
  rw [connect_of_success (connect_eq_ok_iff.mp h)]

/-- What may be asked of a client between two connections. -/
inductive Call where
  | receive
  | ping
  | close

def perform (c : StreamClient) : Call → StreamClient
  | .receive => c.receive.1
  | .ping => c.ping
  | .close => c.close

/-- Without a connection nothing that is asked of a client changes it. -/
theorem foldl_perform_of_disconnected (h : c.arrivals = none) (calls : List Call) :
    calls.foldl perform c = c := by
  have hcall : ∀ call, c.perform call = c := fun call => by
    cases call <;> simp [perform, receive, ping, close, isConnected, h]
  induction calls with
  | nil => rfl
  | cons call calls ih => rw [List.foldl_cons, hcall, ih]

end StreamClient

namespace SessionLog

variable {log log' log'' : SessionLog} {client : StreamClient} {a : Arrival}
  {arrivals rest : List Arrival} {is is' : List Incoming} {detail : String} {dial : Dial}

/-- From one log to the other these have been heard, and nothing else has happened: their values are
events, and whatever was sent answered or probed. -/
structure Forwards (log log' : SessionLog) (is : List Incoming) : Prop where
  connection : log'.client.connection = log.client.connection
  events : log'.events = log.events ++ is.filterMap Incoming.payload?
  malformed : log'.malformed = log.malformed + is.countP Incoming.isMalformed
  sent : ∃ replies, log'.client.sent = log.client.sent ++ replies ∧
    ∀ s ∈ replies, s.isControl = true

theorem Forwards.refl (log : SessionLog) : log.Forwards log [] :=
  ⟨rfl, (List.append_nil _).symm, rfl, [], (List.append_nil _).symm, by simp⟩

theorem Forwards.trans (h : log.Forwards log' is) (h' : log'.Forwards log'' is') :
    log.Forwards log'' (is ++ is') where
  connection := h'.connection.trans h.connection
  events := by rw [h'.events, h.events, List.filterMap_append, List.append_assoc]
  malformed := by rw [h'.malformed, h.malformed, List.countP_append, Nat.add_assoc]
  sent := by
    obtain ⟨replies, hsent, hcontrol⟩ := h.sent
    obtain ⟨replies', hsent', hcontrol'⟩ := h'.sent
    refine ⟨replies ++ replies', by rw [hsent', hsent, List.append_assoc], ?_⟩
    exact List.forall_mem_append.mpr ⟨hcontrol, hcontrol'⟩

/-! ## One arrival -/

theorem forwards_pass (log : SessionLog) (span : Nat) : log.Forwards (log.pass span) [] :=
  ⟨rfl, (List.append_nil _).symm, rfl, [], (List.append_nil _).symm, by simp⟩

/-- The client may send a frame that answers or probes, whatever else happens to it. -/
theorem forwards_of_sent (hconnection : client.connection = log.client.connection)
    (hsent : client.sent = log.client.sent ∨
      ∃ s, s.isControl = true ∧ client.sent = log.client.sent ++ [s]) :
    log.Forwards { log with client } [] where
  connection := hconnection
  events := (List.append_nil _).symm
  malformed := rfl
  sent := by
    rcases hsent with hsent | ⟨s, hs, hsent⟩
    · exact ⟨[], by simpa using hsent, by simp⟩
    · exact ⟨[s], hsent, by simpa using hs⟩

theorem forwards_keepAlive (log : SessionLog) (writable : Bool) :
    log.Forwards (log.keepAlive writable) [] := by
  unfold keepAlive StreamClient.ping
  split
  · split
    · exact forwards_of_sent rfl (.inr ⟨.ping, rfl, rfl⟩)
    · exact forwards_of_sent rfl (.inl rfl)
  · exact .refl log

@[simp] theorem arrivals_keepAlive (log : SessionLog) (writable : Bool) :
    (log.keepAlive writable).client.arrivals = log.client.arrivals := by
  unfold keepAlive StreamClient.ping
  split
  · split <;> rfl
  · rfl

/-- The turn of something that comes in time. -/
theorem turn_of_timely (h : log.client.next.Timely) :
    log.turn = (log.pass log.client.next.silence).hear log.client.next :=
  if_neg (Nat.not_lt.mpr h.1)

/-- The text of a frame leaves its value, or a frame more that was none. -/
theorem take_awaited (log : SessionLog) (text : String) {i : Incoming} (h : i.text? = some text) :
    ∃ log', log.take text true = (log', none) ∧ log.Forwards log' [i] ∧
      log'.client = log.client := by
  unfold take
  cases hvalue : Json.Value.read? text with
  | none =>
    refine ⟨_, rfl, ⟨rfl, ?_, ?_, [], (List.append_nil _).symm, by simp⟩, rfl⟩
    · simp [Incoming.payload?, h, hvalue]
    · simp [Incoming.isMalformed, Incoming.payload?, h, hvalue]
  | some value =>
    refine ⟨_, rfl, ⟨rfl, ?_, ?_, [], (List.append_nil _).symm, by simp⟩, rfl⟩
    · simp [Incoming.payload?, h, hvalue]
    · simp [Incoming.isMalformed, Incoming.payload?, h, hvalue]

/-- A frame without text leaves nothing. -/
theorem Forwards.textless {i : Incoming} (h : log.Forwards log' []) (htext : i.text? = none) :
    log.Forwards log' [i] where
  connection := h.connection
  events := by rw [h.events]; simp [Incoming.payload?, htext]
  malformed := by rw [h.malformed]; simp [Incoming.isMalformed, htext]
  sent := h.sent

/-- **An arrival that ends nothing** is heard, and the session goes on with the next. -/
theorem turn_of_next (harrivals : log.client.arrivals = some (a :: rest)) (ha : a.Timely)
    (hgoes : a.incoming.ending? = none) :
    ∃ log', log.turn = (log', none) ∧ log.Forwards log' [a.incoming] ∧
      log'.client.arrivals = some rest := by
  have hnext : log.client.next = a := by simp [StreamClient.next, harrivals]
  have hpassed : (log.pass a.silence).client.arrivals = some (a.after a.silence :: rest) := by
    simp [pass, StreamClient.wait, harrivals]
  obtain ⟨client, hreceive, hconnection, hrest, hsent⟩ :=
    StreamClient.receive_of_next hpassed hgoes
  have hreceived : log.Forwards { log.pass a.silence with client } [] :=
    (forwards_pass log a.silence).trans (forwards_of_sent hconnection hsent)
  rw [turn_of_timely (hnext ▸ ha), hnext, hear, hreceive]
  cases htext : a.incoming.text? with
  | none =>
    have hkept := hreceived.trans (forwards_keepAlive _ (a.writable a.silence))
    exact ⟨_, by rw [Arrival.after, htext], hkept.textless htext, by simpa using hrest⟩
  | some text =>
    obtain ⟨log', htake, hforwards, hclient⟩ :=
      take_awaited { log.pass a.silence with client } text htext
    refine ⟨log', by rw [Arrival.after, htext, ha.2]; exact htake, hreceived.trans hforwards, ?_⟩
    rw [hclient]
    exact hrest

/-- **An arrival that ends the connection** ends the session, with nothing sent any more. -/
theorem turn_of_ending (hc : log.client.isConnected = true) (hnext : log.client.next.Timely)
    (hends : log.client.next.incoming.ending? = some detail) :
    ∃ log', log.turn = (log', some (.webSocket detail)) ∧ log.Forwards log' [] ∧
      log'.client.arrivals = none := by
  have hpassed := forwards_pass log log.client.next.silence
  have hreceive : (log.pass log.client.next.silence).client.receive =
      (log.pass log.client.next.silence).client.disconnect detail :=
    StreamClient.receive_of_ending (by simpa [pass] using hc)
      ((congrArg _ (StreamClient.incoming_next_wait _ _)).trans hends)
  rw [turn_of_timely hnext, hear, hreceive]
  exact ⟨_, rfl, hpassed.trans (forwards_of_sent rfl (.inl rfl)), rfl⟩

/-! ## A connection -/

@[simp] theorem heard_nil : heard [] = [] := rfl

@[simp] theorem ending_nil : ending [] = "Stream ended" := rfl

theorem heard_of_next (h : a.incoming.ending? = none) :
    heard (a :: rest) = a.incoming :: heard rest := by
  simp [heard, h]

theorem heard_of_ending (h : a.incoming.ending? = some detail) : heard (a :: rest) = [] := by
  simp [heard, h]

theorem ending_of_next (h : a.incoming.ending? = none) : ending (a :: rest) = ending rest := by
  simp [ending, h]

theorem ending_of_ending (h : a.incoming.ending? = some detail) :
    ending (a :: rest) = detail := by
  simp [ending, h]

theorem receiveAll_of_turn_none (h : log.turn = (log', none)) :
    log.receiveAll = log'.receiveAll := by
  rw [receiveAll]
  split <;> simp_all

theorem receiveAll_of_turn_some {e : Error} (h : log.turn = (log', some e)) :
    log.receiveAll = (log', e) := by
  rw [receiveAll]
  split <;> simp_all

/-- **Everything up to the end is heard**, and the connection is gone when the session has its
error. -/
theorem receiveAll_heard (h : log.client.arrivals = some arrivals)
    (htimely : ∀ a ∈ arrivals, a.Timely) :
    ∃ log', log.receiveAll = (log', .webSocket (ending arrivals)) ∧
      log.Forwards log' (heard arrivals) ∧ log'.client.arrivals = none := by
  induction arrivals generalizing log with
  | nil =>
    have hnext : log.client.next = { incoming := .ended } := by simp [StreamClient.next, h]
    have hconnected : log.client.isConnected = true := by simp [StreamClient.isConnected, h]
    have hends : log.client.next.incoming.ending? = some "Stream ended" := by rw [hnext]; rfl
    obtain ⟨log', hturn, hforwards, hgone⟩ :=
      turn_of_ending hconnected (hnext ▸ by decide) hends
    exact ⟨log', receiveAll_of_turn_some hturn, hforwards, hgone⟩
  | cons a rest ih =>
    have ha := htimely a List.mem_cons_self
    cases hends : a.incoming.ending? with
    | none =>
      obtain ⟨log₁, hturn, hforwards, hrest⟩ := turn_of_next h ha hends
      obtain ⟨log', hall, hforwards', hgone⟩ :=
        ih hrest fun b hb => htimely b (List.mem_cons_of_mem a hb)
      refine ⟨log', ?_, ?_, hgone⟩
      · rw [receiveAll_of_turn_none hturn, hall, ending_of_next hends]
      · rw [heard_of_next hends]
        exact hforwards.trans hforwards'
    | some detail =>
      have hnext : log.client.next = a := by simp [StreamClient.next, h]
      have hconnected : log.client.isConnected = true := by simp [StreamClient.isConnected, h]
      obtain ⟨log', hturn, hforwards, hgone⟩ :=
        turn_of_ending hconnected (hnext ▸ ha) (hnext ▸ hends)
      refine ⟨log', ?_, ?_, hgone⟩
      · rw [receiveAll_of_turn_some hturn, ending_of_ending hends]
      · rw [heard_of_ending hends]
        exact hforwards

/-! ## A session -/

/-- Everything up to the end is heard after connecting. The client has no connection any more when
the session closes it, so the close sends nothing. -/
theorem session_heard (hconnect : (log.client.connect dial).2 = .ok ())
    (htimely : ∀ a ∈ dial.arrivals, a.Timely) :
    ∃ log', log.session dial = (log', .webSocket (ending dial.arrivals)) ∧
      ({ log with client := (log.client.connect dial).1 } : SessionLog).Forwards log'
        (heard dial.arrivals) ∧
      log'.client.arrivals = none := by
  let opened : SessionLog :=
    { log with client := (log.client.connect dial).1, idle := 0, age := some 0 }
  have harrivals : opened.client.arrivals = some dial.arrivals := by
    simp only [opened, StreamClient.connect_of_ok hconnect]
  obtain ⟨log', hall, ⟨hconnection, hevents, hmalformed, hsent⟩, hgone⟩ :=
    receiveAll_heard harrivals htimely
  have hclosed : log'.client.close = log'.client := by
    simp [StreamClient.close, StreamClient.isConnected, hgone]
  refine ⟨log', ?_, ⟨hconnection, hevents, hmalformed, hsent⟩, hgone⟩
  unfold session
  rw [← Prod.eta (log.client.connect dial), hconnect]
  simp only [opened] at hall
  simp only [hall, hclosed]

/-- However a session ends, the client is disconnected afterwards. -/
theorem isConnected_session (log : SessionLog) (dial : Dial) :
    (log.session dial).1.client.isConnected = false := by
  have hclose : ∀ c : StreamClient, c.close.isConnected = false := fun c => by
    unfold StreamClient.close
    split
    · rfl
    · exact Bool.eq_false_iff.mpr ‹_›
  unfold session
  split <;> exact hclose _

/-- Data frames with and without a JSON value, frames without data, one of them after a long wait,
and a text after the close. -/
def mixedScript : List Arrival :=
  [{ incoming := .frame (.text "1") },
    { incoming := .frame (.ping [7]), silence := 31000 },
    { incoming := .frame (.text "\x7b"), silence := 45000 },
    { incoming := .frame (.binary [0x22, 0xff, 0x22]) },
    { incoming := .frame (.pong []) },
    { incoming := .frame .close },
    { incoming := .frame (.text "2") }]

theorem session_of_failure (h : dial.failure? log.client.connection = some detail) :
    log.session dial = ({ log with client := log.client.close }, .webSocket detail) := by
  unfold session
  rw [StreamClient.connect_of_failure h]

/-- From one log to the other there have been sessions over these connections. -/
structure Streams (log log' : SessionLog) (dials : List Dial) : Prop where
  connection : log'.client.connection = log.client.connection
  events : log'.events = log.events ++ dials.flatMap (·.payloads log.client.connection)
  texts : log'.client.sent.filter Sent.isText =
    log.client.sent.filter Sent.isText ++ dials.flatMap (·.texts log.client.connection)

theorem Streams.trans {dials dials' : List Dial} (h : log.Streams log' dials)
    (h' : log'.Streams log'' dials') : log.Streams log'' (dials ++ dials') where
  connection := h'.connection.trans h.connection
  events := by
    rw [h'.events, h.events, h.connection, List.flatMap_append, List.append_assoc]
  texts := by
    rw [h'.texts, h.texts, h.connection, List.flatMap_append, List.append_assoc]

theorem streams_pass (log : SessionLog) (span : Nat) : log.Streams (log.pass span) [] :=
  ⟨rfl, (List.append_nil _).symm, (List.append_nil _).symm⟩

theorem filter_isText_greeting (c : StreamClient) : c.greeting.filter Sent.isText = c.greeting := by
  unfold StreamClient.greeting
  cases c.connection.subscription <;> rfl

theorem filter_isText_of_control {replies : List Sent} (h : ∀ s ∈ replies, s.isControl = true) :
    replies.filter Sent.isText = [] := by
  refine List.filter_eq_nil_iff.mpr fun s hs => ?_
  have := h s hs
  cases s <;> simp_all [Sent.isControl, Sent.isText]

/-- One session, whether the connection comes about or not. -/
theorem session_streams (log : SessionLog) (htimely : ∀ a ∈ dial.arrivals, a.Timely) :
    ∃ log', log.session dial = (log', dial.ending log.client.connection) ∧
      log.Streams log' [dial] := by
  cases hfailure : dial.failure? log.client.connection with
  | some detail =>
    refine ⟨_, by rw [session_of_failure hfailure, Dial.ending, hfailure]; rfl, ?_, ?_, ?_⟩
    · unfold StreamClient.close
      split <;> rfl
    · simp [Dial.payloads, hfailure]
    · unfold StreamClient.close StreamClient.send
      split <;> simp [Dial.texts, hfailure, Sent.isText]
  | none =>
    have hconnect := StreamClient.connect_eq_ok_iff.mpr hfailure
    have hopen := StreamClient.connect_of_ok hconnect
    obtain ⟨log', hsession, hforwards, -⟩ := session_heard hconnect htimely
    refine ⟨log', by rw [hsession, Dial.ending, hfailure]; rfl, ?_, ?_, ?_⟩
    · rw [hforwards.connection, hopen]
    · simpa [Dial.payloads, hfailure, payloads] using hforwards.events
    · obtain ⟨replies, hsent, hcontrol⟩ := hforwards.sent
      rw [hsent, List.filter_append, filter_isText_of_control hcontrol, hopen, List.filter_append,
        filter_isText_greeting]
      simp [Dial.texts, hfailure, StreamClient.greeting]

/-- After an error of the connection there is a pause, and then the next session. -/
theorem sessions_of_webSocket {base ended : Nat} {dials : List Dial}
    (h : (log.pass dial.lag).session dial = (log', .webSocket detail)) :
    log.sessions base ended (dial :: dials) =
      let failed := log.failures ended + 1
      let delay := Reconnect.delay base failed
      let rest := (log'.pass delay).sessions base failed dials
      (rest.1, ⟨.webSocket detail, delay⟩ :: rest.2) := by
  rw [sessions, h]

/-- **One session after the other**: the events are those of each connection that has come about,
and over each the subscription has been sent once. -/
theorem sessions_forward (log : SessionLog) (base ended : Nat) {dials : List Dial}
    (htimely : ∀ dial ∈ dials, ∀ a ∈ dial.arrivals, a.Timely) :
    log.Streams (log.sessions base ended dials).1 dials ∧
      (log.sessions base ended dials).2.map (·.error) =
        dials.map (·.ending log.client.connection) := by
  induction dials generalizing log ended with
  | nil => exact ⟨⟨rfl, (List.append_nil _).symm, (List.append_nil _).symm⟩, rfl⟩
  | cons dial dials ih =>
    let failed := log.failures ended + 1
    let delay := Reconnect.delay base failed
    obtain ⟨log', hsession, hstreams⟩ :=
      session_streams (log.pass dial.lag) (htimely dial List.mem_cons_self)
    have hpaused : log.Streams (log'.pass delay) [dial] :=
      ((streams_pass log dial.lag).trans hstreams).trans (streams_pass log' delay)
    obtain ⟨hrest, herrors⟩ := ih (log'.pass delay) failed fun d hd =>
      htimely d (List.mem_cons_of_mem dial hd)
    rw [sessions_of_webSocket hsession]
    refine ⟨hpaused.trans hrest, ?_⟩
    rw [List.map_cons, herrors, hpaused.connection]
    rfl

end SessionLog

end BookFeed

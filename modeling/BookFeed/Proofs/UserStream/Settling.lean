import BookFeed.Proofs.UserStream.Delivery

/-!
# What is settled at once is settled in turns

`settle` lets the listener do everything that is to be done, as if it were alone. Here tasks get
there by themselves: those that were told to go do so, the listener gets the feed, and each step of
the listener is taking a payload and queueing it.

* `exists_departed`: those that were told to go can do so first;
* `leads_step`: what a step of the listener does, the task that has the feed does;
* **`Inv.leads_settle`**: tasks that are left alone can do what `settle` does.
-/

namespace BookFeed.UserStream.System

variable {s s' s'' : System} {t : Task} {e : Event} {u : UserStream}

/-- Tasks that are left alone can bring about the other system. -/
def Leads (s s' : System) : Prop := ∃ es : List Event, (∀ e ∈ es, e.isTask = true) ∧ s.run es = s'

theorem Leads.refl (s : System) : s.Leads s := ⟨[], fun _ he => absurd he List.not_mem_nil, rfl⟩

theorem Leads.event (he : e.isTask = true) : s.Leads (s.step e) :=
  ⟨[e], fun _ h => List.mem_singleton.mp h ▸ he, rfl⟩

theorem Leads.trans (h : s.Leads s') (h' : s'.Leads s'') : s.Leads s'' := by
  obtain ⟨es, hes, rfl⟩ := h
  obtain ⟨es', hes', rfl⟩ := h'
  exact ⟨es ++ es', List.forall_mem_append.mpr ⟨hes, hes'⟩, run_append s es es'⟩

theorem Leads.inv (h : s.Leads s') (hs : s.Inv) : s'.Inv := by
  obtain ⟨es, -, rfl⟩ := h
  exact hs.run es

/-! ## Those that were told to go -/

/-- Of tasks that have nothing in their hands, each one that was told to go can do so next. -/
theorem exists_departure (hin : s.inHand = []) (ht : t ∈ s.tasks) (hgo : t.aborted = true) :
    ∃ s', s.Leads s' ∧ s'.tasks.length < s.tasks.length ∧ s'.inHand = [] ∧
      { s'.stream with leaving := false } = { s.stream with leaving := false } := by
  rcases List.mem_append.mp ht with ht | ht
  · obtain ⟨⟨t', payload?⟩, hh, rfl⟩ : ∃ h, s.holder = some h ∧ h.task = t := by simpa using ht
    obtain rfl : payload? = none := by simpa [inHand, hh] using hin
    have hgo : t'.aborted = true := hgo
    refine ⟨_, Leads.event (e := .release) rfl, ?_⟩
    simp [step, hh, hgo, depart, tasks, inHand]
  · obtain ⟨i, hi⟩ := List.mem_iff_getElem?.mp ht
    have hlen := (List.getElem?_eq_some_iff.mp hi).1
    refine ⟨_, Leads.event (e := .leave i) rfl, ?_⟩
    simp only [step, hi, hgo, if_true, depart]
    refine ⟨?_, hin, trivial⟩
    simp only [tasks, List.length_append, List.length_eraseIdx_of_lt hlen]
    omega

/-- Those that were told to go can do so before anything else happens. -/
theorem exists_departed (hs : s.Inv) (hin : s.inHand = []) :
    ∃ s', s.Leads s' ∧ s'.inHand = [] ∧ (∀ t ∈ s'.tasks, t.aborted = false) ∧
      s'.stream = { s.stream with leaving := false } := by
  induction hn : s.tasks.length using Nat.strongRecOn generalizing s with
  | ind n ih =>
    by_cases hall : ∀ t ∈ s.tasks, t.aborted = false
    · have hleaving : s.stream.leaving = false := by
        rw [hs.leaving, List.any_eq_false]
        exact fun t ht => by simp [hall t ht]
      exact ⟨s, .refl s, hin, hall, by rw [← hleaving]⟩
    · obtain ⟨t, ht, hgo⟩ : ∃ t ∈ s.tasks, t.aborted = true := by simpa using hall
      obtain ⟨s₁, hlead, hlt, hin₁, hstream⟩ := exists_departure hin ht hgo
      obtain ⟨s₂, hlead', hin₂, hall', hstream'⟩ := ih _ (hn ▸ hlt) (hlead.inv hs) hin₁ rfl
      exact ⟨s₂, hlead.trans hlead', hin₂, hall', hstream'.trans hstream⟩

/-! ## The listener -/

/-- The listener has the feed, with nothing in its hands and nobody else about. -/
structure Alone (s : System) (t : Task) : Prop where
  held : s.holder = some ⟨t, none⟩
  current : s.current = some t.id
  waiting : s.waiting = []
  settled : s.stream.leaving = false

/-- **What a step of the listener does, the task that has the feed does.** It is still there
afterwards, unless the feed has come to its end. -/
theorem Alone.leads_step (h : s.Alone t) (hstep : s.stream.step? = some u) :
    ∃ s', s.Leads s' ∧ s'.stream = u ∧ (s'.Alone t ∨ u.step? = none) := by
  unfold UserStream.step? at hstep
  split at hstep
  · rename_i payload feed hlistener hfeed
    obtain rfl := Option.some.inj hstep
    have htaken : s.Leads (s.step .hold) := .event rfl
    have hqueued : (s.step .hold).Leads ((s.step .hold).step .hold) := .event rfl
    refine ⟨_, htaken.trans hqueued, ?_, .inl ⟨?_, ?_, ?_, ?_⟩⟩ <;>
      simp [step, h.held, resume, hfeed, h.current, h.waiting, h.settled]
  · rename_i hlistener hfeed
    split at hstep
    · rename_i hclosed
      obtain rfl := Option.some.inj hstep
      refine ⟨_, .event (e := .hold) rfl, ?_, .inr rfl⟩
      simp [step, h.held, resume, hfeed, hclosed, h.current, h.waiting, depart, tasks, h.settled]
    · cases hstep
  · cases hstep

theorem Alone.leads_run (h : s.Alone t) (n : Nat) :
    ∃ s', s.Leads s' ∧ s'.stream = s.stream.run n := by
  induction n generalizing s with
  | zero => exact ⟨s, .refl s, rfl⟩
  | succ n ih =>
    cases hstep : s.stream.step? with
    | none => exact ⟨s, .refl s, by simp [UserStream.run, hstep]⟩
    | some u =>
      obtain ⟨s₁, hlead, hstream, hcont⟩ := h.leads_step hstep
      have hrun : s.stream.run (n + 1) = u.run n := by simp [UserStream.run, hstep]
      rw [hrun]
      rcases hcont with halone | hend
      · obtain ⟨s₂, hlead', hstream'⟩ := ih halone
        exact ⟨s₂, hlead.trans hlead', hstream'.trans (hstream ▸ rfl)⟩
      · refine ⟨s₁, hlead, hstream.trans ?_⟩
        cases n with
        | zero => rfl
        | succ n => simp [UserStream.run, hend]

/-- A stream without a listener has no step to do. -/
theorem run_of_not_listening (hl : u.listener ≠ some .listening) (n : Nat) : u.run n = u := by
  cases n with
  | zero => rfl
  | succ n =>
    have hstep : u.step? = none := by
      unfold UserStream.step?
      split <;> simp_all
    simp [UserStream.run, hstep]

/-- The only one left can get the feed, if it does not have it. -/
theorem exists_alone (hs : s.Inv) (hin : s.inHand = []) (hall : ∀ t ∈ s.tasks, t.aborted = false)
    (hl : s.stream.listener = some .listening) :
    ∃ s' t, s.Leads s' ∧ s'.Alone t ∧ s'.stream = s.stream := by
  obtain ⟨t, ht, hlive⟩ := hs.listening.mp hl
  have hleaving : s.stream.leaving = false := by
    rw [hs.leaving, List.any_eq_false]
    exact fun t ht => by simp [hall t ht]
  have hone : s.tasks.length ≤ 1 := by
    have := hs.roster.length_le
    rwa [List.filter_eq_self.mpr fun t ht => by simp [hall t ht]] at this
  have hcurrent := (hs.roster.owned t ht).mp hlive
  obtain hs₁ : s.tasks = [t] := by
    match htasks : s.tasks, ht, hone with
    | [t'], ht, _ => rw [List.mem_singleton.mp ht]
  cases hh : s.holder with
  | none =>
    have hw : s.waiting = [t] := by simpa [tasks, hh] using hs₁
    refine ⟨_, t, .event (e := .enter 0) rfl, ⟨?_, ?_, ?_, ?_⟩, ?_⟩ <;>
      simp [step, hh, hw, hcurrent, hleaving]
  | some held =>
    obtain ⟨t', payload?⟩ := held
    obtain rfl : payload? = none := by simpa [inHand, hh] using hin
    obtain ⟨rfl, hw⟩ : t' = t ∧ s.waiting = [] := by simpa [tasks, hh] using hs₁
    exact ⟨s, t', .refl s, ⟨hh, hcurrent, hw, hleaving⟩, rfl⟩

/-- **Tasks that are left alone can do what `settle` does at once**, if nobody has a payload in its
hands. -/
theorem Inv.leads_settle (hs : s.Inv) (hin : s.inHand = []) :
    ∃ s', s.Leads s' ∧ s'.stream = s.stream.settle := by
  obtain ⟨s₁, hlead, hin₁, hall, hstream⟩ := exists_departed hs hin
  by_cases hl : s₁.stream.listener = some .listening
  · obtain ⟨s₂, t, hlead₂, halone, hstream₂⟩ := exists_alone (hlead.inv hs) hin₁ hall hl
    obtain ⟨s₃, hlead₃, hstream₃⟩ := halone.leads_run (s.stream.feed.length + 1)
    exact ⟨s₃, hlead.trans (hlead₂.trans hlead₃), by rw [hstream₃, hstream₂, hstream]; rfl⟩
  · exact ⟨s₁, hlead, by rw [UserStream.settle, ← hstream, run_of_not_listening hl]⟩

end BookFeed.UserStream.System

import TaskFirestoreApp.Library.Turns
import TaskFirestoreApp.Groups.Convergence

/-!
# The groups come to rest

No callback writes, and a listener requests one refresh for each event, so the devices do not
keep each other busy: left to themselves they come to rest, whatever was pressed before. Open
chats are then in agreement. Devices that take turns, each waiting until nothing is
outstanding, write one chat together: its messages are those sent, in the order of the turns.
-/

namespace Groups

open Backend

variable {D : Type}

/-! ### Rest -/

theorem responsive_program :
  program.Responsive 0
  where
  callback {q c x app app' cs} h := by
    obtain rfl : cs = [] := by
      cases q with
      | home => exact (Prod.mk.inj (Option.some.inj h.symm)).2
      | list => exact (Prod.mk.inj (Option.some.inj h.symm)).2
      | refresh chat =>
          obtain ⟨-, rows, heff | heff⟩ := TaskGroupDetailViewController.completed_cases h
          · exact (Prod.mk.inj heff).2
          · exact (Prod.mk.inj heff).2
    exact ⟨le_rfl, rfl, rfl⟩
  failed {q app app' cs} h := by
    obtain rfl : cs = [] := by
      cases q with
      | home => exact (Prod.mk.inj (Option.some.inj h.symm)).2
      | list => exact (Prod.mk.inj (Option.some.inj h.symm)).2
      | refresh chat => exact (Prod.mk.inj (Option.some.inj h.symm)).2
    exact ⟨⟨le_rfl, rfl, rfl⟩, rfl⟩
  listener {chat data app app' cs} h := by
    cases data with
    | none =>
        obtain ⟨-, rfl⟩ := Prod.mk.inj (Option.some.inj h.symm)
        exact ⟨rfl, Nat.zero_le _, rfl, rfl⟩
    | some doc =>
        obtain ⟨-, rfl⟩ := Prod.mk.inj (Option.some.inj h.symm)
        exact ⟨rfl, le_rfl, rfl, rfl⟩
  input q c app ids := by
    refine ⟨(), ?_⟩
    intro app' cs h i hi
    have hreads := callback_cases (D := Unit) (d := ()) (i := 0) (k := c) (q := q)
      (w := ⟨∅, [], fun _ => ⟨app, ⟨[], [], [(q, c)], []⟩⟩⟩) rfl h
    simp [hreads.drawn] at hi

variable [DecidableEq D]

/-- From every state that can be reached, whatever was pressed before, the devices come to rest
when they are left to themselves. -/
theorem groups_settle {es : List (Event D)} {w : World D} (h : run World.initial es = some w) :
  Settles program w
  := by
  have hinitial : Confined ∅ (World.initial : World D) := fun _ _ => rfl
  obtain ⟨S, hS⟩ := exists_confined hinitial h
  apply Backend.settles responsive_program (.inl rfl) hS

/-- Two devices come to rest after one has created a group. -/
theorem groups_settle_created :
  ∃ w : World Bool, run World.initial (started true ++ makesGroup true "g" "t" 1 ++ started false)
    = some w ∧ Settles program w
  := by
  have hrun : (run (World.initial : World Bool) (started true ++ makesGroup true "g" "t" 1
      ++ started false)).isSome := by
    decide +kernel
  obtain ⟨w, hw⟩ := Option.isSome_iff_exists.mp hrun
  use w, hw
  apply groups_settle hw

/-! ### Agreement -/

section Agreement

variable {t : String} {ids : List String} {w w' : World D} {d : D} {e : Event D}

/-- What the devices do by themselves while their chats are shown, nothing failing. -/
def Tending (e : Event D) : Bool :=
  e.Spontaneous && e.Orderly

omit [DecidableEq D] in
theorem conversing_of_tending (h : Tending e) :
  Conversing e
  := by
  cases e <;> simp_all [Tending, Conversing, Event.Spontaneous, Event.Orderly]

/-- All devices show the same group `g` in the chat of `t`, and it is the document on the
server. -/
def Agree (t : String) (g : GroupInfo) (w : World D) : Prop :=
  (∃ doc, w.server.lookup t = some doc ∧ GroupInfo.decode doc = .ok g)
    ∧ ∀ d, ∃ s, (w.device d).app.chat = some s
      ∧ (w.device d).app.groupInfo[s.chat.groupNumber]? = some g

omit [DecidableEq D] in
theorem agree_of_quiescent [Inhabited D] (h : Showing t ids w) (hquiescent : Quiescent w) :
  ∃ g, Agree t g w
  := by
  obtain ⟨-, g, doc, -, -, -, hdoc, hg, -⟩ := showing_quiescent h hquiescent default
  use g, ⟨doc, hdoc, hg⟩
  intro d
  obtain ⟨s, g', doc', hs, hentry, -, hdoc', hg', -⟩ := showing_quiescent h hquiescent d
  obtain rfl : doc = doc' := Option.some.inj (hdoc.symm.trans hdoc')
  obtain rfl : g = g' := Except.ok.inj (hg.symm.trans hg')
  use s, hs

/-- Devices whose rows are in reach, and that have conversed in any way, come to agree by
themselves: there is a bound on the events until then, and whenever no further one can happen all
chats show the same group, which is the one on the server. -/
theorem chats_settle [Fintype D] [Inhabited D] {es : List (Event D)} (h : Steady t ids w)
    (hes : ∀ e ∈ es, Conversing e) (hs : run w es = some w') :
  ∃ n, ∀ es' w'', (∀ e ∈ es', Tending e) → run w' es' = some w'' →
    es'.length ≤ n ∧ ((∀ e, Tending e → step w'' e = none) → ∃ g, Agree t g w'')
  := by
  have hsettles : Settles program w' :=
    Backend.settles (S := Finset.univ) responsive_program (.inl rfl)
      fun d hd => absurd (Finset.mem_univ d) hd
  obtain ⟨n, hn⟩ := hsettles.bounded
  use n
  intro es' w'' hes' hs'
  constructor
  · apply hn es' w'' _ hs'
    intro e he
    exact (Bool.and_eq_true_iff.mp (hes' e he)).1
  · intro hstuck
    have hsteady : Steady t ids w'' := by
      apply steady_run (steady_run h hes hs) _ hs'
      intro e he
      apply conversing_of_tending (hes' e he)
    apply agree_of_quiescent hsteady.showing
    apply quiet_of_stuck responsive_program
    intro e he horderly
    apply hstuck e
    rw [Tending, he, horderly]
    rfl

/-- Two devices that have sent at once come to agree. -/
theorem chats_settle_concurrent :
  ∃ w w' : World Bool, Steady "t" ["t"] w
    ∧ run w [.act true (.commitBtn "a" 2), .act false (.commitBtn "b" 3), .arrive true] = some w'
    ∧ ∃ n, ∀ es' w'', (∀ e ∈ es', Tending e) → run w' es' = some w'' →
      es'.length ≤ n ∧ ((∀ e, Tending e → step w'' e = none) → ∃ g, Agree "t" g w'')
  := by
  have hrun : ∃ w ∈ run World.initial twoChats, Steady "t" ["t"] w
      ∧ (run w [.act true (.commitBtn "a" 2), .act false (.commitBtn "b" 3),
        .arrive true]).isSome := by
    decide +kernel
  obtain ⟨w, -, hsteady, hsome⟩ := hrun
  obtain ⟨w', hw'⟩ := Option.isSome_iff_exists.mp hsome
  use w, w', hsteady, hw'
  apply chats_settle hsteady _ hw'
  decide

/-! ### Turns -/

/-- The chat of every device is in front and has appeared. -/
def Ready (w : World D) : Prop :=
  ∀ d, (w.device d).app.running ∧ (w.device d).app.tab = .talk
    ∧ (w.device d).app.chat.any ChatScreen.appeared

omit [DecidableEq D] in
theorem enabled_commitBtn_iff {app : App} {message : String} {now : Timestamp} :
  enabled (.commitBtn message now) app
    ↔ app.running ∧ app.tab = .talk ∧ app.chat.any ChatScreen.appeared
  := by
  simp [enabled, and_assoc]

/-- The device `m.1` sends the message `m.2` when nothing is outstanding, and the devices come to
rest. -/
structure Turn (w : World D) (m : D × String) (w' : World D) : Prop where
  press : ∃ now w₁ es, step w (.act m.1 (.commitBtn m.2 now)) = some w₁
    ∧ (∀ e ∈ es, Tending e) ∧ run w₁ es = some w'
  quiescent : Quiescent w'

/-- Giving rows to a chat leaves what has appeared. -/
theorem any_giveRows (chat : Chat) (rows : ℕ) (app : App) :
  (TaskGroupDetailViewController.giveRows chat rows app).chat.any ChatScreen.appeared
    = app.chat.any ChatScreen.appeared
  := by
  cases h : app.chat with
  | none => simp [TaskGroupDetailViewController.giveRows, h]
  | some s =>
      simp only [TaskGroupDetailViewController.giveRows, h, Option.map_some, Option.any_some]
      split_ifs <;> rfl

omit [DecidableEq D] in
/-- A handler that runs while the devices converse leaves the chat in front, if the app is not
aborted. -/
theorem ready_handler {c : Client String Document Query Chat} {app : App} {cs : List Command}
    (h : Ready w) (he : Conversing e) (hh : handler program w e = some (d, c, some (app, cs))) :
  app.running ∧ app.tab = .talk ∧ app.chat.any ChatScreen.appeared
  := by
  have hd := h d
  cases e with
  | act d' a =>
      obtain ⟨-, rfl, -, hact⟩ := handler_act.mp hh
      cases a with
      | commitBtn message now =>
          have hact : act (.commitBtn message now) _ = some (app, cs) := hact.symm
          cases does_of_act hact with
          | commitBtn _ _ s g id chat entry reference => apply hd
      | _ => cases he
  | deliver d' i x =>
      obtain ⟨q, k, -, rfl, -, hcall⟩ := handler_deliver.mp hh
      cases q with
      | home =>
          obtain ⟨rfl, -⟩ := Prod.mk.inj (Option.some.inj hcall)
          apply hd
      | list =>
          obtain ⟨rfl, -⟩ := Prod.mk.inj (Option.some.inj hcall)
          apply hd
      | refresh chat =>
          obtain ⟨-, rows, heff | heff⟩ :=
            TaskGroupDetailViewController.completed_cases hcall.symm
          · obtain ⟨rfl, -⟩ := Prod.mk.inj heff
            apply hd
          · obtain ⟨rfl, -⟩ := Prod.mk.inj heff
            use hd.1, hd.2.1
            rw [any_giveRows]
            apply hd.2.2
  | snapshot d' i =>
      obtain ⟨l, -, -, rfl, -, hcall⟩ := handler_snapshot.mp hh
      obtain rfl := listener_app hcall.symm
      apply hd
  | fail d' i => cases he
  | kill d' => cases he
  | arrive d' => simp [handler] at hh
  | answer d' i => simp [handler] at hh

theorem ready_step (h : Ready w) (hsteady : Steady t ids w) (he : Conversing e)
    (hs : step w e = some w') :
  Ready w'
  := by
  have hfit := (steady_step hsteady he hs).showing.fit
  intro f
  rcases app_step hs f with happ | happ | ⟨c, cs, hh, -⟩
  · rw [happ]
    apply h f
  · -- the chat of a stopped app is gone
    obtain ⟨s, hs, -⟩ := (hfit f).chat
    rw [happ] at hs
    cases hs
  · apply ready_handler h he hh

theorem ready_run {es : List (Event D)} (h : Ready w) (hsteady : Steady t ids w)
    (hes : ∀ e ∈ es, Conversing e) (hs : run w es = some w') :
  Ready w'
  := by
  apply (Run.exec_invariant (I := fun w => Ready w ∧ Steady t ids w) (C := fun _ e => Conversing e)
    _ ⟨h, hsteady⟩ (Run.along_of_forall fun _ e he => hes e he) hs).1
  rintro w e w' ⟨hready, hsteady⟩ he hw
  exact ⟨ready_step hready hsteady he hw, steady_step hsteady he hw⟩

/-- While nothing is sent, the register of the group changes by arrivals only. -/
theorem register_of_tending {V : Type} (read : Option Document → V) (t : String) (he : Tending e)
    (hs : step w e = some w') :
  w'.register read t = w.register read t
    ∨ ∃ f, e = .arrive f ∧ w'.register read t = (w.register read t).arrive f
  := by
  rcases step_cases hs with ⟨f, rfl, harrive⟩ | ⟨f, i, rfl, hanswer⟩ | ⟨f, c, r, hh, hsettle⟩
  · obtain ⟨x, ws, hx, -⟩ := arrive_cases harrive
    by_cases hi : x.id = t
    · right
      exact ⟨f, rfl, by simp [register_arrive read t hx harrive, hi]⟩
    · left
      simp [register_arrive read t hx harrive, hi]
  · left
    apply register_answer read t hanswer
  · obtain ⟨hc, -, -⟩ := handler_client hh
    left
    cases r with
    | none => apply register_settle_none read t hc hsettle
    | some eff =>
        obtain ⟨app, cs⟩ := eff
        rcases handler_cases hh with ⟨g, message, now, hs⟩ | ⟨screen, g, hs⟩ | ⟨row, g, hs⟩ | hs
        · obtain rfl := hs.event
          cases he
        · obtain ⟨_, _, _, rfl, -⟩ := hs.event
          cases he
        · obtain rfl := hs.event
          cases he
        · rw [register_settle read t hc hsettle, hs.written]
          simp

/-- The value `v` is the last word of the device `d`, and no other device has a write under
way. -/
structure Speaks (t : String) (d : D) (v : List String) (w : World D) : Prop where
  lastWord : (w.register talks t).LastWord d v
  others : ∀ f, f ≠ d → (w.register talks t).queue f = []

theorem speaks_step {v : List String} (h : Speaks t d v w) (he : Tending e)
    (hs : step w e = some w') :
  Speaks t d v w'
  := by
  rcases register_of_tending talks t he hs with heq | ⟨f, -, heq⟩
  · exact ⟨heq ▸ h.lastWord, heq ▸ h.others⟩
  · constructor
    · rw [heq]
      apply h.lastWord.arrive
      intro _ _ f' hf' v' hv'
      rw [h.others f' hf'] at hv'
      cases hv'
    · intro f' hf'
      rw [heq]
      rcases eq_or_ne f' f with rfl | hne
      · rw [Register.arrive_queue_self, h.others f' hf']
        rfl
      · rw [Register.arrive_queue_of_ne hne, h.others f' hf']

theorem speaks_run {es : List (Event D)} {v : List String} (h : Speaks t d v w)
    (hes : ∀ e ∈ es, Tending e) (hs : run w es = some w') :
  Speaks t d v w'
  := by
  apply Run.exec_invariant (fun w e w' hw he hs => speaks_step hw he hs) h _ hs
  apply Run.along_of_forall
  intro w e he
  apply hes e he

omit [DecidableEq D] in
theorem queue_of_quiescent {V : Type*} {read : Option Document → V} (h : Quiescent w) (f : D) :
  (w.register read t).queue f = []
  := by
  simp [World.register, (h f).1]

/-- The device that sends when nothing is outstanding has the last word: the messages on the
server and its own. -/
theorem speaks_of_press {message : String} {now : Timestamp} (h : Showing t ids w)
    (hquiescent : Quiescent w) (hs : step w (.act d (.commitBtn message now)) = some w') :
  Speaks t d (GroupInfo.extendTalks (talks (w.server.lookup t)) message) w'
  := by
  obtain ⟨s, g, doc, hchat, hentry, -, hdoc, hg, rfl⟩ := showing_quiescent h hquiescent d
  have haddressed : addressed w d = some g := by
    rw [addressed, hchat, Option.bind_some, hentry]
  have htalks : talks (w.server.lookup g.taskId) = g.groupMemberTalks := by
    simp [talks, hdoc, hg]
  have hregister := register_of_press talks haddressed (h.isSegment d) hs
  rw [talks_encode] at hregister
  rw [htalks]
  constructor
  · rw [hregister]
    apply Register.lastWord_issue
  · intro f hf
    rw [hregister, Register.issue_queue_of_ne hf, queue_of_quiescent hquiescent]

omit [DecidableEq D] in
/-- When nothing is outstanding, the server holds the last word. -/
theorem talks_of_speaks {v : List String} (h : Speaks t d v w) (hquiescent : Quiescent w) :
  talks (w.server.lookup t) = v
  := by
  rcases h.lastWord with ⟨vs, hvs⟩ | ⟨-, hvalue, -⟩
  · simp [queue_of_quiescent hquiescent] at hvs
  · apply hvalue

/-- The devices show the chat of `t`, with their rows in reach, and are at rest, and the messages
are `v`. -/
structure AtRest (t : String) (ids : List String) (v : List String) (w : World D) : Prop where
  steady : Steady t ids w
  ready : Ready w
  quiescent : Quiescent w
  talks : talks (w.server.lookup t) = v

theorem atRest_of_turn {v : List String} {m : D × String} (h : AtRest t ids v w)
    (hturn : Turn w m w') :
  AtRest t ids (GroupInfo.extendTalks v m.2) w'
  := by
  obtain ⟨⟨now, w₁, es, hpress, hes, hrun⟩, hquiescent⟩ := hturn
  have hes' : ∀ e ∈ es, Conversing e := fun e he => conversing_of_tending (hes e he)
  have hcommit : Conversing (.act m.1 (.commitBtn m.2 now) : Event D) := rfl
  have hsteady := steady_step h.steady hcommit hpress
  have hspeaks := speaks_of_press h.steady.showing h.quiescent hpress
  rw [h.talks] at hspeaks
  constructor
  · apply steady_run hsteady hes' hrun
  · apply ready_run (ready_step h.ready h.steady hcommit hpress) hsteady hes' hrun
  · apply hquiescent
  · apply talks_of_speaks (speaks_run hspeaks hes hrun) hquiescent

/-- A device at rest can take its turn. -/
theorem exists_turn [Fintype D] {v : List String} (h : AtRest t ids v w) (m : D × String) :
  ∃ w', Turn w m w'
  := by
  obtain ⟨s, g, doc, hchat, hentry, -, -, -, rfl⟩ :=
    showing_quiescent h.steady.showing h.quiescent m.1
  have hact : act (.commitBtn m.2 0) (w.device m.1).app = some
      ({ (w.device m.1).app with
        groupInfo := (w.device m.1).app.groupInfo.set s.chat.groupNumber (g.send m.2 0) },
      [.write (.set g.taskId (g.send m.2 0).encode), .listen g.taskId s.chat]) := by
    rw [act, hchat, Option.bind_some]
    apply TaskGroupDetailViewController.commitBtn_eq_some hentry (h.steady.showing.isSegment m.1)
  have henabled : enabled (.commitBtn m.2 0) (w.device m.1).app :=
    enabled_commitBtn_iff.mpr (h.ready m.1)
  have hpress : program.enabled (.commitBtn m.2 0) (w.device m.1).app := henabled
  obtain ⟨w₁, hw₁⟩ := exists_act hpress hact rfl
  have hconfined : Confined Finset.univ w₁ := fun d hd => absurd (Finset.mem_univ d) hd
  obtain ⟨es, w', hes, hrun, hquiet⟩ :=
    (Backend.settles responsive_program (.inl rfl) hconfined).reaches
  refine ⟨w', ⟨0, w₁, es, hw₁, ?_, hrun⟩, hquiet⟩
  intro e he
  simp [Tending, hes e he]

/-- Devices that take turns write one chat together: they can always take the next turn, and
after any turns the chat of every device shows the messages there were and then those of the
turns in their order, none lost, doubled or out of place. -/
theorem turns_exact [Fintype D] [Inhabited D] {ms : List (D × String)} {v : List String}
    (h : AtRest t ids v w) :
  (∃ w', Turns Turn w ms w')
    ∧ ∀ w', Turns Turn w ms w' →
      ∃ g, Agree t g w' ∧ g.groupMemberTalks = (ms.map Prod.snd).foldl GroupInfo.extendTalks v
  := by
  have hkeeps : ∀ (w w' : World D) m v, AtRest t ids v w → Turn w m w' →
      ∃ v', some (GroupInfo.extendTalks v m.2) = some v' ∧ AtRest t ids v' w' :=
    fun w w' m v h hturn => ⟨_, rfl, atRest_of_turn h hturn⟩
  have hexec : Run.exec (fun v (m : D × String) => some (GroupInfo.extendTalks v m.2)) v ms
      = some ((ms.map Prod.snd).foldl GroupInfo.extendTalks v) := by
    rw [Turns.exec_some, List.foldl_map]
  constructor
  · apply Turns.exists_of_exec (R := fun w v => AtRest t ids v w) hkeeps _ h hexec
    intro w m v v' h _
    apply exists_turn h
  · intro w' hturns
    obtain ⟨v', hv', hrest⟩ :=
      Turns.simulates (R := fun w v => AtRest t ids v w) hkeeps h hturns
    obtain rfl : _ = v' := Option.some.inj (hexec.symm.trans hv')
    obtain ⟨g, hagree⟩ := agree_of_quiescent hrest.steady.showing hrest.quiescent
    use g, hagree
    obtain ⟨doc, hdoc, hg⟩ := hagree.1
    rw [← hrest.talks]
    simp [talks, hdoc, hg]

/-- Two devices show the chat of a new group and are at rest, each with one listener. -/
theorem exists_atRest :
  ∃ w : World Bool, AtRest "t" ["t"] [] w
    ∧ ∀ d, (w.device d).client.listeners.map Listener.doc = ["t"]
  := by
  have hrun : ∃ w ∈ run World.initial (twoChats ++ [.snapshot true 0, .snapshot false 0,
      .answer true 0, .answer false 0, .deliver true 0 (), .deliver false 0 ()]),
      Steady "t" ["t"] w ∧ (∀ d, (w.device d).app.running ∧ (w.device d).app.tab = .talk
        ∧ (w.device d).app.chat.any ChatScreen.appeared) ∧ Quiescent w
        ∧ talks (w.server.lookup "t") = []
        ∧ ∀ d, (w.device d).client.listeners.map Listener.doc = ["t"] := by
    decide +kernel
  obtain ⟨w, -, hsteady, hready, hquiescent, htalks, hlisteners⟩ := hrun
  use w, ⟨hsteady, hready, hquiescent, htalks⟩

/-- Two devices that show the chat of a new group take turns. -/
theorem turns_exact_two :
  ∃ w : World Bool, AtRest "t" ["t"] [] w
    ∧ (∃ w', Turns Turn w [(true, "a"), (false, "b"), (true, "c")] w')
    ∧ ∀ w', Turns Turn w [(true, "a"), (false, "b"), (true, "c")] w' →
      ∃ g, Agree "t" g w' ∧ g.groupMemberTalks = ["", "", "", "", "", "a", "b", "c"]
  := by
  obtain ⟨w, hrest, -⟩ := exists_atRest
  use w, hrest
  apply turns_exact hrest

end Agreement

end Groups

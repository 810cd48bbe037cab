import TaskFirestoreApp.Groups.Effects

/-!
# Refreshes of the list of groups

A refresh replaces `groupInfo` by the groups its query finds. `restoreDataFromFirestore`
clears the list before the query is requested, `observeRealTimeFirestore` in the callback
before the error is looked at. A refresh shows the whole list from before or all that was
found, and nothing else, when there was nothing to lose, or when it succeeds and what it shows
meanwhile is one of the two.
-/

namespace Groups

open Backend

/-- The functions that refresh the list. -/
inductive Refresh where
  | restoreDataFromFirestore
  | observeRealTimeFirestore
  deriving DecidableEq

namespace Refresh

/-- The query of a refresh. -/
def Asks (r : Refresh) (q : Query) : Prop :=
  match r with
  | .restoreDataFromFirestore => q = .list
  | .observeRealTimeFirestore => ∃ chat, q = .refresh chat

/-- The list that is shown while the query is under way. -/
def meanwhile (r : Refresh) (before : List GroupInfo) : List GroupInfo :=
  match r with
  | .restoreDataFromFirestore => []
  | .observeRealTimeFirestore => before

/-- There was nothing to lose, or the query succeeds, and finds nothing if the list was cleared
before it. -/
def Spares (r : Refresh) (before : List GroupInfo)
    (outcome : Option (Collection String Document)) : Prop :=
  before = [] ∨ ∃ c ∈ outcome, r = .restoreDataFromFirestore → loaded c = []

instance (r : Refresh) (before : List GroupInfo) (outcome : Option (Collection String Document)) :
    Decidable (r.Spares before outcome) :=
  inferInstanceAs (Decidable (_ ∨ _))

end Refresh

/-- The list that `restoreDataFromFirestore` finds, if the action calls it. The row that is swiped
has been removed by then. -/
def Action.restores (a : Action) (app : App) : Option (List GroupInfo) :=
  match a with
  | .selectTab .talk => if app.chat = none then some app.groupInfo else none
  | .back => some app.groupInfo
  | .backCancelled => some app.groupInfo
  | .commitEditing row => GroupInfoManager.removeGroupInfo row app.groupInfo
  | _ => none

variable {D : Type} [DecidableEq D]

/-- The refresh that an event of the device `d` starts, if any, and the list it finds. A listener
starts one when its document is there. -/
def starts (w : World D) (d : D) : Event D → Option (Refresh × List GroupInfo)
  | .act f a =>
      if f = d then
        (a.restores (w.device d).app).map fun before => (.restoreDataFromFirestore, before)
      else
        none
  | .snapshot f i =>
      if f = d then
        ((w.device d).client.listeners[i]?.bind fun l => (w.view d).lookup l.doc).map
          fun _ => (.observeRealTimeFirestore, (w.device d).app.groupInfo)
      else
        none
  | _ => none

/-- The end of a load of the device `d`, if the event is one: the collection that was found, or
an error. -/
def ends (w : World D) (d : D) : Event D → Option (Option (Collection String Document))
  | .deliver f i _ => if f = d then (w.device d).client.results[i]?.map fun r => some r.2 else none
  | .fail f i => if f = d then (w.device d).client.requests[i]?.map fun _ => none else none
  | _ => none

/-- The app of the device `d` runs, and no load is under way. -/
structure Idle (w : World D) (d : D) : Prop where
  running : (w.device d).app.running = true
  requests : (w.device d).client.requests = []
  results : (w.device d).client.results = []

/-- The device `d` starts no load, ends none and writes nothing. -/
def Alone (d : D) (w : World D) (e : Event D) : Prop :=
  ends w d e = none ∧ ∀ h ∈ handler program w e, h.1 = d → ∀ eff ∈ h.2.2,
    eff.2.filterMap Backend.Command.written = []
      ∧ eff.2.filterMap Backend.Command.requested = []

instance (d : D) (w : World D) (e : Event D) : Decidable (Alone d w e) :=
  inferInstanceAs (Decidable (_ ∧ _))

/-- The screens of the device `d` see the whole list from before, or all that was found. -/
def AllOrNothing (d : D) (before : List GroupInfo) (outcome : Option (Collection String Document))
    (w : World D) : Prop :=
  (w.device d).app.running = true →
    (w.device d).app.groupInfo = before ∨ ∃ c ∈ outcome, (w.device d).app.groupInfo = loaded c

/-! ### While the query is under way -/

/-- The query `q` of the device is under way, and the list is `groupInfo`. -/
structure Waits (q : Query) (groupInfo : List GroupInfo)
    (dev : Device App String Document Query Chat) : Prop where
  running : dev.app.running = true
  groupInfo : dev.app.groupInfo = groupInfo
  load : dev.client.requests = [q] ∧ dev.client.results = []
    ∨ dev.client.requests = [] ∧ ∃ c, dev.client.results = [(q, c)]

/-- The app of the device has been aborted or killed. -/
structure Stopped (dev : Device App String Document Query Chat) : Prop where
  running : dev.app.running = false
  requests : dev.client.requests = []
  results : dev.client.results = []

section Step

variable {w w' : World D} {e : Event D} {d : D} {r : Refresh} {before groupInfo : List GroupInfo}
  {q : Query} {outcome : Option (Collection String Document)} {a : Action} {app app' : App}
  {cs : List Command}

omit [DecidableEq D] in
/-- An action that writes nothing and starts no load leaves the list as it is. -/
theorem groupInfo_of_act (h : act a app = some (app', cs))
    (hwritten : cs.filterMap Backend.Command.written = [])
    (hrequested : cs.filterMap Backend.Command.requested = []) :
  app'.running = app.running ∧ app'.groupInfo = app.groupInfo
  := by
  cases does_of_act h with
  | launch | selectList | commitEditing | back | backCancelled => cases hrequested
  | commitBtn | makeGroup => cases hwritten
  | _ => exact ⟨rfl, rfl⟩

/-- A handler that writes nothing, and neither starts nor ends a load, leaves the list and the
loads as they are. -/
theorem handler_of_alone {c : Client String Document Query Chat} (h : ends w d e = none)
    (hh : handler program w e = some (d, c, some (app, cs)))
    (hwritten : cs.filterMap Backend.Command.written = [])
    (hrequested : cs.filterMap Backend.Command.requested = []) :
  (app.running = (w.device d).app.running ∧ app.groupInfo = (w.device d).app.groupInfo)
    ∧ c.requests = (w.device d).client.requests ∧ c.results = (w.device d).client.results
  := by
  cases e with
  | act d' a =>
      obtain ⟨-, rfl, rfl, hact⟩ := handler_act.mp hh
      exact ⟨groupInfo_of_act hact.symm hwritten hrequested, rfl, rfl⟩
  | snapshot d' i =>
      obtain ⟨l, -, -, rfl, rfl, hlistener⟩ := handler_snapshot.mp hh
      obtain rfl := listener_app hlistener.symm
      exact ⟨⟨rfl, rfl⟩, rfl, rfl⟩
  | deliver d' i x =>
      obtain ⟨q, k, hk, rfl, -⟩ := handler_deliver.mp hh
      simp [ends, hk] at h
  | fail d' i =>
      obtain ⟨q, hq, rfl, -⟩ := handler_fail.mp hh
      simp [ends, hq] at h
  | kill d' => simp [handler] at hh
  | arrive d' => simp [handler] at hh
  | answer d' i => simp [handler] at hh

/-- A step of the device alone leaves its list and its loads as they are, answers one of its
queries, or stops its app. -/
theorem device_of_alone (h : Alone d w e) (hs : step w e = some w') :
  Stopped (w'.device d)
    ∨ ((w'.device d).app.running = (w.device d).app.running
        ∧ (w'.device d).app.groupInfo = (w.device d).app.groupInfo)
      ∧ (((w'.device d).client.requests = (w.device d).client.requests
          ∧ (w'.device d).client.results = (w.device d).client.results)
        ∨ ∃ i q, (w.device d).client.requests[i]? = some q
          ∧ (w'.device d).client.requests = (w.device d).client.requests.eraseIdx i
          ∧ (w'.device d).client.results = (w.device d).client.results ++ [(q, w.view d)])
  := by
  rcases step_cases hs with ⟨f, rfl, harrive⟩ | ⟨f, i, rfl, hanswer⟩ | ⟨f, c, eff, hh, hsettle⟩
  · obtain ⟨happ, hrequests, hresults⟩ := arrive_device harrive d
    right
    rw [happ]
    exact ⟨⟨rfl, rfl⟩, .inl ⟨hrequests, hresults⟩⟩
  · obtain ⟨q, hq, rfl⟩ := answer_cases hanswer
    right
    rcases eq_or_ne d f with rfl | hd
    · rw [World.put_device_self]
      exact ⟨⟨rfl, rfl⟩, .inr ⟨i, q, hq, rfl, rfl⟩⟩
    · rw [World.put_device_of_ne hd]
      exact ⟨⟨rfl, rfl⟩, .inl ⟨rfl, rfl⟩⟩
  · rcases eq_or_ne d f with rfl | hd
    · cases eff with
      | none =>
          left
          rw [settle_self_none hsettle]
          exact ⟨rfl, rfl, rfl⟩
      | some eff =>
          obtain ⟨hwritten, hrequested⟩ := h.2 _ hh rfl eff rfl
          obtain ⟨happ, -, hrequests, hresults⟩ := settle_self hsettle
          obtain ⟨hsame, hrequests', hresults'⟩ :=
            handler_of_alone h.1 hh hwritten hrequested
          right
          rw [happ, hrequests, hresults, hrequested, hrequests', hresults', List.append_nil]
          exact ⟨hsame, .inl ⟨rfl, rfl⟩⟩
    · right
      rw [settle_device_of_ne hsettle hd]
      exact ⟨⟨rfl, rfl⟩, .inl ⟨rfl, rfl⟩⟩

/-- An app that was stopped stays so as long as the device is alone. -/
theorem stopped_step (h : Stopped (w.device d)) (halone : Alone d w e)
    (hs : step w e = some w') :
  Stopped (w'.device d)
  := by
  rcases device_of_alone halone hs with hstopped | ⟨⟨hrunning, -⟩, ⟨hrequests, hresults⟩ | hanswer⟩
  · apply hstopped
  · constructor
    · rw [hrunning, h.running]
    · rw [hrequests, h.requests]
    · rw [hresults, h.results]
  · obtain ⟨i, q, hq, -⟩ := hanswer
    simp [h.requests] at hq

/-- A query stays under way, and the list what it is, as long as the device is alone and its app
is not stopped. -/
theorem waits_step (h : Waits q groupInfo (w.device d)) (halone : Alone d w e)
    (hs : step w e = some w') :
  Waits q groupInfo (w'.device d) ∨ Stopped (w'.device d)
  := by
  rcases device_of_alone halone hs with
    hstopped | ⟨⟨hrunning, hgroupInfo⟩, ⟨hrequests, hresults⟩ | ⟨i, q', hq, hrequests, hresults⟩⟩
  · right
    apply hstopped
  · left
    constructor
    · rw [hrunning, h.running]
    · rw [hgroupInfo, h.groupInfo]
    · rw [hrequests, hresults]
      apply h.load
  · left
    constructor
    · rw [hrunning, h.running]
    · rw [hgroupInfo, h.groupInfo]
    · rcases h.load with ⟨hpending, hnone⟩ | ⟨hnone, -⟩
      · rw [hpending, List.getElem?_singleton, Option.ite_none_right_eq_some] at hq
        obtain ⟨rfl, hq⟩ := hq
        obtain rfl := Option.some.inj hq
        rw [hpending] at hrequests
        rw [hnone] at hresults
        right
        exact ⟨hrequests, _, hresults⟩
      · simp [hnone] at hq

/-! ### The start and the end of a refresh -/

omit [DecidableEq D] in
/-- An action that restores the list clears it and asks for it. -/
theorem act_of_restores (hrestores : a.restores app = some before)
    (h : act a app = some (app', cs)) :
  app'.running = app.running ∧ app'.groupInfo = []
    ∧ cs.filterMap Backend.Command.requested = [.list]
  := by
  cases does_of_act h with
  | selectList | commitEditing | back | backCancelled => exact ⟨rfl, rfl, rfl⟩
  | selectChat s chat => simp [Action.restores, chat] at hrestores
  | _ => cases hrestores

/-- After `restoreDataFromFirestore` was called the list is empty and its load is under way; a
swipe may abort the app. -/
theorem waits_of_restores (hidle : Idle w d) (hrestores : a.restores (w.device d).app = some before)
    (hs : step w (.act d a) = some w') :
  Waits .list [] (w'.device d) ∨ Stopped (w'.device d)
  := by
  obtain ⟨⟨f, c, eff⟩, hh, hsettle⟩ := Option.bind_eq_some_iff.mp hs
  obtain ⟨-, rfl, rfl, hact⟩ := handler_act.mp hh
  cases eff with
  | none =>
      right
      rw [settle_self_none hsettle]
      exact ⟨rfl, rfl, rfl⟩
  | some eff =>
      obtain ⟨hrunning, hgroupInfo, hrequested⟩ := act_of_restores hrestores hact.symm
      obtain ⟨happ, -, hrequests, hresults⟩ := settle_self hsettle
      left
      constructor
      · rw [happ, hrunning, hidle.running]
      · rw [happ, hgroupInfo]
      · left
        rw [hrequests, hresults, hrequested, hidle.requests, hidle.results]
        exact ⟨rfl, rfl⟩

/-- After the document of a chat has changed the list is as it was and a refresh is under
way. -/
theorem waits_of_observes {i : ℕ} {l : Listener String Chat} {doc : Document} (hidle : Idle w d)
    (hl : (w.device d).client.listeners[i]? = some l) (hdoc : (w.view d).lookup l.doc = some doc)
    (hs : step w (.snapshot d i) = some w') :
  Waits (.refresh l.tag) (w.device d).app.groupInfo (w'.device d)
  := by
  obtain ⟨⟨f, c, eff⟩, hh, hsettle⟩ := Option.bind_eq_some_iff.mp hs
  obtain ⟨l', hl', -, rfl, rfl, hlistener⟩ := handler_snapshot.mp hh
  obtain rfl := Option.some.inj (hl.symm.trans hl')
  have heff : eff = some ((w.device d).app, [.get (.refresh l.tag)]) := by
    rw [hlistener, hdoc]
    rfl
  subst heff
  obtain ⟨happ, -, hrequests, hresults⟩ := settle_self hsettle
  constructor
  · rw [happ, hidle.running]
  · rw [happ]
  · left
    rw [hrequests, hresults, hidle.requests, hidle.results]
    exact ⟨rfl, rfl⟩

/-- After its start a refresh waits for its query, with the list cleared or as it was. -/
theorem waits_of_starts (hidle : Idle w d) (hstart : starts w d e = some (r, before))
    (hs : step w e = some w') :
  (∃ q, r.Asks q ∧ Waits q (r.meanwhile before) (w'.device d)) ∨ Stopped (w'.device d)
  := by
  cases e with
  | act f a =>
      simp only [starts, Option.ite_none_right_eq_some, Option.map_eq_some_iff, Prod.mk.injEq]
        at hstart
      obtain ⟨rfl, _, hrestores, rfl, rfl⟩ := hstart
      apply (waits_of_restores hidle hrestores hs).imp_left
      intro hwaits
      exact ⟨.list, rfl, hwaits⟩
  | snapshot f i =>
      simp only [starts, Option.ite_none_right_eq_some, Option.map_eq_some_iff,
        Option.bind_eq_some_iff, Prod.mk.injEq] at hstart
      obtain ⟨rfl, doc, ⟨l, hl, hdoc⟩, rfl, rfl⟩ := hstart
      left
      exact ⟨.refresh l.tag, ⟨l.tag, rfl⟩, waits_of_observes hidle hl hdoc hs⟩
  | _ => cases hstart

omit [DecidableEq D] in
/-- The callback of a refresh leaves what was found. -/
theorem groupInfo_of_callback {k : Collection String Document} (hasks : r.Asks q)
    (hgroupInfo : app.groupInfo = r.meanwhile before)
    (h : callback q k () app = some (app', cs)) :
  app'.groupInfo = loaded k
  := by
  cases r with
  | restoreDataFromFirestore =>
      obtain rfl := hasks
      obtain ⟨rfl, rfl⟩ := Prod.mk.inj (Option.some.inj h.symm)
      change appendDocuments _ app.groupInfo = _
      rw [hgroupInfo]
      apply appendDocuments_nil
  | observeRealTimeFirestore =>
      obtain ⟨chat, rfl⟩ := hasks
      obtain ⟨-, rows, h | h⟩ := TaskGroupDetailViewController.completed_cases h
      · obtain ⟨rfl, rfl⟩ := Prod.mk.inj h
        rfl
      · obtain ⟨rfl, rfl⟩ := Prod.mk.inj h
        rfl

omit [DecidableEq D] in
/-- A refresh whose query fails leaves nothing. -/
theorem failed_of_asks (hasks : r.Asks q) (hgroupInfo : app.groupInfo = r.meanwhile before) :
  failed q app = some ({ app with groupInfo := [] }, [])
  := by
  cases r with
  | restoreDataFromFirestore =>
      obtain rfl := hasks
      change some (app, []) = _
      have hnil : app.groupInfo = [] := hgroupInfo
      rw [← hnil]
  | observeRealTimeFirestore =>
      obtain ⟨chat, rfl⟩ := hasks
      rfl

omit [DecidableEq D] in
/-- The query that is answered, and the one that is not, is the one that is waited for. -/
theorem Waits.query {dev : Device App String Document Query Chat} {q' : Query} {i : ℕ}
    (h : Waits q groupInfo dev)
    (hq : dev.client.requests[i]? = some q' ∨ ∃ k, dev.client.results[i]? = some (q', k)) :
  q' = q
  := by
  rcases h.load with ⟨hrequests, hresults⟩ | ⟨hrequests, k', hresults⟩
  · rw [hrequests, hresults] at hq
    simp only [List.getElem?_singleton, Option.ite_none_right_eq_some, List.getElem?_nil] at hq
    rcases hq with ⟨-, hq⟩ | ⟨k, hq⟩
    · exact (Option.some.inj hq).symm
    · cases hq
  · rw [hrequests, hresults] at hq
    simp only [List.getElem?_singleton, Option.ite_none_right_eq_some, List.getElem?_nil] at hq
    rcases hq with hq | ⟨k, -, hq⟩
    · cases hq
    · exact (Prod.mk.inj (Option.some.inj hq)).1.symm

/-- At its end a refresh shows what was found, if the app is not aborted, and nothing at all when
the query has failed. -/
theorem groupInfo_of_ends (hasks : r.Asks q) (h : Waits q (r.meanwhile before) (w.device d))
    (hends : ends w d e = some outcome) (hs : step w e = some w') :
  (outcome = none ∧ (w'.device d).app.running = true ∧ (w'.device d).app.groupInfo = [])
    ∨ ∃ c, outcome = some c
      ∧ ((w'.device d).app.running = true → (w'.device d).app.groupInfo = loaded c)
  := by
  cases e with
  | deliver f i x =>
      obtain ⟨⟨f', c, eff⟩, hh, hsettle⟩ := Option.bind_eq_some_iff.mp hs
      obtain ⟨q', k, hk, rfl, rfl, hcallback⟩ := handler_deliver.mp hh
      simp only [ends, Option.ite_none_right_eq_some, Option.map_eq_some_iff] at hends
      obtain ⟨rfl, _, hk', rfl⟩ := hends
      obtain rfl := Option.some.inj (hk.symm.trans hk')
      obtain rfl := h.query (.inr ⟨k, hk⟩)
      right
      use k, rfl
      cases eff with
      | none =>
          intro hrunning
          rw [settle_self_none hsettle] at hrunning
          cases hrunning
      | some eff =>
          obtain ⟨app, cs⟩ := eff
          intro _
          rw [(settle_self hsettle).1]
          apply groupInfo_of_callback hasks h.groupInfo hcallback.symm
  | fail f i =>
      obtain ⟨⟨f', c, eff⟩, hh, hsettle⟩ := Option.bind_eq_some_iff.mp hs
      obtain ⟨q', hq', rfl, rfl, hfailed⟩ := handler_fail.mp hh
      simp only [ends, Option.ite_none_right_eq_some, Option.map_eq_some_iff] at hends
      obtain ⟨rfl, _, -, rfl⟩ := hends
      obtain rfl := h.query (.inl hq')
      have heff : eff = some ({ (w.device f).app with groupInfo := [] }, []) := by
        rw [hfailed]
        apply failed_of_asks hasks h.groupInfo
      subst heff
      left
      use rfl
      rw [(settle_self hsettle).1]
      exact ⟨h.running, rfl⟩
  | _ => cases hends

/-! ### Runs -/

theorem stopped_of_run {es : List (Event D)} (h : Stopped (w.device d))
    (halone : Run.Along step (Alone d) w es) (hs : run w es = some w') :
  Stopped (w'.device d)
  := by
  apply Run.exec_invariant (I := fun w => Stopped (w.device d)) _ h halone hs
  intro w e w' hw halone hs
  apply stopped_step hw halone hs

theorem waits_of_run {es : List (Event D)} (h : Waits q groupInfo (w.device d))
    (halone : Run.Along step (Alone d) w es) (hs : run w es = some w') :
  Waits q groupInfo (w'.device d) ∨ Stopped (w'.device d)
  := by
  apply Run.exec_invariant
    (I := fun w => Waits q groupInfo (w.device d) ∨ Stopped (w.device d)) _ (.inl h) halone hs
  rintro w e w' (hw | hw) halone hs
  · apply waits_step hw halone hs
  · right
    apply stopped_step hw halone hs

/-- No load of an app that was stopped ends. -/
theorem ends_of_stopped (h : Stopped (w.device d)) :
  ends w d e = none
  := by
  cases e with
  | deliver f i x => simp [ends, h.results]
  | fail f i => simp [ends, h.requests]
  | _ => rfl

omit [DecidableEq D] in
theorem allOrNothing_of_stopped (h : Stopped (w.device d)) :
  AllOrNothing d before outcome w
  := by
  intro hrunning
  simp [h.running] at hrunning

omit [DecidableEq D] in
/-- What is seen while the query is under way is whole when nothing is lost. -/
theorem allOrNothing_of_waits (h : Waits q (r.meanwhile before) (w.device d))
    (hspares : r.Spares before outcome) :
  AllOrNothing d before outcome w
  := by
  intro _
  rw [h.groupInfo]
  cases r with
  | observeRealTimeFirestore =>
      left
      rfl
  | restoreDataFromFirestore =>
      rcases hspares with rfl | ⟨c, hc, hnil⟩
      · left
        rfl
      · right
        use c, hc
        rw [hnil rfl]
        rfl

/-- With no other load of the device under way, the screens see the whole list from before or
all that was found, from the start of a refresh until its callback has finished, exactly when the
list was empty before, or the query succeeds, and finds nothing if the list was cleared before
it. -/
theorem refresh_allOrNothing_iff {e₀ : Event D} {es : List (Event D)} {w₁ w₂ w₃ : World D}
    (hidle : Idle w d) (hstart : starts w d e₀ = some (r, before)) (h₁ : step w e₀ = some w₁)
    (halone : Run.Along step (Alone d) w₁ es) (h₂ : run w₁ es = some w₂)
    (hends : ends w₂ d e = some outcome) (h₃ : step w₂ e = some w₃) :
  Run.Throughout step (AllOrNothing d before outcome) w₁ (es ++ [e]) ↔ r.Spares before outcome
  := by
  have hrunning₂ : ¬ Stopped (w₂.device d) := by
    intro hstopped
    simp [ends_of_stopped hstopped] at hends
  obtain ⟨q, hasks, hwaits₁⟩ := (waits_of_starts hidle hstart h₁).resolve_right fun hstopped =>
    hrunning₂ (stopped_of_run hstopped halone h₂)
  have hwaits₂ := (waits_of_run hwaits₁ halone h₂).resolve_right hrunning₂
  have hlast := groupInfo_of_ends hasks hwaits₂ hends h₃
  rw [Run.throughout_snoc h₂ h₃]
  constructor
  · rintro ⟨hall, hend⟩
    rcases hlast with ⟨rfl, hrunning, hnil⟩ | ⟨c, rfl, -⟩
    · rcases hend hrunning with hbefore | ⟨c, hc, -⟩
      · left
        rw [← hbefore, hnil]
      · cases hc
    · cases r with
      | observeRealTimeFirestore =>
          right
          use c, rfl
          intro hr
          cases hr
      | restoreDataFromFirestore =>
          have hstart := hall [] es w₁ rfl rfl hwaits₁.running
          rw [hwaits₁.groupInfo] at hstart
          rcases hstart with hbefore | ⟨c, hc, hloaded⟩
          · left
            apply hbefore.symm
          · right
            use c, hc
            intro _
            apply hloaded.symm
  · intro hspares
    constructor
    · rintro es₁ es₂ w' rfl h'
      have halone₁ := ((Run.along_append h').mp halone).1
      rcases waits_of_run hwaits₁ halone₁ h' with hwaits | hstopped
      · apply allOrNothing_of_waits hwaits hspares
      · apply allOrNothing_of_stopped hstopped
    · intro hrunning
      rcases hlast with ⟨rfl, -, hnil⟩ | ⟨c, rfl, hloaded⟩
      · left
        rcases hspares with rfl | ⟨c, hc, -⟩
        · apply hnil
        · cases hc
      · right
        use c, rfl
        apply hloaded hrunning

end Step

/-- A device with the only group stored shows its list and opens its chat. -/
def inChat : List (Event Unit) :=
  started () ++ makesGroup () "g" "t" 1 ++ [.arrive ()] ++ opensList () ++ opensChat () 0

/-- The chat is refreshed, and its table asks for the number of rows meanwhile. -/
theorem refresh_allOrNothing_chat :
  ∃ w ∈ run World.initial inChat, ∃ w₁ ∈ step w (.snapshot () 0), ∃ c,
    Run.Throughout step (AllOrNothing () (w.device ()).app.groupInfo (some c)) w₁
      ([.act () .numberOfRowsInSection, .answer () 0] ++ [.deliver () 0 ()])
  := by
  have hrun : ∃ w ∈ run World.initial inChat, (w.device ()).app.running = true
      ∧ (w.device ()).client.requests = [] ∧ (w.device ()).client.results = []
      ∧ starts w () (.snapshot () 0)
        = some (.observeRealTimeFirestore, (w.device ()).app.groupInfo)
      ∧ ∃ w₁ ∈ step w (.snapshot () 0),
        Run.Along step (Alone ()) w₁ [.act () .numberOfRowsInSection, .answer () 0]
        ∧ ∃ w₂ ∈ run w₁ [.act () .numberOfRowsInSection, .answer () 0],
          (step w₂ (.deliver () 0 ())).isSome
          ∧ ∃ outcome ∈ ends w₂ () (.deliver () 0 ()), ∃ c ∈ outcome,
            Refresh.observeRealTimeFirestore.Spares (w.device ()).app.groupInfo (some c) := by
    decide +kernel
  obtain ⟨w, hw, hrunning, hrequests, hresults, hstart, w₁, h₁, halone, w₂, h₂, h₃, outcome,
    hends, c, rfl, hspares⟩ := hrun
  obtain ⟨w₃, h₃⟩ := Option.isSome_iff_exists.mp h₃
  use w, hw, w₁, h₁, c
  apply (refresh_allOrNothing_iff ⟨hrunning, hrequests, hresults⟩ hstart h₁ halone h₂ hends h₃).mpr
  apply hspares

/-- A refresh of a device alone whose query fails leaves the list from before. -/
def FailureKeeps (r : Refresh) : Prop :=
  ∀ (es : List (Event Unit)) (e₀ : Event Unit) (before : List GroupInfo) (w w₁ w₂ : World Unit),
    run World.initial es = some w → Idle w () → starts w () e₀ = some (r, before) →
    step w e₀ = some w₁ → step w₁ (.fail () 0) = some w₂ → AllOrNothing () before none w₂

/-- The only group is lost when there are an event that starts a refresh and a failure of its
query. -/
theorem not_failureKeeps {r : Refresh} (e₀ : Event Unit)
    (h : ∃ w ∈ run World.initial inChat, (w.device ()).app.running = true
      ∧ (w.device ()).client.requests = [] ∧ (w.device ()).client.results = []
      ∧ ∃ p ∈ starts w () e₀, p.1 = r ∧ p.2 ≠ []
      ∧ ∃ w₁ ∈ step w e₀, ∃ w₂ ∈ step w₁ (.fail () 0),
        (w₂.device ()).app.running = true ∧ (w₂.device ()).app.groupInfo = []) :
  ¬ FailureKeeps r
  := by
  intro hkeeps
  obtain ⟨w, hw, hrunning, hrequests, hresults, ⟨_, before⟩, hstart, rfl, hne, w₁, h₁, w₂, h₂,
    hrunning₂, hnil⟩ := h
  have hidle : Idle w () := ⟨hrunning, hrequests, hresults⟩
  rcases hkeeps inChat e₀ before w w₁ w₂ hw hidle hstart h₁ h₂ hrunning₂ with
    hbefore | ⟨c, hc, -⟩
  · apply hne (hbefore.symm.trans hnil)
  · cases hc

/-- The chat is left and the load of the list fails, or the document of the chat changes and its
refresh fails. -/
theorem not_refresh_allOrNothing :
  ¬ FailureKeeps .restoreDataFromFirestore ∧ ¬ FailureKeeps .observeRealTimeFirestore
  := by
  constructor
  · apply not_failureKeeps (.act () .back)
    decide +kernel
  · apply not_failureKeeps (.snapshot () 0)
    decide +kernel

end Groups

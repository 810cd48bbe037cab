import TaskFirestoreApp.Groups.Duplicates

/-!
# Row numbers and the length of the list

The screens of the groups pass row numbers and the number of a chat to `groupInfo`, which
several handlers clear or replace. The numbers stay in range exactly as long as every list
that is put in the place of `groupInfo` has an entry for each row that the screen in front
shows, or for the number of its chat.
-/

namespace Groups

open Backend

/-- The numbers that an action passes to `getGroupInfo`, `appendGroupInfoTalks` and
`removeGroupInfo`: the row of the list, or the number of the chat on screen. -/
def Action.numbers (a : Action) (app : App) : List ℕ :=
  match a with
  | .listCellForRowAt row => [row]
  | .didSelectRowAt row => [row]
  | .commitEditing row => [row]
  | .viewDidAppear => app.chat.toList.map fun s => s.chat.groupNumber
  | .numberOfRowsInSection => app.chat.toList.map fun s => s.chat.groupNumber
  | .chatCellForRowAt _ => app.chat.toList.map fun s => s.chat.groupNumber
  | .commitBtn _ _ => app.chat.toList.map fun s => s.chat.groupNumber
  | _ => []

variable {D : Type}

/-- The numbers that an event passes, each with the list it is passed to. The callback of a
refresh scrolls to the bottom of the list it has just built. -/
def accesses (w : World D) : Event D → List (ℕ × List GroupInfo)
  | .act d a => (a.numbers (w.device d).app).map fun num => (num, (w.device d).app.groupInfo)
  | .deliver d i _ =>
      match (w.device d).client.results[i]? with
      | some (.refresh chat, c) => [(chat.groupNumber, loaded c)]
      | _ => []
  | _ => []

/-- The events that can happen pass numbers of entries only. -/
def InRange [DecidableEq D] (w : World D) : Prop :=
  ∀ e, (step w e).isSome → ∀ p ∈ accesses w e, p.1 < p.2.length

/-- The number of entries the screen in front needs: one for each row that the table of the
list was last given, or all up to the number of the chat. -/
def needed (app : App) : ℕ :=
  if app.running ∧ app.tab = .talk then
    match app.chat.map ChatScreen.chat with
    | none => app.rows.length
    | some chat => chat.groupNumber + 1
  else
    0

/-- An action that clears `groupInfo`, or brings the list or a chat to the front, leaves a
screen that needs no more than there is. -/
def Action.Covers (a : Action) (app : App) : Prop :=
  match a with
  | .selectTab .talk =>
      match app.chat with
      | none => app.rows = []
      | some s => s.chat.groupNumber < app.groupInfo.length
  | .back => app.rows = []
  | .backCancelled => False
  | .commitEditing _ => False
  | _ => True

/-- Every list that is put in the place of `groupInfo` has the entries that the screen in front
needs, and a refresh is answered with a list that has an entry at the number of its chat. -/
def Covers (w : World D) : Event D → Prop
  | .act d a => a.Covers (w.device d).app
  | .answer d i => ∀ q ∈ (w.device d).client.requests[i]?, Presentable q (loaded (w.view d))
  | .deliver d i _ => ∀ r ∈ (w.device d).client.results[i]?,
      r.1.appends = false → needed (w.device d).app ≤ (loaded r.2).length
  | .fail d i => ∀ q ∈ (w.device d).client.requests[i]?,
      q.appends = false → needed (w.device d).app = 0
  | _ => True

instance (a : Action) (app : App) : Decidable (a.Covers app) :=
  match a with
  | .selectTab .talk =>
      match h : app.chat with
      | none => decidable_of_iff (app.rows = []) (by simp [Action.Covers, h])
      | some s =>
          decidable_of_iff (s.chat.groupNumber < app.groupInfo.length) (by simp [Action.Covers, h])
  | .back => inferInstanceAs (Decidable (app.rows = []))
  | .backCancelled => isFalse id
  | .commitEditing _ => isFalse id
  | .launch _ | .selectTab .home | .listCellForRowAt _ | .didSelectRowAt _ | .viewDidAppear
  | .numberOfRowsInSection | .chatCellForRowAt _ | .commitBtn _ _ | .showMakeGroupView _
  | .checkBoxIconViewTapped _ | .makeGroupBtn _ _ _ _ | .popMakeGroupView => isTrue trivial

instance (w : World D) (e : Event D) : Decidable (Covers w e) :=
  match e with
  | .act d a => inferInstanceAs (Decidable (a.Covers (w.device d).app))
  | .answer d i => inferInstanceAs (Decidable
      (∀ q ∈ (w.device d).client.requests[i]?, Presentable q (loaded (w.view d))))
  | .deliver d i _ => inferInstanceAs (Decidable (∀ r ∈ (w.device d).client.results[i]?,
      r.1.appends = false → needed (w.device d).app ≤ (loaded r.2).length))
  | .fail d i => inferInstanceAs (Decidable (∀ q ∈ (w.device d).client.requests[i]?,
      q.appends = false → needed (w.device d).app = 0))
  | .arrive _ | .snapshot _ _ | .kill _ => isTrue trivial

/-! ### What the screen in front needs -/

section Needed

variable {app app' : App} {a : Action} {cs : List Command}

theorem needed_of_home (h : app.tab = .home) :
  needed app = 0
  := by
  simp [needed, h]

theorem needed_of_list (hrunning : app.running = true) (htab : app.tab = .talk)
    (hchat : app.chat = none) :
  needed app = app.rows.length
  := by
  simp [needed, hrunning, htab, hchat]

theorem needed_of_chat {s : ChatScreen} (hrunning : app.running = true) (htab : app.tab = .talk)
    (hchat : app.chat = some s) :
  needed app = s.chat.groupNumber + 1
  := by
  simp [needed, hrunning, htab, hchat]

theorem needed_congr (hrunning : app'.running = app.running) (htab : app'.tab = app.tab)
    (hchat : app'.chat.map ChatScreen.chat = app.chat.map ChatScreen.chat)
    (hrows : app'.rows = app.rows) :
  needed app' = needed app
  := by
  simp only [needed, hrunning, htab, hchat, hrows]

theorem needed_giveRows (chat : Chat) (rows : ℕ) (app : App) :
  needed (TaskGroupDetailViewController.giveRows chat rows app) = needed app
  := needed_congr rfl rfl (chat_giveRows chat rows app) rfl

theorem needed_setAppeared (appeared : Bool) (groupInfo : List GroupInfo) (app : App) :
  needed { app with
      chat := app.chat.map fun s => { s with appeared := appeared }
      groupInfo := groupInfo }
    = needed app
  := by
  apply needed_congr
  · rfl
  · rfl
  · simp [Function.comp_def]
  · rfl

/-- The list needs the rows it is given, and a chat what it needed before. -/
theorem needed_reload (groupInfo rows : List GroupInfo) (app : App) :
  needed { app with groupInfo := groupInfo, rows := rows } ≤ max (needed app) rows.length
  := by
  simp only [needed]
  split_ifs
  · cases app.chat.map ChatScreen.chat with
    | none => apply le_max_right
    | some chat => apply le_max_left
  · apply Nat.zero_le

/-- An action of the list happens with the list in front, on one of its rows. -/
theorem needed_of_row {row : ℕ}
    (h : (app.running && app.tab == .talk && app.chat.isNone && row < app.rows.length) = true) :
  app.running = true ∧ app.tab = .talk ∧ row < needed app
  := by
  simp only [Bool.and_eq_true, beq_iff_eq, Option.isNone_iff_eq_none, decide_eq_true_eq] at h
  obtain ⟨⟨⟨hrunning, htab⟩, hchat⟩, hrow⟩ := h
  rw [needed_of_list hrunning htab hchat]
  exact ⟨hrunning, htab, hrow⟩

/-- An action of a chat happens with the chat in front. -/
theorem needed_of_screen {p : ChatScreen → Bool}
    (h : (app.running && app.tab == .talk && app.chat.any p) = true) :
  app.running = true ∧ app.tab = .talk ∧ ∃ s, app.chat = some s
    ∧ s.chat.groupNumber + 1 = needed app
  := by
  simp only [Bool.and_eq_true, beq_iff_eq, Option.any_eq_true] at h
  obtain ⟨⟨hrunning, htab⟩, s, hs, -⟩ := h
  use hrunning, htab, s, hs, (needed_of_chat hrunning htab hs).symm

/-- The numbers an action passes are numbers of entries that the screen in front needs. -/
theorem numbers_lt_needed (ha : enabled a app = true) {num : ℕ} (hnum : num ∈ a.numbers app) :
  num < needed app
  := by
  have screen : ∀ {p : ChatScreen → Bool},
      (app.running && app.tab == .talk && app.chat.any p) = true →
      num ∈ app.chat.toList.map (fun s => s.chat.groupNumber) → num < needed app := by
    intro p h hnum
    obtain ⟨-, -, s, hs, hneeded⟩ := needed_of_screen h
    obtain rfl : num = s.chat.groupNumber := by simpa [hs] using hnum
    omega
  cases a with
  | listCellForRowAt row | didSelectRowAt row | commitEditing row =>
      obtain rfl := List.mem_singleton.mp hnum
      apply (needed_of_row ha).2.2
  | viewDidAppear => apply screen ha hnum
  | numberOfRowsInSection =>
      apply screen (p := fun _ => true) _ hnum
      simpa [enabled, Option.any_true] using ha
  | chatCellForRowAt row => apply screen ha hnum
  | commitBtn message now => apply screen ha hnum
  | _ => cases hnum

/-- An action that passes the number of no entry aborts the app. -/
theorem act_eq_none {num : ℕ} (hnum : num ∈ a.numbers app) (h : app.groupInfo.length ≤ num) :
  act a app = none
  := by
  have hget : app.groupInfo[num]? = none := List.getElem?_eq_none h
  cases a with
  | listCellForRowAt row =>
      obtain rfl := List.mem_singleton.mp hnum
      simp [act, TaskGroupViewController.cellForRowAt, GroupInfoManager.getGroupInfo, hget]
  | didSelectRowAt row =>
      obtain rfl := List.mem_singleton.mp hnum
      simp [act, TaskGroupViewController.didSelectRowAt, GroupInfoManager.getGroupInfo, hget]
  | commitEditing row =>
      obtain rfl := List.mem_singleton.mp hnum
      simp [act, TaskGroupViewController.commitEditing,
        TaskGroupViewController.commitEditing.removed,
        TaskGroupViewController.deleteTaskFromFirestore, GroupInfoManager.getGroupInfo, hget]
  | viewDidAppear =>
      obtain ⟨s, hs, rfl⟩ := List.mem_map.mp hnum
      rw [Option.mem_toList] at hs
      simp [act, hs, TaskGroupDetailViewController.viewDidAppear,
        TaskGroupDetailViewController.observeRealTimeFirestore, GroupInfoManager.getGroupInfo, hget]
  | numberOfRowsInSection =>
      obtain ⟨s, hs, rfl⟩ := List.mem_map.mp hnum
      rw [Option.mem_toList] at hs
      simp [act, hs, TaskGroupDetailViewController.numberOfRowsInSection,
        GroupInfoManager.getGroupInfo, hget]
  | chatCellForRowAt row =>
      obtain ⟨s, hs, rfl⟩ := List.mem_map.mp hnum
      rw [Option.mem_toList] at hs
      simp [act, hs, TaskGroupDetailViewController.cellForRowAt, GroupInfoManager.getGroupInfo,
        hget]
  | commitBtn message now =>
      obtain ⟨s, hs, rfl⟩ := List.mem_map.mp hnum
      rw [Option.mem_toList] at hs
      simp [act, hs, TaskGroupDetailViewController.commitBtn, GroupInfoManager.getGroupInfo, hget]
  | _ => cases hnum

/-- A list in front whose `groupInfo` is cleared needs nothing when its table has no rows. -/
theorem clears_iff {rows : List GroupInfo} (h : needed app = rows.length) :
  needed app ≤ ([] : List GroupInfo).length ↔ rows = []
  := by
  rw [h, List.length_nil, Nat.le_zero, List.length_eq_zero_iff]

/-- An action leaves the entries that the screen in front needs when it covers them. -/
theorem fit_act (ha : enabled a app = true) (h : needed app ≤ app.groupInfo.length)
    (hact : act a app = some (app', cs)) :
  needed app' ≤ app'.groupInfo.length ↔ a.Covers app
  := by
  cases does_of_act hact with
  | launch now => exact iff_of_true (needed_of_home rfl).le trivial
  | selectHome =>
      apply iff_of_true _ trivial
      apply (needed_of_home _).trans_le (Nat.zero_le _)
      rfl
  | selectList hchat =>
      have hrunning : app.running = true := by simpa [enabled] using (Bool.and_eq_true_iff.mp ha).1
      have hneeded : needed { app with tab := .talk, groupInfo := [] } = app.rows.length :=
        needed_of_list hrunning rfl hchat
      apply (clears_iff hneeded).trans
      simp only [Action.Covers, hchat]
  | selectChat s hchat =>
      have hrunning : app.running = true := by simpa [enabled] using (Bool.and_eq_true_iff.mp ha).1
      have hneeded : needed { app with tab := .talk, chat := some { s with appeared := false } }
          = s.chat.groupNumber + 1 :=
        needed_of_chat (s := { s with appeared := false }) hrunning rfl rfl
      rw [hneeded]
      simp only [Action.Covers, hchat, Nat.succ_le_iff]
  | listCellForRowAt | chatCellForRowAt | makeNothing | showMakeGroupView
  | checkBoxIconViewTapped | popMakeGroupView => exact iff_of_true h trivial
  | didSelectRowAt row g entry =>
      obtain ⟨hrunning, htab, hrow⟩ := needed_of_row ha
      apply iff_of_true _ trivial
      apply (needed_of_chat _ _ rfl).trans_le (hrow.trans_le h)
      · apply hrunning
      · apply htab
  | commitEditing row g taskId entry reference =>
      obtain ⟨-, -, hrow⟩ := needed_of_row ha
      apply iff_of_false _ id
      intro hnone
      exact absurd (hrow.trans_le hnone) (Nat.not_lt_zero row)
  | viewDidAppear s g taskId chat entry reference =>
      apply iff_of_true _ trivial
      apply (needed_setAppeared true app.groupInfo app).trans_le h
  | numberOfRowsInSection s rows chat =>
      apply iff_of_true _ trivial
      apply (needed_giveRows _ _ _).trans_le h
  | commitBtn message now s g taskId chat entry reference =>
      apply iff_of_true _ trivial
      rw [List.length_set]
      apply h
  | back =>
      obtain ⟨hrunning, htab, -⟩ := needed_of_screen ha
      have hneeded : needed { app with chat := none, groupInfo := [] } = app.rows.length :=
        needed_of_list hrunning htab rfl
      apply clears_iff hneeded
  | backCancelled =>
      obtain ⟨-, -, s, -, hneeded⟩ := needed_of_screen ha
      apply iff_of_false _ id
      intro hnone
      have hsame := needed_setAppeared false [] app
      exact absurd ((hneeded.trans hsame.symm).trans_le hnone) (Nat.not_succ_le_zero _)
  | makeGroup groupName taskId id createdAt updatedAt screen make name members reference =>
      apply iff_of_true _ trivial
      rw [List.length_append]
      apply Nat.le_add_right_of_le h

/-- Under `KeyedApp` no action that covers nothing aborts an app that has the entries its
screen in front needs. -/
theorem covers_of_act_eq_none {issued : List String} (hkeyed : KeyedApp issued app)
    (ha : enabled a app = true) (h : needed app ≤ app.groupInfo.length) (hact : act a app = none) :
  a.Covers app
  := by
  cases a with
  | selectTab tab => cases tab <;> cases hact
  | commitEditing row =>
      obtain ⟨-, -, hrow⟩ := needed_of_row ha
      have hget := List.getElem?_eq_getElem (hrow.trans_le h)
      obtain ⟨-, hid⟩ := hkeyed _ (List.mem_of_getElem? hget)
      have hsome : act (.commitEditing row) app = _ :=
        TaskGroupViewController.commitEditing_eq_some hget hid
      cases hsome.symm.trans hact
  | back => cases hact
  | backCancelled => cases hact
  | _ => trivial

/-- The callback of a refresh leaves the entries that the screen in front needs when it has
loaded them, and the other callbacks always do. -/
theorem fit_callback {q : Query} {k : Collection String Document}
    (h : needed app ≤ app.groupInfo.length) (hcallback : callback q k () app = some (app', cs)) :
  needed app' ≤ app'.groupInfo.length ↔ (q.appends = false → needed app ≤ (loaded k).length)
  := by
  cases q with
  | home =>
      obtain ⟨rfl, rfl⟩ := Prod.mk.inj (Option.some.inj hcallback.symm)
      apply iff_of_true _ (fun hq => by cases hq)
      change needed app ≤ (appendDocuments _ _).length
      rw [appendDocuments_eq, List.length_append]
      apply Nat.le_add_right_of_le h
  | list =>
      obtain ⟨rfl, rfl⟩ := Prod.mk.inj (Option.some.inj hcallback.symm)
      apply iff_of_true _ (fun hq => by cases hq)
      apply (needed_reload _ _ _).trans (max_le _ le_rfl)
      rw [appendDocuments_eq, List.length_append]
      apply Nat.le_add_right_of_le h
  | refresh chat =>
      obtain ⟨-, rows, hcallback | hcallback⟩ :=
        TaskGroupDetailViewController.completed_cases hcallback
      · obtain ⟨rfl, rfl⟩ := Prod.mk.inj hcallback
        change needed app ≤ _ ↔ _
        simp [Query.appends]
      · obtain ⟨rfl, rfl⟩ := Prod.mk.inj hcallback
        rw [needed_giveRows]
        change needed app ≤ _ ↔ _
        simp [Query.appends, TaskGroupDetailViewController.giveRows]

theorem fit_failed {q : Query} (h : needed app ≤ app.groupInfo.length)
    (hfailed : failed q app = some (app', cs)) :
  needed app' ≤ app'.groupInfo.length ↔ (q.appends = false → needed app = 0)
  := by
  cases q with
  | home | list =>
      obtain ⟨rfl, rfl⟩ := Prod.mk.inj (Option.some.inj hfailed.symm)
      exact iff_of_true h (fun hq => by cases hq)
  | refresh chat =>
      obtain ⟨rfl, rfl⟩ := Prod.mk.inj (Option.some.inj hfailed.symm)
      change needed app ≤ 0 ↔ _
      simp [Query.appends]

end Needed

/-! ### Runs -/

/-- The device has the entries that its screen in front needs, and every answer of a refresh
has an entry at the number of its chat. -/
structure FitDevice (dev : Device App String Document Query Chat) : Prop where
  app : needed dev.app ≤ dev.app.groupInfo.length
  results : ∀ r ∈ dev.client.results, Presentable r.1 (loaded r.2)

section Step

variable [DecidableEq D] {w w' : World D} {e : Event D} {d : D}
  {c : Client String Document Query Chat}

theorem isSome_step_of_none (hh : handler program w e = some (d, c, none)) :
  (step w e).isSome
  := by
  rw [step, step_of_handler hh]
  rfl

/-- When the numbers that are passed are those of entries, the list can ask for its rows, and a
chat for its messages. -/
theorem needed_le_of_inRange (h : InRange w) (d : D) :
  needed (w.device d).app ≤ (w.device d).app.groupInfo.length
  := by
  by_contra hlt
  have hfront : (w.device d).app.running = true ∧ (w.device d).app.tab = .talk := by
    by_contra hnot
    simp [needed, hnot] at hlt
  have passes : ∀ {a : Action} {num : ℕ}, enabled a (w.device d).app = true →
      num ∈ a.numbers (w.device d).app → num < (w.device d).app.groupInfo.length := by
    intro a num ha hnum
    by_contra hnot
    have habort : (step w (.act d a)).isSome := by
      apply isSome_step_of_none
      apply handler_act.mpr ⟨ha, rfl, rfl, _⟩
      apply (act_eq_none hnum (not_lt.mp hnot)).symm
    apply hnot (h _ habort (num, (w.device d).app.groupInfo) _)
    simpa [accesses] using hnum
  cases hchat : (w.device d).app.chat with
  | none =>
      rw [needed_of_list hfront.1 hfront.2 hchat, not_le] at hlt
      apply lt_irrefl (w.device d).app.groupInfo.length
      apply passes (a := .listCellForRowAt (w.device d).app.groupInfo.length)
      · simp [enabled, hfront, hchat, hlt]
      · simp [Action.numbers]
  | some s =>
      rw [needed_of_chat hfront.1 hfront.2 hchat, Nat.succ_le_iff] at hlt
      apply hlt
      apply passes (a := .numberOfRowsInSection)
      · simp [enabled, hfront, hchat]
      · simp [Action.numbers, hchat]

/-- The numbers that are passed are those of entries exactly when every device has the entries
it needs. -/
theorem inRange_iff :
  InRange w ↔ ∀ d, FitDevice (w.device d)
  := by
  constructor
  · intro h d
    constructor
    · apply needed_le_of_inRange h d
    · rintro ⟨q, k⟩ hr
      cases q with
      | home | list => trivial
      | refresh chat =>
          obtain ⟨i, hi⟩ := List.mem_iff_getElem?.mp hr
          by_contra hnot
          have habort : (step w (.deliver d i ())).isSome := by
            apply isSome_step_of_none (d := d) (c := _)
            apply handler_deliver.mpr ⟨_, _, hi, rfl, rfl, _⟩
            apply (callback_eq_none.mpr hnot).symm
          apply hnot (h _ habort (chat.groupNumber, loaded k) _)
          simp [accesses, hi]
  · intro h e he p hp
    cases e with
    | act d a =>
        obtain ⟨num, hnum, rfl⟩ := List.mem_map.mp hp
        obtain ⟨w', hs⟩ := Option.isSome_iff_exists.mp he
        obtain ⟨⟨f, c, r⟩, hh, -⟩ := Option.bind_eq_some_iff.mp hs
        obtain ⟨ha, rfl, -, -⟩ := handler_act.mp hh
        apply (numbers_lt_needed ha hnum).trans_le (h d).app
    | deliver d i x =>
        simp only [accesses] at hp
        split at hp
        · next chat k hi =>
            obtain rfl := List.mem_singleton.mp hp
            apply (h d).results _ (List.mem_of_getElem? hi)
        · cases hp
    | _ => cases hp

/-- A handler that has a result leaves the entries needed when the new screen has what it
needs. -/
theorem fit_settle (h : ∀ d, FitDevice (w.device d)) {app : App} {cs : List Command}
    (hh : handler program w e = some (d, c, some (app, cs)))
    (hs : settle program w d c (some (app, cs)) = some w') :
  (∀ f, FitDevice (w'.device f)) ↔ needed app ≤ app.groupInfo.length
  := by
  obtain ⟨happ, -, -, hresults⟩ := settle_self hs
  constructor
  · intro h'
    apply happ ▸ (h' d).app
  · intro hneeded f
    rcases eq_or_ne f d with rfl | hf
    · constructor
      · rw [happ]
        apply hneeded
      · intro r hr
        rw [hresults] at hr
        apply (h f).results r ((handler_client hh).2.2 hr)
    · rw [settle_device_of_ne hs hf]
      apply h f

omit [DecidableEq D] in
/-- When every device has the entries it needs, a handler that aborts its app covers them. -/
theorem covers_of_aborts (hkeyed : Keyed w) (h : ∀ d, FitDevice (w.device d))
    (hh : handler program w e = some (d, c, none)) :
  Covers w e
  := by
  cases e with
  | act d' a =>
      obtain ⟨ha, rfl, -, hact⟩ := handler_act.mp hh
      apply covers_of_act_eq_none (hkeyed.versions.app d') ha (h d').app hact.symm
  | deliver d' i x =>
      obtain ⟨q, k, hk, rfl, -, hcallback⟩ := handler_deliver.mp hh
      have hpresentable := (h d').results _ (List.mem_of_getElem? hk)
      exact absurd hpresentable (callback_eq_none.mp hcallback.symm)
  | fail d' i =>
      obtain ⟨q, -, -, -, hfailed⟩ := handler_fail.mp hh
      cases q <;> cases hfailed
  | snapshot d' i => trivial
  | kill d' => trivial
  | arrive d' => trivial
  | answer d' i => simp [handler] at hh

theorem fit_arrive (h : ∀ d, FitDevice (w.device d)) (hs : arrive w d = some w') (f : D) :
  FitDevice (w'.device f)
  := by
  obtain ⟨happ, -, hresults⟩ := arrive_device hs f
  constructor
  · rw [happ]
    apply (h f).app
  · rw [hresults]
    apply (h f).results

/-- An app that is aborted or killed needs nothing. -/
theorem fit_aborts (h : ∀ d, FitDevice (w.device d)) (hs : settle program w d c none = some w')
    (f : D) :
  FitDevice (w'.device f)
  := by
  rcases eq_or_ne f d with rfl | hf
  · rw [settle_self_none hs]
    constructor
    · apply Nat.zero_le
    · intro r hr
      cases hr
  · rw [settle_device_of_ne hs hf]
    apply h f

/-- The answer of a refresh has to have an entry at the number of its chat. -/
theorem fit_answer {i : ℕ} (h : ∀ d, FitDevice (w.device d)) (hs : answer w d i = some w') :
  (∀ f, FitDevice (w'.device f)) ↔ Covers w (.answer d i)
  := by
  obtain ⟨q, hq, rfl⟩ := answer_cases hs
  constructor
  · intro h' q' hq'
    obtain rfl := Option.some.inj (hq.symm.trans hq')
    apply (h' d).results (q, w.view d)
    simp
  · intro hcovers f
    rcases eq_or_ne f d with rfl | hf
    · rw [World.put_device_self]
      constructor
      · apply (h f).app
      · intro r hr
        rcases List.mem_append.mp hr with hr | hr
        · apply (h f).results r hr
        · obtain rfl := List.mem_singleton.mp hr
          apply hcovers q hq
    · rw [World.put_device_of_ne hf]
      apply h f

omit [DecidableEq D] in
/-- A handler that does not abort its app leaves the entries needed when it covers them. -/
theorem fit_handler {app : App} {cs : List Command} (h : ∀ d, FitDevice (w.device d))
    (hh : handler program w e = some (d, c, some (app, cs))) :
  needed app ≤ app.groupInfo.length ↔ Covers w e
  := by
  cases e with
  | act d' a =>
      obtain ⟨ha, rfl, rfl, hact⟩ := handler_act.mp hh
      apply fit_act ha (h d').app hact.symm
  | deliver d' i x =>
      obtain ⟨q, k, hk, rfl, rfl, hcallback⟩ := handler_deliver.mp hh
      rw [fit_callback (h d').app hcallback.symm]
      simp [Covers, hk]
  | fail d' i =>
      obtain ⟨q, hq, rfl, rfl, hfailed⟩ := handler_fail.mp hh
      rw [fit_failed (h d').app hfailed.symm]
      simp [Covers, hq]
  | snapshot d' i =>
      obtain ⟨l, -, -, rfl, rfl, hlistener⟩ := handler_snapshot.mp hh
      apply iff_of_true _ trivial
      rw [listener_app hlistener.symm]
      apply (h d').app
  | kill d' => simp [handler] at hh
  | arrive d' => simp [handler] at hh
  | answer d' i => simp [handler] at hh

/-- A step leaves every device the entries it needs when it covers them. -/
theorem fit_step (hkeyed : Keyed w) (h : ∀ d, FitDevice (w.device d)) (hs : step w e = some w') :
  (∀ d, FitDevice (w'.device d)) ↔ Covers w e
  := by
  rcases step_cases hs with ⟨d, rfl, harrive⟩ | ⟨d, i, rfl, hanswer⟩ | ⟨d, c, r, hh, hsettle⟩
  · apply iff_of_true _ trivial
    apply fit_arrive h harrive
  · apply fit_answer h hanswer
  · cases r with
    | none =>
        apply iff_of_true
        · apply fit_aborts h hsettle
        · apply covers_of_aborts hkeyed h hh
    | some eff =>
        rw [fit_settle h hh hsettle]
        apply fit_handler h hh

omit [DecidableEq D] in
theorem fit_initial (d : D) :
  FitDevice ((World.initial : World D).device d)
  where
  app := Nat.zero_le _
  results r hr := by cases hr

/-- In a run from the start every number that is passed is that of an entry exactly when, at
every step, each list put in the place of `groupInfo` has the entries that the screen in front
needs, and each refresh is answered with a list that has an entry at the number of its chat. -/
theorem indices_inRange_iff {es : List (Event D)} (h : run World.initial es = some w) :
  Run.Throughout step InRange World.initial es ↔ Run.Along step Covers World.initial es
  := by
  have hthroughout : Run.Throughout step InRange World.initial es
      ↔ Run.Throughout step (fun w => ∀ d, FitDevice (w.device d)) World.initial es := by
    simp only [Run.Throughout, inRange_iff]
  rw [hthroughout]
  apply Run.throughout_iff_along (J := Keyed) _ _ keyed_initial fit_initial h
  · intro w e w' hw hs
    apply keyed_step hw hs
  · intro w e w' hkeyed hw hs
    apply fit_step hkeyed hw hs

end Step

/-- A group is created, its chat is opened, a message is sent, and the chat is refreshed. -/
theorem indices_inRange_refreshed :
  Run.Throughout step InRange (World.initial : World Unit)
    (started () ++ makesGroup () "g" "t" 1 ++ [.arrive ()] ++ opensList () ++ opensChat () 0
      ++ [.act () .numberOfRowsInSection, .act () (.commitBtn "a" 2), .snapshot () 0,
        .answer () 0, .deliver () 0 ()])
  := by
  have hrun : ∃ w, run World.initial (started () ++ makesGroup () "g" "t" 1 ++ [.arrive ()]
      ++ opensList () ++ opensChat () 0 ++ [.act () .numberOfRowsInSection,
        .act () (.commitBtn "a" 2), .snapshot () 0, .answer () 0, .deliver () 0 ()]) = some w := by
    apply Option.isSome_iff_exists.mp
    decide +kernel
  obtain ⟨w, hw⟩ := hrun
  apply (indices_inRange_iff hw).mpr
  decide +kernel

/-- The list appears again and its row is tapped before it has been loaded. -/
theorem not_indices_inRange :
  ¬ ∀ (es : List (Event Unit)) (w : World Unit), run World.initial es = some w → InRange w
  := by
  intro h
  have hrun : ∃ w ∈ run World.initial (started () ++ makesGroup () "g" "t" 1 ++ [.arrive ()]
      ++ opensList () ++ [.act () (.selectTab .home), .act () (.selectTab .talk)]),
      (step w (.act () (.didSelectRowAt 0))).isSome
        ∧ (0, []) ∈ accesses w (.act () (.didSelectRowAt 0)) := by
    decide +kernel
  obtain ⟨w, hw, hs, hmem⟩ := hrun
  exact absurd (h _ w hw _ hs _ hmem) (Nat.lt_irrefl 0)

end Groups

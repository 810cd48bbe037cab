import TaskFirestoreApp.Users.Records
import TaskFirestoreApp.Users.Sessions

/-!
# The screens of the users over runs

`Does` says what each action does, and `completed_spec` what the load of a login screen does to
the screen. A login screen is in front of Home whenever nobody is signed in: the sign-ins and
loads that are still to come for the screens before it cannot take it away. The app is aborted
by one press only, that of a rename without a record.
-/

namespace Users

open Backend UserInfoManager TaskLoginViewController

/-- What an action does when it does not abort the app. -/
inductive Does (app : App) : Action → App → List Command → Prop
  | launch (now : Timestamp) (app₀ : App) (started : app₀ = App.started app.currentUser now) :
      Does app (.launch now)
        { (if app.currentUser.isSome then app₀ else
          ViewController.presentLoginViewController app₀) with userLists := [] } [.get .home]
  | tappedLoginBtn (email password : String) (s : LoginScreen) (login : app.login = some s)
      (fields : commonAlert email password) :
      Does app (.tappedLoginBtn email password) { app with signIns := app.signIns ++ [s.number] } []
  | loginAlert (email password : String) (s : LoginScreen) (login : app.login = some s) :
      Does app (.tappedLoginBtn email password) (showAlert s.number app) []
  | tappedNewRegisterBtn (email password : String) (s : LoginScreen) (login : app.login = some s)
      (fields : commonAlert email password) :
      Does app (.tappedNewRegisterBtn email password)
        { app with signIns := app.signIns ++ [s.number] } []
  | registerAlert (email password : String) (s : LoginScreen) (login : app.login = some s) :
      Does app (.tappedNewRegisterBtn email password) (showAlert s.number app) []
  | signedIn (i number : ℕ) (uid : String) (asked : app.signIns[i]? = some number) :
      Does app (.signedIn i uid)
        { app with
          signIns := app.signIns.eraseIdx i
          currentUser := some uid
          userLists := [] } [.get (.login number)]
  | signInFailed (i number : ℕ) (asked : app.signIns[i]? = some number) :
      Does app (.signInFailed i)
        (showAlert number { app with signIns := app.signIns.eraseIdx i }) []
  | closeAlert :
      Does app .closeAlert { app with login := app.login.map fun s => ⟨s.number, false⟩ } []
  | logout :
      Does app .logout
        (ViewController.presentLoginViewController { app with currentUser := none }) []
  | noName :
      Does app (.backToSaveBtn "") app []
  | backToSaveBtn (reName : String) (u : UserInfo) (id : String) (nonempty : reName ≠ "")
      (record : lastRecord app.userID app.userLists = some u) (path : document u.taskId = some id) :
      Does app (.backToSaveBtn reName)
        { app with userLists := setNameAtCurrentUserID reName app.userID app.userLists }
        [.write (.set id { u with name := reName }.encode)]

/-- The effect of an action that has a result. -/
theorem does_of_act {a : Action} {app app' : App} {cs : List Command}
    (h : act a app = some (app', cs)) :
  Does app a app' cs
  := by
  cases a with
  | launch now =>
      obtain ⟨rfl, rfl⟩ := Prod.mk.inj (Option.some.inj h.symm)
      exact .launch now _ rfl
  | tappedLoginBtn email password =>
      obtain ⟨s, hs, h⟩ := Option.map_eq_some_iff.mp h
      unfold TaskLoginViewController.tappedLoginBtn at h
      split_ifs at h with hfields
      · obtain ⟨rfl, rfl⟩ := Prod.mk.inj h.symm
        exact .tappedLoginBtn email password s hs hfields
      · obtain ⟨rfl, rfl⟩ := Prod.mk.inj h.symm
        exact .loginAlert email password s hs
  | tappedNewRegisterBtn email password =>
      obtain ⟨s, hs, h⟩ := Option.map_eq_some_iff.mp h
      unfold TaskLoginViewController.tappedNewRegisterBtn at h
      split_ifs at h with hfields
      · obtain ⟨rfl, rfl⟩ := Prod.mk.inj h.symm
        exact .tappedNewRegisterBtn email password s hs hfields
      · obtain ⟨rfl, rfl⟩ := Prod.mk.inj h.symm
        exact .registerAlert email password s hs
  | signedIn i uid =>
      obtain ⟨number, hnumber, h⟩ := Option.map_eq_some_iff.mp h
      obtain ⟨rfl, rfl⟩ := Prod.mk.inj h.symm
      exact .signedIn i number uid hnumber
  | signInFailed i =>
      obtain ⟨number, hnumber, h⟩ := Option.map_eq_some_iff.mp h
      obtain ⟨rfl, rfl⟩ := Prod.mk.inj h.symm
      exact .signInFailed i number hnumber
  | closeAlert =>
      obtain ⟨rfl, rfl⟩ := Prod.mk.inj (Option.some.inj h.symm)
      exact .closeAlert
  | logout =>
      obtain ⟨rfl, rfl⟩ := Prod.mk.inj (Option.some.inj h.symm)
      exact .logout
  | backToSaveBtn reName =>
      rcases TaskEditUserInfoViewController.backToSaveBtn_cases h with
        ⟨rfl, heff⟩ | ⟨hname, u, id, hu, hid, heff⟩
      · obtain ⟨rfl, rfl⟩ := Prod.mk.inj heff
        exact .noName
      · obtain ⟨rfl, rfl⟩ := Prod.mk.inj heff
        exact .backToSaveBtn reName u id hname hu hid

/-- The load of a login screen changes `userLists`, the screen that is presented, and nothing
else of the session. -/
theorem completed_spec {number : ℕ} {c : Collection String Document} {record : NewRecord}
    {app app' : App} {cs : List Command}
    (h : readUserInfoFromFirestore.completed number c record app = some (app', cs)) :
  ∃ userLists, app' = { app with
      userLists := userLists
      login := (presentTaskHomeViewController number
        (if (orderedByCreatedAt c).all fun document => (UserInfo.decode document.2).isOk then app
          else showAlert number app)).login
      lastLoad := some true }
    ∧ cs.filterMap Command.requested = []
  := by
  simp only [readUserInfoFromFirestore.completed, checkExistingUser_eq, Option.some.injEq] at h
  split_ifs at h with hall hany hany
  · obtain ⟨rfl, rfl⟩ := Prod.mk.inj h.symm
    use appendDocuments (orderedByCreatedAt c) app.userLists
    refine ⟨?_, rfl⟩
    rw [if_pos hall]
    rfl
  · obtain ⟨rfl, rfl⟩ := Prod.mk.inj h.symm
    use appendDocuments (orderedByCreatedAt c) app.userLists ++ [added record app.userID]
    refine ⟨?_, rfl⟩
    rw [if_pos hall]
    rfl
  · obtain ⟨rfl, rfl⟩ := Prod.mk.inj h.symm
    use appendDocuments (orderedByCreatedAt c) app.userLists
    refine ⟨?_, rfl⟩
    rw [if_neg hall]
    rfl
  · obtain ⟨rfl, rfl⟩ := Prod.mk.inj h.symm
    use appendDocuments (orderedByCreatedAt c) app.userLists ++ [added record app.userID]
    refine ⟨?_, rfl⟩
    rw [if_neg hall]
    rfl

/-! ### The screen in front -/

/-- The loads of Users that are pending on a device. -/
def pending (dev : Device App String Document Query Empty) : List Query :=
  dev.client.requests ++ dev.client.results.map Prod.fst

/-- An app whose loads `qs` are pending: those of login screens, and the sign-ins, are of screens
that were created, and when nobody is signed in a login screen is presented for which no load is
pending. -/
structure Guarded (app : App) (qs : List Query) : Prop where
  stopped : app.running = false → qs = []
  signIns : ∀ n ∈ app.signIns, n < app.logins
  loads : ∀ n, .login n ∈ qs → n < app.logins
  screen : ∀ s ∈ app.login, s.number < app.logins
  front : app.running → app.currentUser = none →
    ∃ s, app.login = some s ∧ .login s.number ∉ qs

section Screen

variable {app app' : App} {qs qs' : List Query} {cs : List Command} {n : ℕ}

theorem Guarded.mono (h : Guarded app qs) (hqs : qs' ⊆ qs) :
  Guarded app qs'
  where
  stopped hrunning := List.subset_nil.mp (h.stopped hrunning ▸ hqs)
  signIns := h.signIns
  loads m hm := h.loads m (hqs hm)
  screen := h.screen
  front hrunning huser := by
    obtain ⟨s, hs, hnot⟩ := h.front hrunning huser
    use s, hs, fun hm => hnot (hqs hm)

/-- A guarded app keeps its guard when its screen is the same but for its alert, and sign-ins
are asked by it. -/
theorem Guarded.of_screen (h : Guarded app qs) (hrunning : app'.running = app.running)
    (huser : app'.currentUser = app.currentUser) (hlogins : app'.logins = app.logins)
    (hsignIns : ∀ m ∈ app'.signIns, m ∈ app.signIns ∨ ∃ s ∈ app.login, s.number = m)
    (hlogin : app'.login.map LoginScreen.number = app.login.map LoginScreen.number) :
  Guarded app' qs
  where
  stopped hstopped := h.stopped (hrunning ▸ hstopped)
  signIns m hm := by
    rw [hlogins]
    rcases hsignIns m hm with hm | ⟨s, hs, rfl⟩
    · apply h.signIns m hm
    · apply h.screen s hs
  loads m hm := hlogins ▸ h.loads m hm
  screen s hs := by
    have hnumber : some s.number = app.login.map LoginScreen.number := by
      rw [← hlogin, Option.mem_def.mp hs, Option.map_some]
    obtain ⟨s', hs', heq⟩ := Option.map_eq_some_iff.mp hnumber.symm
    rw [hlogins, ← heq]
    apply h.screen s' hs'
  front hrun hnone := by
    obtain ⟨s, hs, hnot⟩ := h.front (hrunning ▸ hrun) (huser ▸ hnone)
    rw [hs, Option.map_some] at hlogin
    obtain ⟨s', hs', heq⟩ := Option.map_eq_some_iff.mp hlogin
    use s', hs', heq ▸ hnot

/-- Somebody is signed in when no login screen is presented. -/
theorem Guarded.isSome (h : Guarded app qs) (hrunning : app.running) (hlogin : app.login = none) :
  app.currentUser.isSome
  := by
  rw [Option.isSome_iff_ne_none]
  intro huser
  obtain ⟨s, hs, -⟩ := h.front hrunning huser
  simp [hlogin] at hs

theorem showAlert_number :
  (showAlert n app).login.map LoginScreen.number = app.login.map LoginScreen.number
  := by
  cases hs : app.login with
  | none => simp [showAlert, hs]
  | some s =>
      simp only [showAlert, hs, Option.map_some, Option.some.injEq]
      split_ifs with hn
      · apply hn.symm
      · rfl

theorem isSome_showAlert :
  (showAlert n app).login.isSome = app.login.isSome
  := Option.isSome_map

/-- A dismissal leaves no other screen than the one that was presented. -/
theorem mem_presentTaskHomeViewController {s : LoginScreen}
    (hs : s ∈ (presentTaskHomeViewController n app).login) :
  ∃ s' ∈ app.login, s'.number = s.number
  := by
  obtain ⟨s', hs', heq⟩ := Option.bind_eq_some_iff.mp hs
  use s', hs'
  split_ifs at heq with hn halert
  · rw [← Option.some.inj heq, hn]
  · rw [← Option.some.inj heq]

/-- A dismissal of another screen does nothing. -/
theorem presentTaskHomeViewController_of_ne {s : LoginScreen} (hs : app.login = some s)
    (hn : s.number ≠ n) :
  (presentTaskHomeViewController n app).login = some s
  := by
  simp [presentTaskHomeViewController, hs, hn]

/-- A load of a login screen that is delivered takes no other screen away. -/
theorem Guarded.completed (h : Guarded app qs) {c : Collection String Document}
    {record : NewRecord} (hn : .login n ∈ qs)
    (hcall : readUserInfoFromFirestore.completed n c record app = some (app', cs)) :
  Guarded app' qs
  := by
  obtain ⟨userLists, rfl, -⟩ := completed_spec hcall
  -- the alert of a record that does not decode is another state of the same screen
  have hshown : ∀ s ∈ (if (orderedByCreatedAt c).all fun document =>
      (UserInfo.decode document.2).isOk then app else showAlert n app).login,
      ∃ s' ∈ app.login, s'.number = s.number := by
    intro s hs
    split_ifs at hs
    · use s, hs
    · have hnumber : (showAlert n app).login.map LoginScreen.number
          = app.login.map LoginScreen.number := showAlert_number
      rw [Option.mem_def.mp hs, Option.map_some] at hnumber
      apply Option.map_eq_some_iff.mp hnumber.symm
  constructor
  · apply h.stopped
  · apply h.signIns
  · apply h.loads
  · intro s hs
    obtain ⟨s₁, hs₁, hnumber₁⟩ := mem_presentTaskHomeViewController hs
    obtain ⟨s₂, hs₂, hnumber₂⟩ := hshown s₁ hs₁
    rw [← hnumber₁, ← hnumber₂]
    apply h.screen s₂ hs₂
  · intro hrunning huser
    obtain ⟨s, hs, hnot⟩ := h.front hrunning huser
    have hne : s.number ≠ n := by
      rintro rfl
      apply hnot hn
    refine ⟨s, ?_, hnot⟩
    apply presentTaskHomeViewController_of_ne _ hne
    split_ifs
    · apply hs
    · simp [showAlert, hs, hne]

/-- An action keeps the guard: Home is left with nobody signed in by a logout only, which
presents a new screen. -/
theorem Guarded.act {a : Action} (h : Guarded app qs) (henabled : enabled a app)
    (hact : Users.act a app = some (app', cs)) :
  Guarded app' (qs ++ cs.filterMap Command.requested)
  := by
  have hnothing : qs ++ ([] : List Command).filterMap Command.requested = qs := by simp
  cases does_of_act hact with
  | launch now app₀ started =>
      have hqs : qs = [] := h.stopped (by simpa [enabled] using henabled)
      subst hqs started
      cases huser : app.currentUser with
      | none =>
          constructor <;>
            simp [App.started, ViewController.presentLoginViewController, Command.requested]
      | some uid => constructor <;> simp [App.started, Command.requested]
  | tappedLoginBtn email password s login fields
  | tappedNewRegisterBtn email password s login fields =>
      rw [hnothing]
      refine h.of_screen rfl rfl rfl ?_ rfl
      intro m hm
      apply (List.mem_append.mp hm).imp_right
      intro hm
      use s, login, (List.mem_singleton.mp hm).symm
  | loginAlert email password s login | registerAlert email password s login =>
      rw [hnothing]
      refine h.of_screen rfl rfl rfl (fun m hm => .inl hm) showAlert_number
  | signedIn i number uid asked =>
      have hrunning : app.running = true := (Bool.and_eq_true_iff.mp henabled).1
      constructor
      · simp [hrunning]
      · intro m hm
        apply h.signIns m (List.mem_of_mem_eraseIdx hm)
      · intro m hm
        rcases List.mem_append.mp hm with hm | hm
        · apply h.loads m hm
        · obtain rfl : m = number := by simpa [Command.requested] using hm
          apply h.signIns m (List.mem_of_getElem? asked)
      · apply h.screen
      · intro _ huser
        cases huser
  | signInFailed i number asked =>
      rw [hnothing]
      refine h.of_screen rfl rfl rfl ?_ showAlert_number
      intro m hm
      left
      apply List.mem_of_mem_eraseIdx hm
  | closeAlert =>
      rw [hnothing]
      refine h.of_screen rfl rfl rfl (fun m hm => .inl hm) ?_
      rw [Option.map_map]
      rfl
  | logout =>
      rw [hnothing]
      constructor
      · apply h.stopped
      · intro m hm
        apply (h.signIns m hm).trans (Nat.lt_succ_self _)
      · intro m hm
        apply (h.loads m hm).trans (Nat.lt_succ_self _)
      · rintro s hs
        obtain rfl := Option.some.inj hs
        apply Nat.lt_succ_self
      · intro _ _
        use ⟨app.logins, false⟩, rfl
        intro hm
        apply (h.loads _ hm).false
  | noName =>
      rw [hnothing]
      apply h
  | backToSaveBtn reName u id nonempty record path =>
      have hwrite : [(.write (.set id { u with name := reName }.encode) : Command)].filterMap
          Command.requested = [] := rfl
      rw [hwrite, List.append_nil]
      refine h.of_screen rfl rfl rfl (fun m hm => .inl hm) rfl

end Screen

/-- A callback keeps the guard: its load was pending until now. -/
theorem Guarded.callback {app app' : App} {qs : List Query} {cs : List Command} {q : Query}
    {c : Collection String Document} {record : NewRecord} (h : Guarded app qs) (hq : q ∈ qs)
    (hcall : Users.callback q c record app = some (app', cs)) :
  Guarded app' qs ∧ cs.filterMap Command.requested = []
  := by
  cases q with
  | home =>
      obtain ⟨rfl, rfl⟩ := Prod.mk.inj (Option.some.inj hcall.symm)
      exact ⟨h.of_screen rfl rfl rfl (fun m hm => .inl hm) rfl, rfl⟩
  | login n =>
      obtain ⟨userLists, -, hcs⟩ := completed_spec hcall
      use h.completed hq hcall, hcs

theorem Guarded.failed {app app' : App} {qs : List Query} {cs : List Command} {q : Query}
    (h : Guarded app qs) (hcall : Users.failed q app = some (app', cs)) :
  Guarded app' qs ∧ cs.filterMap Command.requested = []
  := by
  cases q with
  | home =>
      obtain ⟨rfl, rfl⟩ := Prod.mk.inj (Option.some.inj hcall.symm)
      exact ⟨h.of_screen rfl rfl rfl (fun m hm => .inl hm) rfl, rfl⟩
  | login n =>
      obtain ⟨rfl, rfl⟩ := Prod.mk.inj (Option.some.inj hcall.symm)
      exact ⟨h.of_screen rfl rfl rfl (fun m hm => .inl hm) showAlert_number, rfl⟩

section Step

variable {D : Type} [DecidableEq D] {w w' : World D} {e : Event D} {d : D}
  {c : Client String Document Query Empty} {app : App} {cs : List Command}

omit [DecidableEq D] in
/-- A handler leaves its device guarded. -/
theorem guarded_handler (h : Guarded (w.device d).app (pending (w.device d)))
    (hh : handler program w e = some (d, c, some (app, cs))) :
  Guarded app (c.requests ++ cs.filterMap Command.requested ++ c.results.map Prod.fst)
  := by
  cases e with
  | act d' a =>
      obtain ⟨henabled, rfl, rfl, hact⟩ := handler_act.mp hh
      apply (h.act henabled hact.symm).mono
      intro q hq
      simp only [pending, List.mem_append] at hq ⊢
      tauto
  | deliver d' i record =>
      obtain ⟨q, k, hr, rfl, rfl, hcall⟩ := handler_deliver.mp hh
      have hmem := List.mem_of_getElem? hr
      have hq : q ∈ pending (w.device d') :=
        List.mem_append_right _ (List.mem_map.mpr ⟨_, hmem, rfl⟩)
      obtain ⟨hg, hcs⟩ := h.callback hq hcall.symm
      apply hg.mono
      rw [hcs, List.append_nil]
      apply List.Sublist.subset
      apply List.Sublist.append_left
      apply (List.eraseIdx_sublist _ _).map
  | fail d' i =>
      obtain ⟨q, -, rfl, rfl, hcall⟩ := handler_fail.mp hh
      obtain ⟨hg, hcs⟩ := h.failed hcall.symm
      apply hg.mono
      rw [hcs, List.append_nil]
      apply List.Sublist.subset
      apply List.Sublist.append_right
      apply List.eraseIdx_sublist
  | snapshot d' i =>
      obtain ⟨l, -, -, -, -, -⟩ := handler_snapshot.mp hh
      apply l.tag.elim
  | kill d' => simp [handler] at hh
  | arrive d' => simp [handler] at hh
  | answer d' i => simp [handler] at hh

theorem guarded_stopped (currentUser : Option String) :
  Guarded (.stopped currentUser) []
  := by
  constructor <;> simp [App.stopped]

/-- Every step leaves every device guarded. -/
theorem guarded_step (h : ∀ d, Guarded (w.device d).app (pending (w.device d)))
    (hs : step w e = some w') (f : D) :
  Guarded (w'.device f).app (pending (w'.device f))
  := by
  rcases step_cases hs with ⟨d, -, hs⟩ | ⟨d, i, -, hs⟩ | ⟨d, c, r, hh, hs⟩
  · obtain ⟨happ, hrequests, hresults⟩ := arrive_device hs f
    rw [happ, pending, hrequests, hresults]
    apply h f
  · obtain ⟨q, hq, rfl⟩ := answer_cases hs
    rcases eq_or_ne f d with rfl | hf
    · -- the query that is answered is still pending
      rw [World.put_device_self]
      apply (h f).mono
      intro q' hq'
      simp only [pending, List.map_append, List.map_cons, List.map_nil, List.mem_append,
        List.mem_singleton] at hq' ⊢
      rcases hq' with hq' | hq' | rfl
      · left
        apply List.mem_of_mem_eraseIdx hq'
      · right
        apply hq'
      · left
        apply List.mem_of_getElem? hq
    · rw [World.put_device_of_ne hf]
      apply h f
  · rcases eq_or_ne f d with rfl | hf
    · cases r with
      | none =>
          rw [settle_self_none hs]
          apply guarded_stopped
      | some eff =>
          obtain ⟨happ, -, hrequests, hresults⟩ := settle_self hs
          rw [happ, pending, hrequests, hresults]
          apply guarded_handler (h f) hh
    · rw [settle_device_of_ne hs hf]
      apply h f

theorem guarded_of_run {es : List (Event D)} (h : run World.initial es = some w) (d : D) :
  Guarded (w.device d).app (pending (w.device d))
  := by
  apply Run.invariant_of_step (I := fun w : World D =>
    ∀ d, Guarded (w.device d).app (pending (w.device d))) _ _ h
  · intro w e w' hw hs d
    apply guarded_step hw hs
  · intro d
    apply guarded_stopped

/-- In every state that can be reached, while nobody is signed in to a running app, a login
screen is presented, and no load that is pending can take it away. So somebody is signed in
whenever Home, with its logout and its edit screen, is in front. -/
theorem front_of_run {es : List (Event D)} (h : run World.initial es = some w)
    (hrunning : (w.device d).app.running) :
  ((w.device d).app.currentUser = none → ∃ s, (w.device d).app.login = some s
      ∧ .login s.number ∉ pending (w.device d))
    ∧ ((w.device d).app.login = none → OnHome w d)
  := by
  have hguarded := guarded_of_run h d
  constructor
  · apply hguarded.front hrunning
  · intro hlogin
    use hrunning, hguarded.isSome hrunning hlogin

/-! ### The press that aborts the app -/

omit [DecidableEq D] in
/-- Of the actions of the user and the answers of Auth only a rename can abort the app, and it
does when there is no record of the user. -/
theorem act_eq_none_iff {l : List Creation} {a : Action} (h : Recorded l w)
    (henabled : enabled a (w.device d).app) :
  act a (w.device d).app = none
    ↔ ∃ reName, a = .backToSaveBtn reName ∧ reName ≠ "" ∧ ¬ HasRecord (w.device d).app
  := by
  cases a with
  | launch now | closeAlert | logout => simp [act]
  | tappedLoginBtn email password | tappedNewRegisterBtn email password =>
      cases hs : (w.device d).app.login with
      | none => simp [enabled, hs] at henabled
      | some s => simp [act, hs]
  | signedIn i uid | signInFailed i =>
      obtain ⟨-, hi⟩ := Bool.and_eq_true_iff.mp henabled
      simp [act, List.getElem?_eq_getElem (of_decide_eq_true hi)]
  | backToSaveBtn reName =>
      simp only [Action.backToSaveBtn.injEq, exists_eq_left']
      constructor
      · intro hnone
        constructor
        · rintro rfl
          simp [act, TaskEditUserInfoViewController.backToSaveBtn] at hnone
        · rintro ⟨v, hv, hid⟩
          cases hlast : lastRecord (w.device d).app.userID (w.device d).app.userLists with
          | none => apply lastRecord_eq_none.mp hlast v hv hid
          | some u =>
              have hname : reName ≠ "" := by
                rintro rfl
                simp [act, TaskEditUserInfoViewController.backToSaveBtn] at hnone
              have hsegment := h.segment (lastRecord_eq_some hlast).1
              rw [act, TaskEditUserInfoViewController.backToSaveBtn_eq_some hname hlast hsegment]
                at hnone
              cases hnone
      · rintro ⟨hname, habsent⟩
        apply TaskEditUserInfoViewController.backToSaveBtn_eq_none hname
        apply lastRecord_eq_none.mpr
        intro u hu hid
        apply habsent ⟨u, hu, hid⟩

omit [DecidableEq D] in
/-- The edit screen is reached from Home. -/
theorem enabled_backToSaveBtn_iff (reName : String)
    (h : Guarded (w.device d).app (pending (w.device d))) :
  enabled (.backToSaveBtn reName) (w.device d).app ↔ OnHome w d
  := by
  simp only [enabled, Bool.and_eq_true, Option.isNone_iff_eq_none]
  constructor
  · rintro ⟨hrunning, hlogin⟩
    use hrunning, h.isSome hrunning hlogin
  · rintro ⟨hrunning, -, hlogin⟩
    use hrunning, hlogin

/-- In every state that can be reached, an event of the users ends the app of a device exactly
when the app is killed, or a user who sees Home and of whom `userLists` has no record saves a new
name that is not empty. No callback of the users and no other action of theirs aborts; what the
groups can abort is not part of it. -/
theorem aborts_iff {es : List (Event D)} (h : run World.initial es = some w) (e : Event D) :
  (∃ c, handler program w e = some (d, c, none))
    ↔ e = .kill d ∨ ∃ reName, e = .act d (.backToSaveBtn reName) ∧ reName ≠ "" ∧ OnHome w d
      ∧ ¬ HasRecord (w.device d).app
  := by
  have hrecorded := recorded_of_run h
  have hguarded := guarded_of_run h d
  constructor
  · rintro ⟨c, hh⟩
    cases e with
    | act d' a =>
        obtain ⟨henabled, rfl, -, hnone⟩ := handler_act.mp hh
        obtain ⟨reName, rfl, hname, habsent⟩ := (act_eq_none_iff hrecorded henabled).mp hnone.symm
        right
        use reName, rfl, hname, (enabled_backToSaveBtn_iff reName hguarded).mp henabled
    | deliver d' i record =>
        obtain ⟨q, k, -, -, -, hnone⟩ := handler_deliver.mp hh
        obtain ⟨eff, heff⟩ := callback_eq_some q k record (w.device d).app
        rw [show program.callback q k record (w.device d).app = some eff from heff] at hnone
        cases hnone
    | fail d' i =>
        obtain ⟨q, -, -, -, hnone⟩ := handler_fail.mp hh
        cases q with
        | home | login number => cases hnone
    | snapshot d' i =>
        obtain ⟨l, -, -, -, -, -⟩ := handler_snapshot.mp hh
        apply l.tag.elim
    | kill d' =>
        obtain ⟨rfl, -, -⟩ := handler_kill.mp hh
        left
        rfl
    | arrive d' => simp [handler] at hh
    | answer d' i => simp [handler] at hh
  · rintro (rfl | ⟨reName, rfl, hname, hhome, habsent⟩)
    · exact ⟨_, handler_kill.mpr ⟨rfl, rfl, rfl⟩⟩
    · have henabled := (enabled_backToSaveBtn_iff reName hguarded).mpr hhome
      have hnone := (act_eq_none_iff hrecorded henabled).mpr ⟨reName, rfl, hname, habsent⟩
      exact ⟨_, handler_act.mpr ⟨henabled, rfl, rfl, hnone.symm⟩⟩

end Step

/-- A user signs in twice from one login screen, and logs out before the second load is
delivered: it does not take the next login screen away. -/
theorem front_of_run_stale :
  ∃ w ∈ run World.initial (launches () ++ loads () (record "a" (by decide))
      ++ [.act () (.tappedLoginBtn "mail" "password"), .act () (.tappedLoginBtn "mail" "password"),
        .act () (.signedIn 0 "u"), .act () (.signedIn 0 "u")] ++ loads () (record "t" (by decide))
      ++ [.act () .logout] ++ loads () (record "b" (by decide))),
    ∃ s, (w.device ()).app.login = some s ∧ .login s.number ∉ pending (w.device ())
  := by
  have hrun : ∃ w ∈ run World.initial (launches () ++ loads () (record "a" (by decide))
      ++ [.act () (.tappedLoginBtn "mail" "password"), .act () (.tappedLoginBtn "mail" "password"),
        .act () (.signedIn 0 "u"), .act () (.signedIn 0 "u")] ++ loads () (record "t" (by decide))
      ++ [.act () .logout] ++ loads () (record "b" (by decide))),
      (w.device ()).app.running ∧ (w.device ()).app.currentUser = none := by
    decide +kernel
  obtain ⟨w, hw, hrunning, huser⟩ := hrun
  use w, hw
  apply (front_of_run hw hrunning).1 huser

/-- A user is renamed while the list is still empty. -/
theorem aborts_iff_empty :
  ∃ w ∈ run World.initial (launches () ++ loads () (record "a" (by decide)) ++ registers () "u"
      ++ loads () (record "t" (by decide)) ++ [.kill ()] ++ launches ()),
    ∃ c, handler program w (.act () (.backToSaveBtn "n")) = some ((), c, none)
  := by
  have hrun : ∃ w ∈ run World.initial (launches () ++ loads () (record "a" (by decide))
      ++ registers () "u" ++ loads () (record "t" (by decide)) ++ [.kill ()] ++ launches ()),
      OnHome w () ∧ ¬ HasRecord (w.device ()).app := by
    decide +kernel
  obtain ⟨w, hw, hhome, habsent⟩ := hrun
  use w, hw
  apply (aborts_iff hw _).mpr
  right
  use "n", rfl, by decide

end Users

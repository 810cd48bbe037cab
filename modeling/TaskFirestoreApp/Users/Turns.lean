import TaskFirestoreApp.Users.Directory
import TaskFirestoreApp.Users.Rest

/-!
# Devices that take turns

Devices that take turns, each waiting until nothing is outstanding, implement the accounts: the
collection Users is the table of names, with one record for each account, and no turn aborts the
app. The deeds that can be done are those the accounts allow.
-/

namespace Users

open Backend UserInfoManager TaskLoginViewController

variable {D : Type}

/-- What the user presses for a deed, and what Auth answers. -/
inductive Presses : Deed D → List (Event D) → Prop
  | login (d : D) (uid email password : String) (i : ℕ) (fields : commonAlert email password) :
      Presses (.signIn d uid) [.act d (.tappedLoginBtn email password), .act d (.signedIn i uid)]
  | register (d : D) (uid email password : String) (i : ℕ) (fields : commonAlert email password) :
      Presses (.signIn d uid)
        [.act d (.tappedNewRegisterBtn email password), .act d (.signedIn i uid)]
  | rename (d : D) (name : String) (nonempty : name ≠ "") :
      Presses (.rename d name) [.act d (.backToSaveBtn name)]
  | signOut (d : D) : Presses (.signOut d) [.act d .logout]
  | restart (d : D) (now : Timestamp) : Presses (.restart d) [.kill d, .act d (.launch now)]

/-- A device that runs at rest shows Home to a user who is signed in and has a record, and a
login screen otherwise. -/
structure AtRest (on : Bool) (user : Option String) (app : App) : Prop where
  running : app.running = on
  user : app.currentUser = user
  signIns : app.signIns = []
  screen : app.running → app.currentUser = none → ∃ n, app.login = some ⟨n, false⟩
  home : app.running → app.currentUser.isSome → app.login = none ∧ HasRecord app

/-- The world at rest implements the accounts. -/
structure Represents (w : World D) (a : Accounts D) : Prop where
  grounded : ∃ l, Grounded l w
  quiet : w.Quiet
  directory : Directory a.name w.server
  device : ∀ d, AtRest (a.running d) (a.user d) (w.device d).app
  accounts : ∀ d uid, a.user d = some uid → (a.name uid).isSome

/-- Home shows the name of the user who is signed in. -/
def NameShown (name : String → Option String) (app : App) : Prop :=
  ∀ uid, app.running → app.currentUser = some uid →
    name uid = some (getNameAtCurrentUserID app.userID app.userLists)

/-- The name that is shown is that of the records of the user. -/
theorem nameShown_of_forall {name : String → Option String} {app : App}
    (hrecord : app.running → app.currentUser.isSome → HasRecord app)
    (h : ∀ uid, app.currentUser = some uid → ∀ u ∈ app.userLists, u.userID = app.userID →
      name uid = some u.name) :
  NameShown name app
  := by
  intro uid hrunning huser
  obtain ⟨u, hu, hid⟩ := hrecord hrunning (by simp [huser])
  cases hlast : lastRecord app.userID app.userLists with
  | none => exact absurd hid (lastRecord_eq_none.mp hlast u hu)
  | some v =>
      obtain ⟨hv, hvid⟩ := lastRecord_eq_some hlast
      rw [h uid huser v hv hvid, getNameAtCurrentUserID, lastAtCurrentUserID_eq, hlast]
      rfl

variable [DecidableEq D]

/-- A deed is done when nothing is outstanding, and the devices come to rest, in order and
nothing failing. -/
structure Turn (w : World D) (deed : Deed D) (w' : World D) : Prop where
  presses : ∃ es w₁ es', Presses deed es ∧ run w es = some w₁
    ∧ (∀ e ∈ es', e.Spontaneous ∧ e.Orderly) ∧ run w₁ es' = some w'
  quiet : w'.Quiet

section Deeds

variable {w w₁ w' : World D} {a : Accounts D} {d : D} {uid name : String} {es : List (Event D)}

omit [DecidableEq D] in
/-- At rest Home is in front exactly of a user who is signed in. -/
theorem isSome_iff_home (h : Represents w a) (hrunning : (w.device d).app.running) :
  (w.device d).app.login = none ↔ (w.device d).app.currentUser.isSome
  := by
  constructor
  · intro hlogin
    rw [Option.isSome_iff_ne_none]
    intro hnone
    obtain ⟨n, hn⟩ := (h.device d).screen hrunning hnone
    simp [hlogin] at hn
  · intro huser
    apply ((h.device d).home hrunning huser).1

omit [DecidableEq D] in
/-- Both buttons of the login screen ask Auth. -/
theorem asks_of_presses (app : App) (hpresses : Presses (.signIn d uid) es) :
  ∃ tap i, es = [.act d tap, .act d (.signedIn i uid)]
    ∧ (enabled tap app → app.running ∧ app.login.any fun s => !s.alert)
    ∧ ∀ s, app.login = some s →
      act tap app = some ({ app with signIns := app.signIns ++ [s.number] }, [])
  := by
  cases hpresses with
  | login _ _ email password i fields =>
      refine ⟨.tappedLoginBtn email password, i, rfl, Bool.and_eq_true_iff.mp, ?_⟩
      intro s hs
      simp [act, hs, tappedLoginBtn, fields, emailLogin]
  | register _ _ email password i fields =>
      refine ⟨.tappedNewRegisterBtn email password, i, rfl, Bool.and_eq_true_iff.mp, ?_⟩
      intro s hs
      simp [act, hs, tappedNewRegisterBtn, fields, emailNewRegister]

/-- A sign-in leaves the load of the login screen to be done. -/
theorem signIn_presses (h : Represents w a) (hpresses : Presses (.signIn d uid) es)
    (hs : run w es = some w₁) :
  ∃ n, (w.device d).app.running ∧ (w.device d).app.login = some ⟨n, false⟩
    ∧ w₁.device d = ⟨{ (w.device d).app with
        signIns := []
        currentUser := some uid
        userLists := [] }, ⟨[], [.login n], [], []⟩⟩
    ∧ w₁.server = w.server ∧ ∀ f, f ≠ d → w₁.device f = w.device f
  := by
  have hrest := h.device d
  obtain ⟨tap, i, rfl, henabled, hact⟩ := asks_of_presses (w.device d).app hpresses
  obtain ⟨w₂, hs₂, hrest₁⟩ := Run.exec_cons_iff.mp hs
  obtain ⟨w₁', hs₁, hnil⟩ := Run.exec_cons_iff.mp hrest₁
  obtain rfl : w₁' = w₁ := by simpa using hnil
  -- the login screen is presented
  obtain ⟨hrunning, hany⟩ := henabled (enabled_of_act hs₂)
  obtain ⟨n, hscreen⟩ : ∃ n, (w.device d).app.login = some ⟨n, false⟩ := by
    apply hrest.screen hrunning
    rw [← Option.not_isSome_iff_eq_none]
    intro huser
    simp [(hrest.home hrunning huser).1] at hany
  -- Auth is asked once
  obtain ⟨hdevice₂, hserver₂, hothers₂⟩ := act_alone hs₂ (hact _ hscreen)
  rw [hrest.signIns, h.quiet.client_eq d] at hdevice₂
  obtain rfl : i = 0 := by
    obtain ⟨-, hi⟩ := Bool.and_eq_true_iff.mp (enabled_of_act hs₁)
    simpa [hdevice₂] using hi
  have hact₁ : program.act (.signedIn 0 uid) (w₂.device d).app = some
      ({ (w.device d).app with signIns := [], currentUser := some uid, userLists := [] },
        [.get (.login n)]) := by
    rw [hdevice₂]
    rfl
  obtain ⟨hdevice₁, hserver₁, hothers₁⟩ := act_alone hs₁ hact₁
  use n, hrunning, hscreen
  refine ⟨?_, hserver₁.trans hserver₂, fun f hf => (hothers₁ f hf).trans (hothers₂ f hf)⟩
  rw [hdevice₁, hdevice₂]
  rfl

omit [DecidableEq D] in
/-- An id that is new is not stored. -/
theorem lookup_of_fresh {l : List Creation} (h : Grounded l w) {id : String} (hid : id ∉ w.issued) :
  w.server.lookup id = none
  := by
  cases hdoc : w.server.lookup id with
  | none => rfl
  | some doc =>
      obtain ⟨u, -, rfl, hu⟩ := h.traced.recorded.versions.server id doc hdoc
      exact absurd (h.traced.recorded.issued u.creation hu).1 hid

/-- The load of a login screen that is presented, into an empty `userLists`: Home is in front
with the records that are stored and one of the user. -/
theorem login_completed {n : ℕ} {c : Collection String Document} {record : NewRecord}
    {app app' : App} {cs : List Command} (hlists : app.userLists = [])
    (hlogin : app.login = some ⟨n, false⟩)
    (hall : (orderedByCreatedAt c).all fun document => (UserInfo.decode document.2).isOk)
    (h : readUserInfoFromFirestore.completed n c record app = some (app', cs)) :
  (app'.running = app.running ∧ app'.currentUser = app.currentUser ∧ app'.signIns = app.signIns
      ∧ app'.login = none)
    ∧ (Stores c app.userID ∧ app'.userLists = loaded (.login n) c ∧ cs = []
      ∨ ¬ Stores c app.userID
        ∧ app'.userLists = loaded (.login n) c ++ [added record app.userID]
        ∧ cs = [.draw record.taskId, .write (.set record.taskId (added record app.userID).encode)])
  := by
  constructor
  · obtain ⟨userLists, rfl, -⟩ := completed_spec h
    refine ⟨rfl, rfl, rfl, ?_⟩
    rw [if_pos hall]
    simp [presentTaskHomeViewController, hlogin]
  · obtain ⟨login, heq⟩ := completed_eq n c record app
    rw [heq, hlists, List.nil_append] at h
    have hstores : (∃ u ∈ loaded (.login n) c, u.userID = app.userID) ↔ Stores c app.userID :=
      (stores_iff (.login n)).symm
    split_ifs at h with hany
    · obtain ⟨rfl, rfl⟩ := Prod.mk.inj (Option.some.inj h.symm)
      left
      exact ⟨hstores.mp hany, rfl, rfl⟩
    · obtain ⟨rfl, rfl⟩ := Prod.mk.inj (Option.some.inj h.symm)
      right
      exact ⟨mt hstores.mpr hany, rfl, rfl⟩

omit [DecidableEq D] in
/-- The devices that did not take the turn are as they were. -/
theorem alone_of_others (h : w.Quiet) (hothers : ∀ f, f ≠ d → w₁.device f = w.device f) :
  Alone d w₁
  := by
  intro f hf
  rw [hothers f hf, h.client_eq f]

/-- What a sign-in does: Home is in front with the records that are stored, and with one that is
created when there is none of the user. -/
theorem signIn_turn (h : Represents w a) (hpresses : Presses (.signIn d uid) es)
    (hs : run w es = some w₁) {es' : List (Event D)}
    (hes' : ∀ e ∈ es', e.Spontaneous ∧ e.Orderly) (hs' : run w₁ es' = some w')
    (hquiet : w'.Quiet) :
  ∃ n app, (w'.device d).app = app ∧ (∀ f, f ≠ d → w'.device f = w.device f)
    ∧ (app.running = (w.device d).app.running ∧ app.currentUser = some uid ∧ app.signIns = []
      ∧ app.login = none)
    ∧ (Stores w.server (describing (some uid)) ∧ app.userLists = loaded (.login n) w.server
        ∧ w'.server = w.server
      ∨ ¬ Stores w.server (describing (some uid)) ∧ ∃ record : NewRecord,
        w.server.lookup record.taskId = none
          ∧ app.userLists = loaded (.login n) w.server ++ [added record (describing (some uid))]
          ∧ w'.server = (Write.set record.taskId
            (added record (describing (some uid))).encode).apply w.server)
  := by
  obtain ⟨l, hl⟩ := h.grounded
  obtain ⟨l₁, hl₁⟩ := grounded_of_exec hl hs
  obtain ⟨n, -, hscreen, hdevice, hserver, hothers⟩ := signIn_presses h hpresses hs
  have hclient : (w₁.device d).client = ⟨[], [.login n], [], []⟩ := by rw [hdevice]
  obtain ⟨x, app, cs, hcall, hfresh, hserver', happ, hothers'⟩ := exists_callback responsive_program
    (alone_of_others h.quiet hothers)
    (fun x => Option.isSome_iff_exists.mpr (callback_eq_some _ _ x _)) hclient hes' hs' hquiet
  have hall := decodes_of_recorded hl₁.traced.recorded.versions.server
  rw [hdevice, hserver] at hcall
  rw [hserver] at hall hserver'
  obtain ⟨⟨hrunning', huser', hsignIns', hlogin'⟩, hload⟩ :=
    login_completed (by exact rfl) (by exact hscreen) hall hcall
  use n, app, happ, fun f hf => (hothers' f hf).trans (hothers f hf),
    ⟨hrunning', huser', hsignIns', hlogin'⟩
  rcases hload with ⟨hstores, hlists, rfl⟩ | ⟨habsent, hlists, rfl⟩
  · left
    exact ⟨hstores, hlists, hserver'⟩
  · right
    have hlookup : w.server.lookup x.taskId = none := by
      rw [← hserver]
      apply lookup_of_fresh hl₁ (hfresh _ (by simp [Command.drawn]))
    exact ⟨habsent, x, hlookup, hlists, hserver'⟩

/-- After a sign-in the account is open, and its name is shown. -/
theorem represents_signIn (h : Represents w a) (hpresses : Presses (.signIn d uid) es)
    (hs : run w es = some w₁) {es' : List (Event D)}
    (hes' : ∀ e ∈ es', e.Spontaneous ∧ e.Orderly) (hs' : run w₁ es' = some w')
    (hquiet : w'.Quiet) :
  Represents w' (a.after (.signIn d uid))
    ∧ NameShown (a.after (.signIn d uid)).name (w'.device d).app
  := by
  obtain ⟨l, hl⟩ := h.grounded
  obtain ⟨l₁, hl₁⟩ := grounded_of_exec hl hs
  obtain ⟨n, app, happ, hothers, ⟨hrunning, huser, hsignIns, hlogin⟩, hload⟩ :=
    signIn_turn h hpresses hs hes' hs' hquiet
  have huserID : app.userID = describing (some uid) := by rw [App.userID, huser]
  -- the account has a record now
  obtain ⟨hdirectory, hrecord, hnames⟩ : Directory (Accounts.opened a.name uid) w'.server
      ∧ HasRecord app ∧ ∀ u ∈ app.userLists, u.userID = app.userID →
        Accounts.opened a.name uid uid = some u.name := by
    rcases hload with ⟨hstores, hlists, hserver⟩ | ⟨habsent, record, hlookup, hlists, hserver⟩
    · have hname := h.directory.stores_iff.mp hstores
      rw [Accounts.opened, if_pos hname, hserver, hlists, huserID, HasRecord, hlists, huserID]
      use h.directory, (stores_iff _).mp hstores
      intro u hu hid
      apply h.directory.name_of_mem_loaded hu hid
    · have hname : Accounts.opened a.name uid uid = some "" := by
        rw [Accounts.opened, if_neg (mt h.directory.stores_iff.mpr habsent)]
        simp
      use hserver ▸ h.directory.create habsent hlookup
      constructor
      · use added record (describing (some uid))
        rw [hlists, huserID]
        exact ⟨List.mem_append_right _ (List.mem_singleton_self _), rfl⟩
      · intro u hu hid
        rw [hlists] at hu
        rcases List.mem_append.mp hu with hu | hu
        · obtain ⟨i, doc, hdoc, hdec⟩ := mem_loaded.mp hu
          exact absurd ⟨i, doc, u, hdoc, hdec, hid.trans huserID⟩ habsent
        · rw [hname, List.mem_singleton.mp hu]
          rfl
  constructor
  · constructor
    · apply grounded_of_exec hl₁ hs'
    · apply hquiet
    · apply hdirectory
    · intro f
      rcases eq_or_ne f d with rfl | hf
      · rw [happ]
        constructor
        · rw [hrunning]
          apply (h.device f).running
        · simp [Accounts.after, huser]
        · rw [hsignIns]
        · simp [huser]
        · intro _ _
          exact ⟨hlogin, hrecord⟩
      · rw [hothers f hf]
        simpa [Accounts.after, hf] using h.device f
    · intro f uid' huser'
      rcases eq_or_ne f d with rfl | hf
      · apply Accounts.opened_isSome
        right
        simpa [Accounts.after] using huser'.symm
      · apply Accounts.opened_isSome
        left
        apply h.accounts f
        simpa [Accounts.after, hf] using huser'
  · rw [happ]
    apply nameShown_of_forall (fun _ _ => hrecord)
    intro uid' huid'
    obtain rfl : uid = uid' := Option.some.inj (huser.symm.trans huid')
    apply hnames

/-- What signing out does: a login screen is presented. -/
theorem signOut_turn (h : Represents w a) (hs : run w [.act d .logout] = some w₁)
    {es' : List (Event D)} (hes' : ∀ e ∈ es', e.Spontaneous ∧ e.Orderly)
    (hs' : run w₁ es' = some w') (hquiet : w'.Quiet) :
  (w'.device d).app
      = ViewController.presentLoginViewController { (w.device d).app with currentUser := none }
    ∧ w'.server = w.server ∧ ∀ f, f ≠ d → w'.device f = w.device f
  := by
  obtain ⟨w₁', hlogout, hnil⟩ := Run.exec_cons_iff.mp hs
  obtain rfl : w₁' = w₁ := by simpa using hnil
  obtain ⟨hdevice, hserver, hothers⟩ := act_alone hlogout rfl
  have hclient : (w₁'.device d).client = ⟨[], [], [], []⟩ := by
    rw [hdevice, h.quiet.client_eq d]
    rfl
  obtain ⟨hserver', happ, hothers'⟩ :=
    server_of_drained (alone_of_others h.quiet hothers) hclient hes' hs' hquiet
  rw [hserver, Collection.overlay_nil] at hserver'
  rw [hdevice] at happ
  use happ, hserver', fun f hf => (hothers' f hf).trans (hothers f hf)

/-- After signing out the login screen is presented. -/
theorem represents_signOut (h : Represents w a) (hs : run w [.act d .logout] = some w₁)
    {es' : List (Event D)} (hes' : ∀ e ∈ es', e.Spontaneous ∧ e.Orderly)
    (hs' : run w₁ es' = some w') (hquiet : w'.Quiet) :
  Represents w' (a.after (.signOut d)) ∧ NameShown (a.after (.signOut d)).name (w'.device d).app
  := by
  obtain ⟨l, hl⟩ := h.grounded
  obtain ⟨l₁, hl₁⟩ := grounded_of_exec hl hs
  obtain ⟨happ, hserver, hothers⟩ := signOut_turn h hs hes' hs' hquiet
  constructor
  · constructor
    · apply grounded_of_exec hl₁ hs'
    · apply hquiet
    · rw [hserver]
      apply h.directory
    · intro f
      rcases eq_or_ne f d with rfl | hf
      · rw [happ]
        constructor
        · apply (h.device f).running
        · simp [Accounts.after, ViewController.presentLoginViewController]
        · apply (h.device f).signIns
        · intro _ _
          exact ⟨_, rfl⟩
        · intro _ huser
          cases huser
      · rw [hothers f hf]
        simpa [Accounts.after, hf] using h.device f
    · intro f uid' huser
      apply h.accounts f
      by_cases hf : f = d
      · simp [Accounts.after, hf] at huser
      · simpa [Accounts.after, hf] using huser
  · rw [happ]
    intro uid' _ huser
    cases huser

/-- A restart leaves Home's load to be done. -/
theorem restart_presses {now : Timestamp} (h : Represents w a)
    (hs : run w [.kill d, .act d (.launch now)] = some w₁) :
  (∃ app, w₁.device d = ⟨app, ⟨[], [.home], [], []⟩⟩ ∧ app.running
      ∧ app.currentUser = (w.device d).app.currentUser ∧ app.signIns = [] ∧ app.userLists = []
      ∧ app.login = if (w.device d).app.currentUser.isSome then none else some ⟨0, false⟩)
    ∧ w₁.server = w.server ∧ ∀ f, f ≠ d → w₁.device f = w.device f
  := by
  obtain ⟨w₂, hkill, hrest⟩ := Run.exec_cons_iff.mp hs
  obtain ⟨w₁', hlaunch, hnil⟩ := Run.exec_cons_iff.mp hrest
  obtain rfl : w₁' = w₁ := by simpa using hnil
  have hsettle : settle program w d (w.device d).client none = some w₂ := hkill
  have hdevice₂ := settle_self_none hsettle
  rw [h.quiet.client_eq d] at hdevice₂
  obtain ⟨hdevice₁, hserver₁, hothers₁⟩ := act_alone hlaunch rfl
  rw [hdevice₂] at hdevice₁
  refine ⟨⟨_, hdevice₁, ?_⟩, hserver₁.trans (settle_server hsettle),
    fun f hf => (hothers₁ f hf).trans (settle_device_of_ne hsettle hf)⟩
  cases huser : (w.device d).app.currentUser with
  | none =>
      simp [ViewController.isLogin, App.started, program, App.stopped,
        ViewController.presentLoginViewController, huser]
  | some uid =>
      simp [ViewController.isLogin, App.started, program, App.stopped, huser]

/-- What a restart does: the user who was signed in is on Home, with the records that are
stored. -/
theorem restart_turn {now : Timestamp} (h : Represents w a)
    (hs : run w [.kill d, .act d (.launch now)] = some w₁) {es' : List (Event D)}
    (hes' : ∀ e ∈ es', e.Spontaneous ∧ e.Orderly) (hs' : run w₁ es' = some w')
    (hquiet : w'.Quiet) :
  ∃ app, (w'.device d).app = app ∧ (∀ f, f ≠ d → w'.device f = w.device f)
    ∧ (app.running ∧ app.currentUser = (w.device d).app.currentUser ∧ app.signIns = []
      ∧ app.login = if (w.device d).app.currentUser.isSome then none else some ⟨0, false⟩)
    ∧ app.userLists = loaded .home w.server ∧ w'.server = w.server
  := by
  obtain ⟨⟨app₁, hdevice, hrunning, huser, hsignIns, hlists, hlogin⟩, hserver, hothers⟩ :=
    restart_presses h hs
  have hclient : (w₁.device d).client = ⟨[], [.home], [], []⟩ := by rw [hdevice]
  obtain ⟨x, app, cs, hcall, -, hserver', happ, hothers'⟩ := exists_callback responsive_program
    (alone_of_others h.quiet hothers)
    (fun x => Option.isSome_iff_exists.mpr (callback_eq_some _ _ x _)) hclient hes' hs' hquiet
  rw [hdevice, hserver] at hcall
  obtain ⟨rfl, rfl⟩ := Prod.mk.inj (Option.some.inj hcall.symm)
  have huserLists : (ViewController.readUserInfoFromFirestore.completed w.server app₁).1.userLists
      = loaded .home w.server := by
    apply Eq.trans (appendDocuments_eq .home w.server app₁.userLists)
    rw [hlists, List.nil_append]
  rw [hserver, List.filterMap_nil, Collection.overlay_nil] at hserver'
  use (ViewController.readUserInfoFromFirestore.completed w.server app₁).1, happ,
    fun f hf => (hothers' f hf).trans (hothers f hf), ⟨hrunning, huser, hsignIns, hlogin⟩,
    huserLists

/-- After a restart the user who was signed in is on Home, and its name is shown. -/
theorem represents_restart {now : Timestamp} (h : Represents w a)
    (hs : run w [.kill d, .act d (.launch now)] = some w₁) {es' : List (Event D)}
    (hes' : ∀ e ∈ es', e.Spontaneous ∧ e.Orderly) (hs' : run w₁ es' = some w')
    (hquiet : w'.Quiet) :
  Represents w' (a.after (.restart d)) ∧ NameShown (a.after (.restart d)).name (w'.device d).app
  := by
  obtain ⟨l, hl⟩ := h.grounded
  obtain ⟨l₁, hl₁⟩ := grounded_of_exec hl hs
  obtain ⟨app, happ, hothers, ⟨hrunning, huser, hsignIns, hlogin⟩, hlists, hserver⟩ :=
    restart_turn h hs hes' hs' hquiet
  rw [(h.device d).user] at huser hlogin
  have hnames : ∀ uid', a.user d = some uid' →
      (∃ u ∈ app.userLists, u.userID = app.userID)
        ∧ ∀ u ∈ app.userLists, u.userID = app.userID → a.name uid' = some u.name := by
    intro uid' huid'
    rw [hlists, App.userID, huser, huid']
    constructor
    · apply (stores_iff .home).mp
      apply h.directory.stores_iff.mpr
      apply h.accounts d uid' huid'
    · intro u hu hid
      apply h.directory.name_of_mem_loaded hu hid
  have hrecord : app.currentUser.isSome → HasRecord app := by
    rw [huser]
    intro hsome
    obtain ⟨uid', huid'⟩ := Option.isSome_iff_exists.mp hsome
    apply (hnames uid' huid').1
  constructor
  · constructor
    · apply grounded_of_exec hl₁ hs'
    · apply hquiet
    · rw [hserver]
      apply h.directory
    · intro f
      rcases eq_or_ne f d with rfl | hf
      · rw [happ]
        constructor
        · simp only [Accounts.after, Function.update_self]
          apply hrunning
        · apply huser
        · apply hsignIns
        · intro _ hnone
          use 0
          rw [hlogin, ← huser, hnone]
          rfl
        · intro _ hsome
          constructor
          · rw [hlogin, ← huser, if_pos hsome]
          · apply hrecord hsome
      · rw [hothers f hf]
        simpa [Accounts.after, hf] using h.device f
    · apply h.accounts
  · rw [happ]
    apply nameShown_of_forall (fun _ hsome => hrecord hsome)
    intro uid' huid'
    apply (hnames uid' (huser.symm.trans huid')).2

omit [DecidableEq D] in
/-- At rest a rename saves a record of the user, and does not abort the app. -/
theorem exists_rename (h : Represents w a) (hrunning : (w.device d).app.running)
    (huser : (w.device d).app.currentUser.isSome) (hname : name ≠ "") :
  ∃ u, lastRecord (w.device d).app.userID (w.device d).app.userLists = some u
    ∧ act (.backToSaveBtn name) (w.device d).app = some
      ({ (w.device d).app with userLists :=
          setNameAtCurrentUserID name (w.device d).app.userID (w.device d).app.userLists },
        [.write (.set u.taskId { u with name := name }.encode)])
  := by
  obtain ⟨l, hl⟩ := h.grounded
  obtain ⟨-, v, hv, hid⟩ := (h.device d).home hrunning huser
  cases hlast : lastRecord (w.device d).app.userID (w.device d).app.userLists with
  | none => exact absurd hid (lastRecord_eq_none.mp hlast v hv)
  | some u =>
      use u, rfl
      apply TaskEditUserInfoViewController.backToSaveBtn_eq_some hname hlast
      apply hl.traced.recorded.segment (lastRecord_eq_some hlast).1

/-- What a rename does: the records of the user have the new name, and the last one is saved. -/
theorem rename_turn (h : Represents w a) (hname : name ≠ "")
    (hs : run w [.act d (.backToSaveBtn name)] = some w₁) {es' : List (Event D)}
    (hes' : ∀ e ∈ es', e.Spontaneous ∧ e.Orderly) (hs' : run w₁ es' = some w')
    (hquiet : w'.Quiet) :
  ∃ u uid, lastRecord (w.device d).app.userID (w.device d).app.userLists = some u
    ∧ (w.device d).app.currentUser = some uid ∧ (w.device d).app.login = none
    ∧ (w'.device d).app = { (w.device d).app with
        userLists :=
          setNameAtCurrentUserID name (w.device d).app.userID (w.device d).app.userLists }
    ∧ w'.server = (Write.set u.taskId { u with name := name }.encode).apply w.server
    ∧ ∀ f, f ≠ d → w'.device f = w.device f
  := by
  obtain ⟨w₁', hsave, hnil⟩ := Run.exec_cons_iff.mp hs
  obtain rfl : w₁' = w₁ := by simpa using hnil
  obtain ⟨hrunning, hlogin⟩ : (w.device d).app.running ∧ (w.device d).app.login = none := by
    simpa [program, enabled] using enabled_of_act hsave
  obtain ⟨uid, huid⟩ := Option.isSome_iff_exists.mp ((isSome_iff_home h hrunning).mp hlogin)
  obtain ⟨u, hlast, hact⟩ := exists_rename h hrunning (by simp [huid]) hname
  obtain ⟨hdevice, hserver, hothers⟩ := act_alone hsave hact
  have hclient : (w₁'.device d).client
      = ⟨[.set u.taskId { u with name := name }.encode], [], [], []⟩ := by
    rw [hdevice, h.quiet.client_eq d]
    rfl
  obtain ⟨hserver', happ, hothers'⟩ :=
    server_of_drained (alone_of_others h.quiet hothers) hclient hes' hs' hquiet
  rw [hserver] at hserver'
  rw [hdevice] at happ
  use u, uid, hlast, huid, hlogin, happ, hserver',
    fun f hf => (hothers' f hf).trans (hothers f hf)

/-- After a rename the account has the new name, and it is shown. -/
theorem represents_rename (h : Represents w a) (hname : name ≠ "")
    (hs : run w [.act d (.backToSaveBtn name)] = some w₁) {es' : List (Event D)}
    (hes' : ∀ e ∈ es', e.Spontaneous ∧ e.Orderly) (hs' : run w₁ es' = some w')
    (hquiet : w'.Quiet) :
  Represents w' (a.after (.rename d name))
    ∧ NameShown (a.after (.rename d name)).name (w'.device d).app
  := by
  obtain ⟨l, hl⟩ := h.grounded
  obtain ⟨l₁, hl₁⟩ := grounded_of_exec hl hs
  obtain ⟨u, uid, hlast, huid, hlogin, happ, hserver, hothers⟩ :=
    rename_turn h hname hs hes' hs' hquiet
  have hrest := h.device d
  have huserID : (w.device d).app.userID = describing (some uid) := by rw [App.userID, huid]
  have hafter : (a.after (.rename d name)).name = Function.update a.name uid (some name) := by
    simp [Accounts.after, ← hrest.user, huid]
  -- the record that is saved is that of the account
  obtain ⟨hu, hid⟩ := lastRecord_eq_some hlast
  obtain ⟨doc, v, hdoc, hdec, hcreation⟩ := stored_of_quiet hl h.quiet hu
  have hdirectory := h.directory.rename (n := name) (hid.trans huserID) hdoc hdec hcreation
  have hrecord : HasRecord (w'.device d).app := by
    have hsaved : lastRecord (w.device d).app.userID (setNameAtCurrentUserID name
        (w.device d).app.userID (w.device d).app.userLists) = some { u with name := name } := by
      rw [lastRecord_setName, hlast]
      rfl
    rw [happ]
    exact ⟨_, lastRecord_eq_some hsaved⟩
  constructor
  · constructor
    · apply grounded_of_exec hl₁ hs'
    · apply hquiet
    · rw [hserver, hafter]
      apply hdirectory
    · intro f
      rcases eq_or_ne f d with rfl | hf
      · constructor
        · rw [happ]
          apply hrest.running
        · rw [happ]
          apply hrest.user
        · rw [happ]
          apply hrest.signIns
        · rw [happ]
          apply hrest.screen
        · intro _ _
          refine ⟨?_, hrecord⟩
          rw [happ]
          apply hlogin
      · rw [hothers f hf]
        apply h.device f
    · intro f uid' huser
      rw [hafter]
      by_cases huid' : uid' = uid
      · simp [huid']
      · rw [Function.update_of_ne huid']
        apply h.accounts f uid' huser
  · apply nameShown_of_forall (fun _ _ => hrecord)
    intro uid' huid' v hv hid'
    rw [happ] at huid' hv hid'
    obtain rfl : uid = uid' := Option.some.inj (huid.symm.trans huid')
    obtain ⟨v', hv', rfl⟩ := List.mem_map.mp hv
    have hrenamed : v'.userID = (w.device d).app.userID := by
      split_ifs at hid' with hmine
      · apply hmine
      · apply hid'
    rw [if_pos hrenamed, hafter]
    simp

/-- A turn is taken with what the accounts allow. -/
theorem allows_of_presses {deed : Deed D} (h : Represents w a) (hpresses : Presses deed es)
    (hs : run w es = some w₁) :
  a.allows deed
  := by
  cases deed with
  | signIn d uid =>
      obtain ⟨n, hrunning, hscreen, -⟩ := signIn_presses h hpresses hs
      have hnone : (w.device d).app.currentUser.isNone := by
        by_contra hsome
        rw [Bool.not_eq_true, Option.isNone_eq_false_iff] at hsome
        simp [(isSome_iff_home h hrunning).mpr hsome] at hscreen
      simp [Accounts.allows, ← (h.device d).running, ← (h.device d).user, hrunning, hnone]
  | rename d name =>
      cases hpresses with
      | rename _ _ hname =>
          obtain ⟨w₂, hs₂, -⟩ := Run.exec_cons_iff.mp hs
          obtain ⟨hrunning, hlogin⟩ : (w.device d).app.running ∧ (w.device d).app.login = none := by
            simpa [program, enabled] using enabled_of_act hs₂
          have huser := (isSome_iff_home h hrunning).mp hlogin
          simp [Accounts.allows, ← (h.device d).running, ← (h.device d).user, hrunning, huser,
            hname]
  | signOut d =>
      cases hpresses with
      | signOut _ =>
          obtain ⟨w₂, hs₂, -⟩ := Run.exec_cons_iff.mp hs
          obtain ⟨hrunning, hlogin⟩ : (w.device d).app.running ∧ (w.device d).app.login = none := by
            simpa [program, enabled] using enabled_of_act hs₂
          have huser := (isSome_iff_home h hrunning).mp hlogin
          simp [Accounts.allows, ← (h.device d).running, ← (h.device d).user, hrunning, huser]
  | restart d => rfl

/-- A turn does to the accounts what its deed says, and shows the name of the user. -/
theorem represents_turn {deed : Deed D} (h : Represents w a) (hturn : Turn w deed w') :
  ∃ a', a.step deed = some a' ∧ Represents w' a'
    ∧ NameShown a'.name (w'.device deed.device).app
  := by
  obtain ⟨⟨es, w₁, es', hpresses, hs, hes', hs'⟩, hquiet⟩ := hturn
  use a.after deed, if_pos (allows_of_presses h hpresses hs)
  cases deed with
  | signIn d uid => apply represents_signIn h hpresses hs hes' hs' hquiet
  | rename d name =>
      cases hpresses with
      | rename _ _ hname => apply represents_rename h hname hs hes' hs' hquiet
  | signOut d =>
      cases hpresses with
      | signOut _ => apply represents_signOut h hs hes' hs' hquiet
  | restart d =>
      cases hpresses with
      | restart _ now => apply represents_restart h hs hes' hs' hquiet

/-- The deeds the accounts allow can be pressed. -/
theorem exists_presses {deed : Deed D} (h : Represents w a) (hallows : a.allows deed) :
  ∃ es w₁, Presses deed es ∧ run w es = some w₁
  := by
  cases deed with
  | signIn d uid =>
      have hrest := h.device d
      obtain ⟨hrunning, huser⟩ : a.running d ∧ a.user d = none := by
        simpa [Accounts.allows] using hallows
      rw [← hrest.running] at hrunning
      rw [← hrest.user] at huser
      obtain ⟨n, hn⟩ := hrest.screen hrunning huser
      have htap : program.act (.tappedLoginBtn "mail" "password") (w.device d).app
          = some ({ (w.device d).app with signIns := [n] }, []) := by
        simp [program, act, hn, tappedLoginBtn, commonAlert, emailLogin, hrest.signIns]
      obtain ⟨w₂, hw₂⟩ := exists_act (by simp [program, enabled, hrunning, hn]) htap rfl
      have happ₂ := congrArg Device.app (act_alone hw₂ htap).1
      have hasked : program.act (.signedIn 0 uid) (w₂.device d).app
          = some (signedIn 0 n uid (w₂.device d).app) := by
        simp [program, act, happ₂]
      obtain ⟨w₁, hw₁⟩ := exists_act (by simp [program, enabled, happ₂, hrunning]) hasked rfl
      refine ⟨_, w₁, .login d uid "mail" "password" 0 rfl, ?_⟩
      exact Run.exec_cons_iff.mpr ⟨w₂, hw₂, Run.exec_cons_iff.mpr ⟨w₁, hw₁, rfl⟩⟩
  | rename d name =>
      have hrest := h.device d
      obtain ⟨⟨hrunning, huser⟩, hname⟩ : (a.running d ∧ (a.user d).isSome) ∧ name ≠ "" := by
        simpa [Accounts.allows] using hallows
      rw [← hrest.running] at hrunning
      rw [← hrest.user] at huser
      obtain ⟨u, -, hact⟩ := exists_rename h hrunning huser hname
      have henabled : program.enabled (.backToSaveBtn name) (w.device d).app := by
        simp [program, enabled, hrunning, (hrest.home hrunning huser).1]
      obtain ⟨w₁, hw₁⟩ := exists_act henabled hact rfl
      exact ⟨_, w₁, .rename d name hname, Run.exec_cons_iff.mpr ⟨w₁, hw₁, rfl⟩⟩
  | signOut d =>
      have hrest := h.device d
      obtain ⟨hrunning, huser⟩ : a.running d ∧ (a.user d).isSome := by
        simpa [Accounts.allows] using hallows
      rw [← hrest.running] at hrunning
      rw [← hrest.user] at huser
      have henabled : program.enabled .logout (w.device d).app := by
        simp [program, enabled, hrunning, (hrest.home hrunning huser).1]
      obtain ⟨w₁, hw₁⟩ := exists_act henabled rfl rfl
      exact ⟨_, w₁, .signOut d, Run.exec_cons_iff.mpr ⟨w₁, hw₁, rfl⟩⟩
  | restart d =>
      obtain ⟨w₂, hw₂⟩ : ∃ w₂, step w (.kill d) = some w₂ := ⟨_, rfl⟩
      have hstopped := congrArg Device.app (settle_self_none (P := program) hw₂)
      have henabled : program.enabled (.launch 0) (w₂.device d).app := by
        simp [enabled, hstopped, program, App.stopped]
      obtain ⟨w₁, hw₁⟩ := exists_act henabled rfl rfl
      refine ⟨_, w₁, .restart d 0, ?_⟩
      exact Run.exec_cons_iff.mpr ⟨w₂, hw₂, Run.exec_cons_iff.mpr ⟨w₁, hw₁, rfl⟩⟩

/-- A turn that the accounts allow can be taken. -/
theorem exists_turn {deed : Deed D} (h : Represents w a) (hallows : a.allows deed) :
  ∃ w', Turn w deed w'
  := by
  obtain ⟨es, w₁, hpresses, hs⟩ := exists_presses h hallows
  have hconfined : Confined ∅ w := fun d _ => h.quiet.client_eq d
  obtain ⟨S, hS⟩ := exists_confined hconfined hs
  obtain ⟨es', w', hes', hs', hquiet⟩ := (settles responsive_program (.inr inferInstance) hS).reaches
  exact ⟨w', ⟨es, w₁, es', hpresses, hs, hes', hs'⟩, hquiet⟩

omit [DecidableEq D] in
theorem represents_initial :
  Represents (World.initial : World D) .initial
  where
  grounded := ⟨[], grounded_initial⟩
  quiet d := by simp [World.initial]
  directory := .empty
  device d := by constructor <;> simp [World.initial, App.stopped, Accounts.initial]
  accounts d uid huser := by cases huser

/-- A turn is a step of the accounts. -/
theorem represents_step (w w' : World D) (deed : Deed D) (a : Accounts D) (h : Represents w a)
    (hturn : Turn w deed w') :
  ∃ a', a.step deed = some a' ∧ Represents w' a'
  := by
  obtain ⟨a', ha', h', -⟩ := represents_turn h hturn
  exact ⟨a', ha', h'⟩

/-- Deeds that the accounts allow can be carried out. -/
theorem exists_turns {deeds : List (Deed D)} (ha : Run.exec Accounts.step .initial deeds = some a) :
  ∃ w, Turns Turn (World.initial : World D) deeds w
  := by
  apply Turns.exists_of_exec represents_step _ represents_initial ha
  intro w deed a a' h ha'
  apply exists_turn h
  by_contra hnot
  simp [Accounts.step, hnot] at ha'

/-- Devices that take turns, in which nothing fails, implement the accounts: exactly the deeds
that the accounts allow can be carried out. After them Users holds one record for each account,
with its name, and nothing else, every device is where the deeds have left it, and a user on Home
has a record; and the device that took the last turn shows the name of its user. -/
theorem turns_implement (deeds : List (Deed D)) :
  ((∃ w, Turns Turn (World.initial : World D) deeds w)
      ↔ (Run.exec Accounts.step .initial deeds).isSome)
    ∧ ∀ w, Turns Turn World.initial deeds w →
      ∃ a, Run.exec Accounts.step .initial deeds = some a ∧ Represents w a
        ∧ ∀ ds deed, deeds = ds ++ [deed] → NameShown a.name (w.device deed.device).app
  := by
  constructor
  · constructor
    · rintro ⟨w, hturns⟩
      obtain ⟨a, ha, -⟩ := Turns.simulates represents_step represents_initial hturns
      simp [ha]
    · intro hsome
      obtain ⟨a, ha⟩ := Option.isSome_iff_exists.mp hsome
      apply exists_turns ha
  · intro w hturns
    obtain ⟨a, ha, h⟩ := Turns.simulates represents_step represents_initial hturns
    use a, ha, h
    rintro ds deed rfl
    obtain ⟨w₁, hturns₁, hturn⟩ := Turns.exists_of_concat hturns
    obtain ⟨a₁, ha₁, h₁⟩ := Turns.simulates represents_step represents_initial hturns₁
    obtain ⟨a', ha', -, hshows⟩ := represents_turn h₁ hturn
    obtain ⟨a₁', ha₁', hlast⟩ := Run.exec_append_iff.mp ha
    obtain rfl : a₁' = a₁ := Option.some.inj (ha₁'.symm.trans ha₁)
    obtain ⟨a'', ha'', hnil⟩ := Run.exec_cons_iff.mp hlast
    obtain rfl : a'' = a := by simpa using hnil
    obtain rfl : a'' = a' := Option.some.inj (ha''.symm.trans ha')
    apply hshows

end Deeds

/-- A user is renamed on one device and signs in on another. -/
theorem turns_implement_renamed :
  ∃ w : World Bool, Turns Turn World.initial [.restart true, .signIn true "u", .rename true "n",
      .signOut true, .restart false, .signIn false "u"] w
    ∧ getNameAtCurrentUserID (w.device false).app.userID (w.device false).app.userLists = "n"
  := by
  obtain ⟨hiff, hall⟩ := turns_implement [.restart true, .signIn true "u", .rename true "n",
    .signOut true, .restart false, .signIn false "u"]
  obtain ⟨w, hw⟩ := hiff.mpr (by decide)
  obtain ⟨a, ha, h, hshows⟩ := hall w hw
  use w, hw
  have hname : a.name "u" = some "n" ∧ a.running false ∧ a.user false = some "u" := by
    obtain rfl := Option.some.inj ha
    decide
  have hdevice := h.device false
  have hshown := hshows [.restart true, .signIn true "u", .rename true "n", .signOut true,
    .restart false] (.signIn false "u") rfl "u" (hdevice.running.trans hname.2.1)
    (hdevice.user.trans hname.2.2)
  rw [hname.1] at hshown
  apply (Option.some.inj hshown).symm

end Users

import TaskFirestoreApp.Process.Parts
import TaskFirestoreApp.Groups.Settling
import TaskFirestoreApp.Users.Screens
import TaskFirestoreApp.Users.Owners

/-!
# Who writes

A login screen is presented over Home on the Home tab, with no make-group screen pushed, and
stays over it. As one is presented whenever nobody is signed in, nothing can be done to a group
then. Of all writes only the record that a late load of a login screen creates can be issued
while nobody is signed in.
-/

namespace Process

open Backend

/-- The parts run together, and a login screen covers the Home tab with nothing pushed. -/
structure Covered (app : App) : Prop where
  running : app.groups.running = app.users.running
  tab : app.users.login.isSome → app.groups.tab = .home
  make : app.users.login.isSome → app.groups.make = none

section App

variable {app : App} {g : Groups.App} {u : Users.App} {gs : List Groups.Command}
  {us : List Users.Command}

/-- Groups that keep their tab and push nothing stay covered. -/
theorem Covered.of_groups (h : Covered app) (hrunning : g.running = app.groups.running)
    (htab : g.tab = app.groups.tab) (hmake : app.groups.make = none → g.make = none) :
  Covered { app with groups := g }
  where
  running := hrunning.trans h.running
  tab hlogin := htab.trans (h.tab hlogin)
  make hlogin := hmake (h.make hlogin)

/-- Users that present no login screen leave the groups as they are covered. -/
theorem Covered.of_users (h : Covered app) (hrunning : u.running = app.users.running)
    (hlogin : u.login.isSome → app.users.login.isSome) :
  Covered { app with users := u }
  where
  running := h.running.trans hrunning.symm
  tab hsome := h.tab (hlogin hsome)
  make hsome := h.make (hlogin hsome)

/-- Only Home is left by a push or for another tab, and then no login screen is presented. -/
theorem Covered.act_groups {a : Groups.Action} (h : Covered app)
    (henabled : enabled (.groups a) app) (hact : Groups.act a app.groups = some (g, gs)) :
  Covered { app with groups := g }
  := by
  cases Groups.does_of_act hact with
  | launch now => cases henabled
  | selectHome => exact ⟨h.running, fun _ => rfl, h.make⟩
  | selectList chat | selectChat s chat =>
      -- the tab bar is covered by a login screen
      have hlogin := Option.isNone_iff_eq_none.mp (Bool.and_eq_true_iff.mp henabled).2
      constructor <;> simp [h.running, hlogin]
  | showMakeGroupView now =>
      have hlogin := Option.isNone_iff_eq_none.mp (Bool.and_eq_true_iff.mp henabled).2
      constructor <;> simp [h.running, hlogin]
  | checkBoxIconViewTapped row screen screen' make tapped =>
      refine h.of_groups rfl rfl ?_
      intro hnone
      rw [make] at hnone
      cases hnone
  | makeGroup | popMakeGroupView => exact h.of_groups rfl rfl fun _ => rfl
  | _ => exact h.of_groups rfl rfl id

theorem Covered.callback_groups {q : Groups.Query} {c : Collection String Document}
    (h : Covered app) (hcall : Groups.callback q c () app.groups = some (g, gs)) :
  Covered { app with groups := g }
  := by
  cases q with
  | home | list =>
      obtain ⟨rfl, -⟩ := Prod.mk.inj (Option.some.inj hcall.symm)
      exact h.of_groups rfl rfl id
  | refresh chat =>
      obtain ⟨-, rows, heff | heff⟩ :=
        Groups.TaskGroupDetailViewController.completed_cases hcall
      · obtain ⟨rfl, -⟩ := Prod.mk.inj heff
        exact h.of_groups rfl rfl id
      · obtain ⟨rfl, -⟩ := Prod.mk.inj heff
        exact h.of_groups rfl rfl id

theorem Covered.failed_groups {q : Groups.Query} (h : Covered app)
    (hcall : Groups.failed q app.groups = some (g, gs)) :
  Covered { app with groups := g }
  := by
  cases q with
  | home | list | refresh chat =>
      obtain ⟨rfl, -⟩ := Prod.mk.inj (Option.some.inj hcall.symm)
      exact h.of_groups rfl rfl id

/-- A login screen is presented by a logout only, which is on Home. -/
theorem Covered.act_users {a : Users.Action} (h : Covered app)
    (henabled : enabled (.users a) app) (hact : Users.act a app.users = some (u, us)) :
  Covered { app with users := u }
  := by
  cases Users.does_of_act hact with
  | launch now app₀ started => cases henabled
  | loginAlert email password s login | registerAlert email password s login =>
      refine h.of_users rfl ?_
      rw [Users.isSome_showAlert]
      exact id
  | signInFailed i number asked =>
      refine h.of_users rfl ?_
      rw [Users.isSome_showAlert]
      exact id
  | closeAlert =>
      refine h.of_users rfl ?_
      simp
  | logout =>
      have hhome := (Bool.and_eq_true_iff.mp henabled).2
      simp only [App.atHome, Bool.and_eq_true, beq_iff_eq, Option.isNone_iff_eq_none] at hhome
      exact ⟨h.running, fun _ => hhome.1.2, fun _ => hhome.2⟩
  | _ => exact h.of_users rfl id

theorem Covered.callback_users {q : Users.Query} {c : Collection String Document}
    {record : Users.NewRecord} (h : Covered app)
    (hcall : Users.callback q c record app.users = some (u, us)) :
  Covered { app with users := u }
  := by
  cases q with
  | home =>
      obtain ⟨rfl, -⟩ := Prod.mk.inj (Option.some.inj hcall.symm)
      exact h.of_users rfl id
  | login number =>
      obtain ⟨userLists, rfl, -⟩ := Users.completed_spec hcall
      refine h.of_users rfl ?_
      intro hlogin
      obtain ⟨s, hs⟩ := Option.isSome_iff_exists.mp hlogin
      obtain ⟨s', hs', -⟩ := Users.mem_presentTaskHomeViewController hs
      split_ifs at hs'
      · rw [Option.mem_def.mp hs']
        rfl
      · rw [← Users.isSome_showAlert (n := number), Option.mem_def.mp hs']
        rfl

theorem Covered.failed_users {q : Users.Query} (h : Covered app)
    (hcall : Users.failed q app.users = some (u, us)) :
  Covered { app with users := u }
  := by
  cases q with
  | home =>
      obtain ⟨rfl, -⟩ := Prod.mk.inj (Option.some.inj hcall.symm)
      exact h.of_users rfl id
  | login number =>
      obtain ⟨rfl, -⟩ := Prod.mk.inj (Option.some.inj hcall.symm)
      refine h.of_users rfl ?_
      rw [Users.isSome_showAlert]
      exact id

end App

/-! ### Who is signed in -/

theorem written_ofGroups {gs : List Groups.Command} (h : gs.filterMap Command.written = []) :
  (gs.map ofGroups).filterMap Command.written = []
  := by
  rw [List.filterMap_map, List.filterMap_eq_nil_iff]
  intro x hx
  have hnone := List.filterMap_eq_nil_iff.mp h x hx
  cases x with
  | write x => cases hnone
  | draw id | get q | listen id chat => rfl

theorem written_ofUsers {us : List Users.Command} (h : us.filterMap Command.written = []) :
  (us.map ofUsers).filterMap Command.written = []
  := by
  rw [List.filterMap_map, List.filterMap_eq_nil_iff]
  intro x hx
  have hnone := List.filterMap_eq_nil_iff.mp h x hx
  cases x with
  | write x => cases hnone
  | draw id | get q => rfl
  | listen id tag => exact tag.elim

/-- Home starts a running app. -/
theorem running_viewDidLoad (now : Timestamp) (app : App) :
  (viewDidLoad now app).1.users.running = true
  := by
  simp only [viewDidLoad, Users.ViewController.viewDidLoad,
    Users.ViewController.readUserInfoFromFirestore]
  split_ifs <;> rfl

section Step

variable {D : Type} [DecidableEq D] {w w' : World D} {e : Event D} {d : D}

omit [DecidableEq D] in
/-- A handler leaves the app covered. -/
theorem covered_handler {c : Client Path Document Query Groups.Chat} {app : App} {cs : List Command}
    (h : Covered (w.device d).app) (hh : handler program w e = some (d, c, some (app, cs))) :
  Covered app
  := by
  cases e with
  | act d' a =>
      obtain ⟨henabled, rfl, -, hact⟩ := handler_act.mp hh
      cases a with
      | launch now =>
          obtain ⟨rfl, -⟩ := Prod.mk.inj (Option.some.inj hact)
          refine ⟨(running_viewDidLoad now _).symm, fun _ => rfl, fun _ => rfl⟩
      | groups a =>
          obtain ⟨g, hg, heq⟩ := Option.map_eq_some_iff.mp hact.symm
          obtain ⟨rfl, -⟩ := Prod.mk.inj heq
          exact h.act_groups henabled hg
      | users a =>
          obtain ⟨u, hu, heq⟩ := Option.map_eq_some_iff.mp hact.symm
          obtain ⟨rfl, -⟩ := Prod.mk.inj heq
          exact h.act_users henabled hu
  | deliver d' i record =>
      obtain ⟨q, k, -, rfl, -, hcall⟩ := handler_deliver.mp hh
      cases q with
      | groups q =>
          obtain ⟨g, hg, heq⟩ := Option.map_eq_some_iff.mp hcall.symm
          obtain ⟨rfl, -⟩ := Prod.mk.inj heq
          exact h.callback_groups hg
      | users q =>
          obtain ⟨u, hu, heq⟩ := Option.map_eq_some_iff.mp hcall.symm
          obtain ⟨rfl, -⟩ := Prod.mk.inj heq
          exact h.callback_users hu
  | fail d' i =>
      obtain ⟨q, -, rfl, -, hcall⟩ := handler_fail.mp hh
      cases q with
      | groups q =>
          obtain ⟨g, hg, heq⟩ := Option.map_eq_some_iff.mp hcall.symm
          obtain ⟨rfl, -⟩ := Prod.mk.inj heq
          exact h.failed_groups hg
      | users q =>
          obtain ⟨u, hu, heq⟩ := Option.map_eq_some_iff.mp hcall.symm
          obtain ⟨rfl, -⟩ := Prod.mk.inj heq
          exact h.failed_users hu
  | snapshot d' i =>
      obtain ⟨l, -, -, rfl, -, hcall⟩ := handler_snapshot.mp hh
      obtain ⟨g, hg, heq⟩ : ∃ g, Groups.listener l.tag _ (w.device d').app.groups = some g
        ∧ (w.device d').app.withGroups g = (app, cs) := Option.map_eq_some_iff.mp hcall.symm
      obtain ⟨rfl, -⟩ := Prod.mk.inj heq
      rw [Groups.listener_app hg]
      exact h
  | kill d' => simp [handler] at hh
  | arrive d' => simp [handler] at hh
  | answer d' i => simp [handler] at hh

theorem covered_of_run {es : List (Event D)} (h : run World.initial es = some w) (d : D) :
  Covered (w.device d).app
  := by
  apply Run.invariant_of_step (I := fun w : World D => Covered (w.device d).app) _ _ h
  · intro w e w' hw hs
    rcases app_step hs d with happ | happ | ⟨c, cs, hh, -⟩
    · rw [happ]
      apply hw
    · rw [happ]
      constructor <;> simp [program, Groups.App.stopped, Users.App.stopped]
    · apply covered_handler hw hh
  · constructor <;> simp [World.initial, Groups.App.stopped, Users.App.stopped]

/-- What is done to the groups is done by a running app, and under no login screen. -/
theorem uncovered_of_enabled {app : App} {a : Groups.Action} (h : Covered app)
    (henabled : enabled (.groups a) app) :
  app.users.running ∧ app.users.login = none
  := by
  constructor
  · rw [← h.running]
    have hgroups := enabled_groups henabled
    cases a with
    | launch now => cases henabled
    | _ => simp only [Groups.enabled, Bool.and_eq_true] at hgroups; tauto
  · cases hlogin : app.users.login with
    | none => rfl
    | some s =>
        have htab := h.tab (by rw [hlogin]; rfl)
        have hmake := h.make (by rw [hlogin]; rfl)
        exfalso
        cases a <;> simp [enabled, Groups.enabled, htab, hmake, hlogin] at henabled

theorem guarded_of_run {es : List (Event D)} (h : run World.initial es = some w) (d : D) :
  Users.Guarded (w.device d).app.users (Users.pending (usersPart.device (w.device d)))
  := Users.guarded_of_run (parts_of_run h).2 d

omit [DecidableEq D] in
/-- Somebody is signed in when the groups are changed, as no login screen is presented then. -/
theorem signedIn_of_enabled {a : Groups.Action} {qs : List Users.Query}
    (hcovered : Covered (w.device d).app) (hguarded : Users.Guarded (w.device d).app.users qs)
    (henabled : enabled (.groups a) (w.device d).app) :
  (w.device d).app.users.currentUser.isSome
  := by
  obtain ⟨hrunning, hlogin⟩ := uncovered_of_enabled hcovered henabled
  apply hguarded.isSome hrunning hlogin

/-- In every state the whole app can reach, while nobody is signed in on a device nothing can be
done to the groups there. -/
theorem groups_signedIn {es : List (Event D)} (h : run World.initial es = some w)
    (hnobody : (w.device d).app.users.currentUser = none) (a : Groups.Action) :
  enabled (.groups a) (w.device d).app = false
  := by
  rw [Bool.eq_false_iff]
  intro henabled
  have hsome := signedIn_of_enabled (covered_of_run h d) (guarded_of_run h d) henabled
  rw [hnobody] at hsome
  cases hsome

/-- The handler of the event, if it writes, runs while somebody is signed in. -/
def WritesSignedIn (w : World D) (e : Event D) : Prop :=
  ∀ r ∈ handler program w e, ∀ eff ∈ r.2.2, eff.2.filterMap Command.written ≠ [] →
    (w.device r.1).app.users.currentUser.isSome

instance (w : World D) (e : Event D) : Decidable (WritesSignedIn w e) :=
  inferInstanceAs (Decidable (∀ r ∈ handler program w e, ∀ eff ∈ r.2.2,
    eff.2.filterMap Command.written ≠ [] → (w.device r.1).app.users.currentUser.isSome))

/-- The load of a login screen is delivered while somebody is signed in. -/
def LoadsSignedIn (w : World D) (e : Event D) : Prop :=
  ∀ p ∈ e.delivery, ∀ r ∈ (w.device p.1).client.results[p.2]?, ∀ q ∈ inUsers.query r.1,
    q ≠ .home → (w.device p.1).app.users.currentUser.isSome

instance (w : World D) (e : Event D) : Decidable (LoadsSignedIn w e) :=
  inferInstanceAs (Decidable (∀ p ∈ e.delivery, ∀ r ∈ (w.device p.1).client.results[p.2]?,
    ∀ q ∈ inUsers.query r.1, q ≠ .home → (w.device p.1).app.users.currentUser.isSome))

omit [DecidableEq D] in
/-- An action of the users that writes is a rename, which is on Home. -/
theorem signedIn_of_written {a : Users.Action} {u : Users.App} {us : List Users.Command}
    {qs : List Users.Query} (hguarded : Users.Guarded (w.device d).app.users qs)
    (henabled : enabled (.users a) (w.device d).app)
    (hact : Users.act a (w.device d).app.users = some (u, us))
    (hwritten : us.filterMap Command.written ≠ []) :
  (w.device d).app.users.currentUser.isSome
  := by
  cases Users.does_of_act hact with
  | backToSaveBtn reName v id nonempty record path =>
      have hedit := enabled_users henabled
      simp only [Users.enabled, Bool.and_eq_true, Option.isNone_iff_eq_none] at hedit
      apply hguarded.isSome hedit.1 hedit.2
  | _ => exact absurd rfl hwritten

omit [DecidableEq D] in
/-- Everything but the load of a login screen writes while somebody is signed in only. -/
theorem writesSignedIn_of_loads (hcovered : ∀ d, Covered (w.device d).app)
    (hguarded : ∀ d, Users.Guarded (w.device d).app.users
      (Users.pending (usersPart.device (w.device d)))) (hloads : LoadsSignedIn w e) :
  WritesSignedIn w e
  := by
  rintro ⟨d, c, r⟩ hh ⟨app, cs⟩ rfl hwritten
  cases e with
  | act d' a =>
      obtain ⟨henabled, rfl, -, hact⟩ := handler_act.mp hh
      cases a with
      | launch now =>
          obtain ⟨-, rfl⟩ := Prod.mk.inj (Option.some.inj hact)
          exact absurd rfl hwritten
      | groups a => apply signedIn_of_enabled (hcovered d') (hguarded d') henabled
      | users a =>
          obtain ⟨⟨u, us⟩, hu, heq⟩ := Option.map_eq_some_iff.mp hact.symm
          obtain ⟨-, rfl⟩ := Prod.mk.inj heq
          apply signedIn_of_written (hguarded d') henabled hu
          exact fun hnil => hwritten (written_ofUsers hnil)
  | deliver d' i record =>
      obtain ⟨q, k, hr, rfl, -, hcall⟩ := handler_deliver.mp hh
      cases q with
      | groups q =>
          obtain ⟨⟨g, gs⟩, hg, heq⟩ := Option.map_eq_some_iff.mp hcall.symm
          obtain ⟨-, rfl⟩ := Prod.mk.inj heq
          have hnil := List.length_eq_zero_iff.mp
            (Nat.le_zero.mp (Groups.responsive_program.callback (x := ()) hg).written)
          exact absurd (written_ofGroups hnil) hwritten
      | users q =>
          cases q with
          | home =>
              obtain ⟨-, rfl⟩ := Prod.mk.inj (Option.some.inj hcall)
              exact absurd rfl hwritten
          | login number => exact hloads (d', i) rfl _ hr _ rfl (by simp)
  | fail d' i =>
      obtain ⟨q, -, rfl, -, hcall⟩ := handler_fail.mp hh
      cases q with
      | groups q =>
          obtain ⟨⟨g, gs⟩, hg, heq⟩ := Option.map_eq_some_iff.mp hcall.symm
          obtain ⟨-, rfl⟩ := Prod.mk.inj heq
          have hnil := List.length_eq_zero_iff.mp
            (Nat.le_zero.mp (Groups.responsive_program.failed hg).1.written)
          exact absurd (written_ofGroups hnil) hwritten
      | users q =>
          cases q with
          | home | login number =>
              obtain ⟨-, rfl⟩ := Prod.mk.inj (Option.some.inj hcall)
              exact absurd rfl hwritten
  | snapshot d' i =>
      obtain ⟨l, -, -, rfl, -, hcall⟩ := handler_snapshot.mp hh
      obtain ⟨⟨g, gs⟩, hg, heq⟩ : ∃ g, Groups.listener l.tag _ (w.device d').app.groups = some g
        ∧ (w.device d').app.withGroups g = (app, cs) := Option.map_eq_some_iff.mp hcall.symm
      obtain ⟨-, rfl⟩ := Prod.mk.inj heq
      exact absurd (written_ofGroups (Groups.responsive_program.listener hg).1) hwritten
  | kill d' => simp [handler] at hh
  | arrive d' => simp [handler] at hh
  | answer d' i => simp [handler] at hh

omit [DecidableEq D] in
/-- The load of a login screen that comes while nobody is signed in writes, unless there is a
record of nobody. -/
theorem loadsSignedIn_of_writes (hown : Users.Owned (usersPart.world w))
    (hwrites : WritesSignedIn w e) :
  LoadsSignedIn w e
  := by
  rintro ⟨d, i⟩ he ⟨q, k⟩ hr q' hq' hlogin
  obtain ⟨record, rfl⟩ := Event.delivery_eq_some.mp he
  by_contra hnobody
  rw [Bool.not_eq_true, Option.isSome_eq_false_iff, Option.isNone_iff_eq_none] at hnobody
  cases q with
  | groups q => cases hq'
  | users q =>
      obtain rfl := Option.some.inj hq'
      cases q with
      | home => exact hlogin rfl
      | login number =>
          have hmem : (.login number, Collection.restrict Path.inUsers k)
              ∈ ((usersPart.world w).device d).client.results :=
            List.mem_filterMap.mpr ⟨_, List.mem_of_getElem? hr, rfl⟩
          obtain ⟨u, v, hcall, -, -⟩ := Users.callback_of_nobody hown hmem hnobody record
          have hwhole : callback (.users (.login number)) k record (w.device d).app
              = some ((w.device d).app.withUsers (u, _)) :=
            Option.map_eq_some_iff.mpr ⟨_, hcall, rfl⟩
          have hh : handler program w (.deliver d i record) = some (d, _,
              some ((w.device d).app.withUsers (u, _))) :=
            handler_deliver.mpr ⟨_, k, hr, rfl, rfl, hwhole.symm⟩
          have hsome := hwrites _ hh _ rfl (List.cons_ne_nil _ _)
          rw [hnobody] at hsome
          cases hsome

theorem owned_step (hown : Users.Owned (usersPart.world w)) (hfit : usersPart.Fitting w)
    (hloads : LoadsSignedIn w e) (hs : step w e = some w') :
  Users.Owned (usersPart.world w')
  := by
  have hstep := usersPart.step_world hfit hs
  cases he : usersPart.event w e with
  | none =>
      rw [he, Option.elim_none] at hstep
      rw [hstep]
      apply hown
  | some e' =>
      rw [he, Option.elim_some] at hstep
      apply Users.owned_step hown _ hstep
      intro p hp r' hr' hlogin
      obtain ⟨i, r, r'', hdelivery, hr, hresult, hr''⟩ := usersPart.event_delivery he hp
      obtain rfl : r'' = r' := Option.some.inj (hr''.symm.trans hr')
      obtain ⟨q, hq, rfl⟩ := Option.map_eq_some_iff.mp hresult
      exact hloads (p.1, i) hdelivery r hr q hq hlogin

/-- Throughout a run of the whole app every write of a device, of groups, messages, names or new
records, is issued while somebody is signed in there, exactly when every load of a login screen
is delivered while somebody is signed in. -/
theorem writes_signedIn_iff {es : List (Event D)} (h : run World.initial es = some w) :
  Run.Along step WritesSignedIn World.initial es ↔ Run.Along step LoadsSignedIn World.initial es
  := by
  apply Run.along_congr (I := fun w => (∃ es, run World.initial es = some w)
    ∧ Users.Owned (usersPart.world w)) _ _ _ h
  · rintro w e w' ⟨⟨es, hrun⟩, hown⟩ hs
    constructor
    · apply loadsSignedIn_of_writes hown
    · apply writesSignedIn_of_loads (covered_of_run hrun) (guarded_of_run hrun)
  · rintro w e w' ⟨⟨es, hrun⟩, hown⟩ hloads hs
    refine ⟨⟨_, Run.exec_snoc hrun hs⟩, ?_⟩
    apply owned_step hown (usersPart.fitting_run (fitting_initial usersPart) hrun) hloads hs
  · refine ⟨⟨[], rfl⟩, ?_⟩
    exact Users.owned_initial

end Step

/-- Before anybody logs in to a new device, its groups cannot be left for another tab. -/
theorem groups_signedIn_launched :
  ∃ w ∈ run (World.initial : World Unit) (launched ()),
    enabled (.groups (.selectTab .talk)) (w.device ()).app = false
  := by
  have hrun : ∃ w ∈ run (World.initial : World Unit) (launched ()),
      (w.device ()).app.users.currentUser = none := by
    decide +kernel
  obtain ⟨w, hw, hnobody⟩ := hrun
  use w, hw
  apply groups_signedIn hw hnobody

/-- A user signs in twice from one login screen, makes a group, and logs out before the second load
is delivered. -/
theorem writes_signedIn_iff_twice :
  ¬ Run.Along step WritesSignedIn (World.initial : World Unit) (launched ()
    ++ [.act () (.users (.tappedLoginBtn "mail" "password")),
      .act () (.users (.tappedLoginBtn "mail" "password")), .act () (.users (.signedIn 0 "u")),
      .act () (.users (.signedIn 0 "u")), .answer () 0,
      .deliver () 0 (Users.record "t" (by decide))]
    ++ makesGroup () "g" "t" 1 ++ [.act () (.users .logout), .answer () 0,
      .deliver () 0 (Users.record "b" (by decide))])
  := by
  have hrun : (run (World.initial : World Unit) (launched ()
      ++ [.act () (.users (.tappedLoginBtn "mail" "password")),
        .act () (.users (.tappedLoginBtn "mail" "password")), .act () (.users (.signedIn 0 "u")),
        .act () (.users (.signedIn 0 "u")), .answer () 0,
        .deliver () 0 (Users.record "t" (by decide))]
      ++ makesGroup () "g" "t" 1 ++ [.act () (.users .logout), .answer () 0,
        .deliver () 0 (Users.record "b" (by decide))])).isSome := by
    decide +kernel
  obtain ⟨w, hw⟩ := Option.isSome_iff_exists.mp hrun
  rw [writes_signedIn_iff hw]
  decide +kernel

end Process

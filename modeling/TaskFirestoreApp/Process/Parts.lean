import TaskFirestoreApp.Process.Program

/-!
# The parts of the whole app

The groups and the users are parts of the app, so a run of the whole app is a run of the groups
and a run of the users, and what holds of all runs of the parts holds in it. Only in the whole
app the screens of the two meet: while nobody is signed in, the login screen covers everything
the groups can be changed from.
-/

namespace Process

open Backend

section Commands

variable {gs : List Groups.Command} {us : List Users.Command}

@[simp]
theorem groups_command_ofGroups (x : Groups.Command) :
  inGroups.command (ofGroups x) = some x
  := by
  cases x with
  | draw id | get q | listen id chat => rfl
  | write x => cases x <;> rfl

@[simp]
theorem groups_command_ofUsers (x : Users.Command) :
  inGroups.command (ofUsers x) = none
  := by
  cases x with
  | draw id | get q => rfl
  | write x => cases x <;> rfl
  | listen id tag => exact tag.elim

@[simp]
theorem users_command_ofUsers (x : Users.Command) :
  inUsers.command (ofUsers x) = some x
  := by
  cases x with
  | draw id | get q => rfl
  | write x => cases x <;> rfl
  | listen id tag => exact tag.elim

@[simp]
theorem users_command_ofGroups (x : Groups.Command) :
  inUsers.command (ofGroups x) = none
  := by
  cases x with
  | draw id | get q | listen id chat => rfl
  | write x => cases x <;> rfl

theorem groups_filterMap (gs : List Groups.Command) (us : List Users.Command) :
  (us.map ofUsers ++ gs.map ofGroups).filterMap inGroups.command = gs
  := by
  simp [List.filterMap_map]

theorem users_filterMap (gs : List Groups.Command) (us : List Users.Command) :
  (us.map ofUsers ++ gs.map ofGroups).filterMap inUsers.command = us
  := by
  simp [List.filterMap_map]

/-- The listeners are of documents of Groups. -/
theorem registered_of_parts {l : Listener Path Groups.Chat}
    (hl : l ∈ (us.map ofUsers ++ gs.map ofGroups).filterMap Command.registered) :
  ∃ id, l.doc = .groups id
  := by
  obtain ⟨x, hx, hregistered⟩ := List.mem_filterMap.mp hl
  rcases List.mem_append.mp hx with hx | hx
  · obtain ⟨y, -, rfl⟩ := List.mem_map.mp hx
    cases y with
    | draw id | get q => cases hregistered
    | write x => cases x <;> cases hregistered
    | listen id tag => exact tag.elim
  · obtain ⟨y, -, rfl⟩ := List.mem_map.mp hx
    cases y with
    | draw id | get q => cases hregistered
    | write x => cases x <;> cases hregistered
    | listen id chat =>
        obtain rfl := Option.some.inj hregistered
        use id

theorem groups_fits (us : List Users.Command) (gs : List Groups.Command) :
  inGroups.Fits (us.map ofUsers ++ gs.map ofGroups)
  := by
  intro l hl
  obtain ⟨id, hid⟩ := registered_of_parts hl
  rw [hid]
  rfl

theorem users_fits (us : List Users.Command) (gs : List Groups.Command) :
  inUsers.Fits (us.map ofUsers ++ gs.map ofGroups)
  := by
  intro l hl
  obtain ⟨id, hid⟩ := registered_of_parts hl
  rw [hid]
  rfl

end Commands

section Effects

variable {app : App} {eff : Effect} {g : Groups.Effect} {u : Users.Effect}

/-- What a handler of the groups does is what it does to the groups. -/
theorem groups_withGroups :
  inGroups.Fits (app.withGroups g).2 ∧ inGroups.effect (app.withGroups g) = g
  := by
  constructor
  · apply groups_fits [] g.2
  · rw [Selection.effect, App.withGroups]
    exact congrArg _ (groups_filterMap g.2 [])

theorem groups_withUsers :
  inGroups.Fits (app.withUsers u).2 ∧ inGroups.effect (app.withUsers u) = (app.groups, [])
  := by
  have hcommands : u.2.map ofUsers
      = u.2.map ofUsers ++ ([] : List Groups.Command).map ofGroups := by simp
  constructor
  · rw [App.withUsers, hcommands]
    apply groups_fits
  · rw [Selection.effect, App.withUsers, hcommands, groups_filterMap]
    rfl

theorem users_withUsers :
  inUsers.Fits (app.withUsers u).2 ∧ inUsers.effect (app.withUsers u) = u
  := by
  have hcommands : u.2.map ofUsers
      = u.2.map ofUsers ++ ([] : List Groups.Command).map ofGroups := by simp
  constructor
  · rw [App.withUsers, hcommands]
    apply users_fits
  · rw [Selection.effect, App.withUsers, hcommands, users_filterMap]
    rfl

theorem users_withGroups :
  inUsers.Fits (app.withGroups g).2 ∧ inUsers.effect (app.withGroups g) = (app.users, [])
  := by
  constructor
  · apply users_fits [] g.2
  · rw [Selection.effect, App.withGroups]
    exact congrArg _ (users_filterMap g.2 [])

/-- Home starts the groups as they start by themselves, and the users. -/
theorem groups_viewDidLoad (now : Timestamp) (app : App) :
  inGroups.effect (viewDidLoad now app)
    = Groups.ViewController.viewDidLoad (Groups.App.started now)
  := Prod.ext rfl (groups_filterMap _ _)

theorem users_viewDidLoad (now : Timestamp) (app : App) :
  inUsers.effect (viewDidLoad now app)
    = Users.ViewController.viewDidLoad (Users.App.started app.users.currentUser now)
  := Prod.ext rfl (users_filterMap _ _)

end Effects

/-- An action of the groups can happen in the whole app only when it can happen in them. -/
theorem enabled_groups {a : Groups.Action} {app : App} (h : enabled (.groups a) app) :
  Groups.enabled a app.groups
  := by
  cases a with
  | launch now => cases h
  | selectTab tab => exact (Bool.and_eq_true_iff.mp h).1
  | showMakeGroupView now => exact (Bool.and_eq_true_iff.mp h).1
  | _ => exact h

theorem enabled_users {a : Users.Action} {app : App} (h : enabled (.users a) app) :
  Users.enabled a app.users
  := by
  cases a with
  | launch now => cases h
  | logout => exact (Bool.and_eq_true_iff.mp h).1
  | backToSaveBtn reName => exact (Bool.and_eq_true_iff.mp h).1
  | _ => exact h

/-- The groups are a part of the app. -/
def groupsPart : Part program Groups.program where
  toSelection := inGroups
  enabled := by
    intro a a' app h ha
    cases a with
    | launch now =>
        obtain rfl := Option.some.inj ha
        exact (Bool.and_eq_true_iff.mp h).1
    | groups a =>
        obtain rfl := Option.some.inj ha
        apply enabled_groups h
    | users a => cases ha
  act := by
    intro a app eff _ h
    cases a with
    | launch now =>
        obtain rfl := Option.some.inj h
        use groups_fits _ _
        exact congrArg some (groups_viewDidLoad now app).symm
    | groups a =>
        obtain ⟨g, hg, rfl⟩ := Option.map_eq_some_iff.mp h
        use groups_withGroups.1
        exact hg.trans (congrArg some groups_withGroups.2.symm)
    | users a =>
        obtain ⟨u, -, rfl⟩ := Option.map_eq_some_iff.mp h
        exact groups_withUsers
  callback := by
    intro q c x app eff h
    cases q with
    | groups q =>
        obtain ⟨g, hg, rfl⟩ := Option.map_eq_some_iff.mp h
        use groups_withGroups.1
        exact hg.trans (congrArg some groups_withGroups.2.symm)
    | users q =>
        obtain ⟨u, -, rfl⟩ := Option.map_eq_some_iff.mp h
        exact groups_withUsers
  failed := by
    intro q app eff h
    cases q with
    | groups q =>
        obtain ⟨g, hg, rfl⟩ := Option.map_eq_some_iff.mp h
        use groups_withGroups.1
        exact hg.trans (congrArg some groups_withGroups.2.symm)
    | users q =>
        obtain ⟨u, -, rfl⟩ := Option.map_eq_some_iff.mp h
        exact groups_withUsers
  listens := by
    intro chat doc app eff h
    obtain ⟨g, hg, rfl⟩ : ∃ g, Groups.listener chat doc app.groups = some g
      ∧ app.withGroups g = eff := Option.map_eq_some_iff.mp h
    use groups_withGroups.1
    exact hg.trans (congrArg some groups_withGroups.2.symm)
  stop _ := rfl

/-- The users are a part of the app. -/
def usersPart : Part program Users.program where
  toSelection := inUsers
  enabled := by
    intro a a' app h ha
    cases a with
    | launch now =>
        obtain rfl := Option.some.inj ha
        exact (Bool.and_eq_true_iff.mp h).2
    | groups a => cases ha
    | users a =>
        obtain rfl := Option.some.inj ha
        apply enabled_users h
  act := by
    intro a app eff _ h
    cases a with
    | launch now =>
        obtain rfl := Option.some.inj h
        use users_fits _ _
        exact congrArg some (users_viewDidLoad now app).symm
    | groups a =>
        obtain ⟨g, -, rfl⟩ := Option.map_eq_some_iff.mp h
        exact users_withGroups
    | users a =>
        obtain ⟨u, hu, rfl⟩ := Option.map_eq_some_iff.mp h
        use users_withUsers.1
        exact hu.trans (congrArg some users_withUsers.2.symm)
  callback := by
    intro q c x app eff h
    cases q with
    | groups q =>
        obtain ⟨g, -, rfl⟩ := Option.map_eq_some_iff.mp h
        exact users_withGroups
    | users q =>
        obtain ⟨u, hu, rfl⟩ := Option.map_eq_some_iff.mp h
        use users_withUsers.1
        exact hu.trans (congrArg some users_withUsers.2.symm)
  failed := by
    intro q app eff h
    cases q with
    | groups q =>
        obtain ⟨g, -, rfl⟩ := Option.map_eq_some_iff.mp h
        exact users_withGroups
    | users q =>
        obtain ⟨u, hu, rfl⟩ := Option.map_eq_some_iff.mp h
        use users_withUsers.1
        exact hu.trans (congrArg some users_withUsers.2.symm)
  listens := by
    intro chat doc app eff h
    obtain ⟨g, -, rfl⟩ : ∃ g, Groups.listener chat doc app.groups = some g
      ∧ app.withGroups g = eff := Option.map_eq_some_iff.mp h
    exact users_withGroups
  stop _ := rfl

section Run

variable {D : Type} [DecidableEq D] {w w' : World D} {e : Event D} {d : D}

omit [DecidableEq D] in
theorem fitting_initial {App' Action' Input' Id' Query' Tag' : Type}
    {P' : Program App' Action' Input' Id' Document Query' Tag'} (Q : Part program P') :
  Q.Fitting (World.initial : World D)
  := by
  intro d l hl
  cases hl

/-- In a run of the whole app the groups run by themselves, and so do the users: each part sees
the events that are its own, and is killed when the other aborts. -/
theorem parts_of_run {es : List (Event D)} (h : run World.initial es = some w) :
  Groups.run Groups.World.initial
      (Run.log step (fun w e => (groupsPart.event w e).toList) World.initial es)
      = some (groupsPart.world w)
    ∧ Users.run Users.World.initial
      (Run.log step (fun w e => (usersPart.event w e).toList) World.initial es)
      = some (usersPart.world w)
  := ⟨groupsPart.run_world (fitting_initial groupsPart) h,
    usersPart.run_world (fitting_initial usersPart) h⟩

end Run

/-- A user registers and makes a group, and both writes arrive. -/
theorem parts_of_run_registered :
  ∃ w, run (World.initial : World Unit) (launched ()
      ++ registers () "u" (Users.record "t" (by decide)) ++ makesGroup () "g" "t" 1
      ++ [.arrive (), .arrive ()]) = some w
    ∧ (∃ gs, Groups.run Groups.World.initial gs = some (groupsPart.world w))
    ∧ ∃ us, Users.run Users.World.initial us = some (usersPart.world w)
  := by
  have hrun : (run (World.initial : World Unit) (launched ()
      ++ registers () "u" (Users.record "t" (by decide)) ++ makesGroup () "g" "t" 1
      ++ [.arrive (), .arrive ()])).isSome := by
    decide +kernel
  obtain ⟨w, hw⟩ := Option.isSome_iff_exists.mp hrun
  obtain ⟨hgroups, husers⟩ := parts_of_run hw
  exact ⟨w, hw, ⟨_, hgroups⟩, _, husers⟩

end Process

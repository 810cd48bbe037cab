import TaskFirestoreApp.Groups.App

/-!
# The app of the groups as a program

What the user of a device can do with the screens of the groups and when, which handler
each action runs, and which handler each callback runs. `step` and `run` are the steps and
the runs of any number of devices of one server, from `World.initial`, where nothing is
stored and no app runs.
-/

namespace Groups

open Backend

/-- What the user does, or the screens ask for by themselves. `back` pops the chat, and
`backCancelled` is a swipe back that is let go: the list is about to appear and the chat
appears again. -/
inductive Action where
  | launch (now : Timestamp)
  | selectTab (tab : Tab)
  | listCellForRowAt (row : ℕ)
  | didSelectRowAt (row : ℕ)
  | commitEditing (row : ℕ)
  | viewDidAppear
  | numberOfRowsInSection
  | chatCellForRowAt (row : ℕ)
  | commitBtn (message : String) (now : Timestamp)
  | back
  | backCancelled
  | showMakeGroupView (now : Timestamp)
  | checkBoxIconViewTapped (row : ℕ)
  | makeGroupBtn (groupName taskId : String) (createdAt updatedAt : Timestamp)
  | popMakeGroupView
  deriving DecidableEq

/-- When an action can happen: its screen is in front, and a row is one of those its table
was last given. A new id has one segment. -/
def enabled (a : Action) (app : App) : Bool :=
  match a with
  | .launch _ => !app.running
  | .selectTab tab => app.running && app.tab != tab
  | .listCellForRowAt row => app.running && app.tab == .talk && app.chat.isNone
      && row < app.rows.length
  | .didSelectRowAt row => app.running && app.tab == .talk && app.chat.isNone
      && row < app.rows.length
  | .commitEditing row => app.running && app.tab == .talk && app.chat.isNone
      && row < app.rows.length
  | .viewDidAppear => app.running && app.tab == .talk && app.chat.any fun s => !s.appeared
  | .numberOfRowsInSection => app.running && app.tab == .talk && app.chat.isSome
  | .chatCellForRowAt row => app.running && app.tab == .talk && app.chat.any fun s => row < s.rows
  | .commitBtn _ _ => app.running && app.tab == .talk && app.chat.any ChatScreen.appeared
  | .back => app.running && app.tab == .talk && app.chat.any ChatScreen.appeared
  | .backCancelled => app.running && app.tab == .talk && app.chat.any ChatScreen.appeared
  | .showMakeGroupView _ => app.running && app.tab == .home && app.make.isNone
  | .checkBoxIconViewTapped row => app.running && app.tab == .home
      && app.make.any fun s => row < s.groupMemberCandidate.length
  | .makeGroupBtn _ taskId _ _ => app.running && app.tab == .home && app.make.isSome
      && IsSegment taskId
  | .popMakeGroupView => app.running && app.tab == .home && app.make.isSome

/-- The Talk tab comes to the front: the list is about to appear, or the chat appears. -/
def selectTalk (app : App) : Effect :=
  match app.chat with
  | none => TaskGroupViewController.viewWillAppear { app with tab := .talk }
  | some s => ({ app with tab := .talk, chat := some { s with appeared := false } }, [])

def act (a : Action) (app : App) : Option Effect :=
  match a with
  | .launch now => some (ViewController.viewDidLoad (App.started now))
  | .selectTab .home => some ({ app with tab := .home }, [])
  | .selectTab .talk => some (selectTalk app)
  | .listCellForRowAt row => TaskGroupViewController.cellForRowAt row app
  | .didSelectRowAt row => TaskGroupViewController.didSelectRowAt row app
  | .commitEditing row => TaskGroupViewController.commitEditing row app
  | .viewDidAppear =>
      app.chat.bind fun s => TaskGroupDetailViewController.viewDidAppear s.chat app
  | .numberOfRowsInSection =>
      app.chat.bind fun s => TaskGroupDetailViewController.numberOfRowsInSection s.chat app
  | .chatCellForRowAt row =>
      app.chat.bind fun s => TaskGroupDetailViewController.cellForRowAt s.chat row app
  | .commitBtn message now =>
      app.chat.bind fun s => TaskGroupDetailViewController.commitBtn s.chat message now app
  | .back => some (TaskGroupViewController.viewWillAppear { app with chat := none })
  | .backCancelled => some (TaskGroupViewController.viewWillAppear
      { app with chat := app.chat.map fun s => { s with appeared := false } })
  | .showMakeGroupView now => some ({ app with
      make := some (TaskMakeTableViewController.fresh
        TaskMakeTableViewController.groupMemberCandidate now) }, [])
  | .checkBoxIconViewTapped row =>
      app.make.bind fun s => (TaskMakeTableViewController.checkBoxIconViewTapped row s).map
        fun s => ({ app with make := some s }, [])
  | .makeGroupBtn groupName taskId createdAt updatedAt =>
      app.make.bind fun s =>
        TaskMakeTableViewController.makeGroupBtn groupName taskId createdAt updatedAt s app
  | .popMakeGroupView => some ({ app with make := none }, [])

def callback (q : Query) (c : Collection String Document) (_ : Unit) (app : App) : Option Effect :=
  match q with
  | .home => some (ViewController.readGroupInfoFromFirestore.completed c app)
  | .list => some (TaskGroupViewController.readGroupInfoFromFirestore.completed c app)
  | .refresh chat => TaskGroupDetailViewController.observeRealTimeFirestore.completed chat c app

/-- Home and the list only print the error of a failed read. -/
def failed (q : Query) (app : App) : Option Effect :=
  match q with
  | .home => some (app, [])
  | .list => some (app, [])
  | .refresh _ => some (TaskGroupDetailViewController.observeRealTimeFirestore.failed app)

def listener (chat : Chat) (data : Option Document) (app : App) : Option Effect :=
  some (TaskGroupDetailViewController.observeRealTimeFirestore.changed chat data app)

def program : Program App Action Unit String Document Query Chat where
  enabled := enabled
  act := act
  callback := callback
  failed := failed
  listener := listener
  stop _ := .stopped

variable {D : Type}

abbrev World (D : Type) : Type := Backend.World D App String Document Query Chat

abbrev Event (D : Type) : Type := Backend.Event D Action Unit

/-- Nothing is stored and no app runs. -/
def World.initial : World D where
  server := ∅
  issued := []
  device _ := ⟨.stopped, ⟨[], [], [], []⟩⟩

variable [DecidableEq D]

abbrev step (w : World D) (e : Event D) : Option (World D) := Backend.step program w e

abbrev run (w : World D) (es : List (Event D)) : Option (World D) := Run.exec step w es

/-! ### Parts of runs -/

section Scripts

variable {D : Type}

/-- The app of a device is launched and Home's first load is delivered. -/
def started (d : D) : List (Event D) :=
  [.act d (.launch 0), .answer d 0, .deliver d 0 ()]

/-- A device creates a group. -/
def makesGroup (d : D) (groupName taskId : String) (now : Timestamp) : List (Event D) :=
  [.act d (.showMakeGroupView now), .act d (.checkBoxIconViewTapped 0),
    .act d (.makeGroupBtn groupName taskId now now)]

/-- A device shows the Talk tab and its list is loaded. -/
def opensList (d : D) : List (Event D) :=
  [.act d (.selectTab .talk), .answer d 0, .deliver d 0 ()]

/-- A device opens the chat of a row of the list. -/
def opensChat (d : D) (row : ℕ) : List (Event D) :=
  [.act d (.didSelectRowAt row), .act d .viewDidAppear]

/-- Two devices open the chat of the group that the first one has created. -/
def twoChats : List (Event Bool) :=
  started true ++ makesGroup true "g" "t" 1 ++ [.arrive true] ++ opensList true
    ++ opensChat true 0 ++ started false ++ opensList false ++ opensChat false 0

end Scripts

end Groups

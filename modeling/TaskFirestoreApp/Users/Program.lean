import TaskFirestoreApp.Users.App

/-!
# The app of the users as a program

What the user of a device and Auth can do and when, which handler each action runs, and
which handler each callback runs. `step` and `run` are the steps and the runs of any number
of devices of one server, from `World.initial`, where nothing is stored, nobody is signed in
and no app runs.

The queue of a device is assumed to hold the writes of all its accounts, and to be sent whoever
is signed in. The vendored client keeps one queue of mutations for each signed-in user, and
holds back those of the others.
-/

namespace Users

open Backend

/-- What the user does, and what Auth answers. `signedIn i uid` is the success of the sign-in
at `i`: from then on the account `uid` is the current user, and the screen that asked is
told. The edit screen has no state of its own. -/
inductive Action where
  | launch (now : Timestamp)
  | tappedLoginBtn (email password : String)
  | tappedNewRegisterBtn (email password : String)
  | signedIn (i : ℕ) (uid : String)
  | signInFailed (i : ℕ)
  | closeAlert
  | logout
  | backToSaveBtn (reName : String)
  deriving DecidableEq

/-- When an action can happen: its screen is in front, or Auth was asked. -/
def enabled (a : Action) (app : App) : Bool :=
  match a with
  | .launch _ => !app.running
  | .tappedLoginBtn _ _ => app.running && app.login.any fun s => !s.alert
  | .tappedNewRegisterBtn _ _ => app.running && app.login.any fun s => !s.alert
  | .signedIn i _ => app.running && i < app.signIns.length
  | .signInFailed i => app.running && i < app.signIns.length
  | .closeAlert => app.running && app.login.any LoginScreen.alert
  | .logout => app.running && app.login.isNone
  | .backToSaveBtn _ => app.running && app.login.isNone

/-- Auth has signed in the account `uid` for the screen `number`. -/
def signedIn (i number : ℕ) (uid : String) (app : App) : Effect :=
  TaskLoginViewController.actSuccessLogin number
    { app with signIns := app.signIns.eraseIdx i, currentUser := some uid }

def signInFailed (i number : ℕ) (app : App) : Effect :=
  (TaskLoginViewController.showAlert number { app with signIns := app.signIns.eraseIdx i }, [])

def act (a : Action) (app : App) : Option Effect :=
  match a with
  | .launch now => some (ViewController.viewDidLoad (App.started app.currentUser now))
  | .tappedLoginBtn email password =>
      app.login.map fun s => TaskLoginViewController.tappedLoginBtn s.number email password app
  | .tappedNewRegisterBtn email password =>
      app.login.map fun s =>
        TaskLoginViewController.tappedNewRegisterBtn s.number email password app
  | .signedIn i uid => app.signIns[i]?.map fun number => signedIn i number uid app
  | .signInFailed i => app.signIns[i]?.map fun number => signInFailed i number app
  | .closeAlert => some ({ app with login := app.login.map fun s => ⟨s.number, false⟩ }, [])
  | .logout => some (ViewController.logout app)
  | .backToSaveBtn reName => TaskEditUserInfoViewController.backToSaveBtn reName app

def callback (q : Query) (c : Collection String Document) (record : NewRecord) (app : App) :
    Option Effect :=
  match q with
  | .home => some (ViewController.readUserInfoFromFirestore.completed c app)
  | .login number =>
      TaskLoginViewController.readUserInfoFromFirestore.completed number c record app

def failed (q : Query) (app : App) : Option Effect :=
  match q with
  | .home => some (ViewController.readUserInfoFromFirestore.failed app)
  | .login number => some (TaskLoginViewController.readUserInfoFromFirestore.failed number app)

def program : Program App Action NewRecord String Document Query Empty where
  enabled := enabled
  act := act
  callback := callback
  failed := failed
  listener tag := tag.elim
  stop app := .stopped app.currentUser

variable {D : Type}

abbrev World (D : Type) : Type := Backend.World D App String Document Query Empty

abbrev Event (D : Type) : Type := Backend.Event D Action NewRecord

/-- Nothing is stored, nobody is signed in and no app runs. -/
def World.initial : World D where
  server := ∅
  issued := []
  device _ := ⟨.stopped none, ⟨[], [], [], []⟩⟩

variable [DecidableEq D]

abbrev step (w : World D) (e : Event D) : Option (World D) := Backend.step program w e

abbrev run (w : World D) (es : List (Event D)) : Option (World D) := Run.exec step w es

/-! ### Parts of runs -/

section Scripts

variable {D : Type}

/-- A new record of the time 1. -/
def record (taskId : String) (h : IsSegment taskId) : NewRecord :=
  ⟨taskId, 1, 1, h⟩

/-- The app of a device is launched. -/
def launches (d : D) : List (Event D) :=
  [.act d (.launch 0)]

/-- The user of a device registers the account `uid`. -/
def registers (d : D) (uid : String) : List (Event D) :=
  [.act d (.tappedNewRegisterBtn "mail" "password"), .act d (.signedIn 0 uid)]

/-- The user of a device logs in to the account `uid`. -/
def logsIn (d : D) (uid : String) : List (Event D) :=
  [.act d (.tappedLoginBtn "mail" "password"), .act d (.signedIn 0 uid)]

/-- The Users load of a device that was requested first is answered and delivered; if it
finds no record of the user, `x` is used. -/
def loads (d : D) (x : NewRecord) : List (Event D) :=
  [.answer d 0, .deliver d 0 x]

end Scripts

end Users

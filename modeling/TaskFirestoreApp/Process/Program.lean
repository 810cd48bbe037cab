import TaskFirestoreApp.Groups.Program
import TaskFirestoreApp.Users.Program
import TaskFirestoreApp.Library.Part

/-!
# The whole app

The app is one process, and what `Groups` and `Users` model are its parts. Home starts both, a
login screen covers all of the groups, and Home with its navigation bar is in front only on the
Home tab. A device has one queue of writes, in which those to Groups and to Users stand in the
order they were issued, and when one of the parts aborts, the other ends with it. That it is
one queue for all accounts of the device is assumed, as it is in `Users`.
-/

namespace Process

open Backend

/-- A document of the collection Groups or of the collection Users. -/
inductive Path where
  | groups (id : String)
  | users (id : String)
  deriving DecidableEq

inductive Query where
  | groups (q : Groups.Query)
  | users (q : Users.Query)
  deriving DecidableEq

structure App where
  groups : Groups.App
  users : Users.App
  deriving DecidableEq

inductive Action where
  | launch (now : Timestamp)
  | groups (a : Groups.Action)
  | users (a : Users.Action)
  deriving DecidableEq

abbrev Command : Type := Backend.Command Path Document Query Groups.Chat

abbrev Effect : Type := Backend.Effect App Path Document Query Groups.Chat

/-! ### The collections -/

/-- The documents of Groups. -/
def Path.inGroups : Path ≃. String where
  toFun
    | .groups id => some id
    | .users _ => none
  invFun id := some (.groups id)
  inv path id := by cases path <;> simp [eq_comm]

/-- The documents of Users. -/
def Path.inUsers : Path ≃. String where
  toFun
    | .groups _ => none
    | .users id => some id
  invFun id := some (.users id)
  inv path id := by cases path <;> simp [eq_comm]

/-- A command of the groups is one of the whole app. -/
def ofGroups : Groups.Command → Command
  | .draw id => .draw (.groups id)
  | .write (.set id doc) => .write (.set (.groups id) doc)
  | .write (.delete id) => .write (.delete (.groups id))
  | .get q => .get (.groups q)
  | .listen id chat => .listen (.groups id) chat

/-- A command of the users is one of the whole app. -/
def ofUsers : Users.Command → Command
  | .draw id => .draw (.users id)
  | .write (.set id doc) => .write (.set (.users id) doc)
  | .write (.delete id) => .write (.delete (.users id))
  | .get q => .get (.users q)
  | .listen _ tag => tag.elim

/-- What a handler of the groups does in the whole app. -/
def App.withGroups (app : App) (eff : Groups.Effect) : Effect :=
  ({ app with groups := eff.1 }, eff.2.map ofGroups)

/-- What a handler of the users does in the whole app. -/
def App.withUsers (app : App) (eff : Users.Effect) : Effect :=
  ({ app with users := eff.1 }, eff.2.map ofUsers)

/-! ### The program -/

/-- Home is in front: the Home tab, with no screen pushed from it and none presented. -/
def App.atHome (app : App) : Bool :=
  app.users.login.isNone && app.groups.tab == .home && app.groups.make.isNone

/-- When an action can happen. The tab bar and the button of Home's navigation bar that makes a
group are covered by a login screen, and the other two ways out of Home, its logout and the edit
screen, are on the Home tab. -/
def enabled (a : Action) (app : App) : Bool :=
  match a with
  | .launch _ => !app.groups.running && !app.users.running
  | .groups (.launch _) => false
  | .groups (.selectTab tab) =>
      Groups.enabled (.selectTab tab) app.groups && app.users.login.isNone
  | .groups (.showMakeGroupView now) =>
      Groups.enabled (.showMakeGroupView now) app.groups && app.users.login.isNone
  | .groups a => Groups.enabled a app.groups
  | .users (.launch _) => false
  | .users .logout => Users.enabled .logout app.users && app.atHome
  | .users (.backToSaveBtn reName) =>
      Users.enabled (.backToSaveBtn reName) app.users && app.atHome
  | .users a => Users.enabled a app.users

/-- `viewDidLoad` of Home, which loads the users and then the groups. -/
def viewDidLoad (now : Timestamp) (app : App) : Effect :=
  let (users, loadUsers) :=
    Users.ViewController.viewDidLoad (Users.App.started app.users.currentUser now)
  let (groups, loadGroups) := Groups.ViewController.viewDidLoad (Groups.App.started now)
  (⟨groups, users⟩, loadUsers.map ofUsers ++ loadGroups.map ofGroups)

def act (a : Action) (app : App) : Option Effect :=
  match a with
  | .launch now => some (viewDidLoad now app)
  | .groups a => (Groups.act a app.groups).map app.withGroups
  | .users a => (Users.act a app.users).map app.withUsers

def callback (q : Query) (c : Collection Path Document) (record : Users.NewRecord) (app : App) :
    Option Effect :=
  match q with
  | .groups q =>
      (Groups.callback q (Collection.restrict Path.inGroups c) () app.groups).map app.withGroups
  | .users q =>
      (Users.callback q (Collection.restrict Path.inUsers c) record app.users).map app.withUsers

def failed (q : Query) (app : App) : Option Effect :=
  match q with
  | .groups q => (Groups.failed q app.groups).map app.withGroups
  | .users q => (Users.failed q app.users).map app.withUsers

def listener (chat : Groups.Chat) (data : Option Document) (app : App) : Option Effect :=
  (Groups.listener chat data app.groups).map app.withGroups

def program : Program App Action Users.NewRecord Path Document Query Groups.Chat where
  enabled := enabled
  act := act
  callback := callback
  failed := failed
  listener := listener
  stop app := ⟨.stopped, .stopped app.users.currentUser⟩

variable {D : Type}

abbrev World (D : Type) : Type := Backend.World D App Path Document Query Groups.Chat

abbrev Event (D : Type) : Type := Backend.Event D Action Users.NewRecord

/-- Nothing is stored, nobody is signed in and no app runs. -/
def World.initial : World D where
  server := ∅
  issued := []
  device _ := ⟨⟨.stopped, .stopped none⟩, ⟨[], [], [], []⟩⟩

variable [DecidableEq D]

abbrev step (w : World D) (e : Event D) : Option (World D) := Backend.step program w e

abbrev run (w : World D) (es : List (Event D)) : Option (World D) := Run.exec step w es

/-! ### Parts of runs -/

section Scripts

variable {D : Type}

/-- The app of a device is launched, and both loads of Home are delivered. -/
def launched (d : D) : List (Event D) :=
  [.act d (.launch 0), .answer d 0, .answer d 0, .deliver d 0 (Users.record "a" (by decide)),
    .deliver d 0 (Users.record "a" (by decide))]

/-- The user of a device registers the account `uid`, whose record gets the id of `x`. -/
def registers (d : D) (uid : String) (x : Users.NewRecord) : List (Event D) :=
  [.act d (.users (.tappedNewRegisterBtn "mail" "password")), .act d (.users (.signedIn 0 uid)),
    .answer d 0, .deliver d 0 x]

/-- The user of a device creates a group. -/
def makesGroup (d : D) (groupName taskId : String) (now : Timestamp) : List (Event D) :=
  (Groups.makesGroup d groupName taskId now).filterMap fun
    | .act d a => some (.act d (.groups a))
    | _ => none

end Scripts

/-! ### The parts -/

/-- What of the app is its groups. -/
def inGroups : Selection App Action Users.NewRecord Path Query Groups.Chat Groups.App Groups.Action
    Unit String Groups.Query Groups.Chat where
  app := App.groups
  action
    | .launch now => some (.launch now)
    | .groups a => some a
    | .users _ => none
  input _ := ()
  id := Path.inGroups
  query
    | .groups q => some q
    | .users _ => none
  tag := some

/-- What of the app is its users. -/
def inUsers : Selection App Action Users.NewRecord Path Query Groups.Chat Users.App Users.Action
    Users.NewRecord String Users.Query Empty where
  app := App.users
  action
    | .launch now => some (.launch now)
    | .groups _ => none
    | .users a => some a
  input record := record
  id := Path.inUsers
  query
    | .groups _ => none
    | .users q => some q
  tag _ := none

end Process

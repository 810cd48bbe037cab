import TaskFirestoreApp.Library.Backend
import TaskFirestoreApp.TaskManager

/-!
# The screens of the users

The state of the app as far as its users are concerned, and the handlers of the view
controllers that read or change them, each named after its function in the source. The
session of Auth outlives the process of the app.

`ViewController` is Home. A login screen is presented over it when nobody is signed in, and
the edit screen is pushed from it.
-/

namespace Users

/-- A `TaskLoginViewController`: its place among those created, and whether it presents an
alert. -/
structure LoginScreen where
  number : ℕ
  alert : Bool
  deriving DecidableEq

/-- The callbacks of the reads of Users: Home's, and the one of a login screen. -/
inductive Query where
  | home
  | login (number : ℕ)
  deriving DecidableEq

/-- What a new record is made of: the id of `document()`, which has one segment, and the two
times. -/
structure NewRecord where
  taskId : String
  createdAt : Timestamp
  updatedAt : Timestamp
  segment : IsSegment taskId
  deriving DecidableEq

structure App where
  running : Bool
  /-- The uid of the user signed in to Auth. -/
  currentUser : Option String
  userLists : List UserInfo
  login : Option LoginScreen
  /-- The number of login screens created so far. -/
  logins : ℕ
  /-- The login screens that wait for Auth, once for each request. -/
  signIns : List ℕ
  /-- Whether the load of Users that completed last succeeded. -/
  lastLoad : Option Bool
  deriving DecidableEq

abbrev Command : Type := Backend.Command String Document Query Empty

abbrev Effect : Type := Backend.Effect App String Document Query Empty

/-- The app when its process does not run. -/
def App.stopped (currentUser : Option String) : App where
  running := false
  currentUser := currentUser
  userLists := []
  login := none
  logins := 0
  signIns := []
  lastLoad := none

/-- The app when its process starts: `userLists` holds its placeholder record. -/
def App.started (currentUser : Option String) (now : Timestamp) : App where
  running := true
  currentUser := currentUser
  userLists := [{ taskId := "", userID := "", name := "", createdAt := now, updatedAt := now }]
  login := none
  logins := 0
  signIns := []
  lastLoad := none

/-- `String(describing: Auth.auth().currentUser?.uid)`. -/
def App.userID (app : App) : String :=
  describing app.currentUser

/-- The documents of `order(by: "createdAt", descending: true)`. -/
def orderedByCreatedAt (c : Collection String Document) : List (String × Document) :=
  c.orderedBy fun d => d.field "createdAt"

def appendDocuments (documents : List (String × Document)) (userLists : List UserInfo) :
    List UserInfo :=
  Document.appendAll UserInfo.decode UserInfoManager.appendUserLists documents userLists

/-! ## Home -/

namespace ViewController

def isLogin (app : App) : Bool :=
  app.currentUser.isSome

def presentLoginViewController (app : App) : App :=
  { app with login := some ⟨app.logins, false⟩, logins := app.logins + 1 }

def readUserInfoFromFirestore (app : App) : Effect :=
  (app, [.get .home])

/-- The callback of Home's load, when the query succeeds. -/
def readUserInfoFromFirestore.completed (c : Collection String Document) (app : App) : Effect :=
  ({ app with
      userLists := appendDocuments (orderedByTaskId c) app.userLists
      lastLoad := some true }, [])

/-- The callback of Home's load, when the query fails. -/
def readUserInfoFromFirestore.failed (app : App) : Effect :=
  ({ app with lastLoad := some false }, [])

def viewDidLoad (app : App) : Effect :=
  let app := if isLogin app then app else presentLoginViewController app
  readUserInfoFromFirestore { app with userLists := [] }

def logout (app : App) : Effect :=
  (presentLoginViewController { app with currentUser := none }, [])

end ViewController

/-! ## A login screen -/

namespace TaskLoginViewController

/-- The screen `number` presents an alert, if it is presented itself. -/
def showAlert (number : ℕ) (app : App) : App :=
  { app with login := app.login.map fun s => if s.number = number then ⟨number, true⟩ else s }

/-- `dismiss` of the screen `number` takes away its alert, or, without one, the screen. -/
def presentTaskHomeViewController (number : ℕ) (app : App) : App :=
  { app with login := app.login.bind fun s =>
      if s.number = number then if s.alert then some ⟨number, false⟩ else none else some s }

def commonAlert (email password : String) : Bool :=
  if email.isEmpty && password.isEmpty then false
  else if email.isEmpty then false
  else if password.isEmpty then false
  else true

def emailLogin (number : ℕ) (app : App) : Effect :=
  ({ app with signIns := app.signIns ++ [number] }, [])

def emailNewRegister (number : ℕ) (app : App) : Effect :=
  ({ app with signIns := app.signIns ++ [number] }, [])

def tappedLoginBtn (number : ℕ) (email password : String) (app : App) : Effect :=
  if commonAlert email password then emailLogin number app else (showAlert number app, [])

def tappedNewRegisterBtn (number : ℕ) (email password : String) (app : App) : Effect :=
  if commonAlert email password then emailNewRegister number app else (showAlert number app, [])

def readUserInfoFromFirestore (number : ℕ) (app : App) : Effect :=
  (app, [.get (.login number)])

def actSuccessLogin (number : ℕ) (app : App) : Effect :=
  readUserInfoFromFirestore number { app with userLists := [] }

def addUserInfo (record : NewRecord) (app : App) : Option Effect := do
  let userInfo : UserInfo := {
    taskId := record.taskId
    userID := app.userID
    name := ""
    createdAt := record.createdAt
    updatedAt := record.updatedAt }
  let id ← document record.taskId
  return ({ app with userLists := UserInfoManager.appendUserLists userInfo app.userLists },
    [.draw record.taskId, .write (.set id userInfo.encode)])

def checkExistingUser (number : ℕ) (record : NewRecord) (app : App) : Option Effect := do
  let (app, commands) ←
    if app.userLists.length = 0 then
      addUserInfo record app
    else if app.userLists.any fun u => u.userID = app.userID then
      some (app, [])
    else
      addUserInfo record app
  return (presentTaskHomeViewController number app, commands)

/-- The callback of the load of a login screen, when the query succeeds. -/
def readUserInfoFromFirestore.completed (number : ℕ) (c : Collection String Document)
    (record : NewRecord) (app : App) : Option Effect :=
  let documents := orderedByCreatedAt c
  let app := { app with
    userLists := appendDocuments documents app.userLists
    lastLoad := some true }
  let app :=
    if documents.all fun document => (UserInfo.decode document.2).isOk then app
    else showAlert number app
  checkExistingUser number record app

/-- The callback of the load of a login screen, when the query fails. -/
def readUserInfoFromFirestore.failed (number : ℕ) (app : App) : Effect :=
  (showAlert number { app with lastLoad := some false }, [])

end TaskLoginViewController

/-! ## The edit screen -/

namespace TaskEditUserInfoViewController

def backToSaveBtn (reName : String) (app : App) : Option Effect :=
  if reName.isEmpty then
    some (app, [])
  else do
    let userLists := UserInfoManager.setNameAtCurrentUserID reName app.userID app.userLists
    let userInfo ← UserInfoManager.getUserInfoAtCurrentUserID app.userID userLists
    let id ← document (UserInfoManager.getTaskIdAtCurrentUserID app.userID userLists)
    return ({ app with userLists := userLists }, [.write (.set id userInfo.encode)])

end TaskEditUserInfoViewController

end Users

import TaskFirestoreApp.Library.Backend
import TaskFirestoreApp.TaskManager

/-!
# The screens of the groups

The state of the app as far as its groups are concerned, and the handlers of the view
controllers that read or change them, each named after its function in the source. A
handler that indexes a list out of range, or names a document with a path that is not one
of a document, aborts the app.

The Home tab holds `ViewController`, from which a make-group screen is pushed. The Talk
tab holds `TaskGroupViewController`, the list, from which a chat is pushed.
-/

namespace Groups

/-- A `TaskGroupDetailViewController`: its place among those created, its `groupNumber`,
and, which it does not know itself, the taskId the tapped row showed. -/
structure Chat where
  number : ℕ
  groupNumber : ℕ
  openedOn : String
  deriving DecidableEq

/-- The chat on top of the Talk tab, whether its `viewDidAppear` has run, and the row
count its table was last given. -/
structure ChatScreen where
  chat : Chat
  appeared : Bool
  rows : ℕ
  deriving DecidableEq

/-- A `TaskMakeTableViewController`. -/
structure MakeScreen where
  groupMemberCandidate : List String
  groupCandidate : GroupInfo
  deriving DecidableEq

inductive Tab where
  | home
  | talk
  deriving DecidableEq

/-- The callbacks of the reads of Groups: Home's first load, the restore of the list, and
the refresh of a chat. -/
inductive Query where
  | home
  | list
  | refresh (chat : Chat)
  deriving DecidableEq

structure App where
  running : Bool
  tab : Tab
  make : Option MakeScreen
  /-- The contents of `groupInfo` at the latest `reloadData` of the list's table. -/
  rows : List GroupInfo
  chat : Option ChatScreen
  /-- The number of chats created so far. -/
  chats : ℕ
  groupInfo : List GroupInfo
  deriving DecidableEq

abbrev Command : Type := Backend.Command String Document Query Chat

abbrev Effect : Type := Backend.Effect App String Document Query Chat

/-- The app when its process does not run. -/
def App.stopped : App where
  running := false
  tab := .home
  make := none
  rows := []
  chat := none
  chats := 0
  groupInfo := []

/-- The app when its process starts: `groupInfo` holds its placeholder entry. -/
def App.started (now : Timestamp) : App where
  running := true
  tab := .home
  make := none
  rows := []
  chat := none
  chats := 0
  groupInfo := [{
    taskId := ""
    groupName := ""
    groupMemberNames := [""]
    groupMemberTalks := [""]
    createdAt := now
    updatedAt := now }]

def appendDocuments (documents : List (String × Document)) (groupInfo : List GroupInfo) :
    List GroupInfo :=
  Document.appendAll GroupInfo.decode GroupInfoManager.appendGroupInfo documents groupInfo

/-! ## Home -/

namespace ViewController

def readGroupInfoFromFirestore (app : App) : Effect :=
  (app, [.get .home])

def viewDidLoad (app : App) : Effect :=
  readGroupInfoFromFirestore { app with groupInfo := [] }

/-- The callback of Home's load. -/
def readGroupInfoFromFirestore.completed (c : Collection String Document) (app : App) : Effect :=
  ({ app with groupInfo := appendDocuments (orderedByTaskId c) app.groupInfo }, [])

end ViewController

/-! ## The list of groups -/

namespace TaskGroupViewController

def readGroupInfoFromFirestore (app : App) : Effect :=
  (app, [.get .list])

/-- The callback of the list's load, which ends in `reloadData`. -/
def readGroupInfoFromFirestore.completed (c : Collection String Document) (app : App) : Effect :=
  let groupInfo := appendDocuments (orderedByTaskId c) app.groupInfo
  ({ app with groupInfo := groupInfo, rows := groupInfo }, [])

def restoreDataFromFirestore (app : App) : Effect :=
  readGroupInfoFromFirestore { app with groupInfo := [] }

def viewWillAppear (app : App) : Effect :=
  restoreDataFromFirestore app

def cellForRowAt (row : ℕ) (app : App) : Option Effect := do
  let _ ← GroupInfoManager.getGroupInfo row app.groupInfo
  return (app, [])

def deleteTaskFromFirestore (indexPath : ℕ) (app : App) : Option Command := do
  let g ← GroupInfoManager.getGroupInfo indexPath app.groupInfo
  let id ← document g.taskId
  return .write (.delete id)

/-- What a swipe on a row does before the list is restored: the document of the entry is deleted
and the entry is removed. -/
def commitEditing.removed (row : ℕ) (app : App) : Option Effect := do
  let delete ← deleteTaskFromFirestore row app
  let groupInfo ← GroupInfoManager.removeGroupInfo row app.groupInfo
  return ({ app with groupInfo := groupInfo }, [delete])

/-- `tableView(_:commit:forRowAt:)`, a swipe on a row. -/
def commitEditing (row : ℕ) (app : App) : Option Effect := do
  let (app, deletes) ← commitEditing.removed row app
  let (app, commands) := restoreDataFromFirestore app
  return (app, deletes ++ commands)

/-- `tableView(_:didSelectRowAt:)`, a tap on a row, and the `viewDidLoad` of the chat it
pushes, which reads the entry of the row for the title. -/
def didSelectRowAt (row : ℕ) (app : App) : Option Effect := do
  let _ ← GroupInfoManager.getGroupInfo row app.groupInfo
  let chat : Chat := ⟨app.chats, row, (app.rows[row]?.map GroupInfo.taskId).getD ""⟩
  return ({ app with chat := some ⟨chat, false, 0⟩, chats := app.chats + 1 }, [])

end TaskGroupViewController

/-! ## A chat -/

namespace TaskGroupDetailViewController

/-- The table of the chat is given `rows` rows, if the chat is the one on screen. -/
def giveRows (chat : Chat) (rows : ℕ) (app : App) : App :=
  { app with chat := app.chat.map fun s => if s.chat = chat then { s with rows := rows } else s }

def numberOfRowsInSection (chat : Chat) (app : App) : Option Effect := do
  let g ← GroupInfoManager.getGroupInfo chat.groupNumber app.groupInfo
  return (giveRows chat g.groupMemberTalks.length app, [])

def cellForRowAt (chat : Chat) (row : ℕ) (app : App) : Option Effect := do
  let g ← GroupInfoManager.getGroupInfo chat.groupNumber app.groupInfo
  let _ ← g.groupMemberTalks[row]?
  return (app, [])

def dispTableViewFromBottom (chat : Chat) (app : App) : Option App := do
  let g ← GroupInfoManager.getGroupInfo chat.groupNumber app.groupInfo
  if g.groupMemberTalks.length = 0 then
    return app
  else
    return giveRows chat g.groupMemberTalks.length app

def observeRealTimeFirestore (chat : Chat) (app : App) : Option Command := do
  let g ← GroupInfoManager.getGroupInfo chat.groupNumber app.groupInfo
  let id ← document g.taskId
  return .listen id chat

/-- The listener that `observeRealTimeFirestore` adds. -/
def observeRealTimeFirestore.changed (chat : Chat) (data : Option Document) (app : App) : Effect :=
  match data with
  | none => (app, [])
  | some _ => (app, [.get (.refresh chat)])

/-- The callback of the refresh, when the query succeeds. -/
def observeRealTimeFirestore.completed (chat : Chat) (c : Collection String Document) (app : App) :
    Option Effect := do
  let app ← dispTableViewFromBottom chat
    { app with groupInfo := appendDocuments (orderedByTaskId c) [] }
  return (app, [])

/-- The callback of the refresh, when the query fails: the list has been cleared by
then. -/
def observeRealTimeFirestore.failed (app : App) : Effect :=
  ({ app with groupInfo := [] }, [])

def viewDidAppear (chat : Chat) (app : App) : Option Effect := do
  let listen ← observeRealTimeFirestore chat app
  return ({ app with chat := app.chat.map fun s => { s with appeared := true } }, [listen])

def saveGroupOfTalksToFirestore (chat : Chat) (now : Timestamp) (app : App) : Option Effect := do
  let g ← GroupInfoManager.getGroupInfo chat.groupNumber app.groupInfo
  let taskId := g.taskId
  let groupInfo := app.groupInfo.set chat.groupNumber { g with updatedAt := now }
  let encoded ← GroupInfoManager.getGroupInfo chat.groupNumber groupInfo
  let id ← document taskId
  return ({ app with groupInfo := groupInfo }, [.write (.set id encoded.encode)])

/-- `for _ in 0 ..< n`: append an empty message `n` times. -/
def padTalks (num : ℕ) : ℕ → List GroupInfo → Option (List GroupInfo)
  | 0, groupInfo => some groupInfo
  | n + 1, groupInfo => do
      let groupInfo ← GroupInfoManager.appendGroupInfoTalks num "" groupInfo
      padTalks num n groupInfo

def commitBtn (chat : Chat) (message : String) (now : Timestamp) (app : App) : Option Effect := do
  let g ← GroupInfoManager.getGroupInfo chat.groupNumber app.groupInfo
  let groupInfo ←
    if g.groupMemberTalks.length = 0 then padTalks chat.groupNumber 5 app.groupInfo
    else some app.groupInfo
  let groupInfo ← GroupInfoManager.appendGroupInfoTalks chat.groupNumber message groupInfo
  let (app, commands) ← saveGroupOfTalksToFirestore chat now { app with groupInfo := groupInfo }
  let listen ← observeRealTimeFirestore chat app
  return (app, commands ++ [listen])

end TaskGroupDetailViewController

/-! ## The make-group screen -/

namespace TaskMakeTableViewController

def groupMemberCandidate : List String :=
  ["お父さん", "お母さん", "遼太朗", "おじいちゃん", "おばあちゃん", "義理のおじいちゃん", "義理のおばあちゃん"]

/-- A new screen. -/
def fresh (candidates : List String) (now : Timestamp) : MakeScreen where
  groupMemberCandidate := candidates
  groupCandidate := {
    taskId := ""
    groupName := ""
    groupMemberNames := []
    groupMemberTalks := []
    createdAt := now
    updatedAt := now }

/-- The loop of `checkBoxIconViewTapped` over the indices left. The range is the one of
the list before the loop, the tests read the list as it is. -/
def toggle (name : String) : List ℕ → List String → Option (List String)
  | [], groupMemberNames => some groupMemberNames
  | i :: is, groupMemberNames => do
      let member ← groupMemberNames[i]?
      if name = member then
        return groupMemberNames.eraseIdx i
      else if i + 1 = groupMemberNames.length then
        toggle name is (groupMemberNames ++ [name])
      else
        toggle name is groupMemberNames

def checkBoxIconViewTapped (inputRow : ℕ) (screen : MakeScreen) : Option MakeScreen := do
  let name ← screen.groupMemberCandidate[inputRow]?
  let names := screen.groupCandidate.groupMemberNames
  let names ←
    if names.length = 0 then some (names ++ [name])
    else toggle name (List.range names.length) names
  return { screen with groupCandidate := { screen.groupCandidate with groupMemberNames := names } }

/-- The screen is popped from the Home tab at the end. -/
def saveGroupToFirestore (groupName taskId : String) (createdAt updatedAt : Timestamp)
    (screen : MakeScreen) (app : App) : Option Effect := do
  let groupCandidate : GroupInfo := { screen.groupCandidate with
    taskId := taskId
    createdAt := createdAt
    updatedAt := updatedAt
    groupName := groupName }
  let id ← document taskId
  return ({ app with
      groupInfo := GroupInfoManager.appendGroupInfo groupCandidate app.groupInfo
      make := none },
    [.draw taskId, .write (.set id groupCandidate.encode)])

def makeGroupBtn (groupName taskId : String) (createdAt updatedAt : Timestamp)
    (screen : MakeScreen) (app : App) : Option Effect :=
  if groupName.isEmpty then
    some (app, [])
  else if screen.groupCandidate.groupMemberNames.length = 0 then
    some (app, [])
  else
    saveGroupToFirestore groupName taskId createdAt updatedAt screen app

end TaskMakeTableViewController

end Groups

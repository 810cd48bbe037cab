import TaskFirestoreApp.Users.Effects

/-!
# The record a rename saves

A rename changes the names of the records of the user who is signed in, and saves one of
them at the path that is its own taskId. It does so exactly when `userLists` has a record of the
user, and the taskId of the last such record names a document; otherwise it aborts the app.
-/

namespace Users

open Backend UserInfoManager TaskEditUserInfoViewController

/-- The records of the user, and no others, get the name. -/
def RenamesRecords (name userID : String) (userLists userLists' : List UserInfo) : Prop :=
  List.Forall₂ (fun u u' => u' = if u.userID = userID then { u with name := name } else u)
    userLists userLists'

/-- A rename completes and changes the names of the records of the user. When there is such a
record, one of them is written, at the path that is its own taskId, otherwise nothing is
written. -/
def RenamesCorrectly (reName : String) (app : App) : Prop :=
  ∃ app' cs, backToSaveBtn reName app = some (app', cs)
    ∧ RenamesRecords reName app.userID app.userLists app'.userLists
    ∧ if HasRecord app then
        ∃ u ∈ app'.userLists, u.userID = app.userID
          ∧ ∃ id, document u.taskId = some id ∧ cs = [.write (.set id u.encode)]
      else
        cs = []

/-- `setNameAtCurrentUserID` renames the records of the user. -/
theorem renamesRecords_setName {name userID : String} {userLists : List UserInfo} :
  RenamesRecords name userID userLists (setNameAtCurrentUserID name userID userLists)
  := by
  induction userLists with
  | nil => apply List.Forall₂.nil
  | cons u userLists ih => exact List.Forall₂.cons rfl ih

/-- The record that is saved is in the list after the rename. -/
theorem mem_setName_of_lastRecord {name userID : String} {userLists : List UserInfo}
    {u : UserInfo} (h : lastRecord userID userLists = some u) :
  { u with name := name } ∈ setNameAtCurrentUserID name userID userLists
  := by
  have hlast : lastRecord userID (setNameAtCurrentUserID name userID userLists)
      = some { u with name := name } := by
    rw [lastRecord_setName, h]
    rfl
  apply (lastRecord_eq_some hlast).1

/-- A rename is correct exactly when `userLists` has a record of the user and the taskId of the
last one of them names a document. -/
theorem renamesCorrectly_iff (reName : String) (app : App) (hname : reName ≠ "") :
  RenamesCorrectly reName app
    ↔ ∃ u, lastRecord app.userID app.userLists = some u ∧ IsDocumentPath u.taskId
  := by
  constructor
  · rintro ⟨app', cs, h, -, -⟩
    rcases backToSaveBtn_cases h with ⟨hempty, -⟩ | ⟨-, u, id, hu, hid, -⟩
    · exact absurd hempty hname
    · exact ⟨u, hu, isDocumentPath_iff.mpr ⟨id, hid⟩⟩
  · rintro ⟨u, hu, hpath⟩
    obtain ⟨id, hid⟩ := isDocumentPath_iff.mp hpath
    obtain ⟨hmem, huserID⟩ := lastRecord_eq_some hu
    have hrecord : HasRecord app := ⟨u, hmem, huserID⟩
    have heq := backToSaveBtn_eq hname hu
    rw [hid] at heq
    refine ⟨_, _, heq, renamesRecords_setName, ?_⟩
    rw [if_pos hrecord]
    exact ⟨{ u with name := reName }, mem_setName_of_lastRecord hu, huserID, id, hid, rfl⟩

/-- A list with two records of the user and one of another user. -/
theorem renamesCorrectly_two :
  RenamesCorrectly "n" { App.started (some "u") 0 with
    userLists := [⟨"s", describing (some "u"), "", 1, 1⟩, ⟨"t", describing (some "u"), "m", 2, 2⟩,
      ⟨"v", describing (some "w"), "", 3, 3⟩] }
  := by
  apply (renamesCorrectly_iff "n" _ (by decide)).mpr
  exact ⟨⟨"t", describing (some "u"), "m", 2, 2⟩, by decide, IsSegment.isDocumentPath (by decide)⟩

/-- The user registers, the app is launched again, and the user is renamed before the list is
loaded: the list is empty. -/
theorem not_renamesCorrectly :
  ∃ w ∈ run World.initial (launches () ++ loads () (record "a" (by decide)) ++ registers () "u"
      ++ loads () (record "t" (by decide)) ++ [.kill ()] ++ launches ()),
    enabled (.backToSaveBtn "n") (w.device ()).app ∧ ¬ RenamesCorrectly "n" (w.device ()).app
  := by
  have hrun : ∃ w ∈ run World.initial (launches () ++ loads () (record "a" (by decide))
      ++ registers () "u" ++ loads () (record "t" (by decide)) ++ [.kill ()] ++ launches ()),
      enabled (.backToSaveBtn "n") (w.device ()).app ∧ (w.device ()).app.userLists = [] := by
    decide +kernel
  obtain ⟨w, hw, henabled, hnil⟩ := hrun
  use w, hw, henabled
  rw [renamesCorrectly_iff "n" _ (by decide), hnil]
  simp

end Users

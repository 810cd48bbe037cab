import TaskFirestoreApp.Users.Records
import Mathlib.Logic.Function.Basic

/-!
# Accounts

`Accounts` is what the app is for, as its users see it: who has an account and under which name,
and who is signed in where. `Directory` says that a collection is the table of the names, with
one record for each account; a record that is created, and one that is saved under another name,
change the table at their account only.
-/

namespace Users

open Backend UserInfoManager TaskLoginViewController

/-- The names of the accounts, and for each device whether the app runs and who is signed in. -/
structure Accounts (D : Type) where
  name : String → Option String
  running : D → Bool
  user : D → Option String

/-- What a user does in one turn. -/
inductive Deed (D : Type) where
  | signIn (d : D) (uid : String)
  | rename (d : D) (name : String)
  | signOut (d : D)
  | restart (d : D)

variable {D : Type}

def Deed.device : Deed D → D
  | .signIn d _ => d
  | .rename d _ => d
  | .signOut d => d
  | .restart d => d

namespace Accounts

/-- Nobody has an account and no app runs. -/
def initial : Accounts D where
  name _ := none
  running _ := false
  user _ := none

/-- Whether a deed can be done: nobody is signed in when somebody signs in, and somebody is for
a rename and to sign out. -/
def allows (a : Accounts D) : Deed D → Bool
  | .signIn d _ => a.running d && (a.user d).isNone
  | .rename d name => a.running d && (a.user d).isSome && name ≠ ""
  | .signOut d => a.running d && (a.user d).isSome
  | .restart _ => true

/-- An account is opened with the empty name when somebody first signs in to it. -/
def opened (name : String → Option String) (uid : String) : String → Option String :=
  if (name uid).isSome then name else Function.update name uid (some "")

variable [DecidableEq D]

/-- The accounts after a deed. -/
def after (a : Accounts D) : Deed D → Accounts D
  | .signIn d uid =>
      { a with name := opened a.name uid, user := Function.update a.user d (some uid) }
  | .rename d name =>
      { a with name := (a.user d).elim a.name fun uid => Function.update a.name uid (some name) }
  | .signOut d => { a with user := Function.update a.user d none }
  | .restart d => { a with running := Function.update a.running d true }

def step (a : Accounts D) (deed : Deed D) : Option (Accounts D) :=
  if a.allows deed then some (a.after deed) else none

end Accounts

/-! ### The table of names -/

/-- The collection has one record for each account, with its name, and no other documents. -/
structure Directory (name : String → Option String) (c : Collection String Document) : Prop where
  documents : ∀ i doc, c.lookup i = some doc → ∃ u uid, UserInfo.decode doc = .ok u
    ∧ u.userID = describing (some uid) ∧ name uid = some u.name
  records : ∀ uid n, name uid = some n → ∃ i doc u, c.lookup i = some doc
    ∧ UserInfo.decode doc = .ok u ∧ u.userID = describing (some uid)
  one : ∀ i j di dj u v, c.lookup i = some di → c.lookup j = some dj → UserInfo.decode di = .ok u →
    UserInfo.decode dj = .ok v → u.userID = v.userID → i = j

namespace Directory

variable {name : String → Option String} {c : Collection String Document} {uid n : String}

theorem empty :
  Directory (fun _ => none) ∅
  where
  documents i doc h := by simp at h
  records uid n h := by cases h
  one i j di dj u v h := by simp at h

/-- The accounts with a record are those of the table. -/
theorem stores_iff (h : Directory name c) :
  Stores c (describing (some uid)) ↔ (name uid).isSome
  := by
  constructor
  · rintro ⟨i, doc, u, hdoc, hdec, hid⟩
    obtain ⟨u', uid', hdec', hid', hname⟩ := h.documents i doc hdoc
    obtain rfl : u' = u := by simpa [hdec'] using hdec
    obtain rfl : uid = uid' := Option.some.inj (describing_injective (hid.symm.trans hid'))
    simp [hname]
  · intro hname
    obtain ⟨n, hn⟩ := Option.isSome_iff_exists.mp hname
    obtain ⟨i, doc, u, hdoc, hdec, hid⟩ := h.records uid n hn
    use i, doc, u, hdoc, hdec, hid

/-- The record of an account has its name. -/
theorem name_of_decode (h : Directory name c) {i : String} {doc : Document} {u : UserInfo}
    (hdoc : c.lookup i = some doc) (hdec : UserInfo.decode doc = .ok u)
    (hid : u.userID = describing (some uid)) :
  name uid = some u.name
  := by
  obtain ⟨u', uid', hdec', hid', hname⟩ := h.documents i doc hdoc
  obtain rfl : u' = u := by simpa [hdec'] using hdec
  obtain rfl : uid = uid' := Option.some.inj (describing_injective (hid.symm.trans hid'))
  apply hname

/-- A record of the account is written at an id that was new, when the account was, or had the
record of the account. -/
theorem set (h : Directory name c) {u : UserInfo} (hid : u.userID = describing (some uid))
    (hplace : ∀ i doc v, c.lookup i = some doc → UserInfo.decode doc = .ok v →
      (v.userID = u.userID ↔ i = u.taskId)) :
  Directory (Function.update name uid (some u.name))
    ((Write.set u.taskId u.encode).apply c)
  := by
  -- a document after the write is the record, or one of another account
  have hcases : ∀ i doc v, ((Write.set u.taskId u.encode).apply c).lookup i = some doc →
      UserInfo.decode doc = .ok v →
      i = u.taskId ∧ v = u ∨ i ≠ u.taskId ∧ v.userID ≠ u.userID ∧ c.lookup i = some doc := by
    intro i doc v hdoc hdec
    rw [Write.lookup_apply] at hdoc
    split_ifs at hdoc with hi
    · obtain rfl := Option.some.inj hdoc
      left
      use hi.symm, (by simpa using hdec.symm)
    · right
      have hne : i ≠ u.taskId := Ne.symm hi
      use hne, mt (hplace i doc v hdoc hdec).mp hne, hdoc
  have hself : ((Write.set u.taskId u.encode).apply c).lookup u.taskId = some u.encode := by
    rw [Write.lookup_apply]
    simp
  have hother : ∀ i, i ≠ u.taskId →
      ((Write.set u.taskId u.encode).apply c).lookup i = c.lookup i := by
    intro i hi
    rw [Write.lookup_apply, Write.id_set, if_neg (Ne.symm hi)]
  constructor
  · intro i doc hdoc
    by_cases hi : i = u.taskId
    · subst hi
      obtain rfl := Option.some.inj (hself.symm.trans hdoc)
      use u, uid, UserInfo.decode_encode u, hid
      simp
    · rw [hother i hi] at hdoc
      obtain ⟨v, uid', hdec, hid', hname⟩ := h.documents i doc hdoc
      have hne : uid' ≠ uid := by
        rintro rfl
        apply hi ((hplace i doc v hdoc hdec).mp (hid'.trans hid.symm))
      use v, uid', hdec, hid'
      rw [Function.update_of_ne hne, hname]
  · intro uid' n hn
    by_cases huid : uid' = uid
    · subst huid
      use u.taskId, u.encode, u, hself, UserInfo.decode_encode u, hid
    · rw [Function.update_of_ne huid] at hn
      obtain ⟨i, doc, v, hdoc, hdec, hid'⟩ := h.records uid' n hn
      have hi : i ≠ u.taskId := by
        intro hi
        have heq := (hplace i doc v hdoc hdec).mpr hi
        rw [hid', hid] at heq
        apply huid (Option.some.inj (describing_injective heq))
      use i, doc, v, (hother i hi).trans hdoc, hdec, hid'
  · intro i j di dj v v' hi hj hdec hdec' hvv'
    rcases hcases i di v hi hdec with ⟨rfl, rfl⟩ | ⟨-, hne, hci⟩
    · rcases hcases j dj v' hj hdec' with ⟨rfl, -⟩ | ⟨-, hne', -⟩
      · rfl
      · exact absurd hvv'.symm hne'
    · rcases hcases j dj v' hj hdec' with ⟨-, rfl⟩ | ⟨-, -, hcj⟩
      · exact absurd hvv' hne
      · apply h.one i j di dj v v' hci hcj hdec hdec' hvv'

/-- A record is created for an account that has none. -/
theorem create (h : Directory name c) (habsent : ¬ Stores c (describing (some uid)))
    {record : NewRecord} (hfresh : c.lookup record.taskId = none) :
  Directory (Accounts.opened name uid)
    ((Write.set record.taskId (added record (describing (some uid))).encode).apply c)
  := by
  have hopened : Accounts.opened name uid
      = Function.update name uid (some (added record (describing (some uid))).name) := by
    rw [Accounts.opened, if_neg (mt h.stores_iff.mpr habsent)]
    rfl
  rw [hopened]
  apply h.set (u := added record (describing (some uid))) rfl
  intro i doc v hdoc hdec
  constructor
  · intro hid
    exact absurd ⟨i, doc, v, hdoc, hdec, hid⟩ habsent
  · rintro rfl
    simp [added, hfresh] at hdoc

/-- The record of an account is saved with another name. -/
theorem rename (h : Directory name c) {doc : Document} {u v : UserInfo}
    (hid : u.userID = describing (some uid)) (hdoc : c.lookup u.taskId = some doc)
    (hdec : UserInfo.decode doc = .ok v) (hcreation : v.creation = u.creation) :
  Directory (Function.update name uid (some n))
    ((Write.set u.taskId { u with name := n }.encode).apply c)
  := by
  have huv : v.userID = u.userID := congrArg Creation.userID hcreation
  apply h.set (u := { u with name := n }) hid
  intro i doc' v' hdoc' hdec'
  constructor
  · intro hid'
    apply h.one i u.taskId doc' doc v' v hdoc' hdoc hdec' hdec (hid'.trans huv.symm)
  · rintro rfl
    obtain rfl : doc' = doc := Option.some.inj (hdoc'.symm.trans hdoc)
    obtain rfl : v' = v := by simpa [hdec'] using hdec
    apply huv

/-- The record a load finds of an account has the name of the account. -/
theorem name_of_mem_loaded (h : Directory name c) {q : Query} {u : UserInfo} (hu : u ∈ loaded q c)
    (hid : u.userID = describing (some uid)) :
  name uid = some u.name
  := by
  obtain ⟨i, doc, hdoc, hdec⟩ := mem_loaded.mp hu
  apply h.name_of_decode hdoc hdec hid

end Directory

namespace Accounts

/-- The account that is opened is open, and so are those that were. -/
theorem opened_isSome {name : String → Option String} {uid uid' : String}
    (h : (name uid').isSome ∨ uid' = uid) :
  (opened name uid uid').isSome
  := by
  unfold opened
  split_ifs with hname
  · rcases h with h | rfl
    · apply h
    · apply hname
  · by_cases huid : uid' = uid
    · simp [huid]
    · rw [Function.update_of_ne huid]
      apply h.resolve_right huid

end Accounts

end Users

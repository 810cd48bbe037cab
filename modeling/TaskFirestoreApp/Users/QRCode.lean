import TaskFirestoreApp.Users.Duplicates

/-!
# Scanning the code of a user

The code of an account is its userID. The screen that shows a scanned code looks for the first
record of the userID, and sets its label in the loop that looks for it; the lookups of the
current user read the last record. They agree on a list that is not empty as long as what is
loaded gives the first and the last record of every account the same name.
-/

namespace Users

open Backend UserInfoManager

/-- The app with the account `uid` signed in. -/
def App.signIn (app : App) (uid : String) : App :=
  { app with currentUser := some uid }

namespace TaskQRCodeViewController

/-- The string of the code. -/
def makeQRCode (app : App) : String :=
  app.userID

end TaskQRCodeViewController

namespace TaskQRCodeResultViewController

/-- The text of an unknown user. -/
def unknownUser : String := "不明なユーザーです"

/-- The loop of `analizeQRCodeResult` on the records left, with the text of the label so far;
it ends at the first match. -/
def analizeQRCodeResult (passResultQRCode : String) : List UserInfo → String → String
  | [], text => text
  | u :: userLists, _ =>
      if u.userID = passResultQRCode then u.name
      else analizeQRCodeResult passResultQRCode userLists unknownUser

/-- The text of the label of a new screen, which its nib sets to "Label". -/
def viewDidLoad (passResultQRCode : String) (app : App) : String :=
  analizeQRCodeResult passResultQRCode app.userLists "Label"

end TaskQRCodeResultViewController

open TaskQRCodeViewController TaskQRCodeResultViewController

/-- A scan shows of every account with a record the name that is looked up when the account is
signed in, and of every other account and every other string that the user is unknown. -/
structure ScanAgrees (app : App) : Prop where
  account : ∀ uid, viewDidLoad (makeQRCode (app.signIn uid)) app
    = if HasRecord (app.signIn uid) then
        getNameAtCurrentUserID (app.signIn uid).userID app.userLists
      else
        unknownUser
  other : ∀ code, (∀ u ∈ app.userLists, u.userID ≠ code) → viewDidLoad code app = unknownUser

/-- The first record of the user. -/
def firstRecord (userID : String) (userLists : List UserInfo) : Option UserInfo :=
  userLists.find? fun u => u.userID = userID

/-- The first and the last record of the user have the same name. -/
def SameName (userID : String) (userLists : List UserInfo) : Prop :=
  (firstRecord userID userLists).map UserInfo.name
    = (lastRecord userID userLists).map UserInfo.name

instance (userID : String) (userLists : List UserInfo) : Decidable (SameName userID userLists) :=
  inferInstanceAs (Decidable (_ = _))

/-- The first and the last record of every account have the same name. -/
def NamesAgree (userLists : List UserInfo) : Prop :=
  ∀ uid : String, SameName (describing (some uid)) userLists

section Names

variable {userID name code text : String} {userLists : List UserInfo} {u : UserInfo}

/-- A scan of a list that is not empty shows the name of the first record. -/
theorem analizeQRCodeResult_eq :
  analizeQRCodeResult code userLists text
    = if userLists = [] then text
      else ((firstRecord code userLists).map UserInfo.name).getD unknownUser
  := by
  induction userLists generalizing text with
  | nil => rfl
  | cons u userLists ih =>
      by_cases hu : u.userID = code
      · simp [analizeQRCodeResult, firstRecord, hu]
      · rw [analizeQRCodeResult, if_neg hu, ih]
        cases userLists with
        | nil => simp [firstRecord, hu]
        | cons v userLists => simp [firstRecord, hu]

theorem firstRecord_eq_none :
  firstRecord userID userLists = none ↔ ∀ u ∈ userLists, u.userID ≠ userID
  := by
  simp [firstRecord]

/-- A user has a first record exactly when there is a last one. -/
theorem firstRecord_eq_none_iff :
  firstRecord userID userLists = none ↔ lastRecord userID userLists = none
  := by
  rw [firstRecord_eq_none, lastRecord_eq_none]

theorem firstRecord_eq_head? :
  firstRecord userID userLists = (userLists.filter fun u => u.userID = userID).head?
  := List.head?_filter.symm

/-- Whether the names are the same depends on the records of the user only. -/
theorem sameName_congr {userLists' : List UserInfo}
    (h : userLists'.filter (fun u => u.userID = userID)
      = userLists.filter fun u => u.userID = userID) :
  SameName userID userLists' ↔ SameName userID userLists
  := by
  simp only [SameName, firstRecord_eq_head?, lastRecord, h]

/-- A user without a record has no two names. -/
theorem sameName_of_absent (h : ∀ u ∈ userLists, u.userID ≠ userID) :
  SameName userID userLists
  := by
  rw [SameName, firstRecord_eq_none.mpr h, lastRecord_eq_none.mpr h]

theorem namesAgree_of_forall (h : ∀ u ∈ userLists, SameName u.userID userLists) :
  NamesAgree userLists
  := by
  intro uid
  by_cases hex : ∃ u ∈ userLists, u.userID = describing (some uid)
  · obtain ⟨u, hu, hid⟩ := hex
    rw [← hid]
    apply h u hu
  · apply sameName_of_absent
    intro u hu hid
    apply hex ⟨u, hu, hid⟩

/-- A user with one record has one name. -/
theorem sameName_concat_self (h : ∀ v ∈ userLists, v.userID ≠ u.userID) :
  SameName u.userID (userLists ++ [u])
  := by
  have hnone : userLists.find? (fun v => v.userID = u.userID) = none := firstRecord_eq_none.mpr h
  rw [SameName, firstRecord, List.find?_append, hnone, lastRecord_concat, if_pos rfl]
  simp

/-- A record of a user who has none leaves the names as they are. -/
theorem namesAgree_concat (h : ∀ v ∈ userLists, v.userID ≠ u.userID) :
  NamesAgree (userLists ++ [u]) ↔ NamesAgree userLists
  := by
  apply forall_congr'
  intro uid
  by_cases hid : u.userID = describing (some uid)
  · rw [← hid]
    exact iff_of_true (sameName_concat_self h) (sameName_of_absent h)
  · apply sameName_congr
    simp [hid]

/-- A rename changes the name of the first record of the user. -/
theorem firstRecord_setName :
  firstRecord userID (setNameAtCurrentUserID name userID userLists)
    = (firstRecord userID userLists).map fun u => { u with name := name }
  := by
  rw [firstRecord, setNameAtCurrentUserID, List.find?_map]
  have hsame : (fun u : UserInfo => decide (u.userID = userID))
      ∘ (fun u => if u.userID = userID then { u with name := name } else u)
      = fun u => decide (u.userID = userID) := by
    funext u
    simp only [Function.comp_apply]
    split_ifs <;> rfl
  rw [hsame, ← firstRecord]
  cases hu : firstRecord userID userLists with
  | none => rfl
  | some u =>
      have hid : u.userID = userID := by simpa using List.find?_some hu
      simp [hid]

/-- A rename leaves the records of the other users as they are. -/
theorem filter_setName {userID' : String} (h : userID' ≠ userID) :
  (setNameAtCurrentUserID name userID userLists).filter (fun u => u.userID = userID')
    = userLists.filter fun u => u.userID = userID'
  := by
  induction userLists with
  | nil => rfl
  | cons u userLists ih =>
      rw [setNameAtCurrentUserID] at ih ⊢
      rw [List.map_cons, List.filter_cons, List.filter_cons, ih]
      by_cases hu : u.userID = userID
      · have hne : ¬ userID = userID' := fun h' => h h'.symm
        simp [hu, hne]
      · rw [if_neg hu]

/-- A rename gives all records of the user one name. -/
theorem namesAgree_setName (h : NamesAgree userLists) :
  NamesAgree (setNameAtCurrentUserID name userID userLists)
  := by
  intro uid
  by_cases hid : describing (some uid) = userID
  · rw [SameName, hid, firstRecord_setName, lastRecord_setName]
    cases hlast : lastRecord userID userLists with
    | none => rw [firstRecord_eq_none_iff.mpr hlast]
    | some u =>
        cases hfirst : firstRecord userID userLists with
        | none => simp [firstRecord_eq_none_iff.mp hfirst] at hlast
        | some v => rfl
  · apply (sameName_congr (filter_setName hid)).mpr (h uid)

end Names

/-- On a list that is not empty the scan of an account agrees with the lookup when the first and
the last record of the account have the same name. -/
theorem account_iff {app : App} {uid : String} (hne : app.userLists ≠ []) :
  viewDidLoad (makeQRCode (app.signIn uid)) app
      = (if HasRecord (app.signIn uid) then
          getNameAtCurrentUserID (app.signIn uid).userID app.userLists
        else
          unknownUser)
    ↔ SameName (describing (some uid)) app.userLists
  := by
  have hcode : makeQRCode (app.signIn uid) = describing (some uid) := rfl
  have huserID : (app.signIn uid).userID = describing (some uid) := rfl
  rw [viewDidLoad, analizeQRCodeResult_eq, if_neg hne, hcode, huserID, getNameAtCurrentUserID,
    lastAtCurrentUserID_eq]
  cases hlast : lastRecord (describing (some uid)) app.userLists with
  | none =>
      have hnone : ¬ HasRecord (app.signIn uid) := by
        rintro ⟨u, hu, hid⟩
        apply lastRecord_eq_none.mp hlast u hu hid
      have hfirst := firstRecord_eq_none_iff.mpr hlast
      rw [if_neg hnone, SameName, hfirst, hlast]
      exact iff_of_true rfl rfl
  | some u =>
      have hsome : HasRecord (app.signIn uid) := ⟨u, lastRecord_eq_some hlast⟩
      cases hfirst : firstRecord (describing (some uid)) app.userLists with
      | none => simp [firstRecord_eq_none_iff.mp hfirst] at hlast
      | some v =>
          rw [if_pos hsome, SameName, hfirst, hlast]
          simp

/-- A scan agrees with the lookup when there is a record, and the names agree. -/
theorem scanAgrees_iff {app : App} :
  ScanAgrees app ↔ app.userLists ≠ [] ∧ NamesAgree app.userLists
  := by
  constructor
  · intro h
    have hne : app.userLists ≠ [] := by
      intro hnil
      have hlabel := h.other "" (by simp [hnil])
      rw [viewDidLoad, hnil] at hlabel
      exact absurd hlabel (by decide)
    use hne
    intro uid
    apply (account_iff hne).mp (h.account uid)
  · rintro ⟨hne, hnames⟩
    constructor
    · intro uid
      apply (account_iff hne).mpr (hnames uid)
    · intro code hcode
      rw [viewDidLoad, analizeQRCodeResult_eq, if_neg hne, firstRecord_eq_none.mpr hcode]
      rfl

variable {D : Type}

/-- On every device that has a record in `userLists`, and on no other, a scan agrees with the
lookup. -/
def ScansAgree (w : World D) : Prop :=
  ∀ d, ScanAgrees (w.device d).app ↔ (w.device d).app.userLists ≠ []

/-- Of the records in `userLists` followed by those that a load finds when it is delivered, the
first and the last one of every account have the same name. -/
def LoadsAgree (w : World D) (e : Event D) : Prop :=
  ∀ p ∈ e.delivery, ∀ r ∈ (w.device p.1).client.results[p.2]?,
    NamesAgree ((w.device p.1).app.userLists ++ loaded r.1 r.2)

theorem scansAgree_iff {w : World D} :
  ScansAgree w ↔ ∀ d, NamesAgree (w.device d).app.userLists
  := by
  apply forall_congr'
  intro d
  rw [scanAgrees_iff, and_iff_left_iff_imp]
  constructor
  · intro h
    by_cases hnil : (w.device d).app.userLists = []
    · rw [hnil]
      intro uid
      rfl
    · apply h hnil
  · intro h _
    apply h

section Step

variable [DecidableEq D] {w w' : World D} {e : Event D} {d : D}
  {c : Client String Document Query Empty} {app : App} {cs : List Command}

omit [DecidableEq D] in
/-- A handler leaves the names as they should be when what it loads agrees. -/
theorem namesAgree_handler (h : ∀ d, NamesAgree (w.device d).app.userLists)
    (hloads : LoadsAgree w e) (hh : handler program w e = some (d, c, some (app, cs))) :
  NamesAgree app.userLists
  := by
  rcases handler_cases hh with ⟨u, name, hs⟩ | ⟨u, hs⟩ | hs
  · rw [hs.app]
    apply namesAgree_setName (h d)
  · obtain ⟨i, number, k, record, rfl, hr, hu, habsent, hlists⟩ := hs.delivery
    rw [hlists, namesAgree_concat]
    · apply hloads (d, i) rfl _ hr
    · rw [hs.userID]
      apply habsent
  · cases hs with
    | loads i q k record event result userLists session login found commands =>
        subst event
        rw [userLists]
        apply hloads (d, i) rfl _ result
    | clears a event q userLists commands =>
        rw [userLists]
        intro uid
        rfl
    | fails i event userLists session lastLoad commands =>
        rw [userLists]
        apply h d
    | keeps a event userLists session login lastLoad running commands =>
        rw [userLists]
        apply h d

/-- The steps that keep the names as they should be are those that load agreeing names. -/
theorem namesAgree_step (h : ∀ d, NamesAgree (w.device d).app.userLists)
    (hs : step w e = some w') :
  (∀ d, NamesAgree (w'.device d).app.userLists) ↔ LoadsAgree w e
  := by
  constructor
  · rintro h' ⟨d, i⟩ he ⟨q, k⟩ hr
    obtain ⟨record, rfl⟩ := Event.delivery_eq_some.mp he
    rcases userLists_of_deliver hs hr with hlists | ⟨u, hlists, habsent⟩
    · apply hlists ▸ h' d
    · have hall := h' d
      rw [hlists, namesAgree_concat habsent] at hall
      apply hall
  · intro hloads d
    rcases app_step hs d with happ | happ | ⟨c, cs, hh, -⟩
    · rw [happ]
      apply h d
    · rw [happ]
      intro uid
      rfl
    · apply namesAgree_handler h hloads hh

/-- In a run from the start a scan agrees with the lookup in every state, on the devices that
have a record in `userLists` and on no others, exactly when every load is delivered to a
`userLists` with which its names agree. -/
theorem scansAgree_throughout_iff {es : List (Event D)} (h : run World.initial es = some w) :
  Run.Throughout step ScansAgree World.initial es ↔ Run.Along step LoadsAgree World.initial es
  := by
  have hthroughout : Run.Throughout step ScansAgree World.initial es
      ↔ Run.Throughout step (fun w => ∀ d, NamesAgree (w.device d).app.userLists)
        World.initial es := by
    simp only [Run.Throughout, scansAgree_iff]
  rw [hthroughout]
  apply Run.throughout_iff_along_of_step _ _ h
  · intro w e w' hw hs
    apply namesAgree_step hw hs
  · intro d uid
    rfl

end Step

/-- A user registers, changes the name, and sees Home again after the app was killed. -/
theorem scansAgree_throughout_renamed :
  Run.Throughout step ScansAgree (World.initial : World Unit)
    (launches () ++ loads () (record "a" (by decide)) ++ registers () "u"
      ++ loads () (record "t" (by decide)) ++ [.act () (.backToSaveBtn "n"), .kill ()]
      ++ launches () ++ loads () (record "b" (by decide)))
  := by
  have hrun : ∃ w, run World.initial (launches () ++ loads () (record "a" (by decide))
      ++ registers () "u" ++ loads () (record "t" (by decide))
      ++ [.act () (.backToSaveBtn "n"), .kill ()] ++ launches ()
      ++ loads () (record "b" (by decide))) = some w := by
    apply Option.isSome_iff_exists.mp
    decide +kernel
  obtain ⟨w, hw⟩ := hrun
  apply (scansAgree_throughout_iff hw).mpr
  have hchecked : Run.Along step (fun w e => ∀ p ∈ e.delivery,
      ∀ r ∈ (w.device p.1).client.results[p.2]?,
      ∀ u ∈ (w.device p.1).app.userLists ++ loaded r.1 r.2,
        SameName u.userID ((w.device p.1).app.userLists ++ loaded r.1 r.2))
      World.initial (launches () ++ loads () (record "a" (by decide)) ++ registers () "u"
        ++ loads () (record "t" (by decide)) ++ [.act () (.backToSaveBtn "n"), .kill ()]
        ++ launches () ++ loads () (record "b" (by decide))) := by
    decide +kernel
  apply hchecked.imp
  intro w e he p hp r hr
  apply namesAgree_of_forall (he p hp r hr)

/-- A user sees Home after the app was killed: a code is scanned before Home's load is delivered,
and again after the user has logged out and in, has changed the name, and Home's load has been
delivered. -/
theorem not_scansAgree :
  (∃ w ∈ run (World.initial : World Unit) (launches () ++ loads () (record "a" (by decide))
        ++ registers () "u" ++ loads () (record "t" (by decide)) ++ [.kill ()] ++ launches ()),
      (w.device ()).app.login = none ∧ (w.device ()).app.userLists = []
        ∧ ¬ ScanAgrees (w.device ()).app)
    ∧ ∃ w ∈ run (World.initial : World Unit) (launches () ++ loads () (record "a" (by decide))
        ++ registers () "u" ++ loads () (record "t" (by decide)) ++ [.kill ()] ++ launches ()
        ++ [.answer () 0, .act () .logout] ++ logsIn () "u"
        ++ [.answer () 0, .deliver () 1 (record "b" (by decide)), .act () (.backToSaveBtn "n"),
          .deliver () 0 (record "c" (by decide))]),
      (w.device ()).app.login = none ∧ (w.device ()).app.userLists ≠ []
        ∧ ¬ ScanAgrees (w.device ()).app
  := by
  have hempty : ∃ w ∈ run (World.initial : World Unit) (launches ()
      ++ loads () (record "a" (by decide)) ++ registers () "u" ++ loads () (record "t" (by decide))
      ++ [.kill ()] ++ launches ()),
      (w.device ()).app.login = none ∧ (w.device ()).app.userLists = [] := by
    decide +kernel
  have hnames : ∃ w ∈ run (World.initial : World Unit) (launches ()
      ++ loads () (record "a" (by decide)) ++ registers () "u" ++ loads () (record "t" (by decide))
      ++ [.kill ()] ++ launches () ++ [.answer () 0, .act () .logout] ++ logsIn () "u"
      ++ [.answer () 0, .deliver () 1 (record "b" (by decide)), .act () (.backToSaveBtn "n"),
        .deliver () 0 (record "c" (by decide))]),
      (w.device ()).app.login = none ∧ (w.device ()).app.userLists ≠ []
        ∧ ¬ SameName (describing (some "u")) (w.device ()).app.userLists := by
    decide +kernel
  obtain ⟨w, hw, hlogin, hnil⟩ := hempty
  obtain ⟨w', hw', hlogin', hne, hname⟩ := hnames
  constructor
  · use w, hw, hlogin, hnil
    intro h
    apply (scanAgrees_iff.mp h).1 hnil
  · use w', hw', hlogin', hne
    intro h
    apply hname ((scanAgrees_iff.mp h).2 "u")

end Users

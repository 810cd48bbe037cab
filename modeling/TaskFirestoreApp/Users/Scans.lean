import TaskFirestoreApp.Users.QRCode
import TaskFirestoreApp.Users.Turns

/-!
# Scanning each other's codes

A user shows the code of the account on one device, and another device scans it. The screen that
reads codes passes the first one it can read to one screen that shows the result, with the name
that `userLists` has. `Acquaintance` are the accounts with what each device has seen of their
names: a load shows it all of them, a rename the one it has saved. When the devices take turns,
that is what a scan shows.
-/

namespace Users

open Backend UserInfoManager TaskLoginViewController TaskQRCodeViewController
  TaskQRCodeResultViewController

/-! ### Reading a code -/

namespace ReadQRCodeViewController

/-- The types of the objects that the camera finds. -/
inductive ObjectType where
  | qr
  | other
  deriving DecidableEq

/-- An object that the camera finds. -/
structure Metadata where
  type : ObjectType
  stringValue : Option String

/-- A screen that reads codes: whether its session runs, and the codes that it has passed to
screens it has pushed. -/
structure Screen where
  running : Bool
  pushed : List String

/-- A new screen; the session runs when there is a camera for it. -/
def viewDidLoad (camera : Bool) : Screen :=
  ⟨camera, []⟩

/-- The loop of `metadataOutput`; it ends at the first code that can be read. -/
def metadataOutput : List Metadata → Screen → Screen
  | [], screen => screen
  | metadata :: metadataObjects, screen =>
      if metadata.type ≠ .qr then
        metadataOutput metadataObjects screen
      else
        match metadata.stringValue with
        | none => metadataOutput metadataObjects screen
        | some result => ⟨false, screen.pushed ++ [result]⟩

/-- While the session runs, what the camera finds is put out. That nothing is put out any more
after `stopRunning` is behaviour of AVCaptureSession, which is assumed. -/
def outputs : List (List Metadata) → Screen → Screen
  | [], screen => screen
  | metadataObjects :: found, screen =>
      outputs found (if screen.running then metadataOutput metadataObjects screen else screen)

/-- The string of an object, when it is a code that can be read. -/
def Metadata.code (metadata : Metadata) : Option String :=
  if metadata.type = .qr then metadata.stringValue else none

/-- The first code that can be read. -/
def firstCode (found : List (List Metadata)) : Option String :=
  found.flatten.findSome? Metadata.code

theorem metadataOutput_eq {metadataObjects : List Metadata} {screen : Screen} :
  metadataOutput metadataObjects screen
    = (metadataObjects.findSome? Metadata.code).elim screen
      fun result => ⟨false, screen.pushed ++ [result]⟩
  := by
  induction metadataObjects with
  | nil => rfl
  | cons metadata metadataObjects ih =>
      obtain ⟨type, stringValue⟩ := metadata
      cases type with
      | other => simpa [metadataOutput, Metadata.code] using ih
      | qr =>
          cases stringValue with
          | none => simpa [metadataOutput, Metadata.code] using ih
          | some result => simp [metadataOutput, Metadata.code]

/-- A session that has stopped puts nothing out. -/
theorem outputs_of_stopped {found : List (List Metadata)} {screen : Screen}
    (h : screen.running = false) :
  outputs found screen = screen
  := by
  induction found with
  | nil => rfl
  | cons metadataObjects found ih =>
      rw [outputs, h]
      apply ih

/-- The screen passes the first code that can be read to a screen, and no other. -/
theorem pushed_outputs {found : List (List Metadata)} {screen : Screen}
    (h : screen.running = true) :
  (outputs found screen).pushed = screen.pushed ++ (firstCode found).toList
  := by
  rw [firstCode]
  induction found with
  | nil => simp [outputs]
  | cons metadataObjects found ih =>
      rw [outputs, if_pos h, metadataOutput_eq, List.flatten_cons, List.findSome?_append]
      cases metadataObjects.findSome? Metadata.code with
      | none => simpa using ih
      | some result =>
          rw [Option.elim_some, outputs_of_stopped rfl]
          rfl

end ReadQRCodeViewController

open ReadQRCodeViewController (Metadata firstCode)

/-- The texts that are shown when the camera finds `found`. -/
def scan (found : List (List Metadata)) (app : App) : List String :=
  (ReadQRCodeViewController.outputs found (ReadQRCodeViewController.viewDidLoad true)).pushed.map
    fun result => TaskQRCodeResultViewController.viewDidLoad result app

theorem scan_eq {found : List (List Metadata)} {app : App} :
  scan found app = (firstCode found).toList.map fun result =>
    TaskQRCodeResultViewController.viewDidLoad result app
  := by
  rw [scan, ReadQRCodeViewController.pushed_outputs rfl]
  rfl

/-! ### The names in `userLists` -/

/-- The records are of the accounts of the table, with their names, and each account has one. -/
structure Listed (name : String → Option String) (userLists : List UserInfo) : Prop where
  records : ∀ u ∈ userLists, ∃ uid, u.userID = describing (some uid) ∧ name uid = some u.name
  accounts : ∀ uid, (name uid).isSome → ∃ u ∈ userLists, u.userID = describing (some uid)

/-- A load lists the accounts. -/
theorem Directory.listed {name : String → Option String} {c : Collection String Document}
    (h : Directory name c) (q : Query) :
  Listed name (loaded q c)
  := by
  constructor
  · intro u hu
    obtain ⟨i, doc, hdoc, hdec⟩ := mem_loaded.mp hu
    obtain ⟨u', uid, hdec', hid, hname⟩ := h.documents i doc hdoc
    obtain rfl : u' = u := by simpa [hdec'] using hdec
    use uid, hid, hname
  · intro uid huid
    apply (Users.stores_iff q).mp
    apply h.stores_iff.mpr huid

namespace Listed

variable {name : String → Option String} {userLists : List UserInfo} {uid n code : String}
  {app : App}

theorem empty :
  Listed (fun _ => none) []
  where
  records u hu := by cases hu
  accounts uid huid := by cases huid

/-- A record is added for an account that is opened. -/
theorem concat (h : Listed name userLists) (habsent : name uid = none) (record : NewRecord) :
  Listed (Accounts.opened name uid) (userLists ++ [added record (describing (some uid))])
  := by
  have hopened : Accounts.opened name uid = Function.update name uid (some "") := by
    rw [Accounts.opened, habsent]
    rfl
  rw [hopened]
  constructor
  · intro u hu
    rcases List.mem_append.mp hu with hu | hu
    · obtain ⟨uid', hid, hname⟩ := h.records u hu
      have hne : uid' ≠ uid := by
        rintro rfl
        simp [habsent] at hname
      use uid', hid
      rw [Function.update_of_ne hne, hname]
    · obtain rfl := List.mem_singleton.mp hu
      use uid, rfl
      rw [Function.update_self]
      rfl
  · intro uid' huid'
    by_cases heq : uid' = uid
    · subst heq
      exact ⟨_, List.mem_append_right _ (List.mem_singleton_self _), rfl⟩
    · rw [Function.update_of_ne heq] at huid'
      obtain ⟨u, hu, hid⟩ := h.accounts uid' huid'
      use u, List.mem_append_left _ hu, hid

/-- The records of an account are renamed. -/
theorem setName (h : Listed name userLists) (huid : (name uid).isSome) :
  Listed (Function.update name uid (some n))
    (setNameAtCurrentUserID n (describing (some uid)) userLists)
  := by
  constructor
  · intro u hu
    obtain ⟨v, hv, rfl⟩ := List.mem_map.mp hu
    obtain ⟨uid', hid, hname⟩ := h.records v hv
    use uid'
    by_cases heq : uid' = uid
    · subst heq
      rw [if_pos hid, Function.update_self]
      exact ⟨hid, rfl⟩
    · have hne : v.userID ≠ describing (some uid) := by
        rw [hid]
        intro hdescribing
        apply heq (Option.some.inj (describing_injective hdescribing))
      rw [if_neg hne, Function.update_of_ne heq]
      exact ⟨hid, hname⟩
  · intro uid' huid'
    have hsome : (name uid').isSome := by
      by_cases heq : uid' = uid
      · rw [heq]
        apply huid
      · rwa [Function.update_of_ne heq] at huid'
    obtain ⟨u, hu, hid⟩ := h.accounts uid' hsome
    refine ⟨_, List.mem_map.mpr ⟨u, hu, rfl⟩, ?_⟩
    split_ifs
    · exact hid
    · exact hid

/-- The code of an account shows its name. -/
theorem viewDidLoad_account (h : Listed name app.userLists) (huid : name uid = some n) :
  viewDidLoad (describing (some uid)) app = n
  := by
  obtain ⟨u, hu, hid⟩ := h.accounts uid (by simp [huid])
  cases hfirst : firstRecord (describing (some uid)) app.userLists with
  | none => exact absurd hid (firstRecord_eq_none.mp hfirst u hu)
  | some v =>
      obtain ⟨uid', hid', hname⟩ := h.records v (List.mem_of_find?_eq_some hfirst)
      have hvid : v.userID = describing (some uid) := by simpa using List.find?_some hfirst
      obtain rfl : uid' = uid := Option.some.inj (describing_injective (hid'.symm.trans hvid))
      obtain rfl : v.name = n := Option.some.inj (hname.symm.trans huid)
      rw [viewDidLoad, analizeQRCodeResult_eq, if_neg (List.ne_nil_of_mem hu), hfirst]
      rfl

/-- Another code shows that the user is unknown, when there are accounts at all. -/
theorem viewDidLoad_unknown (h : Listed name app.userLists) (huid : (name uid).isSome)
    (hcode : ∀ uid', (name uid').isSome → code ≠ describing (some uid')) :
  viewDidLoad code app = unknownUser
  := by
  obtain ⟨u, hu, -⟩ := h.accounts uid huid
  have hfirst : firstRecord code app.userLists = none := by
    apply firstRecord_eq_none.mpr
    rintro v hv rfl
    obtain ⟨uid', hid, hname⟩ := h.records v hv
    apply hcode uid' (by simp [hname]) hid
  rw [viewDidLoad, analizeQRCodeResult_eq, if_neg (List.ne_nil_of_mem hu), hfirst]
  rfl

/-- When there is a record of the user the account is listed. -/
theorem isSome_of_hasRecord (h : Listed name app.userLists) (hrecord : HasRecord app)
    (huser : app.currentUser = some uid) :
  (name uid).isSome
  := by
  obtain ⟨u, hu, hid⟩ := hrecord
  obtain ⟨uid', hid', hname⟩ := h.records u hu
  obtain rfl : uid = uid' := by
    apply Option.some.inj (describing_injective _)
    rw [← hid', hid, App.userID, huser]
  simp [hname]

/-- When there are no accounts the label stays as the nib sets it. -/
theorem viewDidLoad_blank (h : Listed name app.userLists) (hnone : ∀ uid, name uid = none) :
  viewDidLoad code app = "Label"
  := by
  have hnil : app.userLists = [] := by
    apply List.eq_nil_iff_forall_not_mem.mpr
    intro u hu
    obtain ⟨uid, -, hname⟩ := h.records u hu
    simp [hnone] at hname
  rw [viewDidLoad, hnil]
  rfl

end Listed

/-! ### What each device has seen -/

/-- The accounts, and the names that each device has seen. -/
structure Acquaintance (D : Type) extends Accounts D where
  seen : D → String → Option String

/-- The deeds that load the records. -/
def Deed.loads {D : Type} : Deed D → Bool
  | .signIn _ _ => true
  | .restart _ => true
  | .rename _ _ => false
  | .signOut _ => false

namespace Acquaintance

variable {D : Type}

/-- No device has seen any name. -/
def initial : Acquaintance D where
  toAccounts := .initial
  seen _ _ := none

variable [DecidableEq D]

/-- What the devices have seen after a deed: a load shows all the names, a rename the new one. -/
def learnt (a : Acquaintance D) (deed : Deed D) : D → String → Option String :=
  match deed with
  | .signIn d _ => Function.update a.seen d (a.after deed).name
  | .restart d => Function.update a.seen d (a.after deed).name
  | .rename d name =>
      Function.update a.seen d
        ((a.user d).elim (a.seen d) fun uid => Function.update (a.seen d) uid (some name))
  | .signOut _ => a.seen

def step (a : Acquaintance D) (deed : Deed D) : Option (Acquaintance D) :=
  (a.toAccounts.step deed).map fun a' => ⟨a', a.learnt deed⟩

/-- A device that has seen all the names still has after what it does itself. -/
theorem seen_step {a a' : Acquaintance D} {deed : Deed D} (h : a.step deed = some a')
    (hseen : deed.loads ∨ a.seen deed.device = a.name) :
  a'.seen deed.device = a'.name
  := by
  obtain ⟨b, hb, rfl⟩ := Option.map_eq_some_iff.mp h
  obtain rfl : a.after deed = b := by
    unfold Accounts.step at hb
    split_ifs at hb
    apply Option.some.inj hb
  cases deed with
  | signIn d uid => simp [learnt, Deed.device]
  | restart d => simp [learnt, Deed.device]
  | rename d name =>
      have hseen : a.seen d = a.name := by simpa [Deed.loads, Deed.device] using hseen
      cases huser : a.user d <;> simp [learnt, Deed.device, Accounts.after, huser, hseen]
  | signOut d =>
      simpa [Deed.loads, learnt, Accounts.after] using hseen

/-- From its last load on a device has seen all the names, when the other devices take no
turn. -/
theorem seen_of_exec {a : Acquaintance D} {ds ds' : List (Deed D)} {deed : Deed D}
    (h : Run.exec step .initial (ds ++ deed :: ds') = some a) (hloads : deed.loads)
    (hown : ∀ x ∈ ds', x.device = deed.device) :
  a.seen deed.device = a.name
  := by
  obtain ⟨b, -, hrest⟩ := Run.exec_append_iff.mp h
  obtain ⟨b', hstep, hrest⟩ := Run.exec_cons_iff.mp hrest
  refine Run.exec_invariant (I := fun a => a.seen deed.device = a.name)
    (C := fun _ x => x.device = deed.device) ?_ (seen_step hstep (.inl hloads))
    (Run.along_of_forall fun _ => hown) hrest
  intro a x a' ha hx hs
  rw [← hx] at ha ⊢
  apply seen_step hs (.inr ha)

end Acquaintance

variable {D : Type} [DecidableEq D] {w w' : World D}

/-- A turn leaves every device with the names that it has seen. -/
theorem listed_turn {a : Acquaintance D} {deed : Deed D} (h : Represents w a.toAccounts)
    (hlisted : ∀ d, Listed (a.seen d) (w.device d).app.userLists) (hturn : Turn w deed w')
    (d : D) :
  Listed (a.learnt deed d) (w'.device d).app.userLists
  := by
  obtain ⟨⟨es, w₁, es', hpresses, hs, hes', hs'⟩, hquiet⟩ := hturn
  -- a device that does not take the turn has learnt nothing
  have hother : ∀ {f : D} {name : String → Option String},
      (∀ g, g ≠ f → w'.device g = w.device g) → Listed name (w'.device f).app.userLists →
      Listed (Function.update a.seen f name d) (w'.device d).app.userLists := by
    intro f name hothers hown
    rcases eq_or_ne d f with rfl | hf
    · rw [Function.update_self]
      apply hown
    · rw [Function.update_of_ne hf, hothers d hf]
      apply hlisted
  cases deed with
  | signIn f uid =>
      obtain ⟨n, app, happ, hothers, -, hload⟩ := signIn_turn h hpresses hs hes' hs' hquiet
      apply hother hothers
      rw [happ]
      rcases hload with ⟨hstores, hlists, -⟩ | ⟨habsent, record, -, hlists, -⟩
      · have hopened : (a.after (.signIn f uid)).name = a.name :=
          if_pos (h.directory.stores_iff.mp hstores)
        rw [hlists, hopened]
        apply h.directory.listed
      · rw [hlists]
        apply (h.directory.listed (.login n)).concat
        rw [← Option.not_isSome_iff_eq_none]
        apply mt h.directory.stores_iff.mpr habsent
  | restart f =>
      cases hpresses with
      | restart _ now =>
          obtain ⟨app, happ, hothers, -, hlists, -⟩ := restart_turn h hs hes' hs' hquiet
          apply hother hothers
          rw [happ, hlists]
          apply h.directory.listed
  | rename f name =>
      cases hpresses with
      | rename _ _ hname =>
          obtain ⟨u, uid, hlast, huid, -, happ, -, hothers⟩ :=
            rename_turn h hname hs hes' hs' hquiet
          have huser : a.user f = some uid := (h.device f).user.symm.trans huid
          have huserID : (w.device f).app.userID = describing (some uid) := by
            rw [App.userID, huid]
          apply hother hothers
          rw [happ, huserID, huser]
          apply (hlisted f).setName
          apply (hlisted f).isSome_of_hasRecord _ huid
          exact ⟨u, lastRecord_eq_some hlast⟩
  | signOut f =>
      cases hpresses with
      | signOut _ =>
          obtain ⟨happ, -, hothers⟩ := signOut_turn h hs hes' hs' hquiet
          rcases eq_or_ne d f with rfl | hf
          · rw [happ]
            apply hlisted
          · rw [hothers d hf]
            apply hlisted

/-- What a scan shows on a device that has seen the names `seen`. -/
structure Scanned (seen : String → Option String) (app : App) : Prop where
  account : ∀ found uid n, firstCode found = some (describing (some uid)) → seen uid = some n →
    scan found app = [n]
  unknown : ∀ found code, firstCode found = some code → (∃ uid, (seen uid).isSome) →
    (∀ uid, (seen uid).isSome → code ≠ describing (some uid)) → scan found app = [unknownUser]
  blank : ∀ found code, firstCode found = some code → (∀ uid, seen uid = none) →
    scan found app = ["Label"]
  nothing : ∀ found, firstCode found = none → scan found app = []

omit [DecidableEq D] in
theorem Listed.scanned {seen : String → Option String} {app : App}
    (h : Listed seen app.userLists) :
  Scanned seen app
  := by
  constructor
  · intro found uid n hcode huid
    rw [scan_eq, hcode, Option.toList_some, List.map_singleton, h.viewDidLoad_account huid]
  · rintro found code hcode ⟨uid, huid⟩ hne
    rw [scan_eq, hcode, Option.toList_some, List.map_singleton, h.viewDidLoad_unknown huid hne]
  · intro found code hcode hnone
    rw [scan_eq, hcode, Option.toList_some, List.map_singleton, h.viewDidLoad_blank hnone]
  · intro found hcode
    rw [scan_eq, hcode]
    rfl

/-- When devices take turns, in which nothing fails, a scan shows the names that the device has
seen: its code is that of the user, of an account it has seen the name is shown, and of another
code that the user is unknown. Only a device that has seen no account leaves the label as the nib
sets it, and a device that runs has seen the account of its user. From its last load on, until
another device takes a turn, it has seen the names of all accounts. -/
theorem scans_implement {deeds : List (Deed D)} (h : Turns Turn (World.initial : World D) deeds w) :
  ∃ a, Run.exec Acquaintance.step .initial deeds = some a
    ∧ Represents w a.toAccounts
    ∧ (∀ d, makeQRCode (w.device d).app = describing (a.user d))
    ∧ (∀ d, Scanned (a.seen d) (w.device d).app)
    ∧ (∀ d uid, (w.device d).app.running → a.user d = some uid → (a.seen d uid).isSome)
    ∧ ∀ ds deed ds', deeds = ds ++ deed :: ds' → deed.loads →
      (∀ x ∈ ds', x.device = deed.device) → a.seen deed.device = a.name
  := by
  have hkeeps : ∀ w w' deed (a : Acquaintance D),
      (Represents w a.toAccounts ∧ ∀ d, Listed (a.seen d) (w.device d).app.userLists) →
      Turn w deed w' → ∃ a', a.step deed = some a'
        ∧ Represents w' a'.toAccounts ∧ ∀ d, Listed (a'.seen d) (w'.device d).app.userLists := by
    rintro w w' deed a ⟨h, hlisted⟩ hturn
    obtain ⟨b, hb, h', -⟩ := represents_turn h hturn
    use ⟨b, a.learnt deed⟩, Option.map_eq_some_iff.mpr ⟨b, hb, rfl⟩, h'
    apply listed_turn h hlisted hturn
  obtain ⟨a, ha, h', hlisted⟩ := Turns.simulates (t := .initial) hkeeps
    ⟨represents_initial, fun _ => .empty⟩ h
  use a, ha, h'
  refine ⟨?_, fun d => (hlisted d).scanned, ?_, ?_⟩
  · intro d
    rw [makeQRCode, App.userID, (h'.device d).user]
  · intro d uid hrunning huser
    apply (hlisted d).isSome_of_hasRecord _ ((h'.device d).user.trans huser)
    apply ((h'.device d).home hrunning _).2
    simp [(h'.device d).user, huser]
  · rintro ds deed ds' rfl hloads hown
    apply Acquaintance.seen_of_exec ha hloads hown

/-- A user is renamed on one device, another device is restarted, and scans the code of the
user. -/
theorem scans_implement_renamed :
  ∃ w : World Bool, Turns Turn World.initial [.restart true, .signIn true "u", .rename true "n",
      .restart false] w
    ∧ scan [[⟨.other, some "o"⟩, ⟨.qr, none⟩], [⟨.qr, some (makeQRCode (w.device true).app)⟩]]
      (w.device false).app = ["n"]
  := by
  obtain ⟨w, hw⟩ : ∃ w : World Bool, Turns Turn World.initial [.restart true, .signIn true "u",
      .rename true "n", .restart false] w := exists_turns rfl
  use w, hw
  obtain ⟨a, ha, -, hcode, hscanned, -⟩ := scans_implement hw
  obtain ⟨huser, hseen⟩ : a.user true = some "u" ∧ a.seen false "u" = some "n" := by
    obtain rfl := Option.some.inj ha
    decide
  rw [hcode, huser]
  apply (hscanned false).account _ "u" "n" rfl hseen

end Users

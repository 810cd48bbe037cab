import TaskFirestoreApp.Users.Program

/-!
# What the handlers of the users do

`handler_cases`: a handler renames the user, creates a record, or writes nothing. What a
rename saves is the last record of the user, and it is saved at the path of its own taskId: the
two lookups agree whenever the app is not aborted.
-/

namespace Users

open Backend UserInfoManager

/-- The documents a load returns. -/
def documents (q : Query) (c : Collection String Document) : List (String × Document) :=
  match q with
  | .home => orderedByTaskId c
  | .login _ => orderedByCreatedAt c

/-- The records a load finds. -/
def loaded (q : Query) (c : Collection String Document) : List UserInfo :=
  Document.decodeAll UserInfo.decode (documents q c)

theorem appendDocuments_eq (q : Query) (c : Collection String Document)
    (userLists : List UserInfo) :
  appendDocuments (documents q c) userLists = userLists ++ loaded q c
  := Document.appendAll_eq (fun _ _ => rfl) userLists

/-- A load finds the documents that decode: they have the field it is ordered by. -/
theorem mem_loaded {q : Query} {c : Collection String Document} {u : UserInfo} :
  u ∈ loaded q c ↔ ∃ i d, c.lookup i = some d ∧ UserInfo.decode d = .ok u
  := by
  rw [loaded, Document.mem_decodeAll]
  constructor
  · rintro ⟨i, d, hm, hu⟩
    use i, d
    cases q with
    | home => exact ⟨(Collection.mem_orderedBy.mp hm).1, hu⟩
    | login number => exact ⟨(Collection.mem_orderedBy.mp hm).1, hu⟩
  · rintro ⟨i, d, hd, hu⟩
    use i, d
    obtain ⟨htaskId, -, -, hcreatedAt, -⟩ := UserInfo.decode_eq_ok.mp hu
    cases q with
    | home => exact ⟨Collection.mem_orderedBy.mpr ⟨hd, _, htaskId⟩, hu⟩
    | login number => exact ⟨Collection.mem_orderedBy.mpr ⟨hd, _, hcreatedAt⟩, hu⟩

/-- The collection has a record of the user. -/
def Stores (c : Collection String Document) (userID : String) : Prop :=
  ∃ i d u, c.lookup i = some d ∧ UserInfo.decode d = .ok u ∧ u.userID = userID

/-- Every load finds the records of the collection. -/
theorem stores_iff (q : Query) {c : Collection String Document} {userID : String} :
  Stores c userID ↔ ∃ u ∈ loaded q c, u.userID = userID
  := by
  simp only [mem_loaded]
  constructor
  · rintro ⟨i, d, u, hd, hu, hid⟩
    use u, ⟨i, d, hd, hu⟩, hid
  · rintro ⟨u, ⟨i, d, hd, hu⟩, hid⟩
    use i, d, u, hd, hu, hid

instance (c : Collection String Document) (userID : String) : Decidable (Stores c userID) :=
  decidable_of_iff _ (stores_iff .home).symm

/-- `userLists` has a record of the user who is signed in. -/
def HasRecord (app : App) : Prop :=
  ∃ u ∈ app.userLists, u.userID = app.userID

instance (app : App) : Decidable (HasRecord app) :=
  inferInstanceAs (Decidable (∃ u ∈ app.userLists, u.userID = app.userID))

/-! ### The handlers that write -/

section

variable {app : App} {eff : Effect}

/-- A rename saves the last record of the user with its new name, if its taskId names a
document. -/
theorem TaskEditUserInfoViewController.backToSaveBtn_eq {reName : String} {u : UserInfo}
    (hname : reName ≠ "") (hu : lastRecord app.userID app.userLists = some u) :
  backToSaveBtn reName app = (document u.taskId).map fun id =>
    ({ app with userLists := setNameAtCurrentUserID reName app.userID app.userLists },
      [.write (.set id { u with name := reName }.encode)])
  := by
  have hempty : reName.isEmpty = false := by simpa using hname
  simp only [backToSaveBtn, hempty, getUserInfoAtCurrentUserID_eq, getTaskIdAtCurrentUserID,
    lastAtCurrentUserID_eq, lastRecord_setName, hu, Option.bind_eq_bind, Option.bind_some,
    Option.pure_def, Option.map_eq_bind]
  rfl

/-- Without a record of the user a rename aborts: the empty path names no document. -/
theorem TaskEditUserInfoViewController.backToSaveBtn_eq_none {reName : String}
    (hname : reName ≠ "") (hu : lastRecord app.userID app.userLists = none) :
  backToSaveBtn reName app = none
  := by
  have hempty : reName.isEmpty = false := by simpa using hname
  have hdocument : document "" = none := by
    apply Option.eq_none_iff_forall_ne_some.mpr
    intro id hid
    exact (isDocumentPath_iff.mpr ⟨id, hid⟩).ne_empty rfl
  simp [backToSaveBtn, hempty, getTaskIdAtCurrentUserID, lastAtCurrentUserID_eq,
    lastRecord_setName, hu, hdocument]

/-- A rename that does not abort saves the last record of the user. -/
theorem TaskEditUserInfoViewController.backToSaveBtn_cases {reName : String}
    (h : backToSaveBtn reName app = some eff) :
  reName = "" ∧ eff = (app, [])
    ∨ reName ≠ "" ∧ ∃ u id, lastRecord app.userID app.userLists = some u
      ∧ document u.taskId = some id
      ∧ eff = ({ app with userLists := setNameAtCurrentUserID reName app.userID app.userLists },
        [.write (.set id { u with name := reName }.encode)])
  := by
  by_cases hname : reName = ""
  · subst hname
    left
    exact ⟨rfl, (Option.some.inj h).symm⟩
  · refine .inr ⟨hname, ?_⟩
    cases hu : lastRecord app.userID app.userLists with
    | none =>
        rw [backToSaveBtn_eq_none hname hu] at h
        cases h
    | some u =>
        rw [backToSaveBtn_eq hname hu, Option.map_eq_some_iff] at h
        obtain ⟨id, hid, rfl⟩ := h
        exact ⟨u, id, rfl, hid, rfl⟩

theorem TaskEditUserInfoViewController.backToSaveBtn_eq_some {reName : String} {u : UserInfo}
    (hname : reName ≠ "") (hu : lastRecord app.userID app.userLists = some u)
    (hid : IsSegment u.taskId) :
  backToSaveBtn reName app = some
    ({ app with userLists := setNameAtCurrentUserID reName app.userID app.userLists },
      [.write (.set u.taskId { u with name := reName }.encode)])
  := by
  rw [backToSaveBtn_eq hname hu, document_of_isSegment hid]
  rfl

namespace TaskLoginViewController

/-- The record `addUserInfo` adds. -/
def added (record : NewRecord) (userID : String) : UserInfo where
  taskId := record.taskId
  userID := userID
  name := ""
  createdAt := record.createdAt
  updatedAt := record.updatedAt

theorem addUserInfo_eq (record : NewRecord) (app : App) :
  addUserInfo record app = some
    ({ app with userLists := app.userLists ++ [added record app.userID] },
      [.draw record.taskId, .write (.set record.taskId (added record app.userID).encode)])
  := by
  simp [addUserInfo, document_of_isSegment record.segment, appendUserLists, added]

/-- A record is added exactly when there is none of the user: the empty list needs no check
of its own. -/
theorem checkExistingUser_eq (number : ℕ) (record : NewRecord) (app : App) :
  checkExistingUser number record app = some
    (if ∃ u ∈ app.userLists, u.userID = app.userID then
      (presentTaskHomeViewController number app, [])
    else
      (presentTaskHomeViewController number
        { app with userLists := app.userLists ++ [added record app.userID] },
        [.draw record.taskId, .write (.set record.taskId (added record app.userID).encode)]))
  := by
  simp only [checkExistingUser, addUserInfo_eq, List.any_eq_true, decide_eq_true_eq]
  by_cases hempty : app.userLists.length = 0
  · have hnil := List.length_eq_zero_iff.mp hempty
    simp [hnil]
  · by_cases hany : ∃ u ∈ app.userLists, u.userID = app.userID
    · simp only [hempty, if_false, hany, if_true, Option.bind_eq_bind, Option.bind_some,
        Option.pure_def]
    · simp only [hempty, if_false, hany, Option.bind_eq_bind, Option.bind_some, Option.pure_def]

/-- The callback of the load of a login screen appends what it finds, and adds a record when
there is none of the user. -/
theorem completed_eq (number : ℕ) (c : Collection String Document) (record : NewRecord)
    (app : App) :
  ∃ login, readUserInfoFromFirestore.completed number c record app = some
    (if ∃ u ∈ app.userLists ++ loaded (.login number) c, u.userID = app.userID then
      ({ app with
          userLists := app.userLists ++ loaded (.login number) c
          login := login
          lastLoad := some true }, [])
    else
      ({ app with
          userLists := app.userLists ++ loaded (.login number) c ++ [added record app.userID]
          login := login
          lastLoad := some true },
        [.draw record.taskId, .write (.set record.taskId (added record app.userID).encode)]))
  := by
  rw [← appendDocuments_eq]
  simp only [readUserInfoFromFirestore.completed, checkExistingUser_eq]
  by_cases hall : (orderedByCreatedAt c).all fun document => (UserInfo.decode document.2).isOk
  · use (presentTaskHomeViewController number app).login
    simp only [hall, if_true]
    rfl
  · use (presentTaskHomeViewController number (showAlert number app)).login
    simp only [hall]
    rfl

end TaskLoginViewController

end

/-! ### The handlers -/

section

variable {D : Type} {w : World D} {d : D} {e : Event D} {app : App} {cs : List Command}

/-- The user of the device `d` is renamed to `name`: all its records change in `userLists`,
and the last one, `u`, is saved. -/
structure Renames (w : World D) (d : D) (e : Event D) (app : App) (cs : List Command)
    (u : UserInfo) (name : String) : Prop where
  event : e = .act d (.backToSaveBtn name)
  nonempty : name ≠ ""
  record : lastRecord (w.device d).app.userID (w.device d).app.userLists = some u
  app : app = { (w.device d).app with
    userLists := setNameAtCurrentUserID name (w.device d).app.userID (w.device d).app.userLists }
  commands : ∃ id, document u.taskId = some id
    ∧ cs = [.write (.set id { u with name := name }.encode)]

/-- The load of a login screen finds no record of the user, and `userLists` has none; the
record `u` is created. -/
structure Creates (w : World D) (d : D) (e : Event D) (app : App) (cs : List Command)
    (u : UserInfo) : Prop where
  delivery : ∃ i number c record, e = .deliver d i record
    ∧ (w.device d).client.results[i]? = some (.login number, c)
    ∧ u = TaskLoginViewController.added record (w.device d).app.userID
    ∧ (∀ v ∈ (w.device d).app.userLists ++ loaded (.login number) c,
        v.userID ≠ (w.device d).app.userID)
    ∧ app.userLists = (w.device d).app.userLists ++ loaded (.login number) c ++ [u]
  currentUser : app.currentUser = (w.device d).app.currentUser
  taskId : IsSegment u.taskId
  commands : cs = [.draw u.taskId, .write (.set u.taskId u.encode)]

/-- What a handler that writes nothing does to `userLists` and the session. -/
inductive Reads (w : World D) (d : D) (e : Event D) (app : App) (cs : List Command) : Prop
  | loads (i : ℕ) (q : Query) (c : Collection String Document) (record : NewRecord)
      (event : e = .deliver d i record)
      (result : (w.device d).client.results[i]? = some (q, c))
      (userLists : app.userLists = (w.device d).app.userLists ++ loaded q c)
      (session : app.running = (w.device d).app.running
        ∧ app.currentUser = (w.device d).app.currentUser)
      (login : q = .home → app.login = (w.device d).app.login)
      (found : q ≠ .home → ∃ u ∈ app.userLists, u.userID = app.userID)
      (commands : cs = [])
  | clears (a : Action) (event : e = .act d a) (q : Query) (userLists : app.userLists = [])
      (commands : cs = [.get q])
  | fails (i : ℕ) (event : e = .fail d i)
      (userLists : app.userLists = (w.device d).app.userLists)
      (session : app.currentUser = (w.device d).app.currentUser)
      (lastLoad : app.lastLoad = some false)
      (commands : cs = [])
  | keeps (a : Action) (event : e = .act d a)
      (userLists : app.userLists = (w.device d).app.userLists)
      (session : app.currentUser = (w.device d).app.currentUser ∨ app.currentUser = none)
      (login : app.login = none → (w.device d).app.login = none)
      (lastLoad : app.lastLoad = (w.device d).app.lastLoad)
      (running : app.running = (w.device d).app.running)
      (commands : cs = [])

theorem Renames.mem {u : UserInfo} {name : String} (h : Renames w d e app cs u name) :
  u ∈ (w.device d).app.userLists
  := (lastRecord_eq_some h.record).1

theorem Creates.written {u : UserInfo} (h : Creates w d e app cs u) :
  cs.filterMap Backend.Command.written = [.set u.taskId u.encode]
  := by
  rw [h.commands]
  rfl

theorem Creates.drawn {u : UserInfo} (h : Creates w d e app cs u) :
  cs.filterMap Backend.Command.drawn = [u.taskId]
  := by
  rw [h.commands]
  rfl

theorem Creates.userID {u : UserInfo} (h : Creates w d e app cs u) :
  u.userID = (w.device d).app.userID
  := by
  obtain ⟨i, number, c, record, -, -, rfl, -⟩ := h.delivery
  rfl

theorem Reads.written (h : Reads w d e app cs) :
  cs.filterMap Backend.Command.written = []
  := by
  cases h with
  | clears a event q userLists commands => simp [commands, Command.written]
  | loads | fails | keeps => simp [*]

theorem Reads.drawn (h : Reads w d e app cs) :
  cs.filterMap Backend.Command.drawn = []
  := by
  cases h with
  | clears a event q userLists commands => simp [commands, Command.drawn]
  | loads | fails | keeps => simp [*]

/-- A handler that writes nothing leaves in `userLists` records that were there or that it
was delivered. -/
theorem Reads.mem_userLists (h : Reads w d e app cs) {u : UserInfo} (hu : u ∈ app.userLists) :
  u ∈ (w.device d).app.userLists
    ∨ ∃ r ∈ (w.device d).client.results, u ∈ loaded r.1 r.2
  := by
  cases h with
  | loads i q c record event result userLists session login found commands =>
      rw [userLists] at hu
      have hr := List.mem_of_getElem? result
      apply (List.mem_append.mp hu).imp_right fun hu => ⟨_, hr, hu⟩
  | clears a event q userLists commands => simp [userLists] at hu
  | fails i event userLists session lastLoad commands => exact .inl (userLists ▸ hu)
  | keeps a event userLists session login lastLoad running commands => exact .inl (userLists ▸ hu)

theorem Creates.mem_userLists {u v : UserInfo} (h : Creates w d e app cs u)
    (hv : v ∈ app.userLists) :
  v ∈ (w.device d).app.userLists
    ∨ (∃ r ∈ (w.device d).client.results, v ∈ loaded r.1 r.2) ∨ v = u
  := by
  obtain ⟨i, number, c, record, -, hr, -, -, huserLists⟩ := h.delivery
  rw [huserLists] at hv
  simp only [List.mem_append, List.mem_singleton] at hv
  rcases hv with (hv | hv) | hv
  · left
    apply hv
  · right
    left
    exact ⟨_, List.mem_of_getElem? hr, hv⟩
  · right
    right
    apply hv

/-- An action renames the user, or reads. -/
theorem act_cases {a : Action} (h : act a (w.device d).app = some (app, cs)) :
  (∃ u name, Renames w d (.act d a) app cs u name) ∨ Reads w d (.act d a) app cs
  := by
  cases a with
  | launch now =>
      obtain ⟨rfl, rfl⟩ := Prod.mk.inj (Option.some.inj h.symm)
      exact .inr (.clears _ rfl .home rfl rfl)
  | tappedLoginBtn email password =>
      obtain ⟨s, hs, h⟩ := Option.map_eq_some_iff.mp h
      unfold TaskLoginViewController.tappedLoginBtn at h
      split_ifs at h
      · obtain ⟨rfl, rfl⟩ := Prod.mk.inj h.symm
        exact .inr (.keeps _ rfl rfl (.inl rfl) id rfl rfl rfl)
      · obtain ⟨rfl, rfl⟩ := Prod.mk.inj h.symm
        refine .inr (.keeps _ rfl rfl (.inl rfl) ?_ rfl rfl rfl)
        simp [TaskLoginViewController.showAlert]
  | tappedNewRegisterBtn email password =>
      obtain ⟨s, hs, h⟩ := Option.map_eq_some_iff.mp h
      unfold TaskLoginViewController.tappedNewRegisterBtn at h
      split_ifs at h
      · obtain ⟨rfl, rfl⟩ := Prod.mk.inj h.symm
        exact .inr (.keeps _ rfl rfl (.inl rfl) id rfl rfl rfl)
      · obtain ⟨rfl, rfl⟩ := Prod.mk.inj h.symm
        refine .inr (.keeps _ rfl rfl (.inl rfl) ?_ rfl rfl rfl)
        simp [TaskLoginViewController.showAlert]
  | signedIn i uid =>
      obtain ⟨number, -, h⟩ := Option.map_eq_some_iff.mp h
      obtain ⟨rfl, rfl⟩ := Prod.mk.inj h.symm
      exact .inr (.clears _ rfl (.login number) rfl rfl)
  | signInFailed i =>
      obtain ⟨number, -, h⟩ := Option.map_eq_some_iff.mp h
      obtain ⟨rfl, rfl⟩ := Prod.mk.inj h.symm
      refine .inr (.keeps _ rfl rfl (.inl rfl) ?_ rfl rfl rfl)
      simp [TaskLoginViewController.showAlert]
  | closeAlert =>
      obtain ⟨rfl, rfl⟩ := Prod.mk.inj (Option.some.inj h.symm)
      refine .inr (.keeps _ rfl rfl (.inl rfl) ?_ rfl rfl rfl)
      simp
  | logout =>
      obtain ⟨rfl, rfl⟩ := Prod.mk.inj (Option.some.inj h.symm)
      refine .inr (.keeps _ rfl rfl (.inr rfl) ?_ rfl rfl rfl)
      simp [ViewController.presentLoginViewController]
  | backToSaveBtn reName =>
      rcases TaskEditUserInfoViewController.backToSaveBtn_cases h with
        ⟨-, h⟩ | ⟨hname, u, taskId, hu, hid, h⟩
      · obtain ⟨rfl, rfl⟩ := Prod.mk.inj h
        exact .inr (.keeps _ rfl rfl (.inl rfl) id rfl rfl rfl)
      · obtain ⟨rfl, rfl⟩ := Prod.mk.inj h
        left
        exact ⟨u, reName, rfl, hname, hu, rfl, taskId, hid, rfl⟩

/-- The callback of a load creates a record, or reads. -/
theorem callback_cases {i : ℕ} {q : Query} {k : Collection String Document} {record : NewRecord}
    (hk : (w.device d).client.results[i]? = some (q, k))
    (h : callback q k record (w.device d).app = some (app, cs)) :
  (∃ u, Creates w d (.deliver d i record) app cs u) ∨ Reads w d (.deliver d i record) app cs
  := by
  cases q with
  | home =>
      obtain ⟨rfl, rfl⟩ := Prod.mk.inj (Option.some.inj h.symm)
      exact .inr (.loads i .home k record rfl hk (appendDocuments_eq .home k _) ⟨rfl, rfl⟩
        (fun _ => rfl) (by simp) rfl)
  | login number =>
      obtain ⟨login, heq⟩ :=
        TaskLoginViewController.completed_eq number k record (w.device d).app
      rw [callback, heq] at h
      split_ifs at h with hany
      · obtain ⟨rfl, rfl⟩ := Prod.mk.inj (Option.some.inj h.symm)
        exact .inr (.loads i (.login number) k record rfl hk rfl ⟨rfl, rfl⟩ (by simp)
          (fun _ => hany) rfl)
      · obtain ⟨rfl, rfl⟩ := Prod.mk.inj (Option.some.inj h.symm)
        refine .inl ⟨_, ⟨i, number, k, record, rfl, hk, rfl, ?_, rfl⟩, rfl, record.segment, rfl⟩
        intro v hv hid
        apply hany ⟨v, hv, hid⟩

/-- The callback of a load does not abort. -/
theorem callback_eq_some (q : Query) (c : Collection String Document) (record : NewRecord)
    (app : App) :
  ∃ eff, callback q c record app = some eff
  := by
  cases q with
  | home => exact ⟨_, rfl⟩
  | login number =>
      obtain ⟨login, heq⟩ := TaskLoginViewController.completed_eq number c record app
      exact ⟨_, heq⟩

/-- A handler renames the user, creates a record, or reads. -/
theorem handler_cases {c : Client String Document Query Empty}
    (hh : handler program w e = some (d, c, some (app, cs))) :
  (∃ u name, Renames w d e app cs u name) ∨ (∃ u, Creates w d e app cs u) ∨ Reads w d e app cs
  := by
  cases e with
  | act d' a =>
      obtain ⟨-, rfl, rfl, h⟩ := handler_act.mp hh
      rcases act_cases h.symm with h | h
      · left
        apply h
      · right
        right
        apply h
  | deliver d' i record =>
      obtain ⟨q, k, hk, rfl, rfl, h⟩ := handler_deliver.mp hh
      right
      apply callback_cases hk h.symm
  | fail d' i =>
      obtain ⟨q, -, rfl, rfl, h⟩ := handler_fail.mp hh
      cases q with
      | home | login =>
          obtain ⟨rfl, rfl⟩ := Prod.mk.inj (Option.some.inj h)
          exact .inr (.inr (.fails i rfl rfl rfl rfl rfl))
  | snapshot d' i =>
      obtain ⟨l, -, -, -, -, -⟩ := handler_snapshot.mp hh
      apply l.tag.elim
  | kill d' => simp [handler] at hh
  | arrive d' => simp [handler] at hh
  | answer d' i => simp [handler] at hh

/-- A write of a handler is the renamed record, or the record that is created. -/
theorem mem_written {c : Client String Document Query Empty} {x : Write String Document}
    (hh : handler program w e = some (d, c, some (app, cs)))
    (hx : x ∈ cs.filterMap Backend.Command.written) :
  (∃ u name id, Renames w d e app cs u name ∧ document u.taskId = some id
      ∧ x = .set id { u with name := name }.encode)
    ∨ ∃ u, Creates w d e app cs u ∧ x = .set u.taskId u.encode
  := by
  rcases handler_cases hh with ⟨u, name, hs⟩ | ⟨u, hs⟩ | hs
  · obtain ⟨id, hid, hcs⟩ := hs.commands
    obtain rfl : x = .set id { u with name := name }.encode := by
      simpa [hcs, Command.written] using hx
    left
    exact ⟨u, name, id, hs, hid, rfl⟩
  · rw [hs.written] at hx
    right
    use u, hs, List.mem_singleton.mp hx
  · rw [hs.written] at hx
    cases hx

end

end Users

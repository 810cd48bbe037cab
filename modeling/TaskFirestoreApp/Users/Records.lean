import TaskFirestoreApp.Users.Effects
import TaskFirestoreApp.Library.Everywhere

/-!
# Records and their owners

A record is created once, under a new id, for the user who is signed in. Every version of a
document of Users, wherever it is, has the id, the user and the time of creation of a record
that was created, and a device writes records of its own user only.
-/

/-- What never changes in a record. -/
structure Creation where
  taskId : String
  userID : String
  createdAt : Timestamp
  deriving DecidableEq

def UserInfo.creation (u : UserInfo) : Creation where
  taskId := u.taskId
  userID := u.userID
  createdAt := u.createdAt

namespace Users

open Backend UserInfoManager

variable {D : Type}

/-- The creation an event makes: a load of a login screen is delivered, and neither it nor
`userLists` has a record of the user. -/
def created (w : World D) : Event D → List Creation
  | .deliver d i record =>
      match (w.device d).client.results[i]? with
      | some (.login number, c) =>
          if ∃ u ∈ (w.device d).app.userLists ++ loaded (.login number) c,
              u.userID = (w.device d).app.userID then
            []
          else
            [(TaskLoginViewController.added record (w.device d).app.userID).creation]
      | _ => []
  | _ => []

/-- A document is a record with its id for taskId, and a record that was created. -/
def RecordedDocument (l : List Creation) (id : String) (doc : Document) : Prop :=
  ∃ u, UserInfo.decode doc = .ok u ∧ u.taskId = id ∧ u.creation ∈ l

/-- The records in `userLists` were created. -/
def RecordedApp (l : List Creation) (app : App) : Prop :=
  ∀ u ∈ app.userLists, u.creation ∈ l

/-- Every record is one of the creations `l`, each of which has an id of its own. -/
structure Recorded (l : List Creation) (w : World D) : Prop where
  versions : Everywhere (RecordedDocument l) (RecordedApp l) w
  writes : ∀ d, ∀ x ∈ (w.device d).client.unarrived, x.doc.isSome
  issued : ∀ a ∈ l, a.taskId ∈ w.issued ∧ IsSegment a.taskId
  nodup : (l.map Creation.taskId).Nodup

theorem recordedDocument_encode {l : List Creation} {u : UserInfo} (h : u.creation ∈ l) :
  RecordedDocument l u.taskId u.encode
  := ⟨u, UserInfo.decode_encode u, rfl, h⟩

/-- A record that a load finds was created. -/
theorem creation_of_mem_loaded {l : List Creation} {q : Query} {c : Collection String Document}
    (hc : c.All (RecordedDocument l)) {u : UserInfo} (hu : u ∈ loaded q c) :
  u.creation ∈ l
  := by
  obtain ⟨i, doc, hi, hdec⟩ := mem_loaded.mp hu
  obtain ⟨u', hdec', -, hl⟩ := hc i doc hi
  obtain rfl : u' = u := by simpa [hdec'] using hdec
  apply hl

/-- The taskId of a record in `userLists` is an id that was handed out. -/
theorem Recorded.segment {l : List Creation} {w : World D} {d : D} (h : Recorded l w) {u : UserInfo}
    (hu : u ∈ (w.device d).app.userLists) :
  IsSegment u.taskId
  := (h.issued _ (h.versions.app d u hu)).2

/-- A write of a handler is under the taskId of the record it writes. -/
theorem Recorded.mem_written {l : List Creation} {w : World D} {d : D} (h : Recorded l w)
    {e : Event D} {app : App} {cs : List Command} {c : Client String Document Query Empty}
    {x : Write String Document} (hh : handler program w e = some (d, c, some (app, cs)))
    (hx : x ∈ cs.filterMap Backend.Command.written) :
  (∃ u name, Renames w d e app cs u name ∧ x = .set u.taskId { u with name := name }.encode)
    ∨ ∃ u, Creates w d e app cs u ∧ x = .set u.taskId u.encode
  := by
  rcases Users.mem_written hh hx with ⟨u, name, id, hs, hid, rfl⟩ | ⟨u, hs, rfl⟩
  · left
    exact ⟨u, name, hs, by rw [(h.segment hs.mem).eq_of_document hid]⟩
  · right
    exact ⟨u, hs, rfl⟩

theorem creation_eq_of_nodup {l : List Creation} (h : (l.map Creation.taskId).Nodup)
    {u v : UserInfo} (hu : u.creation ∈ l) (hv : v.creation ∈ l) (huv : u.taskId = v.taskId) :
  u.creation = v.creation
  := List.inj_on_of_nodup_map h hu hv huv

section Step

variable [DecidableEq D] {l : List Creation} {w w' : World D} {e : Event D} {d : D}
  {app : App} {cs : List Command}

omit [DecidableEq D] in
theorem recorded_initial :
  Recorded [] (World.initial : World D)
  where
  versions := by
    apply Everywhere.of_empty rfl (fun _ => rfl)
    intro d u hu
    cases hu
  writes d x hx := by simp [World.initial] at hx
  issued a ha := by cases ha
  nodup := List.nodup_nil

omit [DecidableEq D] in
theorem created_of_creates {u : UserInfo} (h : Creates w d e app cs u) :
  created w e = [u.creation]
  := by
  obtain ⟨i, number, c, record, rfl, hr, rfl, habsent, -⟩ := h.delivery
  have hnone : ¬ ∃ u ∈ (w.device d).app.userLists ++ loaded (.login number) c,
      u.userID = (w.device d).app.userID := by
    rintro ⟨u, hu, hid⟩
    apply habsent u hu hid
  simp only [created, hr]
  rw [if_neg hnone]

/-- A step creates nothing, or it runs a handler that creates one record. -/
theorem created_cases (hs : step w e = some w') :
  created w e = [] ∨ ∃ d c app cs u, handler program w e = some (d, c, some (app, cs))
    ∧ settle program w d c (some (app, cs)) = some w' ∧ Creates w d e app cs u
    ∧ created w e = [u.creation]
  := by
  cases e with
  | deliver d i record =>
      obtain ⟨⟨f, c, r⟩, hr, hsettle⟩ := Option.bind_eq_some_iff.mp hs
      obtain ⟨q, k, hk, rfl, -, hcall⟩ := handler_deliver.mp hr
      cases q with
      | home => exact .inl (by simp [created, hk])
      | login number =>
          obtain ⟨login, heq⟩ :=
            TaskLoginViewController.completed_eq number k record (w.device d).app
          have hcall' : r = callback (.login number) k record (w.device d).app := hcall
          rw [callback, heq] at hcall'
          split_ifs at hcall' with hany
          · refine .inl ?_
            simp only [created, hk]
            rw [if_pos hany]
          · subst hcall'
            rcases callback_cases hk hcall.symm with ⟨u, hu⟩ | hreads
            · right
              exact ⟨d, c, _, _, u, hr, hsettle, hu, created_of_creates hu⟩
            · cases hreads.drawn
  | _ => exact .inl rfl

omit [DecidableEq D] in
/-- Handlers write and keep records that were created, or that they create. -/
theorem respects_recorded (h : Recorded l w) {c : Client String Document Query Empty}
    {eff : Effect} (hh : handler program w e = some (d, c, some eff)) :
  eff.Respects (RecordedDocument (l ++ created w e)) (RecordedApp (l ++ created w e))
  := by
  obtain ⟨app, cs⟩ := eff
  have hold : ∀ u ∈ (w.device d).app.userLists, u.creation ∈ l ++ created w e :=
    fun u hu => List.mem_append_left _ (h.versions.app d u hu)
  have hloaded : ∀ r ∈ (w.device d).client.results, ∀ u ∈ loaded r.1 r.2,
      u.creation ∈ l ++ created w e :=
    fun r hr u hu =>
      List.mem_append_left _ (creation_of_mem_loaded (h.versions.results d r hr) hu)
  have hcreate : ∀ u, Creates w d e app cs u → u.creation ∈ l ++ created w e := by
    intro u hs
    simp [created_of_creates hs]
  constructor
  · intro v hv
    rcases handler_cases hh with ⟨u, name, hs⟩ | ⟨u, hs⟩ | hs
    · rw [hs.app] at hv
      obtain ⟨v', hv', hvv'⟩ := mem_setName hv
      rw [hvv']
      apply hold v' hv'
    · rcases hs.mem_userLists hv with hv | ⟨r, hr, hv⟩ | rfl
      · apply hold v hv
      · apply hloaded r hr v hv
      · apply hcreate v hs
    · rcases hs.mem_userLists hv with hv | ⟨r, hr, hv⟩
      · apply hold v hv
      · apply hloaded r hr v hv
  · intro x hx
    rcases h.mem_written hh hx with ⟨u, name, hs, rfl⟩ | ⟨u, hs, rfl⟩
    · apply recordedDocument_encode (u := { u with name := name })
      apply hold u hs.mem
    · apply recordedDocument_encode (hcreate u hs)

/-- A step keeps the records, and adds what it creates. -/
theorem recorded_step (h : Recorded l w) (hs : step w e = some w') :
  Recorded (l ++ created w e) w'
  := by
  have hissued := step_issued hs
  constructor
  · apply h.versions.step _ _ _ _ hs
    · rintro i doc ⟨u, hdec, hid, hu⟩
      use u, hdec, hid, List.mem_append_left _ hu
    · intro a ha u hu
      apply List.mem_append_left _ (ha u hu)
    · intro a u hu
      cases hu
    · intro d c eff hh _
      apply respects_recorded h hh
  · intro d x hx
    rcases mem_unarrived_step hs hx with hx | ⟨c, app, cs, hh, -, hx⟩
    · apply h.writes d x hx
    · rcases h.mem_written hh hx with ⟨u, name, -, rfl⟩ | ⟨u, -, rfl⟩
      · rfl
      · rfl
  · intro a ha
    rcases List.mem_append.mp ha with ha | ha
    · obtain ⟨ha, hsegment⟩ := h.issued a ha
      exact ⟨hissued ha, hsegment⟩
    · rcases created_cases hs with hnil | ⟨d, c, app, cs, u, -, hsettle, hcreates, hu⟩
      · simp [hnil] at ha
      · obtain rfl : a = u.creation := by simpa [hu] using ha
        exact ⟨drawn_issued hsettle (by simp [UserInfo.creation, hcreates.drawn]), hcreates.taskId⟩
  · rcases created_cases hs with hnil | ⟨d, c, app, cs, u, -, hsettle, hcreates, hu⟩
    · rw [hnil, List.append_nil]
      apply h.nodup
    · have hdrawn : (created w e).map Creation.taskId = cs.filterMap Command.drawn := by
        rw [hu, hcreates.drawn]
        rfl
      rw [List.map_append, hdrawn]
      apply (nodup_append_drawn h.nodup _ hsettle _).1
      · intro i hi
        obtain ⟨a, ha, rfl⟩ := List.mem_map.mp hi
        apply (h.issued a ha).1
      · rw [hcreates.drawn]
        apply List.nodup_singleton

/-- The records created in a run of the events from `w`. -/
abbrev creations (w : World D) (es : List (Event D)) : List Creation :=
  Run.log step created w es

theorem recorded_of_run {es : List (Event D)} (h : run World.initial es = some w) :
  Recorded (creations World.initial es) w
  := by
  apply Run.log_of_step (P := Recorded) _ recorded_initial h
  intro l w e w' hw hs
  apply recorded_step hw hs

/-- A document that is stored stays stored. -/
theorem stored_step (h : Recorded l w) (hs : step w e = some w') {id : String}
    (hid : (w.server.lookup id).isSome) :
  (w'.server.lookup id).isSome
  := by
  rcases step_cases hs with ⟨d, -, hs⟩ | ⟨d, i, -, hs⟩ | ⟨d, c, r, -, hs⟩
  · obtain ⟨x, ws, hx, rfl⟩ := arrive_cases hs
    rw [World.notify_server, World.put_server, Write.lookup_apply]
    split_ifs
    · apply h.writes d x (hx ▸ List.mem_cons_self)
    · apply hid
  · obtain ⟨q, -, rfl⟩ := answer_cases hs
    apply hid
  · rwa [settle_server hs]

theorem stored_of_run {es : List (Event D)} (h : Recorded l w) (hs : run w es = some w')
    {id : String} (hid : (w.server.lookup id).isSome) :
  (w'.server.lookup id).isSome
  := by
  apply (Run.induction_of_step (f := created)
    (P := fun l w => Recorded l w ∧ (w.server.lookup id).isSome) _ ⟨h, hid⟩ hs).2
  rintro l w e w' ⟨hw, hw'⟩ hs
  use recorded_step hw hs, stored_step hw hs hw'

/-- A document that is stored is a record with its id for taskId, and keeps for ever what it
was created with. -/
theorem keeps_of_run {es es' : List (Event D)} (h : run World.initial es = some w)
    (h' : run w es' = some w') {id : String} {doc : Document}
    (hdoc : w.server.lookup id = some doc) :
  ∃ u, UserInfo.decode doc = .ok u ∧ u.taskId = id ∧ u.creation ∈ creations World.initial es
    ∧ ∃ doc' u', w'.server.lookup id = some doc' ∧ UserInfo.decode doc' = .ok u'
      ∧ u'.creation = u.creation
  := by
  have hw := recorded_of_run h
  have hw' := recorded_of_run (Run.exec_append h h')
  obtain ⟨u, hdec, hid, hu⟩ := hw.versions.server id doc hdoc
  have hstored : (w.server.lookup id).isSome := by simp [hdoc]
  obtain ⟨doc', hdoc'⟩ := Option.isSome_iff_exists.mp (stored_of_run hw h' hstored)
  obtain ⟨u', hdec', hid', hu'⟩ := hw'.versions.server id doc' hdoc'
  use u, hdec, hid, hu, doc', u', hdoc', hdec'
  apply creation_eq_of_nodup hw'.nodup hu' _ (hid'.trans hid.symm)
  rw [creations, Run.log_append h]
  apply List.mem_append_left _ hu

/-- The event makes the device `d` write `x`. -/
def Writes (w : World D) (e : Event D) (d : D) (x : Write String Document) : Prop :=
  ∃ c app cs, handler program w e = some (d, c, some (app, cs))
    ∧ x ∈ cs.filterMap Command.written

omit [DecidableEq D] in
/-- A device writes a record of the user who is signed in on it at that moment, under the
taskId of the record. -/
theorem writes_own {x : Write String Document} (h : Recorded l w) (hx : Writes w e d x) :
  ∃ u : UserInfo, x = .set u.taskId u.encode ∧ u.userID = (w.device d).app.userID
    ∧ u.creation ∈ l ++ created w e
  := by
  obtain ⟨c, app, cs, hh, hx⟩ := hx
  rcases h.mem_written hh hx with ⟨u, name, hs, rfl⟩ | ⟨u, hs, rfl⟩
  · obtain ⟨hu, hid⟩ := lastRecord_eq_some hs.record
    refine ⟨{ u with name := name }, rfl, hid, List.mem_append_left _ ?_⟩
    apply h.versions.app d u hu
  · exact ⟨u, rfl, hs.userID, by simp [created_of_creates hs]⟩

/-- In every run from the start, whatever the devices do and in whatever order writes arrive
and loads are answered: a document that is stored under an id has this id for taskId, and at
every later time the user and the time of creation with which it was created, and it was
created once; and a device only ever writes, under the taskId of a record, what is at that
moment a record of its own user, so that the document stored there is at every later time one
of this user. -/
theorem records_keep_owner {es es' : List (Event D)} (h : run World.initial es = some w)
    (h' : run w es' = some w') :
  ((creations World.initial (es ++ es')).map Creation.taskId).Nodup
    ∧ (∀ id doc, w.server.lookup id = some doc →
      ∃ u, UserInfo.decode doc = .ok u ∧ u.taskId = id ∧ u.creation ∈ creations World.initial es
        ∧ ∃ doc' u', w'.server.lookup id = some doc' ∧ UserInfo.decode doc' = .ok u'
          ∧ u'.creation = u.creation)
    ∧ ∀ e es'' d x, es' = e :: es'' → Writes w e d x →
      ∃ u : UserInfo, x = .set u.taskId u.encode ∧ u.userID = (w.device d).app.userID
        ∧ ∀ doc u', w'.server.lookup u.taskId = some doc → UserInfo.decode doc = .ok u' →
          u'.creation = u.creation
  := by
  have hw' := recorded_of_run (Run.exec_append h h')
  refine ⟨hw'.nodup, fun id doc hdoc => keeps_of_run h h' hdoc, ?_⟩
  rintro e es'' d x rfl hx
  obtain ⟨w₁, hs, -⟩ := Run.exec_cons_iff.mp h'
  obtain ⟨u, rfl, hid, hu⟩ := writes_own (recorded_of_run h) hx
  use u, rfl, hid
  intro doc u' hdoc hdec
  obtain ⟨v, hdec', htaskId, hv⟩ := hw'.versions.server _ doc hdoc
  obtain rfl : v = u' := by simpa [hdec'] using hdec
  apply creation_eq_of_nodup hw'.nodup hv _ htaskId
  rw [creations, Run.log_append h, Run.log_cons hs, ← List.append_assoc]
  apply List.mem_append_left _ hu

end Step

/-- Two users register one after the other, and both are renamed. The second one has loaded the
record of the first. -/
theorem records_keep_owner_renamed :
  ∃ w ∈ run (World.initial : World Bool) (launches true ++ loads true (record "a" (by decide))
      ++ registers true "u" ++ loads true (record "t" (by decide)) ++ [.arrive true]
      ++ launches false ++ loads false (record "b" (by decide)) ++ registers false "v"
      ++ loads false (record "s" (by decide)) ++ [.arrive false]),
    (w.device false).app.userLists.map UserInfo.taskId = ["t", "s"]
      ∧ ∃ w' ∈ run w [.act false (.backToSaveBtn "n"), .act true (.backToSaveBtn "m"),
        .arrive false, .arrive true],
      (∀ a ∈ [⟨"t", describing (some "u"), 1⟩, ⟨"s", describing (some "v"), 1⟩],
        ∃ doc' u', w'.server.lookup (Creation.taskId a) = some doc'
          ∧ UserInfo.decode doc' = .ok u' ∧ u'.creation = a)
      ∧ ∀ x, Writes w (.act false (.backToSaveBtn "n")) false x →
        ∃ u : UserInfo, x = .set u.taskId u.encode ∧ u.userID = describing (some "v")
  := by
  have hrun : ∃ w ∈ run (World.initial : World Bool) (launches true
      ++ loads true (record "a" (by decide)) ++ registers true "u"
      ++ loads true (record "t" (by decide)) ++ [.arrive true] ++ launches false
      ++ loads false (record "b" (by decide)) ++ registers false "v"
      ++ loads false (record "s" (by decide)) ++ [.arrive false]),
      (w.device false).app.userLists.map UserInfo.taskId = ["t", "s"]
        ∧ (∃ w' ∈ run w [.act false (.backToSaveBtn "n"), .act true (.backToSaveBtn "m"),
          .arrive false, .arrive true], True)
        ∧ (w.device false).app.userID = describing (some "v")
        ∧ ∀ a ∈ [⟨"t", describing (some "u"), 1⟩, ⟨"s", describing (some "v"), 1⟩],
          ∃ doc ∈ w.server.lookup (Creation.taskId a),
            (UserInfo.decode doc).toOption.map UserInfo.creation = some a := by
    decide +kernel
  obtain ⟨w, hw, huserLists, ⟨w', hw', -⟩, huserID, hall⟩ := hrun
  obtain ⟨-, hkept, hown⟩ := records_keep_owner hw hw'
  refine ⟨w, hw, huserLists, w', hw', ?_, ?_⟩
  · intro a ha
    obtain ⟨doc, hdoc, hcreation⟩ := hall a ha
    obtain ⟨u, hdec, -, -, doc', u', hdoc', hdec', heq⟩ := hkept a.taskId doc hdoc
    use doc', u', hdoc', hdec'
    rw [heq]
    simpa [hdec, Except.toOption] using hcreation
  · intro x hx
    obtain ⟨u, hu, hid, -⟩ := hown _ _ false x rfl hx
    use u, hu, hid.trans huserID

end Users
